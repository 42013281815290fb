import KeePassKeyWin.DispatchOutcome

set_option autoImplicit false

/-!
# What the reconcile task leaves in Windows

`reconcile_vault_with_os` on its own, from the answer of the plugin on, over the four functions
that `webauthnplugin_ext` wraps. Windows is a parameter, and each function may be missing from
the library or fail.
-/
namespace KeePassKeyWin.ReconcileConvergence
open ByteStrings JsonRpc OutcomeRules SidecarServices SidecarResults SidecarCalls
open Reconcile (missing vaultIds)
open UserVerification (Hresult)
open DispatchOutcome (slice slice_some)

local instance bytesLawful : LawfulBEq Bytes := inferInstance

structure WebauthnPluginCredentialDetails where
  cbCredentialId : ℕ
  pbCredentialId : Option Bytes
  pwszRpId : List UInt16
  pwszRpName : List UInt16
  cbUserId : ℕ
  pbUserId : Option Bytes
  pwszUserName : List UInt16
  pwszUserDisplayName : List UInt16

/-- A null pointer and a length of zero both read as an empty id. -/
def WebauthnPluginCredentialDetails.id (detail : WebauthnPluginCredentialDetails) : Bytes :=
  slice detail.pbCredentialId detail.cbCredentialId

/-- What is passed to Windows; the lengths are cut to a `u32`. -/
def detailOf (fields : AddCredentialsFields) : WebauthnPluginCredentialDetails where
  cbCredentialId := fields.credentialId.length % 2 ^ 32
  pbCredentialId := some fields.credentialId
  pwszRpId := fields.rpIdW
  pwszRpName := fields.rpNameW
  cbUserId := fields.userHandle.length % 2 ^ 32
  pbUserId := some fields.userHandle
  pwszUserName := fields.userNameW
  pwszUserDisplayName := fields.userDispW

structure Listing where
  osCount : ℕ
  osArr : Option (List WebauthnPluginCredentialDetails)

def Listing.held (listing : Listing) : Bool := 0 < listing.osCount && listing.osArr.isSome

def Listing.details (listing : Listing) : List WebauthnPluginCredentialDetails :=
  (listing.osArr.getD []).take listing.osCount

def Listing.osIds (listing : Listing) : List Bytes :=
  listing.details.map WebauthnPluginCredentialDetails.id

/-- The symbols of the library that may be absent. -/
structure Bindings where
  getAllCredentials : Bool
  removeCredentials : Bool
  freeCredentialDetailsArray : Bool

/-- The credential list of Windows. A call that succeeds does what its documentation says, and
nothing is known of one that fails. -/
structure Windows where
  State : Type
  credentials : State → List WebauthnPluginCredentialDetails
  getAll : State → Hresult × Listing
  add : WebauthnPluginCredentialDetails → State → Hresult × State
  remove : WebauthnPluginCredentialDetails → State → Hresult × State
  getAll_lists : ∀ s, (getAll s).1.isErr = false →
    (getAll s).2.osCount = (credentials s).length ∧
      ((getAll s).2.osCount = 0 ∨ (getAll s).2.osArr = some (credentials s))
  add_ids : ∀ detail s, (add detail s).1.isErr = false → ∀ id,
    id ∈ (credentials (add detail s).2).map WebauthnPluginCredentialDetails.id ↔
      id ∈ (credentials s).map WebauthnPluginCredentialDetails.id ∨ id = detail.id
  remove_ids : ∀ detail s, (remove detail s).1.isErr = false → ∀ id,
    id ∈ (credentials (remove detail s).2).map WebauthnPluginCredentialDetails.id ↔
      id ∈ (credentials s).map WebauthnPluginCredentialDetails.id ∧ id ≠ detail.id

def Windows.ids (W : Windows) (s : W.State) : List Bytes :=
  (W.credentials s).map WebauthnPluginCredentialDetails.id

section
variable (W : Windows) (library : Except String Bindings)

def getAllCredentials (s : W.State) : Except String Listing := do
  let b ← library
  if b.getAllCredentials then
    let (hr, listing) := W.getAll s
    if hr.isErr then
      throw ("GetAllCredentials failed: 0x" ++ PipeServer.hexString (bigEndian 4 hr.toNat))
    return listing
  else
    throw "WebAuthNPluginAuthenticatorGetAllCredentials not exported by webauthn.dll on this build"

def addCredentials (detail : WebauthnPluginCredentialDetails) (s : W.State) :
    Except String (Hresult × W.State) := do
  let _ ← library
  return W.add detail s

def removeCredentials (detail : WebauthnPluginCredentialDetails) (s : W.State) :
    Except String (Hresult × W.State) := do
  let b ← library
  if b.removeCredentials then return W.remove detail s
  else
    throw "WebAuthNPluginAuthenticatorRemoveCredentials not exported by webauthn.dll on this build"

inductive Call where
  | getAll (result : Except String Listing)
  | add (detail : WebauthnPluginCredentialDetails) (result : Except String Hresult)
  | remove (detail : WebauthnPluginCredentialDetails) (result : Except String Hresult)
  | free (listing : Listing)

/-- The state of Windows after some calls, and whether the task goes on. -/
structure Progress where
  state : W.State
  calls : List Call
  going : Bool

/-- Without the binding, or without the symbol, nothing is freed. -/
def freeCredentialDetailsArray (listing : Listing) : List Call :=
  if listing.held then
    match library with
    | .ok b => if b.freeCredentialDetailsArray then [.free listing] else []
    | .error _ => []
  else []

def addMissing (B : SidecarBase64) (osIds : List Bytes) : List JToken → W.State → Progress W
  | [], s => ⟨s, [], true⟩
  | item :: rest, s =>
    match missing B osIds item with
    | none => addMissing B osIds rest s
    | some fields =>
      match addCredentials W library (detailOf fields) s with
      | .error e => ⟨s, [.add (detailOf fields) (.error e)], false⟩
      | .ok (hr, s') =>
        let p := addMissing B osIds rest s'
        ⟨p.state, .add (detailOf fields) (.ok hr) :: p.calls, p.going⟩

def removeStale (vaultIds : List Bytes) :
    List WebauthnPluginCredentialDetails → W.State → Progress W
  | [], s => ⟨s, [], true⟩
  | detail :: rest, s =>
    if detail.id = [] then removeStale vaultIds rest s
    else if detail.id ∈ vaultIds then removeStale vaultIds rest s
    else
      match removeCredentials W library detail s with
      | .error e => ⟨s, [.remove detail (.error e)], false⟩
      | .ok (hr, s') =>
        let p := removeStale vaultIds rest s'
        ⟨p.state, .remove detail (.ok hr) :: p.calls, p.going⟩

/-- Steps 3 to 5. An addition that fails outright ends the task, a removal only its loop. -/
def synchronise (B : SidecarBase64) (vault : List JToken) (listing : Listing) (s : W.State) :
    W.State × List Call :=
  let adding := addMissing W library B listing.osIds vault s
  if adding.going then
    let removing :=
      if listing.held then
        removeStale W library (vaultIds B vault) listing.details adding.state
      else ⟨adding.state, [], true⟩
    (removing.state,
      adding.calls ++ removing.calls ++ freeCredentialDetailsArray library listing)
  else (adding.state, adding.calls ++ freeCredentialDetailsArray library listing)

def reconcileVaultWithOs (B : SidecarBase64) (rpcResult : Option (Except ClientError JToken))
    (s : W.State) : W.State × List Call :=
  match rpcResult with
  | some (.ok (.array vault)) =>
    match getAllCredentials W library s with
    | .error e => (s, [.getAll (.error e)])
    | .ok listing =>
      let (s', calls) := synchronise W library B vault listing s
      (s', .getAll (.ok listing) :: calls)
  | _ => (s, [])

end

def Call.succeeded : Call → Bool
  | .getAll (.ok _) => true
  | .add _ (.ok hr) => !hr.isErr
  | .remove _ (.ok hr) => !hr.isErr
  | .free _ => true
  | _ => false

def Call.isFree : Call → Bool
  | .free _ => true
  | _ => false

def Call.changes : Call → Option Bytes
  | .add detail _ => some (detail.pbCredentialId.getD [])
  | .remove detail _ => some detail.id
  | _ => none

def Readable (B : SidecarBase64) (vault : List JToken) (id : Bytes) : Prop :=
  ∃ item ∈ vault, ∃ fields, parseAddCredentialsFields B (translated item) = .ok fields ∧
    fields.credentialId = id

/-- The ids that Windows should list, if it listed `os`. -/
def Synced (B : SidecarBase64) (vault : List JToken) (os : List Bytes) (id : Bytes) : Prop :=
  id ∈ os ∧ (id ∈ vaultIds B vault ∨ id = []) ∨ Readable B vault id

def Complete (library : Except String Bindings) : Prop :=
  ∃ b, library = .ok b ∧ b.getAllCredentials = true ∧ b.removeCredentials = true

section
variable (W : Windows) (library : Except String Bindings) (B : SidecarBase64)
  (vault : List JToken) (s : W.State)

def runAlone : W.State × List Call :=
  reconcileVaultWithOs W library B (some (.ok (.array vault))) s

def Succeeds : Prop :=
  Complete library ∧ ∀ call ∈ (runAlone W library B vault s).2, call.succeeded = true

end

/-- What the task does alone with these items, whatever Windows it is that lists these
credentials. -/
structure Converges (library : Except String Bindings) (B : SidecarBase64) (vault : List JToken)
    (credentials : List WebauthnPluginCredentialDetails) : Prop where
  synced : ∀ (W : Windows) (s : W.State), W.credentials s = credentials →
    Succeeds W library B vault s → ∀ id,
      id ∈ W.ids (runAlone W library B vault s).1 ↔ Synced B vault (W.ids s) id
  spared : ∀ (W : Windows) (s : W.State), W.credentials s = credentials → ∀ id ∈ W.ids s,
    id ∈ vaultIds B vault → ∀ call ∈ (runAlone W library B vault s).2, call.changes ≠ some id
  freed : ∀ (W : Windows) (s : W.State), W.credentials s = credentials → ∀ listing,
    Call.getAll (.ok listing) ∈ (runAlone W library B vault s).2 → listing.held = true →
      (runAlone W library B vault s).2.countP Call.isFree = 1
  settled : ∀ (W : Windows) (s : W.State), W.credentials s = credentials →
    Succeeds W library B vault s →
      ∀ call ∈ (runAlone W library B vault (runAlone W library B vault s).1).2, call.changes = none

/-- What is allocated can be freed, and the ids that are added fit a `u32`. -/
structure Fits (library : Except String Bindings) (B : SidecarBase64) (vault : List JToken)
    (credentials : List WebauthnPluginCredentialDetails) : Prop where
  exported : ∀ b, library = .ok b → b.getAllCredentials = true → credentials ≠ [] →
    b.freeCredentialDetailsArray = true
  short : Complete library → ∀ item ∈ vault, ∀ fields,
    missing B (credentials.map WebauthnPluginCredentialDetails.id) item = some fields →
      fields.credentialId.length < 2 ^ 32

section
variable {B : SidecarBase64} {vault : List JToken} {item : JToken} {fields : AddCredentialsFields}

theorem vaultId_of_parsed (parsed : parseAddCredentialsFields B (translated item) = .ok fields) :
    vaultId B item = some fields.credentialId := by
  obtain ⟨text, given, decoded⟩ := parseAddCredentialsFields_id parsed
  have own : asStr (index item "credentialId") = some text := given
  rw [vaultId, own]
  exact decoded

theorem missing_iff {osIds : List Bytes} : missing B osIds item = some fields ↔
    parseAddCredentialsFields B (translated item) = .ok fields ∧ fields.credentialId ∉ osIds := by
  unfold missing
  constructor
  · intro new
    split at new
    · rename_i id own
      split_ifs at new with known
      cases parsed : parseAddCredentialsFields B (translated item) with
      | error e =>
        rw [parsed] at new
        cases new
      | ok fields' =>
        rw [parsed] at new
        obtain rfl := Option.some.inj new
        obtain rfl := Option.some.inj (own.symm.trans (vaultId_of_parsed parsed))
        exact ⟨rfl, known⟩
    · cases new
  · rintro ⟨parsed, new⟩
    rw [vaultId_of_parsed parsed, parsed]
    exact if_neg new

theorem mem_vaultIds {id : Bytes} :
    id ∈ vaultIds B vault ↔ ∃ item ∈ vault, vaultId B item = some id := List.mem_filterMap

theorem Readable.mem {id : Bytes} (readable : Readable B vault id) : id ∈ vaultIds B vault := by
  obtain ⟨item, mem, fields, parsed, rfl⟩ := readable
  exact mem_vaultIds.mpr ⟨item, mem, vaultId_of_parsed parsed⟩

theorem detailOf_id (fields : AddCredentialsFields) : (detailOf fields).id =
    fields.credentialId.take (fields.credentialId.length % 2 ^ 32) := slice_some _ _

theorem detailOf_id_of_short (short : fields.credentialId.length < 2 ^ 32) :
    (detailOf fields).id = fields.credentialId := by
  rw [detailOf_id, Nat.mod_eq_of_lt short, List.take_length]

theorem detailOf_id_length (fields : AddCredentialsFields) :
    (detailOf fields).id.length < 2 ^ 32 := by
  have cut : fields.credentialId.length % 2 ^ 32 < 2 ^ 32 := Nat.mod_lt _ (by omega)
  rw [detailOf_id, List.length_take]
  omega

end

section
variable {W : Windows} {library : Except String Bindings} {B : SidecarBase64}
  {osIds ids : List Bytes}

theorem addMissing_going (B : SidecarBase64) (b : Bindings) (osIds : List Bytes)
    (vault : List JToken) (s : W.State) : (addMissing W (.ok b) B osIds vault s).going = true := by
  induction vault generalizing s with
  | nil => rfl
  | cons item rest ih =>
    unfold addMissing
    cases new : missing B osIds item with
    | none => exact ih s
    | some fields => exact ih _

theorem addMissing_calls {b : Bindings} {call : Call} (vault : List JToken) (s : W.State)
    (called : call ∈ (addMissing W (.ok b) B osIds vault s).calls) :
    ∃ item ∈ vault, ∃ fields s', missing B osIds item = some fields ∧
      call = .add (detailOf fields) (.ok (W.add (detailOf fields) s').1) := by
  induction vault generalizing s with
  | nil => cases called
  | cons item rest ih =>
    have later : ∀ s, call ∈ (addMissing W (.ok b) B osIds rest s).calls →
        ∃ item' ∈ item :: rest, ∃ fields s', missing B osIds item' = some fields ∧
          call = .add (detailOf fields) (.ok (W.add (detailOf fields) s').1) := by
      intro s called
      obtain ⟨item', mem, found⟩ := ih s called
      exact ⟨item', List.mem_cons_of_mem _ mem, found⟩
    unfold addMissing at called
    cases new : missing B osIds item with
    | none =>
      rw [new] at called
      exact later s called
    | some fields =>
      rw [new] at called
      rcases List.mem_cons.mp called with own | called
      · exact ⟨item, List.mem_cons_self .., fields, s, new, own⟩
      · exact later _ called

theorem addMissing_ids {b : Bindings} (vault : List JToken) (s : W.State)
    (succeeded : ∀ call ∈ (addMissing W (.ok b) B osIds vault s).calls, call.succeeded = true)
    (id : Bytes) : id ∈ W.ids (addMissing W (.ok b) B osIds vault s).state ↔
      id ∈ W.ids s ∨ ∃ item ∈ vault, ∃ fields, missing B osIds item = some fields ∧
        id = (detailOf fields).id := by
  induction vault generalizing s with
  | nil => simp [addMissing]
  | cons item rest ih =>
    unfold addMissing at succeeded ⊢
    cases new : missing B osIds item with
    | none =>
      rw [new] at succeeded
      rw [ih s succeeded]
      simp [new]
    | some fields =>
      rw [new] at succeeded
      have added : (W.add (detailOf fields) s).1.isErr = false := by
        simpa [Call.succeeded] using succeeded _ (List.mem_cons_self ..)
      have later := ih (W.add (detailOf fields) s).2
        fun call mem => succeeded call (List.mem_cons_of_mem _ mem)
      refine later.trans ?_
      rw [Windows.ids, W.add_ids _ _ added]
      simp [new, Windows.ids, or_assoc]

theorem removeCredentials_ok {detail : WebauthnPluginCredentialDetails} {s : W.State}
    {r : Hresult × W.State} (done : removeCredentials W library detail s = .ok r) :
    W.remove detail s = r := by
  obtain ⟨b, _, done⟩ := except_bind_ok.mp done
  split_ifs at done
  exact except_pure_ok.mp done

theorem removeStale_calls {call : Call} (details : List WebauthnPluginCredentialDetails)
    (s : W.State) (called : call ∈ (removeStale W library ids details s).calls) :
    ∃ detail ∈ details, detail.id ≠ [] ∧ detail.id ∉ ids ∧ ∃ result, call = .remove detail result ∧
      (Complete library → ∃ s', result = .ok (W.remove detail s').1) := by
  induction details generalizing s with
  | nil => cases called
  | cons detail rest ih =>
    have later : ∀ s, call ∈ (removeStale W library ids rest s).calls →
        ∃ detail' ∈ detail :: rest, detail'.id ≠ [] ∧ detail'.id ∉ ids ∧ ∃ result,
          call = .remove detail' result ∧
            (Complete library → ∃ s', result = .ok (W.remove detail' s').1) := by
      intro s called
      obtain ⟨detail', mem, found⟩ := ih s called
      exact ⟨detail', List.mem_cons_of_mem _ mem, found⟩
    unfold removeStale at called
    split_ifs at called with blank kept
    · exact later s called
    · exact later s called
    · split at called
      · rename_i e failed
        refine ⟨detail, List.mem_cons_self .., blank, kept, _, List.mem_singleton.mp called, ?_⟩
        rintro ⟨b, rfl, _, removes⟩
        simp [removeCredentials, removes, bind, Except.bind, pure, Except.pure] at failed
      · rename_i hr s' removed
        rcases List.mem_cons.mp called with own | called
        · refine ⟨detail, List.mem_cons_self .., blank, kept, _, own, ?_⟩
          rintro ⟨b, rfl, _, removes⟩
          simp [removeCredentials, removes, bind, Except.bind, pure, Except.pure] at removed
          exact ⟨s, by rw [removed]⟩
        · exact later _ called

theorem removeStale_ids (details : List WebauthnPluginCredentialDetails) (s : W.State)
    (succeeded : ∀ call ∈ (removeStale W library ids details s).calls, call.succeeded = true)
    (id : Bytes) : id ∈ W.ids (removeStale W library ids details s).state ↔
      id ∈ W.ids s ∧ ∀ detail ∈ details, detail.id = id → id ∈ ids ∨ id = [] := by
  induction details generalizing s with
  | nil => simp [removeStale]
  | cons detail rest ih =>
    rw [List.forall_mem_cons]
    unfold removeStale at succeeded ⊢
    split_ifs at succeeded ⊢ with blank kept
    · have spared : detail.id = id → id ∈ ids ∨ id = [] := fun own => .inr (own ▸ blank)
      rw [ih s succeeded, and_iff_right spared]
    · have spared : detail.id = id → id ∈ ids ∨ id = [] := fun own => .inl (own ▸ kept)
      rw [ih s succeeded, and_iff_right spared]
    · cases call : removeCredentials W library detail s with
      | error e =>
        rw [call] at succeeded
        cases succeeded _ (List.mem_singleton.mpr rfl)
      | ok r =>
        obtain ⟨hr, s'⟩ := r
        rw [call] at succeeded
        have done : hr.isErr = false := by
          simpa [Call.succeeded] using succeeded _ (List.mem_cons_self ..)
        have removed : W.remove detail s = (hr, s') := removeCredentials_ok call
        have left := W.remove_ids detail s (by rw [removed]; exact done) id
        rw [removed] at left
        refine (ih s' fun call mem => succeeded call (List.mem_cons_of_mem _ mem)).trans ?_
        rw [Windows.ids, left, and_assoc]
        refine and_congr_right fun _ => and_congr_left fun _ => ?_
        constructor
        · exact fun other own => absurd own.symm other
        · rintro spared rfl
          exact (spared rfl).elim kept blank

theorem getAllCredentials_ok {s : W.State} {listing : Listing}
    (listed : getAllCredentials W library s = .ok listing) :
    (∃ b, library = .ok b ∧ b.getAllCredentials = true) ∧ listing.details = W.credentials s ∧
      (listing.held = true ↔ W.credentials s ≠ []) := by
  obtain ⟨b, loaded, listed⟩ := except_bind_ok.mp listed
  dsimp only at listed
  split_ifs at listed with exported failed
  · cases listed
  obtain rfl := except_pure_ok.mp listed
  obtain ⟨count, array⟩ := W.getAll_lists s (Bool.eq_false_iff.mpr failed)
  refine ⟨⟨b, loaded, exported⟩, ?_, ?_⟩
  · rcases array with none | array
    · have empty : W.credentials s = [] := List.length_eq_zero_iff.mp (count.symm.trans none)
      rw [Listing.details, none, empty, List.take_zero]
    · rw [Listing.details, array, count, Option.getD_some, List.take_length]
  · rw [Listing.held, Bool.and_eq_true, decide_eq_true_eq, count, List.length_pos_iff]
    constructor
    · exact fun held => held.1
    · intro some
      have positive : (W.getAll s).2.osCount ≠ 0 := by
        rw [count]
        exact fun none => some (List.length_eq_zero_iff.mp none)
      rw [array.resolve_left positive]
      exact ⟨some, rfl⟩

theorem freeCredentialDetailsArray_held {b : Bindings} {listing : Listing}
    (held : listing.held = true) : freeCredentialDetailsArray (.ok b) listing =
      if b.freeCredentialDetailsArray then [.free listing] else [] := if_pos held

theorem mem_freed {call : Call} {listing : Listing}
    (frees : call ∈ freeCredentialDetailsArray library listing) : call = .free listing := by
  unfold freeCredentialDetailsArray at frees
  split_ifs at frees
  · split at frees
    · split_ifs at frees
      · exact List.mem_singleton.mp frees
      · cases frees
    · cases frees
  · cases frees

theorem runAlone_error {vault : List JToken} {s : W.State} {e : String}
    (failed : getAllCredentials W library s = .error e) :
    runAlone W library B vault s = (s, [.getAll (.error e)]) := by
  simp only [runAlone, reconcileVaultWithOs, failed]

theorem runAlone_ok {vault : List JToken} {s : W.State} {listing : Listing}
    (listed : getAllCredentials W library s = .ok listing) :
    runAlone W library B vault s =
      ((removeStale W library (vaultIds B vault) (W.credentials s)
          (addMissing W library B (W.ids s) vault s).state).state,
        .getAll (.ok listing) :: ((addMissing W library B (W.ids s) vault s).calls ++
          (removeStale W library (vaultIds B vault) (W.credentials s)
            (addMissing W library B (W.ids s) vault s).state).calls ++
          freeCredentialDetailsArray library listing)) := by
  obtain ⟨⟨b, rfl, _⟩, details, held⟩ := getAllCredentials_ok listed
  have osIds : listing.osIds = W.ids s := by rw [Listing.osIds, details, Windows.ids]
  have going := addMissing_going B b (W.ids s) vault s
  simp only [runAlone, reconcileVaultWithOs, listed, synchronise, osIds, going, if_true, details]
  cases array : listing.held with
  | true => rfl
  | false =>
    have empty : W.credentials s = [] := by
      by_contra some
      rw [held.mpr some] at array
      cases array
    rw [empty]
    rfl

theorem runAlone_calls {vault : List JToken} {s : W.State} {call : Call}
    (called : call ∈ (runAlone W library B vault s).2) :
    (∃ result, call = .getAll result ∧ result = getAllCredentials W library s) ∨
      (∃ item ∈ vault, ∃ fields s', missing B (W.ids s) item = some fields ∧
        call = .add (detailOf fields) (.ok (W.add (detailOf fields) s').1)) ∨
      (∃ detail ∈ W.credentials s, detail.id ≠ [] ∧ detail.id ∉ vaultIds B vault ∧ ∃ result,
        call = .remove detail result ∧
          (Complete library → ∃ s', result = .ok (W.remove detail s').1)) ∨
      ∃ listing, call = .free listing := by
  cases listed : getAllCredentials W library s with
  | error e =>
    rw [runAlone_error listed] at called
    exact .inl ⟨_, List.mem_singleton.mp called, rfl⟩
  | ok listing =>
    rw [runAlone_ok listed, List.mem_cons, List.mem_append, List.mem_append] at called
    obtain ⟨⟨b, rfl, _⟩, _⟩ := getAllCredentials_ok listed
    rcases called with first | (adds | removes) | frees
    · exact .inl ⟨_, first, rfl⟩
    · exact .inr (.inl (addMissing_calls vault s adds))
    · exact .inr (.inr (.inl (removeStale_calls _ _ removes)))
    · exact .inr (.inr (.inr ⟨listing, mem_freed frees⟩))

/-- Nothing that both sides have is touched. -/
theorem runAlone_spares {vault : List JToken} {s : W.State} {id : Bytes} (listed : id ∈ W.ids s)
    (kept : id ∈ vaultIds B vault) {call : Call}
    (called : call ∈ (runAlone W library B vault s).2) : call.changes ≠ some id := by
  rcases runAlone_calls called with ⟨_, rfl, _⟩ | ⟨item, _, fields, _, new, rfl⟩ |
    ⟨detail, _, _, stale, _, rfl, _⟩ | ⟨_, rfl⟩
  · simp [Call.changes]
  · intro own
    obtain rfl := Option.some.inj own
    exact (missing_iff.mp new).2 listed
  · intro own
    obtain rfl := Option.some.inj own
    exact stale kept
  · simp [Call.changes]

/-- Once Windows lists what it should, a run changes nothing. -/
theorem runAlone_settled {vault : List JToken} {s : W.State} {os : List Bytes}
    (synced : ∀ id, id ∈ W.ids s ↔ Synced B vault os id) {call : Call}
    (called : call ∈ (runAlone W library B vault s).2) : call.changes = none := by
  rcases runAlone_calls called with ⟨_, rfl, _⟩ | ⟨item, mem, fields, _, new, rfl⟩ |
    ⟨detail, mem, named, stale, _, rfl, _⟩ | ⟨_, rfl⟩
  · rfl
  · obtain ⟨parsed, absent⟩ := missing_iff.mp new
    exact absurd ((synced _).mpr (.inr ⟨item, mem, fields, parsed, rfl⟩)) absent
  · have listed : detail.id ∈ W.ids s := List.mem_map_of_mem mem
    rcases (synced _).mp listed with ⟨_, kept | blank⟩ | readable
    · exact absurd kept stale
    · exact absurd blank named
    · exact absurd readable.mem stale
  · rfl

/-- What a run in which every call succeeds leaves. -/
theorem runAlone_ids {vault : List JToken} {s : W.State}
    (succeeds : Succeeds W library B vault s) (id : Bytes) :
    id ∈ W.ids (runAlone W library B vault s).1 ↔
      (id ∈ W.ids s ∨ ∃ item ∈ vault, ∃ fields, missing B (W.ids s) item = some fields ∧
        id = (detailOf fields).id) ∧
      (id ∈ W.ids s → id ∈ vaultIds B vault ∨ id = []) := by
  obtain ⟨_, succeeded⟩ := succeeds
  cases listed : getAllCredentials W library s with
  | error e =>
    rw [runAlone_error listed] at succeeded
    cases succeeded _ (List.mem_singleton.mpr rfl)
  | ok listing =>
    rw [runAlone_ok listed] at succeeded ⊢
    obtain ⟨⟨b, rfl, _⟩, _⟩ := getAllCredentials_ok listed
    have adds := addMissing_ids vault s fun call mem => succeeded call
      (List.mem_cons_of_mem _ (List.mem_append_left _ (List.mem_append_left _ mem)))
    have removes := removeStale_ids (W.credentials s) _ fun call mem => succeeded call
      (List.mem_cons_of_mem _ (List.mem_append_left _ (List.mem_append_right _ mem)))
    rw [removes, adds]
    simp only [Windows.ids, List.mem_map, forall_exists_index, and_imp]

theorem countP_free {vault : List JToken} {s : W.State} {listing : Listing}
    (listed : getAllCredentials W library s = .ok listing) :
    (runAlone W library B vault s).2.countP Call.isFree =
      (freeCredentialDetailsArray library listing).countP Call.isFree := by
  obtain ⟨⟨b, rfl, _⟩, _⟩ := getAllCredentials_ok listed
  have adds : (addMissing W (.ok b) B (W.ids s) vault s).calls.countP Call.isFree = 0 := by
    rw [List.countP_eq_zero]
    intro call mem
    obtain ⟨_, _, _, _, _, rfl⟩ := addMissing_calls vault s mem
    simp [Call.isFree]
  have removes : ∀ s', (removeStale W (.ok b) (vaultIds B vault) (W.credentials s)
      s').calls.countP Call.isFree = 0 := by
    intro s'
    rw [List.countP_eq_zero]
    intro call mem
    obtain ⟨_, _, _, _, _, rfl, _⟩ := removeStale_calls _ s' mem
    simp [Call.isFree]
  rw [runAlone_ok listed, List.countP_cons_of_neg (by simp [Call.isFree]), List.countP_append,
    List.countP_append, adds, removes, Nat.zero_add]

end

section
variable {library : Except String Bindings} {B : SidecarBase64} {vault : List JToken}
  {credentials : List WebauthnPluginCredentialDetails}

theorem Fits.synced (fits : Fits library B vault credentials) {W : Windows} {s : W.State}
    (own : W.credentials s = credentials) (succeeds : Succeeds W library B vault s) (id : Bytes) :
    id ∈ W.ids (runAlone W library B vault s).1 ↔ Synced B vault (W.ids s) id := by
  subst own
  have short := fits.short succeeds.1
  rw [runAlone_ids succeeds]
  constructor
  · rintro ⟨listed | ⟨item, mem, fields, new, rfl⟩, spared⟩
    · exact .inl ⟨listed, spared listed⟩
    · rw [detailOf_id_of_short (short item mem fields new)]
      exact .inr ⟨item, mem, fields, (missing_iff.mp new).1, rfl⟩
  · rintro (⟨listed, spared⟩ | readable)
    · exact ⟨.inl listed, fun _ => spared⟩
    · refine ⟨?_, fun _ => .inl readable.mem⟩
      by_cases listed : id ∈ W.ids s
      · exact .inl listed
      · obtain ⟨item, mem, fields, parsed, rfl⟩ := readable
        have new : missing B (W.ids s) item = some fields := missing_iff.mpr ⟨parsed, listed⟩
        exact .inr ⟨item, mem, fields, new, (detailOf_id_of_short (short item mem fields new)).symm⟩

theorem Fits.freed (fits : Fits library B vault credentials) {W : Windows} {s : W.State}
    (own : W.credentials s = credentials) {listing : Listing}
    (called : Call.getAll (.ok listing) ∈ (runAlone W library B vault s).2)
    (held : listing.held = true) :
    (runAlone W library B vault s).2.countP Call.isFree = 1 := by
  rcases runAlone_calls called with ⟨_, same, listed⟩ | ⟨_, _, _, _, _, other⟩ |
    ⟨_, _, _, _, _, other, _⟩ | ⟨_, other⟩
  · obtain rfl := Call.getAll.inj same
    obtain ⟨⟨b, loaded, exported⟩, _, array⟩ := getAllCredentials_ok listed.symm
    have frees : b.freeCredentialDetailsArray = true :=
      fits.exported b loaded exported (own ▸ array.mp held)
    rw [countP_free listed.symm, loaded, freeCredentialDetailsArray_held held, if_pos frees]
    rfl
  · cases other
  · cases other
  · cases other

theorem Fits.converges (fits : Fits library B vault credentials) :
    Converges library B vault credentials where
  synced _ _ own succeeds := fits.synced own succeeds
  spared _ _ _ _ listed kept _ called := runAlone_spares listed kept called
  freed _ _ own _ called held := fits.freed own called held
  settled _ _ own succeeds _ called := runAlone_settled (fits.synced own succeeds) called

end

def obliging : Windows where
  State := List WebauthnPluginCredentialDetails
  credentials s := s
  getAll s := (0, ⟨s.length, some s⟩)
  add detail s := (0, s ++ [detail])
  remove detail s := (0, s.filter (·.id ≠ detail.id))
  getAll_lists s _ := ⟨rfl, .inr rfl⟩
  add_ids detail s _ id := by simp [eq_comm]
  remove_ids detail s _ id := by
    simp only [List.mem_map, List.mem_filter, decide_eq_true_eq]
    constructor
    · rintro ⟨detail', ⟨mem, other⟩, rfl⟩
      exact ⟨⟨detail', mem, rfl⟩, other⟩
    · rintro ⟨⟨detail', mem, rfl⟩, other⟩
      exact ⟨detail', ⟨mem, other⟩, rfl⟩

section
variable {library : Except String Bindings} {B : SidecarBase64} {vault : List JToken}
  {credentials : List WebauthnPluginCredentialDetails}

theorem obliging_lists (credentials : List WebauthnPluginCredentialDetails) {b : Bindings}
    (loaded : library = .ok b) (exported : b.getAllCredentials = true) :
    getAllCredentials obliging library credentials =
      .ok ⟨credentials.length, some credentials⟩ := by
  subst loaded
  simp [getAllCredentials, exported, obliging, bind, Except.bind, pure, Except.pure]
  rfl

theorem obliging_succeeds (B : SidecarBase64) (vault : List JToken)
    (credentials : List WebauthnPluginCredentialDetails) (complete : Complete library) :
    Succeeds obliging library B vault credentials := by
  refine ⟨complete, fun call called => ?_⟩
  rcases runAlone_calls called with ⟨_, rfl, result⟩ | ⟨_, _, fields, _, _, rfl⟩ |
    ⟨detail, _, _, _, _, rfl, done⟩ | ⟨_, rfl⟩
  · obtain ⟨b, loaded, exported, _⟩ := complete
    rw [result, obliging_lists credentials loaded exported]
    rfl
  · rfl
  · obtain ⟨_, rfl⟩ := done complete
    rfl
  · rfl

theorem Converges.exported (converges : Converges library B vault credentials) {b : Bindings}
    (loaded : library = .ok b) (exported : b.getAllCredentials = true) (some : credentials ≠ []) :
    b.freeCredentialDetailsArray = true := by
  have listed := obliging_lists credentials loaded exported
  have held : Listing.held ⟨credentials.length, .some credentials⟩ = true := by
    simp [Listing.held, List.length_pos_iff, some]
  have called : Call.getAll (.ok ⟨credentials.length, .some credentials⟩) ∈
      (runAlone obliging library B vault credentials).2 := by
    rw [runAlone_ok listed]
    exact List.mem_cons_self ..
  have once := converges.freed obliging credentials rfl _ called held
  rw [countP_free listed, loaded, freeCredentialDetailsArray_held held] at once
  by_contra absent
  rw [if_neg absent] at once
  cases once

theorem Converges.short (converges : Converges library B vault credentials)
    (complete : Complete library) {item : JToken} (mem : item ∈ vault)
    {fields : AddCredentialsFields}
    (new : missing B (credentials.map WebauthnPluginCredentialDetails.id) item = some fields) :
    fields.credentialId.length < 2 ^ 32 := by
  have succeeds := obliging_succeeds B vault credentials complete
  obtain ⟨parsed, absent⟩ := missing_iff.mp new
  have due : Synced B vault (obliging.ids credentials) fields.credentialId :=
    .inr ⟨item, mem, fields, parsed, rfl⟩
  have present := (converges.synced obliging credentials rfl succeeds _).mpr due
  rcases ((runAlone_ids succeeds _).mp present).1 with listed | ⟨_, _, fields', _, own⟩
  · exact absurd listed absent
  · rw [own]
    exact detailOf_id_length fields'

end

/-- The task converges exactly if the library can free what it allocates, and the ids of the
additions fit a `u32`. -/
theorem reconcile_converges_iff (library : Except String Bindings) (B : SidecarBase64)
    (vault : List JToken) (credentials : List WebauthnPluginCredentialDetails) :
    Converges library B vault credentials ↔ Fits library B vault credentials := by
  constructor
  · intro converges
    exact ⟨fun b loaded exported some => converges.exported loaded exported some,
      fun complete item mem fields new => converges.short complete mem new⟩
  · exact Fits.converges

namespace Sample

def credentials : List WebauthnPluginCredentialDetails :=
  [detailOf (Reconcile.Sample.fields [1])]

end Sample

/-- A library that lists the credentials, and has nothing to free them by. -/
theorem array_not_freed :
    (runAlone obliging (.ok ⟨true, true, false⟩) Reconcile.Sample.base64 []
      Sample.credentials).2.countP Call.isFree = 0 ∧
    ¬ Converges (.ok ⟨true, true, false⟩) Reconcile.Sample.base64 [] Sample.credentials := by
  constructor
  · rw [countP_free (obliging_lists _ rfl rfl)]
    rfl
  · intro converges
    cases converges.exported rfl rfl (List.cons_ne_nil _ _)

end KeePassKeyWin.ReconcileConvergence
