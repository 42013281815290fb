import KeePassKeyWin.OsListing
import KeePassKeyWin.StoreRefinement

set_option autoImplicit false

/-!
# The vault as a service

Seen from the pipe, the vault is a table: a request reads it, or comes to one operation on it.
What the checks in front of that operation ask of the records, they ask of the rows of the table,
and a `Save` that throws has changed the table all the same.
-/
namespace KeePassKeyWin.VaultService
open ByteStrings JsonRpc NumberFormat OutcomeRules PlatformServices FirstMatch KeyedTables
open CredentialEncodings PasskeyStore VaultGates CtapRequests VaultHandler VaultResponses
open VaultOutcomes VaultRuns TransitionRuns
open Reconcile (enumerated)
open RequestEffects (prepareCreate creates_of_prepareCreate prepareMake prepared Registers
  DeletesStored handle_registers handle_deletes createPasskey_eq handleMakeCredentialRaw_eq
  addAndAnswer)
open StoreRefinement (Op Table Represents addedRecords standing live represents_add
  represents_delete represents_counted findById_eq findByRpId_eq any_hasId absent_rows rows_counted
  order_apply addedRecords_cons OwnAlgorithmReadsBack ownAlgorithmReadsBack_iff standing_eq)

structure Service where
  table : Table
  prompt : Option UvFallbackPrompt

structure Setup where
  opSignPubKey : Option Bytes
  skipPluginSigVerify : Option String
  culture : NumberFormatInfo

section
variable (P : Platform) (setup : Setup)

def excludes (t : Table) (excludeList : List String) : Bool :=
  excludeList.any fun id => (t.content id).isSome

def select (t : Table) (req : GetAssertionRequest) : Option PasskeyRecord :=
  if req.allowListCredIds = [] then (t.rows.filter fun r => r.rpId == req.rpId).head?
  else req.allowListCredIds.findSome? fun rawId => t.content (Base64Url.encode rawId)

/-- The passkey that a registration is answered with. -/
def newPasskey (out : Outside) (uv : Bool) (req : MakeCredentialRequest) :
    Except Exn PasskeyRecord := do
  let selectedAlg ← selectAlgorithm req.requestedAlgs
  let (pkcs8, coseKey) ← generateKeyPairAndCoseKey out setup.culture selectedAlg
  let _ ← AuthDataBuilder.build P req.rpId out.credentialId coseKey uv
  return makeCredentialRecord out req selectedAlg pkcs8 coseKey

def Service.gate (v : Service) (r : Request) : Except Exn (Bool × Bytes) × Option UvFallbackPrompt :=
  gates P r.out.ask setup.opSignPubKey setup.skipPluginSigVerify v.prompt r.params r.method

def created (r : Request) : Option Op :=
  (prepareCreate P r.out r.params setup.culture).toOption.map fun p => .add p.1

def deleted (params : Option JToken) : Option Op := do
  let obj ← (requireObject params "keepasskeywin.deleteCredential").toOption
  let credentialId ← (requireString obj "credentialId").toOption
  return .delete credentialId

def made (t : Table) (out : Outside) (received : Bool × Bytes) : Option Op := do
  let req ← (parseMakeCredentialCbor received.2).toOption
  if excludes t req.excludeList then none
  else (newPasskey P setup out received.1 req).toOption.map .add

def asserted (t : Table) (received : Bool × Bytes) : Option Op := do
  let req ← (parseGetAssertionCbor received.2).toOption
  if req.optionsUp then (select t req).map fun r => .incrementSignCount r.credentialId else none

/-- What a request comes to once its checks let it pass. -/
def Service.operation (v : Service) (r : Request) : Option Op :=
  if r.method = "keepasskeywin.createPasskey" then created P setup r
  else if r.method = "keepasskeywin.deleteCredential" then deleted r.params
  else if r.method = makeMethod then
    (v.gate P setup r).1.toOption.bind (made P setup v.table r.out)
  else if r.method = getMethod then (v.gate P setup r).1.toOption.bind (asserted v.table)
  else none

def Service.serve (v : Service) (r : Request) : Service where
  table := (v.operation P setup r).elim v.table v.table.apply
  prompt := if r.method = makeMethod ∨ r.method = getMethod then (v.gate P setup r).2 else v.prompt

def history : Service → List Request → List Op
  | _, [] => []
  | v, r :: rs => (v.operation P setup r).toList ++ history (v.serve P setup r) rs

end

/-- The plugin holds the table, and what it was given. -/
structure Implements (P : Platform) (setup : Setup) (s : Plugin) (v : Service) : Prop where
  represents : Represents P s v.table
  opSignPubKey : s.opSignPubKey = setup.opSignPubKey
  skipPluginSigVerify : s.skipPluginSigVerify = setup.skipPluginSigVerify
  culture : s.culture = setup.culture
  prompt : s.uvFallbackPrompt = v.prompt

section
variable {P : Platform} {setup : Setup} {s s' : Plugin} {t : Table} {v : Service}

theorem represents_congr (h : Represents P s t) (isOpen : s'.isVaultOpen = s.isVaultOpen)
    (culture : s'.culture = s.culture) (entries : s'.entries = s.entries) : Represents P s' t := by
  refine ⟨isOpen.trans h.isOpen, ?_, ?_, ?_⟩
  · rw [entries, culture]
    exact h.rows
  · rw [entries]
    exact h.identified
  · rw [entries]
    exact h.listed

theorem checkExcluded_toOption (h : Represents P s t) (excludeList : List String) :
    (checkExcluded P excludeList s).toOption = if excludes t excludeList then none else some () := by
  have found : (excludeList.find? fun id => (s.findById P id).isSome).isSome =
      excludes t excludeList := by
    rw [excludes, List.isSome_find?]
    exact congrArg excludeList.any (funext fun id => by rw [findById_eq h])
  unfold checkExcluded
  rw [← found]
  cases excludeList.find? fun id => (s.findById P id).isSome <;> rfl

theorem selectCredential_toOption (h : Represents P s t) (req : GetAssertionRequest) :
    (selectCredential P req s).toOption = select t req := by
  unfold selectCredential select
  split_ifs with any
  · rw [findByRpId_eq h]
    cases t.rows.filter fun r => r.rpId == req.rpId <;> rfl
  · rw [show (fun rawId => s.findById P (Base64Url.encode rawId)) =
      fun rawId => t.content (Base64Url.encode rawId) from funext fun rawId => findById_eq h _]
    cases req.allowListCredIds.findSome? fun rawId => t.content (Base64Url.encode rawId) <;> rfl

theorem toOption_bind {ε α β : Type} (x : Except ε α) (f : α → Except ε β) :
    (x >>= f).toOption = x.toOption.bind fun a => (f a).toOption := by
  cases x <;> rfl

theorem toOption_orMalformed {α : Type} (method : String) (x : Except Exn α) :
    (orMalformed method x).toOption = x.toOption := by
  unfold orMalformed
  split <;> rfl

theorem prepareMake_toOption (h : Represents P s t) (culture : s.culture = setup.culture)
    (out : Outside) (uv : Bool) (cborBytes : Bytes) :
    ((prepareMake P out s uv cborBytes).toOption.map fun p => Op.add p.1) =
      made P setup t out (uv, cborBytes) := by
  rw [prepareMake, toOption_bind, toOption_orMalformed, made, Option.map_bind]
  refine congrArg _ (funext fun req => ?_)
  rw [Function.comp_apply, toOption_bind, checkExcluded_toOption h]
  split_ifs
  · rfl
  · rw [Option.bind_some, newPasskey, culture]
    simp only [toOption_bind, Option.map_bind, Function.comp_def]
    rfl

end

def after (t : Table) (op : Option Op) : Table := op.elim t t.apply

/-- A record that is added has a fresh id and reads back. -/
def Admits (P : Platform) (culture : NumberFormatInfo) (t : Table) (op : Option Op) : Prop :=
  ∀ record, op = some (.add record) → record.credentialId ∉ t.order ∧
    entryToRecord P culture (recordToEntry P culture record) = record

section
variable {P : Platform} {setup : Setup} {out : Outside} {params : Option JToken} {s : Plugin}
variable {t : Table}

theorem represents_add_final (h : Represents P s t) {record : PasskeyRecord}
    (fresh : record.credentialId ∉ t.order)
    (reads : entryToRecord P s.culture (recordToEntry P s.culture record) = record) :
    Represents P (final (add P out record s)) (t.insert record) := by
  obtain ⟨entries, frame⟩ := add_final P out record h.isOpen
  have saved : Frame s (s.addEntry (recordToEntry P s.culture record)).saved :=
    (frame_addEntry _ _).trans _ _ _ (frame_saved _)
  refine represents_congr (represents_add h fresh reads)
    (frame.isVaultOpen.trans saved.isVaultOpen.symm) (frame.culture.trans saved.culture.symm) ?_
  rw [entries, saved_entries, entries_addEntry _ h.isOpen]

theorem represents_delete_final (h : Represents P s t) (credentialId : String) :
    Represents P (final (delete out credentialId s)) (t.erase credentialId) := by
  obtain ⟨entries, frame⟩ := delete_final out credentialId s
  have saved : Frame s (s.mapEntries (List.eraseP (hasId credentialId))).saved :=
    (frame_mapEntries _ _).trans _ _ _ (frame_saved _)
  refine represents_congr (represents_delete h credentialId)
    (frame.isVaultOpen.trans saved.isVaultOpen.symm) (frame.culture.trans saved.culture.symm) ?_
  rw [entries, saved_entries, entries_mapEntries rfl]

theorem represents_increment_final (h : Represents P s t) (credentialId : String) :
    Represents P (final (incrementSignCount out credentialId s))
      (t.apply (.incrementSignCount credentialId)) := by
  cases next : nextSignCount credentialId s with
  | error e =>
    rw [incrementSignCount_of_error next, final_error]
    refine ⟨h.isOpen, h.rows.trans (rows_counted fun r content => ?_).symm, h.identified, h.listed⟩
    rw [← findById_eq h] at content
    obtain ⟨entry, found, rfl⟩ := Option.map_eq_some_iff.mp content
    by_contra below
    rw [nextSignCount_ok.mpr ⟨entry, found, below, rfl⟩] at next
    cases next
  | ok n =>
    obtain ⟨e, found, notMax, rfl⟩ := nextSignCount_ok.mp next
    obtain ⟨entries, frame⟩ := save_then out (e.signCount + 1)
      (s.counted credentialId (e.signCount + 1))
    have saved := frame_saved (s.counted credentialId (e.signCount + 1))
    rw [incrementSignCount_of_next next]
    refine represents_congr (represents_counted h found notMax)
      (frame.isVaultOpen.trans saved.isVaultOpen.symm) (frame.culture.trans saved.culture.symm) ?_
    rw [entries, saved_entries]

end

/-- The records, the file and the number format are as they were. -/
structure Untouched (s u : Plugin) : Prop where
  database : u.database = s.database
  file : u.file = s.file
  culture : u.culture = s.culture

theorem Untouched.refl (s : Plugin) : Untouched s s := ⟨rfl, rfl, rfl⟩

theorem Untouched.trans {s t u : Plugin} (h : Untouched s t) (h' : Untouched t u) :
    Untouched s u :=
  ⟨h'.database.trans h.database, h'.file.trans h.file, h'.culture.trans h.culture⟩

theorem Untouched.isVaultOpen {s u : Plugin} (h : Untouched s u) :
    u.isVaultOpen = s.isVaultOpen := by
  rw [Plugin.isVaultOpen, Plugin.isVaultOpen, h.database]

theorem Untouched.entries {s u : Plugin} (h : Untouched s u) : u.entries = s.entries := by
  rw [Plugin.entries, Plugin.entries, Plugin.findPasskeysGroup, Plugin.findPasskeysGroup, h.database]

def Quiet {α : Type} (x : Vault α) : Prop := ∀ u, Untouched u (final (x u))

theorem final_bind_quiet {α β : Type} (x : Vault α) {f : α → Vault β} (quiet : ∀ a, Quiet (f a))
    (s : Plugin) : Untouched (final (x s)) (final ((x >>= f) s)) :=
  final_bind_keeps (Q := Untouched (final (x s))) (.refl _) fun a u same => same.trans (quiet a u)

/-- A request only reads, or one operation on the store stands between parts that do. -/
inductive Comes (P : Platform) (out : Outside) (s : Plugin) :
    Option Op → EStateM.Result Exn Plugin JToken → Prop
  | reads {x : EStateM.Result Exn Plugin JToken} (same : Untouched s (final x)) :
      Comes P out s none x
  | adds {record : PasskeyRecord} {u : Plugin} {f : Unit → Vault JToken} (same : Untouched s u)
      (quiet : ∀ a, Quiet (f a)) :
      Comes P out s (some (.add record)) ((add P out record >>= f) u)
  | deletes {credentialId : String} {u : Plugin} {f : Bool → Vault JToken} (same : Untouched s u)
      (quiet : ∀ a, Quiet (f a)) :
      Comes P out s (some (.delete credentialId)) ((delete out credentialId >>= f) u)
  | counts {credentialId : String} {u : Plugin} {f : ℕ → Vault JToken} (same : Untouched s u)
      (quiet : ∀ a, Quiet (f a)) :
      Comes P out s (some (.incrementSignCount credentialId))
        ((incrementSignCount out credentialId >>= f) u)

section
variable {P : Platform} {setup : Setup} {out : Outside} {params : Option JToken} {s u : Plugin}
variable {t : Table} {op : Option Op} {x : EStateM.Result Exn Plugin JToken}

theorem Comes.after_untouched (same : Untouched s u) (comes : Comes P out u op x) :
    Comes P out s op x := by
  cases comes with
  | reads later => exact .reads (same.trans later)
  | adds later quiet => exact .adds (same.trans later) quiet
  | deletes later quiet => exact .deletes (same.trans later) quiet
  | counts later quiet => exact .counts (same.trans later) quiet

theorem represents_untouched (h : Represents P s t) (same : Untouched s u) : Represents P u t :=
  represents_congr h same.isVaultOpen same.culture same.entries

/-- The table follows the operation, also when the request fails before or after it. -/
theorem represents_comes (h : Represents P s t) (admits : Admits P s.culture t op)
    (comes : Comes P out s op x) : Represents P (final x) (after t op) := by
  cases comes with
  | reads same => exact represents_untouched h same
  | adds same quiet =>
    obtain ⟨fresh, reads⟩ := admits _ rfl
    rw [← same.culture] at reads
    exact represents_untouched (represents_add_final (represents_untouched h same) fresh reads)
      (final_bind_quiet _ quiet _)
  | deletes same quiet =>
    exact represents_untouched (represents_delete_final (represents_untouched h same) _)
      (final_bind_quiet _ quiet _)
  | counts same quiet =>
    exact represents_untouched (represents_increment_final (represents_untouched h same) _)
      (final_bind_quiet _ quiet _)

theorem quiet_signWithAlgorithm (pkcs8 data : Bytes) (algId : ℤ) :
    Quiet (signWithAlgorithm P out pkcs8 data algId) := by
  intro u
  unfold signWithAlgorithm
  by_cases known : algId = -7 ∨ algId = -257
  · simp only [known, if_true, modify_bind]
    cases signatureOf P out.entropy pkcs8 data algId <;> exact ⟨rfl, rfl, rfl⟩
  · simp only [known, if_false, get_bind, throw_apply]
    exact .refl u

theorem quiet_answerWith (req : GetAssertionRequest) (uv : Bool) (selected : PasskeyRecord)
    (newCount : ℕ) : Quiet (answerWith P out req uv selected newCount) := by
  intro u
  refine final_lift_bind (Q := Untouched u) (.refl u) fun pkcs8 _ => ?_
  refine final_bind_keeps (Q := Untouched u) (quiet_signWithAlgorithm _ _ _ u) ?_
  intro signature w signed
  refine final_lift_bind (Q := Untouched u) signed fun rawId _ => ?_
  exact final_lift_bind (Q := Untouched u) signed fun response _ => signed

theorem comes_addAndAnswer (prepared : Except Exn (PasskeyRecord × JToken)) :
    Comes P out s (prepared.toOption.map fun p => .add p.1)
      ((lift prepared >>= addAndAnswer P out) s) := by
  cases prepared with
  | error e => exact .reads (.refl s)
  | ok p =>
    change Comes P out s (some (.add p.1)) ((add P out p.1 >>= fun _ => pure p.2) s)
    exact .adds (.refl s) fun _ u => .refl u

theorem comes_createPasskey (culture : s.culture = setup.culture) (r : Request) :
    Comes P r.out s (created P setup r) (createPasskey P r.out r.params s) := by
  rw [createPasskey_eq, created, ← culture]
  exact comes_addAndAnswer _

theorem comes_deleteCredential : Comes P out s (deleted params) (deleteCredential out params s) := by
  unfold deleteCredential deleted
  cases requireObject params "keepasskeywin.deleteCredential" with
  | error e => exact .reads (.refl s)
  | ok obj =>
    change Comes P out s ((requireString obj "credentialId").toOption.bind _)
      ((lift (requireString obj "credentialId") >>= _) s)
    cases requireString obj "credentialId" with
    | error e => exact .reads (.refl s)
    | ok credentialId =>
      change Comes P out s (some (.delete credentialId)) ((delete out credentialId >>= fun found =>
        pure (JToken.object [("deleted", .boolean found)])) s)
      exact .deletes (.refl s) fun _ u => .refl u

theorem comes_listCredentials : Comes P out s none (listCredentials P params s) := by
  refine .reads ?_
  refine final_lift_bind (Q := Untouched s) (.refl s) fun obj _ => ?_
  exact final_lift_bind (Q := Untouched s) (.refl s) fun rpId _ => .refl s

theorem comes_signAssertion : Comes P out s none (signAssertion P out params s) := by
  refine .reads ?_
  refine final_lift_bind (Q := Untouched s) (.refl s) fun obj _ => ?_
  refine final_lift_bind (Q := Untouched s) (.refl s) fun credentialId _ => ?_
  refine final_lift_bind (Q := Untouched s) (.refl s) fun authData _ => ?_
  refine final_lift_bind (Q := Untouched s) (.refl s) fun hash _ => ?_
  rw [get_bind]
  cases s.findById P credentialId with
  | none => exact .refl s
  | some record =>
    refine final_lift_bind (Q := Untouched s) (.refl s) fun authDataBytes _ => ?_
    refine final_lift_bind (Q := Untouched s) (.refl s) fun clientDataHash _ => ?_
    refine final_lift_bind (Q := Untouched s) (.refl s) fun pkcs8 _ => ?_
    exact final_bind_keeps (Q := Untouched s) (quiet_signWithAlgorithm _ _ _ s)
      fun _ _ signed => signed

theorem comes_receiveRaw {method : String} {f : Bool × Bytes → Vault JToken}
    {op : Bool × Bytes → Option Op}
    (go : ∀ received u, Untouched s u → Comes P out u (op received) (f received u)) :
    Comes P out s ((gates P out.ask s.opSignPubKey s.skipPluginSigVerify s.uvFallbackPrompt params
      method).1.toOption.bind op) ((receiveRaw P out params method >>= f) s) := by
  cases verdict : gates P out.ask s.opSignPubKey s.skipPluginSigVerify s.uvFallbackPrompt params
      method with
  | mk outcome prompt =>
    have same : Untouched s (Plugin.prompted prompt s) := ⟨rfl, rfl, rfl⟩
    cases outcome with
    | error e =>
      have stopped : receiveRaw P out params method s = .error e (Plugin.prompted prompt s) := by
        rw [receiveRaw, verdict]
        rfl
      rw [bind_of_error stopped]
      exact .reads same
    | ok received =>
      rw [bind_of_ok (receiveRaw_ok.mpr ⟨prompt, verdict, rfl⟩)]
      exact (go received _ same).after_untouched same

theorem comes_made (h : Represents P s t) (culture : s.culture = setup.culture)
    (received : Bool × Bytes) : Comes P out s (made P setup t out received)
      ((lift (prepareMake P out s received.1 received.2) >>= addAndAnswer P out) s) := by
  rw [← prepareMake_toOption h culture]
  exact comes_addAndAnswer _

theorem comes_asserted (h : Represents P s t) (uv : Bool) (cborBytes : Bytes) :
    Comes P out s (asserted t (uv, cborBytes)) ((do
      let req ← lift (orMalformed getMethod (parseGetAssertionCbor cborBytes))
      if !req.optionsUp then
        throw (.rpc RpcErrorCode.invalidOption s!"{getMethod}: options.up=false is not supported.")
      let selected ← lift (selectCredential P req (← get))
      assertWith P out req uv selected : Vault JToken) s) := by
  unfold asserted
  have parsed := toOption_orMalformed getMethod (parseGetAssertionCbor cborBytes)
  rw [← parsed]
  cases orMalformed getMethod (parseGetAssertionCbor cborBytes) with
  | error e => exact .reads (.refl s)
  | ok req =>
    change Comes P out s (if req.optionsUp then _ else none)
      ((if (!req.optionsUp) = true then _ else _ : Vault JToken) s)
    cases up : req.optionsUp with
    | false => exact .reads (.refl s)
    | true =>
      rw [← selectCredential_toOption h]
      change Comes P out s _ ((lift (selectCredential P req s) >>= assertWith P out req uv) s)
      cases selectCredential P req s with
      | error e => exact .reads (.refl s)
      | ok selected => exact .counts (.refl s) fun n => quiet_answerWith req uv selected n

end

section
variable {P : Platform} {setup : Setup} {s : Plugin} {v : Service} {r : Request}

theorem gate_eq (h : Implements P setup s v) (r : Request) :
    gates P r.out.ask s.opSignPubKey s.skipPluginSigVerify s.uvFallbackPrompt r.params r.method =
      v.gate P setup r := by
  rw [h.opSignPubKey, h.skipPluginSigVerify, h.prompt]
  rfl

theorem comes_dispatch (h : Implements P setup s v) :
    Comes P r.out s (v.operation P setup r) (dispatchMethod P r.out r.method r.params s) := by
  obtain ⟨out, method, params⟩ := r
  by_cases create : method = "keepasskeywin.createPasskey"
  · subst create
    exact comes_createPasskey h.culture ⟨out, "keepasskeywin.createPasskey", params⟩
  by_cases delete : method = "keepasskeywin.deleteCredential"
  · subst delete
    exact comes_deleteCredential
  by_cases make : method = makeMethod
  · subst make
    have op : v.operation P setup ⟨out, makeMethod, params⟩ =
        (v.gate P setup ⟨out, makeMethod, params⟩).1.toOption.bind (made P setup v.table out) := rfl
    rw [op, ← gate_eq h, dispatchMethod_make, handleMakeCredentialRaw_eq]
    refine comes_receiveRaw fun received u same => ?_
    rw [get_bind]
    exact comes_made (represents_untouched h.represents same) (same.culture.trans h.culture) received
  by_cases get : method = getMethod
  · subst get
    have op : v.operation P setup ⟨out, getMethod, params⟩ =
        (v.gate P setup ⟨out, getMethod, params⟩).1.toOption.bind (asserted v.table) := rfl
    rw [op, ← gate_eq h, dispatchMethod_get]
    refine comes_receiveRaw fun received u same => ?_
    exact comes_asserted (represents_untouched h.represents same) received.1 received.2
  have op : v.operation P setup ⟨out, method, params⟩ = none := by
    rw [Service.operation, if_neg create, if_neg delete, if_neg make, if_neg get]
  rw [op]
  simp only [dispatchMethod, if_neg create, if_neg delete, if_neg make, if_neg get]
  split_ifs
  · exact comes_listCredentials
  · exact comes_signAssertion
  · exact .reads (.refl s)
  · exact .reads (.refl s)

theorem implements_called (h : Implements P setup s v) : Implements P setup (Plugin.called s) v :=
  ⟨represents_congr h.represents rfl rfl rfl, h.opSignPubKey, h.skipPluginSigVerify, h.culture,
    h.prompt⟩

/-- One request, whatever it is and whether or not it is answered. -/
theorem implements_serve (h : Implements P setup s v)
    (admits : Admits P setup.culture v.table (v.operation P setup r)) :
    Implements P setup (final (handle P r.out r.method r.params s)) (v.serve P setup r) := by
  have isOpen := h.represents.isOpen
  have held := handle_held P r.out r.method r.params s
  have called := implements_called h
  refine ⟨?_, held.opSignPubKey.trans h.opSignPubKey,
    held.skipPluginSigVerify.trans h.skipPluginSigVerify, held.culture.trans h.culture, ?_⟩
  · rw [handle_of_open isOpen]
    rw [← called.culture] at admits
    exact represents_comes called.represents admits (comes_dispatch called)
  · have gate := gate_eq h r
    rw [handle_prompt, promptAfter, Service.serve]
    by_cases raw : r.method = makeMethod ∨ r.method = getMethod
    · rw [if_pos ⟨isOpen, raw⟩, if_pos raw, gatesPrompt, gate]
    · rw [if_neg fun both => raw both.2, if_neg raw]
      exact h.prompt

/-- What a request adds is fresh from outside and has not signed. -/
structure NewRecord (out : Outside) (record : PasskeyRecord) : Prop where
  credentialId : record.credentialId = Base64Url.encode out.credentialId
  signCount : record.signCount = 0
  algId : record.algId = -7 ∨ record.algId = -257

theorem of_toOption {ε α : Type} {x : Except ε α} {a : α} (h : x.toOption = some a) :
    x = .ok a := by
  cases x with
  | error e => cases h
  | ok b => exact congrArg _ (Option.some.inj h)

theorem newRecord_created {record : PasskeyRecord}
    (op : created P setup r = some (.add record)) : NewRecord r.out record := by
  obtain ⟨⟨record', answer⟩, ready, same⟩ := Option.map_eq_some_iff.mp op
  obtain rfl := Op.add.inj same
  have creates := creates_of_prepareCreate (of_toOption ready)
  exact ⟨creates.credentialId, creates.signCount, .inl creates.algId⟩

theorem newRecord_made {t : Table} {out : Outside} {received : Bool × Bytes}
    {record : PasskeyRecord} (op : made P setup t out received = some (.add record)) :
    NewRecord out record := by
  obtain ⟨req, _, op⟩ := Option.bind_eq_some_iff.mp op
  split_ifs at op
  obtain ⟨record', ready, same⟩ := Option.map_eq_some_iff.mp op
  obtain rfl := Op.add.inj same
  obtain ⟨alg, _, ready⟩ := except_bind_ok.mp (of_toOption ready)
  obtain ⟨key, generated, ready⟩ := except_bind_ok.mp ready
  obtain ⟨authData, _, ready⟩ := except_bind_ok.mp ready
  obtain rfl := except_pure_ok.mp ready
  refine ⟨rfl, rfl, ?_⟩
  rcases generateKeyPairAndCoseKey_ok generated with ⟨es256, _⟩ | ⟨rs256, _⟩
  · exact .inl es256
  · exact .inr rs256

theorem newRecord_of_operation {record : PasskeyRecord}
    (op : v.operation P setup r = some (.add record)) : NewRecord r.out record := by
  unfold Service.operation at op
  split_ifs at op
  · exact newRecord_created op
  · obtain ⟨obj, _, op⟩ := Option.bind_eq_some_iff.mp op
    obtain ⟨id, _, op⟩ := Option.bind_eq_some_iff.mp op
    cases op
  · obtain ⟨received, _, op⟩ := Option.bind_eq_some_iff.mp op
    exact newRecord_made op
  · obtain ⟨received, _, op⟩ := Option.bind_eq_some_iff.mp op
    obtain ⟨req, _, op⟩ := Option.bind_eq_some_iff.mp op
    split_ifs at op
    obtain ⟨selected, _, op⟩ := Option.map_eq_some_iff.mp op
    cases op

end

/-- The culture reads back both algorithms that a new record may have. -/
def ReadsAlgorithms (culture : NumberFormatInfo) : Prop :=
  OwnAlgorithmReadsBack culture (-7) ∧ OwnAlgorithmReadsBack culture (-257)

theorem NewRecord.reads {P : Platform} {culture : NumberFormatInfo} {out : Outside}
    {record : PasskeyRecord} (new : NewRecord out record) (reads : ReadsAlgorithms culture) :
    entryToRecord P culture (recordToEntry P culture record) = record := by
  rw [CultureIndependence.entryToRecord_eq_iff new.signCount]
  rcases new.algId with alg | alg <;> rw [alg]
  · exact (ownAlgorithmReadsBack_iff ⟨by decide, by decide⟩).mpr reads.1
  · exact (ownAlgorithmReadsBack_iff ⟨by decide, by decide⟩).mpr reads.2

structure Reached (P : Platform) (setup : Setup) (v : Service) (rs : List Request) (u : Plugin) :
    Prop where
  implements : ∃ w, Implements P setup u w ∧
    w.table = (Table.run v.table (history P setup v rs)).1 ∧
    w.table.order =
      v.table.order ++ (addedRecords (history P setup v rs)).map PasskeyRecord.credentialId
  added : ∀ record ∈ addedRecords (history P setup v rs), record.signCount = 0

section
variable {P : Platform} {setup : Setup} {s u : Plugin} {v : Service} {rs : List Request}

theorem addedRecords_append (ops ops' : List Op) :
    addedRecords (ops ++ ops') = addedRecords ops ++ addedRecords ops' :=
  List.filterMap_append

theorem run_toList (t : Table) (op : Option Op) (ops : List Op) :
    (Table.run t (op.toList ++ ops)).1 = (Table.run (after t op) ops).1 := by
  cases op <;> rfl

theorem order_after {t : Table} {op : Option Op}
    (fresh : ∀ record, op = some (.add record) → record.credentialId ∉ t.order) :
    (after t op).order =
      t.order ++ (addedRecords op.toList).map PasskeyRecord.credentialId := by
  cases op with
  | none => exact (List.append_nil _).symm
  | some op =>
    have added : ∀ record, op.added = some record → record.credentialId ∉ t.order := by
      intro record own
      cases op <;> cases own
      exact fresh record rfl
    rw [after, Option.elim_some, order_apply added]
    cases op <;> rfl

theorem mem_addedRecords_toList {op : Option Op} {record : PasskeyRecord} :
    record ∈ addedRecords op.toList ↔ op = some (.add record) := by
  cases op with
  | none => simp [addedRecords]
  | some op => cases op <;> simp [addedRecords, Op.added, eq_comm]

theorem addedIds_sublist {r : Request} :
    ((addedRecords (v.operation P setup r).toList).map PasskeyRecord.credentialId).Sublist
      [Base64Url.encode r.out.credentialId] := by
  cases op : v.operation P setup r with
  | none => exact List.nil_sublist _
  | some op' =>
    cases op' with
    | add record =>
      rw [← (newRecord_of_operation op).credentialId]
      exact List.Sublist.refl _
    | delete _ => exact List.nil_sublist _
    | incrementSignCount _ => exact List.nil_sublist _
    | findById _ => exact List.nil_sublist _
    | findByRpId _ => exact List.nil_sublist _
    | getAll => exact List.nil_sublist _

/-- The ids that come, old ones first, are distinct along the run. -/
theorem reached (run : Run (serve P) s rs u) (h : Implements P setup s v)
    (distinct : (v.table.order ++ rs.map fun r => Base64Url.encode r.out.credentialId).Nodup)
    (reads : ReadsAlgorithms setup.culture) : Reached P setup v rs u := by
  induction run generalizing v with
  | nil s => exact ⟨⟨v, h, rfl, (List.append_nil _).symm⟩, fun _ here => absurd here List.not_mem_nil⟩
  | @cons s s' u r rs head tail ih =>
    rw [List.map_cons] at distinct
    have fresh : ∀ record, v.operation P setup r = some (.add record) →
        record.credentialId ∉ v.table.order := by
      intro record op here
      rw [(newRecord_of_operation op).credentialId] at here
      exact (List.nodup_append.mp distinct).2.2 _ here _ List.mem_cons_self rfl
    have served := implements_serve h (r := r) fun record op =>
      ⟨fresh record op, (newRecord_of_operation op).reads reads⟩
    rw [← show s' = _ from head] at served
    have order : (v.serve P setup r).table.order = _ := order_after fresh
    have later : ((v.serve P setup r).table.order ++
        rs.map fun r => Base64Url.encode r.out.credentialId).Nodup := by
      rw [order, List.append_assoc]
      refine distinct.sublist ((List.Sublist.refl _).append ?_)
      exact (addedIds_sublist.append (List.Sublist.refl _))
    obtain ⟨⟨w, implements, table, whole⟩, added⟩ := ih served later
    refine ⟨⟨w, implements, ?_, ?_⟩, ?_⟩
    · rw [history, run_toList]
      exact table
    · rw [history, addedRecords_append, List.map_append, ← List.append_assoc, ← order]
      exact whole
    · intro record here
      rw [history, addedRecords_append] at here
      rcases List.mem_append.mp here with now | later
      · exact (newRecord_of_operation (mem_addedRecords_toList.mp now)).signCount
      · exact added record later

end

def listed (r : PasskeyRecord) : JToken := stringResult [
  ("credentialId", r.credentialId), ("userHandle", r.userHandle), ("userName", r.userName),
  ("userDisplayName", r.userDisplayName)]

/-- The answers of the plugin are those of the table that the operations leave. -/
structure Answers (P : Platform) (t : Table) (ops : List Op) (u : Plugin) : Prop where
  enumerateForSync : ∀ out params, handle P out "keepasskeywin.enumerateForSync" params u =
    .ok (.array ((live t ops).map enumerated)) (Plugin.called u)
  listCredentials : ∀ out obj rpId, stringField obj "rpId" = .ok (some rpId) → rpId ≠ "" →
    handle P out "keepasskeywin.listCredentials" (some (.object obj)) u =
      .ok (.array (((live t ops).filter fun r => r.rpId == rpId).map listed)) (Plugin.called u)
  deleteCredential : ∀ out obj credentialId, stringField obj "credentialId" = .ok (some credentialId) →
    credentialId ≠ "" → out.save = none → ∃ u',
      handle P out "keepasskeywin.deleteCredential" (some (.object obj)) u =
        .ok (.object [("deleted", .boolean (standing t ops credentialId).isSome)]) u'
  findById : ∀ credentialId, u.findById P credentialId = standing t ops credentialId

section
variable {P : Platform} {u : Plugin} {t w : Table} {ops : List Op}

theorem answers_of_represents (h : Represents P u w) (rows : w.rows = live t ops)
    (content : ∀ credentialId, w.content credentialId = standing t ops credentialId) :
    Answers P t ops u where
  enumerateForSync out params := by
    rw [handle_of_open h.isOpen]
    have all : (Plugin.called u).getAll P = live t ops := h.rows.trans rows
    change EStateM.Result.ok (JToken.array (((Plugin.called u).getAll P).map enumerated)) _ = _
    rw [all]
  listCredentials out obj rpId field nonempty := by
    rw [handle_of_open h.isOpen]
    have object : (lift (requireObject (some (.object obj)) "keepasskeywin.listCredentials") :
        Vault JObject) (Plugin.called u) = .ok obj (Plugin.called u) :=
      lift_ok.mpr ⟨requireObject_ok.mpr rfl, rfl⟩
    have text : (lift (requireString obj "rpId") : Vault String) (Plugin.called u) =
        .ok rpId (Plugin.called u) :=
      lift_ok.mpr ⟨requireString_ok.mpr ⟨field, nonempty⟩, rfl⟩
    change VaultHandler.listCredentials P (some (.object obj)) (Plugin.called u) = _
    rw [VaultHandler.listCredentials, bind_of_ok object, bind_of_ok text, get_bind, ← rows,
      ← findByRpId_eq h rpId]
    rfl
  deleteCredential out obj credentialId field nonempty saves := by
    rw [handle_of_open h.isOpen]
    have object : (lift (requireObject (some (.object obj)) "keepasskeywin.deleteCredential") :
        Vault JObject) (Plugin.called u) = .ok obj (Plugin.called u) :=
      lift_ok.mpr ⟨requireObject_ok.mpr rfl, rfl⟩
    have text : (lift (requireString obj "credentialId") : Vault String) (Plugin.called u) =
        .ok credentialId (Plugin.called u) :=
      lift_ok.mpr ⟨requireString_ok.mpr ⟨field, nonempty⟩, rfl⟩
    change ∃ u', VaultHandler.deleteCredential out (some (.object obj)) (Plugin.called u) = .ok _ u'
    rw [VaultHandler.deleteCredential, bind_of_ok object, bind_of_ok text, ← content,
      ← any_hasId h credentialId]
    have calm : (Plugin.called u).entries.any (hasId credentialId) =
        u.entries.any (hasId credentialId) := rfl
    by_cases stored : (Plugin.called u).entries.any (hasId credentialId) = true
    · have run : delete out credentialId (Plugin.called u) = .ok true _ := delete_ok.mpr
        (by rw [if_pos stored]; exact ⟨rfl, saves, rfl⟩)
      rw [bind_of_ok run, ← calm, stored]
      exact ⟨_, rfl⟩
    · have run : delete out credentialId (Plugin.called u) = .ok false _ := delete_ok.mpr
        (by rw [if_neg stored]; exact ⟨rfl, rfl⟩)
      rw [bind_of_ok run, ← calm, Bool.eq_false_iff.mpr stored]
      exact ⟨_, rfl⟩
  findById credentialId := (findById_eq h credentialId).trans (content credentialId)

end

/-- Requests may fail at any point, also in `Save` after they have changed the records: what the
vault answers next is what the table answers after the operations that they came to. -/
theorem vault_serves_table (P : Platform) (setup : Setup) (s u : Plugin) (v : Service)
    (rs : List Request) (run : Run (serve P) s rs u) (h : Implements P setup s v)
    (distinct : (v.table.order ++ rs.map fun r => Base64Url.encode r.out.credentialId).Nodup)
    (reads : ReadsAlgorithms setup.culture) :
    Answers P v.table (history P setup v rs) u := by
  obtain ⟨⟨w, implements, table, order⟩, zero⟩ := reached run h distinct reads
  have content : ∀ credentialId,
      w.table.content credentialId = standing v.table (history P setup v rs) credentialId := by
    rw [table]
    exact standing_eq h.represents zero
  refine answers_of_represents implements.represents ?_ content
  rw [OrderedTable.rows, order, live]
  exact List.filterMap_congr fun credentialId _ => content credentialId

namespace Sample

def setup : Setup := ⟨VaultOutcomes.Sample.plugin.opSignPubKey,
  VaultOutcomes.Sample.plugin.skipPluginSigVerify, VaultOutcomes.Sample.plugin.culture⟩

def service : Service := ⟨OrderedTable.empty, VaultOutcomes.Sample.plugin.uvFallbackPrompt⟩

def create : Request := VaultWellFormedness.Sample.create "AQIDBA"

theorem created_create : created (VaultOutcomes.Sample.platform []) setup create =
    some (.add (VaultWellFormedness.Sample.created "AQIDBA")) := by
  obtain ⟨answer, prepares⟩ := VaultWellFormedness.Sample.prepares (show "AQIDBA" ≠ "" by decide)
  rw [created]
  exact congrArg (fun x => (Except.toOption x).map fun p => Op.add p.1) prepares

theorem reads : ReadsAlgorithms setup.culture :=
  ⟨.inl ⟨by decide, ⟨0, by decide⟩, .inr (by decide)⟩,
    .inl ⟨by decide, ⟨0, by decide⟩, .inr (by decide)⟩⟩

def credentialId : String := Base64Url.encode VaultOutcomes.Sample.credentialId

/-- A login for which `Save` throws once the counter is written. -/
def unsavedLogin : Request where
  out := { VaultOutcomes.Sample.outside with
    save := some "Access to the path is denied."
    credentialId := List.replicate 32 1
    credentialId_length := List.length_replicate }
  method := getMethod
  params := VaultOutcomes.Sample.getParams

def deleteOther : Request :=
  VaultWellFormedness.Sample.drawing 2 ⟨VaultOutcomes.Sample.outside,
    "keepasskeywin.deleteCredential", some (.object [("credentialId", .str "BQYHCA")])⟩

def requests : List Request := [create, unsavedLogin, deleteOther]

def createdTable : Table :=
  Table.apply OrderedTable.empty (.add (VaultWellFormedness.Sample.created "AQIDBA"))

theorem operation_create : service.operation (VaultOutcomes.Sample.platform []) setup create =
    some (.add (VaultWellFormedness.Sample.created "AQIDBA")) := created_create

theorem serve_create : service.serve (VaultOutcomes.Sample.platform []) setup create =
    ⟨createdTable, service.prompt⟩ := by
  unfold Service.serve
  rw [operation_create]
  rfl

theorem operation_login : (Service.mk createdTable service.prompt).operation
    (VaultOutcomes.Sample.platform []) setup unsavedLogin =
      some (.incrementSignCount credentialId) := by
  have passes : ((Service.mk createdTable service.prompt).gate (VaultOutcomes.Sample.platform [])
      setup unsavedLogin).1 = .ok (true, VaultOutcomes.Sample.getCbor) :=
    congrArg Prod.fst VaultOutcomes.Sample.gates_get
  have inserted : ∀ r : PasskeyRecord,
      (Table.apply OrderedTable.empty (.add r)).content r.credentialId = some r :=
    fun r => Function.update_self r.credentialId _ _
  have found : createdTable.content credentialId =
      some (VaultWellFormedness.Sample.created "AQIDBA") := inserted _
  have method : unsavedLogin.method = getMethod := rfl
  rw [Service.operation, method, if_neg (by decide), if_neg (by decide), if_neg (by decide),
    if_pos rfl, passes]
  simp only [Except.toOption, Option.bind_some, asserted, VaultOutcomes.Sample.parse_getCbor]
  simp [VaultOutcomes.Sample.getRequest, select, ← credentialId.eq_def, found]
  rfl

theorem history_requests : history (VaultOutcomes.Sample.platform []) setup service requests =
    [.add (VaultWellFormedness.Sample.created "AQIDBA"), .incrementSignCount credentialId,
      .delete "BQYHCA"] := by
  rw [requests, history, operation_create, serve_create, history, operation_login]
  rfl

def registered : Plugin := final (handle (VaultOutcomes.Sample.platform []) create.out create.method
  create.params VaultOutcomes.Sample.plugin)

theorem login_fails : RequestEffects.failed (handle (VaultOutcomes.Sample.platform [])
    unsavedLogin.out unsavedLogin.method unsavedLogin.params registered) = true := by
  decide +kernel

end Sample

theorem vault_serves_table_sample : ∃ u,
    Run (serve (VaultOutcomes.Sample.platform [])) VaultOutcomes.Sample.plugin Sample.requests u ∧
      RequestEffects.failed (handle (VaultOutcomes.Sample.platform []) Sample.unsavedLogin.out
        Sample.unsavedLogin.method Sample.unsavedLogin.params Sample.registered) = true ∧
      history (VaultOutcomes.Sample.platform []) Sample.setup Sample.service Sample.requests =
        [.add (VaultWellFormedness.Sample.created "AQIDBA"),
          .incrementSignCount Sample.credentialId, .delete "BQYHCA"] ∧
      Answers (VaultOutcomes.Sample.platform []) OrderedTable.empty
        (history (VaultOutcomes.Sample.platform []) Sample.setup Sample.service Sample.requests)
        u := by
  have run : Run (serve (VaultOutcomes.Sample.platform [])) VaultOutcomes.Sample.plugin
      Sample.requests _ := .cons (t := Sample.registered) rfl (.cons rfl (.single rfl))
  exact ⟨_, run, Sample.login_fails, Sample.history_requests, vault_serves_table _ Sample.setup
    VaultOutcomes.Sample.plugin _ Sample.service Sample.requests run
    ⟨StoreRefinement.represents_empty rfl rfl, rfl, rfl, rfl, rfl⟩ (by decide +kernel)
    Sample.reads⟩

end KeePassKeyWin.VaultService
