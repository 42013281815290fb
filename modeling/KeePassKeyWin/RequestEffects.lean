import KeePassKeyWin.VaultRuns

set_option autoImplicit false

/-!
# What each request does to the records

The two methods that register prepare a record first and hand it to `Add`; one counts, one
deletes, the others only read. When a request fails, `Save` decides what it has already done.
-/
namespace KeePassKeyWin.RequestEffects
open ByteStrings JsonRpc NumberFormat OutcomeRules PlatformServices FirstMatch CredentialEncodings
open PasskeyStore VaultGates CtapRequests VaultHandler VaultOutcomes VaultRuns

def prepareCreate (P : Platform) (out : Outside) (params : Option JToken)
    (culture : NumberFormatInfo) : Except Exn (PasskeyRecord × JToken) := do
  let obj ← requireObject params "keepasskeywin.createPasskey"
  let rpId ← requireString obj "rpId"
  let rpName := (← stringField obj "rpName").getD rpId
  let userHandle ← requireString obj "userHandle"
  let userName ← requireString obj "userName"
  let userDisplayName := (← stringField obj "userDisplayName").getD userName
  let (pkcs8, coseKey) ← generateKeyPairAndCoseKey out culture (-7)
  let credentialId := Base64Url.encode out.credentialId
  let authData ← AuthDataBuilder.build P rpId out.credentialId coseKey true
  return (newRecord out credentialId rpId rpName userHandle userName userDisplayName (-7) pkcs8
    coseKey, stringResult [
      ("credentialId", credentialId),
      ("authData", toBase64String authData),
      ("publicKeyCose", toBase64String coseKey)])

/-- The record that a raw registration hands to `Add` once the gates let it pass, and its
answer. -/
def prepareMake (P : Platform) (out : Outside) (s : Plugin) (uv : Bool) (cborBytes : Bytes) :
    Except Exn (PasskeyRecord × JToken) := do
  let req ← orMalformed makeMethod (parseMakeCredentialCbor cborBytes)
  checkExcluded P req.excludeList s
  let selectedAlg ← selectAlgorithm req.requestedAlgs
  let (pkcs8, coseKey) ← generateKeyPairAndCoseKey out s.culture selectedAlg
  let authData ← AuthDataBuilder.build P req.rpId out.credentialId coseKey uv
  let record := makeCredentialRecord out req selectedAlg pkcs8 coseKey
  return (record, makeCredentialResult record (buildAttestationObject authData))

def addAndAnswer (P : Platform) (out : Outside) (prepared : PasskeyRecord × JToken) :
    Vault JToken := do
  add P out prepared.1
  return prepared.2

section
variable {ε σ α β γ : Type}

theorem lift_bind (x : Except ε α) (f : α → Except ε β) (g : β → EStateM ε σ γ) (s : σ) :
    (lift (x >>= f) >>= g) s = (lift x >>= fun a => lift (f a) >>= g) s := by
  cases x with
  | ok a => rfl
  | error e => rfl

theorem lift_congr {x : Except ε α} {f g : α → EStateM ε σ β} {s : σ}
    (h : ∀ a, x = .ok a → f a s = g a s) : (lift x >>= f) s = (lift x >>= g) s := by
  cases x with
  | ok a => exact h a rfl
  | error e => rfl

end

theorem createPasskey_eq (P : Platform) (out : Outside) (params : Option JToken) (s : Plugin) :
    createPasskey P out params s =
      (lift (prepareCreate P out params s.culture) >>= addAndAnswer P out) s := by
  rw [createPasskey, prepareCreate, lift_bind]
  refine lift_congr fun obj _ => ?_
  rw [lift_bind]
  refine lift_congr fun rpId _ => ?_
  rw [lift_bind]
  refine lift_congr fun rpName _ => ?_
  rw [lift_bind]
  refine lift_congr fun userHandle _ => ?_
  rw [lift_bind]
  refine lift_congr fun userName _ => ?_
  rw [lift_bind]
  refine lift_congr fun userDisplayName _ => ?_
  rw [lift_bind, get_bind]
  refine lift_congr fun key _ => ?_
  rw [lift_bind]
  exact lift_congr fun authData _ => rfl

theorem handleMakeCredentialRaw_eq (P : Platform) (out : Outside) (params : Option JToken)
    (s : Plugin) :
    handleMakeCredentialRaw P out params s =
      (receiveRaw P out params makeMethod >>= fun received => get >>= fun s =>
        lift (prepareMake P out s received.1 received.2) >>= addAndAnswer P out) s := by
  unfold handleMakeCredentialRaw
  cases h : receiveRaw P out params makeMethod s with
  | error e t => rw [bind_of_error h, bind_of_error h]
  | ok received t =>
    rw [bind_of_ok h, bind_of_ok h, get_bind, prepareMake, lift_bind]
    refine lift_congr fun req _ => ?_
    rw [lift_bind, get_bind]
    refine lift_congr fun _ _ => ?_
    rw [lift_bind]
    refine lift_congr fun alg _ => ?_
    rw [lift_bind]
    refine lift_congr fun key _ => ?_
    rw [lift_bind]
    exact lift_congr fun authData _ => rfl

def Gives (params : Option JToken) (key value : String) : Prop :=
  ∃ obj, params = some (.object obj) ∧ stringField obj key = .ok (some value)

/-- What `createPasskey` has ready when it reaches `Add`. -/
structure Creates (P : Platform) (out : Outside) (params : Option JToken)
    (culture : NumberFormatInfo) (record : PasskeyRecord) (answer : JToken) : Prop where
  rpId : Gives params "rpId" record.rpId
  userHandle : Gives params "userHandle" record.userHandle
  credentialId : record.credentialId = Base64Url.encode out.credentialId
  algId : record.algId = -7
  signCount : record.signCount = 0
  key : ∃ pkcs8, generateKeyPairAndCoseKey out culture (-7) = .ok (pkcs8, record.publicKeyCose) ∧
    record.privateKeyPkcs8 = toBase64String pkcs8
  answer : ∃ authData,
    AuthDataBuilder.build P record.rpId out.credentialId record.publicKeyCose true =
      .ok authData ∧
    answer = stringResult [
      ("credentialId", record.credentialId),
      ("authData", toBase64String authData),
      ("publicKeyCose", toBase64String record.publicKeyCose)]

theorem creates_of_prepareCreate {P : Platform} {out : Outside} {params : Option JToken}
    {culture : NumberFormatInfo} {record : PasskeyRecord} {answer : JToken}
    (h : prepareCreate P out params culture = .ok (record, answer)) :
    Creates P out params culture record answer := by
  obtain ⟨obj, hobj, h⟩ := except_bind_ok.mp h
  obtain ⟨rpId, hrp, h⟩ := except_bind_ok.mp h
  obtain ⟨rpName, _, h⟩ := except_bind_ok.mp h
  obtain ⟨userHandle, hhandle, h⟩ := except_bind_ok.mp h
  obtain ⟨userName, _, h⟩ := except_bind_ok.mp h
  obtain ⟨userDisplayName, _, h⟩ := except_bind_ok.mp h
  obtain ⟨⟨pkcs8, coseKey⟩, hkey, h⟩ := except_bind_ok.mp h
  obtain ⟨authData, hdata, h⟩ := except_bind_ok.mp h
  obtain ⟨rfl, rfl⟩ := Prod.mk.inj (except_pure_ok.mp h)
  have object := requireObject_ok.mp hobj
  exact ⟨⟨obj, object, (requireString_ok.mp hrp).1⟩, ⟨obj, object, (requireString_ok.mp hhandle).1⟩,
    rfl, rfl, rfl, ⟨pkcs8, hkey, rfl⟩, ⟨authData, hdata, rfl⟩⟩

/-- What a registration has ready when it reaches `Add`. -/
def prepared (P : Platform) (out : Outside) (method : String) (params : Option JToken)
    (s : Plugin) : Except Exn (PasskeyRecord × JToken) :=
  if method = "keepasskeywin.createPasskey" then prepareCreate P out params s.culture
  else if method = makeMethod then
    match (gates P out.ask s.opSignPubKey s.skipPluginSigVerify s.uvFallbackPrompt params
      makeMethod).1 with
    | .error e => .error e
    | .ok (uv, cborBytes) => prepareMake P out s uv cborBytes
  else .error (methodNotFound method)

/-- The request passes every check in front of `Add`, and hands it this record. -/
def Registers (P : Platform) (out : Outside) (method : String) (params : Option JToken)
    (s : Plugin) (record : PasskeyRecord) : Prop :=
  s.isVaultOpen = true ∧ ∃ answer, prepared P out method params s = .ok (record, answer)

/-- The request asks to delete an id that the vault has. -/
def DeletesStored (method : String) (params : Option JToken) (s : Plugin) (id : String) : Prop :=
  Deletes method params id ∧ id ≠ "" ∧ s.entries.any (hasId id) = true

def failed {ε σ α : Type} : EStateM.Result ε σ α → Bool
  | .ok .. => false
  | .error .. => true

section
variable {P : Platform} {out : Outside} {method : String} {params : Option JToken} {s : Plugin}

theorem save_of_none (h : out.save = none) (loaded : s.database.isSome = true) :
    save out s = .ok () s.saved :=
  save_ok.mpr ⟨h, loaded, rfl⟩

theorem save_of_some {message : String} (h : out.save = some message) :
    save out s = .error (.other message) s := by
  simp [save, h]

theorem addEntry_loaded {e : PwEntry} (hopen : s.isVaultOpen = true) :
    (s.addEntry e).database.isSome = true := by
  obtain ⟨db, hdb, _⟩ := open_database hopen
  simp [Plugin.addEntry, Plugin.mapEntries, Plugin.mapGroups, hdb]

theorem addAndAnswer_run (hopen : s.isVaultOpen = true) (p : PasskeyRecord × JToken) :
    (final (addAndAnswer P out p s)).entries = s.entries ++ [recordToEntry P s.culture p.1] ∧
      failed (addAndAnswer P out p s) = out.save.isSome := by
  obtain ⟨db, hdb, _⟩ := open_database hopen
  have added := entries_addEntry (recordToEntry P s.culture p.1) hopen
  have run := add_eq P out p.1 s
  rw [hdb, Option.isNone_some, if_neg Bool.false_ne_true] at run
  cases hsave : out.save with
  | none =>
    rw [save_of_none hsave (addEntry_loaded hopen)] at run
    rw [addAndAnswer, bind_of_ok run]
    exact ⟨(saved_entries _).trans added, rfl⟩
  | some message =>
    rw [save_of_some hsave] at run
    rw [addAndAnswer, bind_of_error run]
    exact ⟨added, rfl⟩

theorem handle_registers {record : PasskeyRecord}
    (registers : Registers P out method params s record) :
    (final (handle P out method params s)).entries =
        s.entries ++ [recordToEntry P s.culture record] ∧
      failed (handle P out method params s) = out.save.isSome := by
  obtain ⟨hopen, answer, ready⟩ := registers
  rw [handle_of_open hopen]
  unfold prepared at ready
  split_ifs at ready with create make
  · have run : dispatchMethod P out method params (Plugin.called s) =
        addAndAnswer P out (record, answer) (Plugin.called s) := by
      rw [dispatchMethod, if_pos create, createPasskey_eq]
      exact congrArg (fun x => (lift x >>= addAndAnswer P out) (Plugin.called s)) ready
    rw [run]
    exact addAndAnswer_run (s := Plugin.called s) hopen _
  · cases hgates : gates P out.ask s.opSignPubKey s.skipPluginSigVerify s.uvFallbackPrompt params
        makeMethod with
    | mk verdict prompt =>
      rw [hgates] at ready
      cases verdict with
      | error e => cases ready
      | ok passed =>
        obtain ⟨uv, cborBytes⟩ := passed
        have received : receiveRaw P out params makeMethod (Plugin.called s) =
            .ok (uv, cborBytes) (Plugin.prompted prompt (Plugin.called s)) :=
          receiveRaw_ok.mpr ⟨prompt, hgates, rfl⟩
        have run : dispatchMethod P out method params (Plugin.called s) =
            addAndAnswer P out (record, answer) (Plugin.prompted prompt (Plugin.called s)) := by
          rw [make, dispatchMethod_make, handleMakeCredentialRaw_eq, bind_of_ok received, get_bind]
          exact congrArg (fun x => (lift x >>= addAndAnswer P out)
            (Plugin.prompted prompt (Plugin.called s))) ready
        rw [run]
        exact addAndAnswer_run (s := Plugin.prompted prompt (Plugin.called s)) hopen _

theorem answered_of_registers {record : PasskeyRecord}
    (registers : Registers P out method params s record) (saves : out.save = none) :
    ∃ result s', handle P out method params s = .ok result s' := by
  have fails := (handle_registers registers).2
  rw [saves] at fails
  cases h : handle P out method params s with
  | ok result s' => exact ⟨result, s', rfl⟩
  | error e s' =>
    rw [h] at fails
    cases fails

theorem any_open {p : PwEntry → Bool} (h : s.entries.any p = true) : s.isVaultOpen = true := by
  cases hopen : s.isVaultOpen with
  | true => rfl
  | false => simp [entries_of_closed hopen] at h

theorem handle_deletes {id : String} (deletes : DeletesStored method params s id) :
    (final (handle P out method params s)).entries = s.entries.eraseP (hasId id) ∧
      failed (handle P out method params s) = out.save.isSome := by
  obtain ⟨⟨rfl, obj, rfl, field⟩, nonempty, stored⟩ := deletes
  have hopen := any_open stored
  obtain ⟨db, hdb, _⟩ := open_database hopen
  have loaded : ((Plugin.called s).mapEntries (List.eraseP (hasId id))).database.isSome = true := by
    simp [Plugin.mapEntries, Plugin.mapGroups, Plugin.called, hdb]
  have object : (lift (requireObject (some (.object obj)) "keepasskeywin.deleteCredential") :
      Vault JObject) (Plugin.called s) = .ok obj (Plugin.called s) :=
    lift_ok.mpr ⟨requireObject_ok.mpr rfl, rfl⟩
  have text : (lift (requireString obj "credentialId") : Vault String) (Plugin.called s) =
      .ok id (Plugin.called s) :=
    lift_ok.mpr ⟨requireString_ok.mpr ⟨field, nonempty⟩, rfl⟩
  have found : (Plugin.called s).entries.any (hasId id) = true := stored
  have erased : ((Plugin.called s).mapEntries (List.eraseP (hasId id))).entries =
      s.entries.eraseP (hasId id) := entries_mapEntries rfl _
  have run := delete_eq out id (Plugin.called s)
  rw [if_pos found] at run
  have whole : handle P out "keepasskeywin.deleteCredential" (some (.object obj)) s =
      (delete out id >>= fun deleted => pure (.object [("deleted", .boolean deleted)]))
        (Plugin.called s) := by
    rw [handle_of_open hopen]
    change deleteCredential out (some (.object obj)) (Plugin.called s) = _
    rw [deleteCredential, bind_of_ok object, bind_of_ok text]
  rw [whole]
  cases hsave : out.save with
  | none =>
    rw [bind_of_ok (save_of_none hsave loaded)] at run
    rw [bind_of_ok run]
    exact ⟨(saved_entries _).trans erased, rfl⟩
  | some message =>
    rw [bind_of_error (save_of_some hsave)] at run
    rw [bind_of_error run]
    exact ⟨erased, rfl⟩

/-- The entries are as they were, or one of them counts one further. -/
inductive Counts (before : List PwEntry) : List PwEntry → Prop
  | same : Counts before before
  | next (id : String) (e : PwEntry) (found : before.find? (hasId id) = some e)
      (room : e.signCount ≠ uintMaxValue) :
      Counts before (modifyFirst (hasId id) (PwEntry.setSignCount (e.signCount + 1)) before)

def CountsTo (s t : Plugin) : Prop := Counts s.entries t.entries

theorem counts_incrementSignCount (out : Outside) (id : String) (s : Plugin) :
    CountsTo s (final (incrementSignCount out id s)) := by
  unfold CountsTo
  cases h : nextSignCount id s with
  | error e =>
    rw [incrementSignCount_of_error h]
    exact .same
  | ok next =>
    obtain ⟨e, found, room, rfl⟩ := nextSignCount_ok.mp h
    have kept := save_then out (e.signCount + 1) (s.counted id (e.signCount + 1))
    rw [incrementSignCount_of_next h, kept.1]
    exact (entries_mapEntries rfl s : (s.counted id (e.signCount + 1)).entries = _) ▸
      .next id e found room

theorem counts_signWithAlgorithm {t : Plugin} (h : CountsTo s t) (pkcs8 data : Bytes) (algId : ℤ) :
    CountsTo s (final (signWithAlgorithm P out pkcs8 data algId t)) := by
  unfold signWithAlgorithm
  by_cases halg : algId = -7 ∨ algId = -257
  · simp only [halg, if_true, modify_bind]
    cases signatureOf P out.entropy pkcs8 data algId <;> exact h
  · simp only [halg, if_false, get_bind, throw_apply]
    exact h

theorem counts_assertWith (req : GetAssertionRequest) (uv : Bool) (selected : PasskeyRecord) :
    CountsTo s (final (assertWith P out req uv selected s)) := by
  refine final_bind_keeps (Q := CountsTo s) (counts_incrementSignCount _ _ _) ?_
  intro n t h
  refine final_lift_bind (Q := CountsTo s) h fun pkcs8 _ => ?_
  refine final_bind_keeps (Q := CountsTo s) (counts_signWithAlgorithm h _ _ _) ?_
  intro signature u h
  refine final_lift_bind (Q := CountsTo s) h fun rawId _ => ?_
  exact final_lift_bind (Q := CountsTo s) h fun response _ => h

theorem counts_get : CountsTo s (final (handleGetAssertionRaw P out params (Plugin.called s))) := by
  refine final_receiveRaw (Q := CountsTo s) .same fun _ => ?_
  refine final_lift_bind (Q := CountsTo s) .same fun req _ => ?_
  simp only [ite_run, throw_bind, get_bind]
  split_ifs
  · exact .same
  · exact final_lift_bind (Q := CountsTo s) .same fun selected _ =>
      counts_assertWith (s := Plugin.prompted _ (Plugin.called s)) _ _ _

theorem counts_listCredentials : CountsTo s (final (listCredentials P params (Plugin.called s))) := by
  refine final_lift_bind (Q := CountsTo s) .same fun obj _ => ?_
  exact final_lift_bind (Q := CountsTo s) .same fun rpId _ => .same

theorem counts_signAssertion :
    CountsTo s (final (signAssertion P out params (Plugin.called s))) := by
  refine final_lift_bind (Q := CountsTo s) .same fun obj _ => ?_
  refine final_lift_bind (Q := CountsTo s) .same fun credentialId _ => ?_
  refine final_lift_bind (Q := CountsTo s) .same fun authData _ => ?_
  refine final_lift_bind (Q := CountsTo s) .same fun hash _ => ?_
  rw [get_bind]
  cases (Plugin.called s).findById P credentialId with
  | none => exact .same
  | some record =>
    refine final_lift_bind (Q := CountsTo s) .same fun authDataBytes _ => ?_
    refine final_lift_bind (Q := CountsTo s) .same fun clientDataHash _ => ?_
    refine final_lift_bind (Q := CountsTo s) .same fun pkcs8 _ => ?_
    have start : CountsTo s (Plugin.called s) := .same
    exact final_bind_keeps (counts_signWithAlgorithm start _ _ _) fun signature t h => h

theorem counts_deleteCredential
    (missing : ∀ id, ¬ DeletesStored "keepasskeywin.deleteCredential" params s id) :
    CountsTo s (final (deleteCredential out params (Plugin.called s))) := by
  refine final_lift_bind (Q := CountsTo s) .same fun obj hobj => ?_
  refine final_lift_bind (Q := CountsTo s) .same fun id hid => ?_
  obtain ⟨field, nonempty⟩ := requireString_ok.mp hid
  have absent : ¬ (Plugin.called s).entries.any (hasId id) = true := fun stored =>
    missing id ⟨⟨rfl, obj, requireObject_ok.mp hobj, field⟩, nonempty, stored⟩
  have run := delete_eq out id (Plugin.called s)
  rw [if_neg absent] at run
  rw [bind_of_ok run]
  exact .same

theorem counts_createPasskey
    (unready : ∀ p, prepareCreate P out params s.culture ≠ .ok p) :
    CountsTo s (final (createPasskey P out params (Plugin.called s))) := by
  rw [createPasskey_eq]
  exact final_lift_bind (Q := CountsTo s) .same fun p hp => absurd hp (unready p)

theorem counts_handleMakeCredentialRaw
    (unready : ∀ p, prepared P out makeMethod params s ≠ .ok p) :
    CountsTo s (final (handleMakeCredentialRaw P out params (Plugin.called s))) := by
  rw [handleMakeCredentialRaw_eq]
  refine final_bind (Q := CountsTo s) (fun e t h => ?_) (fun received t h => ?_)
  · have left : final (receiveRaw P out params makeMethod (Plugin.called s)) = _ :=
      receiveRaw_final makeMethod (Plugin.called s)
    rw [h, final_error] at left
    exact left ▸ .same
  · obtain ⟨uv, cborBytes⟩ := received
    obtain ⟨prompt, hgates, rfl⟩ := receiveRaw_ok.mp h
    rw [get_bind]
    refine final_lift_bind (Q := CountsTo s) .same fun p hp => ?_
    refine absurd ?_ (unready p)
    have passed : (gates P out.ask s.opSignPubKey s.skipPluginSigVerify s.uvFallbackPrompt params
        makeMethod).1 = .ok (uv, cborBytes) := congrArg Prod.fst hgates
    rw [prepared, if_neg (by decide), if_pos rfl, passed]
    exact hp

/-- Every other request leaves the records alone, or counts with one of them. -/
theorem handle_counts (unregistered : ∀ record, ¬ Registers P out method params s record)
    (undeleted : ∀ id, ¬ DeletesStored method params s id) :
    CountsTo s (final (handle P out method params s)) := by
  cases hopen : s.isVaultOpen with
  | false =>
    rw [handle_of_closed hopen]
    exact .same
  | true =>
    have unready : ∀ p, prepared P out method params s ≠ .ok p := fun p hp =>
      unregistered p.1 ⟨hopen, p.2, hp⟩
    rw [handle_of_open hopen]
    unfold dispatchMethod
    split_ifs with h₁ h₂ h₃ h₄ h₅ h₆ h₇
    · refine counts_createPasskey fun p hp => unready p ?_
      rw [prepared, if_pos h₁]
      exact hp
    · exact counts_listCredentials
    · exact counts_signAssertion
    · subst h₄
      exact counts_deleteCredential undeleted
    · exact .same
    · subst h₆
      exact counts_handleMakeCredentialRaw unready
    · exact counts_get
    · exact .same

end

namespace Sample

theorem registers_raw {P : Platform} {out : Outside} {s : Plugin}
    {prompt : Option UvFallbackPrompt} {cborBytes signature : Bytes} (hcbor : cborBytes ≠ [])
    (verified : EcdsaSignatures.verify P VaultOutcomes.Sample.opSignPubKey cborBytes signature =
      .ok true)
    (hopen : s.isVaultOpen = true) (key : s.opSignPubKey = some VaultOutcomes.Sample.opSignPubKey)
    (unset : s.skipPluginSigVerify = none)
    (agreed : promptForFallback out.ask s.uvFallbackPrompt makeMethod = (.ok (), prompt))
    {prepares : PasskeyRecord × JToken}
    (ready : prepareMake P out s true cborBytes = .ok prepares) :
    Registers P out makeMethod (VaultOutcomes.Sample.rawParams cborBytes signature) s
      prepares.1 := by
  have passed : gates P out.ask (some VaultOutcomes.Sample.opSignPubKey) none s.uvFallbackPrompt
      (VaultOutcomes.Sample.rawParams cborBytes signature) makeMethod =
        (.ok (true, cborBytes), prompt) :=
    VaultOutcomes.Sample.gates_of_agreed hcbor verified agreed
  refine ⟨hopen, prepares.2, ?_⟩
  rw [prepared, if_neg (by decide), if_pos rfl, key, unset, passed]
  exact ready

theorem registers_signed {P : Platform} {out : Outside} {s : Plugin}
    {prompt : Option UvFallbackPrompt} {cborBytes signature : Bytes} (hcbor : cborBytes ≠ [])
    (verified : EcdsaSignatures.verify P VaultOutcomes.Sample.opSignPubKey cborBytes signature =
      .ok true)
    (hopen : s.isVaultOpen = true) (key : s.opSignPubKey = some VaultOutcomes.Sample.opSignPubKey)
    (unset : s.skipPluginSigVerify = none)
    (agreed : promptForFallback out.ask s.uvFallbackPrompt makeMethod = (.ok (), prompt))
    (ready : (prepareMake P out s true cborBytes).isOk = true) :
    ∃ record, Registers P out makeMethod (VaultOutcomes.Sample.rawParams cborBytes signature) s
      record := by
  cases h : prepareMake P out s true cborBytes with
  | error e =>
    rw [h] at ready
    cases ready
  | ok p => exact ⟨p.1, registers_raw hcbor verified hopen key unset agreed h⟩

theorem registers_make {out : Outside} {s : Plugin} {prompt : Option UvFallbackPrompt}
    (hopen : s.isVaultOpen = true) (key : s.opSignPubKey = some VaultOutcomes.Sample.opSignPubKey)
    (unset : s.skipPluginSigVerify = none)
    (agreed : promptForFallback out.ask s.uvFallbackPrompt makeMethod = (.ok (), prompt))
    (ready : (prepareMake (VaultOutcomes.Sample.platform []) out s true
      VaultOutcomes.Sample.makeCbor).isOk = true) :
    ∃ record, Registers (VaultOutcomes.Sample.platform []) out makeMethod
      (VaultOutcomes.Sample.rawParams VaultOutcomes.Sample.makeCbor
        VaultOutcomes.Sample.makeSignature) s record :=
  registers_signed (by decide +kernel) (by decide +kernel) hopen key unset agreed ready

theorem answers_make {s : Plugin} {prompt : Option UvFallbackPrompt} (hopen : s.isVaultOpen = true)
    (key : s.opSignPubKey = some VaultOutcomes.Sample.opSignPubKey)
    (unset : s.skipPluginSigVerify = none)
    (agreed : promptForFallback VaultOutcomes.Sample.outside.ask s.uvFallbackPrompt makeMethod =
      (.ok (), prompt))
    (ready : (prepareMake (VaultOutcomes.Sample.platform []) VaultOutcomes.Sample.outside s true
      VaultOutcomes.Sample.makeCbor).isOk = true) :
    ∃ result s', handle (VaultOutcomes.Sample.platform []) VaultOutcomes.Sample.outside makeMethod
      (VaultOutcomes.Sample.rawParams VaultOutcomes.Sample.makeCbor
        VaultOutcomes.Sample.makeSignature) s = .ok result s' := by
  obtain ⟨record, registers⟩ := registers_make hopen key unset agreed ready
  exact answered_of_registers registers rfl

end Sample

end KeePassKeyWin.RequestEffects
