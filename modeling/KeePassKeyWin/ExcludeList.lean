import KeePassKeyWin.CtapDescriptions
import KeePassKeyWin.VaultErrors
import KeePassKeyWin.VaultOutcomes

set_option autoImplicit false

/-!
# The exclude list

A registration is turned down as soon as the vault has a credential with a listed id. The
parser keeps the ids of all descriptors, whatever their type, and the store looks for an id
among the credentials of all relying parties.
-/
namespace KeePassKeyWin.ExcludeList
open ByteStrings JsonRpc OutcomeRules PlatformServices CborReading CredentialEncodings
open PasskeyStore VaultGates CtapRequests CtapSyntax CtapDescriptions VaultHandler VaultErrors
open VaultOutcomes CredentialSelection

/-- The value of the last `type` of a descriptor. -/
def excludedType (d : List ExcludedEntry) : Option Bytes :=
  d.foldl (fun type e =>
    match e with
    | .other "type" item => some item
    | _ => type) none

def PublicKey (d : List ExcludedEntry) : Prop :=
  ∃ item, excludedType d = some item ∧ Text "public-key" item

/-- The descriptor has the id of this credential of the vault. -/
def Denotes (s : Plugin) (d : List ExcludedEntry) (e : PwEntry) : Prop :=
  e ∈ s.entries ∧ ∃ id, excludedId d = some id ∧ e.credentialId = some (Base64Url.encode id)

def Names (s : Plugin) (rpId : String) (d : List ExcludedEntry) : Prop :=
  PublicKey d ∧ ∃ e, Denotes s d e ∧ hasRpId rpId e = true

def Excluded (r : EStateM.Result Exn Plugin JToken) : Prop :=
  ∃ message s', r = .error (.rpc RpcErrorCode.credentialExcluded message) s'

/-- The result or the error, without the state. -/
def outcome {α : Type} : EStateM.Result Exn Plugin α → Except Exn α
  | .ok a _ => .ok a
  | .error e _ => .error e

def register (P : Platform) (out : Outside) (culture : NumberFormat.NumberFormatInfo) (uv : Bool)
    (req : MakeCredentialRequest) : Vault JToken := do
  let selectedAlg ← lift (selectAlgorithm req.requestedAlgs)
  let (pkcs8, coseKey) ← lift (generateKeyPairAndCoseKey out culture selectedAlg)
  let authData ← lift (AuthDataBuilder.build P req.rpId out.credentialId coseKey uv)
  let record := makeCredentialRecord out req selectedAlg pkcs8 coseKey
  add P out record
  return makeCredentialResult record (buildAttestationObject authData)

section
variable {P : Platform} {out : Outside} {params : Option JToken} {s : Plugin} {uv : Bool}
  {data : Bytes} {prompt : Option UvFallbackPrompt} {req : MakeCredentialRequest}

theorem handleMakeCredentialRaw_parsed
    (hgates : gates P out.ask s.opSignPubKey s.skipPluginSigVerify s.uvFallbackPrompt params
      makeMethod = (.ok (uv, data), prompt))
    (hreq : parseMakeCredentialCbor data = .ok req) :
    handleMakeCredentialRaw P out params s =
      (lift (checkExcluded P req.excludeList (Plugin.prompted prompt s)) >>= fun _ =>
        register P out s.culture uv req) (Plugin.prompted prompt s) := by
  have received := receiveRaw_ok.mpr ⟨prompt, hgates, rfl⟩
  have parsed : (lift (orMalformed makeMethod (parseMakeCredentialCbor data)) : Vault _)
      (Plugin.prompted prompt s) = .ok req (Plugin.prompted prompt s) :=
    lift_ok.mpr ⟨orMalformed_ok.mpr hreq, rfl⟩
  rw [handleMakeCredentialRaw, bind_of_ok received]
  change (lift (orMalformed makeMethod (parseMakeCredentialCbor data)) >>= _)
    (Plugin.prompted prompt s) = _
  rw [bind_of_ok parsed, get_bind]
  rfl

theorem handle_make_parsed (hopen : s.isVaultOpen = true)
    (hgates : gates P out.ask s.opSignPubKey s.skipPluginSigVerify s.uvFallbackPrompt params
      makeMethod = (.ok (uv, data), prompt))
    (hreq : parseMakeCredentialCbor data = .ok req) :
    handle P out makeMethod params s =
      (lift (checkExcluded P req.excludeList s) >>= fun _ => register P out s.culture uv req)
        (Plugin.prompted prompt (Plugin.called s)) := by
  rw [handle_of_open hopen, dispatchMethod_make]
  exact handleMakeCredentialRaw_parsed (s := Plugin.called s) hgates hreq

theorem register_not_excluded {culture : NumberFormat.NumberFormatInfo} :
    ¬ Excluded (register P out culture uv req s) := by
  have throws : Throws (fun e => ∀ m, e ≠ .rpc RpcErrorCode.credentialExcluded m)
      (register P out culture uv req) := by
    have other : ∀ message m, Exn.other message ≠ .rpc RpcErrorCode.credentialExcluded m := by
      simp
    have unsupported : ∀ message m, Exn.rpc RpcErrorCode.unsupportedAlgorithm message ≠
        .rpc RpcErrorCode.credentialExcluded m := by
      simp [RpcErrorCode.unsupportedAlgorithm, RpcErrorCode.credentialExcluded]
    refine .bind (.lift (selectAlgorithm_fails unsupported _)) fun alg =>
      .bind (.lift (generateKeyPairAndCoseKey_fails other unsupported _ _ _)) fun key => ?_
    exact .bind (.lift (build_fails other _ _ _ _)) fun _ => .bind (add_throws other _ _) fun _ =>
      .pure _
  rintro ⟨message, s', run⟩
  exact throws s _ s' run message rfl

theorem outcome_lift {α β : Type} {x : Except Exn α} {f : α → Vault β} {s t : Plugin}
    (h : ∀ a, outcome (f a s) = outcome (f a t)) :
    outcome ((lift x >>= f) s) = outcome ((lift x >>= f) t) := by
  cases x with
  | error e =>
    rw [bind_of_error (lift_error.mpr ⟨rfl, rfl⟩), bind_of_error (lift_error.mpr ⟨rfl, rfl⟩)]
    rfl
  | ok a =>
    rw [bind_of_ok (lift_ok.mpr ⟨rfl, rfl⟩), bind_of_ok (lift_ok.mpr ⟨rfl, rfl⟩)]
    exact h a

theorem outcome_add {record : PasskeyRecord} {result : JToken} (hs : s.isVaultOpen = true) :
    outcome ((add P out record >>= fun _ => pure result) s) =
      match out.save with
      | none => .ok result
      | some message => .error (.other message) := by
  obtain ⟨db, hdb, _⟩ := open_database hs
  cases hsave : out.save with
  | none =>
    have added : add P out record s =
        .ok () (s.addEntry (recordToEntry P s.culture record)).saved :=
      add_ok.mpr ⟨hsave, by rw [hdb]; rfl, rfl⟩
    rw [bind_of_ok added]
    rfl
  | some message =>
    have failed : add P out record s =
        .error (.other message) (s.addEntry (recordToEntry P s.culture record)) := by
      rw [add_eq, hdb, if_neg (by simp), save, hsave]
    rw [bind_of_error failed]
    rfl

/-- Neither the result nor the error of a registration depends on what is in an open vault. -/
theorem register_outcome {culture : NumberFormat.NumberFormatInfo} {t : Plugin}
    (hs : s.isVaultOpen = true) (ht : t.isVaultOpen = true) :
    outcome (register P out culture uv req s) = outcome (register P out culture uv req t) := by
  unfold register
  refine outcome_lift fun alg => outcome_lift fun key => outcome_lift fun authData => ?_
  rw [outcome_add hs, outcome_add ht]

theorem checkExcluded_ok {excludeList : List String} :
    checkExcluded P excludeList s = .ok () ↔
      ¬ ∃ id ∈ excludeList, ∃ e ∈ s.entries, e.credentialId = some id := by
  have found : ∀ id, (s.findById P id).isSome = true ↔ ∃ e ∈ s.entries, e.credentialId = some id := by
    intro id
    simp [Plugin.findById, List.find?_isSome, hasId_iff]
  unfold checkExcluded
  split
  · rename_i none
    simp only [List.find?_eq_none, found] at none
    simpa using none
  · rename_i id some
    have listed := List.mem_of_find?_eq_some some
    have hit := (found id).mp (List.find?_some (p := fun id => (s.findById P id).isSome) some)
    simp only [reduceCtorEq, false_iff, not_not]
    exact ⟨id, listed, hit⟩

theorem checkExcluded_error {excludeList : List String} {e : Exn}
    (h : checkExcluded P excludeList s = .error e) :
    ∃ message, e = .rpc RpcErrorCode.credentialExcluded message := by
  unfold checkExcluded at h
  split at h
  · cases h
  · cases h
    exact ⟨_, rfl⟩

theorem listed_iff {ds : List (List ExcludedEntry)} :
    (∃ id ∈ ds.flatMap excludedIds, ∃ e ∈ s.entries, e.credentialId = some id) ↔
      ∃ d ∈ ds, ∃ e, Denotes s d e := by
  simp only [List.mem_flatMap, excludedIds, Option.mem_toList, Option.map_eq_some_iff, Denotes]
  constructor
  · rintro ⟨_, ⟨d, hd, id, hid, rfl⟩, e, he, found⟩
    exact ⟨d, hd, e, he, id, hid, found⟩
  · rintro ⟨d, hd, e, he, id, hid, found⟩
    exact ⟨_, ⟨d, hd, id, hid, rfl⟩, e, he, found⟩

end

/-- The exclude list keeps a registration away from the listed credentials of its own relying
party, and does nothing else. -/
structure ExcludesOwn (P : Platform) (out : Outside) (params : Option JToken) (s : Plugin)
    (uv : Bool) (prompt : Option UvFallbackPrompt) (req : MakeCredentialRequest)
    (ds : List (List ExcludedEntry)) : Prop where
  excluded : Excluded (handle P out makeMethod params s) ↔ ∃ d ∈ ds, Names s req.rpId d
  unchanged : ∀ message s', handle P out makeMethod params s =
      .error (.rpc RpcErrorCode.credentialExcluded message) s' →
    s'.database = s.database ∧ s'.file = s.file
  otherwise : (¬ ∃ d ∈ ds, Names s req.rpId d) → handle P out makeMethod params s =
    register P out s.culture uv req (Plugin.prompted prompt (Plugin.called s))
  uninfluenced : (¬ ∃ d ∈ ds, Names s req.rpId d) → ∀ t : Plugin, t.isVaultOpen = true →
    outcome (handle P out makeMethod params s) = outcome (register P out s.culture uv req t)

def Written (es : List MakeEntry) (data : Bytes) : Prop :=
  ∃ bs rest, data = bs ++ rest ∧ Counted 5 MakeEntry.Encodes es bs ∧ ∀ e ∈ es, e.Readable

theorem Written.excludeList {es : List MakeEntry} {data : Bytes} {req : MakeCredentialRequest}
    (h : Written es data) (size : data.length ≤ intMaxValue)
    (hreq : parseMakeCredentialCbor data = .ok req) :
    req.excludeList = (es.flatMap MakeEntry.excluded).flatMap excludedIds := by
  obtain ⟨bs, rest, rfl, counted, readable⟩ := h
  rw [parse_makeEntries counted readable size] at hreq
  rw [(validateMake_ok hreq).excludeList, makeFields_excludeList]

theorem written_of_parse {data : Bytes} {req : MakeCredentialRequest}
    (size : data.length ≤ intMaxValue) (hreq : parseMakeCredentialCbor data = .ok req) :
    ∃ es, Written es data := by
  obtain ⟨es, bs, rest, split, counted, readable, _⟩ := makeEntries_of_parse size hreq
  exact ⟨es, bs, rest, split, counted, readable⟩

/-- Every request that the gates let pass and that parses has its entries, and the exclude list
among them does what it is for exactly when no credential is denoted other than with a
credential that is named. -/
theorem makeCredentialRaw_excludes_iff (P : Platform) (out : Outside) (params : Option JToken)
    (s : Plugin) (uv : Bool) (data : Bytes) (prompt : Option UvFallbackPrompt)
    (req : MakeCredentialRequest) (hopen : s.isVaultOpen = true)
    (hgates : gates P out.ask s.opSignPubKey s.skipPluginSigVerify s.uvFallbackPrompt params
      makeMethod = (.ok (uv, data), prompt))
    (size : data.length ≤ intMaxValue) (hreq : parseMakeCredentialCbor data = .ok req) :
    (∃ es, Written es data) ∧ ∀ es, Written es data →
      (ExcludesOwn P out params s uv prompt req (es.flatMap MakeEntry.excluded) ↔
        ((∃ d ∈ es.flatMap MakeEntry.excluded, ∃ e, Denotes s d e) →
          ∃ d ∈ es.flatMap MakeEntry.excluded, Names s req.rpId d)) := by
  refine ⟨written_of_parse size hreq, fun es written => ?_⟩
  have handled := handle_make_parsed hopen hgates hreq
  have listed := written.excludeList size hreq
  have denoted := @listed_iff s (es.flatMap MakeEntry.excluded)
  rw [← listed] at denoted
  cases hcheck : checkExcluded P req.excludeList s with
  | ok u =>
    have free := checkExcluded_ok.mp hcheck
    rw [denoted] at free
    have answered : handle P out makeMethod params s =
        register P out s.culture uv req (Plugin.prompted prompt (Plugin.called s)) := by
      rw [handled, bind_of_ok (lift_ok.mpr ⟨hcheck, rfl⟩)]
    have unnamed : ¬ ∃ d ∈ es.flatMap MakeEntry.excluded, Names s req.rpId d := by
      rintro ⟨d, hd, _, e, he, _⟩
      exact free ⟨d, hd, e, he⟩
    refine iff_of_true ⟨?_, ?_, fun _ => answered, fun _ t ht => ?_⟩ fun h => absurd h free
    · rw [answered]
      exact iff_of_false register_not_excluded unnamed
    · intro message s' failed
      exact absurd ⟨message, s', answered ▸ failed⟩ register_not_excluded
    · rw [answered]
      exact register_outcome hopen ht
  | error err =>
    have hit : ∃ d ∈ es.flatMap MakeEntry.excluded, ∃ e, Denotes s d e := by
      rw [← denoted]
      by_contra free
      rw [checkExcluded_ok.mpr free] at hcheck
      cases hcheck
    obtain ⟨message, rfl⟩ := checkExcluded_error hcheck
    have failed : handle P out makeMethod params s =
        .error (.rpc RpcErrorCode.credentialExcluded message)
          (Plugin.prompted prompt (Plugin.called s)) := by
      rw [handled, bind_of_error (lift_error.mpr ⟨hcheck, rfl⟩)]
    have excluded : Excluded (handle P out makeMethod params s) := ⟨message, _, failed⟩
    constructor
    · exact fun h _ => h.excluded.mp excluded
    · intro h
      have named := h hit
      refine ⟨iff_of_true excluded named, ?_, absurd named, absurd named⟩
      intro message' s' failed'
      rw [failed] at failed'
      cases failed'
      exact ⟨rfl, rfl⟩

def sampleMakeRequest : MakeCredentialRequest :=
  ⟨List.replicate 32 0, "a.b", "a.b", "AQ", "u", "u", ["CQ"], [-7]⟩

def sampleMakeSignature : Bytes :=
  bigEndian 64 0x3fb3162184a31077abf65bc236e35320ba410f4397f1ec833926d2808068b6ad96dace894fceed2de3da97208bc2472fc4746edd44624410a9487f46d264b539

def samplePlatform : Platform :=
  { Sample.lineless with
    verifyData := fun pubKey payload signature => .answer (pubKey = Sample.opSignPubKey ∧
      payload = sampleMakeData ∧ signature = sampleMakeSignature) }

def sampleParams : Option JToken := Sample.rawParams sampleMakeData sampleMakeSignature

def sampleEntry : PwEntry :=
  recordToEntry samplePlatform NumberFormat.invariant
    { Sample.record "example.org" with credentialId := Base64Url.encode [9] }

def sampleVault : Plugin :=
  { Sample.plugin with database := some (.mk true [⟨groupName, [sampleEntry]⟩]) }

theorem gates_sample : gates samplePlatform Sample.outside.ask sampleVault.opSignPubKey
    sampleVault.skipPluginSigVerify sampleVault.uvFallbackPrompt sampleParams makeMethod =
      (.ok (true, sampleMakeData), sampleVault.uvFallbackPrompt) :=
  Sample.gates_rawParams (by decide +kernel) (by decide +kernel) makeMethod

theorem written_sample : Written sampleMakeEntries sampleMakeData :=
  ⟨sampleMakeData, [], (List.append_nil _).symm, sampleMake_counted,
    makeEntries_readable sampleMake_describes⟩

theorem parse_sample : parseMakeCredentialCbor sampleMakeData = .ok sampleMakeRequest := by
  have size : (sampleMakeData ++ []).length ≤ intMaxValue := by decide +kernel
  have parsed := parse_makeEntries sampleMake_counted (makeEntries_readable sampleMake_describes) size
  rw [List.append_nil] at parsed
  rw [parsed]
  rfl

theorem makeCredentialRaw_excludes_iff_sample :
    ExcludesOwn samplePlatform Sample.outside sampleParams sampleVault true
        sampleVault.uvFallbackPrompt sampleMakeRequest
        (sampleMakeEntries.flatMap MakeEntry.excluded) ↔
      ((∃ d ∈ sampleMakeEntries.flatMap MakeEntry.excluded, ∃ e, Denotes sampleVault d e) →
        ∃ d ∈ sampleMakeEntries.flatMap MakeEntry.excluded, Names sampleVault "a.b" d) :=
  (makeCredentialRaw_excludes_iff _ _ _ _ true sampleMakeData _ sampleMakeRequest rfl gates_sample
    (by decide +kernel) parse_sample).2 sampleMakeEntries written_sample

/-- A request of a.b learns that the vault has a credential of example.org with the id 9, which
it lists with another type. -/
theorem foreign_credential_excluded :
    sampleVault.isVaultOpen = true ∧
      gates samplePlatform Sample.outside.ask sampleVault.opSignPubKey
        sampleVault.skipPluginSigVerify sampleVault.uvFallbackPrompt sampleParams makeMethod =
          (.ok (true, sampleMakeData), sampleVault.uvFallbackPrompt) ∧
      parseMakeCredentialCbor sampleMakeData = .ok sampleMakeRequest ∧
      Written sampleMakeEntries sampleMakeData ∧
      ¬ ExcludesOwn samplePlatform Sample.outside sampleParams sampleVault true
        sampleVault.uvFallbackPrompt sampleMakeRequest
        (sampleMakeEntries.flatMap MakeEntry.excluded) := by
  refine ⟨rfl, gates_sample, parse_sample, written_sample, fun own => ?_⟩
  have unnamed : ¬ ∃ d ∈ sampleMakeEntries.flatMap MakeEntry.excluded, Names sampleVault "a.b" d := by
    rintro ⟨_, _, _, e, ⟨he, _⟩, bound⟩
    obtain rfl : e = sampleEntry := List.mem_singleton.mp he
    exact absurd (hasRpId_iff.mp bound) (by decide)
  have registered := own.otherwise unnamed
  rw [handle_make_parsed rfl gates_sample parse_sample] at registered
  cases hcheck : checkExcluded samplePlatform sampleMakeRequest.excludeList sampleVault with
  | ok u =>
    exact checkExcluded_ok.mp hcheck
      ⟨Base64Url.encode [9], by decide, sampleEntry, List.mem_singleton.mpr rfl, rfl⟩
  | error err =>
    obtain ⟨message, rfl⟩ := checkExcluded_error hcheck
    rw [bind_of_error (lift_error.mpr ⟨hcheck, rfl⟩)] at registered
    exact register_not_excluded ⟨message, _, registered.symm⟩

end KeePassKeyWin.ExcludeList
