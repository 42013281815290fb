import KeePassKeyWin.SidecarResults
import KeePassKeyWin.VaultWellFormedness

set_option autoImplicit false

/-!
# The results that the sidecar reads

What the plugin writes for each method is what the sidecar's decoder for it reads back, except
that a listed credential has no `rpId`.
-/
namespace KeePassKeyWin.ResultFormats
open ByteStrings JsonRpc OutcomeRules PlatformServices CredentialEncodings PasskeyStore VaultGates
open CtapRequests VaultHandler VaultOutcomes VaultRuns RequestEffects SidecarServices
open SidecarResults VaultWellFormedness

inductive ResultMethod where
  | createPasskey
  | listCredentials
  | signAssertion
  | deleteCredential
  | makeCredentialRaw
  | enumerateForSync
  deriving DecidableEq

def ResultMethod.name : ResultMethod → String
  | .createPasskey => "keepasskeywin.createPasskey"
  | .listCredentials => "keepasskeywin.listCredentials"
  | .signAssertion => "keepasskeywin.signAssertion"
  | .deleteCredential => "keepasskeywin.deleteCredential"
  | .makeCredentialRaw => makeMethod
  | .enumerateForSync => "keepasskeywin.enumerateForSync"

/-- The id and the user handle are unpadded base64url. -/
structure Encoded (record : PasskeyRecord) : Prop where
  credentialId : ∃ id, record.credentialId = Base64Url.encode id
  userHandle : ∃ handle, record.userHandle = Base64Url.encode handle

/-- The buffers hold the bytes and the texts of this record. -/
structure Describes (fields : AddCredentialsFields) (record : PasskeyRecord) : Prop where
  credentialId : Base64Url.encode fields.credentialId = record.credentialId
  userHandle : Base64Url.encode fields.userHandle = record.userHandle
  rpId : fromUtf16Lossy (stripNul fields.rpIdW) = record.rpId
  rpName : fromUtf16Lossy (stripNul fields.rpNameW) = record.rpName
  userName : fromUtf16Lossy (stripNul fields.userNameW) = record.userName
  userDisplayName : fromUtf16Lossy (stripNul fields.userDispW) = record.userDisplayName

def Added (P : Platform) (s s' : Plugin) (record : PasskeyRecord) : Prop :=
  s'.entries = s.entries ++ [recordToEntry P s.culture record]

def Signs (P : Platform) (out : Outside) (params : Option JToken) (record : PasskeyRecord)
    (signature : Bytes) : Prop :=
  ∃ authData authDataB64 clientDataHash clientDataHashB64 pkcs8,
    Gives params "authData" authDataB64 ∧ fromBase64String P authDataB64 = .ok authData ∧
    Gives params "clientDataHash" clientDataHashB64 ∧
    fromBase64String P clientDataHashB64 = .ok clientDataHash ∧
    fromBase64String P record.privateKeyPkcs8 = .ok pkcs8 ∧
    signatureOf P out.entropy pkcs8 (authData ++ clientDataHash) record.algId = .ok signature

def ItemDescribes (B : SidecarBase64) (item : JToken) (record : PasskeyRecord) : Prop :=
  ∃ fields, vaultId B item = some fields.credentialId ∧
    parseAddCredentialsFields B (translated item) = .ok fields ∧ Describes fields record

/-- The sidecar's decoder accepts the result, and reads what the plugin put into it. -/
def ReadsBack (P : Platform) (B : SidecarBase64) (out : Outside) (params : Option JToken)
    (s s' : Plugin) (result : JToken) : ResultMethod → Prop
  | .createPasskey => ∃ decoded record authData,
      CreatePasskeyResult.fromValue result = some decoded ∧ Added P s s' record ∧
      AuthDataBuilder.build P record.rpId out.credentialId record.publicKeyCose true =
        .ok authData ∧
      decoded.credentialId = record.credentialId ∧
      B.standard decoded.publicKeyCose = some record.publicKeyCose ∧
      B.standard decoded.authData = some authData
  | .listCredentials => ∃ rpId, Gives params "rpId" rpId ∧
      vecFromValue CredentialInfo.fromValue result =
        some ((s.findByRpId P rpId).map fun r => ⟨r.credentialId, r.userName, r.rpId⟩)
  | .signAssertion => ∃ decoded credentialId record signature,
      SignAssertionResult.fromValue result = some decoded ∧
      Gives params "credentialId" credentialId ∧ s.findById P credentialId = some record ∧
      Signs P out params record signature ∧ B.standard decoded.signature = some signature
  | .deleteCredential => ∃ decoded credentialId,
      DeleteCredentialResult.fromValue result = some decoded ∧
      Gives params "credentialId" credentialId ∧
      decoded.deleted = s.entries.any (hasId credentialId)
  | .makeCredentialRaw => ∃ fields record authData uv,
      parseAddCredentialsFields B result = .ok fields ∧ Added P s s' record ∧
      Describes fields record ∧
      AuthDataBuilder.build P record.rpId out.credentialId record.publicKeyCose uv =
        .ok authData ∧
      responseBytes B result = some (buildAttestationObject authData)
  | .enumerateForSync => ∃ items, result = .array items ∧
      List.Forall₂ (ItemDescribes B) items (s.getAll P)

section
variable {P : Platform} {B : SidecarBase64} {out : Outside} {params : Option JToken}
variable {s s' : Plugin} {result : JToken}

theorem standard_toBase64String (data : Bytes) : B.standard (toBase64String data) = some data :=
  B.standard_iff.mpr rfl

theorem describes_buffers {record : PasskeyRecord} {id handle : Bytes}
    (hid : record.credentialId = Base64Url.encode id)
    (hhandle : record.userHandle = Base64Url.encode handle) :
    Describes ⟨id, handle, encodeUtf16Nul record.rpId, encodeUtf16Nul record.rpName,
      encodeUtf16Nul record.userName, encodeUtf16Nul record.userDisplayName⟩ record where
  credentialId := hid.symm
  userHandle := hhandle.symm
  rpId := fromUtf16Lossy_encodeUtf16Nul _
  rpName := fromUtf16Lossy_encodeUtf16Nul _
  userName := fromUtf16Lossy_encodeUtf16Nul _
  userDisplayName := fromUtf16Lossy_encodeUtf16Nul _

theorem gives_of_requireString {obj : JObject} {key value : String}
    (hobj : params = some (.object obj)) (h : requireString obj key = .ok value) :
    Gives params key value :=
  ⟨obj, hobj, (requireString_ok.mp h).1⟩

theorem addAndAnswer_ok {p : PasskeyRecord × JToken} (hopen : s.isVaultOpen = true)
    (h : addAndAnswer P out p s = .ok result s') : Added P s s' p.1 ∧ result = p.2 := by
  have effect : (final (addAndAnswer P out p s)).entries = _ := (addAndAnswer_run hopen p).1
  rw [h] at effect
  obtain ⟨_, _, _, h⟩ := bind_ok.mp h
  exact ⟨effect, (pure_ok.mp h).1.symm⟩

theorem createPasskey_reads (hopen : s.isVaultOpen = true)
    (h : createPasskey P out params s = .ok result s') :
    ReadsBack P B out params s s' result .createPasskey := by
  rw [createPasskey_eq] at h
  obtain ⟨⟨record, answer⟩, _, run, h⟩ := bind_ok.mp h
  obtain ⟨ready, rfl⟩ := lift_ok.mp run
  obtain ⟨added, rfl⟩ := addAndAnswer_ok hopen h
  obtain ⟨authData, hdata, rfl⟩ := (creates_of_prepareCreate ready).answer
  exact ⟨_, record, authData, rfl, added, hdata, rfl, standard_toBase64String record.publicKeyCose,
    standard_toBase64String authData⟩

theorem handleMakeCredentialRaw_reads (hopen : s.isVaultOpen = true)
    (h : handleMakeCredentialRaw P out params s = .ok result s') :
    ReadsBack P B out params s s' result .makeCredentialRaw := by
  rw [handleMakeCredentialRaw_eq] at h
  obtain ⟨⟨uv, cborBytes⟩, _, received, h⟩ := bind_ok.mp h
  obtain ⟨prompt, _, rfl⟩ := receiveRaw_ok.mp received
  rw [get_bind] at h
  obtain ⟨⟨record, answer⟩, _, run, h⟩ := bind_ok.mp h
  obtain ⟨ready, rfl⟩ := lift_ok.mp run
  obtain ⟨added, rfl⟩ := addAndAnswer_ok (s := Plugin.prompted prompt s) hopen h
  obtain ⟨req, hreq, ready⟩ := except_bind_ok.mp ready
  obtain ⟨_, _, ready⟩ := except_bind_ok.mp ready
  obtain ⟨algId, _, ready⟩ := except_bind_ok.mp ready
  obtain ⟨⟨pkcs8, coseKey⟩, _, ready⟩ := except_bind_ok.mp ready
  obtain ⟨authData, hdata, ready⟩ := except_bind_ok.mp ready
  obtain ⟨rfl, rfl⟩ := Prod.mk.inj (except_pure_ok.mp ready)
  obtain ⟨handle, _, encoded⟩ := encodedHandle_of_parse (orMalformed_ok.mp hreq)
  have text : index (makeCredentialResult (makeCredentialRecord out req algId pkcs8 coseKey)
      (buildAttestationObject authData)) "userHandleB64Url" = .str (Base64Url.encode handle) :=
    congrArg JToken.str encoded
  refine ⟨_, _, authData, uv, parseAddCredentialsFields_ok rfl rfl rfl text rfl rfl, added,
    describes_buffers rfl encoded, hdata, ?_⟩
  exact congrArg (fun data => some (Option.getD data [])) (standard_toBase64String _)

theorem signAssertion_reads (h : signAssertion P out params s = .ok result s') :
    ReadsBack P B out params s s' result .signAssertion := by
  obtain ⟨obj, credentialId, authDataB64, clientDataHashB64, record, authData, clientDataHash, pkcs8,
    signature, object, hid, hauth, hhash, found, hauthData, hclientDataHash, hkey, _, hsign, rfl, _⟩ :=
    signAssertion_ok.mp h
  have signs : Signs P out params record signature :=
    ⟨authData, authDataB64, clientDataHash, clientDataHashB64, pkcs8,
      gives_of_requireString object hauth, hauthData, gives_of_requireString object hhash,
      hclientDataHash, hkey, hsign⟩
  exact ⟨_, credentialId, record, signature, rfl, gives_of_requireString object hid, found, signs,
    standard_toBase64String signature⟩

theorem deleteCredential_reads (h : deleteCredential out params s = .ok result s') :
    ReadsBack P B out params s s' result .deleteCredential := by
  obtain ⟨obj, _, run, h⟩ := bind_ok.mp h
  obtain ⟨hobj, rfl⟩ := lift_ok.mp run
  obtain ⟨credentialId, _, run, h⟩ := bind_ok.mp h
  obtain ⟨hid, rfl⟩ := lift_ok.mp run
  obtain ⟨deleted, _, run, h⟩ := bind_ok.mp h
  obtain ⟨rfl, rfl⟩ := pure_ok.mp h
  have found : deleted = s.entries.any (hasId credentialId) := by
    have ended := delete_ok.mp run
    split_ifs at ended with stored
    · exact ended.1.trans stored.symm
    · exact ended.1.trans (Bool.eq_false_iff.mpr stored).symm
  exact ⟨⟨deleted⟩, credentialId, rfl, gives_of_requireString (requireObject_ok.mp hobj) hid, found⟩

theorem enumerateForSync_reads (encoded : ∀ record ∈ s.getAll P, Encoded record)
    (h : enumerateForSync P s = .ok result s') :
    ReadsBack P B out params s s' result .enumerateForSync := by
  obtain ⟨rfl, rfl⟩ := pure_ok.mp h
  refine ⟨_, rfl, ?_⟩
  rw [List.forall₂_map_left_iff, List.forall₂_same]
  intro record mem
  obtain ⟨⟨id, hid⟩, handle, hhandle⟩ := encoded record mem
  refine ⟨⟨id, handle, _, _, _, _⟩, B.urlSafeNoPad_iff.mpr hid, ?_, describes_buffers hid hhandle⟩
  exact parseAddCredentialsFields_ok (congrArg JToken.str hid) rfl rfl (congrArg JToken.str hhandle)
    rfl rfl

theorem listed_refused (r : PasskeyRecord) : CredentialInfo.fromValue (stringResult [
    ("credentialId", r.credentialId), ("userHandle", r.userHandle), ("userName", r.userName),
    ("userDisplayName", r.userDisplayName)]) = none := rfl

theorem listCredentials_reads_iff (B : SidecarBase64) (out : Outside)
    (h : listCredentials P params s = .ok result s') :
    ReadsBack P B out params s s' result .listCredentials ↔
      ¬ ∃ rpId, Gives params "rpId" rpId ∧ s.findByRpId P rpId ≠ [] := by
  obtain ⟨obj, _, run, h⟩ := bind_ok.mp h
  obtain ⟨hobj, rfl⟩ := lift_ok.mp run
  have object := requireObject_ok.mp hobj
  obtain ⟨rpId, _, run, h⟩ := bind_ok.mp h
  obtain ⟨hrp, rfl⟩ := lift_ok.mp run
  rw [get_bind] at h
  obtain ⟨rfl, rfl⟩ := pure_ok.mp h
  have given : Gives params "rpId" rpId := gives_of_requireString object hrp
  have only : ∀ rpId', Gives params "rpId" rpId' → rpId' = rpId := by
    rintro rpId' ⟨obj', object', field⟩
    obtain rfl := JToken.object.inj (Option.some.inj (object'.symm.trans object))
    rw [(requireString_ok.mp hrp).1] at field
    exact (Option.some.inj (Except.ok.inj field)).symm
  constructor
  · rintro ⟨_, _, decoded⟩ ⟨rpId', given', some⟩
    obtain rfl := only rpId' given'
    obtain ⟨record, rest, found⟩ := List.exists_cons_of_ne_nil some
    simp [found, vecFromValue, listed_refused] at decoded
  · intro none
    have empty : s.findByRpId P rpId = [] := by
      by_contra some
      exact none ⟨rpId, given, some⟩
    refine ⟨rpId, given, ?_⟩
    rw [empty]
    rfl

end

/-- The request lists the credentials of a relying party that has some. -/
def ListsSome (P : Platform) (params : Option JToken) (s : Plugin) (method : ResultMethod) : Prop :=
  method = .listCredentials ∧ ∃ rpId, Gives params "rpId" rpId ∧ s.findByRpId P rpId ≠ []

/-- Over records with encoded ids and handles, the sidecar reads back what any of the six
methods returned, unless it is a list of credentials with something in it. -/
theorem results_read_back_iff (P : Platform) (B : SidecarBase64) (out : Outside)
    (method : ResultMethod) (params : Option JToken) (s s' : Plugin) (result : JToken)
    (encoded : ∀ record ∈ s.getAll P, Encoded record)
    (answered : handle P out method.name params s = .ok result s') :
    ReadsBack P B out params s s' result method ↔ ¬ ListsSome P params s method := by
  have hopen := handle_ok_open answered
  rw [handle_of_open hopen] at answered
  by_cases listing : method = .listCredentials
  · subst listing
    exact (listCredentials_reads_iff B out (s := Plugin.called s) answered).trans
      (not_congr (and_iff_right rfl).symm)
  have reads : ReadsBack P B out params (Plugin.called s) s' result method := by
    cases method with
    | createPasskey => exact createPasskey_reads hopen answered
    | listCredentials => exact absurd rfl listing
    | signAssertion => exact signAssertion_reads answered
    | deleteCredential => exact deleteCredential_reads answered
    | makeCredentialRaw =>
      rw [ResultMethod.name, dispatchMethod_make] at answered
      exact handleMakeCredentialRaw_reads hopen answered
    | enumerateForSync => exact enumerateForSync_reads encoded answered
  exact iff_of_true reads fun some => listing some.1

namespace Sample

def vault : Plugin := VaultOutcomes.Sample.registered "example.com"

def listParams : Option JToken := some (.object [("rpId", .str "example.com")])

theorem encoded_vault : ∀ record ∈ vault.getAll (VaultOutcomes.Sample.platform []),
    Encoded record := by
  have all : vault.getAll (VaultOutcomes.Sample.platform []) =
      [VaultOutcomes.Sample.record "example.com"] :=
    congrArg (· :: []) (VaultOutcomes.Sample.record_entry "example.com")
  rw [all]
  intro record mem
  obtain rfl := List.mem_singleton.mp mem
  exact ⟨⟨_, rfl⟩, [1, 2, 3, 4], by decide +kernel⟩

theorem lists_vault : ∃ record,
    vault.findByRpId (VaultOutcomes.Sample.platform []) "example.com" = [record] := by
  have own : hasRpId "example.com" (VaultOutcomes.Sample.entry "example.com") = true := by
    decide +kernel
  refine ⟨VaultOutcomes.Sample.record "example.com", ?_⟩
  rw [Plugin.findByRpId, vault, VaultOutcomes.Sample.entries_registered, List.filter_cons, if_pos own]
  exact congrArg (· :: []) (VaultOutcomes.Sample.record_entry "example.com")

theorem answers_list : ∃ r : PasskeyRecord, handle (VaultOutcomes.Sample.platform [])
    VaultOutcomes.Sample.outside ResultMethod.listCredentials.name listParams vault =
      .ok (.array [stringResult [("credentialId", r.credentialId), ("userHandle", r.userHandle),
        ("userName", r.userName), ("userDisplayName", r.userDisplayName)]])
        (Plugin.called vault) := by
  obtain ⟨record, found⟩ := lists_vault
  refine ⟨record, ?_⟩
  have object : (lift (requireObject listParams "keepasskeywin.listCredentials") : Vault JObject)
      (Plugin.called vault) = .ok [("rpId", .str "example.com")] (Plugin.called vault) := rfl
  have text : (lift (requireString [("rpId", .str "example.com")] "rpId") : Vault String)
      (Plugin.called vault) = .ok "example.com" (Plugin.called vault) :=
    lift_ok.mpr ⟨requireString_ok.mpr ⟨rfl, by decide⟩, rfl⟩
  have listed : (Plugin.called vault).findByRpId (VaultOutcomes.Sample.platform []) "example.com" =
      [record] := found
  rw [handle_of_open rfl]
  change listCredentials _ _ _ = _
  rw [listCredentials, bind_of_ok object, bind_of_ok text, get_bind]
  simp only [listed]
  rfl

end Sample

theorem results_read_back_iff_sample : ∃ result, ReadsBack (VaultOutcomes.Sample.platform [])
    (exactBase64 (VaultOutcomes.Sample.platform [])) VaultOutcomes.Sample.outside none Sample.vault
    (Plugin.called Sample.vault) result .enumerateForSync := by
  refine ⟨_, (results_read_back_iff _ _ VaultOutcomes.Sample.outside .enumerateForSync none
    Sample.vault _ _ Sample.encoded_vault (handle_of_open rfl)).mpr ?_⟩
  rintro ⟨listing, _⟩
  cases listing

/-- The sidecar cannot read a list with one credential in it. -/
theorem listed_credential_unread : (∀ record ∈ Sample.vault.getAll
      (VaultOutcomes.Sample.platform []), Encoded record) ∧
    ∃ result, handle (VaultOutcomes.Sample.platform []) VaultOutcomes.Sample.outside
        "keepasskeywin.listCredentials" Sample.listParams Sample.vault =
          .ok result (Plugin.called Sample.vault) ∧
      vecFromValue CredentialInfo.fromValue result = none := by
  obtain ⟨r, answered⟩ := Sample.answers_list
  exact ⟨Sample.encoded_vault, _, answered, rfl⟩

end KeePassKeyWin.ResultFormats
