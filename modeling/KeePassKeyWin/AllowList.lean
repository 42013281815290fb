import KeePassKeyWin.CtapDescriptions
import KeePassKeyWin.RelyingPartyScope

set_option autoImplicit false

/-!
# The allow list

The handler decides between the listed credentials and those of the relying party by what is
left of the list once the descriptors of other types and those without an id are dropped.
-/
namespace KeePassKeyWin.AllowList
open ByteStrings JsonRpc OutcomeRules PlatformServices CborCodec CborReading CredentialEncodings
open EcdsaSignatures AuthDataBuilder PasskeyStore VaultGates CtapRequests CtapSyntax CtapDescriptions
open VaultHandler VaultResponses VaultOutcomes CredentialSelection RelyingPartyScope

/-- The descriptor is a public key with the id of this credential of the vault. -/
def Denotes (s : Plugin) (d : List DescriptorEntry) (e : PwEntry) : Prop :=
  e ∈ s.entries ∧ ∃ id ∈ (descriptorOf d).publicKeyId, e.credentialId = some (Base64Url.encode id)

/-- The handler turns to the credentials of the relying party. -/
def StartsDiscoverable (req : GetAssertionRequest) : Prop :=
  req.optionsUp = true ∧ req.allowListCredIds = []

structure AnsweredBy (P : Platform) (s s' : Plugin) (e : PwEntry) (result : JToken) : Prop where
  key : ∃ pkcs8, fromBase64String P (entryToRecord P s.culture e).privateKeyPkcs8 = .ok pkcs8 ∧
    s'.keyUses = s.keyUses ++ [pkcs8]
  response : ∃ rawId authData signature, e.credentialId = some (Base64Url.encode rawId) ∧ result =
    stringResult [("cbor", toBase64String (encode (assertionItem rawId authData signature none)))]

/-- A list of descriptors restricts the assertion to the credentials they denote. -/
structure Restricted (P : Platform) (out : Outside) (params : Option JToken) (s : Plugin)
    (req : GetAssertionRequest) (ds : List (List DescriptorEntry)) : Prop where
  success : ∀ result s', handle P out getMethod params s = .ok result s' →
    ∃ d ∈ ds, ∃ e, Denotes s d e ∧ AnsweredBy P s s' e result
  notFound : (¬ ∃ d ∈ ds, ∃ e, Denotes s d e) → ∃ message s',
    handle P out getMethod params s = .error (.rpc RpcErrorCode.credentialNotFound message) s'
  listed : ¬ StartsDiscoverable req

/-- The bytes begin with a map of these entries. -/
def Written (es : List GetEntry) (data : Bytes) : Prop :=
  ∃ bs rest, data = bs ++ rest ∧ Counted 5 GetEntry.Encodes es bs

section
variable {P : Platform} {out : Outside} {params : Option JToken} {s : Plugin} {uv : Bool}
  {data : Bytes} {req : GetAssertionRequest} {e : PwEntry} {es : List GetEntry}
  {ds : List (List DescriptorEntry)}

theorem validate_allowList {f : GetAssertionFields} (h : f.validate = .ok req) :
    req.allowListCredIds = f.allowListCredIds := by
  unfold GetAssertionFields.validate at h
  split at h
  · exact (except_throw_ok.mp h).elim
  · split at h
    · exact (except_throw_ok.mp h).elim
    · rw [← except_pure_ok.mp h]

theorem Written.allowList (h : Written es data) (size : data.length ≤ intMaxValue)
    (hreq : parseGetAssertionCbor data = .ok req) :
    req.allowListCredIds =
      (es.flatMap GetEntry.allowed).flatMap fun d => (descriptorOf d).publicKeyId := by
  obtain ⟨bs, rest, rfl, counted⟩ := h
  rw [parse_getEntries counted size] at hreq
  rw [validate_allowList hreq, getFields_allowList]

theorem written_of_parse (size : data.length ≤ intMaxValue)
    (hreq : parseGetAssertionCbor data = .ok req) : ∃ es, Written es data := by
  obtain ⟨es, bs, rest, split, counted, _⟩ := getEntries_of_parse size hreq
  exact ⟨es, bs, rest, split, counted⟩

theorem denotes_of_selects (h : Selects req s e) (hlist : req.allowListCredIds ≠ [])
    (listed : req.allowListCredIds = ds.flatMap fun d => (descriptorOf d).publicKeyId) :
    ∃ d ∈ ds, Denotes s d e := by
  rcases h with ⟨hnil, _⟩ | ⟨before, rawId, after, split, _, hfind⟩
  · exact absurd hnil hlist
  · have mem : rawId ∈ req.allowListCredIds := by simp [split]
    rw [listed] at mem
    obtain ⟨d, hd, hid⟩ := List.mem_flatMap.mp mem
    exact ⟨d, hd, List.mem_of_find?_eq_some hfind, rawId, hid,
      hasId_iff.mp (List.find?_some hfind)⟩

theorem answeredBy_of_assertWith {prompt : Option UvFallbackPrompt} {result : JToken}
    {s' : Plugin} {id : Bytes} (hlist : req.allowListCredIds ≠ [])
    (hid : e.credentialId = some (Base64Url.encode id))
    (run : assertWith P out req uv (entryToRecord P s.culture e)
      (Plugin.prompted prompt (Plugin.called s)) = .ok result s') :
    AnsweredBy P s s' e result := by
  obtain ⟨e', pkcs8, signature, rawId, response, _, _, _, hkey, _, _, hraw, hresp, rfl, rfl⟩ :=
    assertWith_ok.mp run
  have record : (entryToRecord P s.culture e).credentialId = Base64Url.encode id :=
    entryToRecord_credentialId hid
  rw [record, Base64Url.decode_encode, Except.ok.injEq] at hraw
  rw [if_neg hlist, buildAssertionResponse_none, Except.ok.injEq] at hresp
  refine ⟨⟨pkcs8, hkey, ?_⟩, rawId, _, signature, hraw ▸ hid, by rw [← hresp]⟩
  have kept := (frame_saved (Plugin.counted (entryToRecord P s.culture e).credentialId
    (e'.signCount + 1) (Plugin.prompted prompt (Plugin.called s)))).keyUses
  simp only [Plugin.signed, kept]
  rfl

theorem restricted_of_listed {prompt : Option UvFallbackPrompt} (hopen : s.isVaultOpen = true)
    (hgates : gates P out.ask s.opSignPubKey s.skipPluginSigVerify s.uvFallbackPrompt params
      getMethod = (.ok (uv, data), prompt))
    (hreq : parseGetAssertionCbor data = .ok req) (up : req.optionsUp = true)
    (listed : req.allowListCredIds = ds.flatMap fun d => (descriptorOf d).publicKeyId)
    (hlist : req.allowListCredIds ≠ []) : Restricted P out params s req ds := by
  have handled := handle_parsed hopen hgates hreq
  rw [if_pos up] at handled
  cases hsel : selectCredential P req s with
  | error err =>
    obtain ⟨message, rfl⟩ := selectCredential_error hsel
    rw [bind_of_error (lift_error.mpr ⟨hsel, rfl⟩)] at handled
    refine ⟨fun result s' h => ?_, fun _ => ⟨message, _, handled⟩, fun h => hlist h.2⟩
    rw [handled] at h
    cases h
  | ok selected =>
    rw [bind_of_ok (lift_ok.mpr ⟨hsel, rfl⟩)] at handled
    obtain ⟨e, he, rfl⟩ := selectCredential_ok.mp hsel
    obtain ⟨d, hd, denotes⟩ := denotes_of_selects he hlist listed
    obtain ⟨_, id, _, hid⟩ := id denotes
    refine ⟨fun result s' h => ⟨d, hd, e, denotes, ?_⟩, fun none => absurd ⟨d, hd, e, denotes⟩ none,
      fun h => hlist h.2⟩
    exact answeredBy_of_assertWith hlist hid (handled ▸ h)

end

/-- Every request that the gates let pass and that parses has its entries. Where they list
descriptors and the parser leaves none of them, the request is one without a list, as intended; and
the list restricts the assertion exactly when one of them is left, or denotes a credential if the
request is turned down for its `up`. -/
theorem getAssertionRaw_restricted_iff (P : Platform) (out : Outside) (params : Option JToken)
    (s : Plugin) (uv : Bool) (data : Bytes) (prompt : Option UvFallbackPrompt)
    (req : GetAssertionRequest) (hopen : s.isVaultOpen = true)
    (hgates : gates P out.ask s.opSignPubKey s.skipPluginSigVerify s.uvFallbackPrompt params
      getMethod = (.ok (uv, data), prompt))
    (size : data.length ≤ intMaxValue) (hreq : parseGetAssertionCbor data = .ok req) :
    (∃ es, Written es data) ∧ ∀ es, Written es data → es.flatMap GetEntry.allowed ≠ [] →
      (StartsDiscoverable req ↔ req.optionsUp = true ∧
        ¬ ∃ d ∈ es.flatMap GetEntry.allowed, (descriptorOf d).publicKeyId ≠ []) ∧
      (Restricted P out params s req (es.flatMap GetEntry.allowed) ↔
        if req.optionsUp then
          ∃ d ∈ es.flatMap GetEntry.allowed, (descriptorOf d).publicKeyId ≠ []
        else ∃ d ∈ es.flatMap GetEntry.allowed, ∃ e, Denotes s d e) := by
  refine ⟨written_of_parse size hreq, fun es written _ => ?_⟩
  have listed := written.allowList size hreq
  have left : req.allowListCredIds ≠ [] ↔
      ∃ d ∈ es.flatMap GetEntry.allowed, (descriptorOf d).publicKeyId ≠ [] := by
    rw [listed, Ne, List.flatMap_eq_nil_iff]
    push Not
    rfl
  rw [← left]
  refine ⟨and_congr_right fun _ => not_not.symm, ?_⟩
  cases hup : req.optionsUp with
  | true =>
    rw [if_pos rfl]
    constructor
    · intro h hnil
      exact h.listed ⟨hup, hnil⟩
    · exact restricted_of_listed hopen hgates hreq hup listed
  | false =>
    have handled := handle_parsed hopen hgates hreq
    rw [hup, if_neg Bool.false_ne_true] at handled
    rw [if_neg Bool.false_ne_true]
    constructor
    · intro h
      by_contra none
      obtain ⟨message, s', failed⟩ := h.notFound none
      rw [handled] at failed
      simp [RpcErrorCode.invalidOption, RpcErrorCode.credentialNotFound] at failed
    · intro denoted
      refine ⟨fun result s' h => ?_, fun none => absurd denoted none, fun h => ?_⟩
      · rw [handled] at h
        cases h
      · exact Bool.false_ne_true (hup.symm.trans h.1)

def sampleEntries : List GetEntry :=
  [.rpId "a.b", .clientDataHash (List.replicate 32 0), .allowList [[.type "x", .id [9]]]]

def sampleData : Bytes :=
  let key := fun k value => CborCodec.head 0 k ++ value
  let field := fun name value => writeText name ++ value
  writeCounted 5
    [key 1 (writeText "a.b"), key 2 (writeBytes (List.replicate 32 0)),
      key 3 (writeCounted 4
        [writeCounted 5 [field "type" (writeText "x"), field "id" (writeBytes [9])]])]

theorem sampleEntries_counted : Counted 5 GetEntry.Encodes sampleEntries sampleData := by
  have allowed : Counted 4 (Counted 5 DescriptorEntry.Encodes) [[.type "x", .id [9]]] _ :=
    counted_write (by decide) (.cons (counted_write (by decide)
      (.cons (keyed_write (by decide) (text_write (by decide)))
        (.cons (keyed_write (by decide) (content_write (by decide))) .nil))) .nil)
  exact counted_write (by decide) (.cons (numbered_write (by decide) (text_write (by decide)))
    (.cons (numbered_write (by decide) ⟨content_write (by decide), by decide⟩)
      (.cons (numbered_write (by decide) allowed) .nil)))

def sampleRequest : GetAssertionRequest := ⟨"a.b", List.replicate 32 0, [], true, false⟩

def sampleSignature : Bytes :=
  bigEndian 64 0xd3aafcd46c5fab7704a4e293053b6f07945ac6ef4878ac6d0131efcf16f16b4a5b76d8f23732c6dfeb327f941e6bd5617f95bde4c05699b5dff8718ee7bd430f

def sampleRpIdHash : Bytes :=
  bigEndian 32 0x2e7336dc8eba87ef472df568c35482abf2575dc3e5eac0c5c62b8ffaeac2c934

/-- What the credential below signs for the request, with counter 1 and user verification. -/
def sampleSignInput : Bytes := sampleRpIdHash ++ [0x05] ++ bigEndian 4 1 ++ List.replicate 32 0

def sampleCredentialSignature : Bytes :=
  bigEndian 64 0x6c985a21843c82300a0241dc2c3f1542da15759eda2aa51eb43dd630a6039570858fb9502aa1ea03a4517e945ff9af47240869619a73ef8f20547b568218419f

def samplePlatform : Platform :=
  { Sample.lineless with
    sha256 := fun bs => if bs = utf8 "a.b" then sampleRpIdHash else List.replicate 32 0
    sha256_length := fun bs => by
      split_ifs
      · exact bigEndian_length _ _
      · simp
    verifyData := fun pubKey payload signature => .answer (pubKey = Sample.opSignPubKey ∧
      payload = sampleData ∧ signature = sampleSignature)
    ecdsaSignData := fun _ _ data => .ok
      (if data = sampleSignInput then sampleCredentialSignature else Sample.otherSignature)
    ecdsaSignData_width := by
      intro _ _ data signature h
      apply Sample.halves_of_length
      rw [← Except.ok.inj h]
      split_ifs
      · exact bigEndian_length _ _
      · simp [Sample.otherSignature] }

def sampleParams : Option JToken := Sample.rawParams sampleData sampleSignature

def sampleEntry : PwEntry :=
  recordToEntry samplePlatform NumberFormat.invariant (Sample.record "a.b")

def sampleVault : Plugin :=
  { Sample.plugin with database := some (.mk true [⟨groupName, [sampleEntry]⟩]) }

theorem gates_sample : gates samplePlatform Sample.outside.ask sampleVault.opSignPubKey
    sampleVault.skipPluginSigVerify sampleVault.uvFallbackPrompt sampleParams getMethod =
      (.ok (true, sampleData), sampleVault.uvFallbackPrompt) :=
  Sample.gates_rawParams (by decide +kernel) (by decide +kernel) getMethod

theorem written_sample : Written sampleEntries sampleData :=
  ⟨sampleData, [], (List.append_nil _).symm, sampleEntries_counted⟩

theorem parse_sample : parseGetAssertionCbor sampleData = .ok sampleRequest := by decide +kernel

theorem getAssertionRaw_restricted_iff_sample :
    (StartsDiscoverable sampleRequest ↔ sampleRequest.optionsUp = true ∧
      ¬ ∃ d ∈ sampleEntries.flatMap GetEntry.allowed, (descriptorOf d).publicKeyId ≠ []) ∧
    (Restricted samplePlatform Sample.outside sampleParams sampleVault sampleRequest
        (sampleEntries.flatMap GetEntry.allowed) ↔
      ∃ d ∈ sampleEntries.flatMap GetEntry.allowed, (descriptorOf d).publicKeyId ≠ []) :=
  (getAssertionRaw_restricted_iff _ _ _ _ true sampleData _ sampleRequest rfl gates_sample
    (by decide +kernel) parse_sample).2 sampleEntries written_sample (by decide)

theorem sample_answered : ∃ result s', handle samplePlatform Sample.outside getMethod sampleParams
    sampleVault = .ok result s' := by
  have record : entryToRecord samplePlatform sampleVault.culture sampleEntry = Sample.record "a.b" :=
    entryToRecord_recordToEntry _
      (NumberFormat.intTryParse_intToString NumberFormat.invariant_proper
        (show (-2 ^ 31 : ℤ) ≤ -7 ∧ (-7 : ℤ) < 2 ^ 31 by decide))
  have bound : hasRpId "a.b" sampleEntry = true := hasRpId_iff.mpr rfl
  have own : hasId (Sample.record "a.b").credentialId sampleEntry = true := hasId_iff.mpr rfl
  have selected : selectCredential samplePlatform sampleRequest sampleVault =
      .ok (Sample.record "a.b") :=
    selectCredential_ok.mpr ⟨sampleEntry, .inl ⟨rfl, List.find?_cons_of_pos bound⟩, record.symm⟩
  have counter : sampleEntry.signCount = 0 := signCount_recordToEntry _ _ _
  have key : fromBase64String samplePlatform (Sample.record "a.b").privateKeyPkcs8 =
      .ok Sample.credentialPkcs8 := fromBase64String_toBase64String _ _
  have user : Base64Url.decode samplePlatform (Sample.record "a.b").userHandle = .ok [1, 2, 3, 4] :=
    Base64Url.decode_encode samplePlatform [1, 2, 3, 4]
  have derSigned : ∀ data, ∃ der, signatureOf samplePlatform Sample.outside.entropy
      Sample.credentialPkcs8 data (-7) = .ok der := by
    intro data
    have width : (if data = sampleSignInput then sampleCredentialSignature
        else Sample.otherSignature).length = 64 := by
      split_ifs
      · exact bigEndian_length _ _
      · simp [Sample.otherSignature]
    obtain ⟨der, hder, _⟩ := tryDerToP1363_p1363ToDer width
    exact ⟨der, hder⟩
  obtain ⟨der, hder⟩ := derSigned
    (buildAssertion samplePlatform "a.b" true (sampleEntry.signCount + 1) ++ List.replicate 32 0)
  have signs : assertWith samplePlatform Sample.outside sampleRequest true (Sample.record "a.b")
      (Plugin.prompted sampleVault.uvFallbackPrompt (Plugin.called sampleVault)) = .ok _ _ :=
    assertWith_ok.mpr ⟨sampleEntry, _, der, Sample.credentialId, _, List.find?_cons_of_pos own,
      by rw [counter]; decide, rfl, key, .inl rfl, hder, Base64Url.decode_encode _ _,
      buildAssertionResponse_some _ _ _ _ user, rfl, rfl⟩
  have handled := handle_parsed (s := sampleVault) rfl gates_sample parse_sample
  have chosen := bind_of_ok (s := Plugin.prompted sampleVault.uvFallbackPrompt
    (Plugin.called sampleVault)) (f := assertWith samplePlatform Sample.outside sampleRequest true)
    (lift_ok.mpr ⟨selected, rfl⟩)
  exact ⟨_, _, handled.trans ((if_pos rfl).trans (chosen.trans signs))⟩

/-- A list without any public key is answered with another credential of the relying party. -/
theorem unsupported_types_answered :
    sampleVault.isVaultOpen = true ∧
      gates samplePlatform Sample.outside.ask sampleVault.opSignPubKey
        sampleVault.skipPluginSigVerify sampleVault.uvFallbackPrompt sampleParams getMethod =
          (.ok (true, sampleData), sampleVault.uvFallbackPrompt) ∧
      parseGetAssertionCbor sampleData = .ok sampleRequest ∧
      Written sampleEntries sampleData ∧ sampleEntries.flatMap GetEntry.allowed ≠ [] ∧
      (¬ ∃ d ∈ sampleEntries.flatMap GetEntry.allowed, ∃ e, Denotes sampleVault d e) ∧
      (∃ result s', handle samplePlatform Sample.outside getMethod sampleParams sampleVault =
        .ok result s') ∧
      ¬ Restricted samplePlatform Sample.outside sampleParams sampleVault sampleRequest
        (sampleEntries.flatMap GetEntry.allowed) := by
  have unlisted : ¬ ∃ d ∈ sampleEntries.flatMap GetEntry.allowed, ∃ e, Denotes sampleVault d e := by
    rintro ⟨d, hd, _, _, id, hid, _⟩
    obtain rfl : d = [.type "x", .id [9]] := List.mem_singleton.mp hd
    have dropped : (descriptorOf [.type "x", .id [9]]).publicKeyId = [] := by decide
    simp [dropped] at hid
  refine ⟨rfl, gates_sample, parse_sample, written_sample, by decide, unlisted, sample_answered,
    fun restricted => ?_⟩
  obtain ⟨result, s', run⟩ := sample_answered
  obtain ⟨message, s'', failed⟩ := restricted.notFound unlisted
  rw [run] at failed
  cases failed

end KeePassKeyWin.AllowList
