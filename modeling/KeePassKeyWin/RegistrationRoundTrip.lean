import KeePassKeyWin.PipeServer
import KeePassKeyWin.RegistrationAgreement
import KeePassKeyWin.VaultWellFormedness

set_option autoImplicit false

/-!
# From a registration to a login

The record that a registration adds survives every request that does not delete it, and what
it signs later verifies under the public key that the attestation object carried.
-/
namespace KeePassKeyWin.RegistrationRoundTrip
open ByteStrings JsonRpc OutcomeRules PlatformServices CborCodec FirstMatch CredentialEncodings
open EcdsaSignatures PasskeyStore VaultGates CtapRequests VaultHandler VaultResponses
open CredentialSelection VaultOutcomes VaultRuns RegistrationAgreement PipeServer TransitionRuns
open RequestEffects
open NumberFormat (NumberFormatInfo)
open CultureIndependence (opened)
open StoreRefinement (OwnAlgorithmReadsBack entryToRecord_own spaced)
open VaultWellFormedness (algId_small)
open VaultWellFormedness.Sample (rsaPlatform rsaOutside rsaPair rsaCbor rsaSignature rsaSigned
  rsaRegisters)

def eccPublicBlob (x y : Bytes) : Bytes := utf8 "ECS1" ++ [0x20, 0, 0, 0] ++ x ++ y

/-- The attestation object in a result carries this credential id and this COSE key. -/
def Attests (P : Platform) (result : JToken) (credentialId coseKey : Bytes) : Prop :=
  ∃ fields cbor response item d, result = .object fields ∧
    stringField fields "cbor" = .ok (some cbor) ∧ fromBase64String P cbor = .ok response ∧
    decode response = some (item, []) ∧ item.field 2 = some (.bytes d.bytes) ∧
    AttestedData.Sized d ∧ d.credentialId = credentialId ∧ d.coseKey = coseKey

/-- The public key in a COSE key verifies a signature: ECDSA in DER form, or RSA. -/
def VerifiesUnder (P : Platform) (coseKey data signature : Bytes) : Prop :=
  ∃ item, decode coseKey = some (item, []) ∧
    ((item.field 3 = some (.int (-7)) ∧ ∃ x y p1363, item.field (-2) = some (.bytes x) ∧
        item.field (-3) = some (.bytes y) ∧ tryDerToP1363 signature = some p1363 ∧
          P.verifyData (eccPublicBlob x y) data p1363 = .answer true) ∨
      (item.field 3 = some (.int (-257)) ∧ ∃ n e, item.field (-1) = some (.bytes n) ∧
        item.field (-2) = some (.bytes e) ∧ P.rsaVerifyData n e data signature = true))

/-- What a generated private key signs, after its export and import, verifies under its public
key. -/
structure PairsVerify (P : Platform) (out : Outside) : Prop where
  ec : ∀ pair, out.ecKey = .ok pair → ∀ entropy data, ∃ signature,
    P.ecdsaSignData pair.pkcs8 entropy data = .ok signature ∧ signature.length = 64 ∧
      P.verifyData (eccPublicBlob pair.x pair.y) data signature = .answer true
  rsa : ∀ pair, out.rsaKey = .ok pair → ∀ data, ∃ signature,
    P.rsaSignData pair.pkcs8 data = .ok signature ∧
      P.rsaVerifyData pair.modulus pair.exponent data signature = true

/-- The culture reads back the algorithm that the COSE key names. -/
def ReadsKeyAlgorithm (culture : NumberFormatInfo) (coseKey : Bytes) : Prop :=
  ∀ item algId, decode coseKey = some (item, []) → item.field 3 = some (.int algId) →
    OwnAlgorithmReadsBack culture algId

section
variable {P : Platform} {out : Outside}

theorem reads_of_key {culture : NumberFormatInfo} {algId : ℤ} {pkcs8 coseKey : Bytes}
    (fresh : FreshKey out algId pkcs8 coseKey) (reads : ReadsKeyAlgorithm culture coseKey) :
    OwnAlgorithmReadsBack culture algId := by
  rcases fresh with ⟨rfl, pair, _, _, rfl⟩ | ⟨rfl, pair, _, _, rfl⟩
  · exact reads (ec2Key pair.x pair.y) _
      (decode_encode_exact (encodable_ec2Key pair.x_length pair.y_length)) rfl
  · exact reads (rsaKey pair.modulus pair.exponent) _
      (decode_encode_exact (encodable_rsaKey pair.modulus_length pair.exponent_length)) rfl

theorem reads_of_proper {culture : NumberFormatInfo} {algId : ℤ} {pkcs8 coseKey : Bytes}
    (fresh : FreshKey out algId pkcs8 coseKey) (proper : culture.Proper) :
    ReadsKeyAlgorithm culture coseKey := by
  have named : ∀ {key : Value} {algId : ℤ}, decode coseKey = some (key, []) →
      key.field 3 = some (.int algId) → -2 ^ 31 ≤ algId ∧ algId < 2 ^ 31 →
        ReadsKeyAlgorithm culture coseKey := by
    intro key algId hkey names small item algId' hitem names'
    obtain ⟨rfl, _⟩ := Prod.mk.inj (Option.some.inj (hkey.symm.trans hitem))
    obtain rfl := Value.int_injective (Option.some.inj (names.symm.trans names'))
    exact StoreRefinement.ownAlgorithmReadsBack_of_proper proper small
  rcases fresh with ⟨rfl, pair, _, _, rfl⟩ | ⟨rfl, pair, _, _, rfl⟩
  · exact named (decode_encode_exact (encodable_ec2Key pair.x_length pair.y_length))
      (show (ec2Key pair.x pair.y).field 3 = some (.int (-7)) from rfl) (by decide)
  · exact named (decode_encode_exact (encodable_rsaKey pair.modulus_length pair.exponent_length))
      (show (rsaKey pair.modulus pair.exponent).field 3 = some (.int (-257)) from rfl) (by decide)

theorem attests_of_written {params : Option JToken} {s s' : Plugin} {result : JToken} {uv : Bool}
    {cborBytes pkcs8 coseKey c k : Bytes} {req : MakeCredentialRequest} {algId : ℤ}
    (w : Written P out params s s' result uv cborBytes req algId pkcs8 coseKey)
    (h : Attests P result c k) : c = out.credentialId ∧ k = coseKey := by
  obtain ⟨fields, cbor, response, item, d, hobject, hcbor, hresponse, hitem, hdata, hd, rfl, rfl⟩ :=
    h
  rw [w.result] at hobject
  obtain rfl := JToken.object.inj hobject
  obtain rfl := Option.some.inj (Except.ok.inj hcbor)
  rw [fromBase64String_toBase64String] at hresponse
  obtain rfl := Except.ok.inj hresponse
  rw [w.decodes] at hitem
  obtain ⟨rfl, _⟩ := Prod.mk.inj (Option.some.inj hitem)
  have same : (attestedData P req.rpId out.credentialId coseKey uv).bytes = d.bytes := by
    simpa [attestationObject, Value.field, Value.asInt, Value.int] using hdata
  obtain rfl := AttestedData.bytes_injective w.sized hd same
  exact ⟨rfl, rfl⟩

theorem attests_written {params : Option JToken} {s s' : Plugin} {result : JToken} {uv : Bool}
    {cborBytes pkcs8 coseKey : Bytes} {req : MakeCredentialRequest} {algId : ℤ}
    (w : Written P out params s s' result uv cborBytes req algId pkcs8 coseKey) :
    Attests P result out.credentialId coseKey :=
  ⟨_, _, _, _, _, w.result, rfl, fromBase64String_toBase64String _ _, w.decodes, rfl, w.sized,
    rfl, rfl⟩

/-- A key that a registration generates signs, and the COSE key it returned verifies. -/
theorem signs_and_verifies (law : PairsVerify P out) {algId : ℤ} {pkcs8 coseKey : Bytes}
    (fresh : FreshKey out algId pkcs8 coseKey) (entropy data : Bytes) :
    (algId = -7 ∨ algId = -257) ∧ ∃ signature,
      signatureOf P entropy pkcs8 data algId = .ok signature ∧
        VerifiesUnder P coseKey data signature := by
  rcases fresh with ⟨rfl, pair, hpair, rfl, rfl⟩ | ⟨rfl, pair, hpair, rfl, rfl⟩
  · obtain ⟨p1363, hsign, width, verified⟩ := law.ec pair hpair entropy data
    obtain ⟨der, hder, back⟩ := tryDerToP1363_p1363ToDer width
    refine ⟨.inl rfl, der, ?_, ec2Key pair.x pair.y,
      decode_encode_exact (encodable_ec2Key pair.x_length pair.y_length),
      .inl ⟨rfl, pair.x, pair.y, p1363, rfl, rfl, back, verified⟩⟩
    rw [signatureOf, if_pos rfl, EcdsaSigner.sign, except_bind_of_ok (mapError_ok.mpr hsign)]
    exact hder
  · obtain ⟨signature, hsign, verified⟩ := law.rsa pair hpair data
    refine ⟨.inr rfl, signature, ?_, rsaKey pair.modulus pair.exponent,
      decode_encode_exact (encodable_rsaKey pair.modulus_length pair.exponent_length),
      .inr ⟨rfl, pair.modulus, pair.exponent, rfl, rfl, verified⟩⟩
    rw [signatureOf, if_neg (by decide)]
    exact mapError_ok.mpr hsign

def Stored (P : Platform) (record : PasskeyRecord) (s : Plugin) : Prop :=
  ∃ e, s.entries.find? (hasId record.credentialId) = some e ∧
    ∃ n, entryToRecord P s.culture e = { record with signCount := n }

theorem hasId_ne {id id' : String} (h : id' ≠ id) {e : PwEntry} (he : hasId id' e = true) :
    hasId id e = false := by
  rw [Bool.eq_false_iff, ne_eq, hasId_iff, hasId_iff.mp he, Option.some.injEq]
  exact h

theorem stored_of_effect {record : PasskeyRecord} {method : String} {params : Option JToken}
    {s t : Plugin} (stored : Stored P record s) (culture : t.culture = s.culture)
    (effect : Effect P out method params s t.entries)
    (spared : ¬ Deletes method params record.credentialId) : Stored P record t := by
  obtain ⟨e, hfind, n, hrecord⟩ := stored
  unfold Stored
  rw [culture]
  generalize t.entries = entries at effect ⊢
  cases effect with
  | unchanged => exact ⟨e, hfind, n, hrecord⟩
  | added record' fresh => exact ⟨e, find?_append_of_some hfind, n, hrecord⟩
  | deleted id asked =>
    have other : id ≠ record.credentialId := fun h => spared (h ▸ asked)
    exact ⟨e, (find?_eraseP_of_ne (fun _ => hasId_ne other) _).trans hfind, n, hrecord⟩
  | counted id next bounded =>
    by_cases own : id = record.credentialId
    · subst own
      refine ⟨e.setSignCount next, ?_, next, ?_⟩
      · rw [find?_modifyFirst fun e => hasId_setSignCount _ next e, hfind]
        rfl
      · rw [entryToRecord_setSignCount P _ bounded, hrecord]
    · have unseen : ∀ e, hasId id e = true → hasId record.credentialId (e.setSignCount next) = false :=
        fun e he => hasId_ne own he
      exact ⟨e, (find?_modifyFirst_of_ne (fun _ => hasId_ne own) unseen _).trans hfind, n, hrecord⟩

/-- The event is a connection or a line, and not a request to delete this id. -/
def Spares (P : Platform) (id : String) (_ : Server) (event : Event) : Prop :=
  match event with
  | .connect => True
  | .line _ text => ∀ request, parseLine P text = .ok request →
      ¬ Deletes request.method request.params id
  | .environment => False

structure Keeps (P : Platform) (record : PasskeyRecord) (s : Plugin) : Prop where
  isVaultOpen : s.isVaultOpen = true
  stored : Stored P record s

theorem keeps_respond {record : PasskeyRecord} {request : JsonRpcRequest} {s : Session}
    (keeps : Keeps P record s.plugin)
    (spared : ¬ Deletes request.method request.params record.credentialId) :
    Keeps P record (respond P out request s).2.plugin := by
  rcases respond_plugin P out request s with frame | served
  · refine ⟨?_, ?_⟩
    · simpa only [Plugin.isVaultOpen, frame.database] using keeps.isVaultOpen
    · simpa only [Stored, Plugin.entries, Plugin.findPasskeysGroup, frame.database, frame.culture]
        using keeps.stored
  · rw [served]
    have ran := handle_ran P out request.method request.params s.plugin
    have before : Stored P record (Plugin.prompted
      (promptAfter P out request.method request.params s.plugin) (Plugin.called s.plugin)) :=
      keeps.stored
    exact ⟨ran.kept.isVaultOpen.trans keeps.isVaultOpen,
      stored_of_effect before ran.kept.culture ran.effect spared⟩

theorem keeps_step {record : PasskeyRecord} {s t : Server} {event : Event}
    (keeps : Keeps P record s.session.plugin)
    (h : restrict (Spares P record.credentialId) (step P) s event t) :
    Keeps P record t.session.plugin := by
  obtain ⟨spares, h⟩ := h
  cases event with
  | connect =>
    obtain rfl : t = s.connect := h
    exact keeps
  | environment => exact spares.elim
  | line out text =>
    obtain rfl : t = s.receive P out text := h
    unfold Server.receive
    split_ifs
    · exact keeps
    · cases hparse : parseLine P text with
      | error response => exact keeps
      | ok request => exact keeps_respond keeps (spares request hparse)

theorem keeps_of_written {params : Option JToken} {s s' : Plugin} {result : JToken} {uv : Bool}
    {cborBytes pkcs8 coseKey : Bytes} {req : MakeCredentialRequest} {algId : ℤ}
    (w : Written P out params s s' result uv cborBytes req algId pkcs8 coseKey)
    (reads : OwnAlgorithmReadsBack s.culture algId)
    (unused : s.entries.find? (hasId (Base64Url.encode out.credentialId)) = none) :
    Keeps P (makeCredentialRecord out req algId pkcs8 coseKey) s' := by
  refine ⟨w.isVaultOpen, recordToEntry P s.culture (makeCredentialRecord out req algId pkcs8
    coseKey), ?_, 0, ?_⟩
  · have own : hasId (Base64Url.encode out.credentialId) (recordToEntry P s.culture
        (makeCredentialRecord out req algId pkcs8 coseKey)) = true := hasId_iff.mpr rfl
    rw [w.entries]
    refine (find?_append_of_none unused).trans ?_
    rw [List.find?_cons, own]
  · rw [w.culture]
    exact entryToRecord_own P (algId_small w.key) reads

/-- A request that lists the kept record alone is answered with what its key signs. -/
theorem assertion_of_keeps {record : PasskeyRecord} {s : Plugin} (keeps : Keeps P record s)
    {params : Option JToken} {uv : Bool} {cborBytes pkcs8 credentialId : Bytes}
    {prompt : Option UvFallbackPrompt} {req : GetAssertionRequest}
    (authorised : gates P out.ask s.opSignPubKey s.skipPluginSigVerify s.uvFallbackPrompt params
      getMethod = (.ok (uv, cborBytes), prompt))
    (parsed : parseGetAssertionCbor cborBytes = .ok req) (up : req.optionsUp = true)
    (listed : req.allowListCredIds = [credentialId])
    (id : record.credentialId = Base64Url.encode credentialId) (saves : out.save = none)
    (below : ∀ r, s.findById P record.credentialId = some r → r.signCount < uintMaxValue)
    (key : fromBase64String P record.privateKeyPkcs8 = .ok pkcs8)
    (alg : record.algId = -7 ∨ record.algId = -257)
    (signs : ∀ data, ∃ signature,
      signatureOf P out.entropy pkcs8 data record.algId = .ok signature) :
    ∃ result s' authData signature, handle P out getMethod params s = .ok result s' ∧
      result = stringResult [("cbor", toBase64String
        (encode (assertionItem credentialId authData signature none)))] ∧
      authData.length = 37 ∧ signature.length < 2 ^ 64 ∧
      signatureOf P out.entropy pkcs8 (authData ++ req.clientDataHash) record.algId =
        .ok signature := by
  obtain ⟨e, hfind, n, hrecord⟩ := keeps.stored
  obtain ⟨signature, hsign⟩ := signs (AuthDataBuilder.buildAssertion P record.rpId uv
    (e.signCount + 1) ++ req.clientDataHash)
  have below' : e.signCount ≠ uintMaxValue :=
    Nat.ne_of_lt (below _ (by rw [Plugin.findById, hfind]; rfl))
  have selected : selectCredential P req (Plugin.called s) =
      .ok { record with signCount := n } := by
    refine selectCredential_ok.mpr ⟨e, .inr ⟨[], credentialId, [], listed, by simp, ?_⟩,
      hrecord.symm⟩
    rw [← id]
    exact hfind
  have answered : assertWith P out req uv { record with signCount := n }
      (Plugin.prompted prompt (Plugin.called s)) = .ok _ _ :=
    assertWith_ok.mpr ⟨e, pkcs8, signature, credentialId, _, hfind, below', saves, key, alg, hsign,
      id ▸ Base64Url.decode_encode P credentialId,
      by rw [if_neg (by simp [listed]), buildAssertionResponse_none], rfl, rfl⟩
  have handled := handleGetAssertionRaw_ok (s := Plugin.called s).mpr ⟨uv, cborBytes, prompt, req, _,
    authorised, parsed, up, selected, answered⟩
  rw [← dispatchMethod_get, ← handle_of_open keeps.isVaultOpen] at handled
  exact ⟨_, _, _, signature, handled, rfl, buildAssertion_length P _ _ _,
    signatureOf_length hsign, hsign⟩

end

/-- Whatever requests come first that do not delete the credential, an authorised request that
lists it alone is answered for it, and the answer verifies under the key. -/
def LoginWorks (P : Platform) (plugin : Plugin) (credentialId coseKey : Bytes) : Prop :=
  ∀ (server t : Server) (events : List Event), server.session.plugin = plugin →
  Run (restrict (Spares P (Base64Url.encode credentialId)) (step P)) server events t →
  ∀ (out : Outside) (params : Option JToken) (uv : Bool) (cborBytes : Bytes)
    (prompt : Option UvFallbackPrompt) (req : GetAssertionRequest),
  gates P out.ask t.session.plugin.opSignPubKey t.session.plugin.skipPluginSigVerify
    t.session.plugin.uvFallbackPrompt params getMethod = (.ok (uv, cborBytes), prompt) →
  parseGetAssertionCbor cborBytes = .ok req → req.optionsUp = true →
  req.allowListCredIds = [credentialId] → out.save = none →
  (∀ record, t.session.plugin.findById P (Base64Url.encode credentialId) = some record →
    record.signCount < uintMaxValue) →
  ∃ result t' response authData signature,
    handle P out getMethod params t.session.plugin = .ok result t' ∧
      result = stringResult [("cbor", toBase64String response)] ∧
      decode response = some (assertionItem credentialId authData signature none, []) ∧
      VerifiesUnder P coseKey (authData ++ req.clientDataHash) signature

/-- With fresh ids, signatures that verify and a culture that reads back the algorithm of the
key, a registration leads to logins. -/
theorem registration_then_assertion (P : Platform) (out : Outside) (params : Option JToken)
    (s₀ s₁ : Plugin) (result : JToken) (c k : Bytes)
    (made : handle P out makeMethod params s₀ = .ok result s₁) (attests : Attests P result c k)
    (unused : s₀.entries.find? (hasId (Base64Url.encode c)) = none) (law : PairsVerify P out)
    (reads : ReadsKeyAlgorithm s₀.culture k) : LoginWorks P s₁ c k := by
  intro server t events registered run out' params' uv cborBytes prompt req authorised parsed up
    listed saves below
  obtain ⟨_, _, req₀, algId, pkcs8, coseKey, w⟩ := makeCredentialRaw_written made
  obtain ⟨rfl, rfl⟩ := attests_of_written w attests
  have alg := (signs_and_verifies law w.key [] []).1
  have signs : ∀ data, ∃ signature,
      signatureOf P out'.entropy pkcs8 data algId = .ok signature := by
    intro data
    obtain ⟨_, signature, hsign, _⟩ := signs_and_verifies law w.key out'.entropy data
    exact ⟨signature, hsign⟩
  have first : Keeps P (makeCredentialRecord out req₀ algId pkcs8 k) server.session.plugin :=
    registered ▸ keeps_of_written w (reads_of_key w.key reads) unused
  have last : Keeps P (makeCredentialRecord out req₀ algId pkcs8 k) t.session.plugin :=
    run.invariant (I := fun s : Server => Keeps P _ s.session.plugin)
      (fun _ _ _ keeps h => keeps_step keeps h) first
  obtain ⟨result', t', authData, signature, answered, hresult, hdata, hlen, hsign⟩ :=
    assertion_of_keeps last authorised parsed up listed rfl saves below
      (fromBase64String_toBase64String P pkcs8) alg signs
  obtain ⟨signature', hsign', verified⟩ :=
    (signs_and_verifies law w.key out'.entropy (authData ++ req.clientDataHash)).2
  obtain rfl : signature = signature' := Except.ok.inj (hsign.symm.trans hsign')
  have width : out.credentialId.length < 2 ^ 64 := by
    have := out.credentialId_length
    omega
  exact ⟨result', t', _, authData, signature, answered, hresult, decode_encode_exact
    (encodable_assertionItem width (by omega) hlen (by simp)), verified⟩

open Sample (listLine loginLine listRequest loginRequest)

def linedPlatform : Platform :=
  Sample.platform [(listLine, listRequest), (loginLine, loginRequest)]

theorem parse_listLine : parseLine linedPlatform listLine = .ok listRequest := by
  simp [parseLine, linedPlatform, Sample.platform, List.lookup_cons, listRequest]

theorem parse_loginLine : parseLine linedPlatform loginLine = .ok loginRequest := by
  have other : (loginLine == listLine) = false := by decide +kernel
  simp [parseLine, linedPlatform, Sample.platform, List.lookup_cons, other, loginRequest, getMethod]

theorem samplePairs_verify (lines : List (String × JsonRpcRequest)) :
    PairsVerify (Sample.platform lines) Sample.outside := by
  refine ⟨?_, ?_⟩
  · rintro pair ⟨⟩ entropy data
    have other : ¬ eccPublicBlob Sample.credentialKey.x Sample.credentialKey.y =
        Sample.opSignPubKey := by decide +kernel
    refine ⟨_, rfl, ?_, ?_⟩
    · split_ifs
      · exact bigEndian_length _ _
      · simp [Sample.otherSignature]
    · simp [Sample.platform, other]
  · rintro pair ⟨⟩

structure Fresh (bound : ℕ) (s : Plugin) : Prop where
  opSignPubKey : s.opSignPubKey = Sample.plugin.opSignPubKey
  skipPluginSigVerify : s.skipPluginSigVerify = Sample.plugin.skipPluginSigVerify
  uvFallbackPrompt : s.uvFallbackPrompt = Sample.plugin.uvFallbackPrompt
  counters : ∀ e ∈ s.entries, e.signCount ≤ bound

theorem Fresh.gates {P : Platform} {bound : ℕ} {s : Plugin} (h : Fresh bound s)
    {cborBytes signature : Bytes} (hcbor : cborBytes ≠ [])
    (verified : EcdsaSignatures.verify P Sample.opSignPubKey cborBytes signature = .ok true)
    (method : String) :
    VaultGates.gates P Sample.outside.ask s.opSignPubKey s.skipPluginSigVerify s.uvFallbackPrompt
      (Sample.rawParams cborBytes signature) method =
        (.ok (true, cborBytes), Sample.plugin.uvFallbackPrompt) := by
  rw [h.opSignPubKey, h.skipPluginSigVerify, h.uvFallbackPrompt]
  exact Sample.gates_rawParams hcbor verified method

theorem Fresh.registered {P : Platform} {out : Outside} {s s₁ : Plugin} {result : JToken}
    (h : Fresh 0 s) (ask : out.ask = Sample.outside.ask) {cborBytes signature : Bytes}
    (hcbor : cborBytes ≠ [])
    (verified : EcdsaSignatures.verify P Sample.opSignPubKey cborBytes signature = .ok true)
    (made : handle P out makeMethod (Sample.rawParams cborBytes signature) s = .ok result s₁) :
    Fresh 0 s₁ := by
  obtain ⟨_, _, _, _, _, _, w⟩ := makeCredentialRaw_written made
  have held := handle_held P out makeMethod (Sample.rawParams cborBytes signature) s
  have prompt := handle_prompt P out makeMethod (Sample.rawParams cborBytes signature) s
  have asked : gatesPrompt P out makeMethod (Sample.rawParams cborBytes signature) s =
      Sample.plugin.uvFallbackPrompt := by
    rw [gatesPrompt, ask, h.gates hcbor verified makeMethod]
  rw [made, final_ok] at held prompt
  rw [promptAfter, if_pos ⟨handle_ok_open made, .inl rfl⟩, asked] at prompt
  refine ⟨held.opSignPubKey.trans h.opSignPubKey,
    held.skipPluginSigVerify.trans h.skipPluginSigVerify, prompt, fun e he => ?_⟩
  rw [w.entries, List.mem_append, List.mem_singleton] at he
  rcases he with old | rfl
  · exact h.counters e old
  · rw [signCount_recordToEntry]

theorem fresh_opened (culture : NumberFormatInfo) : Fresh 0 (opened culture) :=
  ⟨rfl, rfl, rfl, fun _ he => absurd he List.not_mem_nil⟩

theorem Fresh.below {P : Platform} {bound : ℕ} {s : Plugin} (h : Fresh bound s)
    (room : bound < uintMaxValue) {id : String} {record : PasskeyRecord}
    (found : s.findById P id = some record) : record.signCount < uintMaxValue := by
  obtain ⟨e, he, rfl⟩ := Option.map_eq_some_iff.mp found
  exact (h.counters e (List.mem_of_find?_eq_some he)).trans_lt room

theorem Fresh.served {bound : ℕ} {s : Plugin} (h : Fresh bound s) (request : JsonRpcRequest)
    (other : request.method ≠ "keepasskeywin.createPasskey" ∧ request.method ≠ makeMethod ∧
      request.method ≠ "keepasskeywin.deleteCredential")
    (prompt : promptAfter linedPlatform Sample.outside request.method request.params s =
      Sample.plugin.uvFallbackPrompt) :
    Fresh (bound + 1) (final (handle linedPlatform Sample.outside request.method request.params s)) := by
  have held := handle_held linedPlatform Sample.outside request.method request.params s
  have counts : CountsTo s (final (handle linedPlatform Sample.outside request.method
      request.params s)) := by
    refine handle_counts (fun record registers => ?_) fun id deletes => other.2.2 deletes.1.1
    obtain ⟨_, _, ready⟩ := registers
    rw [prepared, if_neg other.1, if_neg other.2.1] at ready
    cases ready
  refine ⟨held.opSignPubKey.trans h.opSignPubKey,
    held.skipPluginSigVerify.trans h.skipPluginSigVerify, (handle_prompt ..).trans prompt, ?_⟩
  rw [CountsTo] at counts
  generalize (final (handle _ _ request.method request.params s)).entries = entries at counts ⊢
  cases counts with
  | same => exact fun e he => (h.counters e he).trans (Nat.le_succ bound)
  | next id e found room =>
    intro y hy
    rcases mem_modifyFirst hy with kept | ⟨_, _, _, rfl⟩
    · exact (h.counters y kept).trans (Nat.le_succ bound)
    · rw [signCount_setSignCount (next_lt room)]
      exact Nat.succ_le_succ (h.counters e (List.mem_of_find?_eq_some found))

theorem receive_greeted {s : Server} {text : String} {request : JsonRpcRequest}
    (greeted : s.session.context.handshakeComplete = true) (visible : isBlank text = false)
    (parsed : parseLine linedPlatform text = .ok request) (other : request.method ≠ helloMethod) :
    (s.receive linedPlatform Sample.outside text).session = ⟨s.session.context,
      final (handle linedPlatform Sample.outside request.method request.params s.session.plugin)⟩ ∧
    (s.receive linedPlatform Sample.outside text).exchanges.length = s.exchanges.length + 1 := by
  rw [Server.receive_request s visible parsed]
  refine ⟨?_, List.length_append⟩
  change (respond linedPlatform Sample.outside request s.session).2 = _
  unfold respond
  rw [dispatch_vault other greeted]
  cases run : handle linedPlatform Sample.outside request.method request.params s.session.plugin with
  | ok result t => rw [onPlugin_ok run, final_ok]
  | error e t => rw [onPlugin_error run, final_error]

theorem opSign_makeCbor : EcdsaSignatures.verify linedPlatform Sample.opSignPubKey Sample.makeCbor
    Sample.makeSignature = .ok true := by decide +kernel

theorem opSign_getCbor : EcdsaSignatures.verify linedPlatform Sample.opSignPubKey Sample.getCbor
    Sample.getSignature = .ok true := by decide +kernel

theorem lined_registers : ∃ k result s₁, handle linedPlatform Sample.outside makeMethod
      (Sample.rawParams Sample.makeCbor Sample.makeSignature) Sample.plugin = .ok result s₁ ∧
    Attests linedPlatform result Sample.credentialId k ∧
    ReadsKeyAlgorithm NumberFormat.invariant k ∧ Fresh 0 s₁ := by
  have ready : (prepareMake linedPlatform Sample.outside Sample.plugin true
    Sample.makeCbor).isOk = true := by decide +kernel
  obtain ⟨record, registers⟩ := RequestEffects.Sample.registers_signed (by decide +kernel)
    opSign_makeCbor rfl rfl rfl rfl ready
  obtain ⟨result, s₁, made⟩ := answered_of_registers registers rfl
  obtain ⟨uv, cborBytes, req, algId, pkcs8, k, w⟩ := makeCredentialRaw_written made
  exact ⟨k, result, s₁, made, attests_written w,
    reads_of_proper w.key NumberFormat.invariant_proper,
    (fresh_opened NumberFormat.invariant).registered rfl (by decide +kernel) opSign_makeCbor made⟩

/-- The client lists its credentials, and logs in. -/
def listedAndLoggedIn (s : Server) : Server :=
  (s.receive linedPlatform Sample.outside listLine).receive linedPlatform Sample.outside loginLine

theorem run_listedAndLoggedIn (s : Server) :
    Run (restrict (Spares linedPlatform (Base64Url.encode Sample.credentialId))
      (step linedPlatform)) s [.line Sample.outside listLine, .line Sample.outside loginLine]
      (listedAndLoggedIn s) := by
  refine .cons ⟨?_, rfl⟩ (.single ⟨?_, rfl⟩)
  · intro request parsed deletes
    obtain rfl := Except.ok.inj (parse_listLine.symm.trans parsed)
    exact absurd deletes.1 (by decide)
  · intro request parsed deletes
    obtain rfl := Except.ok.inj (parse_loginLine.symm.trans parsed)
    exact absurd deletes.1 (by decide)

theorem fresh_listedAndLoggedIn {s : Server} (greeted : s.session.context.handshakeComplete = true)
    (fresh : Fresh 0 s.session.plugin) : Fresh 2 (listedAndLoggedIn s).session.plugin ∧
      (listedAndLoggedIn s).exchanges.length = s.exchanges.length + 2 := by
  have listed := fresh.served listRequest (by decide) (by
    rw [promptAfter, if_neg fun asked => absurd asked.2 (by decide)]
    exact fresh.uvFallbackPrompt)
  have loggedIn := listed.served loginRequest (by decide) (by
    rw [promptAfter]
    split_ifs
    · exact congrArg Prod.snd (listed.gates (by decide +kernel) opSign_getCbor getMethod)
    · exact listed.uvFallbackPrompt)
  obtain ⟨lists, one⟩ := receive_greeted greeted (by decide +kernel) parse_listLine (by decide)
  obtain ⟨logs, two⟩ := receive_greeted
    (s := s.receive linedPlatform Sample.outside listLine) (by rw [lists]; exact greeted)
    (by decide +kernel) parse_loginLine (by decide)
  refine ⟨?_, by rw [listedAndLoggedIn, two, one]⟩
  rw [listedAndLoggedIn, logs, lists]
  exact loggedIn

/-- A registration over a greeted connection; the client lists its credentials and logs in, and
then logs in again. -/
theorem registration_then_assertion_sample : ∃ k result s₁ t events result' t' response authData
      signature,
    handle linedPlatform Sample.outside makeMethod
      (Sample.rawParams Sample.makeCbor Sample.makeSignature) Sample.plugin = .ok result s₁ ∧
    Attests linedPlatform result Sample.credentialId k ∧
    events = [.line Sample.outside listLine, .line Sample.outside loginLine] ∧
    Run (restrict (Spares linedPlatform (Base64Url.encode Sample.credentialId)) (step linedPlatform))
      ⟨⟨⟨true, expectedPkgFamily⟩, s₁⟩, []⟩ events t ∧
    t.exchanges.length = 2 ∧
    handle linedPlatform Sample.outside getMethod Sample.getParams t.session.plugin =
      .ok result' t' ∧
    result' = stringResult [("cbor", toBase64String response)] ∧
    decode response = some (assertionItem Sample.credentialId authData signature none, []) ∧
    VerifiesUnder linedPlatform k (authData ++ Sample.clientDataHash) signature := by
  obtain ⟨k, result, s₁, made, attests, reads, fresh⟩ := lined_registers
  let s : Server := ⟨⟨⟨true, expectedPkgFamily⟩, s₁⟩, []⟩
  have run := run_listedAndLoggedIn s
  obtain ⟨last, count⟩ := fresh_listedAndLoggedIn (s := s) rfl fresh
  obtain ⟨result', t', response, authData, signature, answered⟩ :=
    registration_then_assertion linedPlatform Sample.outside _ Sample.plugin s₁ result
      Sample.credentialId k made attests rfl (samplePairs_verify _) reads s _ _ rfl run
      Sample.outside Sample.getParams true Sample.getCbor _ Sample.getRequest
      (last.gates (by decide +kernel) opSign_getCbor getMethod) Sample.parse_getCbor rfl rfl rfl
      fun _ found => last.below (by decide) found
  exact ⟨k, result, s₁, _, _, result', t', response, authData, signature, made, attests, rfl, run,
    count, answered⟩

theorem rsaPair_verifies : PairsVerify rsaPlatform rsaOutside := by
  refine ⟨?_, ?_⟩
  · rintro pair ⟨⟩
  · rintro pair ⟨⟩ data
    exact ⟨rsaSigned data, by simp [rsaPlatform], by simp [rsaPlatform]⟩

theorem spaced_reads_es256 {params : Option JToken} {s : Plugin} {result : JToken} {uv : Bool}
    {cborBytes pkcs8 k : Bytes} {req : MakeCredentialRequest} {algId : ℤ}
    (w : Written rsaPlatform rsaOutside params (opened spaced) s result uv cborBytes req algId pkcs8 k)
    {e : PwEntry} (mem : e ∈ s.entries) :
    (entryToRecord rsaPlatform s.culture e).algId = -7 := by
  have none : (opened spaced).entries = [] := rfl
  have culture : s.culture = spaced := w.culture
  have fallsBack : (NumberFormat.intTryParse spaced (some (NumberFormat.intToString spaced
    (-257)))).getD (-7) = -7 := by decide
  rw [w.entries, none, List.nil_append, List.mem_singleton] at mem
  rcases w.key with ⟨_, _, ecdsa, _⟩ | ⟨rfl, _⟩
  · cases ecdsa
  · have written : (makeCredentialRecord rsaOutside req (-257) pkcs8 k).algId = -257 := rfl
    rw [mem, culture, entryToRecord_across]
    simp only [written]
    exact fallsBack

/-- Where the negative sign starts with white space, an RS256 registration leads to no login: the
key goes to the signer of ES256, which does not take it. -/
theorem spaced_login_fails : ∃ result s₁ k,
    handle rsaPlatform rsaOutside makeMethod (Sample.rawParams rsaCbor rsaSignature)
      (opened spaced) = .ok result s₁ ∧
    Attests rsaPlatform result Sample.credentialId k ∧
    (opened spaced).entries.find? (hasId (Base64Url.encode Sample.credentialId)) = none ∧
    PairsVerify rsaPlatform rsaOutside ∧ ¬ LoginWorks rsaPlatform s₁ Sample.credentialId k := by
  obtain ⟨result, s₁, made⟩ : ∃ result s₁, handle rsaPlatform rsaOutside makeMethod
      (Sample.rawParams rsaCbor rsaSignature) (opened spaced) = .ok result s₁ :=
    answered_of_registers (rsaRegisters spaced) rfl
  have signed : EcdsaSignatures.verify rsaPlatform Sample.opSignPubKey rsaCbor rsaSignature =
    .ok true := by decide +kernel
  obtain ⟨uv, cborBytes, req, algId, pkcs8, k, w⟩ := makeCredentialRaw_written made
  refine ⟨result, s₁, k, made, attests_written w, rfl, rsaPair_verifies, fun works => ?_⟩
  have fresh : Fresh 0 s₁ := (fresh_opened spaced).registered
    (show rsaOutside.ask = Sample.outside.ask from rfl) (by decide +kernel) signed made
  have authorised := fresh.gates (by decide +kernel) (show EcdsaSignatures.verify rsaPlatform
    Sample.opSignPubKey Sample.getCbor Sample.getSignature = .ok true by decide +kernel) getMethod
  obtain ⟨result', t', _, _, _, answered, _⟩ := works (.start s₁) (.start s₁) [] rfl (.nil _)
    rsaOutside Sample.getParams true Sample.getCbor _ Sample.getRequest authorised
    Sample.parse_getCbor rfl rfl rfl fun _ found => fresh.below (by decide) found
  change handle _ _ _ _ s₁ = _ at answered
  rw [handle_of_open (handle_ok_open answered), dispatchMethod_get] at answered
  obtain ⟨_, _, _, req', selected, passed, parsed, _, selects, answered⟩ :=
    handleGetAssertionRaw_ok.mp answered
  obtain ⟨e, found, rfl⟩ := selectCredential_ok.mp selects
  have same := passed.symm.trans authorised
  obtain ⟨rfl, rfl⟩ : _ ∧ _ := Prod.mk.inj (Except.ok.inj (Prod.mk.inj same).1)
  obtain rfl := Except.ok.inj (parsed.symm.trans Sample.parse_getCbor)
  obtain ⟨_, pkcs8', signature, _, _, _, _, _, _, _, signs, _⟩ := assertWith_ok.mp answered
  have algId' : (entryToRecord rsaPlatform (Plugin.called s₁).culture e).algId = -7 :=
    spaced_reads_es256 w (Selects.mem found)
  rw [algId'] at signs
  cases signs

end KeePassKeyWin.RegistrationRoundTrip
