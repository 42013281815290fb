import KeePassKeyWin.CredentialSelection
import KeePassKeyWin.VaultResponses

set_option autoImplicit false

/-!
# How a vault request ends

One statement for each handler: what must have happened when it succeeds, and the state
that leaves.
-/
namespace KeePassKeyWin.VaultOutcomes
open ByteStrings JsonRpc OutcomeRules PlatformServices CredentialEncodings EcdsaSignatures
open PasskeyStore VaultGates CtapRequests VaultHandler VaultResponses CredentialSelection

def Plugin.prompted (prompt : Option UvFallbackPrompt) (s : Plugin) : Plugin :=
  { s with uvFallbackPrompt := prompt }

def Plugin.called (s : Plugin) : Plugin := { s with vaultCalls := s.vaultCalls + 1 }

def Plugin.signed (pkcs8 : Bytes) (s : Plugin) : Plugin :=
  { s with keyUses := s.keyUses ++ [pkcs8] }

@[simp] theorem prompted_entries (prompt : Option UvFallbackPrompt) (s : Plugin) :
    (Plugin.prompted prompt s).entries = s.entries := rfl

@[simp] theorem called_entries (s : Plugin) : (Plugin.called s).entries = s.entries := rfl

theorem handle_of_closed {P : Platform} {out : Outside} {method : String} {params : Option JToken}
    {s : Plugin} (closed : s.isVaultOpen = false) :
    handle P out method params s =
      .error (.rpc RpcErrorCode.vaultLocked "KeePass vault is not open.") (Plugin.called s) := by
  have closed' : (Plugin.called s).isVaultOpen = false := closed
  simp only [handle, modify_bind]
  change (requireVaultOpen >>= fun _ => dispatchMethod P out method params) (Plugin.called s) = _
  rw [bind_of_error]
  simp [requireVaultOpen, closed']

theorem handle_of_open {P : Platform} {out : Outside} {method : String} {params : Option JToken}
    {s : Plugin} (hopen : s.isVaultOpen = true) :
    handle P out method params s = dispatchMethod P out method params (Plugin.called s) := by
  have open' : (Plugin.called s).isVaultOpen = true := hopen
  have checked : requireVaultOpen (Plugin.called s) = .ok () (Plugin.called s) := by
    simp [requireVaultOpen, open']
  simp only [handle, modify_bind]
  change (requireVaultOpen >>= fun _ => dispatchMethod P out method params) (Plugin.called s) = _
  rw [bind_of_ok checked]

theorem handle_ok_open {P : Platform} {out : Outside} {method : String} {params : Option JToken}
    {s s' : Plugin} {result : JToken} (h : handle P out method params s = .ok result s') :
    s.isVaultOpen = true := by
  cases hopen : s.isVaultOpen with
  | true => rfl
  | false => simp [handle_of_closed hopen] at h

theorem dispatchMethod_make (P : Platform) (out : Outside) (params : Option JToken) :
    dispatchMethod P out makeMethod params = handleMakeCredentialRaw P out params := by
  simp [dispatchMethod, makeMethod]

theorem dispatchMethod_get (P : Platform) (out : Outside) (params : Option JToken) :
    dispatchMethod P out getMethod params = handleGetAssertionRaw P out params := by
  simp [dispatchMethod, getMethod, makeMethod]

theorem receiveRaw_ok {P : Platform} {out : Outside} {params : Option JToken} {method : String}
    {s s' : Plugin} {uv : Bool} {cborBytes : Bytes} :
    receiveRaw P out params method s = .ok (uv, cborBytes) s' ↔
      ∃ prompt, gates P out.ask s.opSignPubKey s.skipPluginSigVerify s.uvFallbackPrompt params
        method = (.ok (uv, cborBytes), prompt) ∧ s' = Plugin.prompted prompt s := by
  unfold receiveRaw
  split
  · rename_i a prompt hg
    simp only [hg, EStateM.Result.ok.injEq, Prod.mk.injEq, Except.ok.injEq]
    constructor
    · rintro ⟨ha, hs⟩
      exact ⟨prompt, ⟨ha, rfl⟩, hs.symm⟩
    · rintro ⟨_, ⟨ha, rfl⟩, hs⟩
      exact ⟨ha, hs.symm⟩
  · rename_i e prompt hg
    simp [hg]

theorem handleMakeCredentialRaw_ok {P : Platform} {out : Outside} {params : Option JToken}
    {s s' : Plugin} {result : JToken}
    (h : handleMakeCredentialRaw P out params s = .ok result s') :
    ∃ uv cborBytes prompt req algId pkcs8 coseKey authData,
      gates P out.ask s.opSignPubKey s.skipPluginSigVerify s.uvFallbackPrompt params makeMethod =
        (.ok (uv, cborBytes), prompt) ∧
      parseMakeCredentialCbor cborBytes = .ok req ∧
      selectAlgorithm req.requestedAlgs = .ok algId ∧
      FreshKey out algId pkcs8 coseKey ∧
      AuthDataBuilder.build P req.rpId out.credentialId coseKey uv = .ok authData ∧
      out.save = none ∧
      s' = ((Plugin.prompted prompt s).addEntry (recordToEntry P s.culture
        (makeCredentialRecord out req algId pkcs8 coseKey))).saved ∧
      result = makeCredentialResult (makeCredentialRecord out req algId pkcs8 coseKey)
        (buildAttestationObject authData) := by
  obtain ⟨⟨uv, cborBytes⟩, s₁, run, h⟩ := bind_ok.mp h
  obtain ⟨prompt, hgates, rfl⟩ := receiveRaw_ok.mp run
  obtain ⟨req, _, run, h⟩ := bind_ok.mp h
  obtain ⟨hreq, rfl⟩ := lift_ok.mp run
  rw [get_bind] at h
  obtain ⟨_, _, run, h⟩ := bind_ok.mp h
  obtain ⟨_, rfl⟩ := lift_ok.mp run
  obtain ⟨algId, _, run, h⟩ := bind_ok.mp h
  obtain ⟨halg, rfl⟩ := lift_ok.mp run
  obtain ⟨⟨pkcs8, coseKey⟩, _, run, h⟩ := bind_ok.mp h
  obtain ⟨hkey, rfl⟩ := lift_ok.mp run
  obtain ⟨authData, _, run, h⟩ := bind_ok.mp h
  obtain ⟨hdata, rfl⟩ := lift_ok.mp run
  obtain ⟨_, s₂, run, h⟩ := bind_ok.mp h
  obtain ⟨hsave, _, rfl⟩ := add_ok.mp run
  obtain ⟨rfl, rfl⟩ := pure_ok.mp h
  exact ⟨uv, cborBytes, prompt, req, algId, pkcs8, coseKey, authData, hgates,
    orMalformed_ok.mp hreq, halg, generateKeyPairAndCoseKey_ok hkey, hdata, hsave, rfl, rfl⟩

theorem signWithAlgorithm_ok {P : Platform} {out : Outside} {pkcs8 data signature : Bytes}
    {algId : ℤ} {s s' : Plugin} :
    signWithAlgorithm P out pkcs8 data algId s = .ok signature s' ↔
      (algId = -7 ∨ algId = -257) ∧ signatureOf P out.entropy pkcs8 data algId = .ok signature ∧
        s' = Plugin.signed pkcs8 s := by
  unfold signWithAlgorithm
  by_cases halg : algId = -7 ∨ algId = -257
  · simp only [halg, if_true, modify_bind, lift_ok, true_and]
    exact and_congr_right fun _ => eq_comm
  · simp [halg]

theorem answerWith_ok {P : Platform} {out : Outside} {req : GetAssertionRequest} {uv : Bool}
    {selected : PasskeyRecord} {n : ℕ} {s s' : Plugin} {result : JToken} :
    answerWith P out req uv selected n s = .ok result s' ↔
      ∃ pkcs8 signature rawCredId responseBytes,
        fromBase64String P selected.privateKeyPkcs8 = .ok pkcs8 ∧
        (selected.algId = -7 ∨ selected.algId = -257) ∧
        signatureOf P out.entropy pkcs8 (AuthDataBuilder.buildAssertion P selected.rpId uv n ++
          req.clientDataHash) selected.algId = .ok signature ∧
        Base64Url.decode P selected.credentialId = .ok rawCredId ∧
        buildAssertionResponse P rawCredId (AuthDataBuilder.buildAssertion P selected.rpId uv n)
          signature (if req.allowListCredIds = [] then some selected else none) uv =
            .ok responseBytes ∧
        result = stringResult [("cbor", toBase64String responseBytes)] ∧
        s' = Plugin.signed pkcs8 s := by
  constructor
  · intro h
    obtain ⟨pkcs8, _, run, h⟩ := bind_ok.mp h
    obtain ⟨hkey, rfl⟩ := lift_ok.mp run
    obtain ⟨signature, _, run, h⟩ := bind_ok.mp h
    obtain ⟨halg, hsign, rfl⟩ := signWithAlgorithm_ok.mp run
    obtain ⟨rawCredId, _, run, h⟩ := bind_ok.mp h
    obtain ⟨hraw, rfl⟩ := lift_ok.mp run
    obtain ⟨responseBytes, _, run, h⟩ := bind_ok.mp h
    obtain ⟨hresp, rfl⟩ := lift_ok.mp run
    obtain ⟨rfl, rfl⟩ := pure_ok.mp h
    exact ⟨pkcs8, signature, rawCredId, responseBytes, hkey, halg, hsign, hraw, hresp, rfl, rfl⟩
  · rintro ⟨pkcs8, signature, rawCredId, responseBytes, hkey, halg, hsign, hraw, hresp, rfl, rfl⟩
    refine bind_ok.mpr ⟨_, _, lift_ok.mpr ⟨hkey, rfl⟩, ?_⟩
    refine bind_ok.mpr ⟨_, _, signWithAlgorithm_ok.mpr ⟨halg, hsign, rfl⟩, ?_⟩
    refine bind_ok.mpr ⟨_, _, lift_ok.mpr ⟨hraw, rfl⟩, ?_⟩
    exact bind_ok.mpr ⟨_, _, lift_ok.mpr ⟨hresp, rfl⟩, pure_ok.mpr ⟨rfl, rfl⟩⟩

theorem assertWith_ok {P : Platform} {out : Outside} {req : GetAssertionRequest} {uv : Bool}
    {selected : PasskeyRecord} {s s' : Plugin} {result : JToken} :
    assertWith P out req uv selected s = .ok result s' ↔
      ∃ e pkcs8 signature rawCredId responseBytes,
        s.entries.find? (hasId selected.credentialId) = some e ∧ e.signCount ≠ uintMaxValue ∧
        out.save = none ∧
        fromBase64String P selected.privateKeyPkcs8 = .ok pkcs8 ∧
        (selected.algId = -7 ∨ selected.algId = -257) ∧
        signatureOf P out.entropy pkcs8 (AuthDataBuilder.buildAssertion P selected.rpId uv
          (e.signCount + 1) ++ req.clientDataHash) selected.algId = .ok signature ∧
        Base64Url.decode P selected.credentialId = .ok rawCredId ∧
        buildAssertionResponse P rawCredId (AuthDataBuilder.buildAssertion P selected.rpId uv
          (e.signCount + 1)) signature (if req.allowListCredIds = [] then some selected else none)
          uv = .ok responseBytes ∧
        result = stringResult [("cbor", toBase64String responseBytes)] ∧
        s' = Plugin.signed pkcs8 (s.counted selected.credentialId (e.signCount + 1)).saved := by
  constructor
  · intro h
    obtain ⟨n, s₁, run, h⟩ := bind_ok.mp h
    obtain ⟨e, hfind, hmax, rfl, hsave, rfl⟩ := incrementSignCount_ok.mp run
    obtain ⟨pkcs8, signature, rawCredId, responseBytes, hkey, halg, hsign, hraw, hresp, rfl, rfl⟩ :=
      answerWith_ok.mp h
    exact ⟨e, pkcs8, signature, rawCredId, responseBytes, hfind, hmax, hsave, hkey, halg, hsign,
      hraw, hresp, rfl, rfl⟩
  · rintro ⟨e, pkcs8, signature, rawCredId, responseBytes, hfind, hmax, hsave, hkey, halg, hsign,
      hraw, hresp, rfl, rfl⟩
    refine bind_ok.mpr ⟨_, _, incrementSignCount_ok.mpr ⟨e, hfind, hmax, rfl, hsave, rfl⟩, ?_⟩
    exact answerWith_ok.mpr ⟨pkcs8, signature, rawCredId, responseBytes, hkey, halg, hsign, hraw,
      hresp, rfl, rfl⟩

theorem handleGetAssertionRaw_ok {P : Platform} {out : Outside} {params : Option JToken}
    {s s' : Plugin} {result : JToken} :
    handleGetAssertionRaw P out params s = .ok result s' ↔
      ∃ uv cborBytes prompt req selected,
        gates P out.ask s.opSignPubKey s.skipPluginSigVerify s.uvFallbackPrompt params getMethod =
          (.ok (uv, cborBytes), prompt) ∧
        parseGetAssertionCbor cborBytes = .ok req ∧ req.optionsUp = true ∧
        selectCredential P req s = .ok selected ∧
        assertWith P out req uv selected (Plugin.prompted prompt s) = .ok result s' := by
  constructor
  · intro h
    obtain ⟨⟨uv, cborBytes⟩, s₁, run, h⟩ := bind_ok.mp h
    obtain ⟨prompt, hgates, rfl⟩ := receiveRaw_ok.mp run
    obtain ⟨req, _, run, h⟩ := bind_ok.mp h
    obtain ⟨hreq, rfl⟩ := lift_ok.mp run
    simp only [ite_run, throw_bind, get_bind] at h
    split_ifs at h with hup
    obtain ⟨selected, _, run, h⟩ := bind_ok.mp h
    obtain ⟨hsel, rfl⟩ := lift_ok.mp run
    exact ⟨uv, cborBytes, prompt, req, selected, hgates, orMalformed_ok.mp hreq, by simpa using hup,
      hsel, h⟩
  · rintro ⟨uv, cborBytes, prompt, req, selected, hgates, hreq, hup, hsel, h⟩
    refine bind_ok.mpr ⟨_, _, receiveRaw_ok.mpr ⟨prompt, hgates, rfl⟩, ?_⟩
    refine bind_ok.mpr ⟨_, _, lift_ok.mpr ⟨orMalformed_ok.mpr hreq, rfl⟩, ?_⟩
    simp only [ite_run, throw_bind, get_bind, hup, Bool.not_true, Bool.false_eq_true, if_false]
    exact bind_ok.mpr ⟨_, _, lift_ok.mpr ⟨hsel, rfl⟩, h⟩

theorem dispatchMethod_sign (P : Platform) (out : Outside) (params : Option JToken) :
    dispatchMethod P out "keepasskeywin.signAssertion" params = signAssertion P out params := by
  simp [dispatchMethod]

/-- The signature covers the `authData` of the request, whatever is returned. -/
theorem signAssertion_ok {P : Platform} {out : Outside} {params : Option JToken} {s s' : Plugin}
    {result : JToken} :
    signAssertion P out params s = .ok result s' ↔
      ∃ obj credentialId authDataB64 clientDataHashB64 record authData clientDataHash pkcs8 signature,
        params = some (.object obj) ∧ requireString obj "credentialId" = .ok credentialId ∧
        requireString obj "authData" = .ok authDataB64 ∧
        requireString obj "clientDataHash" = .ok clientDataHashB64 ∧
        s.findById P credentialId = some record ∧
        fromBase64String P authDataB64 = .ok authData ∧
        fromBase64String P clientDataHashB64 = .ok clientDataHash ∧
        fromBase64String P record.privateKeyPkcs8 = .ok pkcs8 ∧
        (record.algId = -7 ∨ record.algId = -257) ∧
        signatureOf P out.entropy pkcs8 (authData ++ clientDataHash) record.algId = .ok signature ∧
        result = stringResult [("signature", toBase64String signature),
          ("authData", toBase64String (AuthDataBuilder.buildAssertion P record.rpId true 0)),
          ("userHandle", record.userHandle)] ∧ s' = Plugin.signed pkcs8 s := by
  constructor
  · intro h
    obtain ⟨obj, _, run, h⟩ := bind_ok.mp h
    obtain ⟨hobj, rfl⟩ := lift_ok.mp run
    obtain ⟨credentialId, _, run, h⟩ := bind_ok.mp h
    obtain ⟨hid, rfl⟩ := lift_ok.mp run
    obtain ⟨authDataB64, _, run, h⟩ := bind_ok.mp h
    obtain ⟨hauth, rfl⟩ := lift_ok.mp run
    obtain ⟨clientDataHashB64, _, run, h⟩ := bind_ok.mp h
    obtain ⟨hhash, rfl⟩ := lift_ok.mp run
    rw [get_bind] at h
    dsimp only at h
    cases found : s.findById P credentialId with
    | none =>
      rw [found] at h
      cases h
    | some record =>
      rw [found] at h
      dsimp only at h
      obtain ⟨authData, _, run, h⟩ := bind_ok.mp h
      obtain ⟨hauthData, rfl⟩ := lift_ok.mp run
      obtain ⟨clientDataHash, _, run, h⟩ := bind_ok.mp h
      obtain ⟨hclientDataHash, rfl⟩ := lift_ok.mp run
      obtain ⟨pkcs8, _, run, h⟩ := bind_ok.mp h
      obtain ⟨hkey, rfl⟩ := lift_ok.mp run
      obtain ⟨signature, _, run, h⟩ := bind_ok.mp h
      obtain ⟨halg, hsign, rfl⟩ := signWithAlgorithm_ok.mp run
      obtain ⟨rfl, rfl⟩ := pure_ok.mp h
      exact ⟨obj, credentialId, authDataB64, clientDataHashB64, record, authData, clientDataHash,
        pkcs8, signature, requireObject_ok.mp hobj, hid, hauth, hhash, found,
        fromBase64OrInvalid_ok.mp hauthData, fromBase64OrInvalid_ok.mp hclientDataHash, hkey, halg,
        hsign, rfl, rfl⟩
  · rintro ⟨obj, credentialId, authDataB64, clientDataHashB64, record, authData, clientDataHash,
      pkcs8, signature, rfl, hid, hauth, hhash, found, hauthData, hclientDataHash, hkey, halg, hsign,
      rfl, rfl⟩
    refine bind_ok.mpr ⟨_, _, lift_ok.mpr ⟨requireObject_ok.mpr rfl, rfl⟩, ?_⟩
    refine bind_ok.mpr ⟨_, _, lift_ok.mpr ⟨hid, rfl⟩, ?_⟩
    refine bind_ok.mpr ⟨_, _, lift_ok.mpr ⟨hauth, rfl⟩, ?_⟩
    refine bind_ok.mpr ⟨_, _, lift_ok.mpr ⟨hhash, rfl⟩, ?_⟩
    rw [get_bind, found]
    refine bind_ok.mpr ⟨_, _, lift_ok.mpr ⟨fromBase64OrInvalid_ok.mpr hauthData, rfl⟩, ?_⟩
    refine bind_ok.mpr ⟨_, _, lift_ok.mpr ⟨fromBase64OrInvalid_ok.mpr hclientDataHash, rfl⟩, ?_⟩
    refine bind_ok.mpr ⟨_, _, lift_ok.mpr ⟨hkey, rfl⟩, ?_⟩
    exact bind_ok.mpr ⟨_, _, signWithAlgorithm_ok.mpr ⟨halg, hsign, rfl⟩, pure_ok.mpr ⟨rfl, rfl⟩⟩

theorem handleGetAssertionRaw_parsed {P : Platform} {out : Outside} {params : Option JToken}
    {s : Plugin} {uv : Bool} {cborBytes : Bytes} {prompt : Option UvFallbackPrompt}
    {req : GetAssertionRequest}
    (hgates : gates P out.ask s.opSignPubKey s.skipPluginSigVerify s.uvFallbackPrompt params
      getMethod = (.ok (uv, cborBytes), prompt))
    (hreq : parseGetAssertionCbor cborBytes = .ok req) :
    handleGetAssertionRaw P out params s =
      if req.optionsUp then
        (lift (selectCredential P req s) >>= assertWith P out req uv) (Plugin.prompted prompt s)
      else .error (.rpc RpcErrorCode.invalidOption s!"{getMethod}: options.up=false is not supported.")
        (Plugin.prompted prompt s) := by
  have received := receiveRaw_ok.mpr ⟨prompt, hgates, rfl⟩
  have parsed : (lift (orMalformed getMethod (parseGetAssertionCbor cborBytes)) : Vault _)
      (Plugin.prompted prompt s) = .ok req (Plugin.prompted prompt s) :=
    lift_ok.mpr ⟨orMalformed_ok.mpr hreq, rfl⟩
  rw [handleGetAssertionRaw, bind_of_ok received]
  change (lift (orMalformed getMethod (parseGetAssertionCbor cborBytes)) >>= _)
    (Plugin.prompted prompt s) = _
  rw [bind_of_ok parsed]
  cases hup : req.optionsUp with
  | true =>
    simp only [ite_run, throw_bind, get_bind, Bool.not_true, Bool.false_eq_true, if_false, if_true]
    rfl
  | false => simp only [ite_run, throw_bind, Bool.not_false, Bool.false_eq_true, if_false, if_true]

theorem mapError_error {ε ε' α : Type} {f : ε → ε'} {x : Except ε α} {e' : ε'}
    (h : x.mapError f = .error e') : ∃ e, e' = f e := by
  cases x with
  | ok a => simp [Except.mapError] at h
  | error e => exact ⟨e, (Except.error.inj h).symm⟩

theorem save_error {out : Outside} {s s' : Plugin} {e : Exn} (h : save out s = .error e s') :
    ∃ message, e = .other message := by
  unfold save at h
  split at h
  · cases h
    exact ⟨_, rfl⟩
  · cases h
  · cases h
    exact ⟨_, rfl⟩

theorem incrementSignCount_error {out : Outside} {credentialId : String} {s s' : Plugin} {e : Exn}
    (h : incrementSignCount out credentialId s = .error e s') : ∃ message, e = .other message := by
  cases hnext : nextSignCount credentialId s with
  | error e' =>
    rw [incrementSignCount_of_error hnext] at h
    cases h
    exact nextSignCount_error hnext
  | ok n =>
    rw [incrementSignCount_of_next hnext] at h
    rcases bind_error.mp h with h | ⟨_, _, _, h⟩
    · exact save_error h
    · exact (pure_error.mp h).elim

theorem fromBase64String_error {P : Platform} {text : String} {e : Exn}
    (h : fromBase64String P text = .error e) : ∃ message, e = .format message := by
  unfold fromBase64String at h
  split at h
  · cases h
  · cases h
    exact ⟨_, rfl⟩

theorem base64UrlDecode_error {P : Platform} {text : String} {e : Exn}
    (h : Base64Url.decode P text = .error e) : ∃ message, e = .format message := by
  unfold Base64Url.decode at h
  exact fromBase64String_error h

theorem signatureOf_error {P : Platform} {entropy pkcs8 data : Bytes} {algId : ℤ} {e : Exn}
    (h : signatureOf P entropy pkcs8 data algId = .error e) : ∃ message, e = .other message := by
  unfold signatureOf at h
  split_ifs at h
  · rcases except_bind_error.mp h with h | ⟨p1363, hsign, h⟩
    · exact mapError_error h
    · obtain ⟨half, width, positive, _⟩ := P.ecdsaSignData_width (mapError_ok.mp hsign)
      have split : (p1363.take half).length = (p1363.drop half).length := by
        rw [List.length_take, List.length_drop]
        omega
      have nonempty : p1363.take half ≠ [] := by
        intro hnil
        have := congrArg List.length hnil
        rw [List.length_take, List.length_nil] at this
        omega
      have written := p1363ToDer_eq split nonempty
      rw [List.take_append_drop, h] at written
      cases written
  · exact mapError_error h

theorem signWithAlgorithm_error {P : Platform} {out : Outside} {pkcs8 data : Bytes} {algId : ℤ}
    {s s' : Plugin} {e : Exn} (h : signWithAlgorithm P out pkcs8 data algId s = .error e s') :
    (∃ message, e = .other message) ∨
      ∃ message, e = .rpc RpcErrorCode.unsupportedAlgorithm message := by
  unfold signWithAlgorithm at h
  by_cases halg : algId = -7 ∨ algId = -257
  · simp only [halg, if_true, modify_bind, lift_error] at h
    exact .inl (signatureOf_error h.1)
  · simp only [halg, if_false, get_bind, throw_apply] at h
    cases h
    exact .inr ⟨_, rfl⟩

theorem assertWith_error {P : Platform} {out : Outside} {req : GetAssertionRequest} {uv : Bool}
    {selected : PasskeyRecord} {s s' : Plugin} {e : Exn}
    (h : assertWith P out req uv selected s = .error e s') (message : String) :
    e ≠ .rpc RpcErrorCode.credentialNotFound message := by
  have other : ∀ {e : Exn}, (∃ m, e = .other m) ∨ (∃ m, e = .format m) →
      e ≠ .rpc RpcErrorCode.credentialNotFound message := by
    rintro e (⟨m, rfl⟩ | ⟨m, rfl⟩) <;> simp
  rcases bind_error.mp h with h | ⟨n, _, _, h⟩
  · exact other (.inl (incrementSignCount_error h))
  rcases bind_error.mp h with h | ⟨pkcs8, _, _, h⟩
  · exact other (.inr (fromBase64String_error (lift_error.mp h).1))
  rcases bind_error.mp h with h | ⟨signature, _, _, h⟩
  · rcases signWithAlgorithm_error h with he | ⟨m, rfl⟩
    · exact other (.inl he)
    · simp [RpcErrorCode.unsupportedAlgorithm, RpcErrorCode.credentialNotFound]
  rcases bind_error.mp h with h | ⟨rawId, _, _, h⟩
  · exact other (.inr (base64UrlDecode_error (lift_error.mp h).1))
  rcases bind_error.mp h with h | ⟨_, _, _, h⟩
  · obtain ⟨herr, _⟩ := lift_error.mp h
    rcases hraw : Base64Url.decode P selected.userHandle with e' | raw
    · have he' := base64UrlDecode_error hraw
      split_ifs at herr
      · rcases except_bind_error.mp herr with herr | ⟨_, _, herr⟩
        · rcases except_bind_error.mp herr with herr | ⟨_, hok, _⟩
          · rw [hraw, Except.error.injEq] at herr
            exact other (.inr (herr ▸ he'))
          · rw [hraw] at hok
            cases hok
        · cases herr
      · rw [buildAssertionResponse_none] at herr
        cases herr
    · split_ifs at herr
      · rw [buildAssertionResponse_some _ _ _ _ hraw] at herr
        cases herr
      · rw [buildAssertionResponse_none] at herr
        cases herr
  · exact (pure_error.mp h).elim

namespace Sample

def opSignPubKey : Bytes :=
  bigEndian 72 0x45435331200000001517863a74907f5ed3b25a9072d0d34e8b869ea7a021bb40ad29dd8aa10e49ce57043ceb813a51cd9a00d7460c25dd4f343346d45666c5605bf7db2396701dbe

def credentialPkcs8 : Bytes :=
  bigEndian 138 0x308187020100301306072a8648ce3d020106082a8648ce3d030107046d306b0201010420c9afa9d845ba75166b5c215767b1d6934e50c3db36e89b127b8a622b120f6721a1440342000460fed4ba255a9d31c961eb74c6356d68c049b8923b61fa6ce669622e60f29fb67903fe1008b8bc99a41ae9e95628bc64f2f1b20c2d7e9f5177a3c294d4462299

def credentialKey : EcKeyPair where
  pkcs8 := credentialPkcs8
  x := bigEndian 32 0x60fed4ba255a9d31c961eb74c6356d68c049b8923b61fa6ce669622e60f29fb6
  y := bigEndian 32 0x7903fe1008b8bc99a41ae9e95628bc64f2f1b20c2d7e9f5177a3c294d4462299
  x_length := bigEndian_length _ _
  y_length := bigEndian_length _ _

/-- SHA-256 of "example.com". -/
def rpIdHash : Bytes :=
  bigEndian 32 0xa379a6f6eeafb9a55e378c118034e2751e682fab9f2d30ab13d2125586ce1947

def clientDataHash : Bytes :=
  bigEndian 32 0x108a9107a11167c1d1090f07d6fd7dbf37f8cd8ad88a90fc1b3bc067c120fd23

/-- A request to register alice at example.com with ES256. -/
def makeCbor : Bytes :=
  bigEndian 129 0xa4015820108a9107a11167c1d1090f07d6fd7dbf37f8cd8ad88a90fc1b3bc067c120fd2302a26269646b6578616d706c652e636f6d646e616d65674578616d706c6503a36269644401020304646e616d6565616c6963656b646973706c61794e616d6565416c6963650481a263616c672664747970656a7075626c69632d6b6579

def makeSignature : Bytes :=
  bigEndian 64 0x61340c88c3aaebeb4f6d667f672ca9759a6ccaa9fa8811313039ee4a35471d327a59d392579fd087fc4bf49e5e07f1b9703719d2b85ab61811d35a75145e8935

def credentialId : Bytes := (List.range 32).map fun i => UInt8.ofNat (i + 1)

/-- A request to sign for example.com with the credential above. -/
def getCbor : Bytes :=
  bigEndian 105 0xa3016b6578616d706c652e636f6d025820108a9107a11167c1d1090f07d6fd7dbf37f8cd8ad88a90fc1b3bc067c120fd230381a262696458200102030405060708090a0b0c0d0e0f101112131415161718191a1b1c1d1e1f2064747970656a7075626c69632d6b6579

def getSignature : Bytes :=
  bigEndian 64 0x2b42f576d07f4165ff65d1f3b1500f81e44c316f1f0b3ef57325b69aca46104f90d59684dfb53054bdc066048dd2e5f61da80da278fc7731074af5efbd3495a9

def signInput : Bytes := rpIdHash ++ [0x05] ++ bigEndian 4 1 ++ clientDataHash

def credentialSignature : Bytes :=
  bigEndian 64 0xefd48b2aacb6a8fd1140dd9cd45e81d69d2c877b56aaf991c34d0ea84eaf37168971230d6810f5277841c684e12c06b4fc9766a11c357602c7fe1d8d09402b1c

def otherSignature : Bytes := List.replicate 64 1

def now : DateTime := ⟨639028224000000000, true⟩

def dateToString (d : DateTime) : String :=
  if d = now then "2026-01-01T00:00:00.0000000Z"
  else if d = DateTime.minValue then "0001-01-01T00:00:00.0000000"
  else NumberFormat.intToString NumberFormat.invariant (2 * d.ticks + if d.utc then 1 else 0)

def dateTryParse (s : String) : Option DateTime :=
  match NumberFormat.parseInteger NumberFormat.invariant s with
  | some n => some ⟨n.toNat / 2, n.toNat % 2 == 1⟩
  | none =>
    if s = "2026-01-01T00:00:00.0000000Z" then some now
    else if s = "0001-01-01T00:00:00.0000000" then some DateTime.minValue
    else none

theorem dateTryParse_dateToString (d : DateTime) : dateTryParse (dateToString d) = some d := by
  have digits : ∀ n : ℤ, dateTryParse (NumberFormat.intToString NumberFormat.invariant n) =
      some ⟨n.toNat / 2, n.toNat % 2 == 1⟩ := by
    intro n
    rw [dateTryParse, NumberFormat.parseInteger_intToString NumberFormat.invariant_proper]
  unfold dateToString
  by_cases hnow : d = now
  · rw [if_pos hnow, hnow]
    decide +kernel
  · by_cases hmin : d = DateTime.minValue
    · rw [if_neg hnow, if_pos hmin, hmin]
      decide +kernel
    · rw [if_neg hnow, if_neg hmin, digits]
      obtain ⟨ticks, utc⟩ := d
      cases utc with
      | true =>
        have htoNat : (2 * (ticks : ℤ) + 1).toNat = 2 * ticks + 1 := by omega
        simp only [if_true, htoNat, Option.some.injEq, DateTime.mk.injEq, beq_iff_eq]
        omega
      | false =>
        have htoNat : (2 * (ticks : ℤ) + 0).toNat = 2 * ticks := by omega
        simp only [Bool.false_eq_true, if_false, htoNat, Option.some.injEq, DateTime.mk.injEq,
          beq_eq_false_iff_ne]
        omega

theorem halves_of_length {signature : Bytes} (length : signature.length = 64) :
    ∃ half, signature.length = 2 * half ∧ 0 < half ∧ half ≤ 66 :=
  ⟨32, length, by omega, by omega⟩

def platform (lines : List (String × JsonRpcRequest)) : Platform where
  sha256 bs := if bs = utf8 "example.com" then rpIdHash else List.replicate 32 0
  sha256_length bs := by
    split_ifs
    · exact bigEndian_length _ _
    · simp
  verifyData pubKey payload signature :=
    .answer (if pubKey = opSignPubKey then
        payload = makeCbor ∧ signature = makeSignature ∨
          payload = getCbor ∧ signature = getSignature
      else signature = if payload = signInput then credentialSignature else otherSignature)
  rsaVerifyData _ _ _ _ := false
  ecdsaSignData _ _ data := .ok (if data = signInput then credentialSignature else otherSignature)
  ecdsaSignData_width := by
    intro _ _ data signature h
    apply halves_of_length
    rw [← Except.ok.inj h]
    split_ifs
    · exact bigEndian_length _ _
    · simp [otherSignature]
  rsaSignData _ _ := .error "The parameter is incorrect."
  rsaSignData_length := by simp
  base64Message _ := "Invalid length for a Base-64 char array or string."
  dateToString := dateToString
  dateTryParse := dateTryParse
  dateTryParse_dateToString := dateTryParse_dateToString
  deserializeRequest line := .ok (lines.lookup line)

def lineless : Platform := platform []

def outside : Outside where
  save := none
  credentialId := credentialId
  credentialId_length := by simp [credentialId]
  ecKey := .ok credentialKey
  rsaKey := .error "The requested operation is not supported."
  entropy := []
  ask := .yes
  utcNow := now
  nonce := List.replicate 32 7
  nonce_length := by simp
  registry := none

/-- An open vault without passkeys; the user has agreed to the v1 fallback. -/
def plugin : Plugin where
  database := some ⟨true, []⟩
  file := []
  opSignPubKey := some opSignPubKey
  uvFallbackPrompt := some ⟨true, true, 1⟩
  skipPluginSigVerify := none
  culture := NumberFormat.invariant
  nonce := some "5f0c8e5f3b7d4a1e92c64dd0b18f7a3625e9c0d7481bf6a3e05d92c7b6f41a08"
  registryNonce := some "5f0c8e5f3b7d4a1e92c64dd0b18f7a3625e9c0d7481bf6a3e05d92c7b6f41a08"
  vaultCalls := 0
  keyUses := []

def record (rpId : String) : PasskeyRecord :=
  newRecord outside (Base64Url.encode credentialId) rpId "example" "AQIDBA" "alice" "Alice"
    (-7) credentialPkcs8 (CborCodec.encode (ec2Key credentialKey.x credentialKey.y))

def entry (rpId : String) : PwEntry :=
  recordToEntry (platform []) NumberFormat.invariant (record rpId)

def registered (rpId : String) : Plugin :=
  { plugin with database := some ⟨true, [⟨groupName, [entry rpId]⟩]⟩ }

def rawFields (cborBytes signature : Bytes) : JObject :=
  [("cbor", .str (toBase64String cborBytes)), ("uv", .boolean true),
    ("pbRequestSignatureB64", .str (toBase64String signature)), ("uvBindingTier", .str "v1")]

def rawParams (cborBytes signature : Bytes) : Option JToken :=
  some (.object (rawFields cborBytes signature))

def getParams : Option JToken := rawParams getCbor getSignature

def listLine : String :=
  "\x7b\"jsonrpc\":\"2.0\",\"id\":2,\"method\":\"keepasskeywin.listCredentials\",\"params\"" ++
    ":\x7b\"rpId\":\"example.com\"\x7d\x7d"

def loginLine : String :=
  "\x7b\"jsonrpc\":\"2.0\",\"id\":3,\"method\":\"keepasskeywin.getAssertionRaw\",\"params\"" ++
    ":\x7b\"cbor\":\"owFrZXhhbXBsZS5jb20CWCAQipEHoRFnwdEJDwfW/X2/N/jNitiKkPwbO8BnwSD9IwOBomJp" ++
    "ZFggAQIDBAUGBwgJCgsMDQ4PEBESExQVFhcYGRobHB0eHyBkdHlwZWpwdWJsaWMta2V5\",\"uv\":true,\"pbR" ++
    "equestSignatureB64\":\"K0L1dtB/QWX/ZdHzsVAPgeRMMW8fCz71cyW2mspGEE+Q1ZaE37UwVL3AZgSN0uX2H" ++
    "agNonj8dzEHSvXvvTSVqQ==\",\"uvBindingTier\":\"v1\"\x7d\x7d"

def listRequest : JsonRpcRequest :=
  ⟨some (.integer 2), "keepasskeywin.listCredentials",
    some (.object [("rpId", .str "example.com")])⟩

def loginRequest : JsonRpcRequest := ⟨some (.integer 3), getMethod, getParams⟩

def getRequest : GetAssertionRequest :=
  ⟨"example.com", clientDataHash, [credentialId], true, false⟩

theorem parse_getCbor : parseGetAssertionCbor getCbor = .ok getRequest := by decide +kernel

theorem beforePrompt_rawParams {P : Platform} {cborBytes signature : Bytes}
    (hcbor : cborBytes ≠ [])
    (verified : verify P opSignPubKey cborBytes signature = .ok true)
    (method : String) :
    beforePrompt P (some opSignPubKey) none (rawParams cborBytes signature) method =
      .ok (rawFields cborBytes signature, true, cborBytes) := by
  have object : requireObject (rawParams cborBytes signature) method =
      .ok (rawFields cborBytes signature) := rfl
  have flag : boolField (rawFields cborBytes signature) "uv" = .ok true := rfl
  have cbor : requireString (rawFields cborBytes signature) "cbor" =
      .ok (toBase64String cborBytes) := requireString_ok.mpr ⟨rfl, toBase64String_ne_empty hcbor⟩
  have signed : verifyRequestSignature P (some opSignPubKey)
      (rawFields cborBytes signature) cborBytes method = .ok () :=
    verifyRequestSignature_ok.mpr ⟨opSignPubKey, toBase64String signature, signature, rfl, rfl,
      fromBase64String_toBase64String _ _, verified⟩
  have decoded : verifyAndDecodeCbor P (some opSignPubKey) none
      (rawFields cborBytes signature) method = .ok cborBytes := by
    rw [verifyAndDecodeCbor, except_bind_of_ok cbor, except_bind_of_ok
      (fromBase64OrInvalid_ok.mpr (fromBase64String_toBase64String _ cborBytes))]
    change (verifyRequestSignature P (some opSignPubKey)
      (rawFields cborBytes signature) cborBytes method >>= fun _ => .ok cborBytes) = _
    rw [except_bind_of_ok signed]
  rw [beforePrompt, except_bind_of_ok object, except_bind_of_ok flag, except_bind_of_ok decoded]
  rfl

theorem gates_of_agreed {P : Platform} {cborBytes signature : Bytes}
    (hcbor : cborBytes ≠ [])
    (verified : verify P opSignPubKey cborBytes signature = .ok true)
    {ask : AskOutcome} {prompt prompt' : Option UvFallbackPrompt} {method : String}
    (agreed : promptForFallback ask prompt method = (.ok (), prompt')) :
    gates P ask (some opSignPubKey) none prompt (rawParams cborBytes signature)
      method = (.ok (true, cborBytes), prompt') := by
  have granted : verifyUvSignatureOrPrompt P ask (some opSignPubKey) prompt
      (rawFields cborBytes signature) cborBytes method = (.ok (), prompt') := agreed
  simp only [gates, beforePrompt_rawParams hcbor verified, granted]

theorem gates_rawParams {P : Platform} {cborBytes signature : Bytes}
    (hcbor : cborBytes ≠ [])
    (verified : verify P opSignPubKey cborBytes signature = .ok true)
    (method : String) :
    gates P outside.ask plugin.opSignPubKey plugin.skipPluginSigVerify
      plugin.uvFallbackPrompt (rawParams cborBytes signature) method =
        (.ok (true, cborBytes), plugin.uvFallbackPrompt) :=
  gates_of_agreed hcbor verified rfl

theorem beforePrompt_get : beforePrompt (platform []) (some opSignPubKey) none getParams getMethod =
    .ok (rawFields getCbor getSignature, true, getCbor) :=
  beforePrompt_rawParams (by decide +kernel) (by decide +kernel) getMethod

theorem gates_get : gates (platform []) outside.ask plugin.opSignPubKey plugin.skipPluginSigVerify
    plugin.uvFallbackPrompt getParams getMethod =
      (.ok (true, getCbor), plugin.uvFallbackPrompt) :=
  gates_rawParams (by decide +kernel) (by decide +kernel) getMethod

theorem record_entry (rpId : String) :
    entryToRecord (platform []) NumberFormat.invariant (entry rpId) = record rpId :=
  entryToRecord_recordToEntry _ (NumberFormat.intTryParse_intToString NumberFormat.invariant_proper
    (show (-2 ^ 31 : ℤ) ≤ -7 ∧ (-7 : ℤ) < 2 ^ 31 by decide))

theorem entries_registered (rpId : String) : (registered rpId).entries = [entry rpId] := rfl

theorem find?_registered (rpId : String) :
    (registered rpId).entries.find? (hasId (Base64Url.encode credentialId)) = some (entry rpId) := by
  have own : hasId (Base64Url.encode credentialId) (entry rpId) = true := hasId_iff.mpr rfl
  simp [entries_registered, own]

theorem selects_registered (rpId : String) :
    selectCredential (platform []) getRequest (registered rpId) = .ok (record rpId) :=
  selectCredential_ok.mpr ⟨entry rpId,
    .inr ⟨[], credentialId, [], rfl, by simp, find?_registered rpId⟩, (record_entry rpId).symm⟩

theorem answers (rpId : String) (n : ℕ) (s : Plugin) : ∃ result,
    answerWith (platform []) outside getRequest true (record rpId) n s =
      .ok result (Plugin.signed credentialPkcs8 s) := by
  have key : fromBase64String (platform []) (record rpId).privateKeyPkcs8 = .ok credentialPkcs8 :=
    fromBase64String_toBase64String _ _
  have signs : ∀ data, ∃ der,
      signatureOf (platform []) outside.entropy credentialPkcs8 data (-7) = .ok der := by
    intro data
    have width : (if data = signInput then credentialSignature else otherSignature).length = 64 := by
      split_ifs
      · exact bigEndian_length _ _
      · simp [otherSignature]
    obtain ⟨der, hder, _⟩ := tryDerToP1363_p1363ToDer width
    exact ⟨der, hder⟩
  obtain ⟨der, hder⟩ := signs (AuthDataBuilder.buildAssertion (platform []) rpId true n ++
    clientDataHash)
  exact ⟨_, answerWith_ok.mpr ⟨credentialPkcs8, der, credentialId, _, key, .inl rfl, hder,
    Base64Url.decode_encode _ _, buildAssertionResponse_none _ _ _ _ _, rfl, rfl⟩⟩

theorem get_succeeds (rpId : String) : ∃ result s',
    handle (platform []) outside getMethod getParams (registered rpId) = .ok result s' := by
  have counter : (entry rpId).signCount = 0 := signCount_recordToEntry _ _ _
  have counted : incrementSignCount outside (record rpId).credentialId
      (Plugin.prompted plugin.uvFallbackPrompt (Plugin.called (registered rpId))) = .ok 1 _ :=
    incrementSignCount_ok.mpr ⟨entry rpId, find?_registered rpId, by rw [counter]; decide,
      by rw [counter], rfl, rfl⟩
  obtain ⟨result, answered⟩ := answers rpId 1 _
  rw [handle_of_open rfl, dispatchMethod_get]
  exact ⟨result, _, handleGetAssertionRaw_ok.mpr ⟨true, getCbor, _, getRequest, record rpId,
    gates_get, parse_getCbor, rfl, selects_registered rpId, bind_ok.mpr ⟨1, _, counted, answered⟩⟩⟩

end Sample

end KeePassKeyWin.VaultOutcomes
