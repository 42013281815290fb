import KeePassKeyWin.CredentialSelection
import KeePassKeyWin.VaultOutcomes

set_option autoImplicit false

/-!
# Which relying party an assertion is for

Without descriptors the handler looks for records of the request's relying party; with
descriptors it looks for their ids alone, and signs for whatever relying party the first
hit belongs to.
-/
namespace KeePassKeyWin.RelyingPartyScope
open ByteStrings JsonRpc OutcomeRules PlatformServices CborCodec CredentialEncodings
open AuthDataBuilder PasskeyStore VaultGates CtapRequests VaultHandler VaultResponses
open VaultOutcomes CredentialSelection

/-- The record whose key signed, and the authenticator data that was returned. -/
structure SignedBy (P : Platform) (s s' : Plugin) (req : GetAssertionRequest) (result : JToken)
    (selected : PasskeyRecord) (authData : Bytes) : Prop where
  selects : selectCredential P req s = .ok selected
  key : ∃ pkcs8, fromBase64String P selected.privateKeyPkcs8 = .ok pkcs8 ∧
    s'.keyUses = s.keyUses ++ [pkcs8]
  response : ∃ rawId signature user, result =
    stringResult [("cbor", toBase64String (encode (assertionItem rawId authData signature user)))]

/-- Bound to the relying party of the request, and listed where the request lists ids. -/
def Eligible (req : GetAssertionRequest) (r : PasskeyRecord) : Prop :=
  r.rpId = req.rpId ∧ (req.allowListCredIds = [] ∨
    ∃ rawId ∈ req.allowListCredIds, r.credentialId = Base64Url.encode rawId)

/-- Success is for the relying party of the request; with no eligible credential the request
ends in `CredentialNotFound`. -/
structure Scoped (P : Platform) (out : Outside) (params : Option JToken) (s : Plugin)
    (req : GetAssertionRequest) : Prop where
  success : ∀ result s', handle P out getMethod params s = .ok result s' →
    ∃ selected authData, SignedBy P s s' req result selected authData ∧
      selected.rpId = req.rpId ∧ authData.take 32 = P.sha256 (utf8 req.rpId)
  notFound : (∀ r ∈ s.getAll P, ¬ Eligible req r) →
    ∃ message s', handle P out getMethod params s =
      .error (.rpc RpcErrorCode.credentialNotFound message) s'

/-- The counter is not exhausted, `Save` does not throw, and the key signs the assertion. -/
def CanSign (P : Platform) (out : Outside) (req : GetAssertionRequest) (uv : Bool)
    (r : PasskeyRecord) : Prop :=
  r.signCount ≠ uintMaxValue ∧ out.save = none ∧ (r.algId = -7 ∨ r.algId = -257) ∧
    ∃ pkcs8 signature, fromBase64String P r.privateKeyPkcs8 = .ok pkcs8 ∧
      signatureOf P out.entropy pkcs8
        (buildAssertion P r.rpId uv (r.signCount + 1) ++ req.clientDataHash) r.algId =
          .ok signature

/-- The record that is selected, if there is one, belongs to the relying party of the request;
or it cannot sign while another record is eligible. A request with `up` false is turned down
before a record is selected. -/
def InScope (P : Platform) (out : Outside) (req : GetAssertionRequest) (uv : Bool) (s : Plugin) :
    Prop :=
  (req.optionsUp = true ∧
    ∀ e, Selects req s e → (entryToRecord P s.culture e).rpId = req.rpId) ∨
  ((∃ r ∈ s.getAll P, Eligible req r) ∧ (req.optionsUp = false ∨
    ∀ e, Selects req s e → ¬ CanSign P out req uv (entryToRecord P s.culture e)))

section
variable {P : Platform} {out : Outside} {params : Option JToken} {s : Plugin}
  {req : GetAssertionRequest} {uv : Bool} {e : PwEntry}

theorem selectCredential_error {err : Exn} (h : selectCredential P req s = .error err) :
    ∃ message, err = .rpc RpcErrorCode.credentialNotFound message := by
  unfold selectCredential at h
  split_ifs at h
  · split at h
    · cases h
      exact ⟨_, rfl⟩
    · cases h
  · split at h
    · cases h
    · cases h
      exact ⟨_, rfl⟩

theorem eligible_of_selects (h : Selects req s e)
    (own : (entryToRecord P s.culture e).rpId = req.rpId) :
    entryToRecord P s.culture e ∈ s.getAll P ∧ Eligible req (entryToRecord P s.culture e) := by
  refine ⟨List.mem_map_of_mem h.mem, own, ?_⟩
  rcases h with ⟨hlist, _⟩ | ⟨before, rawId, after, split, _, hfind⟩
  · exact .inl hlist
  · exact .inr ⟨rawId, by simp [split],
      entryToRecord_credentialId (hasId_iff.mp (List.find?_some hfind))⟩

theorem rpId_of_discoverable (h : Selects req s e) (hlist : req.allowListCredIds = []) :
    (entryToRecord P s.culture e).rpId = req.rpId := by
  rcases h with ⟨_, hfind⟩ | ⟨before, rawId, after, split, _⟩
  · simp [entryToRecord, hasRpId_iff.mp (List.find?_some hfind)]
  · simp [hlist] at split

/-- With descriptors, the selected record signs whenever it can. -/
theorem assertWith_of_canSign {t : Plugin} (ht : t.entries = s.entries)
    (h : Selects req s e) (hlist : req.allowListCredIds ≠ [])
    (can : CanSign P out req uv (entryToRecord P s.culture e)) :
    ∃ result s', assertWith P out req uv (entryToRecord P s.culture e) t = .ok result s' := by
  rcases h with ⟨hnil, _⟩ | ⟨before, rawId, after, split, _, hfind⟩
  · exact absurd hnil hlist
  have hid : (entryToRecord P s.culture e).credentialId = Base64Url.encode rawId :=
    entryToRecord_credentialId (hasId_iff.mp (List.find?_some hfind))
  obtain ⟨hmax, hsave, halg, pkcs8, signature, hkey, hsign⟩ := can
  have found : t.entries.find? (hasId (entryToRecord P s.culture e).credentialId) = some e := by
    rw [ht, hid, hfind]
  have decoded : Base64Url.decode P (entryToRecord P s.culture e).credentialId = .ok rawId := by
    rw [hid, Base64Url.decode_encode]
  have responded := buildAssertionResponse_none P rawId (buildAssertion P
    (entryToRecord P s.culture e).rpId uv (e.signCount + 1)) signature uv
  have user : (if req.allowListCredIds = [] then some (entryToRecord P s.culture e) else none) =
      none := if_neg hlist
  rw [← user] at responded
  exact ⟨_, _, assertWith_ok.mpr ⟨e, pkcs8, signature, rawId, _, found, hmax, hsave, hkey, halg,
    hsign, decoded, responded, rfl, rfl⟩⟩

theorem canSign_of_assertWith {t s' : Plugin} {result : JToken} (ht : t.entries = s.entries)
    (h : Selects req s e) (hlist : req.allowListCredIds ≠ [])
    (run : assertWith P out req uv (entryToRecord P s.culture e) t = .ok result s') :
    CanSign P out req uv (entryToRecord P s.culture e) := by
  rcases h with ⟨hnil, _⟩ | ⟨before, rawId, after, split, _, hfind⟩
  · exact absurd hnil hlist
  have hid : (entryToRecord P s.culture e).credentialId = Base64Url.encode rawId :=
    entryToRecord_credentialId (hasId_iff.mp (List.find?_some hfind))
  obtain ⟨e', pkcs8, signature, _, _, hfind', hmax, hsave, hkey, halg, hsign, _⟩ :=
    assertWith_ok.mp run
  rw [ht, hid, hfind, Option.some.injEq] at hfind'
  subst hfind'
  exact ⟨hmax, hsave, halg, pkcs8, signature, hkey, hsign⟩

theorem handle_parsed {cborBytes : Bytes} {prompt : Option UvFallbackPrompt}
    (hopen : s.isVaultOpen = true)
    (hgates : gates P out.ask s.opSignPubKey s.skipPluginSigVerify s.uvFallbackPrompt params
      getMethod = (.ok (uv, cborBytes), prompt))
    (hreq : parseGetAssertionCbor cborBytes = .ok req) :
    handle P out getMethod params s =
      if req.optionsUp then
        (lift (selectCredential P req s) >>= assertWith P out req uv)
          (Plugin.prompted prompt (Plugin.called s))
      else .error (.rpc RpcErrorCode.invalidOption s!"{getMethod}: options.up=false is not supported.")
        (Plugin.prompted prompt (Plugin.called s)) := by
  rw [handle_of_open hopen, dispatchMethod_get]
  exact handleGetAssertionRaw_parsed (s := Plugin.called s) hgates hreq

theorem signedBy_of_assertWith {prompt : Option UvFallbackPrompt} {selected : PasskeyRecord}
    {result : JToken} {s' : Plugin} (hsel : selectCredential P req s = .ok selected)
    (run : assertWith P out req uv selected (Plugin.prompted prompt (Plugin.called s)) =
      .ok result s') :
    ∃ n, SignedBy P s s' req result selected (buildAssertion P selected.rpId uv n) := by
  obtain ⟨e, pkcs8, signature, rawId, response, _, _, _, hkey, _, _, _, hresp, rfl, rfl⟩ :=
    assertWith_ok.mp run
  obtain ⟨user, rfl, _⟩ := buildAssertionResponse_ok hresp
  refine ⟨e.signCount + 1, hsel, ⟨pkcs8, hkey, ?_⟩, rawId, signature, user, rfl⟩
  have kept := (frame_saved (Plugin.counted selected.credentialId (e.signCount + 1)
    (Plugin.prompted prompt (Plugin.called s)))).keyUses
  simp only [Plugin.signed, kept]
  rfl

end

/-- For every request that passes the gates and parses, exactly the requests in scope are
answered within the scope of their relying party. -/
theorem getAssertionRaw_scoped_iff (P : Platform) (out : Outside) (params : Option JToken)
    (s : Plugin) (uv : Bool) (cborBytes : Bytes) (prompt : Option UvFallbackPrompt)
    (req : GetAssertionRequest) (hopen : s.isVaultOpen = true)
    (hgates : gates P out.ask s.opSignPubKey s.skipPluginSigVerify s.uvFallbackPrompt params
      getMethod = (.ok (uv, cborBytes), prompt))
    (hreq : parseGetAssertionCbor cborBytes = .ok req) :
    Scoped P out params s req ↔ InScope P out req uv s := by
  have handled := handle_parsed hopen hgates hreq
  cases hup : req.optionsUp with
  | false =>
    rw [hup] at handled
    constructor
    · intro h
      by_contra out_of_scope
      have none : ∀ r ∈ s.getAll P, ¬ Eligible req r :=
        fun r hr hel => out_of_scope (.inr ⟨⟨r, hr, hel⟩, .inl hup⟩)
      obtain ⟨message, s', hm⟩ := h.notFound none
      rw [handled] at hm
      simp [RpcErrorCode.invalidOption, RpcErrorCode.credentialNotFound] at hm
    · rintro (⟨up, _⟩ | ⟨⟨r, hr, hel⟩, _⟩)
      · simp [hup] at up
      · exact ⟨fun result s' h => by simp [handled] at h, fun none => absurd hel (none r hr)⟩
  | true =>
    simp only [hup, if_true] at handled
    cases hsel : selectCredential P req s with
    | error err =>
      have failed : handle P out getMethod params s =
          .error err (Plugin.prompted prompt (Plugin.called s)) := by
        rw [handled, bind_of_error (lift_error.mpr ⟨hsel, rfl⟩)]
      obtain ⟨message, rfl⟩ := selectCredential_error hsel
      refine iff_of_true ⟨fun result s' h => ?_, fun _ => ⟨message, _, failed⟩⟩ (.inl ⟨hup, ?_⟩)
      · simp [failed] at h
      · intro e he
        have found : selectCredential P req s = .ok (entryToRecord P s.culture e) :=
          selectCredential_ok.mpr ⟨e, he, rfl⟩
        simp [hsel] at found
    | ok selected =>
      have answered : handle P out getMethod params s =
          assertWith P out req uv selected (Plugin.prompted prompt (Plugin.called s)) := by
        rw [handled, bind_of_ok (lift_ok.mpr ⟨hsel, rfl⟩)]
      have only : ∀ e, Selects req s e → entryToRecord P s.culture e = selected := by
        intro e he
        have found : selectCredential P req s = .ok (entryToRecord P s.culture e) :=
          selectCredential_ok.mpr ⟨e, he, rfl⟩
        rw [hsel, Except.ok.injEq] at found
        exact found.symm
      obtain ⟨e, he, rfl⟩ := selectCredential_ok.mp hsel
      by_cases own : (entryToRecord P s.culture e).rpId = req.rpId
      · obtain ⟨mem, eligible⟩ := eligible_of_selects he own
        refine iff_of_true ⟨fun result s' h => ?_, fun none => absurd eligible (none _ mem)⟩
          (.inl ⟨hup, fun e' he' => by rw [only e' he', own]⟩)
        obtain ⟨n, signed⟩ := signedBy_of_assertWith hsel (answered ▸ h)
        refine ⟨_, _, signed, own, ?_⟩
        rw [own, buildAssertion_take]
      · have hlist : req.allowListCredIds ≠ [] := fun hnil => own (rpId_of_discoverable he hnil)
        constructor
        · intro h
          refine .inr ⟨?_, .inr ?_⟩
          · by_contra none
            obtain ⟨message, s', hm⟩ := h.notFound fun r hr hel => none ⟨r, hr, hel⟩
            exact assertWith_error (answered ▸ hm) message rfl
          · intro e' he' can
            rw [only e' he'] at can
            obtain ⟨result, s', run⟩ := assertWith_of_canSign
              (t := Plugin.prompted prompt (Plugin.called s)) rfl he hlist can
            obtain ⟨selected, _, signed, hrp, _⟩ := h.success result s' (answered.trans run)
            have same := signed.selects
            rw [hsel, Except.ok.injEq] at same
            exact own (same ▸ hrp)
        · rintro (⟨_, all⟩ | ⟨⟨r, hr, hel⟩, up | cannot⟩)
          · exact absurd (all e he) own
          · simp [hup] at up
          · refine ⟨fun result s' h => ?_, fun none => absurd hel (none r hr)⟩
            rw [answered] at h
            exact absurd (canSign_of_assertWith (t := Plugin.prompted prompt (Plugin.called s)) rfl
              he hlist h) (cannot e he)

theorem getAssertionRaw_scoped_iff_sample :
    Scoped (Sample.platform []) Sample.outside Sample.getParams (Sample.registered "example.com")
        Sample.getRequest ↔
      InScope (Sample.platform []) Sample.outside Sample.getRequest true
        (Sample.registered "example.com") :=
  getAssertionRaw_scoped_iff _ _ _ _ true Sample.getCbor _ _ rfl Sample.gates_get Sample.parse_getCbor

/-- A request of example.com that lists the id of a credential of example.org is answered for
example.org, although no credential of example.com is listed, or there at all. -/
theorem foreign_descriptor_answered :
    (Sample.registered "example.org").isVaultOpen = true ∧
      gates (Sample.platform []) Sample.outside.ask (Sample.registered "example.org").opSignPubKey
        (Sample.registered "example.org").skipPluginSigVerify
        (Sample.registered "example.org").uvFallbackPrompt Sample.getParams getMethod =
          (.ok (true, Sample.getCbor), Sample.plugin.uvFallbackPrompt) ∧
      parseGetAssertionCbor Sample.getCbor = .ok Sample.getRequest ∧
      ¬ Scoped (Sample.platform []) Sample.outside Sample.getParams (Sample.registered "example.org")
        Sample.getRequest := by
  refine ⟨rfl, Sample.gates_get, Sample.parse_getCbor, fun within => ?_⟩
  obtain ⟨result, s', run⟩ := Sample.get_succeeds "example.org"
  obtain ⟨selected, _, signed, own, _⟩ := within.success result s' run
  have chosen := signed.selects
  rw [Sample.selects_registered, Except.ok.injEq] at chosen
  subst chosen
  exact absurd own (by decide)

end KeePassKeyWin.RelyingPartyScope
