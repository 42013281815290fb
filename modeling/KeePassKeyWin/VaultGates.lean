import KeePassKeyWin.EcdsaSignatures
import KeePassKeyWin.PasskeyStore

set_option autoImplicit false

/-!
# The two gates of a raw request

`VerifyAndDecodeCbor`, `VerifyUvSignatureOrPrompt` and `UvFallbackPrompt`. They read the
cached key, the bypass variable and the prompt's latch, and change the latch only.
-/
namespace KeePassKeyWin.VaultGates
open ByteStrings JsonRpc OutcomeRules PlatformServices PasskeyStore CredentialEncodings
open EcdsaSignatures

def skipPluginSigVerify : String := "KEEPASSKEYWIN_SKIP_PLUGIN_SIG_VERIFY"

def isBypassEnabled (value : Option String) : Bool :=
  match nonEmpty value with
  | none => false
  | some v => v == "1" || equalsIgnoreCase v "true" || equalsIgnoreCase v "yes"

def fromBase64OrInvalid (P : Platform) (s : String) (invalid : String → String) :
    Except Exn Bytes :=
  match fromBase64String P s with
  | .error (.format message) => .error (invalidParams (invalid message))
  | outcome => outcome

def verifyRequestSignature (P : Platform) (opSignPubKey : Option Bytes) (obj : JObject)
    (cborBytes : Bytes) (method : String) : Except Exn Unit := do
  match opSignPubKey with
  | none => throw (invalidParams s!"{method}: op-sign pubkey not cached (handshake did not deliver opSignPublicKeyB64). Set {skipPluginSigVerify}=1 to bypass for emergency.")
  | some pubKey =>
    match nonEmpty (← stringField obj "pbRequestSignatureB64") with
    | none => throw (invalidParams s!"{method}: pbRequestSignatureB64 param is required.")
    | some sigB64 =>
      let sigBytes ← fromBase64OrInvalid P sigB64 fun message =>
        s!"{method}: pbRequestSignatureB64 is not valid base64: {message}"
      if !(← verify P pubKey cborBytes sigBytes) then
        throw (invalidParams s!"{method}: pbRequestSignature verification failed.")

def verifyAndDecodeCbor (P : Platform) (opSignPubKey : Option Bytes) (bypass : Option String)
    (obj : JObject) (method : String) : Except Exn Bytes := do
  let cborB64 ← requireString obj "cbor"
  let cborBytes ← fromBase64OrInvalid P cborB64 fun message =>
    s!"{method}: 'cbor' is not valid base64: {message}"
  if isBypassEnabled bypass then return cborBytes
  verifyRequestSignature P opSignPubKey obj cborBytes method
  return cborBytes

/-- The user is asked at most once; a prompt that throws leaves the latch open. -/
def shouldProceed (prompt : UvFallbackPrompt) (ask : AskOutcome) :
    Except Exn Bool × UvFallbackPrompt :=
  if prompt.decided then (.ok prompt.decision, prompt)
  else
    match ask with
    | .yes => (.ok true, ⟨true, true, prompt.asked + 1⟩)
    | .no => (.ok false, ⟨true, false, prompt.asked + 1⟩)
    | .throws e => (.error e, { prompt with asked := prompt.asked + 1 })

def isV2 (uvTier : Option String) : Bool :=
  uvTier == some "v2_stable" || uvTier == some "v2_experimental"

def isV1 (uvTier : Option String) : Bool := uvTier == some "v1" || isNullOrEmpty uvTier

def verifyUvSignature (P : Platform) (opSignPubKey : Option Bytes) (uvSigB64 : Option String)
    (cborBytes : Bytes) (method : String) : Except Exn Unit := do
  match opSignPubKey with
  | none => throw (invalidParams s!"{method}: op-sign pubkey not cached.")
  | some pubKey =>
    let failed := s!"{method}: UV signature verification failed."
    match nonEmpty uvSigB64 with
    | none => throw (invalidParams failed)
    | some sigB64 =>
      let sigBytes ← fromBase64OrInvalid P sigB64 fun _ => failed
      if sigBytes = [] then throw (invalidParams failed)
      if !(← verifyAcceptingEitherFormat P pubKey cborBytes sigBytes) then
        throw (invalidParams failed)

def promptForFallback (ask : AskOutcome) (prompt : Option UvFallbackPrompt) (method : String) :
    Except Exn Unit × Option UvFallbackPrompt :=
  match prompt with
  | none => (.error (invalidParams s!"{method}: UV fallback prompt not configured."), none)
  | some prompt =>
    match shouldProceed prompt ask with
    | (.ok true, prompt) => (.ok (), some prompt)
    | (.ok false, prompt) =>
      (.error (invalidParams s!"{method}: user declined v1-fallback UV."), some prompt)
    | (.error (.rpc code message), prompt) => (.error (.rpc code message), some prompt)
    | (.error _, prompt) =>
      (.error (invalidParams s!"{method}: UV fallback prompt unavailable."), some prompt)

def verifyUvSignatureOrPrompt (P : Platform) (ask : AskOutcome) (opSignPubKey : Option Bytes)
    (prompt : Option UvFallbackPrompt) (obj : JObject) (cborBytes : Bytes) (method : String) :
    Except Exn Unit × Option UvFallbackPrompt :=
  match stringField obj "uvBindingTier" with
  | .error e => (.error e, prompt)
  | .ok uvTier =>
    match stringField obj "uvSignatureB64" with
    | .error e => (.error e, prompt)
    | .ok uvSigB64 =>
      if isV2 uvTier then (verifyUvSignature P opSignPubKey uvSigB64 cborBytes method, prompt)
      else if isV1 uvTier then promptForFallback ask prompt method
      else
        let tier := uvTier.getD ""
        (.error (invalidParams s!"{method}: unknown uvBindingTier '{tier}'."), prompt)

/-- What a raw request goes through before the first gate lets it pass: its parameters, its
`uv` flag, and the decoded bytes. -/
def beforePrompt (P : Platform) (opSignPubKey : Option Bytes) (bypass : Option String)
    (params : Option JToken) (method : String) : Except Exn (JObject × Bool × Bytes) := do
  let obj ← requireObject params method
  let uv ← boolField obj "uv"
  let cborBytes ← verifyAndDecodeCbor P opSignPubKey bypass obj method
  return (obj, uv, cborBytes)

def gates (P : Platform) (ask : AskOutcome) (opSignPubKey : Option Bytes) (bypass : Option String)
    (prompt : Option UvFallbackPrompt) (params : Option JToken) (method : String) :
    Except Exn (Bool × Bytes) × Option UvFallbackPrompt :=
  match beforePrompt P opSignPubKey bypass params method with
  | .error e => (.error e, prompt)
  | .ok (obj, uv, cborBytes) =>
    match verifyUvSignatureOrPrompt P ask opSignPubKey prompt obj cborBytes method with
    | (.ok (), prompt) => (.ok (uv, cborBytes), prompt)
    | (.error e, prompt) => (.error e, prompt)

/-- The `uv` flag and the bytes of a request that both gates let pass. -/
def receiveRaw (P : Platform) (out : Outside) (params : Option JToken) (method : String) :
    Vault (Bool × Bytes) := fun s =>
  match gates P out.ask s.opSignPubKey s.skipPluginSigVerify s.uvFallbackPrompt params method with
  | (.ok a, prompt) => .ok a { s with uvFallbackPrompt := prompt }
  | (.error e, prompt) => .error e { s with uvFallbackPrompt := prompt }

/-- `pbRequestSignatureB64` verifies over the bytes under the cached key. -/
def RequestSignatureVerifies (P : Platform) (opSignPubKey : Option Bytes) (obj : JObject)
    (cborBytes : Bytes) : Prop :=
  ∃ pubKey sigB64 sig, opSignPubKey = some pubKey ∧
    stringField obj "pbRequestSignatureB64" = .ok (some sigB64) ∧
    fromBase64String P sigB64 = .ok sig ∧ verify P pubKey cborBytes sig = .ok true

/-- The signature verifies as it stands, with 64 bytes, or after conversion from DER. -/
def VerifiesInEitherFormat (P : Platform) (pubKey cborBytes sig : Bytes) : Prop :=
  (sig.length = 64 ∧ verify P pubKey cborBytes sig = .ok true) ∨
    ∃ p1363, tryDerToP1363 sig = some p1363 ∧ verify P pubKey cborBytes p1363 = .ok true

def UvSignatureVerifies (P : Platform) (opSignPubKey : Option Bytes) (obj : JObject)
    (cborBytes : Bytes) : Prop :=
  ∃ pubKey sigB64 sig, opSignPubKey = some pubKey ∧
    stringField obj "uvSignatureB64" = .ok (some sigB64) ∧
    fromBase64String P sigB64 = .ok sig ∧ VerifiesInEitherFormat P pubKey cborBytes sig

def SaysYes (prompt : Option UvFallbackPrompt) (ask : AskOutcome) : Prop :=
  ∃ p, prompt = some p ∧ (p.decided = true ∧ p.decision = true ∨ p.decided = false ∧ ask = .yes)

def UvGranted (P : Platform) (ask : AskOutcome) (opSignPubKey : Option Bytes)
    (prompt : Option UvFallbackPrompt) (obj : JObject) (cborBytes : Bytes) : Prop :=
  ∃ uvTier, stringField obj "uvBindingTier" = .ok uvTier ∧
    ((uvTier = some "v2_stable" ∨ uvTier = some "v2_experimental") ∧
        UvSignatureVerifies P opSignPubKey obj cborBytes ∨
      (uvTier = some "v1" ∨ uvTier = none ∨ uvTier = some "") ∧ SaysYes prompt ask)

/-- The parameters are an object whose `cbor` decodes to these bytes. -/
def Carries (P : Platform) (params : Option JToken) (obj : JObject) (cborBytes : Bytes) : Prop :=
  params = some (.object obj) ∧
    ∃ cborB64, stringField obj "cbor" = .ok (some cborB64) ∧ fromBase64String P cborB64 = .ok cborBytes

def PassesGates (P : Platform) (ask : AskOutcome) (opSignPubKey : Option Bytes)
    (prompt : Option UvFallbackPrompt) (params : Option JToken) : Prop :=
  ∃ obj cborBytes, Carries P params obj cborBytes ∧
    RequestSignatureVerifies P opSignPubKey obj cborBytes ∧
      UvGranted P ask opSignPubKey prompt obj cborBytes

theorem fromBase64OrInvalid_ok {P : Platform} {s : String} {invalid : String → String}
    {bytes : Bytes} :
    fromBase64OrInvalid P s invalid = .ok bytes ↔ fromBase64String P s = .ok bytes := by
  unfold fromBase64OrInvalid
  split
  · rename_i h
    simp [h, invalidParams]
  · rfl

theorem fromBase64String_empty (P : Platform) : fromBase64String P "" = .ok [] := rfl

theorem verify_empty (P : Platform) (pubKey cborBytes : Bytes) :
    verify P pubKey cborBytes [] = .ok false := by
  simp [verify]

theorem verifyRequestSignature_ok {P : Platform} {key : Option Bytes} {obj : JObject}
    {cborBytes : Bytes} {method : String} :
    verifyRequestSignature P key obj cborBytes method = .ok () ↔
      RequestSignatureVerifies P key obj cborBytes := by
  constructor
  · intro h
    cases key with
    | none => simp [verifyRequestSignature, except_throw_ok] at h
    | some pubKey =>
      obtain ⟨field, hfield, h⟩ := except_bind_ok.mp h
      cases hne : nonEmpty field with
      | none => simp [hne, except_throw_ok] at h
      | some sigB64 =>
        rw [hne] at h
        obtain ⟨sig, hsig, h⟩ := except_bind_ok.mp h
        obtain ⟨verified, hv, h⟩ := except_bind_ok.mp h
        cases verified with
        | false => simp [except_throw_ok] at h
        | true =>
          exact ⟨pubKey, sigB64, sig, rfl, (nonEmpty_eq_some.mp hne).1 ▸ hfield,
            fromBase64OrInvalid_ok.mp hsig, hv⟩
  · rintro ⟨pubKey, sigB64, sig, rfl, hfield, hsig, hv⟩
    have hne : sigB64 ≠ "" := by
      rintro rfl
      rw [fromBase64String_empty, Except.ok.injEq] at hsig
      rw [← hsig, verify_empty, Except.ok.injEq] at hv
      exact Bool.false_ne_true hv
    have present : nonEmpty (some sigB64) = some sigB64 := nonEmpty_eq_some.mpr ⟨rfl, hne⟩
    simp only [verifyRequestSignature, hfield, present, fromBase64OrInvalid_ok.mpr hsig, hv, bind,
      Except.bind]
    rfl

theorem verifyAndDecodeCbor_ok {P : Platform} {key bypass : _} {obj : JObject} {cborBytes : Bytes}
    {method : String} (h : verifyAndDecodeCbor P key bypass obj method = .ok cborBytes) :
    (∃ cborB64, stringField obj "cbor" = .ok (some cborB64) ∧
      fromBase64String P cborB64 = .ok cborBytes) ∧
        (isBypassEnabled bypass = false → RequestSignatureVerifies P key obj cborBytes) := by
  obtain ⟨cborB64, hcbor, h⟩ := except_bind_ok.mp h
  obtain ⟨decoded, hdecoded, h⟩ := except_bind_ok.mp h
  have text := (requireString_ok.mp hcbor).1
  have bytes := fromBase64OrInvalid_ok.mp hdecoded
  cases hb : isBypassEnabled bypass with
  | true =>
    rw [hb] at h
    obtain rfl := except_pure_ok.mp h
    exact ⟨⟨cborB64, text, bytes⟩, by simp⟩
  | false =>
    rw [hb] at h
    obtain ⟨_, hsig, h⟩ := except_bind_ok.mp h
    obtain rfl := except_pure_ok.mp h
    exact ⟨⟨cborB64, text, bytes⟩, fun _ => verifyRequestSignature_ok.mp hsig⟩

theorem verifyAcceptingEitherFormat_true {P : Platform} {pubKey cborBytes sig : Bytes}
    (h : verifyAcceptingEitherFormat P pubKey cborBytes sig = .ok true) :
    VerifiesInEitherFormat P pubKey cborBytes sig := by
  unfold verifyAcceptingEitherFormat at h
  split_ifs at h with hempty hlen
  · simp at h
  · cases hfast : verify P pubKey cborBytes sig with
    | error e => simp [hfast] at h
    | ok fast =>
      cases fast with
      | true => exact .inl ⟨hlen, hfast⟩
      | false =>
        cases hder : tryDerToP1363 sig with
        | none => simp [hfast, hder] at h
        | some p1363 => exact .inr ⟨p1363, hder, by simpa [hfast, hder] using h⟩
  · cases hder : tryDerToP1363 sig with
    | none => simp [hder] at h
    | some p1363 => exact .inr ⟨p1363, hder, by simpa [hder] using h⟩

theorem verifyUvSignature_ok {P : Platform} {key : Option Bytes} {obj : JObject}
    {uvSigB64 : Option String} {cborBytes : Bytes} {method : String}
    (hfield : stringField obj "uvSignatureB64" = .ok uvSigB64)
    (h : verifyUvSignature P key uvSigB64 cborBytes method = .ok ()) :
    UvSignatureVerifies P key obj cborBytes := by
  cases key with
  | none => simp [verifyUvSignature, except_throw_ok] at h
  | some pubKey =>
    cases hne : nonEmpty uvSigB64 with
    | none => simp [verifyUvSignature, hne, except_throw_ok] at h
    | some sigB64 =>
      obtain ⟨rfl, _⟩ := nonEmpty_eq_some.mp hne
      simp only [verifyUvSignature, hne] at h
      obtain ⟨sig, hsig, h⟩ := except_bind_ok.mp h
      split_ifs at h
      · simp [bind, Except.bind, throw, throwThe, MonadExceptOf.throw] at h
      · obtain ⟨verified, hv, h⟩ := except_bind_ok.mp h
        cases verified with
        | false => simp [except_throw_ok] at h
        | true =>
          exact ⟨pubKey, sigB64, sig, rfl, hfield, fromBase64OrInvalid_ok.mp hsig,
            verifyAcceptingEitherFormat_true hv⟩

theorem promptForFallback_ok {ask : AskOutcome} {prompt prompt' : Option UvFallbackPrompt}
    {method : String} (h : promptForFallback ask prompt method = (.ok (), prompt')) :
    SaysYes prompt ask := by
  cases prompt with
  | none => simp [promptForFallback] at h
  | some p =>
    refine ⟨p, rfl, ?_⟩
    obtain ⟨decided, decision, asked⟩ := p
    cases decided with
    | true =>
      cases decision with
      | true => exact .inl ⟨rfl, rfl⟩
      | false => simp [promptForFallback, shouldProceed] at h
    | false =>
      cases ask with
      | yes => exact .inr ⟨rfl, rfl⟩
      | no => simp [promptForFallback, shouldProceed] at h
      | throws e => cases e <;> simp [promptForFallback, shouldProceed] at h

theorem isV2_iff {uvTier : Option String} :
    isV2 uvTier = true ↔ uvTier = some "v2_stable" ∨ uvTier = some "v2_experimental" := by
  simp [isV2]

theorem isV1_iff {uvTier : Option String} :
    isV1 uvTier = true ↔ uvTier = some "v1" ∨ uvTier = none ∨ uvTier = some "" := by
  cases uvTier <;> simp [isV1, isNullOrEmpty]

theorem verifyUvSignatureOrPrompt_ok {P : Platform} {ask : AskOutcome} {key : Option Bytes}
    {prompt prompt' : Option UvFallbackPrompt} {obj : JObject} {cborBytes : Bytes}
    {method : String}
    (h : verifyUvSignatureOrPrompt P ask key prompt obj cborBytes method = (.ok (), prompt')) :
    UvGranted P ask key prompt obj cborBytes := by
  unfold verifyUvSignatureOrPrompt at h
  cases htier : stringField obj "uvBindingTier" with
  | error e => simp [htier] at h
  | ok uvTier =>
    cases hsig : stringField obj "uvSignatureB64" with
    | error e => simp [htier, hsig] at h
    | ok uvSigB64 =>
      simp only [htier, hsig] at h
      refine ⟨uvTier, htier, ?_⟩
      split_ifs at h with h2 h1
      · exact .inl ⟨isV2_iff.mp h2, verifyUvSignature_ok hsig (Prod.mk.inj h).1⟩
      · exact .inr ⟨isV1_iff.mp h1, promptForFallback_ok h⟩
      · simp at h

/-- What the gates let pass carries the bytes they hand on; without the bypass, both of them
granted it. -/
theorem gates_ok {P : Platform} {ask : AskOutcome} {key : Option Bytes} {bypass : Option String}
    {prompt prompt' : Option UvFallbackPrompt} {params : Option JToken} {method : String}
    {uv : Bool} {cborBytes : Bytes}
    (h : gates P ask key bypass prompt params method = (.ok (uv, cborBytes), prompt')) :
    ∃ obj, Carries P params obj cborBytes ∧ boolField obj "uv" = .ok uv ∧
      UvGranted P ask key prompt obj cborBytes ∧
        (isBypassEnabled bypass = false → RequestSignatureVerifies P key obj cborBytes) := by
  unfold gates at h
  split at h
  · simp at h
  · rename_i obj uv' decoded hbefore
    split at h
    · rename_i prompt'' huv
      obtain ⟨hout, _⟩ := Prod.mk.inj h
      obtain ⟨rfl, rfl⟩ := Prod.mk.inj (Except.ok.inj hout)
      obtain ⟨obj', hobj, rest⟩ := except_bind_ok.mp hbefore
      obtain ⟨flag, hflag, rest⟩ := except_bind_ok.mp rest
      obtain ⟨bytes, hbytes, rest⟩ := except_bind_ok.mp rest
      obtain ⟨rfl, same⟩ := Prod.mk.inj (except_pure_ok.mp rest)
      obtain ⟨rfl, rfl⟩ := Prod.mk.inj same
      obtain ⟨hcbor, hsig⟩ := verifyAndDecodeCbor_ok hbytes
      exact ⟨obj', ⟨requireObject_ok.mp hobj, hcbor⟩, hflag, verifyUvSignatureOrPrompt_ok huv, hsig⟩
    · simp at h

theorem gates_passes {P : Platform} {ask : AskOutcome} {key : Option Bytes}
    {bypass : Option String} {prompt prompt' : Option UvFallbackPrompt} {params : Option JToken}
    {method : String} {uv : Bool} {cborBytes : Bytes} (unset : isBypassEnabled bypass = false)
    (h : gates P ask key bypass prompt params method = (.ok (uv, cborBytes), prompt')) :
    PassesGates P ask key prompt params := by
  obtain ⟨obj, carries, _, granted, verifies⟩ := gates_ok h
  exact ⟨obj, cborBytes, carries, verifies unset, granted⟩

theorem shouldProceed_decided {p : UvFallbackPrompt} (h : p.decided = true) (ask : AskOutcome) :
    shouldProceed p ask = (.ok p.decision, p) := by
  simp [shouldProceed, h]

theorem gates_decided {P : Platform} {ask : AskOutcome} {key : Option Bytes}
    {bypass : Option String} {p : UvFallbackPrompt} {params : Option JToken} {method : String}
    (h : p.decided = true) :
    (gates P ask key bypass (some p) params method).2 = some p := by
  have prompted : (promptForFallback ask (some p) method).2 = some p := by
    simp only [promptForFallback, shouldProceed_decided h]
    cases p.decision <;> rfl
  have verified : ∀ obj cborBytes,
      (verifyUvSignatureOrPrompt P ask key (some p) obj cborBytes method).2 = some p := by
    intro obj cborBytes
    unfold verifyUvSignatureOrPrompt
    split
    · rfl
    · split
      · rfl
      · split_ifs
        · rfl
        · exact prompted
        · rfl
  unfold gates
  split
  · rfl
  · rename_i obj uv cborBytes _
    have kept := verified obj cborBytes
    split <;> rename_i hv <;> rwa [hv] at kept

end KeePassKeyWin.VaultGates
