import KeePassKeyWin.VaultRuns

set_option autoImplicit false

/-!
# Nothing happens before the gates let a request pass

Two runs of a refused request on two vaults end alike, and the latch of the v1 prompt over
a sequence of requests.
-/
namespace KeePassKeyWin.GateSafety
open ByteStrings JsonRpc OutcomeRules PlatformServices PasskeyStore VaultGates CtapRequests
open CredentialEncodings EcdsaSignatures VaultHandler VaultOutcomes VaultRuns TransitionRuns

def IsRaw (method : String) : Prop := method = makeMethod ∨ method = getMethod

def verdict (P : Platform) (out : Outside) (method : String) (params : Option JToken)
    (s : Plugin) : Except Exn (Bool × Bytes) :=
  (gates P out.ask s.opSignPubKey s.skipPluginSigVerify s.uvFallbackPrompt params method).1

structure Untouched (s t : Plugin) : Prop where
  database : t.database = s.database
  file : t.file = s.file
  keyUses : t.keyUses = s.keyUses

/-- A v1 request that the first gate lets pass, so that the prompt decides on it. -/
structure AsksPrompt (P : Platform) (method : String) (params : Option JToken) (s : Plugin)
    (uv : Bool) (cborBytes : Bytes) : Prop where
  reaches : ∃ obj uvTier uvSigB64,
    beforePrompt P s.opSignPubKey s.skipPluginSigVerify params method = .ok (obj, uv, cborBytes) ∧
      stringField obj "uvBindingTier" = .ok uvTier ∧ isV1 uvTier = true ∧
        stringField obj "uvSignatureB64" = .ok uvSigB64

def decidedVerdict (method : String) (uv : Bool) (cborBytes : Bytes) :
    Bool → Except Exn (Bool × Bytes)
  | true => .ok (uv, cborBytes)
  | false => .error (invalidParams s!"{method}: user declined v1-fallback UV.")

section
variable {P : Platform} {out : Outside} {method : String} {params : Option JToken} {s : Plugin}

theorem handle_refused (raw : IsRaw method) (hopen : s.isVaultOpen = true) {e : Exn}
    (refused : verdict P out method params s = .error e) :
    handle P out method params s =
      .error e (Plugin.prompted (gatesPrompt P out method params s) (Plugin.called s)) := by
  have received : receiveRaw P out params method (Plugin.called s) =
      .error e (Plugin.prompted (gatesPrompt P out method params s) (Plugin.called s)) := by
    have hg : gates P out.ask s.opSignPubKey s.skipPluginSigVerify s.uvFallbackPrompt params
        method = (.error e, gatesPrompt P out method params s) := Prod.ext refused rfl
    unfold receiveRaw
    simp only [Plugin.called, hg]
    rfl
  rw [handle_of_open hopen]
  rcases raw with rfl | rfl
  · rw [dispatchMethod_make, handleMakeCredentialRaw, bind_of_error received]
  · rw [dispatchMethod_get, handleGetAssertionRaw, bind_of_error received]

theorem verdict_error (method : String) (unset : isBypassEnabled s.skipPluginSigVerify = false)
    (fails : ¬ PassesGates P out.ask s.opSignPubKey s.uvFallbackPrompt params) :
    ∃ e, verdict P out method params s = .error e := by
  cases h : verdict P out method params s with
  | error e => exact ⟨e, rfl⟩
  | ok a =>
    have hg : gates P out.ask s.opSignPubKey s.skipPluginSigVerify s.uvFallbackPrompt params
        method = (.ok (a.1, a.2), gatesPrompt P out method params s) := Prod.ext h rfl
    exact absurd (gates_passes unset hg) fails

theorem gates_asksPrompt {uv : Bool} {cborBytes : Bytes} {p : UvFallbackPrompt}
    (asks : AsksPrompt P method params s uv cborBytes) (hp : s.uvFallbackPrompt = some p)
    (out : Outside) :
    verdict P out method params s =
      (match (promptForFallback out.ask (some p) method).1 with
      | .ok () => .ok (uv, cborBytes)
      | .error e => .error e) ∧
      gatesPrompt P out method params s = (promptForFallback out.ask (some p) method).2 := by
  obtain ⟨obj, uvTier, uvSigB64, hbefore, htier, hv1, hsig⟩ := asks.reaches
  have hv2 : isV2 uvTier = false := by
    rcases isV1_iff.mp hv1 with rfl | rfl | rfl <;> decide
  have prompted : verifyUvSignatureOrPrompt P out.ask s.opSignPubKey (some p) obj cborBytes method =
      promptForFallback out.ask (some p) method := by
    simp [verifyUvSignatureOrPrompt, htier, hsig, hv2, hv1]
  unfold verdict gatesPrompt gates
  simp only [hbefore, hp, prompted]
  rcases promptForFallback out.ask (some p) method with ⟨_ | _, q⟩ <;> exact ⟨rfl, rfl⟩

theorem verdict_of_decided {uv : Bool} {cborBytes : Bytes} {p : UvFallbackPrompt}
    (asks : AsksPrompt P method params s uv cborBytes) (hp : s.uvFallbackPrompt = some p)
    (decided : p.decided = true) :
    verdict P out method params s = decidedVerdict method uv cborBytes p.decision := by
  rw [(gates_asksPrompt asks hp out).1, promptForFallback, shouldProceed_decided decided]
  cases p.decision <;> rfl

theorem handle_decided {p : UvFallbackPrompt} (hp : s.uvFallbackPrompt = some p)
    (decided : p.decided = true) :
    (final (handle P out method params s)).uvFallbackPrompt = some p := by
  rw [handle_prompt P out method params s]
  unfold promptAfter gatesPrompt
  split_ifs
  · rw [hp, gates_decided decided]
  · exact hp

end

theorem run_decided {P : Platform} {s t : Plugin} {rs : List Request}
    (run : Run (serve P) s rs t) {p : UvFallbackPrompt} (hp : s.uvFallbackPrompt = some p)
    (decided : p.decided = true) : t.uvFallbackPrompt = some p := by
  refine run.invariant (I := fun s => s.uvFallbackPrompt = some p) ?_ hp
  rintro s r _ hs rfl
  exact handle_decided hs decided

theorem shouldProceed_asked {p q : UvFallbackPrompt} (hd : q.decided = p.decided)
    (hc : q.decision = p.decision) (ask : AskOutcome) :
    (shouldProceed q ask).1 = (shouldProceed p ask).1 := by
  unfold shouldProceed
  rw [hd, hc]
  split_ifs
  · rfl
  · cases ask <;> rfl

/-- The verdict does not depend on how often the user was asked. -/
theorem gates_asked {P : Platform} {ask : AskOutcome} {key : Option Bytes} {bypass : Option String}
    {p q : UvFallbackPrompt} (hd : q.decided = p.decided) (hc : q.decision = p.decision)
    (params : Option JToken) (method : String) :
    (gates P ask key bypass (some q) params method).1 =
      (gates P ask key bypass (some p) params method).1 := by
  have prompted : (promptForFallback ask (some q) method).1 =
      (promptForFallback ask (some p) method).1 := by
    have asked := shouldProceed_asked hd hc ask
    simp only [promptForFallback]
    revert asked
    rcases shouldProceed q ask with ⟨q₁, q₂⟩
    rcases shouldProceed p ask with ⟨p₁, p₂⟩
    rintro ⟨⟩
    rcases q₁ with (_ | _ | _ | _) | _ | _ <;> rfl
  have verified : ∀ obj cborBytes,
      (verifyUvSignatureOrPrompt P ask key (some q) obj cborBytes method).1 =
        (verifyUvSignatureOrPrompt P ask key (some p) obj cborBytes method).1 := by
    intro obj cborBytes
    unfold verifyUvSignatureOrPrompt
    split
    · rfl
    · split
      · rfl
      · split_ifs
        · rfl
        · exact prompted
        · rfl
  unfold gates
  split
  · rfl
  · rename_i obj uv cborBytes _
    have same := verified obj cborBytes
    revert same
    rcases verifyUvSignatureOrPrompt P ask key (some q) obj cborBytes method with ⟨q₁, q₂⟩
    rcases verifyUvSignatureOrPrompt P ask key (some p) obj cborBytes method with ⟨p₁, p₂⟩
    rintro ⟨⟩
    rcases q₁ with _ | _ <;> rfl

/-- A prompt that throws ends its own request and leaves the verdict on every other as it
was. -/
theorem handle_throws {P : Platform} {out : Outside} {method : String} {params : Option JToken}
    {s : Plugin} (raw : IsRaw method) (hopen : s.isVaultOpen = true) {uv : Bool}
    {cborBytes : Bytes} {p : UvFallbackPrompt} (asks : AsksPrompt P method params s uv cborBytes)
    (hp : s.uvFallbackPrompt = some p) (undecided : p.decided = false) {e : Exn}
    (throws : out.ask = .throws e) :
    ∃ e' t, handle P out method params s = .error e' t ∧ Untouched s t ∧
      t.uvFallbackPrompt = some { p with asked := p.asked + 1 } ∧
        ∀ out' method' params', verdict P out' method' params' t =
          verdict P out' method' params' s := by
  obtain ⟨hverdict, hprompt⟩ := gates_asksPrompt asks hp out
  obtain ⟨e', prompted⟩ : ∃ e', promptForFallback out.ask (some p) method =
      (.error e', some { p with asked := p.asked + 1 }) := by
    simp only [promptForFallback, shouldProceed, undecided, throws, Bool.false_eq_true, if_false]
    cases e <;> exact ⟨_, rfl⟩
  rw [prompted] at hverdict hprompt
  refine ⟨e', _, handle_refused raw hopen hverdict, ⟨rfl, rfl, rfl⟩, hprompt, ?_⟩
  intro out' method' params'
  unfold verdict
  rw [show (Plugin.prompted (gatesPrompt P out method params s) (Plugin.called s)).uvFallbackPrompt =
    some { p with asked := p.asked + 1 } from hprompt, hp]
  exact gates_asked (p := p) (q := { p with asked := p.asked + 1 }) rfl rfl params' method'

theorem handle_answers {P : Platform} {out : Outside} {method : String} {params : Option JToken}
    {s : Plugin} (raw : IsRaw method) (hopen : s.isVaultOpen = true) {uv : Bool}
    {cborBytes : Bytes} {p : UvFallbackPrompt} (asks : AsksPrompt P method params s uv cborBytes)
    (hp : s.uvFallbackPrompt = some p) (undecided : p.decided = false) {answer : Bool}
    (answers : out.ask = if answer then .yes else .no) :
    verdict P out method params s = decidedVerdict method uv cborBytes answer ∧
      (final (handle P out method params s)).uvFallbackPrompt =
        some ⟨true, answer, p.asked + 1⟩ := by
  obtain ⟨hverdict, hprompt⟩ := gates_asksPrompt asks hp out
  have after : promptAfter P out method params s = gatesPrompt P out method params s :=
    if_pos ⟨hopen, raw⟩
  rw [handle_prompt P out method params s, after, hverdict, hprompt, answers]
  cases answer <;>
    simp [promptForFallback, shouldProceed, undecided, decidedVerdict]

/-- A raw request that does not pass both gates ends in the same error on any two vaults and
leaves them untouched. Over any sequence of requests, a prompt that has decided stays as it is
and decides every v1 request; one that answers decides; one that throws fails its own request
only. -/
theorem raw_requests_gated (P : Platform) :
    (∀ out method params s₁ s₂, IsRaw method → s₁.isVaultOpen = true → s₂.isVaultOpen = true →
      s₁.opSignPubKey = s₂.opSignPubKey → s₁.skipPluginSigVerify = s₂.skipPluginSigVerify →
      s₁.uvFallbackPrompt = s₂.uvFallbackPrompt →
      isBypassEnabled s₁.skipPluginSigVerify = false →
      ¬ PassesGates P out.ask s₁.opSignPubKey s₁.uvFallbackPrompt params →
      ∃ e t₁ t₂, handle P out method params s₁ = .error e t₁ ∧
        handle P out method params s₂ = .error e t₂ ∧ Untouched s₁ t₁ ∧ Untouched s₂ t₂) ∧
    (∀ s rs t p, Run (serve P) s rs t → s.uvFallbackPrompt = some p → p.decided = true →
      t.uvFallbackPrompt = some p ∧ ∀ out method params uv cborBytes,
        AsksPrompt P method params t uv cborBytes →
        verdict P out method params t = decidedVerdict method uv cborBytes p.decision) ∧
    (∀ out method params s uv cborBytes p, IsRaw method → s.isVaultOpen = true →
      AsksPrompt P method params s uv cborBytes → s.uvFallbackPrompt = some p →
      p.decided = false →
      (∀ answer : Bool, out.ask = (if answer then .yes else .no) →
        verdict P out method params s = decidedVerdict method uv cborBytes answer ∧
          (final (handle P out method params s)).uvFallbackPrompt =
            some ⟨true, answer, p.asked + 1⟩) ∧
      (∀ e, out.ask = .throws e → ∃ e' t, handle P out method params s = .error e' t ∧
        Untouched s t ∧ t.uvFallbackPrompt = some { p with asked := p.asked + 1 } ∧
        ∀ out' method' params',
          verdict P out' method' params' t = verdict P out' method' params' s)) := by
  refine ⟨?_, ?_, ?_⟩
  · intro out method params s₁ s₂ raw open₁ open₂ key bypass prompt unset fails
    obtain ⟨e, refused⟩ := verdict_error method unset fails
    have refused₂ : verdict P out method params s₂ = .error e := by
      unfold verdict at refused ⊢
      rw [← key, ← bypass, ← prompt]
      exact refused
    exact ⟨e, _, _, handle_refused raw open₁ refused, handle_refused raw open₂ refused₂,
      ⟨rfl, rfl, rfl⟩, ⟨rfl, rfl, rfl⟩⟩
  · intro s rs t p run hp decided
    have latched := run_decided run hp decided
    exact ⟨latched, fun out method params uv cborBytes asks =>
      verdict_of_decided asks latched decided⟩
  · intro out method params s uv cborBytes p raw hopen asks hp undecided
    exact ⟨fun answer answers => handle_answers raw hopen asks hp undecided answers,
      fun e throws => handle_throws raw hopen asks hp undecided throws⟩

namespace Sample
open VaultOutcomes.Sample

/-- The request of `getParams` with a signature that was made for something else. -/
def forgedParams : Option JToken := rawParams getCbor otherSignature

theorem forged_fails (prompt : Option UvFallbackPrompt) :
    ¬ PassesGates (platform []) outside.ask (some opSignPubKey) prompt forgedParams := by
  rintro ⟨obj, cborBytes, ⟨same, cborB64, cbor, decodes⟩, ⟨key, sigB64, sig, known, signature, reads,
    verifies⟩, _⟩
  obtain rfl := JToken.object.inj (Option.some.inj same)
  obtain rfl := Option.some.inj known
  obtain rfl := Option.some.inj (Except.ok.inj cbor)
  obtain rfl := Option.some.inj (Except.ok.inj signature)
  rw [fromBase64String_toBase64String] at decodes reads
  obtain rfl := Except.ok.inj decodes
  obtain rfl := Except.ok.inj reads
  revert verifies
  decide +kernel

def requests : List Request :=
  [⟨outside, getMethod, forgedParams⟩, ⟨outside, getMethod, getParams⟩]

def afterRequests : Plugin :=
  final (handle (platform []) outside getMethod getParams
    (final (handle (platform []) outside getMethod forgedParams (registered "example.com"))))

theorem run_requests :
    Run (serve (platform [])) (registered "example.com") requests afterRequests :=
  .cons rfl (.single rfl)

theorem asksPrompt_get {s : Plugin} (key : s.opSignPubKey = some opSignPubKey)
    (bypass : s.skipPluginSigVerify = none) :
    AsksPrompt (platform []) getMethod getParams s true getCbor where
  reaches := by
    rw [key, bypass]
    exact ⟨rawFields getCbor getSignature, some "v1", none, beforePrompt_get, rfl, rfl, rfl⟩

end Sample

/-- A forged request on two vaults; a run that the prompt's answer outlasts; and the prompt, asked
by a request that is answered and by one that finds no window to ask in. -/
theorem raw_requests_gated_sample :
    (∃ e t₁ t₂,
      handle (Sample.platform []) Sample.outside getMethod Sample.forgedParams Sample.plugin =
        .error e t₁ ∧
      handle (Sample.platform []) Sample.outside getMethod Sample.forgedParams
        (Sample.registered "example.com") = .error e t₂ ∧
      Untouched Sample.plugin t₁ ∧ Untouched (Sample.registered "example.com") t₂) ∧
    (Run (serve (Sample.platform [])) (Sample.registered "example.com") Sample.requests
        Sample.afterRequests ∧
      Sample.afterRequests.uvFallbackPrompt = some ⟨true, true, 1⟩ ∧
      verdict (Sample.platform []) Sample.outside getMethod Sample.getParams Sample.afterRequests =
        decidedVerdict getMethod true Sample.getCbor true) ∧
    (final (handle (Sample.platform []) Sample.outside getMethod Sample.getParams
      { Sample.plugin with uvFallbackPrompt := some ⟨false, false, 0⟩ })).uvFallbackPrompt =
        some ⟨true, true, 1⟩ ∧
    ∃ e t, handle (Sample.platform []) { Sample.outside with ask := .throws (.other "No window.") }
        getMethod Sample.getParams { Sample.plugin with uvFallbackPrompt := some ⟨false, false, 0⟩ } =
      .error e t ∧ t.uvFallbackPrompt = some ⟨false, false, 1⟩ := by
  obtain ⟨refuses, latches, asks⟩ := raw_requests_gated (Sample.platform [])
  have held := run_held Sample.run_requests
  obtain ⟨latched, decides⟩ :=
    latches _ _ _ ⟨true, true, 1⟩ Sample.run_requests rfl rfl
  have undecided := asks Sample.outside getMethod Sample.getParams
    { Sample.plugin with uvFallbackPrompt := some ⟨false, false, 0⟩ } true Sample.getCbor
    ⟨false, false, 0⟩ (.inr rfl) rfl (Sample.asksPrompt_get rfl rfl) rfl rfl
  obtain ⟨e, t, throws, _, asked, _⟩ := (asks
    { Sample.outside with ask := .throws (.other "No window.") } getMethod Sample.getParams
    { Sample.plugin with uvFallbackPrompt := some ⟨false, false, 0⟩ } true Sample.getCbor
    ⟨false, false, 0⟩ (.inr rfl) rfl (Sample.asksPrompt_get rfl rfl) rfl rfl).2 _ rfl
  refine ⟨?_, ⟨Sample.run_requests, latched, ?_⟩, (undecided.1 true rfl).2, e, t, throws, asked⟩
  · exact refuses Sample.outside getMethod Sample.forgedParams Sample.plugin
      (Sample.registered "example.com") (.inr rfl) rfl rfl rfl rfl rfl rfl (Sample.forged_fails _)
  · exact decides Sample.outside getMethod Sample.getParams true Sample.getCbor
      (Sample.asksPrompt_get held.opSignPubKey held.skipPluginSigVerify)

end KeePassKeyWin.GateSafety
