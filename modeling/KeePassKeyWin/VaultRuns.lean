import KeePassKeyWin.TransitionRuns
import KeePassKeyWin.VaultOutcomes

set_option autoImplicit false

/-!
# What one request can do to the plugin

Whether it succeeds or not, a request leaves the key, the bypass variable, the number format
and the nonces alone, moves the latch of the prompt only through the gates, and changes the
records in one of four ways.
-/
namespace KeePassKeyWin.VaultRuns
open ByteStrings JsonRpc OutcomeRules PlatformServices FirstMatch CredentialEncodings
open PasskeyStore VaultGates CtapRequests VaultHandler VaultOutcomes TransitionRuns

/-- Everything but the database, the file and the keys used is as it was. -/
structure Kept (s t : Plugin) : Prop where
  isVaultOpen : t.isVaultOpen = s.isVaultOpen
  opSignPubKey : t.opSignPubKey = s.opSignPubKey
  uvFallbackPrompt : t.uvFallbackPrompt = s.uvFallbackPrompt
  skipPluginSigVerify : t.skipPluginSigVerify = s.skipPluginSigVerify
  culture : t.culture = s.culture
  nonce : t.nonce = s.nonce
  registryNonce : t.registryNonce = s.registryNonce
  vaultCalls : t.vaultCalls = s.vaultCalls

theorem Kept.refl (s : Plugin) : Kept s s := ⟨rfl, rfl, rfl, rfl, rfl, rfl, rfl, rfl⟩

theorem Kept.of_frame {s t : Plugin} (h : Frame s t) : Kept s t :=
  ⟨h.isVaultOpen, h.opSignPubKey, h.uvFallbackPrompt, h.skipPluginSigVerify, h.culture, h.nonce,
    h.registryNonce, h.vaultCalls⟩

theorem Kept.signed {s t : Plugin} (h : Kept s t) (pkcs8 : Bytes) :
    Kept s (Plugin.signed pkcs8 t) :=
  ⟨h.isVaultOpen, h.opSignPubKey, h.uvFallbackPrompt, h.skipPluginSigVerify, h.culture, h.nonce,
    h.registryNonce, h.vaultCalls⟩

/-- The request asks to delete this id. -/
def Deletes (method : String) (params : Option JToken) (credentialId : String) : Prop :=
  method = "keepasskeywin.deleteCredential" ∧ ∃ obj, params = some (.object obj) ∧
    stringField obj "credentialId" = .ok (some credentialId)

inductive Effect (P : Platform) (out : Outside) (method : String) (params : Option JToken)
    (s : Plugin) : List PwEntry → Prop
  | unchanged : Effect P out method params s s.entries
  | added (record : PasskeyRecord)
      (fresh : record.credentialId = Base64Url.encode out.credentialId) :
      Effect P out method params s (s.entries ++ [recordToEntry P s.culture record])
  | deleted (credentialId : String) (asked : Deletes method params credentialId) :
      Effect P out method params s (s.entries.eraseP (hasId credentialId))
  | counted (credentialId : String) (next : ℕ) (bounded : next < 2 ^ 32) :
      Effect P out method params s
        (modifyFirst (hasId credentialId) (PwEntry.setSignCount next) s.entries)

structure Ran (P : Platform) (out : Outside) (method : String) (params : Option JToken)
    (s t : Plugin) : Prop where
  kept : Kept s t
  effect : Effect P out method params s t.entries

section
variable {P : Platform} {out : Outside} {method : String} {params : Option JToken} {s t : Plugin}

theorem Ran.refl (s : Plugin) : Ran P out method params s s := ⟨.refl s, .unchanged⟩

theorem Ran.signed (h : Ran P out method params s t) (pkcs8 : Bytes) :
    Ran P out method params s (Plugin.signed pkcs8 t) :=
  ⟨h.kept.signed pkcs8, h.effect⟩

theorem Ran.signWithAlgorithm (h : Ran P out method params s t) (pkcs8 data : Bytes) (algId : ℤ) :
    Ran P out method params s (final (signWithAlgorithm P out pkcs8 data algId t)) := by
  unfold VaultHandler.signWithAlgorithm
  by_cases halg : algId = -7 ∨ algId = -257
  · simp only [halg, if_true, modify_bind]
    cases signatureOf P out.entropy pkcs8 data algId <;> exact h.signed pkcs8
  · simp only [halg, if_false, get_bind, throw_apply]
    exact h

theorem ran_add (hopen : s.isVaultOpen = true) (record : PasskeyRecord)
    (fresh : record.credentialId = Base64Url.encode out.credentialId) :
    Ran P out method params s (final (add P out record s)) := by
  obtain ⟨entries, frame⟩ := add_final P out record hopen
  exact ⟨.of_frame frame, entries ▸ .added record fresh⟩

theorem ran_createPasskey (hopen : s.isVaultOpen = true) :
    Ran P out method params s (final (createPasskey P out params s)) := by
  refine final_lift_bind (.refl s) fun obj _ => ?_
  refine final_lift_bind (.refl s) fun rpId _ => ?_
  refine final_lift_bind (.refl s) fun rpName _ => ?_
  refine final_lift_bind (.refl s) fun userHandle _ => ?_
  refine final_lift_bind (.refl s) fun userName _ => ?_
  refine final_lift_bind (.refl s) fun userDisplayName _ => ?_
  rw [get_bind]
  refine final_lift_bind (.refl s) fun key _ => ?_
  refine final_lift_bind (.refl s) fun authData _ => ?_
  exact final_bind_keeps (ran_add hopen _ rfl) fun _ _ h => h

/-- The prompt as the gates of a raw request leave it. -/
def gatesPrompt (P : Platform) (out : Outside) (method : String) (params : Option JToken)
    (s : Plugin) : Option UvFallbackPrompt :=
  (gates P out.ask s.opSignPubKey s.skipPluginSigVerify s.uvFallbackPrompt params method).2

theorem receiveRaw_final (method : String) (s : Plugin) :
    final (receiveRaw P out params method s) =
      Plugin.prompted (gatesPrompt P out method params s) s := by
  unfold receiveRaw gatesPrompt
  split <;> rename_i hg <;> simp [hg, Plugin.prompted]

theorem final_receiveRaw {α : Type} {f : Bool × Bytes → Vault α} {Q : Plugin → Prop}
    (stop : Q (Plugin.prompted (gatesPrompt P out method params s) s))
    (go : ∀ a, Q (final (f a (Plugin.prompted (gatesPrompt P out method params s) s)))) :
    Q (final ((receiveRaw P out params method >>= f) s)) := by
  have received : final (receiveRaw P out params method s) =
      Plugin.prompted (gatesPrompt P out method params s) s := receiveRaw_final method s
  refine final_bind (fun e t h => ?_) (fun a t h => ?_) <;> rw [h] at received <;>
    simp only [final_error, final_ok] at received <;> subst received
  · exact stop
  · exact go a

theorem ran_handleMakeCredentialRaw (hopen : s.isVaultOpen = true) :
    Ran P out makeMethod params (Plugin.prompted (gatesPrompt P out makeMethod params s) s)
      (final (handleMakeCredentialRaw P out params s)) := by
  refine final_receiveRaw (.refl _) fun _ => ?_
  refine final_lift_bind (.refl _) fun req _ => ?_
  rw [get_bind]
  refine final_lift_bind (.refl _) fun _ _ => ?_
  refine final_lift_bind (.refl _) fun alg _ => ?_
  refine final_lift_bind (.refl _) fun key _ => ?_
  refine final_lift_bind (.refl _) fun authData _ => ?_
  have open' : (Plugin.prompted (gatesPrompt P out makeMethod params s) s).isVaultOpen = true :=
    hopen
  exact final_bind_keeps (ran_add open' _ rfl) fun _ _ h => h

theorem ran_incrementSignCount (credentialId : String) :
    Ran P out method params s (final (incrementSignCount out credentialId s)) := by
  obtain ⟨same | ⟨next, bounded, counted⟩, frame⟩ := incrementSignCount_final out credentialId s
  · exact ⟨.of_frame frame, same ▸ .unchanged⟩
  · exact ⟨.of_frame frame, counted ▸ .counted credentialId next bounded⟩

theorem ran_assertWith (req : GetAssertionRequest) (uv : Bool) (selected : PasskeyRecord) :
    Ran P out method params s (final (assertWith P out req uv selected s)) := by
  refine final_bind_keeps (ran_incrementSignCount _) fun n t h => ?_
  refine final_lift_bind h fun pkcs8 _ => ?_
  refine final_bind_keeps (h.signWithAlgorithm _ _ _) fun signature u h => ?_
  refine final_lift_bind h fun rawId _ => ?_
  exact final_lift_bind h fun response _ => h

theorem ran_handleGetAssertionRaw :
    Ran P out getMethod params (Plugin.prompted (gatesPrompt P out getMethod params s) s)
      (final (handleGetAssertionRaw P out params s)) := by
  refine final_receiveRaw (.refl _) fun _ => ?_
  refine final_lift_bind (.refl _) fun req _ => ?_
  simp only [ite_run, throw_bind, get_bind]
  split_ifs
  · exact .refl _
  · exact final_lift_bind (.refl _) fun selected _ => ran_assertWith _ _ _

theorem ran_listCredentials : Ran P out method params s (final (listCredentials P params s)) := by
  refine final_lift_bind (.refl s) fun obj _ => ?_
  refine final_lift_bind (.refl s) fun rpId _ => ?_
  exact .refl s

theorem ran_signAssertion : Ran P out method params s (final (signAssertion P out params s)) := by
  refine final_lift_bind (.refl s) fun obj _ => ?_
  refine final_lift_bind (.refl s) fun credentialId _ => ?_
  refine final_lift_bind (.refl s) fun authData _ => ?_
  refine final_lift_bind (.refl s) fun hash _ => ?_
  rw [get_bind]
  cases s.findById P credentialId with
  | none => exact .refl s
  | some record =>
    refine final_lift_bind (.refl s) fun authDataBytes _ => ?_
    refine final_lift_bind (.refl s) fun clientDataHash _ => ?_
    refine final_lift_bind (.refl s) fun pkcs8 _ => ?_
    exact final_bind_keeps ((Ran.refl s).signWithAlgorithm _ _ _) fun signature t h => h

theorem ran_deleteCredential :
    Ran P out "keepasskeywin.deleteCredential" params s (final (deleteCredential out params s)) := by
  refine final_lift_bind (.refl s) fun obj hobj => ?_
  refine final_lift_bind (.refl s) fun credentialId hid => ?_
  obtain ⟨entries, frame⟩ := delete_final out credentialId s
  have asked : Deletes "keepasskeywin.deleteCredential" params credentialId :=
    ⟨rfl, obj, requireObject_ok.mp hobj, (requireString_ok.mp hid).1⟩
  have ran : Ran P out "keepasskeywin.deleteCredential" params s
      (final (delete out credentialId s)) :=
    ⟨.of_frame frame, entries ▸ .deleted credentialId asked⟩
  exact final_bind_keeps ran fun deleted t h => h

end

/-- The prompt after a request: only the gates of the two raw methods may move its latch. -/
def promptAfter (P : Platform) (out : Outside) (method : String) (params : Option JToken)
    (s : Plugin) : Option UvFallbackPrompt :=
  if s.isVaultOpen = true ∧ (method = makeMethod ∨ method = getMethod) then
    gatesPrompt P out method params s
  else s.uvFallbackPrompt

theorem handle_ran (P : Platform) (out : Outside) (method : String) (params : Option JToken)
    (s : Plugin) :
    Ran P out method params
      (Plugin.prompted (promptAfter P out method params s) (Plugin.called s))
      (final (handle P out method params s)) := by
  cases hopen : s.isVaultOpen with
  | false =>
    rw [handle_of_closed hopen, final_error, promptAfter, hopen]
    exact .refl _
  | true =>
    have open' : (Plugin.called s).isVaultOpen = true := hopen
    have other : ∀ {t : Plugin}, method ≠ makeMethod → method ≠ getMethod →
        Ran P out method params (Plugin.called s) t →
        Ran P out method params
          (Plugin.prompted (promptAfter P out method params s) (Plugin.called s)) t := by
      intro t hmake hget h
      rw [promptAfter, if_neg (by simp [hmake, hget])]
      exact h
    rw [handle_of_open hopen]
    unfold dispatchMethod
    split_ifs with h₁ h₂ h₃ h₄ h₅ h₆ h₇
    · subst h₁
      exact other (by decide) (by decide) (ran_createPasskey open')
    · subst h₂
      exact other (by decide) (by decide) ran_listCredentials
    · subst h₃
      exact other (by decide) (by decide) ran_signAssertion
    · subst h₄
      exact other (by decide) (by decide) ran_deleteCredential
    · subst h₅
      exact other (by decide) (by decide) (.refl _)
    · subst h₆
      rw [promptAfter, if_pos ⟨hopen, .inl rfl⟩]
      exact ran_handleMakeCredentialRaw open'
    · subst h₇
      rw [promptAfter, if_pos ⟨hopen, .inr rfl⟩]
      exact ran_handleGetAssertionRaw
    · exact other h₆ h₇ (.refl _)

theorem handle_prompt (P : Platform) (out : Outside) (method : String) (params : Option JToken)
    (s : Plugin) :
    (final (handle P out method params s)).uvFallbackPrompt = promptAfter P out method params s :=
  (handle_ran P out method params s).kept.uvFallbackPrompt

structure Request where
  out : Outside
  method : String
  params : Option JToken

def serve (P : Platform) (s : Plugin) (r : Request) (t : Plugin) : Prop :=
  t = final (handle P r.out r.method r.params s)

structure Held (s t : Plugin) : Prop where
  isVaultOpen : t.isVaultOpen = s.isVaultOpen
  opSignPubKey : t.opSignPubKey = s.opSignPubKey
  skipPluginSigVerify : t.skipPluginSigVerify = s.skipPluginSigVerify
  culture : t.culture = s.culture
  nonce : t.nonce = s.nonce
  registryNonce : t.registryNonce = s.registryNonce

theorem Held.refl (s : Plugin) : Held s s := ⟨rfl, rfl, rfl, rfl, rfl, rfl⟩

theorem Held.trans (s t u : Plugin) (h : Held s t) (h' : Held t u) : Held s u :=
  ⟨h'.isVaultOpen.trans h.isVaultOpen, h'.opSignPubKey.trans h.opSignPubKey,
    h'.skipPluginSigVerify.trans h.skipPluginSigVerify, h'.culture.trans h.culture,
    h'.nonce.trans h.nonce, h'.registryNonce.trans h.registryNonce⟩

theorem handle_held (P : Platform) (out : Outside) (method : String) (params : Option JToken)
    (s : Plugin) : Held s (final (handle P out method params s)) := by
  have kept := (handle_ran P out method params s).kept
  exact ⟨kept.isVaultOpen, kept.opSignPubKey, kept.skipPluginSigVerify, kept.culture, kept.nonce,
    kept.registryNonce⟩

theorem run_held {P : Platform} {s t : Plugin} {rs : List Request} (run : Run (serve P) s rs t) :
    Held s t := by
  refine run.relates Held.refl Held.trans ?_
  rintro s r _ rfl
  exact handle_held P r.out r.method r.params s

end KeePassKeyWin.VaultRuns
