import KeePassKeyWin.RequestEffects
import KeePassKeyWin.SidecarCalls

set_option autoImplicit false

/-!
# Registrations and the retry

A registration whose answer is lost to a stale pipe is sent again. How many entries one dispatch
adds is counted over the requests that the plugin handled for it.
-/
namespace KeePassKeyWin.RetryRegistration
open ByteStrings JsonRpc OutcomeRules PlatformServices FirstMatch CredentialEncodings PasskeyStore
open VaultGates CtapRequests VaultHandler VaultOutcomes VaultRuns RequestEffects PipeServer
open SidecarCalls

def addedBy (P : Platform) (h : Handled) : ℕ :=
  (h.after P).plugin.entries.length - h.session.plugin.entries.length

def added (P : Platform) (handled : List Handled) : ℕ := (handled.map (addedBy P)).sum

/-- The registration passes every check in front of `Add`. -/
def Adds (P : Platform) (w : Meeting) (params : JToken) : Prop :=
  ∃ record, Registers P w.out makeMethod (some params) w.plugin record

/-- The request reaches the plugin, whatever becomes of the answer. -/
def Arrives (w : Meeting) : Prop := ∀ kind, w.passage ≠ .unsent kind

/-- The pipe goes stale between the plugin's `Add` and the read of its answer, and the request
that is sent again over a new connection is registered, too. -/
structure RegistersTwice (P : Platform) (w : World) (link : Link) (params : JToken) : Prop where
  lost : ∃ kind, w.first.passage = .unread kind ∧ classifyRpcError (.io kind) = .stale
  greeted : link.Greeted
  first : Adds P w.first params
  reconnects : Reconnects P w.reconnect
  arrives : Arrives w.second
  second : Adds P w.second params

section
variable {P : Platform}

theorem added_nil : added P [] = 0 := rfl

theorem added_singleton (h : Handled) : added P [h] = addedBy P h := by simp [added]

theorem added_append (hs ks : List Handled) : added P (hs ++ ks) = added P hs + added P ks := by
  simp [added]

theorem added_of_database {h : Handled}
    (same : (h.after P).plugin.database = h.session.plugin.database) : addedBy P h = 0 := by
  have entries : (h.after P).plugin.entries = h.session.plugin.entries := by
    simp only [Plugin.entries, Plugin.findPasskeysGroup, same]
  simp [addedBy, entries]

theorem added_hello {h : Handled} (hello : h.request.method = helloMethod) : addedBy P h = 0 := by
  refine added_of_database ?_
  have outcome := handleHello_outcome P h.out h.request.params h.session
  unfold Handled.after respond
  rw [dispatch_hello hello]
  generalize handleHello P h.out h.request.params h.session = r at outcome ⊢
  cases outcome with
  | refused e t _ _ frame => exact frame.database
  | accepted t key _ _ _ _ frame => exact frame.database
  | keyRefused e t _ _ _ _ frame => exact frame.database

theorem added_ungreeted {link : Link} {w : Meeting} {params : JToken} (ungreeted : ¬ link.Greeted) :
    addedBy P (link.handled w makeMethod params) = 0 := by
  have fresh : link.context.handshakeComplete = false := by simpa [Link.Greeted] using ungreeted
  refine added_of_database ?_
  unfold Handled.after respond
  rw [dispatch_ungreeted (by decide : makeMethod ≠ helloMethod) fresh]

theorem after_greeted {link : Link} (greeted : link.Greeted) (w : Meeting) (params : JToken) :
    ((link.handled w makeMethod params).after P).plugin =
      final (handle P w.out makeMethod (some params) w.plugin) :=
  respond_greeted (by decide : makeMethod ≠ helloMethod) greeted

theorem added_of_adds {link : Link} (greeted : link.Greeted) {w : Meeting} {params : JToken}
    (adds : Adds P w params) : addedBy P (link.handled w makeMethod params) = 1 := by
  obtain ⟨record, registers⟩ := adds
  have before : (link.handled w makeMethod params).session.plugin = w.plugin := rfl
  rw [addedBy, after_greeted greeted, (handle_registers registers).1, before,
    List.length_append]
  simp

theorem counts_length {es es' : List PwEntry} (h : Counts es es') : es'.length = es.length := by
  cases h with
  | same => rfl
  | next id e _ _ => exact modifyFirst_length _

theorem added_of_not_adds {link : Link} {w : Meeting} {params : JToken}
    (unregistered : ¬ Adds P w params) : addedBy P (link.handled w makeMethod params) = 0 := by
  by_cases greeted : link.Greeted
  · have counts : CountsTo w.plugin (final (handle P w.out makeMethod (some params) w.plugin)) :=
      handle_counts (fun record registers => unregistered ⟨record, registers⟩) fun id deletes => by
        have method := deletes.1.1
        exact absurd method (by decide)
    have before : (link.handled w makeMethod params).session.plugin = w.plugin := rfl
    rw [addedBy, after_greeted greeted, before, counts_length counts, Nat.sub_self]
  · exact added_ungreeted greeted

theorem added_le_one (link : Link) (w : Meeting) (params : JToken) :
    addedBy P (link.handled w makeMethod params) ≤ 1 := by
  by_cases adds : Adds P w params
  · by_cases greeted : link.Greeted
    · exact (added_of_adds greeted adds).le
    · exact (added_ungreeted greeted).le.trans (Nat.zero_le 1)
  · exact (added_of_not_adds adds).le.trans (Nat.zero_le 1)

theorem call_handled (link : Link) (w : Meeting) (method : String) (params : JToken) :
    (link.call P w method params).handled = [] ∨
      Arrives w ∧ (link.call P w method params).handled = [link.handled w method params] := by
  unfold Link.call Arrives
  cases w.passage with
  | unsent kind => exact .inl rfl
  | answered => exact .inr ⟨by simp, rfl⟩
  | unread kind => exact .inr ⟨by simp, rfl⟩
  | undecodable => exact .inr ⟨by simp, rfl⟩

theorem call_arrives {link : Link} {w : Meeting} {method : String} {params : JToken}
    (arrives : Arrives w) :
    (link.call P w method params).handled = [link.handled w method params] := by
  unfold Link.call
  cases hp : w.passage with
  | unsent kind => exact absurd hp (arrives kind)
  | answered => rfl
  | unread kind => rfl
  | undecodable => rfl

theorem call_added_le_one (link : Link) (w : Meeting) (params : JToken) :
    added P (link.call P w makeMethod params).handled ≤ 1 := by
  rcases call_handled (P := P) link w makeMethod params with none | ⟨_, one⟩
  · rw [none]
    exact Nat.zero_le 1
  · rw [one, added_singleton]
    exact added_le_one link w params

theorem call_added_pos {link : Link} {w : Meeting} {params : JToken}
    (pos : 0 < added P (link.call P w makeMethod params).handled) :
    Arrives w ∧ link.Greeted ∧ Adds P w params := by
  rcases call_handled (P := P) link w makeMethod params with none | ⟨arrives, one⟩
  · rw [none, added_nil] at pos
    omega
  · rw [one, added_singleton] at pos
    refine ⟨arrives, ?_, ?_⟩
    · by_contra ungreeted
      rw [added_ungreeted ungreeted] at pos
      omega
    · by_contra unregistered
      rw [added_of_not_adds unregistered] at pos
      omega

theorem connect_added (w : Connecting) : added P (connectAndHandshake P w).handled = 0 := by
  have hello : ∀ nonce keyBytes,
      added P (Link.fresh.call P w.hello helloMethod (.object (helloParams nonce keyBytes))).handled
        = 0 := by
    intro nonce keyBytes
    rcases call_handled (P := P) .fresh w.hello helloMethod (.object (helloParams nonce keyBytes))
      with none | ⟨_, one⟩
    · rw [none, added_nil]
    · rw [one, added_singleton]
      exact added_hello rfl
  unfold connectAndHandshake
  split
  · rfl
  · split
    · rfl
    · rename_i nonce _
      unfold handshake
      split
      · rfl
      · rename_i keyBytes _
        dsimp only
        split <;> exact hello nonce keyBytes

/-- A first call that is stale and was handled had its answer lost. -/
theorem stale_lost {link : Link} {w : Meeting} {method : String} {params : JToken}
    (stale : isStale (link.call P w method params).result = true) (arrives : Arrives w) :
    ∃ kind, w.passage = .unread kind ∧ classifyRpcError (.io kind) = .stale := by
  unfold Link.call at stale
  cases hp : w.passage with
  | unsent kind => exact absurd hp (arrives kind)
  | answered => simp [hp, readResponse_not_stale] at stale
  | unread kind => exact ⟨kind, rfl, by simpa [hp, isStale] using stale⟩
  | undecodable => simp [hp, isStale, classifyRpcError] at stale

theorem lost_stale {link : Link} {w : Meeting} {method : String} {params : JToken}
    {kind : ErrorKind} (lost : w.passage = .unread kind)
    (stale : classifyRpcError (.io kind) = .stale) :
    isStale (link.call P w method params).result = true := by
  simp [Link.call, lost, isStale, stale]

theorem registersTwice_added {w : World} {link : Link} {params : JToken}
    (twice : RegistersTwice P w link params) :
    added P (takeCallWithRetry P w (some link) makeMethod params).handled = 2 := by
  obtain ⟨kind, lost, stale⟩ := twice.lost
  obtain ⟨fresh, connected⟩ := reconnects_iff.mp twice.reconnects
  have arrives : Arrives w.first := by simp [Arrives, lost]
  have greeted : fresh.Greeted := (connectAndHandshake_ok connected).2
  have first := added_of_adds twice.greeted twice.first
  have second := added_of_adds greeted twice.second
  simp only [takeCallWithRetry, lost_stale lost stale, if_true, connected, call_arrives arrives,
    call_arrives twice.arrives, added_append, added_singleton, connect_added, first, second]

/-- One dispatch adds at most one entry, exactly if the retry does not repeat a registration. -/
theorem retry_registers_once_iff (P : Platform) (w : World) (pipe : Option Link)
    (params : JToken) :
    added P (takeCallWithRetry P w pipe makeMethod params).handled ≤ 1 ↔
      ∀ link, pipe = some link → ¬ RegistersTwice P w link params := by
  constructor
  · rintro once link rfl twice
    rw [registersTwice_added twice] at once
    omega
  · intro never
    cases pipe with
    | none => exact Nat.zero_le 1
    | some link =>
      have first := call_added_le_one (P := P) link w.first params
      cases stale : isStale (link.call P w.first makeMethod params).result with
      | false =>
        simp only [takeCallWithRetry, stale]
        exact first
      | true =>
        cases connected : (connectAndHandshake P w.reconnect).link with
        | error e =>
          simp only [takeCallWithRetry, stale, if_true, connected, added_append, connect_added]
          exact first
        | ok fresh =>
          have second := call_added_le_one (P := P) fresh w.second params
          simp only [takeCallWithRetry, stale, if_true, connected, added_append, connect_added]
          by_contra more
          obtain ⟨arrives, greeted, adds⟩ : Arrives w.first ∧ link.Greeted ∧ Adds P w.first params :=
            call_added_pos (by omega)
          obtain ⟨arrives', _, adds'⟩ : Arrives w.second ∧ fresh.Greeted ∧ Adds P w.second params :=
            call_added_pos (by omega)
          exact never link rfl ⟨stale_lost stale arrives, greeted, adds,
            (connectAndHandshake_ok connected).1, arrives', adds'⟩

end

namespace Sample

def link : Link := ⟨2, ⟨true, expectedPkgFamily⟩⟩

def params : JToken :=
  .object (VaultOutcomes.Sample.rawFields VaultOutcomes.Sample.makeCbor
    VaultOutcomes.Sample.makeSignature)

def first : Meeting :=
  ⟨.unread .brokenPipe, VaultOutcomes.Sample.outside, .result true, VaultOutcomes.Sample.plugin⟩

/-- KeePass is restarted with the database that the first request was saved to. -/
def restarted : Plugin :=
  { VaultOutcomes.Sample.registered "example.com" with
    opSignPubKey := none
    uvFallbackPrompt := some ⟨false, false, 0⟩ }

def reconnect : Connecting where
  connect := none
  nonce := .ok "5f0c8e5f3b7d4a1e92c64dd0b18f7a3625e9c0d7481bf6a3e05d92c7b6f41a08"
  pubKey := some VaultOutcomes.Sample.opSignPubKey
  hello := ⟨.answered, VaultOutcomes.Sample.outside, .result true, restarted⟩

def second : Meeting where
  passage := .answered
  outside := { VaultOutcomes.Sample.outside with
    credentialId := List.replicate 32 9
    credentialId_length := by simp }
  dialog := .result true
  plugin := { restarted with opSignPubKey := some VaultOutcomes.Sample.opSignPubKey }

def world : World := ⟨first, reconnect, second⟩

theorem adds_sample {w : Meeting} {prompt : Option UvFallbackPrompt}
    (hopen : w.plugin.isVaultOpen = true)
    (key : w.plugin.opSignPubKey = some VaultOutcomes.Sample.opSignPubKey)
    (unset : w.plugin.skipPluginSigVerify = none)
    (agreed : promptForFallback w.out.ask w.plugin.uvFallbackPrompt makeMethod = (.ok (), prompt))
    (ready : (prepareMake (VaultOutcomes.Sample.platform []) w.out w.plugin true
      VaultOutcomes.Sample.makeCbor).isOk = true) :
    Adds (VaultOutcomes.Sample.platform []) w params :=
  RequestEffects.Sample.registers_make hopen key unset agreed ready

theorem reconnects : Reconnects (VaultOutcomes.Sample.platform []) reconnect := by
  have key : VaultOutcomes.Sample.opSignPubKey ≠ [] := by decide +kernel
  exact reconnects_of_nonce rfl rfl rfl rfl rfl rfl (by decide) key

theorem repeated :
    RegistersTwice (VaultOutcomes.Sample.platform []) world link params where
  lost := ⟨.brokenPipe, rfl, rfl⟩
  greeted := rfl
  first := adds_sample rfl rfl rfl rfl (by decide +kernel)
  reconnects := reconnects
  arrives := by simp [Arrives, world, second]
  second := adds_sample rfl rfl rfl rfl (by decide +kernel)

end Sample

/-- KeePass is closed once the credential is saved and before its answer is read, and is started
again: the request is sent to it once more, and one dispatch adds two credentials. -/
theorem lost_answer_registers_twice : ∃ (w : World) (link : Link) (params : JToken),
    w.first.passage = .unread .brokenPipe ∧
      added (VaultOutcomes.Sample.platform [])
        (takeCallWithRetry (VaultOutcomes.Sample.platform []) w (some link) makeMethod params).handled
          = 2 :=
  ⟨Sample.world, Sample.link, Sample.params, rfl, registersTwice_added Sample.repeated⟩

end KeePassKeyWin.RetryRegistration
