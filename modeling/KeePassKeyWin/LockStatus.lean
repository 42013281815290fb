import KeePassKeyWin.SidecarCalls
import KeePassKeyWin.VaultErrors

set_option autoImplicit false

/-!
# The lock status across the two processes

What the entry points of the COM object send, what the plugin answers over a connection that
passed the handshake, and what `get_lock_status` makes of it.
-/
namespace KeePassKeyWin.LockStatus
open ByteStrings JsonRpc OutcomeRules PlatformServices PasskeyStore VaultGates CtapRequests
open VaultHandler VaultOutcomes VaultErrors PipeServer SidecarCalls TransitionRuns

inductive PluginLockStatus where
  | locked
  | unlocked
  deriving DecidableEq

inductive EntryPoint where
  | makeCredential (params : JToken)
  | getAssertion (params : JToken)
  | cancelOperation (transactionId : String)
  | getLockStatus

def EntryPoint.method : EntryPoint → String
  | .makeCredential _ => makeMethod
  | .getAssertion _ => getMethod
  | .cancelOperation _ => "keepasskeywin.cancelOperation"
  | .getLockStatus => "keepasskeywin.getLockStatus"

def EntryPoint.params : EntryPoint → JToken
  | .makeCredential params | .getAssertion params => params
  | .cancelOperation transactionId => .object [("transactionId", .str transactionId)]
  | .getLockStatus => .object []

structure LockAnswer where
  hresult : ℕ
  lockStatus : Option PluginLockStatus
  deriving DecidableEq

def eFail : ℕ := 0x80004005

def lockedField : JToken → Option Bool
  | .object fields =>
    match fields.lookup "locked" with
    | some (.boolean b) => some b
    | _ => none
  | _ => none

def statusOf (locked : Bool) : PluginLockStatus := if locked then .locked else .unlocked

/-- `get_lock_status`, from the result of its call on. -/
def getLockStatus (result : Option (Except ClientError JToken)) : LockAnswer :=
  match result with
  | none => ⟨0, some .locked⟩
  | some (.ok v) => ⟨0, some (statusOf ((lockedField v).getD true))⟩
  | some (.error .vaultLocked) => ⟨0, some .locked⟩
  | some (.error _) => ⟨eFail, none⟩

/-- A request that an entry point sent and the plugin answered, and what the call returned. -/
structure Answer where
  entry : EntryPoint
  handled : Handled
  result : Option (Except ClientError JToken)

structure State where
  pipe : Option Link
  answers : List Answer

/-- An activation, or a call to an entry point. The plugin that they meet may be opened, locked,
unlocked or restarted at any time between them and within them. -/
inductive Event where
  | activate (w : Connecting)
  | enter (entry : EntryPoint) (w : World)

def State.start : State := ⟨none, []⟩

def State.activate (P : Platform) (w : Connecting) (s : State) : State :=
  match s.pipe, (connectAndHandshake P w).link with
  | none, .ok link => { s with pipe := some link }
  | _, _ => s

def State.enter (P : Platform) (entry : EntryPoint) (w : World) (s : State) : State :=
  let d := takeCallWithRetry P w s.pipe entry.method entry.params
  ⟨d.pipe, s.answers ++ d.answered.toList.map fun h => ⟨entry, h, d.result⟩⟩

def step (P : Platform) (s : State) (event : Event) (t : State) : Prop :=
  match event with
  | .activate w => t = s.activate P w
  | .enter entry w => t = s.enter P entry w

def Handled.vaultOpen (h : Handled) : Bool := h.session.plugin.isVaultOpen

def MethodMissing (response : JsonRpcResponse) : Prop :=
  ∃ message, response.outcome = .error (RpcErrorCode.methodNotFound, message)

/-- The plugin knows the method, and the lock status returned is that of the vault. -/
def Right (P : Platform) (a : Answer) : Prop :=
  ¬ MethodMissing (a.handled.response P) ∧
    (a.entry = .getLockStatus →
      getLockStatus a.result = ⟨0, some (statusOf !Handled.vaultOpen a.handled)⟩)

def EntryPoint.Absent : EntryPoint → Prop
  | .makeCredential _ | .getAssertion _ => False
  | .cancelOperation _ | .getLockStatus => True

/-- The request is the entry point's own, over a connection that passed the handshake, and its
response is the result. -/
structure Genuine (P : Platform) (a : Answer) : Prop where
  sent : ∃ link w, link.Greeted ∧
    a.handled = Link.handled link w a.entry.method a.entry.params
  read : a.result = some (readResponse (a.handled.response P))

section
variable {P : Platform}

theorem entry_not_hello (entry : EntryPoint) : entry.method ≠ helloMethod := by
  cases entry with
  | makeCredential params => exact (by decide : makeMethod ≠ helloMethod)
  | getAssertion params => exact (by decide : getMethod ≠ helloMethod)
  | cancelOperation transactionId => exact (by decide : "keepasskeywin.cancelOperation" ≠ helloMethod)
  | getLockStatus => decide

theorem response_greeted {link : Link} (greeted : link.Greeted) (w : Meeting)
    (entry : EntryPoint) :
    ((link.handled w entry.method entry.params).response P).outcome =
      outcomeOf (handle P w.out entry.method (some entry.params) w.plugin) :=
  respond_outcome (entry_not_hello entry) greeted

theorem response_closed {link : Link} (greeted : link.Greeted) {w : Meeting} (entry : EntryPoint)
    (closed : w.plugin.isVaultOpen = false) :
    ((link.handled w entry.method entry.params).response P).outcome =
      .error (RpcErrorCode.vaultLocked, "KeePass vault is not open.") := by
  rw [response_greeted greeted, handle_of_closed closed]
  rfl

theorem response_absent {link : Link} (greeted : link.Greeted) {w : Meeting} {entry : EntryPoint}
    (absent : entry.Absent) (hopen : w.plugin.isVaultOpen = true) :
    MethodMissing ((link.handled w entry.method entry.params).response P) := by
  have missing : dispatchMethod P w.out entry.method (some entry.params) =
      throw (methodNotFound entry.method) := by
    cases entry with
    | makeCredential params => exact absurd absent id
    | getAssertion params => exact absurd absent id
    | cancelOperation transactionId => rfl
    | getLockStatus => rfl
  refine ⟨s!"Method not found: {entry.method}", ?_⟩
  rw [response_greeted greeted, handle_of_open hopen, missing]
  rfl

theorem dialog_plain (w : Meeting) : PlainPrompt w.out.ask := by
  intro e h
  have asked : w.dialog.ask = .throws e := h
  cases hd : w.dialog with
  | noMainWindow =>
    rw [hd] at asked
    cases asked
    trivial
  | invokeThrows message =>
    rw [hd] at asked
    cases asked
    trivial
  | result yes =>
    rw [hd] at asked
    cases yes <;> cases asked

theorem toError_known {e : Exn} (known : Known e) :
    (Exn.toError e).1 ≠ RpcErrorCode.methodNotFound := by
  have other : RpcErrorCode.internalError ≠ RpcErrorCode.methodNotFound := by decide
  cases e with
  | rpc code message =>
    intro same
    have missing : code = RpcErrorCode.methodNotFound := same
    have unlisted : RpcErrorCode.methodNotFound ∉ vaultCodes := by decide
    rw [missing] at known
    exact unlisted known
  | cborReader message => exact other
  | format message => exact other
  | other message => exact other

theorem response_present {link : Link} (greeted : link.Greeted) (w : Meeting) {entry : EntryPoint}
    (present : ¬ entry.Absent) :
    ¬ MethodMissing ((link.handled w entry.method entry.params).response P) := by
  rintro ⟨message, missing⟩
  have raw : entry.method = makeMethod ∨ entry.method = getMethod := by
    cases entry with
    | makeCredential params => exact .inl rfl
    | getAssertion params => exact .inr rfl
    | cancelOperation transactionId => exact absurd trivial present
    | getLockStatus => exact absurd trivial present
  rw [response_greeted greeted] at missing
  cases run : handle P w.out entry.method (some entry.params) w.plugin with
  | ok result t =>
    rw [run] at missing
    cases missing
  | error e t =>
    rw [run] at missing
    have known := handle_raw_throws (P := P) (dialog_plain w) raw (some entry.params) _ e t run
    exact toError_known known (congrArg Prod.fst (Except.error.inj missing))

theorem right_iff {a : Answer} (genuine : Genuine P a) :
    Right P a ↔ (a.entry.Absent → Handled.vaultOpen a.handled = false) := by
  obtain ⟨entry, h, result⟩ := a
  obtain ⟨⟨link, w, greeted, sent⟩, read⟩ := genuine
  obtain rfl : h = link.handled w entry.method entry.params := sent
  obtain rfl : result = some (readResponse
    ((link.handled w entry.method entry.params).response P)) := read
  have vault : Handled.vaultOpen (link.handled w entry.method entry.params) =
      w.plugin.isVaultOpen := rfl
  by_cases absent : entry.Absent
  · cases hopen : w.plugin.isVaultOpen with
    | true =>
      refine iff_of_false (fun right => right.1 (response_absent greeted absent hopen)) ?_
      intro closed
      exact Bool.noConfusion ((vault.trans hopen).symm.trans (closed absent))
    | false =>
      have locked := response_closed (P := P) greeted entry hopen
      refine iff_of_true ⟨?_, ?_⟩ fun _ => vault.trans hopen
      · rintro ⟨message, missing⟩
        rw [locked] at missing
        have other : RpcErrorCode.vaultLocked ≠ RpcErrorCode.methodNotFound := by decide
        exact other (congrArg Prod.fst (Except.error.inj missing))
      · intro _
        simp only [readResponse, locked, vault, hopen]
        decide
  · refine iff_of_true ⟨response_present greeted w absent, ?_⟩ fun h => absurd h absent
    rintro rfl
    exact absurd trivial absent

theorem call_answered {link : Link} {w : Meeting} {method : String} {params : JToken} {h : Handled}
    (answered : (link.call P w method params).answered = some h) :
    h = link.handled w method params ∧
      (link.call P w method params).result = readResponse (h.response P) := by
  unfold Link.call at answered ⊢
  cases hp : w.passage with
  | unsent kind => simp [hp] at answered
  | unread kind => simp [hp] at answered
  | undecodable => simp [hp] at answered
  | answered =>
    rw [hp] at answered
    obtain rfl := Option.some.inj answered
    exact ⟨rfl, rfl⟩

theorem dispatch_answered {w : World} {pipe : Option Link} {method : String} {params : JToken}
    {h : Handled} (greeted : ∀ link, pipe = some link → link.Greeted)
    (answered : (takeCallWithRetry P w pipe method params).answered = some h) :
    (∃ link w', link.Greeted ∧ h = Link.handled link w' method params) ∧
      (takeCallWithRetry P w pipe method params).result = some (readResponse (h.response P)) := by
  cases pipe with
  | none => simp [takeCallWithRetry] at answered
  | some link =>
    cases stale : isStale (link.call P w.first method params).result with
    | false =>
      simp only [takeCallWithRetry, stale] at answered ⊢
      obtain ⟨sent, read⟩ := call_answered answered
      exact ⟨⟨link, w.first, greeted link rfl, sent⟩, congrArg some read⟩
    | true =>
      cases connected : (connectAndHandshake P w.reconnect).link with
      | error e => simp [takeCallWithRetry, stale, connected] at answered
      | ok fresh =>
        simp only [takeCallWithRetry, stale, if_true, connected] at answered ⊢
        obtain ⟨sent, read⟩ := call_answered answered
        exact ⟨⟨fresh, w.second, (connectAndHandshake_ok connected).2, sent⟩, congrArg some read⟩

structure Sound (P : Platform) (s : State) : Prop where
  pipe : ∀ link, s.pipe = some link → link.Greeted
  answers : ∀ a ∈ s.answers, Genuine P a

theorem sound_start : Sound P .start :=
  ⟨fun link h => by simp [State.start] at h, fun a h => by simp [State.start] at h⟩

theorem sound_step {s t : State} {event : Event} (sound : Sound P s) (h : step P s event t) :
    Sound P t := by
  cases event with
  | activate w =>
    obtain rfl : t = s.activate P w := h
    unfold State.activate
    split
    · rename_i link connected
      refine ⟨?_, sound.answers⟩
      rintro _ ⟨⟩
      exact (connectAndHandshake_ok connected).2
    · exact sound
  | enter entry w =>
    obtain rfl : t = s.enter P entry w := h
    refine ⟨takeCallWithRetry_greeted sound.pipe, fun a ha => ?_⟩
    rcases List.mem_append.mp ha with old | new
    · exact sound.answers a old
    · obtain ⟨h, hh, rfl⟩ := List.mem_map.mp new
      obtain ⟨sent, read⟩ := dispatch_answered sound.pipe (Option.mem_toList.mp hh)
      exact ⟨sent, read⟩

theorem sound_run {events : List Event} {s : State} (run : Run (step P) .start events s) :
    Sound P s :=
  run.invariant (fun _ _ _ sound h => sound_step sound h) sound_start

end

/-- An answer of a run keeps the promise exactly if its method is one of the two raw ones or the
vault is locked. -/
theorem lock_status_right_iff (P : Platform) (events : List Event) (s : State)
    (run : Run (step P) .start events s) (a : Answer) (ha : a ∈ s.answers) :
    Right P a ↔ (a.entry.Absent → Handled.vaultOpen a.handled = false) :=
  right_iff ((sound_run run).answers a ha)

namespace Sample

def platform : Platform := VaultOutcomes.Sample.platform []

def nonce : String := "5f0c8e5f3b7d4a1e92c64dd0b18f7a3625e9c0d7481bf6a3e05d92c7b6f41a08"

def meeting (plugin : Plugin) : Meeting :=
  ⟨.answered, VaultOutcomes.Sample.outside, .result true, plugin⟩

def activation : Connecting :=
  ⟨none, .ok nonce, some VaultOutcomes.Sample.opSignPubKey, meeting VaultOutcomes.Sample.plugin⟩

def world (plugin : Plugin) : World := ⟨meeting plugin, activation, meeting plugin⟩

def lockedPlugin : Plugin := { VaultOutcomes.Sample.plugin with database := none }

theorem activates : ∃ link, (connectAndHandshake platform activation).link = .ok link := by
  have unread : nonce ≠ "" := by decide
  have key : VaultOutcomes.Sample.opSignPubKey ≠ [] := by decide +kernel
  exact reconnects_iff.mp (reconnects_of_nonce rfl rfl rfl rfl rfl rfl unread key)

theorem queried (plugin : Plugin) : ∃ s a, Run (step platform) .start
      [.activate activation, .enter .getLockStatus (world plugin)] s ∧
    a ∈ s.answers ∧ a.entry = .getLockStatus ∧ Handled.vaultOpen a.handled = plugin.isVaultOpen := by
  obtain ⟨link, connected⟩ := activates
  have first : State.activate platform activation .start = ⟨some link, []⟩ := by
    simp [State.activate, State.start, connected]
  let h := link.handled (meeting plugin) "keepasskeywin.getLockStatus" (.object [])
  have answered : State.enter platform .getLockStatus (world plugin) ⟨some link, []⟩ =
      ⟨some ⟨(link.nextId + 1) % 2 ^ 32, (h.after platform).context⟩,
        [⟨.getLockStatus, h, some (readResponse (h.response platform))⟩]⟩ := by
    have fresh : isStale (link.call platform (world plugin).first
        "keepasskeywin.getLockStatus" (.object [])).result = false :=
      readResponse_not_stale _
    simp only [State.enter, EntryPoint.method, EntryPoint.params, takeCallWithRetry, fresh]
    rfl
  exact ⟨_, _, .cons first.symm (.cons answered.symm (.nil _)), List.mem_singleton_self _, rfl, rfl⟩

end Sample

theorem lock_status_right_iff_sample : ∃ s a, Run (step Sample.platform) .start
      [.activate Sample.activation, .enter .getLockStatus (Sample.world Sample.lockedPlugin)] s ∧
    a ∈ s.answers ∧ Right Sample.platform a := by
  obtain ⟨s, a, run, mem, _, closed⟩ := Sample.queried Sample.lockedPlugin
  exact ⟨s, a, run, mem,
    (lock_status_right_iff Sample.platform _ s run a mem).mpr fun _ => closed⟩

/-- With the vault open, the query for the lock status is answered with `MethodNotFound`, and
`get_lock_status` fails. -/
theorem open_vault_has_no_status : ∃ s a, Run (step Sample.platform) .start
      [.activate Sample.activation,
        .enter .getLockStatus (Sample.world VaultOutcomes.Sample.plugin)] s ∧
    a ∈ s.answers ∧ a.entry = .getLockStatus ∧ Handled.vaultOpen a.handled = true ∧
    MethodMissing (a.handled.response Sample.platform) ∧
    getLockStatus a.result = ⟨eFail, none⟩ := by
  obtain ⟨s, a, run, mem, entry, hopen⟩ := Sample.queried VaultOutcomes.Sample.plugin
  obtain ⟨⟨link, w, greeted, sent⟩, read⟩ := (sound_run run).answers a mem
  have opened : w.plugin.isVaultOpen = true := by
    rw [sent] at hopen
    exact hopen
  have absent : a.entry.Absent := by
    rw [entry]
    trivial
  have missing := response_absent (P := Sample.platform) greeted absent opened
  rw [← sent] at missing
  refine ⟨s, a, run, mem, entry, hopen, missing, ?_⟩
  obtain ⟨message, missing⟩ := missing
  rw [read]
  simp only [readResponse, missing]
  rfl

end KeePassKeyWin.LockStatus
