import KeePassKeyWin.PipeServer

set_option autoImplicit false

/-!
# The listener thread

`ListenerLoop` waits for a client, serves it and disconnects, while clients come and go and
`Stop` may dispose the stream under it. Only the wait and the service are inside a `try`.
-/
namespace KeePassKeyWin.PipeListener
open PlatformServices PasskeyStore VaultHandler VaultOutcomes PipeServer TransitionRuns

inductive Peer where
  | absent
  | connected
  | gone
  deriving DecidableEq

/-- Where the thread is; an exception that escapes the loop ends the process. -/
inductive Place where
  | checking
  | waiting
  | serving
  | disconnecting
  | left
  | escaped
  deriving DecidableEq

/-- `lines` counts those of the present client. -/
structure Listener where
  place : Place
  stopping : Bool
  disposed : Bool
  peer : Peer
  server : Server
  lines : ℕ

inductive Act where
  | clientConnects
  | clientCloses
  | stopSetsFlag
  | stopDisposes
  | checkFlag
  | waitReturns
  | waitThrows
  | serveLine (out : Outside) (text : String)
  | serveEnds
  | disconnect

/-- A wait throws on a disposed stream and may throw when the client has already gone. -/
def enabled (s : Listener) : Act → Bool
  | .clientConnects => s.peer = .absent ∧ s.disposed = false
  | .clientCloses => s.peer = .connected
  | .stopSetsFlag => true
  | .stopDisposes => s.stopping
  | .checkFlag => s.place = .checking
  | .waitReturns => s.place = .waiting ∧ s.disposed = false ∧ s.peer ≠ .absent
  | .waitThrows => s.place = .waiting ∧ (s.disposed = true ∨ s.peer = .gone)
  | .serveLine _ _ => s.place = .serving
  | .serveEnds => s.place = .serving
  | .disconnect => s.place = .disconnecting

/-- Both handlers of the wait leave the loop. An exception ends the service and is caught; a
disposed stream does not disconnect, and throws. -/
def perform (P : Platform) (s : Listener) : Act → Listener
  | .clientConnects => { s with peer := .connected }
  | .clientCloses => { s with peer := .gone }
  | .stopSetsFlag => { s with stopping := true }
  | .stopDisposes => { s with disposed := true }
  | .checkFlag => { s with place := if s.stopping then .left else .waiting }
  | .waitReturns => { s with place := .serving, server := s.server.connect, lines := 0 }
  | .waitThrows => { s with place := .left }
  | .serveLine out text => { s with server := s.server.receive P out text, lines := s.lines + 1 }
  | .serveEnds => { s with place := .disconnecting }
  | .disconnect =>
    if s.disposed then { s with place := .escaped }
    else { s with place := .checking, peer := .absent }

def step (P : Platform) : Listener → Act → Listener → Prop := guarded enabled (perform P)

def Listener.start (plugin : Plugin) : Listener :=
  ⟨.checking, false, false, .absent, Server.start plugin, 0⟩

/-- The loop was left because of `Stop`, no exception escaped, and whoever is served started
with a context of its own. -/
structure Robust (s : Listener) : Prop where
  left : s.place = .left → s.stopping = true
  contained : s.place ≠ .escaped
  fresh : s.place = .serving → s.lines = 0 → s.server.session.context = .fresh

/-- No client has gone before the wait, unless `Stop` was called, and `Stop` disposes the
stream only while no client is being served or disconnected. -/
def Fits (s : Listener) : Act → Prop
  | .waitThrows => s.stopping = true
  | .stopDisposes => s.place ≠ .serving ∧ s.place ≠ .disconnecting
  | _ => True

instance (s : Listener) (a : Act) : Decidable (Fits s a) := by
  cases a <;> unfold Fits <;> infer_instance

structure Guarded (s : Listener) : Prop extends Robust s where
  disposed_stopping : s.disposed = true → s.stopping = true
  disposed_place : s.disposed = true → s.place ≠ .serving ∧ s.place ≠ .disconnecting

theorem guarded_start (plugin : Plugin) : Guarded (Listener.start plugin) where
  left h := by cases h
  contained h := by cases h
  fresh h := by cases h
  disposed_stopping h := by cases h
  disposed_place h := by cases h

theorem guarded_step {P : Platform} {s t : Listener} {a : Act} (h : Guarded s)
    (hs : restrict Fits (step P) s a t) : Guarded t := by
  obtain ⟨fits, can, rfl⟩ := hs
  cases a with
  | clientConnects | clientCloses =>
    exact ⟨⟨h.left, h.contained, h.fresh⟩, h.disposed_stopping, h.disposed_place⟩
  | stopSetsFlag => exact ⟨⟨fun _ => rfl, h.contained, h.fresh⟩, fun _ => rfl, h.disposed_place⟩
  | stopDisposes => exact ⟨⟨h.left, h.contained, h.fresh⟩, fun _ => can, fun _ => fits⟩
  | checkFlag =>
    cases stopping : s.stopping with
    | true =>
      simp only [perform, stopping, if_true]
      exact ⟨⟨fun _ => rfl, by simp, by simp⟩, fun _ => rfl, by simp⟩
    | false =>
      have open' : s.disposed ≠ true := fun disposed => by
        simpa [stopping] using h.disposed_stopping disposed
      simp only [perform, stopping, Bool.false_eq_true, if_false]
      exact ⟨⟨by simp, by simp, by simp⟩, fun disposed => absurd disposed open', by simp⟩
  | waitReturns =>
    have usable : s.disposed = false := (of_decide_eq_true can).2.1
    refine ⟨⟨by simp [perform], by simp [perform], fun _ _ => rfl⟩, h.disposed_stopping, ?_⟩
    exact fun disposed => absurd (usable.symm.trans disposed) (by decide)
  | waitThrows =>
    exact ⟨⟨fun _ => fits, by simp [perform], by simp [perform]⟩, h.disposed_stopping,
      by simp [perform]⟩
  | serveLine out text =>
    exact ⟨⟨h.left, h.contained, by simp [perform]⟩, h.disposed_stopping, h.disposed_place⟩
  | serveEnds =>
    have place : s.place = .serving := of_decide_eq_true can
    refine ⟨⟨by simp [perform], by simp [perform], by simp [perform]⟩, h.disposed_stopping, ?_⟩
    exact fun disposed => absurd place (h.disposed_place disposed).1
  | disconnect =>
    have place : s.place = .disconnecting := of_decide_eq_true can
    cases disposed : s.disposed with
    | true => exact absurd place (h.disposed_place disposed).2
    | false =>
      simp only [perform, disposed, Bool.false_eq_true, if_false]
      exact ⟨⟨by simp, by simp, by simp⟩, by simp, by simp⟩

/-- However clients come and go and whenever `Stop` is called: as long as every step fits, the
loop is left only because of `Stop`, nothing escapes it, and every client starts fresh. -/
theorem listener_robust (P : Platform) (plugin : Plugin) (acts : List Act) (s : Listener)
    (run : Run (restrict Fits (step P)) (Listener.start plugin) acts s) : Robust s :=
  (run.invariant (fun _ _ _ h hs => guarded_step h hs) (guarded_start plugin)).toRobust

/-- A step that does not fit is fatal: the loop is left at once, or the exception escapes when
the service has ended. -/
theorem unfit_step_breaks {P : Platform} {s t : Listener} {a : Act} (hs : step P s a t)
    (unfit : ¬ Fits s a) : ∃ acts u, Run (step P) t acts u ∧ ¬ Robust u := by
  obtain ⟨_, rfl⟩ := hs
  cases a with
  | waitThrows => exact ⟨[], _, .nil _, fun robust => unfit (robust.left rfl)⟩
  | stopDisposes =>
    by_cases serving : s.place = .serving
    · refine ⟨[.serveEnds, .disconnect], _, run_guarded ?_, fun robust => robust.contained rfl⟩
      simp [enabledAll, enabled, perform, serving]
    · have place : s.place = .disconnecting := by
        by_contra other
        exact unfit ⟨serving, other⟩
      refine ⟨[.disconnect], _, run_guarded ?_, fun robust => robust.contained rfl⟩
      simp [enabledAll, enabled, perform, place]
  | _ => exact absurd trivial unfit

/-- A client is served and leaves, and `Stop` is called while the next one is awaited. -/
theorem listener_robust_sample : ∃ acts s,
    Run (restrict Fits (step (Sample.platform []))) (Listener.start Sample.plugin) acts s ∧
      s.place = .left ∧ Robust s := by
  let acts : List Act := [.clientConnects, .checkFlag, .waitReturns,
    .serveLine Sample.outside "\x7b\x7d", .clientCloses, .serveEnds, .disconnect, .checkFlag,
    .stopSetsFlag, .stopDisposes, .waitThrows]
  have run : Run (restrict Fits (step (Sample.platform []))) (Listener.start Sample.plugin) acts
      (acts.foldl (perform (Sample.platform [])) (Listener.start Sample.plugin)) :=
    run_restricted (by decide +kernel)
  exact ⟨acts, _, run, rfl, listener_robust _ _ _ _ run⟩

/-- A client that is gone before the wait ends the loop without `Stop`, and a `Stop` while a
client is served lets an exception escape. -/
theorem listener_ends :
    (∃ acts s, Run (step (Sample.platform [])) (Listener.start Sample.plugin) acts s ∧
      s.place = .left ∧ s.stopping = false) ∧
    ∃ acts s, Run (step (Sample.platform [])) (Listener.start Sample.plugin) acts s ∧
      s.place = .escaped := by
  constructor
  · exact ⟨[.clientConnects, .clientCloses, .checkFlag, .waitThrows], _,
      run_guarded (by decide), rfl, rfl⟩
  · exact ⟨[.clientConnects, .checkFlag, .waitReturns, .stopSetsFlag, .stopDisposes, .serveEnds,
      .disconnect], _, run_guarded (by decide), rfl⟩

end KeePassKeyWin.PipeListener
