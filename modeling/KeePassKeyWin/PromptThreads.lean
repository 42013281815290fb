import KeePassKeyWin.MemoCells
import KeePassKeyWin.VaultGates

set_option autoImplicit false

/-!
# The v1 prompt under its lock

`UvFallbackPrompt.ShouldProceed` shows its dialog inside the lock. Whatever the threads do, they
are told in turn what `shouldProceed` says, and the dialog is never up twice.
-/
namespace KeePassKeyWin.PromptThreads
open JsonRpc PlatformServices PasskeyStore VaultGates MemoCells TransitionRuns

/-- `owner` has the lock and its dialog is up. -/
structure Threads where
  prompt : UvFallbackPrompt
  owner : Option ℕ
  waiting : ℕ → Bool
  returns : List (ℕ × Except Exn Bool)

inductive Event where
  | shouldProceed (thread : ℕ)
  | lock (thread : ℕ)
  | answered (thread : ℕ) (ask : AskOutcome)

def Threads.start (prompt : UvFallbackPrompt) : Threads := ⟨prompt, none, fun _ => false, []⟩

/-- The dialog is up until the user answers, or until showing it throws. -/
def perform (w : Threads) : Event → Option Threads
  | .shouldProceed thread =>
    if w.waiting thread = true ∨ w.owner = some thread then none
    else some { w with waiting := Function.update w.waiting thread true }
  | .lock thread =>
    if w.owner.isNone ∧ w.waiting thread = true then
      let w := { w with waiting := Function.update w.waiting thread false }
      if w.prompt.decided then
        some { w with returns := w.returns ++ [(thread, .ok w.prompt.decision)] }
      else some { w with owner := some thread }
    else none
  | .answered thread ask =>
    if w.owner = some thread then
      match ask with
      | .yes => some { w with
          prompt := ⟨true, true, w.prompt.asked + 1⟩
          owner := none
          returns := w.returns ++ [(thread, .ok true)] }
      | .no => some { w with
          prompt := ⟨true, false, w.prompt.asked + 1⟩
          owner := none
          returns := w.returns ++ [(thread, .ok false)] }
      | .throws e => some { w with
          prompt := { w.prompt with asked := w.prompt.asked + 1 }
          owner := none
          returns := w.returns ++ [(thread, .error e)] }
    else none

/-- One call after another, with what each would be answered if it had to ask. -/
def serially : UvFallbackPrompt → List (ℕ × AskOutcome) →
    List (ℕ × Except Exn Bool) × UvFallbackPrompt
  | prompt, [] => ([], prompt)
  | prompt, (thread, ask) :: calls =>
    let (result, prompt) := shouldProceed prompt ask
    let (results, prompt) := serially prompt calls
    ((thread, result) :: results, prompt)

def decisionOf (prompt : UvFallbackPrompt) : Option Bool :=
  if prompt.decided then some prompt.decision else none

def outcomeOf : AskOutcome → Except Exn Bool
  | .yes => .ok true
  | .no => .ok false
  | .throws e => .error e

def memoEvent : Event → MemoCells.Event ℕ Exn Bool
  | .shouldProceed thread => .call thread
  | .lock thread => .enter thread
  | .answered thread ask => .settle thread (outcomeOf ask)

structure Shows (start : UvFallbackPrompt) (w : Threads) (m : Memo ℕ Exn Bool) : Prop where
  value : m.value = decisionOf w.prompt
  holder : m.holder = w.owner
  waiting : m.waiting = w.waiting
  returns : m.returns.map (fun r => (r.caller, r.result)) = w.returns
  asked : w.prompt.asked = start.asked + (m.returns.filter Return.computed).length
  undecided : w.prompt.decided = false → w.prompt.decision = start.decision
  dialog : w.owner.isSome = true → w.prompt.decided = false

section
variable {start : UvFallbackPrompt} {w w' : Threads} {m : Memo ℕ Exn Bool}

theorem shows_start (start : UvFallbackPrompt) :
    Shows start (Threads.start start) (Memo.start (decisionOf start)) :=
  ⟨rfl, rfl, rfl, rfl, rfl, fun _ => rfl, fun up => by cases up⟩

theorem shows_perform (h : Shows start w m) {e : Event} (performed : perform w e = some w') :
    ∃ m', MemoCells.perform m (memoEvent e) = some m' ∧ Shows start w' m' := by
  obtain ⟨prompt, owner, waiting, returns⟩ := w
  obtain ⟨value, holder, mwaiting, mreturns⟩ := m
  obtain ⟨hvalue, hholder, hwaiting, hreturns, asked, undecided, dialog⟩ := h
  simp only at hvalue hholder hwaiting hreturns asked undecided dialog
  subst hvalue hholder hwaiting hreturns
  cases e with
  | shouldProceed thread =>
    simp only [perform] at performed
    split_ifs at performed with busy
    obtain rfl := Option.some.inj performed
    exact ⟨_, if_neg busy, ⟨rfl, rfl, rfl, rfl, asked, undecided, dialog⟩⟩
  | lock thread =>
    simp only [perform] at performed
    split_ifs at performed with may decided
    · obtain rfl := Option.some.inj performed
      have value : decisionOf prompt = some prompt.decision := if_pos decided
      refine ⟨_, if_pos may, ?_⟩
      simp only [Memo.enter, value]
      refine ⟨value.symm, rfl, rfl, List.map_append, ?_, undecided, dialog⟩
      rw [List.filter_append, List.length_append]
      exact asked
    · obtain rfl := Option.some.inj performed
      have value : decisionOf prompt = none := if_neg decided
      refine ⟨_, if_pos may, ?_⟩
      simp only [Memo.enter, value]
      exact ⟨value.symm, rfl, rfl, rfl, asked, undecided, fun _ => Bool.eq_false_iff.mpr decided⟩
  | answered thread ask =>
    simp only [perform] at performed
    split_ifs at performed with owns
    have counted : ∀ result, prompt.asked + 1 = start.asked +
        ((mreturns ++ [(⟨thread, true, result⟩ : Return ℕ Exn Bool)]).filter
          Return.computed).length := by
      intro result
      rw [List.filter_append, List.length_append, asked]
      rfl
    have wasOpen : prompt.decided = false := dialog (by rw [owns]; rfl)
    cases ask with
    | yes =>
      obtain rfl := Option.some.inj performed
      exact ⟨_, if_pos owns, ⟨rfl, rfl, rfl, List.map_append, counted _, fun h => (by cases h),
        fun up => (by cases up)⟩⟩
    | no =>
      obtain rfl := Option.some.inj performed
      exact ⟨_, if_pos owns, ⟨rfl, rfl, rfl, List.map_append, counted _, fun h => (by cases h),
        fun up => (by cases up)⟩⟩
    | throws e =>
      obtain rfl := Option.some.inj performed
      have none : decisionOf { prompt with asked := prompt.asked + 1 } = none :=
        if_neg (Bool.eq_false_iff.mp wasOpen)
      exact ⟨_, if_pos owns, ⟨none.symm, rfl, rfl, List.map_append, counted _, undecided,
        fun up => by cases up⟩⟩

theorem shows_run {es : List Event} (run : Run (fun w e w' => perform w e = some w') w es w')
    (h : Shows start w m) : ∃ m', Run (fun m e m' => MemoCells.perform m e = some m') m
      (es.map memoEvent) m' ∧ Shows start w' m' := by
  induction run generalizing m with
  | nil w => exact ⟨m, .nil m, h⟩
  | cons head tail ih =>
    obtain ⟨m₁, performed, h₁⟩ := shows_perform h head
    obtain ⟨m', rest, h'⟩ := ih h₁
    exact ⟨m', .cons performed rest, h'⟩

theorem serially_cons {prompt prompt' : UvFallbackPrompt} {thread : ℕ} {ask : AskOutcome}
    {result : Except Exn Bool} (step : shouldProceed prompt ask = (result, prompt'))
    (calls : List (ℕ × AskOutcome)) : serially prompt ((thread, ask) :: calls) =
      ((thread, result) :: (serially prompt' calls).1, (serially prompt' calls).2) := by
  rw [serially, step]

structure After (start prompt : UvFallbackPrompt) (v : Option Bool) (asked : ℕ) : Prop where
  decision : decisionOf prompt = v
  asked : prompt.asked = start.asked + asked
  undecided : prompt.decided = false → prompt.decision = start.decision

theorem After.unique {p q : UvFallbackPrompt} {v : Option Bool} {asked : ℕ}
    (h : After start p v asked) (h' : After start q v asked) : p = q := by
  obtain ⟨pd, pv, pa⟩ := p
  obtain ⟨qd, qv, qa⟩ := q
  obtain ⟨rfl, rfl, hp⟩ := h
  obtain ⟨same, rfl, hq⟩ := h'
  cases pd <;> cases qd <;> simp_all [decisionOf]

theorem serially_of_sequential {prompt : UvFallbackPrompt} {v : Option Bool}
    {rs : List (Return ℕ Exn Bool)} (h : Sequential (decisionOf prompt) rs v) :
    ∃ calls, (serially prompt calls).1 = rs.map (fun r => (r.caller, r.result)) ∧
      After prompt (serially prompt calls).2 v (rs.filter Return.computed).length := by
  induction rs generalizing prompt with
  | nil => exact ⟨[], rfl, Eq.symm h, rfl, fun _ => rfl⟩
  | cons r rs ih =>
    obtain ⟨caller, computed, result⟩ := r
    cases decided : prompt.decided with
    | true =>
      have value : decisionOf prompt = some prompt.decision := if_pos decided
      rw [value] at h
      obtain ⟨looked, found, rest⟩ := h
      simp only at looked found
      subst looked found
      rw [← value] at rest
      obtain ⟨calls, results, after⟩ := ih rest
      have step : shouldProceed prompt .no = (.ok prompt.decision, prompt) := if_pos decided
      refine ⟨(caller, .no) :: calls, ?_⟩
      rw [serially_cons step]
      exact ⟨congrArg _ results, after⟩
    | false =>
      have value : decisionOf prompt = none := if_neg (Bool.eq_false_iff.mp decided)
      rw [value] at h
      obtain ⟨asks, rest⟩ := h
      simp only at asks rest
      subst asks
      -- The call asked: the prompt after it is the one that the others start from.
      have goesOn : ∀ (ask : AskOutcome) (prompt' : UvFallbackPrompt),
          shouldProceed prompt ask = (result, prompt') →
          decisionOf prompt' = result.toOption → prompt'.asked = prompt.asked + 1 →
          (prompt'.decided = false → prompt'.decision = prompt.decision) → ∃ calls,
            (serially prompt calls).1 = (caller, result) :: rs.map (fun r => (r.caller, r.result)) ∧
              After prompt (serially prompt calls).2 v ((rs.filter Return.computed).length + 1) := by
        intro ask prompt' step decision asked undecided
        rw [← decision] at rest
        obtain ⟨calls, results, after⟩ := ih rest
        refine ⟨(caller, ask) :: calls, ?_⟩
        rw [serially_cons step]
        refine ⟨congrArg _ results, after.decision, ?_, fun h => ?_⟩
        · rw [after.asked, asked, Nat.add_assoc, Nat.add_comm 1]
        · have final : decisionOf (serially prompt' calls).2 = none :=
            if_neg (Bool.eq_false_iff.mp h)
          have wasOpen : prompt'.decided = false := by
            by_contra closed
            have value : decisionOf prompt' = some prompt'.decision :=
              if_pos (Bool.not_eq_false _ ▸ closed)
            rw [value] at rest
            rw [after.decision, rest.settled.1] at final
            cases final
          exact (after.undecided h).trans (undecided wasOpen)
      cases result with
      | error e =>
        have step : shouldProceed prompt (.throws e) =
            (.error e, { prompt with asked := prompt.asked + 1 }) := by
          rw [shouldProceed, decided, if_neg Bool.false_ne_true]
        exact goesOn _ _ step (if_neg (Bool.eq_false_iff.mp decided)) rfl fun _ => rfl
      | ok yes =>
        have step : shouldProceed prompt (if yes then .yes else .no) =
            (.ok yes, ⟨true, yes, prompt.asked + 1⟩) := by
          cases yes <;> simp [shouldProceed, decided]
        exact goesOn _ _ step rfl rfl fun h => (by cases h)

end

/-- What the threads are told, in the order in which they are told it. -/
structure Told (prompt : UvFallbackPrompt) (w : Threads) : Prop where
  serial : ∃ calls, serially prompt calls = (w.returns, w.prompt)
  agree : ∀ r ∈ w.returns, ∀ yes, r.2 = .ok yes →
    w.prompt.decided = true ∧ w.prompt.decision = yes
  asked : w.prompt.asked ≤
    prompt.asked + (w.returns.filter fun r => r.2.toOption.isNone).length + 1

/-- In every run, the threads are told in turn what `shouldProceed` says: all who are told a
decision are told the same one, and every dialog but one has thrown. -/
theorem prompt_told (prompt : UvFallbackPrompt) (es : List Event) (w : Threads)
    (run : Run (fun w e w' => perform w e = some w') (Threads.start prompt) es w) :
    Told prompt w := by
  obtain ⟨m, cell, shows⟩ := shows_run run (shows_start prompt)
  have sequential := run_sequential cell
  refine ⟨?_, ?_, ?_⟩
  · obtain ⟨calls, results, after⟩ := serially_of_sequential sequential
    have now : After prompt w.prompt m.value (m.returns.filter Return.computed).length :=
      ⟨shows.value.symm, shows.asked, shows.undecided⟩
    exact ⟨calls, Prod.ext (results.trans shows.returns) (after.unique now)⟩
  · intro r here yes told
    rw [← shows.returns] at here
    obtain ⟨r', member, rfl⟩ := List.mem_map.mp here
    have value := sequential.agree member told
    rw [shows.value, decisionOf] at value
    split_ifs at value with decided
    exact ⟨decided, Option.some.inj value⟩
  · have bound := sequential.computed_le
    rw [shows.asked, ← shows.returns, List.filter_map, List.length_map]
    exact Nat.add_le_add_left bound _

def sampleEvents : List Event :=
  [.shouldProceed 0, .shouldProceed 1, .lock 0, .answered 0 (.throws (.other "shutting down")),
    .lock 1, .answered 1 .yes, .shouldProceed 0, .lock 0]

theorem prompt_told_sample : ∃ w,
    Run (fun w e w' => perform w e = some w') (Threads.start ⟨false, false, 0⟩) sampleEvents w ∧
      w.prompt = ⟨true, true, 2⟩ ∧
      w.returns = [(0, .error (.other "shutting down")), (1, .ok true), (0, .ok true)] ∧
      Told ⟨false, false, 0⟩ w := by
  have run : Run (fun w e w' => perform w e = some w') (Threads.start ⟨false, false, 0⟩)
      sampleEvents _ := run_foldlM rfl
  exact ⟨_, run, rfl, rfl, prompt_told _ _ _ run⟩

end KeePassKeyWin.PromptThreads
