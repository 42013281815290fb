import Mathlib.Algebra.BigOperators.Group.Finset.Basic
import Mathlib.Algebra.Order.BigOperators.Group.Finset
import KeePassKeyWin.TransitionRuns

set_option autoImplicit false

/-!
# `sta_block_on`

The STA thread creates an event, spawns the future on the runtime and waits for the event while
COM may dispatch another call on the same thread. The task sends its value, sets the event and
ends; the thread then receives, closes the event and returns.
-/
namespace KeePassKeyWin.StaBlocking
open TransitionRuns

variable {T : Type}

/-- The task: an outcome of `none` is a panic that was caught. -/
inductive Worker (T : Type) where
  | running
  | completed (outcome : Option T)
  | sent (value : T)
  | signalled (outcome : Option T)
  | finished (outcome : Option T)

/-- The STA thread in one call: what it receives is `none` once the sender is dropped. -/
inductive Caller (T : Type) where
  | waiting
  | receiving
  | received (result : Option T)
  | closed (result : Option T)
  | returned (result : Option T)
  | failed

/-- One call of `sta_block_on`; `late` when the event was touched after it was closed. -/
structure Call (T : Type) where
  worker : Worker T
  caller : Caller T
  channel : Option T
  signaled : Bool
  isOpen : Bool
  closes : ℕ
  late : Bool

inductive Act (T : Type) where
  | complete (outcome : Option T)
  | send
  | setEvent
  | finish
  | wake
  | waitFails
  | recv
  | closeHandle
  | ret

/-- What runs on the STA thread. -/
def Act.onSta : Act T → Bool
  | .complete _ | .send | .setEvent | .finish => false
  | .wake | .waitFails | .recv | .closeHandle | .ret => true

def Call.fresh : Call T := ⟨.running, .waiting, none, false, true, 0, false⟩

/-- The call has returned, or its wait failed and its `expect` unwound it. -/
def Caller.isOver : Caller T → Bool
  | .returned _ | .failed => true
  | _ => false

/-- The channel holds one value, and a value for a receiver that is gone is dropped. -/
def Call.sendValue (c : Call T) (value : T) : Option (Call T) :=
  if c.caller.isOver then some { c with worker := .sent value }
  else
    match c.channel with
    | none => some { c with worker := .sent value, channel := some value }
    | some _ => none

def Call.signal (c : Call T) (outcome : Option T) : Call T :=
  { c with
    worker := .signalled outcome
    signaled := c.signaled || c.isOpen
    late := c.late || !c.isOpen }

def Call.receive (c : Call T) : Option (Call T) :=
  match c.channel, c.worker with
  | some value, _ => some { c with caller := .received (some value), channel := none }
  | none, .finished _ => some { c with caller := .received none }
  | none, _ => none

def Call.perform (c : Call T) (a : Act T) : Option (Call T) :=
  match a, c.worker, c.caller with
  | .complete outcome, .running, _ => some { c with worker := .completed outcome }
  | .send, .completed (some value), _ => c.sendValue value
  | .setEvent, .completed none, _ => some (c.signal none)
  | .setEvent, .sent value, _ => some (c.signal (some value))
  | .finish, .signalled outcome, _ => some { c with worker := .finished outcome }
  | .wake, _, .waiting =>
    if c.signaled then
      some { c with caller := .receiving, signaled := false, late := c.late || !c.isOpen }
    else none
  | .waitFails, _, .waiting => some { c with caller := .failed }
  | .recv, _, .receiving => c.receive
  | .closeHandle, _, .received result =>
    some { c with
      caller := .closed result
      isOpen := false
      closes := c.closes + 1
      late := c.late || !c.isOpen }
  | .ret, _, .closed result => some { c with caller := .returned result }
  | _, _, _ => none

/-- The calls by number, and those that have not returned, the innermost first. -/
structure Sta (T : Type) where
  calls : ℕ → Option (Call T)
  next : ℕ
  stack : List ℕ

inductive Label (T : Type) where
  | call
  | act (i : ℕ) (a : Act T)

def Sta.start : Sta T := ⟨fun _ => none, 0, []⟩

def Call.isWaiting (c : Call T) : Bool :=
  match c.caller with
  | .waiting => true
  | _ => false

/-- COM dispatches on an idle thread, or on one that waits in its innermost call. -/
def Sta.dispatches (s : Sta T) : Bool :=
  match s.stack with
  | [] => true
  | i :: _ => (s.calls i).any Call.isWaiting

def Sta.call (s : Sta T) : Sta T :=
  ⟨Function.update s.calls s.next (some .fresh), s.next + 1, s.next :: s.stack⟩

/-- A call that is over leaves the stack. -/
def Sta.put (s : Sta T) (i : ℕ) (a : Act T) (c : Call T) : Sta T :=
  { s with
    calls := Function.update s.calls i (some c)
    stack := if a.onSta && c.caller.isOver then s.stack.tail else s.stack }

/-- The task of any call may step; on the thread, only the innermost call does. -/
def Sta.perform (s : Sta T) : Label T → Option (Sta T)
  | .call => if s.dispatches then some s.call else none
  | .act i a =>
    if a.onSta = true ∧ s.stack.head? ≠ some i then none
    else ((s.calls i).bind fun c => c.perform a).map (s.put i a)

def step (s : Sta T) (a : Label T) (t : Sta T) : Prop := s.perform a = some t

def Label.isCall : Label T → Bool
  | .call => true
  | .act .. => false

/-- The outcome, once the event is set. -/
def Worker.told : Worker T → Option (Option T)
  | .signalled outcome | .finished outcome => some outcome
  | _ => none

def Worker.inChannel : Worker T → Option T
  | .sent value => some value
  | _ => none

def Caller.result : Caller T → Option (Option T)
  | .received result | .closed result | .returned result => some result
  | _ => none

def Caller.hasClosed : Caller T → Bool
  | .closed _ | .returned _ => true
  | _ => false

/-- The event stays set until the thread wakes, which it does only when the task has set it; and
the thread closes it once. -/
structure Call.Sound (c : Call T) : Prop where
  unset : c.caller = .waiting → c.worker.told = none →
    c.signaled = false ∧ c.channel = c.worker.inChannel
  set : ∀ outcome, c.caller = .waiting → c.worker.told = some outcome →
    c.signaled = true ∧ c.channel = outcome
  receiving : c.caller = .receiving → c.worker.told = some c.channel
  result : ∀ result, c.caller.result = some result → c.worker.told = some result
  isOpen : c.isOpen = !c.caller.hasClosed
  closes : c.closes = c.caller.hasClosed.toNat
  late : c.late = false

theorem sound_fresh : (Call.fresh : Call T).Sound where
  unset _ _ := ⟨rfl, rfl⟩
  set _ _ h := by cases h
  receiving h := by cases h
  result _ h := by cases h
  isOpen := rfl
  closes := rfl
  late := rfl

section
variable {c c' : Call T} {a : Act T}

theorem Call.Sound.early (h : c.Sound) (untold : c.worker.told = none) :
    c.caller = .waiting ∨ c.caller = .failed := by
  cases hc : c.caller with
  | waiting => exact .inl rfl
  | failed => exact .inr rfl
  | receiving => simp [h.receiving hc] at untold
  | received r | closed r | returned r =>
    simp [h.result r (by rw [hc]; rfl)] at untold

theorem Call.Sound.openEarly (h : c.Sound) (untold : c.worker.told = none) : c.isOpen = true := by
  obtain hc | hc := h.early untold <;> rw [h.isOpen, hc] <;> rfl

theorem sound_unset (h : c.Sound) (untold : c.worker.told = none) {worker : Worker T}
    {channel : Option T} (untold' : worker.told = none)
    (sent : c.caller = .waiting → channel = worker.inChannel) :
    ({ c with worker, channel } : Call T).Sound where
  unset waiting _ := ⟨(h.unset waiting untold).1, sent waiting⟩
  set outcome _ told := by
    rw [untold'] at told
    cases told
  receiving hc := by
    have told := h.receiving hc
    rw [untold] at told
    cases told
  result r hc := by
    have told := h.result r hc
    rw [untold] at told
    cases told
  isOpen := h.isOpen
  closes := h.closes
  late := h.late

theorem sound_send {value : T} (h : c.Sound) (ready : c.worker = .completed (some value))
    (step : c.sendValue value = some c') : c'.Sound ∧ c'.caller = c.caller := by
  have untold : c.worker.told = none := by rw [ready]; rfl
  unfold Call.sendValue at step
  split_ifs at step with isOver
  · obtain rfl := Option.some.inj step
    refine ⟨sound_unset h untold rfl fun waiting => ?_, rfl⟩
    rw [waiting] at isOver
    cases isOver
  · split at step
    · obtain rfl := Option.some.inj step
      exact ⟨sound_unset h untold rfl fun _ => rfl, rfl⟩
    · cases step

theorem sound_signal {outcome : Option T} (h : c.Sound) (untold : c.worker.told = none)
    (sent : c.worker.inChannel = outcome) : (c.signal outcome).Sound where
  unset _ told := by cases told
  set o waiting told := by
    obtain rfl := Option.some.inj told
    refine ⟨?_, (h.unset waiting untold).2.trans sent⟩
    rw [Call.signal, h.openEarly untold, Bool.or_true]
  receiving hc := by
    have told := h.receiving hc
    rw [untold] at told
    cases told
  result r hc := by
    have told := h.result r hc
    rw [untold] at told
    cases told
  isOpen := h.isOpen
  closes := h.closes
  late := by
    change (c.late || !c.isOpen) = false
    rw [h.late, h.openEarly untold]
    rfl

theorem sound_finish {outcome : Option T} (h : c.Sound) (ready : c.worker = .signalled outcome) :
    ({ c with worker := .finished outcome } : Call T).Sound := by
  have told : c.worker.told = (Worker.finished outcome).told := by rw [ready]; rfl
  refine ⟨fun _ untold => ?_, fun o waiting same => ?_, fun hc => ?_, fun r hc => ?_, h.isOpen,
    h.closes, h.late⟩
  · cases untold
  · exact h.set o waiting (told.trans same)
  · exact told.symm.trans (h.receiving hc)
  · exact told.symm.trans (h.result r hc)

theorem sound_worker (h : c.Sound) (task : a.onSta = false) (step : c.perform a = some c') :
    c'.Sound ∧ c'.caller = c.caller := by
  unfold Call.perform at step
  split at step
  case h_1 outcome worker =>
    obtain rfl := Option.some.inj step
    have untold : c.worker.told = none := by rw [worker]; rfl
    refine ⟨sound_unset h untold rfl fun waiting => ?_, rfl⟩
    rw [(h.unset waiting untold).2, worker]
    rfl
  case h_2 value worker => exact sound_send h worker step
  case h_3 worker =>
    obtain rfl := Option.some.inj step
    exact ⟨sound_signal h (by rw [worker]; rfl) (by rw [worker]; rfl), rfl⟩
  case h_4 value worker =>
    obtain rfl := Option.some.inj step
    exact ⟨sound_signal h (by rw [worker]; rfl) (by rw [worker]; rfl), rfl⟩
  case h_5 outcome worker =>
    obtain rfl := Option.some.inj step
    exact ⟨sound_finish h worker, rfl⟩
  all_goals first | cases task | cases step

theorem sound_wake (h : c.Sound) (waiting : c.caller = .waiting) (signaled : c.signaled = true) :
    ({ c with caller := .receiving, signaled := false, late := c.late || !c.isOpen } :
      Call T).Sound := by
  have opened : c.isOpen = true := by rw [h.isOpen, waiting]; rfl
  refine ⟨fun hc => ?_, fun _ hc => ?_, fun _ => ?_, fun _ hc => ?_, opened, ?_, ?_⟩
  · cases hc
  · cases hc
  · cases told : c.worker.told with
    | none =>
      rw [(h.unset waiting told).1] at signaled
      cases signaled
    | some outcome => exact congrArg some (h.set outcome waiting told).2.symm
  · cases hc
  · rw [h.closes, waiting]
    rfl
  · simp [h.late, opened]

theorem sound_of_result {r : Option T} (result : c.caller.result = some r)
    (told : c.worker.told = some r) (isOpen : c.isOpen = !c.caller.hasClosed)
    (closes : c.closes = c.caller.hasClosed.toNat) (late : c.late = false) : c.Sound where
  unset hc := by
    rw [hc] at result
    cases result
  set _ hc := by
    rw [hc] at result
    cases result
  receiving hc := by
    rw [hc] at result
    cases result
  result _ same := by rw [told, ← result, same]
  isOpen := isOpen
  closes := closes
  late := late

theorem sound_receive (h : c.Sound) (receiving : c.caller = .receiving)
    (step : c.receive = some c') : c'.Sound := by
  have told := h.receiving receiving
  have opened : c.isOpen = true := by rw [h.isOpen, receiving]; rfl
  have unclosed : c.closes = 0 := by rw [h.closes, receiving]; rfl
  unfold Call.receive at step
  split at step
  · rename_i value channel
    obtain rfl := Option.some.inj step
    exact sound_of_result rfl (channel ▸ told) opened unclosed h.late
  · rename_i outcome channel finished
    obtain rfl := Option.some.inj step
    exact sound_of_result rfl (channel ▸ told) opened unclosed h.late
  · cases step

theorem sound_caller (h : c.Sound) (sta : a.onSta = true) (step : c.perform a = some c') :
    c'.Sound := by
  unfold Call.perform at step
  split at step
  case h_6 waiting =>
    split_ifs at step with signaled
    obtain rfl := Option.some.inj step
    exact sound_wake h waiting signaled
  case h_7 waiting =>
    obtain rfl := Option.some.inj step
    refine ⟨fun hc => ?_, fun _ hc => ?_, fun hc => ?_, fun _ hc => ?_, ?_, ?_, h.late⟩
    · cases hc
    · cases hc
    · cases hc
    · cases hc
    · rw [h.isOpen, waiting]
      rfl
    · rw [h.closes, waiting]
      rfl
  case h_8 receiving => exact sound_receive h receiving step
  case h_9 result received =>
    obtain rfl := Option.some.inj step
    have opened : c.isOpen = true := by rw [h.isOpen, received]; rfl
    refine sound_of_result rfl (h.result result (by rw [received]; rfl)) rfl ?_ ?_
    · rw [h.closes, received]
      rfl
    · simp [h.late, opened]
  case h_10 result closed =>
    obtain rfl := Option.some.inj step
    refine sound_of_result rfl (h.result result (by rw [closed]; rfl)) ?_ ?_ h.late
    · rw [h.isOpen, closed]
      rfl
    · rw [h.closes, closed]
      rfl
  all_goals first | cases sta | cases step

theorem sound_perform (h : c.Sound) (step : c.perform a = some c') : c'.Sound := by
  cases onSta : a.onSta with
  | false => exact (sound_worker h onSta step).1
  | true => exact sound_caller h onSta step

end

/-- Those that are not over are on the stack, and all but the innermost wait. -/
structure Sta.Sound (s : Sta T) : Prop where
  call : ∀ i c, s.calls i = some c → c.Sound
  unknown : ∀ i, s.next ≤ i → s.calls i = none
  known : ∀ i ∈ s.stack, ∃ c, s.calls i = some c
  pending : ∀ i c, s.calls i = some c → (i ∈ s.stack ↔ c.caller.isOver = false)
  waits : ∀ i ∈ s.stack.tail, ∀ c, s.calls i = some c → c.caller = .waiting
  nodup : s.stack.Nodup

theorem staSound_start : (Sta.start : Sta T).Sound where
  call _ _ h := by cases h
  unknown _ _ := rfl
  known _ h := by cases h
  pending _ _ h := by cases h
  waits _ h := by cases h
  nodup := List.nodup_nil

section
variable {s t : Sta T} {i : ℕ} {a : Act T}

theorem perform_act : s.perform (.act i a) = some t ↔
    ∃ c c', s.calls i = some c ∧ c.perform a = some c' ∧
      (a.onSta = true → s.stack.head? = some i) ∧ t = s.put i a c' := by
  rw [Sta.perform]
  constructor
  · intro h
    split_ifs at h with other
    obtain ⟨c', hc', rfl⟩ := Option.map_eq_some_iff.mp h
    obtain ⟨c, hc, step⟩ := Option.bind_eq_some_iff.mp hc'
    refine ⟨c, c', hc, step, fun onSta => ?_, rfl⟩
    by_contra apart
    exact other ⟨onSta, apart⟩
  · rintro ⟨c, c', hc, step, top, rfl⟩
    rw [if_neg fun other => other.2 (top other.1), hc, Option.bind_some, step, Option.map_some]

theorem update_call {calls : ℕ → Option (Call T)} {c d : Call T} {j : ℕ}
    (h : Function.update calls i (some c) j = some d) :
    j = i ∧ d = c ∨ j ≠ i ∧ calls j = some d := by
  by_cases own : j = i
  · subst own
    rw [Function.update_self] at h
    exact .inl ⟨rfl, (Option.some.inj h).symm⟩
  · rw [Function.update_of_ne own] at h
    exact .inr ⟨own, h⟩

theorem staSound_call (h : s.Sound) (dispatches : s.dispatches = true) : s.call.Sound where
  call j c hc := by
    obtain ⟨-, rfl⟩ | ⟨-, old⟩ := update_call hc
    · exact sound_fresh
    · exact h.call j c old
  unknown j hj := by
    have later : s.next + 1 ≤ j := hj
    change Function.update s.calls s.next (some .fresh) j = none
    rw [Function.update_of_ne (by omega)]
    exact h.unknown j (by omega)
  known j hj := by
    change ∃ c, Function.update s.calls s.next (some .fresh) j = some c
    by_cases own : j = s.next
    · subst own
      exact ⟨_, Function.update_self ..⟩
    · rw [Function.update_of_ne own]
      exact h.known j ((List.mem_cons.mp hj).resolve_left own)
  pending j c hc := by
    change j ∈ s.next :: s.stack ↔ _
    obtain ⟨rfl, rfl⟩ | ⟨other, old⟩ := update_call hc
    · exact iff_of_true (List.mem_cons_self ..) rfl
    · rw [List.mem_cons, or_iff_right other]
      exact h.pending j c old
  waits j hj c hc := by
    have member : j ∈ s.stack := hj
    obtain ⟨rfl, -⟩ | ⟨-, old⟩ := update_call hc
    · obtain ⟨d, known⟩ := h.known _ member
      rw [h.unknown _ le_rfl] at known
      cases known
    · unfold Sta.dispatches at dispatches
      cases hs : s.stack with
      | nil =>
        rw [hs] at member
        cases member
      | cons i rest =>
        rw [hs] at member dispatches
        obtain rfl | deeper := List.mem_cons.mp member
        · simp only [old, Option.any_some, Call.isWaiting] at dispatches
          split at dispatches
          · assumption
          · cases dispatches
        · exact h.waits j (by rw [hs]; exact deeper) c old
  nodup := by
    refine List.nodup_cons.mpr ⟨fun member => ?_, h.nodup⟩
    obtain ⟨c, known⟩ := h.known _ member
    rw [h.unknown _ le_rfl] at known
    cases known

theorem stack_put (h : s.Sound) {c c' : Call T} (hc : s.calls i = some c)
    (step : c.perform a = some c') (top : a.onSta = true → s.stack.head? = some i) :
    ((s.put i a c').stack = s.stack ∧ c'.caller.isOver = c.caller.isOver ∧
        (i ∈ s.stack.tail → c'.caller = c.caller)) ∨
      (s.stack = i :: (s.put i a c').stack ∧ c'.caller.isOver = true) := by
  cases onSta : a.onSta with
  | false =>
    have same : c'.caller = c.caller := (sound_worker (h.call i c hc) onSta step).2
    exact .inl ⟨by simp [Sta.put, onSta], by rw [same], fun _ => same⟩
  | true =>
    obtain ⟨rest, hs⟩ := List.head?_eq_some_iff.mp (top onSta)
    have pending : c.caller.isOver = false :=
      (h.pending i c hc).mp (by rw [hs]; exact List.mem_cons_self ..)
    cases isOver : c'.caller.isOver with
    | true => exact .inr ⟨by simp [Sta.put, onSta, isOver, hs], rfl⟩
    | false =>
      refine .inl ⟨by simp [Sta.put, isOver], pending.symm, fun deeper => ?_⟩
      have nodup := h.nodup
      rw [hs] at deeper nodup
      exact absurd deeper (List.nodup_cons.mp nodup).1

theorem staSound_put (h : s.Sound) {c c' : Call T} (hc : s.calls i = some c)
    (step : c.perform a = some c') (top : a.onSta = true → s.stack.head? = some i) :
    (s.put i a c').Sound := by
  have stack := stack_put h hc step top
  have sub : (s.put i a c').stack ⊆ s.stack := by
    obtain ⟨same, -⟩ | ⟨popped, -⟩ := stack
    · rw [same]
      exact List.Subset.refl _
    · rw [popped]
      exact List.subset_cons_self _ _
  refine ⟨fun j d hd => ?_, fun j hj => ?_, fun j hj => ?_, fun j d hd => ?_, fun j hj d hd => ?_, ?_⟩
  · obtain ⟨-, rfl⟩ | ⟨-, old⟩ := update_call hd
    · exact sound_perform (h.call i c hc) step
    · exact h.call j d old
  · have other : j ≠ i := by
      rintro rfl
      rw [h.unknown j hj] at hc
      cases hc
    exact (Function.update_of_ne other _ _).trans (h.unknown j hj)
  · by_cases own : j = i
    · subst own
      exact ⟨c', Function.update_self ..⟩
    · exact (h.known j (sub hj)).imp fun d hd => (Function.update_of_ne own _ _).trans hd
  · obtain ⟨same, isOver, -⟩ | ⟨popped, isOver⟩ := stack
    · rw [same]
      obtain ⟨rfl, rfl⟩ | ⟨-, old⟩ := update_call hd
      · rw [isOver]
        exact h.pending j c hc
      · exact h.pending j d old
    · have nodup := h.nodup
      rw [popped] at nodup
      obtain ⟨rfl, rfl⟩ | ⟨other, old⟩ := update_call hd
      · simp [isOver, (List.nodup_cons.mp nodup).1]
      · rw [← h.pending j d old, popped, List.mem_cons, or_iff_right other]
  · obtain ⟨same, -, waiting⟩ | ⟨popped, -⟩ := stack
    · rw [same] at hj
      obtain ⟨rfl, rfl⟩ | ⟨-, old⟩ := update_call hd
      · exact (waiting hj).trans (h.waits j hj c hc)
      · exact h.waits j hj d old
    · have nodup := h.nodup
      have deeper := List.mem_of_mem_tail hj
      rw [popped] at nodup
      obtain ⟨rfl, -⟩ | ⟨-, old⟩ := update_call hd
      · exact absurd deeper (List.nodup_cons.mp nodup).1
      · exact h.waits j (by rw [popped]; exact deeper) d old
  · obtain ⟨same, -⟩ | ⟨popped, -⟩ := stack
    · rw [same]
      exact h.nodup
    · have nodup := h.nodup
      rw [popped] at nodup
      exact (List.nodup_cons.mp nodup).2

theorem staSound_step {l : Label T} (h : s.Sound) (hs : step s l t) : t.Sound := by
  cases l with
  | call =>
    rw [step, Sta.perform] at hs
    split_ifs at hs with dispatches
    obtain rfl := Option.some.inj hs
    exact staSound_call h dispatches
  | act i a =>
    obtain ⟨c, c', hc, performed, top, rfl⟩ := perform_act.mp hs
    exact staSound_put h hc performed top

theorem staSound_run {labels : List (Label T)} (run : Run step (Sta.start : Sta T) labels t) :
    t.Sound := run.invariant (fun _ _ _ => staSound_step) staSound_start

end

/-- However calls nest and however the runtime schedules their tasks: no event is touched after it
is closed, none is closed twice or before its task has set it, a call that returns has the outcome
of its own future, and an outer call waits for those within it. -/
theorem sta_block_on_safe (T : Type) (labels : List (Label T)) (s : Sta T)
    (run : Run step Sta.start labels s) :
    (∀ i c, s.calls i = some c → c.late = false ∧ c.closes ≤ 1 ∧
      (c.closes = 1 → ∃ outcome, c.worker = .signalled outcome ∨ c.worker = .finished outcome) ∧
      ∀ result, c.caller = .returned result →
        c.closes = 1 ∧ (c.worker = .signalled result ∨ c.worker = .finished result)) ∧
    ∀ i ∈ s.stack.tail, ∀ c, s.calls i = some c → c.caller = .waiting := by
  have sound := staSound_run run
  have told_iff {w : Worker T} {outcome : Option T} (told : w.told = some outcome) :
      w = .signalled outcome ∨ w = .finished outcome := by
    cases w <;> simp_all [Worker.told]
  refine ⟨fun i c hc => ?_, sound.waits⟩
  have h := sound.call i c hc
  refine ⟨h.late, ?_, fun closed => ?_, fun result returned => ⟨?_, ?_⟩⟩
  · rw [h.closes]
    exact Bool.toNat_le _
  · have result : ∃ result, c.caller.result = some result := by
      rw [h.closes] at closed
      cases hcaller : c.caller <;> simp_all [Caller.hasClosed, Caller.result]
    exact result.imp fun result hr => told_iff (h.result result hr)
  · rw [h.closes, returned]
    rfl
  · exact told_iff (h.result result (by rw [returned]; rfl))

def Worker.left : Worker T → ℕ
  | .running => 4
  | .completed _ => 3
  | .sent _ => 2
  | .signalled _ => 1
  | .finished _ => 0

def Caller.left : Caller T → ℕ
  | .waiting => 4
  | .receiving => 3
  | .received _ => 2
  | .closed _ => 1
  | .returned _ | .failed => 0

def Call.left (c : Call T) : ℕ := c.worker.left + c.caller.left

/-- The steps that the calls so far still have to take. -/
def Sta.left (s : Sta T) : ℕ :=
  ∑ i ∈ Finset.range s.next, (s.calls i).elim 0 Call.left

section
variable {c c' : Call T} {a : Act T} {s t : Sta T} {i : ℕ}

theorem left_perform (step : c.perform a = some c') : c'.left < c.left := by
  unfold Call.perform at step
  split at step
  case h_2 value worker =>
    unfold Call.sendValue at step
    split_ifs at step
    · obtain rfl := Option.some.inj step
      simp [Call.left, worker, Worker.left]
    · split at step
      · obtain rfl := Option.some.inj step
        simp [Call.left, worker, Worker.left]
      · cases step
  case h_6 waiting =>
    split_ifs at step
    obtain rfl := Option.some.inj step
    simp [Call.left, waiting, Caller.left]
  case h_8 receiving =>
    unfold Call.receive at step
    split at step
    · obtain rfl := Option.some.inj step
      simp [Call.left, receiving, Caller.left]
    · obtain rfl := Option.some.inj step
      simp [Call.left, receiving, Caller.left]
    · cases step
  case h_11 => cases step
  all_goals
    obtain rfl := Option.some.inj step
    simp_all [Call.left, Call.signal, Worker.left, Caller.left]

theorem left_put (h : s.Sound) (hc : s.calls i = some c) (less : c'.left < c.left) :
    (s.put i a c').left < s.left := by
  have known : i < s.next := by
    by_contra far
    rw [h.unknown i (by omega)] at hc
    cases hc
  refine Finset.sum_lt_sum (fun j _ => ?_) ⟨i, Finset.mem_range.mpr known, ?_⟩
  · change (Function.update s.calls i (some c') j).elim 0 Call.left ≤ _
    by_cases own : j = i
    · subst own
      rw [Function.update_self, hc]
      exact less.le
    · rw [Function.update_of_ne own]
  · change (Function.update s.calls i (some c') i).elim 0 Call.left < _
    rw [Function.update_self, hc]
    exact less

def quiet : Sta T → Label T → Sta T → Prop :=
  restrict (fun _ l => l.isCall = false) step

theorem left_quiet (h : s.Sound) {l : Label T} (hs : quiet s l t) : t.left < s.left := by
  obtain ⟨act, hs⟩ := hs
  cases l with
  | call => cases act
  | act i a =>
    obtain ⟨c, c', hc, performed, -, rfl⟩ := perform_act.mp hs
    exact left_put h hc (left_perform performed)

theorem task_goes_on (h : c.Sound) (unfinished : ∀ outcome, c.worker ≠ .finished outcome) :
    ∃ a c', a.onSta = false ∧ c.perform a = some c' := by
  have early (untold : c.worker.told = none) := h.early untold
  obtain ⟨worker, caller, channel, signaled, isOpen, closes, late⟩ := c
  cases worker with
  | running => exact ⟨.complete none, _, rfl, rfl⟩
  | completed outcome =>
    cases outcome with
    | none => exact ⟨.setEvent, _, rfl, rfl⟩
    | some value =>
      obtain rfl | rfl : caller = .waiting ∨ caller = .failed := early rfl
      · obtain ⟨-, rfl⟩ : signaled = false ∧ channel = none := h.unset rfl rfl
        exact ⟨.send, _, rfl, rfl⟩
      · exact ⟨.send, _, rfl, rfl⟩
  | sent value => exact ⟨.setEvent, _, rfl, rfl⟩
  | signalled outcome => exact ⟨.finish, _, rfl, rfl⟩
  | finished outcome => exact absurd rfl (unfinished outcome)

theorem caller_goes_on (h : c.Sound) {outcome : Option T} (finished : c.worker = .finished outcome)
    (pending : c.caller.isOver = false) : ∃ a c', c.perform a = some c' := by
  obtain ⟨worker, caller, channel, signaled, isOpen, closes, late⟩ := c
  obtain rfl : worker = .finished outcome := finished
  cases caller with
  | waiting =>
    obtain ⟨rfl, -⟩ : signaled = true ∧ channel = outcome := h.set outcome rfl rfl
    exact ⟨.wake, _, rfl⟩
  | receiving =>
    cases channel with
    | none => exact ⟨.recv, _, rfl⟩
    | some value => exact ⟨.recv, _, rfl⟩
  | received result => exact ⟨.closeHandle, _, rfl⟩
  | closed result => exact ⟨.ret, _, rfl⟩
  | returned result => cases pending
  | failed => cases pending

theorem over_of_stuck (h : s.Sound) (stuck : ∀ l t, ¬ quiet s l t) :
    s.stack = [] ∧ ∀ i c, s.calls i = some c → c.caller = .failed ∨
      ∃ outcome, c.worker = .finished outcome ∧ c.caller = .returned outcome := by
  have finished (i : ℕ) (c : Call T) (hc : s.calls i = some c) :
      ∃ outcome, c.worker = .finished outcome := by
    by_contra unfinished
    obtain ⟨a, c', task, performed⟩ := task_goes_on (h.call i c hc)
      fun outcome same => unfinished ⟨outcome, same⟩
    refine stuck (.act i a) (s.put i a c') ⟨rfl, perform_act.mpr ⟨c, c', hc, performed, ?_, rfl⟩⟩
    rw [task]
    exact fun h => by cases h
  have empty : s.stack = [] := by
    cases hs : s.stack with
    | nil => rfl
    | cons i rest =>
      have top : i ∈ s.stack := by rw [hs]; exact List.mem_cons_self ..
      obtain ⟨c, hc⟩ := h.known i top
      obtain ⟨outcome, ended⟩ := finished i c hc
      obtain ⟨a, c', performed⟩ := caller_goes_on (h.call i c hc) ended ((h.pending i c hc).mp top)
      exact absurd ⟨rfl, perform_act.mpr ⟨c, c', hc, performed, fun _ => by rw [hs]; rfl, rfl⟩⟩
        (stuck (.act i a) (s.put i a c'))
  refine ⟨empty, fun i c hc => ?_⟩
  obtain ⟨outcome, ended⟩ := finished i c hc
  have isOver : c.caller.isOver = true := by
    have isOver := not_congr (h.pending i c hc)
    simpa [empty] using isOver
  cases hcaller : c.caller with
  | failed => exact .inl rfl
  | returned result =>
    have told := (h.call i c hc).result result (by rw [hcaller]; rfl)
    rw [ended] at told
    obtain rfl := Option.some.inj told
    exact .inr ⟨outcome, ended, rfl⟩
  | waiting | receiving | received | closed =>
    rw [hcaller] at isOver
    cases isOver

end

/-- Whatever the order of steps, the calls that are pending end: the tasks and the thread take a
bounded number of steps once no further call is dispatched, and where none is left to take, every
call has returned what its future gave, or its wait had failed. -/
theorem sta_block_on_returns (T : Type) (labels : List (Label T)) (s : Sta T)
    (run : Run step Sta.start labels s) (rest : List (Label T)) (t : Sta T)
    (run' : Run quiet s rest t) :
    rest.length ≤ s.left ∧ ((∀ l u, ¬ quiet t l u) → t.stack = [] ∧
      ∀ i c, t.calls i = some c → c.caller = .failed ∨
        ∃ outcome, c.worker = .finished outcome ∧ c.caller = .returned outcome) := by
  have sound := staSound_run run
  have keep (s : Sta T) (l : Label T) (t : Sta T) (h : s.Sound) (hs : quiet s l t) : t.Sound :=
    staSound_step h hs.2
  have bound := run'.length_le keep (fun _ _ _ h hs => left_quiet h hs) sound
  exact ⟨by omega, over_of_stuck (run'.invariant keep sound)⟩

namespace Sample

/-- A call within a call; the outer task is done first, and the inner one panics. -/
def nested : List (Label Bool) :=
  [.call, .act 0 (.complete (some true)), .call, .act 0 .send, .act 0 .setEvent,
    .act 1 (.complete none), .act 1 .setEvent]

def unwinding : List (Label Bool) :=
  [.act 1 .wake, .act 1 .finish, .act 1 .recv, .act 1 .closeHandle, .act 1 .ret, .act 0 .wake,
    .act 0 .recv, .act 0 .closeHandle, .act 0 .ret, .act 0 .finish]

def after (s : Sta Bool) (labels : List (Label Bool)) : Sta Bool :=
  labels.foldl (fun s l => (s.perform l).getD s) s

theorem run_nested : Run step Sta.start nested (after Sta.start nested) := run_foldlM rfl

theorem run_unwinding : Run quiet (after Sta.start nested) unwinding
    (after (after Sta.start nested) unwinding) := by
  have run : Run step (after Sta.start nested) unwinding (after (after Sta.start nested) unwinding) :=
    run_foldlM rfl
  exact run.restrict_labels (by decide)

end Sample

/-- The outer call waits for the inner one, although its task is done. -/
theorem sta_block_on_safe_sample : ∃ c, (Sample.after Sta.start Sample.nested).calls 0 = some c ∧
    c.caller = .waiting ∧ c.late = false := by
  have safe := sta_block_on_safe Bool Sample.nested _ Sample.run_nested
  have found : (Sample.after Sta.start Sample.nested).calls 0 = some _ := rfl
  exact ⟨_, found, safe.2 0 (by decide) _ found, (safe.1 0 _ found).1⟩

theorem sta_block_on_returns_sample :
    Sample.unwinding.length ≤ (Sample.after Sta.start Sample.nested).left ∧
      (Sample.after (Sample.after Sta.start Sample.nested) Sample.unwinding).stack = [] :=
  ⟨(sta_block_on_returns Bool Sample.nested _ Sample.run_nested Sample.unwinding _
    Sample.run_unwinding).1, rfl⟩

end KeePassKeyWin.StaBlocking
