import KeePassKeyWin.TransitionRuns
import Mathlib.Logic.Function.Basic

set_option autoImplicit false

/-!
# The shared pipe

The process-wide slot, the authenticator states and their pipes. COM calls run on one thread and
nest: while a call waits for its future, further calls and activations may run on top of it, but
nothing runs on top of an activation, which blocks the thread. Futures and reconcile tasks go on
meanwhile. How a call, a connection attempt or a handshake ends is free.
-/
namespace KeePassKeyWin.SharedPipe
open Function TransitionRuns

variable {κ : Type}

/-- How far the future of `take_call_with_retry` is, with the connection it has: in its first
call, connecting again, in the handshake, in its second call, or done. -/
inductive Progress (κ : Type) where
  | calling (c : κ)
  | connecting
  | handshaking (c : κ)
  | retrying (c : κ)
  | done (fresh : Option κ)

def Progress.pipe : Progress κ → Option κ
  | .calling c | .handshaking c | .retrying c => some c
  | .connecting => none
  | .done fresh => fresh

structure Call (κ : Type) where
  state : ℕ
  progress : Progress κ

inductive Reconcile (κ : Type) where
  | absent
  | waiting
  | holding (c : κ)
  | ended

/-- The states are numbered as they are created, and the calls listed with the innermost first.
An activation that has no cached state to reuse connects, and then has a connection. -/
structure Sidecar (κ : Type) where
  created : ℕ
  pipes : ℕ → Option κ
  slot : Option ℕ
  activation : Option (Option κ)
  calls : List (Call κ)
  reconcile : ℕ → Reconcile κ

def Sidecar.start : Sidecar κ := ⟨0, fun _ => none, none, none, [], fun _ => .absent⟩

inductive Act (κ : Type) where
  | activate
  | connected (c : κ)
  | handshaken
  | activationFailed
  | call (state : ℕ)
  | returned (k : ℕ) (stale : Bool)
  | reconnected (k : ℕ) (c : κ)
  | greeted (k : ℕ)
  | reconnectFailed (k : ℕ)
  | retried (k : ℕ)
  | finish
  | take (state : ℕ)
  | putBack (state : ℕ)

def Sidecar.advance (k : ℕ) (progress : Progress κ) (s : Sidecar κ) : Sidecar κ :=
  { s with calls := s.calls.modify k fun call => { call with progress } }

def perform (s : Sidecar κ) : Act κ → Option (Sidecar κ)
  | .activate =>
    match s.activation, s.slot with
    | some _, _ => none
    | none, some _ => some s
    | none, none => some { s with activation := some none }
  | .connected c =>
    match s.activation with
    | some none => some { s with activation := some (some c) }
    | _ => none
  | .handshaken =>
    match s.activation with
    | some (some c) => some { s with
        created := s.created + 1
        pipes := update s.pipes s.created (some c)
        slot := some s.created
        activation := none
        reconcile := update s.reconcile s.created .waiting }
    | _ => none
  | .activationFailed =>
    match s.activation with
    | some _ => some { s with created := s.created + 1, activation := none }
    | none => none
  | .call i =>
    if s.activation.isNone ∧ i < s.created then
      match s.pipes i with
      | none => some s
      | some c => some { s with
          pipes := update s.pipes i none
          calls := ⟨i, .calling c⟩ :: s.calls }
    else none
  | .returned k stale =>
    match s.calls[k]? with
    | some ⟨_, .calling c⟩ =>
      some (s.advance k (if stale then .connecting else .done (some c)))
    | _ => none
  | .reconnected k c =>
    match s.calls[k]? with
    | some ⟨_, .connecting⟩ => some (s.advance k (.handshaking c))
    | _ => none
  | .greeted k =>
    match s.calls[k]? with
    | some ⟨_, .handshaking c⟩ => some (s.advance k (.retrying c))
    | _ => none
  | .reconnectFailed k =>
    match s.calls[k]? with
    | some ⟨_, .connecting⟩ | some ⟨_, .handshaking _⟩ => some (s.advance k (.done none))
    | _ => none
  | .retried k =>
    match s.calls[k]? with
    | some ⟨_, .retrying c⟩ => some (s.advance k (.done (some c)))
    | _ => none
  | .finish =>
    match s.activation, s.calls with
    | none, ⟨i, .done (some c)⟩ :: calls =>
      some { s with calls, pipes := update s.pipes i (some c) }
    | none, ⟨_, .done none⟩ :: calls => some { s with calls, slot := none }
    | _, _ => none
  | .take i =>
    match s.reconcile i, s.pipes i with
    | .waiting, none => some { s with reconcile := update s.reconcile i .ended }
    | .waiting, some c => some { s with
        pipes := update s.pipes i none
        reconcile := update s.reconcile i (.holding c) }
    | _, _ => none
  | .putBack i =>
    match s.reconcile i with
    | .holding c => some { s with
        pipes := update s.pipes i (some c)
        reconcile := update s.reconcile i .ended }
    | _ => none

def step (s : Sidecar κ) (act : Act κ) (t : Sidecar κ) : Prop := perform s act = some t

inductive Owner where
  | activation
  | state (i : ℕ)
  | call (k : ℕ)
  | reconcile (i : ℕ)

def Owns (s : Sidecar κ) (c : κ) : Owner → Prop
  | .activation => s.activation = some (some c)
  | .state i => s.pipes i = some c
  | .call k => ∃ i progress, s.calls[k]? = some ⟨i, progress⟩ ∧ progress.pipe = some c
  | .reconcile i => s.reconcile i = .holding c

def InFlight (s : Sidecar κ) (i : ℕ) : Owner → Prop
  | .call k => ∃ progress, s.calls[k]? = some ⟨i, progress⟩
  | .reconcile j => j = i ∧ ∃ c, s.reconcile i = .holding c
  | .activation | .state _ => False

/-- The cached state is `i`, and its pipe is in it or with exactly one call or task. -/
structure Cached (s : Sidecar κ) (i : ℕ) : Prop where
  elsewhere : ∀ j, j ≠ i → s.pipes j = none ∧ ∀ o, ¬ InFlight s j o
  here : (s.pipes i).isSome = true ∧ (∀ o, ¬ InFlight s i o) ∨
    s.pipes i = none ∧ ∃! o, InFlight s i o

/-- What is in flight ends with a pipe put back into the cached state, or with the slot cleared;
and it can end. -/
structure Settles (s : Sidecar κ) (i : ℕ) (o : Owner) : Prop where
  settled : ∀ act t, step s act t → ¬ InFlight t i o →
    t.slot = some i ∧ (t.pipes i).isSome = true ∨ t.slot = none
  ends : ∃ acts t, Run step s acts t ∧ ¬ InFlight t i o

structure Shared (s : Sidecar κ) : Prop where
  single : ∀ o o' c c', Owns s c o → Owns s c' o' → o = o' ∧ c = c'
  empty : s.slot = none → (∀ i, s.pipes i = none) ∧ ∀ i o, ¬ InFlight s i o
  cached : ∀ i, s.slot = some i → Cached s i
  settles : ∀ i o, InFlight s i o → Settles s i o

inductive Place (κ : Type) where
  | outside (activation : Option (Option κ))
  | stored (i : ℕ) (c : κ)
  | called (i : ℕ) (progress : Progress κ)
  | enumerating (i : ℕ) (c : κ)

namespace Place

def slot : Place κ → Option ℕ
  | .outside _ => none
  | .stored i _ | .called i _ | .enumerating i _ => some i

def pipes : Place κ → ℕ → Option κ
  | .stored i c => update (fun _ => none) i (some c)
  | _ => fun _ => none

def activation : Place κ → Option (Option κ)
  | .outside activation => activation
  | _ => none

def calls : Place κ → List (Call κ)
  | .called i progress => [⟨i, progress⟩]
  | _ => []

end Place

/-- The state of the sidecar, but for the tasks that hold nothing, is given by the place. -/
structure At (s : Sidecar κ) (place : Place κ) : Prop where
  slot : s.slot = place.slot
  pipes : s.pipes = place.pipes
  activation : s.activation = place.activation
  calls : s.calls = place.calls
  reconcile : ∀ i c, s.reconcile i = .holding c ↔ place = .enumerating i c
  created : ∀ i, place.slot = some i → i < s.created
  fresh : ∀ i, s.created ≤ i → s.reconcile i = .absent

section
variable {s t : Sidecar κ} {place : Place κ}

theorem At.of_activation (h : At s place) {a : Option κ} (ha : s.activation = some a) :
    place = .outside (some a) := by
  rw [h.activation] at ha
  cases place with
  | outside activation => exact congrArg Place.outside ha
  | _ => cases ha

theorem At.of_empty (h : At s place) (hs : s.slot = none) :
    place = .outside s.activation := by
  rw [h.slot] at hs
  cases place with
  | outside activation => exact congrArg Place.outside h.activation.symm
  | _ => cases hs

theorem At.of_pipe (h : At s place) {i : ℕ} {c : κ} (hp : s.pipes i = some c) :
    place = .stored i c := by
  rw [h.pipes] at hp
  cases place with
  | stored j d =>
    by_cases same : i = j
    · subst same
      simp only [Place.pipes, update_self, Option.some.injEq] at hp
      rw [hp]
    · simp [Place.pipes, update_of_ne same] at hp
  | _ => cases hp

theorem At.of_call (h : At s place) {k i : ℕ} {progress : Progress κ}
    (hc : s.calls[k]? = some ⟨i, progress⟩) : k = 0 ∧ place = .called i progress := by
  rw [h.calls] at hc
  cases place with
  | called j p =>
    cases k with
    | zero =>
      obtain ⟨rfl, rfl⟩ := Call.mk.inj (Option.some.inj hc)
      exact ⟨rfl, rfl⟩
    | succ k => simp [Place.calls] at hc
  | _ => simp [Place.calls] at hc

theorem At.of_holding (h : At s place) {i : ℕ} {c : κ} (hr : s.reconcile i = .holding c) :
    place = .enumerating i c := (h.reconcile i c).mp hr

theorem at_start : At (.start : Sidecar κ) (.outside none) :=
  ⟨rfl, rfl, rfl, rfl, by simp [Sidecar.start], by simp [Place.slot], fun _ _ => rfl⟩

theorem at_activate (h : At s place) (hs : step s .activate t) : ∃ place, At t place := by
  simp only [step, perform] at hs
  split at hs
  · cases hs
  · obtain rfl := Option.some.inj hs
    exact ⟨place, h⟩
  · rename_i inactive empty
    obtain rfl := Option.some.inj hs
    obtain rfl := h.of_empty empty
    exact ⟨.outside (some none), h.slot, h.pipes, rfl, h.calls,
      fun i c => (h.reconcile i c).trans (by simp), by simp [Place.slot], h.fresh⟩

theorem at_connected (h : At s place) {c : κ} (hs : step s (.connected c) t) :
    ∃ place, At t place := by
  simp only [step, perform] at hs
  split at hs
  · rename_i connecting
    obtain rfl := Option.some.inj hs
    obtain rfl := h.of_activation connecting
    exact ⟨.outside (some (some c)), h.slot, h.pipes, rfl, h.calls,
      fun i c => (h.reconcile i c).trans (by simp), by simp [Place.slot], h.fresh⟩
  · cases hs

theorem at_handshaken (h : At s place) (hs : step s .handshaken t) : ∃ place, At t place := by
  simp only [step, perform] at hs
  split at hs
  · rename_i c connected
    obtain rfl := Option.some.inj hs
    obtain rfl := h.of_activation connected
    refine ⟨.stored s.created c, rfl, ?_, rfl, h.calls, fun i d => ?_, ?_, fun i hi => ?_⟩
    · change update s.pipes s.created (some c) = _
      rw [h.pipes]
      rfl
    · refine iff_of_false (fun holding => ?_) (by simp)
      by_cases same : i = s.created
      · simp [same] at holding
      · simp only [update_of_ne same] at holding
        cases h.of_holding holding
    · rintro i ⟨⟩
      exact Nat.lt_succ_self _
    · have later : i ≠ s.created := by
        have bound : s.created + 1 ≤ i := hi
        omega
      simp only [update_of_ne later]
      exact h.fresh i (Nat.le_of_succ_le hi)
  · cases hs

theorem at_activationFailed (h : At s place) (hs : step s .activationFailed t) :
    ∃ place, At t place := by
  simp only [step, perform] at hs
  split at hs
  · rename_i a active
    obtain rfl := Option.some.inj hs
    obtain rfl := h.of_activation active
    exact ⟨.outside none, h.slot, h.pipes, rfl, h.calls,
      fun i c => (h.reconcile i c).trans (by simp), by simp [Place.slot],
      fun i hi => h.fresh i (Nat.le_of_succ_le hi)⟩
  · cases hs

theorem update_stored (i : ℕ) (c : κ) :
    update (Place.stored i c).pipes i none = fun _ => none := by
  simp [Place.pipes]

theorem at_call (h : At s place) {i : ℕ} (hs : step s (.call i) t) : ∃ place, At t place := by
  simp only [step, perform] at hs
  split_ifs at hs with enabled
  split at hs
  · obtain rfl := Option.some.inj hs
    exact ⟨place, h⟩
  · rename_i c stored
    obtain rfl := Option.some.inj hs
    obtain rfl := h.of_pipe stored
    refine ⟨.called i (.calling c), h.slot, ?_, h.activation, ?_,
      fun j d => (h.reconcile j d).trans (by simp), h.created, h.fresh⟩
    · change update s.pipes i none = _
      rw [h.pipes, update_stored]
      rfl
    · change _ :: s.calls = _
      rw [h.calls]
      rfl

theorem at_advance (h : At s place) {k i : ℕ} {before : Progress κ}
    (hc : s.calls[k]? = some ⟨i, before⟩) (after : Progress κ) :
    At (s.advance k after) (.called i after) := by
  obtain ⟨rfl, rfl⟩ := h.of_call hc
  refine ⟨h.slot, h.pipes, h.activation, ?_, fun j d => (h.reconcile j d).trans (by simp),
    h.created, h.fresh⟩
  change s.calls.modify 0 _ = _
  rw [h.calls]
  rfl

theorem at_finish (h : At s place) (hs : step s .finish t) : ∃ place, At t place := by
  simp only [step, perform] at hs
  split at hs
  · rename_i i c calls _ top
    obtain rfl := Option.some.inj hs
    have first : s.calls[0]? = some ⟨i, .done (some c)⟩ := by simp [top]
    obtain ⟨_, rfl⟩ := h.of_call first
    have rest : calls = [] := by simpa [top, Place.calls] using h.calls
    refine ⟨.stored i c, h.slot, ?_, h.activation, rest,
      fun j d => (h.reconcile j d).trans (by simp), h.created, h.fresh⟩
    change update s.pipes i (some c) = _
    rw [h.pipes]
    rfl
  · rename_i i calls _ top
    obtain rfl := Option.some.inj hs
    have first : s.calls[0]? = some ⟨i, .done none⟩ := by simp [top]
    obtain ⟨_, rfl⟩ := h.of_call first
    have rest : calls = [] := by simpa [top, Place.calls] using h.calls
    exact ⟨.outside none, rfl, h.pipes, h.activation, rest,
      fun j d => (h.reconcile j d).trans (by simp), by simp [Place.slot], h.fresh⟩
  · cases hs

theorem at_take (h : At s place) {i : ℕ} (hs : step s (.take i) t) : ∃ place, At t place := by
  have known : ∀ value, (∀ j, s.created ≤ j → s.reconcile j = .absent) →
      s.reconcile i = .waiting → ∀ j, s.created ≤ j → update s.reconcile i value j = .absent := by
    intro value fresh waiting j hj
    have other : j ≠ i := by
      rintro rfl
      simp [fresh j hj] at waiting
    rw [update_of_ne other]
    exact fresh j hj
  simp only [step, perform] at hs
  split at hs
  · rename_i waiting missing
    obtain rfl := Option.some.inj hs
    refine ⟨place, h.slot, h.pipes, h.activation, h.calls, fun j d => ?_, h.created,
      known _ h.fresh waiting⟩
    refine Iff.trans ?_ (h.reconcile j d)
    by_cases same : j = i
    · subst same
      simp [waiting]
    · simp [update_of_ne same]
  · rename_i c waiting stored
    obtain rfl := Option.some.inj hs
    obtain rfl := h.of_pipe stored
    have none : ∀ j d, s.reconcile j ≠ .holding d := fun j d hj => by cases h.of_holding hj
    refine ⟨.enumerating i c, h.slot, ?_, h.activation, h.calls, fun j d => ?_, h.created,
      known _ h.fresh waiting⟩
    · change update s.pipes i Option.none = _
      rw [h.pipes, update_stored]
      rfl
    · by_cases same : j = i
      · subst same
        simp
      · simp [update_of_ne same, none, Ne.symm same]
  · cases hs

theorem at_putBack (h : At s place) {i : ℕ} (hs : step s (.putBack i) t) :
    ∃ place, At t place := by
  simp only [step, perform] at hs
  split at hs
  · rename_i c holding
    obtain rfl := Option.some.inj hs
    obtain rfl := h.of_holding holding
    refine ⟨.stored i c, h.slot, ?_, h.activation, h.calls, fun j d => ?_, h.created,
      fun j hj => ?_⟩
    · change update s.pipes i (some c) = _
      rw [h.pipes]
      rfl
    · refine iff_of_false (fun held => ?_) (by simp)
      by_cases same : j = i
      · simp [same] at held
      · simp only [update_of_ne same] at held
        cases h.of_holding held
        exact same rfl
    · have other : j ≠ i := by
        rintro rfl
        simp [h.fresh j hj] at holding
      simp only [update_of_ne other]
      exact h.fresh j hj
  · cases hs

theorem at_step {act : Act κ} (h : At s place) (hs : step s act t) : ∃ place, At t place := by
  cases act with
  | activate => exact at_activate h hs
  | connected c => exact at_connected h hs
  | handshaken => exact at_handshaken h hs
  | activationFailed => exact at_activationFailed h hs
  | call i => exact at_call h hs
  | returned k stale =>
    simp only [step, perform] at hs
    split at hs
    · rename_i calling
      obtain rfl := Option.some.inj hs
      exact ⟨_, at_advance h calling _⟩
    · cases hs
  | reconnected k c =>
    simp only [step, perform] at hs
    split at hs
    · rename_i connecting
      obtain rfl := Option.some.inj hs
      exact ⟨_, at_advance h connecting _⟩
    · cases hs
  | greeted k =>
    simp only [step, perform] at hs
    split at hs
    · rename_i handshaking
      obtain rfl := Option.some.inj hs
      exact ⟨_, at_advance h handshaking _⟩
    · cases hs
  | reconnectFailed k =>
    simp only [step, perform] at hs
    split at hs
    · rename_i connecting
      obtain rfl := Option.some.inj hs
      exact ⟨_, at_advance h connecting _⟩
    · rename_i handshaking
      obtain rfl := Option.some.inj hs
      exact ⟨_, at_advance h handshaking _⟩
    · cases hs
  | retried k =>
    simp only [step, perform] at hs
    split at hs
    · rename_i retrying
      obtain rfl := Option.some.inj hs
      exact ⟨_, at_advance h retrying _⟩
    · cases hs
  | finish => exact at_finish h hs
  | take i => exact at_take h hs
  | putBack i => exact at_putBack h hs

theorem at_run {acts : List (Act κ)} (run : Run step .start acts s) : ∃ place, At s place :=
  run.invariant (I := fun s => ∃ place, At s place)
    (fun _ _ _ placed hs => placed.elim fun _ h => at_step h hs) ⟨_, at_start⟩

theorem At.of_owns (h : At s place) {o : Owner} {c : κ} (owns : Owns s c o) :
    (o = .activation ∧ place = .outside (some (some c))) ∨
      (∃ i, o = .state i ∧ place = .stored i c) ∨
      (∃ i progress, o = .call 0 ∧ place = .called i progress ∧ progress.pipe = some c) ∨
      ∃ i, o = .reconcile i ∧ place = .enumerating i c := by
  cases o with
  | activation => exact .inl ⟨rfl, h.of_activation owns⟩
  | state i => exact .inr (.inl ⟨i, rfl, h.of_pipe owns⟩)
  | call k =>
    obtain ⟨i, progress, called, pipe⟩ := owns
    obtain ⟨rfl, hp⟩ := h.of_call called
    exact .inr (.inr (.inl ⟨i, progress, rfl, hp, pipe⟩))
  | reconcile i => exact .inr (.inr (.inr ⟨i, rfl, h.of_holding owns⟩))

theorem At.single (h : At s place) {o o' : Owner} {c c' : κ} (owns : Owns s c o)
    (owns' : Owns s c' o') : o = o' ∧ c = c' := by
  rcases h.of_owns owns with ⟨rfl, hp⟩ | ⟨i, rfl, hp⟩ | ⟨i, p, rfl, hp, pipe⟩ | ⟨i, rfl, hp⟩ <;>
    rcases h.of_owns owns' with
      ⟨rfl, hp'⟩ | ⟨j, rfl, hp'⟩ | ⟨j, p', rfl, hp', pipe'⟩ | ⟨j, rfl, hp'⟩ <;>
    rw [hp] at hp' <;> cases hp'
  · exact ⟨rfl, rfl⟩
  · exact ⟨rfl, rfl⟩
  · exact ⟨rfl, Option.some.inj (pipe.symm.trans pipe')⟩
  · exact ⟨rfl, rfl⟩

theorem At.of_inFlight (h : At s place) {i : ℕ} {o : Owner} (flight : InFlight s i o) :
    (∃ progress, o = .call 0 ∧ s.calls[0]? = some ⟨i, progress⟩ ∧ place = .called i progress) ∨
      ∃ c, o = .reconcile i ∧ s.reconcile i = .holding c ∧ place = .enumerating i c := by
  cases o with
  | activation => exact absurd flight id
  | state j => exact absurd flight id
  | call k =>
    obtain ⟨progress, called⟩ := flight
    obtain ⟨rfl, hp⟩ := h.of_call called
    exact .inl ⟨progress, rfl, called, hp⟩
  | reconcile j =>
    obtain ⟨rfl, c, holding⟩ := flight
    exact .inr ⟨c, rfl, holding, h.of_holding holding⟩

theorem At.empty (h : At s place) (hs : s.slot = none) :
    (∀ i, s.pipes i = none) ∧ ∀ i o, ¬ InFlight s i o := by
  obtain rfl := h.of_empty hs
  refine ⟨fun i => congrFun h.pipes i, fun i o flight => ?_⟩
  rcases h.of_inFlight flight with ⟨_, _, _, hp⟩ | ⟨_, _, _, hp⟩ <;> cases hp

theorem At.cached (h : At s place) {i : ℕ} (hs : s.slot = some i) : Cached s i := by
  have slot : place.slot = some i := h.slot.symm.trans hs
  have flights : ∀ j o, InFlight s j o → place.slot = some j := by
    intro j o flight
    rcases h.of_inFlight flight with ⟨_, _, _, rfl⟩ | ⟨_, _, _, rfl⟩ <;> rfl
  have elsewhere : ∀ j, j ≠ i → s.pipes j = none ∧ ∀ o, ¬ InFlight s j o := by
    refine fun j other => ⟨?_, fun o flight =>
      other (Option.some.inj ((flights j o flight).symm.trans slot))⟩
    cases hp : s.pipes j with
    | none => rfl
    | some c =>
      obtain rfl := h.of_pipe hp
      exact absurd (Option.some.inj slot) other
  refine ⟨elsewhere, ?_⟩
  cases place with
  | outside activation => cases slot
  | stored j c =>
    obtain rfl : j = i := Option.some.inj slot
    refine .inl ⟨by simp [h.pipes, Place.pipes], fun o flight => ?_⟩
    rcases h.of_inFlight flight with ⟨_, _, _, hp⟩ | ⟨_, _, _, hp⟩ <;> cases hp
  | called j progress =>
    obtain rfl : j = i := Option.some.inj slot
    refine .inr ⟨congrFun h.pipes j, .call 0, ⟨progress, by simp [h.calls, Place.calls]⟩, ?_⟩
    intro o flight
    rcases h.of_inFlight flight with ⟨_, ho, _, _⟩ | ⟨_, _, _, hp⟩
    · exact ho
    · cases hp
  | enumerating j c =>
    obtain rfl : j = i := Option.some.inj slot
    refine .inr ⟨congrFun h.pipes j, .reconcile j, ⟨rfl, c, (h.reconcile j c).mpr rfl⟩, ?_⟩
    intro o flight
    rcases h.of_inFlight flight with ⟨_, _, _, hp⟩ | ⟨_, ho, _, _⟩
    · cases hp
    · exact ho

theorem advance_inFlight {i k : ℕ} {o : Owner} (flight : InFlight s i o) (progress : Progress κ) :
    InFlight (s.advance k progress) i o := by
  cases o with
  | activation => exact flight
  | state j => exact flight
  | reconcile j => exact flight
  | call j =>
    obtain ⟨before, called⟩ := flight
    change ∃ after, (s.calls.modify k _)[j]? = some ⟨i, after⟩
    rw [List.getElem?_modify, called]
    by_cases same : k = j
    · exact ⟨progress, by simp [same]⟩
    · exact ⟨before, by simp [same]⟩

/-- What is in flight stays so, until a call finishes or a task puts the pipe back. -/
theorem inFlight_step (h : At s place) {i : ℕ} {o : Owner} (flight : InFlight s i o) {act : Act κ}
    (hs : step s act t) :
    InFlight t i o ∨ act = .finish ∧ o = .call 0 ∨ act = .putBack i ∧ o = .reconcile i := by
  have busy := h.of_inFlight flight
  have notStored : ∀ j c, s.pipes j ≠ some c := by
    intro j c stored
    obtain rfl := h.of_pipe stored
    rcases busy with ⟨_, _, _, hp⟩ | ⟨_, _, _, hp⟩ <;> cases hp
  have advanced : ∀ k progress, some (s.advance k progress) = some t → InFlight t i o := by
    intro k progress same
    exact Option.some.inj same ▸ advance_inFlight flight progress
  cases act with
  | activate =>
    simp only [step, perform] at hs
    split at hs
    · cases hs
    · exact .inl (Option.some.inj hs ▸ flight)
    · obtain rfl := Option.some.inj hs
      exact .inl flight
  | connected c =>
    simp only [step, perform] at hs
    split at hs
    · obtain rfl := Option.some.inj hs
      exact .inl flight
    · cases hs
  | handshaken =>
    simp only [step, perform] at hs
    split at hs
    · rename_i active
      obtain rfl := h.of_activation active
      rcases busy with ⟨_, _, _, hp⟩ | ⟨_, _, _, hp⟩ <;> cases hp
    · cases hs
  | activationFailed =>
    simp only [step, perform] at hs
    split at hs
    · obtain rfl := Option.some.inj hs
      exact .inl flight
    · cases hs
  | call j =>
    simp only [step, perform] at hs
    split_ifs at hs
    split at hs
    · exact .inl (Option.some.inj hs ▸ flight)
    · rename_i stored
      exact absurd stored (notStored _ _)
  | returned k stale =>
    simp only [step, perform] at hs
    split at hs
    · exact .inl (advanced _ _ hs)
    · cases hs
  | reconnected k c =>
    simp only [step, perform] at hs
    split at hs
    · exact .inl (advanced _ _ hs)
    · cases hs
  | greeted k =>
    simp only [step, perform] at hs
    split at hs
    · exact .inl (advanced _ _ hs)
    · cases hs
  | reconnectFailed k =>
    simp only [step, perform] at hs
    split at hs
    · exact .inl (advanced _ _ hs)
    · exact .inl (advanced _ _ hs)
    · cases hs
  | retried k =>
    simp only [step, perform] at hs
    split at hs
    · exact .inl (advanced _ _ hs)
    · cases hs
  | finish =>
    rcases busy with ⟨_, ho, _, _⟩ | ⟨_, _, _, hp⟩
    · exact .inr (.inl ⟨rfl, ho⟩)
    · have none : s.calls = [] := by
        rw [h.calls, hp]
        rfl
      simp [step, perform, none] at hs
  | take j =>
    simp only [step, perform] at hs
    split at hs
    · rename_i waiting _
      obtain rfl := Option.some.inj hs
      rcases busy with ⟨p, rfl, called, _⟩ | ⟨c, rfl, holding, _⟩
      · exact .inl ⟨p, called⟩
      · have other : i ≠ j := by
          rintro rfl
          rw [waiting] at holding
          cases holding
        refine .inl ⟨rfl, c, ?_⟩
        change update s.reconcile j _ i = _
        rw [update_of_ne other]
        exact holding
    · rename_i stored
      exact absurd stored (notStored _ _)
    · cases hs
  | putBack j =>
    simp only [step, perform] at hs
    split at hs
    · rename_i c holding
      obtain rfl := h.of_holding holding
      rcases busy with ⟨_, _, _, hp⟩ | ⟨_, ho, _, hp⟩
      · cases hp
      · cases hp
        exact .inr (.inr ⟨rfl, ho⟩)
    · cases hs

theorem finish_settles (h : At s place) {i : ℕ} {progress : Progress κ}
    (called : s.calls[0]? = some ⟨i, progress⟩) (hs : step s .finish t) :
    t.slot = some i ∧ (t.pipes i).isSome = true ∨ t.slot = none := by
  obtain ⟨_, rfl⟩ := h.of_call called
  simp only [step, perform] at hs
  split at hs
  · rename_i j c calls _ top
    obtain rfl := Option.some.inj hs
    obtain ⟨rfl, _⟩ : j = i ∧ _ := by simpa [top] using called
    exact .inl ⟨h.slot, by simp⟩
  · obtain rfl := Option.some.inj hs
    exact .inr rfl
  · cases hs

theorem done_ends (h : At s place) {i : ℕ} {fresh : Option κ}
    (called : s.calls[0]? = some ⟨i, .done fresh⟩) : ∃ t, step s .finish t ∧ t.calls = [] := by
  obtain ⟨_, rfl⟩ := h.of_call called
  cases fresh with
  | none => exact ⟨_, by simp only [step, perform, h.activation, h.calls]; rfl, rfl⟩
  | some c => exact ⟨_, by simp only [step, perform, h.activation, h.calls]; rfl, rfl⟩

theorem becomes_done {i : ℕ} {progress : Progress κ}
    (called : s.calls[0]? = some ⟨i, progress⟩) :
    ∃ acts fresh, Run step s acts (s.advance 0 (.done fresh)) := by
  cases progress with
  | calling c => exact ⟨_, some c, .single (a := .returned 0 false) (by simp [step, perform, called])⟩
  | connecting =>
    exact ⟨_, none, .single (a := .reconnectFailed 0) (by simp [step, perform, called])⟩
  | handshaking c =>
    exact ⟨_, none, .single (a := .reconnectFailed 0) (by simp [step, perform, called])⟩
  | retrying c => exact ⟨_, some c, .single (a := .retried 0) (by simp [step, perform, called])⟩
  | done fresh =>
    refine ⟨[], fresh, ?_⟩
    have same : s.advance 0 (.done fresh) = s := by
      obtain ⟨created, pipes, slot, activation, calls, reconcile⟩ := s
      cases calls with
      | nil => simp at called
      | cons call calls =>
        obtain rfl : call = ⟨i, .done fresh⟩ := by simpa using called
        rfl
    rw [same]
    exact .nil s

theorem At.settles (h : At s place) {i : ℕ} {o : Owner} (flight : InFlight s i o) :
    Settles s i o := by
  refine ⟨fun act t hs ended => ?_, ?_⟩
  · rcases inFlight_step h flight hs with still | ⟨rfl, rfl⟩ | ⟨rfl, rfl⟩
    · exact absurd still ended
    · obtain ⟨progress, called⟩ := flight
      exact finish_settles h called hs
    · obtain ⟨_, c, holding⟩ := flight
      obtain rfl := h.of_holding holding
      simp only [step, perform, holding] at hs
      obtain rfl := Option.some.inj hs
      exact .inl ⟨h.slot, by simp⟩
  · rcases h.of_inFlight flight with ⟨progress, rfl, called, _⟩ | ⟨c, rfl, holding, _⟩
    · obtain ⟨acts, fresh, run⟩ := becomes_done called
      have done := at_advance h called (.done fresh)
      have top : (s.advance 0 (.done fresh)).calls[0]? = some ⟨i, .done fresh⟩ := by
        rw [done.calls]
        rfl
      obtain ⟨t, finish, none⟩ := done_ends done top
      refine ⟨_, t, run.append (.single finish), ?_⟩
      rintro ⟨_, still⟩
      simp [none] at still
    · refine ⟨_, _, .single (a := .putBack i) (by simp only [step, perform, holding]; rfl), ?_⟩
      rintro ⟨_, d, still⟩
      simp at still

end

/-- In every state that is reached, at most one connection is alive; without a cached state
nothing has one, and otherwise its pipe is in it or with one call or task, which settles that. -/
theorem shared_pipe (acts : List (Act κ)) (s : Sidecar κ) (run : Run step .start acts s) :
    Shared s := by
  obtain ⟨place, h⟩ := at_run run
  exact ⟨fun o o' c c' owns owns' => h.single owns owns', h.empty, fun i => h.cached,
    fun i o => h.settles⟩

namespace Sample

/-- An activation and its task; a call that finds the pipe stale and cannot connect again; and
another activation, whose pipe a call holds while a second one comes in on top of it. -/
def acts : List (Act ℕ) :=
  [.activate, .connected 1, .handshaken, .take 0, .putBack 0,
    .call 0, .returned 0 true, .reconnectFailed 0, .finish,
    .activate, .connected 2, .handshaken, .call 1, .call 1]

def sidecar : Sidecar ℕ := (acts.foldlM perform .start).getD .start

end Sample

theorem shared_pipe_sample : Run step .start Sample.acts Sample.sidecar ∧
    Sample.sidecar.slot = some 1 ∧ Sample.sidecar.pipes 1 = none ∧ Shared Sample.sidecar := by
  have run : Run step .start Sample.acts Sample.sidecar := run_foldlM rfl
  exact ⟨run, rfl, rfl, shared_pipe Sample.acts Sample.sidecar run⟩

end KeePassKeyWin.SharedPipe
