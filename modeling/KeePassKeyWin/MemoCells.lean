import KeePassKeyWin.TransitionRuns

set_option autoImplicit false

/-!
# Values computed under a lock

Callers wait for a lock. The one who holds it finds the value, or computes it while the others
wait; a computation that throws leaves no value behind. In the order in which they return, the
callers get what they would get one after another.
-/
namespace KeePassKeyWin.MemoCells
open TransitionRuns

variable {τ ε α : Type}

/-- How a call ended, and whether it computed its result. -/
structure Return (τ ε α : Type) where
  caller : τ
  computed : Bool
  result : Except ε α

/-- `holder` computes the value under the lock. -/
structure Memo (τ ε α : Type) where
  value : Option α
  holder : Option τ
  waiting : τ → Bool
  returns : List (Return τ ε α)

inductive Event (τ ε α : Type) where
  | call (caller : τ)
  | enter (caller : τ)
  | settle (caller : τ) (outcome : Except ε α)

def Event.outcomes : Event τ ε α → List (Except ε α)
  | .settle _ outcome => [outcome]
  | _ => []

def Memo.start (value : Option α) : Memo τ ε α := ⟨value, none, fun _ => false, []⟩

section
variable [DecidableEq τ]

def Memo.enter (m : Memo τ ε α) (caller : τ) : Memo τ ε α :=
  let m := { m with waiting := Function.update m.waiting caller false }
  match m.value with
  | some a => { m with returns := m.returns ++ [⟨caller, false, .ok a⟩] }
  | none => { m with holder := some caller }

def perform (m : Memo τ ε α) : Event τ ε α → Option (Memo τ ε α)
  | .call caller =>
    if m.waiting caller = true ∨ m.holder = some caller then none
    else some { m with waiting := Function.update m.waiting caller true }
  | .enter caller =>
    if m.holder.isNone ∧ m.waiting caller = true then some (m.enter caller) else none
  | .settle caller outcome =>
    if m.holder = some caller then
      some { m with
        value := outcome.toOption
        holder := none
        returns := m.returns ++ [⟨caller, true, outcome⟩] }
    else none

end

/-- One call after another: the value is computed until it is there. -/
def Sequential : Option α → List (Return τ ε α) → Option α → Prop
  | v, [], v' => v' = v
  | some a, r :: rs, v' => r.computed = false ∧ r.result = .ok a ∧ Sequential (some a) rs v'
  | none, r :: rs, v' => r.computed = true ∧ Sequential r.result.toOption rs v'

namespace Sequential
variable {v v' v'' : Option α} {rs rs' : List (Return τ ε α)} {a : α}

theorem append (h : Sequential v rs v') (h' : Sequential v' rs' v'') :
    Sequential v (rs ++ rs') v'' := by
  induction rs generalizing v with
  | nil =>
    obtain rfl : v' = v := h
    exact h'
  | cons r rs ih =>
    cases v with
    | none => exact ⟨h.1, ih h.2⟩
    | some a => exact ⟨h.1, h.2.1, ih h.2.2⟩

theorem settled (h : Sequential (some a) rs v') :
    v' = some a ∧ ∀ r ∈ rs, r.computed = false ∧ r.result = .ok a := by
  induction rs with
  | nil => exact ⟨h, fun _ here => absurd here List.not_mem_nil⟩
  | cons r rs ih =>
    obtain ⟨looked, found, rest⟩ := h
    obtain ⟨same, later⟩ := ih rest
    refine ⟨same, fun r' here => ?_⟩
    rcases List.mem_cons.mp here with rfl | here
    · exact ⟨looked, found⟩
    · exact later r' here

theorem agree (h : Sequential v rs v') {r : Return τ ε α} (here : r ∈ rs) (got : r.result = .ok a) :
    v' = some a := by
  induction rs generalizing v with
  | nil => exact absurd here List.not_mem_nil
  | cons r' rs ih =>
    cases v with
    | some b =>
      obtain ⟨same, all⟩ := settled h
      have found := (all r here).2
      rw [got] at found
      rw [same, Except.ok.inj found]
    | none =>
      obtain ⟨_, rest⟩ := h
      rcases List.mem_cons.mp here with rfl | here
      · rw [got] at rest
        exact (settled rest).1
      · exact ih rest here

theorem exists_computed (h : Sequential none rs (some a)) :
    ∃ r ∈ rs, r.computed = true ∧ r.result = .ok a := by
  induction rs with
  | nil => cases h
  | cons r rs ih =>
    obtain ⟨computed, rest⟩ := h
    cases result : r.result with
    | error e =>
      rw [result] at rest
      obtain ⟨r', here, found⟩ := ih rest
      exact ⟨r', List.mem_cons_of_mem _ here, found⟩
    | ok b =>
      rw [result] at rest
      obtain rfl := Option.some.inj (settled rest).1
      exact ⟨r, List.mem_cons_self, computed, result⟩

theorem computed_of_settled (h : Sequential (some a) rs v') : rs.filter Return.computed = [] := by
  refine List.filter_eq_nil_iff.mpr fun r here => ?_
  rw [(h.settled.2 r here).1]
  exact Bool.false_ne_true

theorem computed_le (h : Sequential v rs v') : (rs.filter Return.computed).length ≤
    (rs.filter fun r => r.result.toOption.isNone).length + 1 := by
  induction rs generalizing v with
  | nil => exact Nat.zero_le _
  | cons r rs ih =>
    cases v with
    | some a =>
      rw [computed_of_settled h]
      exact Nat.zero_le _
    | none =>
      obtain ⟨computed, rest⟩ := h
      rw [List.filter_cons_of_pos computed, List.length_cons]
      cases result : r.result with
      | error e =>
        rw [List.filter_cons_of_pos (by rw [result]; rfl), List.length_cons]
        exact Nat.succ_le_succ (ih rest)
      | ok a =>
        rw [result] at rest
        rw [computed_of_settled rest]
        exact Nat.le_add_left _ _

theorem computed_once [IsEmpty ε] (h : Sequential v rs v') :
    (rs.filter Return.computed).length ≤ 1 := by
  have none : rs.filter (fun r => r.result.toOption.isNone) = [] :=
    List.filter_eq_nil_iff.mpr fun r _ => by
      cases r.result with
      | error e => exact isEmptyElim e
      | ok a => exact Bool.false_ne_true
  have bound := h.computed_le
  rwa [none] at bound

end Sequential

/-- The holder found no value, and everyone who returned did so in turn. -/
structure Inv (v : Option α) (m : Memo τ ε α) : Prop where
  sequential : Sequential v m.returns m.value
  empty : m.holder.isSome = true → m.value = none

theorem inv_start (v : Option α) : Inv v (Memo.start v : Memo τ ε α) := by
  refine ⟨?_, fun h => by cases h⟩
  cases v <;> rfl

section
variable [DecidableEq τ] {v : Option α} {m m' : Memo τ ε α} {es : List (Event τ ε α)}

theorem inv_enter (h : Inv v m) (caller : τ) : Inv v (m.enter caller) := by
  have before := h.sequential
  unfold Memo.enter
  cases value : m.value with
  | some a =>
    rw [value] at before
    refine ⟨before.append ⟨rfl, rfl, rfl⟩, fun held => ?_⟩
    have empty := h.empty held
    rw [value] at empty
    cases empty
  | none =>
    rw [value] at before
    exact ⟨before, fun _ => rfl⟩

theorem inv_perform (h : Inv v m) {e : Event τ ε α} (performed : perform m e = some m') :
    Inv v m' := by
  cases e with
  | call caller =>
    simp only [perform] at performed
    split_ifs at performed
    obtain rfl := Option.some.inj performed
    exact ⟨h.sequential, h.empty⟩
  | enter caller =>
    simp only [perform] at performed
    split_ifs at performed
    obtain rfl := Option.some.inj performed
    exact inv_enter h caller
  | settle caller outcome =>
    simp only [perform] at performed
    split_ifs at performed with holds
    obtain rfl := Option.some.inj performed
    refine ⟨?_, fun later => by cases later⟩
    have before := h.sequential
    rw [h.empty (by rw [holds]; rfl)] at before
    exact before.append ⟨rfl, by cases outcome <;> rfl⟩

theorem returns_enter (m : Memo τ ε α) (caller : τ) : ∃ new,
    (m.enter caller).returns = m.returns ++ new ∧ new.filter Return.computed = [] := by
  unfold Memo.enter
  cases m with
  | mk value holder waiting returns =>
    cases value with
    | none => exact ⟨[], (List.append_nil _).symm, rfl⟩
    | some a => exact ⟨[⟨caller, false, .ok a⟩], rfl, rfl⟩

theorem returns_perform {e : Event τ ε α} (performed : perform m e = some m') :
    ∃ new, m'.returns = m.returns ++ new ∧
      (new.filter Return.computed).map Return.result = e.outcomes := by
  cases e with
  | call caller =>
    simp only [perform] at performed
    split_ifs at performed
    obtain rfl := Option.some.inj performed
    exact ⟨[], (List.append_nil _).symm, rfl⟩
  | enter caller =>
    simp only [perform] at performed
    split_ifs at performed
    obtain rfl := Option.some.inj performed
    obtain ⟨new, returns, none⟩ := returns_enter m caller
    exact ⟨new, returns, by rw [none]; rfl⟩
  | settle caller outcome =>
    simp only [perform] at performed
    split_ifs at performed
    obtain rfl := Option.some.inj performed
    exact ⟨[⟨caller, true, outcome⟩], rfl, rfl⟩

/-- In the order in which they return, the calls are as if made one after another. -/
theorem run_sequential (run : Run (fun m e m' => perform m e = some m') (Memo.start v) es m) :
    Sequential v m.returns m.value :=
  (run.invariant (fun _ _ _ h performed => inv_perform h performed) (inv_start v)).sequential

end

end KeePassKeyWin.MemoCells
