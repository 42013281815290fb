import Mathlib.Data.List.Basic

set_option autoImplicit false

/-!
# Runs of a transition system

A run follows a labelled step relation. A property that holds at the start and
that every step keeps holds in every state reached, and restricting the steps
by a condition on the state before restricts the runs.
-/
namespace KeePassKeyWin.TransitionRuns

variable {σ α : Type}

inductive Run (step : σ → α → σ → Prop) : σ → List α → σ → Prop
  | nil (s : σ) : Run step s [] s
  | cons {s t u : σ} {a : α} {as : List α} (head : step s a t) (tail : Run step t as u) :
      Run step s (a :: as) u

/-- The steps whose state and label meet `P`. -/
def restrict (P : σ → α → Prop) (step : σ → α → σ → Prop) (s : σ) (a : α) (t : σ) : Prop :=
  P s a ∧ step s a t

variable {step : σ → α → σ → Prop} {s t u : σ} {as bs : List α}

theorem Run.append (h : Run step s as t) (h' : Run step t bs u) : Run step s (as ++ bs) u := by
  induction h with
  | nil _ => exact h'
  | cons hs _ ih => exact .cons hs (ih h')

theorem Run.single {a : α} (h : step s a t) : Run step s [a] t := .cons h (.nil t)

theorem Run.invariant {I : σ → Prop} (keep : ∀ s a t, I s → step s a t → I t)
    (h : Run step s as t) (hs : I s) : I t := by
  induction h with
  | nil _ => exact hs
  | cons head _ ih => exact ih (keep _ _ _ hs head)

theorem Run.relates {R : σ → σ → Prop} (hr : ∀ s, R s s) (ht : ∀ s t u, R s t → R t u → R s u)
    (keep : ∀ s a t, step s a t → R s t) (h : Run step s as t) : R s t := by
  induction h with
  | nil s => exact hr s
  | cons head _ ih => exact ht _ _ _ (keep _ _ _ head) ih

theorem Run.split (h : Run step s (as ++ bs) u) : ∃ t, Run step s as t ∧ Run step t bs u := by
  induction as generalizing s with
  | nil => exact ⟨s, .nil s, h⟩
  | cons a as ih =>
    cases h with
    | cons head tail =>
      obtain ⟨t, first, second⟩ := ih tail
      exact ⟨t, .cons head first, second⟩

theorem Run.mono {step' : σ → α → σ → Prop} (hs : ∀ s a t, step s a t → step' s a t)
    (h : Run step s as t) : Run step' s as t := by
  induction h with
  | nil s => exact .nil s
  | cons head _ ih => exact .cons (hs _ _ _ head) ih

theorem Run.unrestrict {P : σ → α → Prop} (h : Run (restrict P step) s as t) : Run step s as t :=
  h.mono fun _ _ _ hs => hs.2

theorem Run.restrict_labels {P : α → Prop} (h : Run step s as t) (all : ∀ a ∈ as, P a) :
    Run (restrict (fun _ => P) step) s as t := by
  induction h with
  | nil s => exact .nil s
  | cons head _ ih =>
    obtain ⟨first, rest⟩ := List.forall_mem_cons.mp all
    exact .cons ⟨first, head⟩ (ih rest)

/-- What matches every step of a run matches the run, under the same labels. -/
theorem Run.matched {τ : Type} {step' : τ → α → τ → Prop} {R : σ → τ → Prop}
    (answer : ∀ s a s' t, R s t → step s a s' → ∃ t', step' t a t' ∧ R s' t') {v : τ}
    (h : Run step s as t) (hv : R s v) : ∃ w, Run step' v as w ∧ R t w := by
  induction h generalizing v with
  | nil _ => exact ⟨v, .nil v, hv⟩
  | cons head _ ih =>
    obtain ⟨w, first, hw⟩ := answer _ _ _ v hv head
    obtain ⟨x, rest, hx⟩ := ih hw
    exact ⟨x, .cons first rest, hx⟩

/-- What every step decreases bounds the length of a run. -/
theorem Run.length_le {I : σ → Prop} {measure : σ → ℕ}
    (keep : ∀ s a t, I s → step s a t → I t)
    (less : ∀ s a t, I s → step s a t → measure t < measure s) (h : Run step s as t) (hs : I s) :
    as.length + measure t ≤ measure s := by
  induction h with
  | nil _ => simp
  | cons head _ ih =>
    have first := less _ _ _ hs head
    have rest := ih (keep _ _ _ hs head)
    rw [List.length_cons]
    omega

/-- An enabled step, which leads to one state. -/
def guarded (enabled : σ → α → Bool) (next : σ → α → σ) (s : σ) (a : α) (t : σ) : Prop :=
  enabled s a = true ∧ t = next s a

def enabledAll (enabled : σ → α → Bool) (next : σ → α → σ) : σ → List α → Bool
  | _, [] => true
  | s, a :: as => enabled s a && enabledAll enabled next (next s a) as

variable {enabled : σ → α → Bool} {next : σ → α → σ}

theorem run_guarded (h : enabledAll enabled next s as = true) :
    Run (guarded enabled next) s as (as.foldl next s) := by
  induction as generalizing s with
  | nil => exact .nil s
  | cons a as ih =>
    obtain ⟨first, rest⟩ := Bool.and_eq_true_iff.mp h
    exact .cons ⟨first, rfl⟩ (ih rest)

theorem run_restricted {fits : σ → α → Prop} [∀ s a, Decidable (fits s a)]
    (h : enabledAll (fun s a => decide (fits s a) && enabled s a) next s as = true) :
    Run (restrict fits (guarded enabled next)) s as (as.foldl next s) := by
  refine (run_guarded h).mono fun s a t step => ?_
  obtain ⟨fit, first⟩ := Bool.and_eq_true_iff.mp step.1
  exact ⟨of_decide_eq_true fit, first, step.2⟩

theorem run_foldlM {perform : σ → α → Option σ} (h : as.foldlM perform s = some t) :
    Run (fun s a t => perform s a = some t) s as t := by
  induction as generalizing s with
  | nil =>
    obtain rfl : s = t := Option.some.inj h
    exact .nil s
  | cons a as ih =>
    rw [List.foldlM_cons] at h
    obtain ⟨u, head, tail⟩ := Option.bind_eq_some_iff.mp h
    exact .cons head (ih tail)

theorem run_restricted_foldlM {fits : σ → α → Prop} [∀ s a, Decidable (fits s a)]
    {perform : σ → α → Option σ}
    (h : as.foldlM (fun s a => if fits s a then perform s a else none) s = some t) :
    Run (restrict fits fun s a t => perform s a = some t) s as t := by
  refine (run_foldlM h).mono fun s a t step => ?_
  split_ifs at step with fit
  exact ⟨fit, step⟩

end KeePassKeyWin.TransitionRuns
