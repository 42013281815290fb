import KeePassKeyWin.FirstMatch
import KeePassKeyWin.OutcomeRules
import Mathlib.Data.List.Forall2

set_option autoImplicit false

/-!
# Programs side by side

Two programs that an observer of their outcomes cannot tell apart, from states that are related:
either both fail, with the same error, or both return, with related values, and the states they
reach are related again. Rules for the programs of `OutcomeRules`, and for lists with related
elements.
-/
namespace KeePassKeyWin.PairedPrograms
open EStateM FirstMatch OutcomeRules

variable {ε σ τ α β γ δ : Type}

inductive SameOutcome (A : α → β → Prop) : Except ε α → Except ε β → Prop
  | ok {a : α} {b : β} (value : A a b) : SameOutcome A (.ok a) (.ok b)
  | error (e : ε) : SameOutcome A (.error e) (.error e)

inductive Paired (S : σ → τ → Prop) (A : α → β → Prop) : Result ε σ α → Result ε τ β → Prop
  | ok {a : α} {b : β} {s : σ} {t : τ} (value : A a b) (state : S s t) :
      Paired S A (.ok a s) (.ok b t)
  | error (e : ε) {s : σ} {t : τ} (state : S s t) : Paired S A (.error e s) (.error e t)

def Agree (S : σ → τ → Prop) (A : α → β → Prop) (x : EStateM ε σ α) (y : EStateM ε τ β) : Prop :=
  ∀ s t, S s t → Paired S A (x s) (y t)

section stateless
theorem SameOutcome.refl (x : Except ε α) : SameOutcome Eq x x := by
  cases x with
  | ok a => exact .ok rfl
  | error e => exact .error e

end stateless

section stateful
variable {S : σ → τ → Prop} {A : α → β → Prop} {B : γ → δ → Prop}
variable {x : EStateM ε σ α} {y : EStateM ε τ β} {f : α → EStateM ε σ γ} {g : β → EStateM ε τ δ}

theorem Agree.pure {a : α} {b : β} (h : A a b) :
    Agree S A (pure a : EStateM ε σ α) (pure b : EStateM ε τ β) := fun _ _ => .ok h

theorem Agree.throw (e : ε) : Agree S A (throw e : EStateM ε σ α) (throw e : EStateM ε τ β) :=
  fun _ _ => .error e

theorem Agree.lift {r : Except ε α} {r' : Except ε β} (h : SameOutcome A r r') :
    Agree S A (lift r : EStateM ε σ α) (lift r' : EStateM ε τ β) := by
  intro s t state
  cases h with
  | ok value => exact .ok value state
  | error e => exact .error e state

theorem Paired.bind {s : σ} {t : τ} (hx : Paired S A (x s) (y t))
    (hf : ∀ a b, A a b → Agree S B (f a) (g b)) : Paired S B ((x >>= f) s) ((y >>= g) t) := by
  cases left : x s with
  | ok a s' =>
    cases right : y t with
    | ok b t' =>
      rw [left, right] at hx
      cases hx with
      | ok value state =>
        rw [bind_of_ok left, bind_of_ok right]
        exact hf a b value s' t' state
    | error e t' =>
      rw [left, right] at hx
      cases hx
  | error e s' =>
    cases right : y t with
    | ok b t' =>
      rw [left, right] at hx
      cases hx
    | error e' t' =>
      rw [left, right] at hx
      cases hx with
      | error _ state =>
        rw [bind_of_error left, bind_of_error right]
        exact .error e state

theorem Agree.bind (hx : Agree S A x y) (hf : ∀ a b, A a b → Agree S B (f a) (g b)) :
    Agree S B (x >>= f) (y >>= g) :=
  fun s t state => (hx s t state).bind hf

theorem Agree.lift_bind {r : Except ε α} {g : α → EStateM ε τ δ}
    (hf : ∀ a, r = .ok a → Agree S B (f a) (g a)) :
    Agree S B (OutcomeRules.lift r >>= f) (OutcomeRules.lift r >>= g) := by
  intro s t state
  cases same : r with
  | ok a => exact hf a same s t state
  | error e => exact .error e state

theorem Agree.read {f : σ → EStateM ε σ γ} {g : τ → EStateM ε τ δ}
    (h : ∀ s t, S s t → Agree S B (f s) (g t)) : Agree S B (get >>= f) (get >>= g) :=
  fun s t state => h s t state s t state

theorem Agree.modify {m : σ → σ} {n : τ → τ} (h : ∀ s t, S s t → S (m s) (n t)) :
    Agree S Eq (modify m : EStateM ε σ PUnit) (modify n : EStateM ε τ PUnit) :=
  fun s t state => .ok rfl (h s t state)

theorem Agree.ite {c d : Prop} [Decidable c] [Decidable d] {x' : EStateM ε σ α}
    {y' : EStateM ε τ β} (same : c ↔ d) (hx : Agree S A x y) (hy : Agree S A x' y') :
    Agree S A (if c then x else x') (if d then y else y') := by
  by_cases h : c
  · rw [if_pos h, if_pos (same.mp h)]
    exact hx
  · rw [if_neg h, if_neg fun k => h (same.mpr k)]
    exact hy

end stateful

section sequences
variable {ι : Type} {S : σ → τ → Prop} {f : ι → EStateM ε σ α} {g : ι → EStateM ε τ α}

def outcomeOf : Result ε σ α → Except ε α
  | .ok a _ => .ok a
  | .error e _ => .error e

def transcript (f : ι → EStateM ε σ α) (s : σ) : List ι → List (Except ε α) × σ
  | [] => ([], s)
  | i :: is =>
    let rest := transcript f (final (f i s)) is
    (outcomeOf (f i s) :: rest.1, rest.2)

theorem Paired.same {x : Result ε σ α} {y : Result ε τ α} (h : Paired S Eq x y) :
    outcomeOf x = outcomeOf y ∧ S (final x) (final y) := by
  cases h with
  | ok value state => exact ⟨congrArg _ value, state⟩
  | error e state => exact ⟨rfl, state⟩

theorem Agree.transcript {is : List ι} (h : ∀ i ∈ is, Agree S Eq (f i) (g i)) {s : σ} {t : τ}
    (state : S s t) : (PairedPrograms.transcript f s is).1 = (PairedPrograms.transcript g t is).1 ∧
      S (PairedPrograms.transcript f s is).2 (PairedPrograms.transcript g t is).2 := by
  induction is generalizing s t with
  | nil => exact ⟨rfl, state⟩
  | cons i is ih =>
    obtain ⟨outcome, after⟩ := (h i List.mem_cons_self s t state).same
    obtain ⟨outcomes, last⟩ := ih (fun j hj => h j (List.mem_cons_of_mem i hj)) after
    exact ⟨congrArg₂ List.cons outcome outcomes, last⟩

end sequences

theorem rel_cases {R : α → β → Prop} {x : Option α} {y : Option β} (h : Option.Rel R x y) :
    x = none ∧ y = none ∨ ∃ a b, x = some a ∧ y = some b ∧ R a b := by
  cases h with
  | none => exact .inl ⟨rfl, rfl⟩
  | some head => exact .inr ⟨_, _, rfl, rfl, head⟩

section lists
open List
variable {R : α → β → Prop} {xs : List α} {ys : List β} {p : α → Bool} {q : β → Bool}

theorem find?_related (same : ∀ a b, R a b → p a = q b) (h : Forall₂ R xs ys) :
    Option.Rel R (xs.find? p) (ys.find? q) := by
  induction h with
  | nil => exact .none
  | @cons a b xs ys head _ ih =>
    have here := same a b head
    cases found : p a with
    | true =>
      rw [find?_cons_of_pos found, find?_cons_of_pos (here ▸ found)]
      exact .some head
    | false =>
      rw [find?_cons_of_neg (by simp [found]), find?_cons_of_neg (by simp [← here, found])]
      exact ih

theorem any_related (same : ∀ a b, R a b → p a = q b) (h : Forall₂ R xs ys) :
    xs.any p = ys.any q := by
  induction h with
  | nil => rfl
  | cons head _ ih => rw [any_cons, any_cons, same _ _ head, ih]

theorem eraseP_related (same : ∀ a b, R a b → p a = q b) (h : Forall₂ R xs ys) :
    Forall₂ R (xs.eraseP p) (ys.eraseP q) := by
  induction h with
  | nil => exact .nil
  | @cons a b xs ys head tail ih =>
    have here := same a b head
    cases found : p a with
    | true =>
      rw [eraseP_cons_of_pos found, eraseP_cons_of_pos (here ▸ found)]
      exact tail
    | false =>
      rw [eraseP_cons_of_neg (by simp [found]), eraseP_cons_of_neg (by simp [← here, found])]
      exact .cons head ih

theorem modifyFirst_related {f : α → α} {g : β → β} (same : ∀ a b, R a b → p a = q b)
    (kept : ∀ a b, R a b → R (f a) (g b)) (h : Forall₂ R xs ys) :
    Forall₂ R (modifyFirst p f xs) (modifyFirst q g ys) := by
  induction h with
  | nil => exact .nil
  | @cons a b xs ys head tail ih =>
    have here := same a b head
    unfold modifyFirst
    by_cases found : p a = true
    · rw [if_pos found, if_pos (here ▸ found)]
      exact .cons (kept a b head) tail
    · rw [if_neg found, if_neg (here ▸ found)]
      exact .cons head ih

theorem filter_related (same : ∀ a b, R a b → p a = q b) (h : Forall₂ R xs ys) :
    Forall₂ R (xs.filter p) (ys.filter q) :=
  rel_filter (fun {a b} head => iff_of_eq (congrArg (· = true) (same a b head))) h

theorem map_eq_of_related {f : α → γ} {g : β → γ} (same : ∀ a b, R a b → f a = g b)
    (h : Forall₂ R xs ys) : xs.map f = ys.map g := by
  induction h with
  | nil => rfl
  | cons head _ ih => rw [map_cons, map_cons, same _ _ head, ih]

theorem findSome?_related {f : γ → Option α} {g : γ → Option β}
    (same : ∀ c, Option.Rel R (f c) (g c)) (cs : List γ) :
    Option.Rel R (cs.findSome? f) (cs.findSome? g) := by
  induction cs with
  | nil => exact .none
  | cons c cs ih =>
    rw [findSome?_cons, findSome?_cons]
    obtain ⟨left, right⟩ | ⟨a, b, left, right, head⟩ := rel_cases (same c)
    · rw [left, right]
      exact ih
    · rw [left, right]
      exact .some head

end lists

end KeePassKeyWin.PairedPrograms
