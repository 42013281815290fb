import Mathlib.Data.List.Basic

set_option autoImplicit false

/-!
# Stateful programs that may fail

`EStateM` keeps the state reached when it fails, as statements before a `throw`
do. Inversion of the primitive programs, and relations every outcome keeps.
-/
namespace KeePassKeyWin.OutcomeRules
open EStateM

variable {ε σ α β : Type}

section inversion
variable {x : EStateM ε σ α} {f : α → EStateM ε σ β} {s s' s'' : σ} {a a' : α} {b : β} {e e' : ε}

theorem bind_ok : (x >>= f) s = .ok b s'' ↔ ∃ a s', x s = .ok a s' ∧ f a s' = .ok b s'' := by
  change EStateM.bind x f s = _ ↔ _
  unfold EStateM.bind
  cases h : x s with
  | ok a s' =>
    refine ⟨fun hf => ⟨a, s', rfl, hf⟩, ?_⟩
    rintro ⟨a', t, hx, hf⟩
    cases hx
    exact hf
  | error e s' => simp

theorem bind_error : (x >>= f) s = .error e s'' ↔
    x s = .error e s'' ∨ ∃ a s', x s = .ok a s' ∧ f a s' = .error e s'' := by
  change EStateM.bind x f s = _ ↔ _
  unfold EStateM.bind
  cases h : x s with
  | ok a s' =>
    refine ⟨fun hf => .inr ⟨a, s', rfl, hf⟩, ?_⟩
    rintro (hx | ⟨a', t, hx, hf⟩)
    · cases hx
    · cases hx
      exact hf
  | error e' s' => simp

theorem bind_of_ok (h : x s = .ok a s') : (x >>= f) s = f a s' := by
  change EStateM.bind x f s = _
  simp [EStateM.bind, h]

theorem bind_of_error (h : x s = .error e s') : (x >>= f) s = .error e s' := by
  change EStateM.bind x f s = _
  simp [EStateM.bind, h]

theorem pure_ok : (pure a : EStateM ε σ α) s = .ok a' s' ↔ a = a' ∧ s = s' := by
  change Result.ok a s = Result.ok a' s' ↔ _
  simp

theorem pure_error : (pure a : EStateM ε σ α) s = .error e s' ↔ False := by
  change Result.ok a s = Result.error e s' ↔ _
  simp

theorem throw_ok : (throw e : EStateM ε σ α) s = .ok a s' ↔ False := by
  change Result.error e s = Result.ok a s' ↔ _
  simp

end inversion

section stateless
variable {x : Except ε α} {f : α → Except ε β} {a a' : α} {b : β} {e : ε}

theorem except_bind_ok : (x >>= f) = .ok b ↔ ∃ a, x = .ok a ∧ f a = .ok b := by
  cases x <;> simp [bind, Except.bind]

theorem except_bind_error : (x >>= f) = .error e ↔
    x = .error e ∨ ∃ a, x = .ok a ∧ f a = .error e := by
  cases x <;> simp [bind, Except.bind]

theorem except_bind_of_ok (h : x = .ok a) : (x >>= f) = f a := by
  simp [bind, Except.bind, h]

theorem except_pure_ok : (pure a : Except ε α) = .ok a' ↔ a = a' := by
  simp [pure, Except.pure]

theorem except_throw_ok : (throw e : Except ε α) = .ok a ↔ False := by
  simp [throw, throwThe, MonadExceptOf.throw]

end stateless

section forward
variable (s : σ)

@[simp] theorem pure_apply (a : α) : (pure a : EStateM ε σ α) s = .ok a s := rfl

@[simp] theorem throw_apply (e : ε) : (throw e : EStateM ε σ α) s = .error e s := rfl

@[simp] theorem throw_bind (e : ε) (f : α → EStateM ε σ β) : (throw e >>= f) s = .error e s := rfl

@[simp] theorem get_bind (f : σ → EStateM ε σ β) : (get >>= f) s = f s s := rfl

@[simp] theorem modify_bind (g : σ → σ) (f : PUnit → EStateM ε σ β) :
    (modify g >>= f) s = f ⟨⟩ (g s) := rfl

@[simp] theorem ite_run {c : Prop} [Decidable c] (x y : EStateM ε σ α) :
    (if c then x else y) s = if c then x s else y s := by
  split_ifs <;> rfl

end forward

def lift (r : Except ε α) : EStateM ε σ α := fun s =>
  match r with
  | .ok a => .ok a s
  | .error e => .error e s

theorem lift_ok {r : Except ε α} {s s' : σ} {a : α} :
    (lift r : EStateM ε σ α) s = .ok a s' ↔ r = .ok a ∧ s = s' := by
  cases r <;> simp [lift]

theorem lift_error {r : Except ε α} {s s' : σ} {e : ε} :
    (lift r : EStateM ε σ α) s = .error e s' ↔ r = .error e ∧ s = s' := by
  cases r <;> simp [lift]

def times (body : α → EStateM ε σ α) : ℕ → α → EStateM ε σ α
  | 0, a => pure a
  | n + 1, a => do
    let a ← body a
    times body n a

theorem times_ok {body : α → EStateM ε σ α} {I : α → Prop}
    (keep : ∀ {a a' : α} {s s' : σ}, I a → body a s = .ok a' s' → I a') {n : ℕ} {a a' : α}
    {s s' : σ} (hI : I a) (run : times body n a s = .ok a' s') : I a' := by
  induction n generalizing a s with
  | zero => exact (pure_ok.mp run).1 ▸ hI
  | succ n ih =>
    obtain ⟨b, t, hb, rest⟩ := bind_ok.mp run
    exact ih (keep hI hb) rest

def final : Result ε σ α → σ
  | .ok _ s => s
  | .error _ s => s

@[simp] theorem final_ok (a : α) (s : σ) : final (.ok a s : Result ε σ α) = s := rfl

@[simp] theorem final_error (e : ε) (s : σ) : final (.error e s : Result ε σ α) = s := rfl

section final
variable {x : EStateM ε σ α} {f : α → EStateM ε σ β} {s : σ} {Q : σ → Prop}

theorem final_bind (stop : ∀ e t, x s = .error e t → Q t)
    (go : ∀ a t, x s = .ok a t → Q (final (f a t))) : Q (final ((x >>= f) s)) := by
  cases h : x s with
  | ok a t =>
    rw [bind_of_ok h]
    exact go a t h
  | error e t =>
    rw [bind_of_error h]
    exact stop e t h

theorem final_bind_keeps (first : Q (final (x s))) (rest : ∀ a t, Q t → Q (final (f a t))) :
    Q (final ((x >>= f) s)) := by
  refine final_bind (fun e t h => ?_) (fun a t h => rest a t ?_)
  · simpa [h] using first
  · simpa [h] using first

theorem final_lift_bind {r : Except ε α} (stop : Q s) (go : ∀ a, r = .ok a → Q (final (f a s))) :
    Q (final ((lift r >>= f) s)) := by
  refine final_bind (fun e t h => ?_) (fun a t h => ?_)
  · obtain ⟨_, rfl⟩ := lift_error.mp h
    exact stop
  · obtain ⟨hr, rfl⟩ := lift_ok.mp h
    exact go a hr

end final

/-- Every error of the computation meets `Q`. -/
def Fails (Q : ε → Prop) (x : Except ε α) : Prop := ∀ e, x = .error e → Q e

def Throws (Q : ε → Prop) (x : EStateM ε σ α) : Prop := ∀ s e t, x s = .error e t → Q e

section throws
variable {Q : ε → Prop}

theorem Fails.ok (a : α) : Fails Q (.ok a : Except ε α) := by
  intro e h
  cases h

theorem Fails.pure (a : α) : Fails Q (pure a : Except ε α) := Fails.ok a

theorem Fails.error {e : ε} (h : Q e) : Fails Q (.error e : Except ε α) := by
  rintro _ ⟨⟩
  exact h

theorem Fails.bind {x : Except ε α} {f : α → Except ε β} (hx : Fails Q x)
    (hf : ∀ a, Fails Q (f a)) : Fails Q (x >>= f) := by
  intro e h
  rcases except_bind_error.mp h with first | ⟨a, _, rest⟩
  · exact hx e first
  · exact hf a e rest

theorem Fails.ite {c : Prop} [Decidable c] {x y : Except ε α} (hx : Fails Q x) (hy : Fails Q y) :
    Fails Q (if c then x else y) := by
  split
  · exact hx
  · exact hy

theorem Fails.guard {c : Prop} [Decidable c] {x : Except ε PUnit} {f : PUnit → Except ε α}
    (hx : Fails Q x) (hf : Fails Q (f ⟨⟩)) : Fails Q (if c then x >>= f else f ⟨⟩) :=
  .ite (.bind hx fun _ => hf) hf

theorem Throws.pure (a : α) : Throws Q (pure a : EStateM ε σ α) := by
  intro s e t h
  cases h

theorem Throws.throw {e : ε} (h : Q e) : Throws Q (throw e : EStateM ε σ α) := by
  rintro s _ t ⟨⟩
  exact h

theorem Throws.get : Throws Q (get : EStateM ε σ σ) := by
  intro s e t h
  cases h

theorem Throws.modify (f : σ → σ) : Throws Q (modify f : EStateM ε σ PUnit) := by
  intro s e t h
  cases h

theorem Throws.lift {x : Except ε α} (hx : Fails Q x) : Throws Q (lift x : EStateM ε σ α) := by
  intro s e t h
  exact hx e (lift_error.mp h).1

theorem Throws.bind {x : EStateM ε σ α} {f : α → EStateM ε σ β} (hx : Throws Q x)
    (hf : ∀ a, Throws Q (f a)) : Throws Q (x >>= f) := by
  intro s e t h
  rcases bind_error.mp h with first | ⟨a, u, _, rest⟩
  · exact hx s e t first
  · exact hf a u e t rest

theorem Throws.ite {c : Prop} [Decidable c] {x y : EStateM ε σ α} (hx : Throws Q x)
    (hy : Throws Q y) : Throws Q (if c then x else y) := by
  split
  · exact hx
  · exact hy

theorem Throws.guard {c : Prop} [Decidable c] {x : EStateM ε σ PUnit} {f : PUnit → EStateM ε σ α}
    (hx : Throws Q x) (hf : Throws Q (f ⟨⟩)) : Throws Q (if c then x >>= f else f ⟨⟩) :=
  .ite (.bind hx fun _ => hf) hf

theorem Throws.times {body : α → EStateM ε σ α} (h : ∀ a, Throws Q (body a)) (n : ℕ) (a : α) :
    Throws Q (times body n a) := by
  induction n generalizing a with
  | zero => exact .pure a
  | succ n ih => exact .bind (h a) ih

end throws

end KeePassKeyWin.OutcomeRules
