import Mathlib.Data.List.Nodup

set_option autoImplicit false

/-!
# Single-use tokens

A register that issues tokens, accepts the current one and replaces it as it does. When the
tokens issued are distinct, each is accepted at most once, and only while it is the last one
issued.
-/
namespace KeePassKeyWin.SingleUseTokens

variable {τ : Type}

/-- `issued` and `accepted` are the history, oldest first. -/
structure Register (τ : Type) where
  current : Option τ
  issued : List τ
  accepted : List τ

inductive Move (τ : Type) where
  | issue (token : τ)
  | accept (next : τ)
  | clear
  | idle

def Register.fresh : Register τ := ⟨none, [], []⟩

def Register.move (r : Register τ) : Move τ → Register τ
  | .issue token => { r with current := some token, issued := r.issued ++ [token] }
  | .accept next =>
    match r.current with
    | none => r
    | some token => ⟨some next, r.issued ++ [next], r.accepted ++ [token]⟩
  | .clear => { r with current := none }
  | .idle => r

/-- What was accepted was issued, and issued before the current token. -/
structure Valid (r : Register τ) : Prop where
  used : r.accepted.Sublist r.issued
  latest : ∀ token, r.current = some token →
    ∃ before, r.issued = before ++ [token] ∧ r.accepted.Sublist before

theorem valid_fresh : Valid (Register.fresh : Register τ) :=
  ⟨List.Sublist.refl _, fun _ h => by cases h⟩

theorem valid_issue {r : Register τ} (h : Valid r) (token : τ) : Valid (r.move (.issue token)) := by
  refine ⟨h.used.trans (List.sublist_append_left _ _), ?_⟩
  rintro _ ⟨⟩
  exact ⟨r.issued, rfl, h.used⟩

theorem valid_accept {r : Register τ} (h : Valid r) (next : τ) : Valid (r.move (.accept next)) := by
  cases current : r.current with
  | none => simpa [Register.move, current] using h
  | some token =>
    obtain ⟨before, issued, used⟩ := h.latest token current
    have all : (r.accepted ++ [token]).Sublist r.issued := by
      rw [issued]
      exact used.append (List.Sublist.refl _)
    simp only [Register.move, current]
    refine ⟨all.trans (List.sublist_append_left _ _), ?_⟩
    rintro _ ⟨⟩
    exact ⟨r.issued, rfl, all⟩

theorem valid_move {r : Register τ} (h : Valid r) (m : Move τ) : Valid (r.move m) := by
  cases m with
  | issue token => exact valid_issue h token
  | accept next => exact valid_accept h next
  | clear => exact ⟨h.used, fun _ ht => by cases ht⟩
  | idle => exact h

/-- No token is accepted twice. -/
theorem Valid.accepted_nodup {r : Register τ} (h : Valid r) (distinct : r.issued.Nodup) :
    r.accepted.Nodup :=
  distinct.sublist h.used

theorem Valid.current_unused {r : Register τ} (h : Valid r) (distinct : r.issued.Nodup) {token : τ}
    (current : r.current = some token) :
    r.issued.getLast? = some token ∧ token ∉ r.accepted := by
  obtain ⟨before, issued, used⟩ := h.latest token current
  rw [issued] at distinct ⊢
  refine ⟨by simp, fun mem => ?_⟩
  exact List.disjoint_of_nodup_append distinct (used.subset mem) (List.mem_singleton_self token)

theorem move_cleared {r : Register τ} (cleared : r.current = none) {m : Move τ}
    (unissued : ∀ token, m ≠ .issue token) : (r.move m).current = none := by
  cases m with
  | issue token => exact absurd rfl (unissued token)
  | accept next => simp [Register.move, cleared]
  | clear => rfl
  | idle => exact cleared

end KeePassKeyWin.SingleUseTokens
