import Mathlib.Logic.Function.Basic
import Mathlib.Data.List.Basic

set_option autoImplicit false

/-!
# A cell that several owners write

Each owner has a token of its own and writes it to one shared cell. While the tokens drawn are
new, what the cell holds says who wrote it last, and what was read from it once still does.
-/
namespace KeePassKeyWin.SharedCells

variable {ι τ : Type}

/-- `writer` is the owner whose token was written last, `seen` every token so far. -/
structure Cell (ι τ : Type) where
  content : Option τ
  tokens : ι → Option τ
  writer : Option ι
  seen : List τ

/-- An owner writes a new token, draws one that does not reach the cell, or gives its token up
and perhaps empties the cell. -/
inductive Move (ι τ : Type) where
  | write (i : ι) (token : τ)
  | keep (i : ι) (token : τ)
  | drop (i : ι) (erases : Bool)
  | idle

def Move.drawn : Move ι τ → Option τ
  | .write _ token | .keep _ token => some token
  | _ => none

def Move.actor : Move ι τ → Option ι
  | .write i _ | .keep i _ | .drop i _ => some i
  | .idle => none

variable [DecidableEq ι]

def Cell.move (c : Cell ι τ) : Move ι τ → Cell ι τ
  | .write i token =>
    ⟨some token, Function.update c.tokens i (some token), some i, c.seen ++ [token]⟩
  | .keep i token =>
    { c with
      tokens := Function.update c.tokens i (some token)
      writer := if c.writer = some i then none else c.writer
      seen := c.seen ++ [token] }
  | .drop i erases =>
    { c with
      content := if erases then none else c.content
      tokens := Function.update c.tokens i none
      writer := if erases then none else c.writer }
  | .idle => c

/-- The cell holds the token of an owner exactly when that owner wrote last. -/
structure Valid (c : Cell ι τ) : Prop where
  content : ∀ token, c.content = some token → token ∈ c.seen
  tokens : ∀ i token, c.tokens i = some token → token ∈ c.seen
  written : ∀ i token, c.tokens i = some token → (c.content = some token ↔ c.writer = some i)

/-- A token read from the cell is that of the owner exactly when the owner had written it. -/
def Reads (c : Cell ι τ) (i : ι) (held : τ) (source : Option ι) : Prop :=
  ∀ token, c.tokens i = some token → (held = token ↔ source = some i)

section
variable {c : Cell ι τ} {i j : ι} {token : τ}

theorem tokens_update {tokens : ι → Option τ} {new : Option τ}
    (h : Function.update tokens i new j = some token) :
    j = i ∧ new = some token ∨ j ≠ i ∧ tokens j = some token := by
  by_cases own : j = i
  · subst own
    rw [Function.update_self] at h
    exact .inl ⟨rfl, h⟩
  · rw [Function.update_of_ne own] at h
    exact .inr ⟨own, h⟩

theorem valid_write (h : Valid c) (fresh : token ∉ c.seen) : Valid (c.move (.write i token)) where
  content t ht := by
    obtain rfl := Option.some.inj ht
    exact List.mem_append_right _ (List.mem_singleton_self _)
  tokens j t ht := by
    obtain ⟨-, ht⟩ | ⟨-, ht⟩ := tokens_update ht
    · obtain rfl := Option.some.inj ht
      exact List.mem_append_right _ (List.mem_singleton_self _)
    · exact List.mem_append_left _ (h.tokens j t ht)
  written j t ht := by
    change some token = some t ↔ some i = some j
    obtain ⟨rfl, new⟩ | ⟨other, old⟩ := tokens_update ht
    · simp [new]
    · have unwritten : token ≠ t := fun same => fresh (same ▸ h.tokens j t old)
      simp [unwritten, Ne.symm other]

theorem valid_keep (h : Valid c) (fresh : token ∉ c.seen) : Valid (c.move (.keep i token)) where
  content t ht := List.mem_append_left _ (h.content t ht)
  tokens j t ht := by
    obtain ⟨-, ht⟩ | ⟨-, ht⟩ := tokens_update ht
    · obtain rfl := Option.some.inj ht
      exact List.mem_append_right _ (List.mem_singleton_self _)
    · exact List.mem_append_left _ (h.tokens j t ht)
  written j t ht := by
    change c.content = some t ↔ (if c.writer = some i then none else c.writer) = some j
    obtain ⟨rfl, new⟩ | ⟨other, old⟩ := tokens_update ht
    · obtain rfl := Option.some.inj new
      have unwritten : c.content ≠ some token := fun held => fresh (h.content token held)
      split_ifs with own <;> simp [unwritten, own]
    · rw [h.written j t old]
      split_ifs with own
      · simp [own, Ne.symm other]
      · rfl

theorem valid_drop (h : Valid c) (erases : Bool) : Valid (c.move (.drop i erases)) where
  content t ht := by
    cases erases with
    | true => cases ht
    | false => exact h.content t ht
  tokens j t ht := by
    obtain ⟨-, ht⟩ | ⟨-, ht⟩ := tokens_update ht
    · cases ht
    · exact h.tokens j t ht
  written j t ht := by
    obtain ⟨-, new⟩ | ⟨-, old⟩ := tokens_update ht
    · cases new
    · cases erases with
      | true => simp [Cell.move]
      | false => exact h.written j t old

theorem valid_move (h : Valid c) {m : Move ι τ} (fresh : ∀ token, m.drawn = some token →
    token ∉ c.seen) : Valid (c.move m) := by
  cases m with
  | write i token => exact valid_write h (fresh token rfl)
  | keep i token => exact valid_keep h (fresh token rfl)
  | drop i erases => exact valid_drop h erases
  | idle => exact h

theorem tokens_move {m : Move ι τ} (other : m.actor ≠ some i) :
    (c.move m).tokens i = c.tokens i := by
  cases m with
  | write j | keep j | drop j =>
    have apart : i ≠ j := fun same => other (congrArg some same.symm)
    exact Function.update_of_ne apart _ _
  | idle => rfl

theorem reads_move {held : τ} {source : Option ι} (h : Reads c i held source) {m : Move ι τ}
    (other : m.actor ≠ some i) : Reads (c.move m) i held source := by
  intro token ht
  rw [tokens_move other] at ht
  exact h token ht

omit [DecidableEq ι] in
theorem reads_content (h : Valid c) {held : τ} (content : c.content = some held) :
    Reads c i held c.writer := by
  intro token ht
  rw [← h.written i token ht, content, Option.some.injEq]

/-- Only a write of its own makes an owner the last writer. -/
theorem writer_move {m : Move ι τ} (before : c.writer ≠ some i)
    (quiet : ∀ token, m ≠ .write i token) : (c.move m).writer ≠ some i := by
  cases m with
  | write j token =>
    rintro ⟨⟩
    exact quiet token rfl
  | keep j token =>
    change (if c.writer = some j then none else c.writer) ≠ some i
    split_ifs
    · simp
    · exact before
  | drop j erases =>
    cases erases with
    | true => simp [Cell.move]
    | false => exact before
  | idle => exact before

end

end KeePassKeyWin.SharedCells
