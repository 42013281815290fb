import Mathlib.Data.List.Basic

set_option autoImplicit false

/-!
# The first matching element of a list

Tables kept as lists and searched from the front: looking up, changing and
removing the first element that matches, and setting the value of a key.
-/
namespace KeePassKeyWin.FirstMatch

variable {α β : Type} (p : α → Bool) (f : α → α)

def modifyFirst : List α → List α
  | [] => []
  | x :: xs => if p x then f x :: xs else x :: modifyFirst xs

variable {p f}

theorem modifyFirst_of_none {xs : List α} (h : xs.find? p = none) : modifyFirst p f xs = xs := by
  induction xs with
  | nil => rfl
  | cons x xs ih =>
    rw [List.find?_eq_none] at h
    have hx : ¬ p x = true := h x (by simp)
    have hxs := ih (by rw [List.find?_eq_none]; exact fun y hy => h y (by simp [hy]))
    simp [modifyFirst, hx, hxs]

@[simp] theorem modifyFirst_length (xs : List α) : (modifyFirst p f xs).length = xs.length := by
  induction xs with
  | nil => rfl
  | cons x xs ih =>
    simp only [modifyFirst]
    split_ifs <;> simp [ih]

theorem map_modifyFirst {g : α → β} (h : ∀ x, g (f x) = g x) (xs : List α) :
    (modifyFirst p f xs).map g = xs.map g := by
  induction xs with
  | nil => rfl
  | cons x xs ih =>
    simp only [modifyFirst]
    split_ifs <;> simp [h, ih]

theorem find?_modifyFirst (h : ∀ x, p (f x) = p x) (xs : List α) :
    (modifyFirst p f xs).find? p = (xs.find? p).map f := by
  induction xs with
  | nil => rfl
  | cons x xs ih =>
    by_cases hx : p x = true
    · simp [modifyFirst, hx, h]
    · simp [modifyFirst, hx, ih]

theorem find?_modifyFirst_of_ne {q : α → Bool} (h : ∀ x, p x = true → q x = false)
    (hf : ∀ x, p x = true → q (f x) = false) (xs : List α) :
    (modifyFirst p f xs).find? q = xs.find? q := by
  induction xs with
  | nil => rfl
  | cons x xs ih =>
    by_cases hx : p x = true
    · simp [modifyFirst, hx, h x hx, hf x hx]
    · simp [modifyFirst, hx, List.find?_cons, ih]

theorem mem_modifyFirst {xs : List α} {y : α} (h : y ∈ modifyFirst p f xs) :
    y ∈ xs ∨ ∃ x ∈ xs, p x = true ∧ y = f x := by
  induction xs with
  | nil => simp [modifyFirst] at h
  | cons x xs ih =>
    simp only [modifyFirst] at h
    split_ifs at h with hx
    · rcases List.mem_cons.mp h with rfl | h
      · exact .inr ⟨x, by simp, hx, rfl⟩
      · exact .inl (by simp [h])
    · rcases List.mem_cons.mp h with rfl | h
      · exact .inl (by simp)
      · rcases ih h with old | ⟨z, hz, hp, rfl⟩
        · exact .inl (by simp [old])
        · exact .inr ⟨z, by simp [hz], hp, rfl⟩

/-- Only the element that the search finds is changed, in its place. -/
theorem modifyFirst_split {xs : List α} {x : α} (h : xs.find? p = some x) :
    ∃ before after, xs = before ++ x :: after ∧
      modifyFirst p f xs = before ++ f x :: after := by
  induction xs with
  | nil => simp at h
  | cons y ys ih =>
    by_cases hy : p y = true
    · obtain rfl : y = x := by simpa [hy] using h
      exact ⟨[], ys, rfl, by simp [modifyFirst, hy]⟩
    · obtain ⟨before, after, split, changed⟩ := ih (by simpa [hy] using h)
      exact ⟨y :: before, after, by simp [split], by simp [modifyFirst, hy, changed]⟩

theorem find?_append_of_none {xs ys : List α} (h : xs.find? p = none) :
    (xs ++ ys).find? p = ys.find? p := by
  simp [List.find?_append, h]

theorem find?_append_of_some {xs ys : List α} {x : α} (h : xs.find? p = some x) :
    (xs ++ ys).find? p = some x := by
  simp [List.find?_append, h]

theorem find?_eraseP_of_ne {q : α → Bool} (h : ∀ x, p x = true → q x = false) (xs : List α) :
    (xs.eraseP p).find? q = xs.find? q := by
  induction xs with
  | nil => rfl
  | cons x xs ih =>
    by_cases hx : p x = true
    · simp [hx, h x hx]
    · simp [hx, List.find?_cons, ih]

theorem findSome?_congr {g h : α → Option β} {xs : List α} (same : ∀ x ∈ xs, g x = h x) :
    xs.findSome? g = xs.findSome? h := by
  induction xs with
  | nil => rfl
  | cons x xs ih =>
    rw [List.findSome?_cons, List.findSome?_cons, same x List.mem_cons_self,
      ih fun y hy => same y (List.mem_cons_of_mem x hy)]

section part
open List
variable {q : α → Bool} {xs : List α}

def Within (p q : α → Bool) (xs : List α) : Prop := ∀ x ∈ xs, q x = true → p x = true

theorem Within.tail {x : α} (h : Within p q (x :: xs)) : Within p q xs :=
  fun y hy => h y (mem_cons_of_mem x hy)

theorem Within.find? (h : Within p q xs) : xs.find? q = (xs.filter p).find? q := by
  induction xs with
  | nil => rfl
  | cons x xs ih =>
    by_cases found : q x = true
    · rw [filter_cons_of_pos (h x mem_cons_self found), find?_cons_of_pos found,
        find?_cons_of_pos found]
    · rw [find?_cons_of_neg found, ih h.tail]
      by_cases own : p x = true
      · rw [filter_cons_of_pos own, find?_cons_of_neg found]
      · rw [filter_cons_of_neg own]

theorem Within.any (h : Within p q xs) : xs.any q = (xs.filter p).any q := by
  rw [← isSome_find?, ← isSome_find?, h.find?]

theorem Within.eraseP (h : Within p q xs) :
    (xs.eraseP q).filter p = (xs.filter p).eraseP q := by
  induction xs with
  | nil => rfl
  | cons x xs ih =>
    by_cases found : q x = true
    · rw [filter_cons_of_pos (h x mem_cons_self found), eraseP_cons_of_pos found,
        eraseP_cons_of_pos found]
    · rw [eraseP_cons_of_neg found]
      by_cases own : p x = true
      · rw [filter_cons_of_pos own, filter_cons_of_pos own, eraseP_cons_of_neg found, ih h.tail]
      · rw [filter_cons_of_neg own, filter_cons_of_neg own, ih h.tail]

theorem Within.modifyFirst (h : Within p q xs) (kept : ∀ x, p (f x) = p x) :
    (FirstMatch.modifyFirst q f xs).filter p = FirstMatch.modifyFirst q f (xs.filter p) := by
  induction xs with
  | nil => rfl
  | cons x xs ih =>
    by_cases found : q x = true
    · have own := h x mem_cons_self found
      rw [filter_cons_of_pos own]
      simp only [FirstMatch.modifyFirst, if_pos found]
      rw [filter_cons_of_pos ((kept x).trans own)]
    · by_cases own : p x = true
      · rw [filter_cons_of_pos own]
        simp only [FirstMatch.modifyFirst, if_neg found]
        rw [filter_cons_of_pos own, ih h.tail]
      · rw [filter_cons_of_neg own]
        simp only [FirstMatch.modifyFirst, if_neg found]
        rw [filter_cons_of_neg own, ih h.tail]

end part
variable {κ ν : Type} [BEq κ]

/-- Set the value of a key that is there, or add the pair at the end. -/
def setKey (k : κ) (v : ν) : List (κ × ν) → List (κ × ν)
  | [] => [(k, v)]
  | (k', v') :: d => if k == k' then (k', v) :: d else (k', v') :: setKey k v d

@[simp] theorem lookup_setKey [LawfulBEq κ] (k : κ) (v : ν) (d : List (κ × ν)) :
    (setKey k v d).lookup k = some v := by
  induction d with
  | nil => simp [setKey]
  | cons p d ih =>
    obtain ⟨a, b⟩ := p
    by_cases h : k = a
    · simp [setKey, h]
    · have hb : (k == a) = false := by simpa using h
      simp [setKey, List.lookup_cons, hb, ih]

theorem lookup_setKey_of_ne [LawfulBEq κ] {k k' : κ} (h : k' ≠ k) (v : ν) (d : List (κ × ν)) :
    (setKey k v d).lookup k' = d.lookup k' := by
  have hb : (k' == k) = false := by simpa using h
  induction d with
  | nil => simp [setKey, List.lookup_cons, hb]
  | cons p d ih =>
    obtain ⟨a, b⟩ := p
    by_cases hk : k = a
    · subst hk
      simp [setKey, List.lookup_cons, hb]
    · have hk' : (k == a) = false := by simpa using hk
      simp [setKey, List.lookup_cons, hk', ih]

end KeePassKeyWin.FirstMatch
