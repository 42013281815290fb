import KeePassKeyWin.FirstMatch
import Mathlib.Data.List.Find
import Mathlib.Data.List.Nodup
import Mathlib.Logic.Function.Basic

set_option autoImplicit false

/-!
# Ordered tables

At most one row for each key, and the rows in the order in which their keys first came. A change
under one key is an append, a removal or a change of one element of the list of rows.
-/
namespace KeePassKeyWin.KeyedTables
open FirstMatch

variable {κ α : Type}

/-- `order` keeps the keys that were removed. -/
structure OrderedTable (key : α → κ) where
  order : List κ
  content : κ → Option α
  nodup : order.Nodup
  known : ∀ {k a}, content k = some a → k ∈ order ∧ key a = k

variable {key : α → κ}

namespace OrderedTable

def empty : OrderedTable key where
  order := []
  content _ := none
  nodup := List.nodup_nil
  known := nofun

def rows (t : OrderedTable key) : List α := t.order.filterMap t.content

theorem content_of_mem {t : OrderedTable key} {a : α} (row : a ∈ t.rows) :
    t.content (key a) = some a := by
  obtain ⟨k, _, held⟩ := List.mem_filterMap.mp row
  rw [(t.known held).2, held]

end OrderedTable

variable [DecidableEq κ]

namespace OrderedTable

def insert (t : OrderedTable key) (a : α) : OrderedTable key where
  order := if key a ∈ t.order then t.order else t.order ++ [key a]
  content := Function.update t.content (key a) (some a)
  nodup := by
    split_ifs with old
    · exact t.nodup
    · exact List.nodup_append.mpr ⟨t.nodup, List.nodup_singleton _, by
        rintro k here _ (_ | ⟨_, ⟨⟩⟩) rfl
        exact old here⟩
  known {k b} h := by
    by_cases own : k = key a
    · subst own
      rw [Function.update_self] at h
      obtain rfl := Option.some.inj h
      refine ⟨?_, rfl⟩
      split_ifs with old
      · exact old
      · simp
    · rw [Function.update_of_ne own] at h
      obtain ⟨here, same⟩ := t.known h
      refine ⟨?_, same⟩
      split_ifs
      · exact here
      · exact List.mem_append_left _ here

def erase (t : OrderedTable key) (k : κ) : OrderedTable key where
  order := t.order
  content := Function.update t.content k none
  nodup := t.nodup
  known {k' b} h := by
    by_cases own : k' = k
    · subst own
      rw [Function.update_self] at h
      cases h
    · rw [Function.update_of_ne own] at h
      exact t.known h

def modify (t : OrderedTable key) (k : κ) (f : α → α) (keeps : ∀ a, key (f a) = key a) :
    OrderedTable key where
  order := t.order
  content := Function.update t.content k ((t.content k).map f)
  nodup := t.nodup
  known {k' b} h := by
    by_cases own : k' = k
    · subst own
      rw [Function.update_self] at h
      obtain ⟨a, old, rfl⟩ := Option.map_eq_some_iff.mp h
      rw [keeps]
      exact t.known old
    · rw [Function.update_of_ne own] at h
      exact t.known h

end OrderedTable

section
variable {β : Type} {p : β → Bool} {q : α → Bool} {g : β → α} {xs : List β}

theorem find?_image (h : ∀ x ∈ xs, q (g x) = p x) : (xs.find? p).map g = (xs.map g).find? q := by
  rw [List.find?_map]
  exact congrArg (Option.map g) (List.find?_congr h).symm

theorem filter_image (h : ∀ x ∈ xs, q (g x) = p x) : (xs.filter p).map g = (xs.map g).filter q := by
  rw [List.filter_map, ← List.filter_congr h]
  rfl

theorem eraseP_image (h : ∀ x ∈ xs, q (g x) = p x) : (xs.eraseP p).map g = (xs.map g).eraseP q := by
  induction xs with
  | nil => rfl
  | cons x xs ih =>
    have head := h x List.mem_cons_self
    have tail := ih fun y later => h y (List.mem_cons_of_mem _ later)
    by_cases own : p x = true
    · rw [List.eraseP_cons_of_pos own, List.map_cons,
        List.eraseP_cons_of_pos (head.trans own)]
    · rw [List.eraseP_cons_of_neg own, List.map_cons, List.map_cons, tail,
        List.eraseP_cons_of_neg (by rwa [head])]

theorem modifyFirst_image {f : β → β} {f' : α → α} (h : ∀ x ∈ xs, q (g x) = p x)
    (fits : ∀ x, xs.find? p = some x → g (f x) = f' (g x)) :
    (modifyFirst p f xs).map g = modifyFirst q f' (xs.map g) := by
  induction xs with
  | nil => rfl
  | cons x xs ih =>
    have head := h x List.mem_cons_self
    by_cases own : p x = true
    · have changed := fits x (List.find?_cons_of_pos own)
      rw [modifyFirst, if_pos own, List.map_cons, List.map_cons, modifyFirst,
        if_pos (head.trans own), changed]
    · have tail := ih (fun y later => h y (List.mem_cons_of_mem _ later)) fun y found =>
        fits y ((List.find?_cons_of_neg own).trans found)
      rw [modifyFirst, if_neg own, List.map_cons, List.map_cons, modifyFirst,
        if_neg (by rwa [head]), tail]

end

def hasKey (key : α → κ) (k : κ) (a : α) : Bool := decide (key a = k)

section
variable {content : κ → Option α} {k : κ} {order : List κ}

theorem hasKey_iff {a : α} : hasKey key k a = true ↔ key a = k := decide_eq_true_iff

theorem filterMap_update (absent : k ∉ order) (row : Option α) :
    order.filterMap (Function.update content k row) = order.filterMap content := by
  apply List.filterMap_congr
  intro k' here
  rw [Function.update_of_ne]
  rintro rfl
  exact absent here

theorem hasKey_of_absent (keyed : ∀ {k a}, content k = some a → key a = k) (absent : k ∉ order) :
    ∀ a ∈ order.filterMap content, ¬ hasKey key k a = true := by
  intro a row own
  obtain ⟨k', here, held⟩ := List.mem_filterMap.mp row
  rw [← hasKey_iff.mp own, keyed held] at absent
  exact absent here

theorem filterMap_erase (keyed : ∀ {k a}, content k = some a → key a = k) (nodup : order.Nodup) :
    order.filterMap (Function.update content k none) =
      (order.filterMap content).eraseP (hasKey key k) := by
  induction order with
  | nil => rfl
  | cons k' order ih =>
    obtain ⟨new, nodup⟩ := List.nodup_cons.mp nodup
    by_cases own : k' = k
    · subst own
      have none := hasKey_of_absent keyed new
      rw [List.filterMap_cons, Function.update_self, filterMap_update new, List.filterMap_cons]
      cases held : content k' with
      | none => exact (List.eraseP_of_forall_not none).symm
      | some a => exact (List.eraseP_cons_of_pos (hasKey_iff.mpr (keyed held))).symm
    · rw [List.filterMap_cons, Function.update_of_ne own, ih nodup, List.filterMap_cons]
      cases held : content k' with
      | none => rfl
      | some a =>
        have other : ¬ hasKey key k a = true := by
          rw [hasKey_iff, keyed held]
          exact own
        exact (List.eraseP_cons_of_neg other).symm

theorem filterMap_modify (keyed : ∀ {k a}, content k = some a → key a = k) (nodup : order.Nodup)
    (f : α → α) : order.filterMap (Function.update content k ((content k).map f)) =
      modifyFirst (hasKey key k) f (order.filterMap content) := by
  induction order with
  | nil => rfl
  | cons k' order ih =>
    obtain ⟨new, nodup⟩ := List.nodup_cons.mp nodup
    by_cases own : k' = k
    · subst own
      have none := hasKey_of_absent keyed new
      rw [List.filterMap_cons, Function.update_self, filterMap_update new, List.filterMap_cons]
      cases held : content k' with
      | none => exact (modifyFirst_of_none (List.find?_eq_none.mpr none)).symm
      | some a => exact (if_pos (hasKey_iff.mpr (keyed held))).symm
    · rw [List.filterMap_cons, Function.update_of_ne own, ih nodup, List.filterMap_cons]
      cases held : content k' with
      | none => rfl
      | some a =>
        have other : ¬ hasKey key k a = true := by
          rw [hasKey_iff, keyed held]
          exact own
        exact (if_neg other).symm

theorem find?_filterMap (keyed : ∀ {k a}, content k = some a → key a = k)
    (known : ∀ {a}, content k = some a → k ∈ order) (nodup : order.Nodup) :
    (order.filterMap content).find? (hasKey key k) = content k := by
  cases held : content k with
  | none =>
    rw [List.find?_eq_none]
    intro a row own
    obtain ⟨k', _, held'⟩ := List.mem_filterMap.mp row
    rw [← hasKey_iff.mp own, keyed held', held'] at held
    cases held
  | some a =>
    obtain ⟨before, after, rfl⟩ := List.append_of_mem (known held)
    have new : k ∉ before := fun here =>
      (List.nodup_append.mp nodup).2.2 k here k List.mem_cons_self rfl
    rw [List.filterMap_append, List.filterMap_cons, held,
      find?_append_of_none (List.find?_eq_none.mpr (hasKey_of_absent keyed new))]
    exact List.find?_cons_of_pos (hasKey_iff.mpr (keyed held))

end

namespace OrderedTable
variable {t : OrderedTable key} {k : κ}

theorem rows_insert {a : α} (fresh : key a ∉ t.order) : (t.insert a).rows = t.rows ++ [a] := by
  change List.filterMap _ (if key a ∈ t.order then t.order else t.order ++ [key a]) = _
  rw [if_neg fresh, List.filterMap_append]
  change t.order.filterMap (Function.update t.content (key a) (some a)) ++
    [key a].filterMap (Function.update t.content (key a) (some a)) = _
  rw [filterMap_update fresh, List.filterMap_cons, Function.update_self]
  rfl

theorem rows_erase : (t.erase k).rows = t.rows.eraseP (hasKey key k) :=
  filterMap_erase (fun held => (t.known held).2) t.nodup

theorem rows_modify {f : α → α} (keeps : ∀ a, key (f a) = key a) :
    (t.modify k f keeps).rows = modifyFirst (hasKey key k) f t.rows :=
  filterMap_modify (fun held => (t.known held).2) t.nodup f

theorem find?_rows : t.rows.find? (hasKey key k) = t.content k :=
  find?_filterMap (fun held => (t.known held).2) (fun held => (t.known held).1) t.nodup

end OrderedTable

end KeePassKeyWin.KeyedTables
