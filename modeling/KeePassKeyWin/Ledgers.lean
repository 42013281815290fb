import Mathlib.Data.List.Basic

set_option autoImplicit false

/-!
# Ledgers of operations

Operations are stored with all that came before them, or wait for the next that is. What waits
may be lost, but an operation that is acknowledged only once it is stored never is.
-/
namespace KeePassKeyWin.Ledgers

variable {ω : Type}

structure Ledger (ω : Type) where
  kept : List ω
  pending : List ω
  acknowledged : List ω

namespace Ledger

def empty : Ledger ω := ⟨[], [], []⟩

def all (l : Ledger ω) : List ω := l.kept ++ l.pending

def store (l : Ledger ω) : Ledger ω := { l with kept := l.all, pending := [] }

def lose (l : Ledger ω) : Ledger ω := { l with pending := [] }

/-- An operation, whether it and all before it were stored, and whether it was acknowledged. -/
def perform (l : Ledger ω) (op : ω) (stored answered : Bool) : Ledger ω :=
  let l := { l with pending := l.pending ++ [op] }
  let l := if stored then l.store else l
  if answered then { l with acknowledged := l.acknowledged ++ [op] } else l

variable {l : Ledger ω} {op : ω} {stored answered : Bool}

@[simp] theorem all_store (l : Ledger ω) : l.store.all = l.all := List.append_nil _

@[simp] theorem all_lose (l : Ledger ω) : l.lose.all = l.kept := List.append_nil _

@[simp] theorem kept_store (l : Ledger ω) : l.store.kept = l.all := rfl

@[simp] theorem kept_lose (l : Ledger ω) : l.lose.kept = l.kept := rfl

@[simp] theorem all_perform (l : Ledger ω) (op : ω) (stored answered : Bool) :
    (l.perform op stored answered).all = l.all ++ [op] := by
  cases stored <;> cases answered <;> simp [perform, all, store]

theorem kept_perform (l : Ledger ω) (op : ω) (stored answered : Bool) :
    (l.perform op stored answered).kept = if stored then l.all ++ [op] else l.kept := by
  cases stored <;> cases answered <;> simp [perform, all, store]

theorem kept_sublist (l : Ledger ω) : l.kept.Sublist l.all := List.sublist_append_left _ _

/-- Nothing that was acknowledged is missing, and the order is the same. -/
def Durable (l : Ledger ω) : Prop := l.acknowledged.Sublist l.kept

theorem Durable.empty : Durable (empty : Ledger ω) := List.nil_sublist _

theorem Durable.store (h : l.Durable) : l.store.Durable := h.trans l.kept_sublist

theorem Durable.lose (h : l.Durable) : l.lose.Durable := h

theorem Durable.perform (h : l.Durable) (safe : answered = true → stored = true) :
    (l.perform op stored answered).Durable := by
  have whole : l.acknowledged.Sublist l.all := h.trans l.kept_sublist
  unfold Durable
  rw [kept_perform]
  cases answered with
  | true =>
    rw [safe rfl]
    exact whole.append (List.Sublist.refl [op])
  | false =>
    cases stored with
    | true => exact whole.trans (List.sublist_append_left _ _)
    | false => exact h

end Ledger

end KeePassKeyWin.Ledgers
