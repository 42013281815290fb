import Mathlib.Data.List.Basic

set_option autoImplicit false

/-!
# Logs whose entries depend on those before

A log grows at its end. It is lawful when every entry is permitted by the entries before it.
-/
namespace KeePassKeyWin.EventLogs

variable {ε : Type} {permitted : List ε → ε → Prop}

inductive Lawful (permitted : List ε → ε → Prop) : List ε → Prop
  | nil : Lawful permitted []
  | snoc {log : List ε} {entry : ε} (rest : Lawful permitted log) (last : permitted log entry) :
      Lawful permitted (log ++ [entry])

def lastOf {α : Type} (read : ε → Option α) (log : List ε) : Option α :=
  (log.filterMap read).getLast?

@[simp] theorem lastOf_snoc {α : Type} (read : ε → Option α) (log : List ε) (entry : ε) :
    lastOf read (log ++ [entry]) = (read entry).or (lastOf read log) := by
  cases h : read entry with
  | none => simp [lastOf, h]
  | some a => simp [lastOf, h]

end KeePassKeyWin.EventLogs
