import KeePassKeyWin.JsonRpc
import Mathlib.Data.List.TakeWhile

set_option autoImplicit false

/-!
# Integers as text

`ToString` and `TryParse` of integers under a number format. A culture enters
through its sign strings; the invariant one writes `-` and `+`.
-/
namespace KeePassKeyWin.NumberFormat

structure NumberFormatInfo where
  negativeSign : String
  positiveSign : String
  deriving DecidableEq

def invariant : NumberFormatInfo := ⟨"-", "+"⟩

def intToString (format : NumberFormatInfo) (n : ℤ) : String :=
  if n < 0 then format.negativeSign ++ String.ofList (Nat.toDigits 10 n.natAbs)
  else String.ofList (Nat.toDigits 10 n.natAbs)

/-- The white space `TryParse` skips. -/
def isWhite (c : Char) : Bool := c.toNat == 0x20 || (0x09 ≤ c.toNat && c.toNat ≤ 0x0D)

/-- The positive sign is looked for first; an empty sign string never matches. -/
def splitSign (format : NumberFormatInfo) (cs : List Char) : Bool × List Char :=
  let positive := format.positiveSign.toList
  let negative := format.negativeSign.toList
  if positive ≠ [] ∧ positive.isPrefixOf cs then (false, cs.drop positive.length)
  else if negative ≠ [] ∧ negative.isPrefixOf cs then (true, cs.drop negative.length)
  else (false, cs)

/-- `NumberStyles.Integer`: white space around, a leading sign, decimal digits, and
trailing NUL characters. -/
def parseInteger (format : NumberFormatInfo) (s : String) : Option ℤ :=
  let (negative, cs) := splitSign format (s.toList.dropWhile isWhite)
  let digits := cs.takeWhile Char.isDigit
  let tail := (cs.dropWhile Char.isDigit).dropWhile isWhite
  if digits ≠ [] ∧ tail.all (·.toNat == 0) then
    let magnitude := Nat.ofDigitChars 10 digits 0
    some (if negative then -(magnitude : ℤ) else magnitude)
  else none

def intTryParse (format : NumberFormatInfo) (s : Option String) : Option ℤ :=
  s.bind fun s => (parseInteger format s).filter fun n => -2 ^ 31 ≤ n ∧ n < 2 ^ 31

def uintTryParse (s : Option String) : Option ℕ :=
  s.bind fun s => ((parseInteger invariant s).filter fun n => 0 ≤ n ∧ n < 2 ^ 32).map Int.toNat

/-- A sign string that parsing tells from digits, white space and the positive sign, as
those of every shipped culture are. -/
def NumberFormatInfo.Proper (format : NumberFormatInfo) : Prop :=
  (∃ c cs, format.negativeSign.toList = c :: cs ∧ ¬ c.isDigit ∧ ¬ isWhite c ∧
    ∀ d ds, format.positiveSign.toList = d :: ds → d ≠ c) ∧
  ∀ d ds, format.positiveSign.toList = d :: ds → ¬ d.isDigit

theorem invariant_proper : invariant.Proper := by
  refine ⟨⟨'-', [], rfl, by decide, by decide, ?_⟩, ?_⟩
  · intro d ds h
    obtain ⟨rfl, _⟩ := List.cons.inj (show ['+'] = d :: ds from h)
    decide
  · intro d ds h
    obtain ⟨rfl, _⟩ := List.cons.inj (show ['+'] = d :: ds from h)
    decide

theorem isDigit_not_white {c : Char} (h : c.isDigit = true) : isWhite c = false := by
  simp only [Char.isDigit, Bool.and_eq_true, decide_eq_true_eq] at h
  have h₀ : 48 ≤ c.toNat := h.1
  have h₁ : c.toNat ≤ 57 := h.2
  simp only [isWhite, Bool.or_eq_false_iff, Bool.and_eq_false_iff, beq_eq_false_iff_ne,
    decide_eq_false_iff_not]
  omega

theorem toDigits_ne_nil (n : ℕ) : Nat.toDigits 10 n ≠ [] := by
  rw [Nat.toDigits_eq_if (by omega)]
  split_ifs <;> simp

theorem toDigits_isDigit (n : ℕ) : ∀ c ∈ Nat.toDigits 10 n, c.isDigit = true :=
  fun _ h => Nat.isDigit_of_mem_toDigits (by omega) (by omega) h

theorem parseInteger_digits {format : NumberFormatInfo} {s : String} (negative : Bool) (n : ℕ)
    (h : splitSign format (s.toList.dropWhile isWhite) = (negative, Nat.toDigits 10 n)) :
    parseInteger format s = some (if negative then -(n : ℤ) else n) := by
  have htake : (Nat.toDigits 10 n).takeWhile Char.isDigit = Nat.toDigits 10 n :=
    List.takeWhile_eq_self_iff.mpr (toDigits_isDigit n)
  have hdrop : (Nat.toDigits 10 n).dropWhile Char.isDigit = [] :=
    List.dropWhile_eq_nil_iff.mpr (toDigits_isDigit n)
  simp [parseInteger, h, htake, hdrop, Nat.ofDigitChars_toDigits]

theorem dropWhile_white_cons {c : Char} {cs : List Char} (h : ¬ isWhite c = true) :
    (c :: cs).dropWhile isWhite = c :: cs := by
  simp [h]

theorem splitSign_digits {format : NumberFormatInfo} (h : format.Proper) (n : ℕ) :
    splitSign format (Nat.toDigits 10 n) = (false, Nat.toDigits 10 n) := by
  obtain ⟨⟨c, cs, hneg, hc, _, _⟩, hpos⟩ := h
  obtain ⟨d, ds, hd⟩ := List.exists_cons_of_ne_nil (toDigits_ne_nil n)
  have hdigit : d.isDigit = true := toDigits_isDigit n d (by simp [hd])
  have hcd : c ≠ d := by rintro rfl; exact hc hdigit
  rw [hd]
  cases hp : format.positiveSign.toList with
  | nil => simp [splitSign, hp, hneg, List.isPrefixOf, hcd]
  | cons e es =>
    have hed : e ≠ d := by rintro rfl; exact hpos _ _ hp hdigit
    simp [splitSign, hp, hneg, List.isPrefixOf, hcd, hed]

theorem toDigits_dropWhile (n : ℕ) :
    (Nat.toDigits 10 n).dropWhile isWhite = Nat.toDigits 10 n := by
  obtain ⟨d, ds, hd⟩ := List.exists_cons_of_ne_nil (toDigits_ne_nil n)
  have hdigit : d.isDigit = true := toDigits_isDigit n d (by simp [hd])
  rw [hd]
  exact dropWhile_white_cons (by simp [isDigit_not_white hdigit])

/-- Under a proper number format, an integer written is the integer read. -/
theorem parseInteger_intToString {format : NumberFormatInfo} (h : format.Proper) (n : ℤ) :
    parseInteger format (intToString format n) = some n := by
  by_cases hn : n < 0
  · obtain ⟨⟨c, cs, hneg, hc, hw, hpc⟩, _⟩ := h
    have hsplit : splitSign format
        ((format.negativeSign.toList ++ Nat.toDigits 10 n.natAbs).dropWhile isWhite) =
          (true, Nat.toDigits 10 n.natAbs) := by
      rw [hneg, List.cons_append, dropWhile_white_cons (by simpa using hw)]
      cases hp : format.positiveSign.toList with
      | nil => simp [splitSign, hp, hneg]
      | cons e es =>
        have hec : e ≠ c := hpc e es hp
        simp [splitSign, hp, hneg, List.isPrefixOf, hec]
    rw [parseInteger_digits true n.natAbs (by simpa [intToString, hn])]
    simp only [if_true, Option.some.injEq]
    omega
  · have hsplit := splitSign_digits h n.natAbs
    rw [parseInteger_digits false n.natAbs
      (by simpa [intToString, hn, toDigits_dropWhile] using hsplit)]
    simp only [Bool.false_eq_true, if_false, Option.some.injEq]
    omega

theorem intTryParse_intToString {format : NumberFormatInfo} (h : format.Proper) {n : ℤ}
    (hn : -2 ^ 31 ≤ n ∧ n < 2 ^ 31) : intTryParse format (some (intToString format n)) = some n := by
  simp only [intTryParse, Option.bind_some, parseInteger_intToString h, Option.filter_some, hn,
    and_self, decide_true, if_true]

theorem uintTryParse_intToString {n : ℕ} (hn : n < 2 ^ 32) :
    uintTryParse (some (intToString invariant n)) = some n := by
  have hr : (0 : ℤ) ≤ n ∧ (n : ℤ) < 2 ^ 32 := by omega
  simp only [uintTryParse, Option.bind_some, parseInteger_intToString invariant_proper,
    Option.filter_some, hr, and_self, decide_true, if_true, Option.map_some, Int.toNat_natCast]

theorem uintTryParse_lt {s : Option String} {n : ℕ} (h : uintTryParse s = some n) : n < 2 ^ 32 := by
  simp only [uintTryParse, Option.bind_eq_some_iff, Option.map_eq_some_iff,
    Option.filter_eq_some_iff, decide_eq_true_eq] at h
  obtain ⟨_, _, z, ⟨_, hz⟩, rfl⟩ := h
  omega

end KeePassKeyWin.NumberFormat
