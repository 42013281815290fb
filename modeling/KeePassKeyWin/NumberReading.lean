import KeePassKeyWin.NumberFormat

set_option autoImplicit false

/-!
# Numbers of one format read under another

A text that ends in digits is an integer to a format exactly if nothing but digits follows its
sign.
-/
namespace KeePassKeyWin.NumberReading
open NumberFormat

theorem digit_range {c : Char} (digit : c.isDigit = true) : 48 ≤ c.toNat ∧ c.toNat ≤ 57 := by
  simp only [Char.isDigit, Bool.and_eq_true, decide_eq_true_eq] at digit
  exact digit

theorem toDigits_digit {c : Char} (digit : c.isDigit = true) :
    Nat.toDigits 10 (c.toNat - 48) = [c] := by
  have range := digit_range digit
  have value : Nat.digitChar (c.toNat - 48) = c := by
    apply Char.toNat_inj.mp
    rw [Nat.toNat_digitChar_of_lt_ten (by omega)]
    omega
  rw [Nat.toDigits_of_lt_base (by omega), value]

theorem toDigits_append {cs : List Char} (digits : ∀ c ∈ cs, c.isDigit = true) {n : ℕ}
    (positive : 0 < n) : Nat.toDigits 10 n ++ cs = Nat.toDigits 10 (Nat.ofDigitChars 10 cs n) := by
  induction cs generalizing n with
  | nil => simp
  | cons c cs ih =>
    have digit := digits c (by simp)
    have range := digit_range digit
    have one := Nat.toDigits_append_toDigits (b := 10) (by decide) positive
      (show c.toNat - 48 < 10 by omega)
    have more := ih (fun d later => digits d (by simp [later]))
      (show 0 < 10 * n + (c.toNat - 48) by omega)
    rw [toDigits_digit digit] at one
    rw [← one, List.append_assoc] at more
    rw [Nat.ofDigitChars_cons]
    exact more

theorem digits_of_value {cs : List Char} (digits : ∀ c ∈ cs, c.isDigit = true)
    (positive : 0 < Nat.ofDigitChars 10 cs 0) :
    ∃ k, cs = List.replicate k '0' ++ Nat.toDigits 10 (Nat.ofDigitChars 10 cs 0) := by
  induction cs with
  | nil => simp at positive
  | cons c cs ih =>
    have digit := digits c (by simp)
    have later : ∀ d ∈ cs, d.isDigit = true := fun d h => digits d (by simp [h])
    rw [Nat.ofDigitChars_cons, Nat.mul_zero, Nat.zero_add] at positive ⊢
    by_cases zero : c = '0'
    · subst zero
      obtain ⟨k, split⟩ := ih later positive
      exact ⟨k + 1, congrArg (List.cons '0') split⟩
    · have range := digit_range digit
      have lead : 0 < c.toNat - 48 := by
        by_contra none
        exact zero (Char.toNat_inj.mp (show c.toNat = 48 by omega))
      have spelled := toDigits_append later lead
      rw [toDigits_digit digit] at spelled
      exact ⟨0, spelled⟩

theorem last_mem {cs front : List Char} {last : Char} (suffix : cs <:+ front ++ [last])
    (some : cs ≠ []) : last ∈ cs := by
  rcases List.suffix_concat_iff.mp suffix with none | ⟨rest, rfl, _⟩
  · exact absurd none some
  · simp

theorem splitSign_suffix (format : NumberFormatInfo) (cs : List Char) :
    (splitSign format cs).2 <:+ cs := by
  unfold splitSign
  dsimp only
  split_ifs
  · exact List.drop_suffix _ _
  · exact List.drop_suffix _ _
  · exact List.suffix_rfl

theorem parseInteger_last {format : NumberFormatInfo} {s : String} {front : List Char}
    {last : Char} (text : s.toList = front ++ [last]) (digit : last.isDigit = true) :
    parseInteger format s =
      if (splitSign format (s.toList.dropWhile isWhite)).2 ≠ [] ∧
          (splitSign format (s.toList.dropWhile isWhite)).2.all Char.isDigit = true then
        some (if (splitSign format (s.toList.dropWhile isWhite)).1 then
          -(Nat.ofDigitChars 10 (splitSign format (s.toList.dropWhile isWhite)).2 0 : ℤ)
        else Nat.ofDigitChars 10 (splitSign format (s.toList.dropWhile isWhite)).2 0)
      else none := by
  have suffix : (splitSign format (s.toList.dropWhile isWhite)).2 <:+ front ++ [last] := by
    rw [← text]
    exact (splitSign_suffix _ _).trans (List.dropWhile_suffix _)
  unfold parseInteger
  generalize splitSign format (s.toList.dropWhile isWhite) = parts at suffix ⊢
  obtain ⟨negative, rest⟩ := parts
  dsimp only at suffix ⊢
  by_cases digits : ∀ c ∈ rest, c.isDigit = true
  · have taken : rest.takeWhile Char.isDigit = rest := List.takeWhile_eq_self_iff.mpr digits
    have dropped : rest.dropWhile Char.isDigit = [] := List.dropWhile_eq_nil_iff.mpr digits
    by_cases empty : rest = []
    · simp [empty]
    · simp only [taken, dropped, empty, List.dropWhile_nil, List.all_nil, not_false_eq_true,
        and_self, true_and, ne_eq, if_true]
      rw [if_pos (List.all_eq_true.mpr digits)]
  · have more : rest.dropWhile Char.isDigit ≠ [] := by
      intro none
      exact digits (List.dropWhile_eq_nil_iff.mp none)
    have suffix' := (List.dropWhile_suffix (l := rest) Char.isDigit).trans suffix
    have here := last_mem suffix' more
    have solid : (rest.dropWhile Char.isDigit).dropWhile isWhite ≠ [] := by
      intro none
      have white := List.dropWhile_eq_nil_iff.mp none last here
      rw [isDigit_not_white digit] at white
      cases white
    have there := last_mem ((List.dropWhile_suffix _).trans suffix') solid
    have range := digit_range digit
    have closing :
        ¬ ((rest.dropWhile Char.isDigit).dropWhile isWhite).all (·.toNat == 0) = true := by
      intro all
      have zero := List.all_eq_true.mp all last there
      rw [beq_iff_eq] at zero
      omega
    rw [if_neg fun h => closing h.2, if_neg fun h => digits (List.all_eq_true.mp h.2)]

/-- What stands between the white space and the digits of `n` is the negative sign of the format,
and perhaps zeros. -/
structure Signs (format : NumberFormatInfo) (sign : List Char) (n : ℕ) : Prop where
  some : format.negativeSign ≠ ""
  zeros : ∃ k, sign.dropWhile isWhite = format.negativeSign.toList ++ List.replicate k '0'
  other : format.positiveSign = "" ∨
    ¬ format.positiveSign.toList <+: sign.dropWhile isWhite ++ Nat.toDigits 10 n

theorem text_last (sign : List Char) (n : ℕ) : ∃ front last,
    sign ++ Nat.toDigits 10 n = front ++ [last] ∧ last.isDigit = true := by
  refine ⟨sign ++ (Nat.toDigits 10 n).dropLast, (Nat.toDigits 10 n).getLast (toDigits_ne_nil n),
    ?_, toDigits_isDigit n _ (List.getLast_mem _)⟩
  rw [List.append_assoc, List.dropLast_concat_getLast]

theorem text_dropWhile (sign : List Char) (n : ℕ) :
    (sign ++ Nat.toDigits 10 n).dropWhile isWhite =
      sign.dropWhile isWhite ++ Nat.toDigits 10 n := by
  rw [List.dropWhile_append]
  split_ifs with empty
  · rw [List.isEmpty_iff.mp empty, toDigits_dropWhile, List.nil_append]
  · rfl

theorem splitSign_negative {format : NumberFormatInfo} {cs rest : List Char} :
    splitSign format cs = (true, rest) ↔ format.negativeSign ≠ "" ∧
      (format.positiveSign = "" ∨ ¬ format.positiveSign.toList <+: cs) ∧
      cs = format.negativeSign.toList ++ rest := by
  have empty : ∀ sign : String, sign.toList = [] ↔ sign = "" := fun sign =>
    String.toList_eq_nil_iff
  unfold splitSign
  dsimp only
  simp only [ne_eq, empty, List.isPrefixOf_iff_prefix]
  split_ifs with plus minus
  · constructor
    · nofun
    · rintro ⟨_, none | other, _⟩
      · exact absurd none plus.1
      · exact absurd plus.2 other
  · obtain ⟨some, tail, rfl⟩ := minus
    rw [List.drop_left, Prod.mk.injEq]
    constructor
    · rintro ⟨_, rfl⟩
      exact ⟨some, not_and_or.mp plus |>.imp not_not.mp id, rfl⟩
    · rintro ⟨_, _, same⟩
      exact ⟨rfl, List.append_cancel_left same⟩
  · constructor
    · nofun
    · rintro ⟨some, _, rfl⟩
      exact absurd ⟨some, List.prefix_append _ _⟩ minus

theorem parseInteger_negative {format : NumberFormatInfo} {s : String} {sign : List Char} {n : ℕ}
    (positive : 0 < n) (text : s.toList = sign ++ Nat.toDigits 10 n) :
    parseInteger format s = some (-(n : ℤ)) ↔ Signs format sign n := by
  obtain ⟨front, last, ends, digit⟩ := text_last sign n
  rw [parseInteger_last (text.trans ends) digit, text, text_dropWhile]
  constructor
  · intro h
    cases parts : splitSign format (sign.dropWhile isWhite ++ Nat.toDigits 10 n) with
    | mk negative rest =>
      rw [parts] at h
      dsimp only at h
      split_ifs at h with digits minus
      · subst minus
        obtain ⟨some, other, split⟩ := splitSign_negative.mp parts
        have value : Nat.ofDigitChars 10 rest 0 = n := by
          have same := Option.some.inj h
          omega
        obtain ⟨k, zeros⟩ := digits_of_value (List.all_eq_true.mp digits.2) (by omega)
        rw [value] at zeros
        rw [zeros, ← List.append_assoc] at split
        exact ⟨some, ⟨k, List.append_cancel_right split⟩, other⟩
      · have same := Option.some.inj h
        omega
  · rintro ⟨some, ⟨k, zeros⟩, other⟩
    have split := splitSign_negative.mpr ⟨some, other,
      (by rw [zeros, List.append_assoc] :
        _ = format.negativeSign.toList ++ (List.replicate k '0' ++ Nat.toDigits 10 n))⟩
    have digits : ∀ c ∈ List.replicate k '0' ++ Nat.toDigits 10 n, c.isDigit = true := by
      intro c here
      rcases List.mem_append.mp here with zero | later
      · rw [List.eq_of_mem_replicate zero]
        rfl
      · exact toDigits_isDigit n c later
    have nonempty : List.replicate k '0' ++ Nat.toDigits 10 n ≠ [] :=
      List.append_ne_nil_of_right_ne_nil _ (toDigits_ne_nil n)
    have value : Nat.ofDigitChars 10 (List.replicate k '0' ++ Nat.toDigits 10 n) 0 = n := by
      rw [Nat.ofDigitChars_append, Nat.ofDigitChars_replicate_zero, Nat.mul_zero,
        Nat.ofDigitChars_ten_toDigits]
    rw [split]
    dsimp only
    rw [if_pos ⟨nonempty, List.all_eq_true.mpr digits⟩, value, if_pos rfl]

def NoInt (negative : Bool) (rest : List Char) : Prop :=
  rest = [] ∨ (∃ c ∈ rest, ¬ c.isDigit = true) ∨
    if negative then 2 ^ 31 < Nat.ofDigitChars 10 rest 0 else 2 ^ 31 ≤ Nat.ofDigitChars 10 rest 0

def Unread (format : NumberFormatInfo) (sign : List Char) (n : ℕ) : Prop :=
  NoInt (splitSign format (sign.dropWhile isWhite ++ Nat.toDigits 10 n)).1
    (splitSign format (sign.dropWhile isWhite ++ Nat.toDigits 10 n)).2

theorem intTryParse_none {format : NumberFormatInfo} {s : String} {sign : List Char} {n : ℕ}
    (text : s.toList = sign ++ Nat.toDigits 10 n) :
    intTryParse format (some s) = none ↔ Unread format sign n := by
  obtain ⟨front, last, ends, digit⟩ := text_last sign n
  rw [intTryParse, Option.bind_some, parseInteger_last (text.trans ends) digit, text,
    text_dropWhile, Unread, Option.filter_eq_none_iff]
  generalize splitSign format (sign.dropWhile isWhite ++ Nat.toDigits 10 n) = parts
  obtain ⟨negative, rest⟩ := parts
  unfold NoInt
  by_cases digits : rest ≠ [] ∧ rest.all Char.isDigit = true
  · have all : ¬ ∃ c ∈ rest, ¬ c.isDigit = true := by
      rintro ⟨c, here, other⟩
      exact other (List.all_eq_true.mp digits.2 c here)
    simp only [if_pos digits, digits.1, all, false_or, Option.some.injEq, forall_eq',
      decide_eq_true_eq]
    cases negative with
    | false =>
      simp only [Bool.false_eq_true, if_false]
      omega
    | true =>
      simp only [if_true]
      omega
  · have other : rest = [] ∨ ∃ c ∈ rest, ¬ c.isDigit = true := by
      by_contra none
      rw [not_or, not_exists] at none
      exact digits ⟨none.1, List.all_eq_true.mpr fun c here =>
        by_contra fun h => none.2 c ⟨here, h⟩⟩
    rw [if_neg digits]
    refine ⟨fun _ => or_assoc.mp (.inl other), fun _ a held => ?_⟩
    cases held

def Unsigned (format : NumberFormatInfo) (n : ℕ) : Prop :=
  (format.positiveSign = "" ∨ ¬ format.positiveSign.toList <+: Nat.toDigits 10 n) ∧
    (format.negativeSign = "" ∨ ¬ format.negativeSign.toList <+: Nat.toDigits 10 n)

theorem splitSign_cases (format : NumberFormatInfo) (cs : List Char) :
    (splitSign format cs = (false, cs) ∧
      (format.positiveSign = "" ∨ ¬ format.positiveSign.toList <+: cs) ∧
        (format.negativeSign = "" ∨ ¬ format.negativeSign.toList <+: cs)) ∨
    (splitSign format cs).2.length < cs.length ∧
      ¬ ((format.positiveSign = "" ∨ ¬ format.positiveSign.toList <+: cs) ∧
        (format.negativeSign = "" ∨ ¬ format.negativeSign.toList <+: cs)) := by
  have empty : ∀ sign : String, sign.toList = [] ↔ sign = "" := fun sign =>
    String.toList_eq_nil_iff
  have cut : ∀ sign : List Char, sign ≠ [] → sign <+: cs →
      (cs.drop sign.length).length < cs.length := by
    intro sign some starts
    have positive := List.length_pos_iff.mpr some
    have short := starts.length_le
    rw [List.length_drop]
    omega
  unfold splitSign
  dsimp only
  simp only [ne_eq, ← empty, List.isPrefixOf_iff_prefix]
  split_ifs with plus minus
  · exact .inr ⟨cut _ plus.1 plus.2, fun h => h.1.elim plus.1 fun other => other plus.2⟩
  · exact .inr ⟨cut _ minus.1 minus.2, fun h => h.2.elim minus.1 fun other => other minus.2⟩
  · exact .inl ⟨rfl, not_and_or.mp plus |>.imp not_not.mp id,
      not_and_or.mp minus |>.imp not_not.mp id⟩

theorem value_ne_of_short {cs : List Char} {n : ℕ} (digits : ∀ c ∈ cs, c.isDigit = true)
    (some : cs ≠ []) (short : cs.length < (Nat.toDigits 10 n).length) :
    Nat.ofDigitChars 10 cs 0 ≠ n := by
  rintro rfl
  have nonempty := List.length_pos_iff.mpr some
  by_cases zero : Nat.ofDigitChars 10 cs 0 = 0
  · rw [zero] at short
    have one : (Nat.toDigits 10 0).length = 1 := rfl
    omega
  · obtain ⟨k, split⟩ := digits_of_value digits (by omega)
    have lengths := congrArg List.length split
    rw [List.length_append, List.length_replicate] at lengths
    omega

theorem parseInteger_unsigned {format : NumberFormatInfo} {s : String} {n : ℕ}
    (text : s.toList = Nat.toDigits 10 n) :
    parseInteger format s = some (n : ℤ) ↔ Unsigned format n := by
  obtain ⟨front, last, ends, digit⟩ := text_last [] n
  rw [List.nil_append] at ends
  rw [parseInteger_last (text.trans ends) digit, text, toDigits_dropWhile, Unsigned]
  rcases splitSign_cases format (Nat.toDigits 10 n) with ⟨whole, unsigned⟩ | ⟨short, signed⟩
  · rw [whole]
    refine iff_of_true ?_ unsigned
    dsimp only
    rw [if_pos ⟨toDigits_ne_nil n, List.all_eq_true.mpr (toDigits_isDigit n)⟩,
      Nat.ofDigitChars_ten_toDigits]
    rfl
  · refine iff_of_false (fun h => ?_) signed
    split_ifs at h with digits minus
    · have value := value_ne_of_short (List.all_eq_true.mp digits.2) digits.1 short
      have same := Option.some.inj h
      omega
    · have value := value_ne_of_short (List.all_eq_true.mp digits.2) digits.1 short
      have same := Option.some.inj h
      omega

end KeePassKeyWin.NumberReading
