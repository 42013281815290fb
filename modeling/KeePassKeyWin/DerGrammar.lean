import KeePassKeyWin.ByteStrings

set_option autoImplicit false

/-!
# DER

Length fields, INTEGERs that are not negative, and elements of a tag, as BER allows them, and the
one form that DER picks among them.
-/
namespace KeePassKeyWin.DerGrammar
open ByteStrings

/-- A length below 128 as one byte, or any behind the number of its bytes. -/
inductive LengthField : ℕ → Bytes → Prop where
  | short {n : ℕ} (small : n < 0x80) : LengthField n [UInt8.ofNat n]
  | long {digits : Bytes} (some : digits ≠ []) (few : digits.length < 0x7F) :
      LengthField (ofBigEndian digits) (UInt8.ofNat (0x80 + digits.length) :: digits)

/-- The content of an INTEGER whose sign bit is clear. -/
def Represents (n : ℕ) (content : Bytes) : Prop :=
  ∃ b bs, content = b :: bs ∧ b < 0x80 ∧ ofBigEndian content = n

def Shortest (form : Bytes → Prop) (bs : Bytes) : Prop :=
  form bs ∧ ∀ other, form other → bs.length ≤ other.length

def Element (width : ℕ) (tag : UInt8) (content bs : Bytes) : Prop :=
  ∃ field, LengthField content.length field ∧ field.length ≤ 1 + width ∧
    bs = tag :: (field ++ content)

def StrictElement (tag : UInt8) (content bs : Bytes) : Prop :=
  ∃ field, Shortest (LengthField content.length) field ∧ bs = tag :: (field ++ content)

def StrictInteger (n : ℕ) (bs : Bytes) : Prop :=
  ∃ content, Shortest (Represents n) content ∧ StrictElement 0x02 content bs

def StrictPair (r s : ℕ) (bs : Bytes) : Prop :=
  ∃ first second, StrictInteger r first ∧ StrictInteger s second ∧
    StrictElement 0x30 (first ++ second) bs

theorem ofBigEndian_injective {as bs : Bytes} (width : as.length = bs.length)
    (same : ofBigEndian as = ofBigEndian bs) : as = bs := by
  induction as generalizing bs with
  | nil => exact (List.length_eq_zero_iff.mp width.symm).symm
  | cons a as ih =>
    cases bs with
    | nil => cases width
    | cons b bs =>
      have tails : as.length = bs.length := Nat.succ.inj width
      rw [ofBigEndian_cons, ofBigEndian_cons, tails] at same
      have lowA := ofBigEndian_lt as
      have lowB := ofBigEndian_lt bs
      rw [tails] at lowA
      have positive : 0 < 256 ^ bs.length := Nat.pow_pos (by decide)
      have heads := congrArg (· / 256 ^ bs.length) same
      simp only [Nat.mul_comm _ (256 ^ bs.length), Nat.mul_add_div positive,
        Nat.div_eq_of_lt lowA, Nat.div_eq_of_lt lowB, Nat.add_zero] at heads
      obtain rfl := UInt8.toNat_inj.mp heads
      rw [ih tails (Nat.add_left_cancel same)]

theorem bigEndian_ofBigEndian (bs : Bytes) : bigEndian bs.length (ofBigEndian bs) = bs :=
  ofBigEndian_injective (bigEndian_length _ _) (ofBigEndian_bigEndian_of_lt (ofBigEndian_lt bs))

theorem ofBigEndian_zeros (n : ℕ) (bs : Bytes) :
    ofBigEndian (List.replicate n 0 ++ bs) = ofBigEndian bs := by
  induction n with
  | zero => rfl
  | succ n ih =>
    rw [List.replicate_succ, List.cons_append, ofBigEndian_cons, ih]
    simp

theorem le_ofBigEndian_cons {b : UInt8} {m : ℕ} (lead : m ≤ b.toNat) (bs : Bytes) :
    m * 256 ^ bs.length ≤ ofBigEndian (b :: bs) := by
  rw [ofBigEndian_cons]
  exact (Nat.mul_le_mul_right _ lead).trans (Nat.le_add_right _ _)

theorem ofBigEndian_cons_lt {b : UInt8} {m : ℕ} (lead : b.toNat < m) (bs : Bytes) :
    ofBigEndian (b :: bs) < m * 256 ^ bs.length := by
  have low := ofBigEndian_lt bs
  have high : (b.toNat + 1) * 256 ^ bs.length ≤ m * 256 ^ bs.length :=
    Nat.mul_le_mul_right _ lead
  rw [ofBigEndian_cons]
  rw [Nat.add_mul] at high
  omega

theorem LengthField.nonempty {n : ℕ} {field : Bytes} (h : LengthField n field) :
    1 ≤ field.length := by
  cases h with
  | short small => exact le_rfl
  | long some few => exact Nat.succ_le_succ (Nat.zero_le _)

theorem LengthField.of_single {n : ℕ} {field : Bytes} (h : LengthField n field)
    (single : field.length = 1) : n < 0x80 ∧ field = [UInt8.ofNat n] := by
  cases h with
  | short small => exact ⟨small, rfl⟩
  | long some few => exact absurd (List.length_eq_zero_iff.mp (Nat.succ.inj single)) some

theorem LengthField.unique {n : ℕ} {field other : Bytes} (h : LengthField n field)
    (h' : LengthField n other) (width : field.length = other.length) : field = other := by
  cases h with
  | short small => exact (h'.of_single width.symm).2.symm
  | @long digits some few =>
    generalize value : ofBigEndian digits = m at h'
    cases h' with
    | short small => exact absurd (List.length_eq_zero_iff.mp (Nat.succ.inj width)) some
    | long some' few' =>
      have digits' := Nat.succ.inj width
      rw [ofBigEndian_injective digits' value]

theorem Represents.unique {n : ℕ} {content other : Bytes} (h : Represents n content)
    (h' : Represents n other) (width : content.length = other.length) : content = other := by
  obtain ⟨_, _, _, _, value⟩ := h
  obtain ⟨_, _, _, _, value'⟩ := h'
  exact ofBigEndian_injective width (value.trans value'.symm)

theorem Shortest.unique {form : Bytes → Prop} {bs other : Bytes}
    (distinct : ∀ as cs, form as → form cs → as.length = cs.length → as = cs)
    (h : Shortest form bs) (h' : Shortest form other) : bs = other :=
  distinct _ _ h.1 h'.1 (Nat.le_antisymm (h.2 _ h'.1) (h'.2 _ h.1))

theorem StrictElement.unique {tag : UInt8} {content bs other : Bytes}
    (h : StrictElement tag content bs) (h' : StrictElement tag content other) : bs = other := by
  obtain ⟨field, shortest, rfl⟩ := h
  obtain ⟨field', shortest', rfl⟩ := h'
  rw [shortest.unique (fun _ _ h h' => h.unique h') shortest']

theorem StrictInteger.unique {n : ℕ} {bs other : Bytes} (h : StrictInteger n bs)
    (h' : StrictInteger n other) : bs = other := by
  obtain ⟨content, shortest, element⟩ := h
  obtain ⟨content', shortest', element'⟩ := h'
  obtain rfl := shortest.unique (fun _ _ h h' => h.unique h') shortest'
  exact element.unique element'

theorem StrictPair.unique {r s : ℕ} {bs other : Bytes} (h : StrictPair r s bs)
    (h' : StrictPair r s other) : bs = other := by
  obtain ⟨first, second, hr, hs, element⟩ := h
  obtain ⟨first', second', hr', hs', element'⟩ := h'
  obtain rfl := hr.unique hr'
  obtain rfl := hs.unique hs'
  exact element.unique element'

end KeePassKeyWin.DerGrammar
