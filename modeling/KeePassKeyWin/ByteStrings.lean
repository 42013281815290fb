import Mathlib.Data.List.Basic
import Mathlib.Data.Nat.Digits.Defs
import Mathlib.Tactic.Ring

set_option autoImplicit false

/-!
# Byte strings

Big-endian numbers and UTF-8 text over lists of bytes.
-/
namespace KeePassKeyWin.ByteStrings

abbrev Bytes := List UInt8

/-- The `w` low bytes of `v`, most significant first. -/
def bigEndian : ℕ → ℕ → Bytes
  | 0, _ => []
  | w + 1, v => UInt8.ofNat (v / 256 ^ w) :: bigEndian w v

def ofBigEndian (bs : Bytes) : ℕ := bs.foldl (fun v b => v * 256 + b.toNat) 0

@[simp] theorem bigEndian_length (w v : ℕ) : (bigEndian w v).length = w := by
  induction w with
  | zero => rfl
  | succ w ih => simp [bigEndian, ih]

theorem foldl_bigEndian (bs : Bytes) (v : ℕ) :
    bs.foldl (fun v b => v * 256 + b.toNat) v = v * 256 ^ bs.length + ofBigEndian bs := by
  induction bs generalizing v with
  | nil => simp [ofBigEndian]
  | cons b bs ih =>
    have hb := ih b.toNat
    simp only [ofBigEndian, List.foldl_cons, List.length_cons, Nat.zero_mul, Nat.zero_add]
    rw [ih (v * 256 + b.toNat), hb, Nat.pow_succ]
    ring

theorem ofBigEndian_cons (b : UInt8) (bs : Bytes) :
    ofBigEndian (b :: bs) = b.toNat * 256 ^ bs.length + ofBigEndian bs := by
  simpa [ofBigEndian] using foldl_bigEndian bs b.toNat

theorem ofBigEndian_lt (bs : Bytes) : ofBigEndian bs < 256 ^ bs.length := by
  induction bs with
  | nil => simp [ofBigEndian]
  | cons b bs ih =>
    have hb : b.toNat < 256 := b.toNat_lt
    have hle : b.toNat * 256 ^ bs.length ≤ 255 * 256 ^ bs.length :=
      Nat.mul_le_mul_right _ (by omega)
    rw [ofBigEndian_cons, List.length_cons, Nat.pow_succ]
    omega

theorem ofBigEndian_bigEndian (w v : ℕ) : ofBigEndian (bigEndian w v) = v % 256 ^ w := by
  induction w with
  | zero => simp [bigEndian, ofBigEndian, Nat.mod_one]
  | succ w ih =>
    have hbyte : (UInt8.ofNat (v / 256 ^ w)).toNat = v / 256 ^ w % 256 := by simp
    rw [bigEndian, ofBigEndian_cons, bigEndian_length, ih, hbyte, Nat.pow_succ,
      Nat.mod_mul, Nat.mul_comm, Nat.add_comm]

theorem ofBigEndian_bigEndian_of_lt {w v : ℕ} (h : v < 256 ^ w) :
    ofBigEndian (bigEndian w v) = v := by
  rw [ofBigEndian_bigEndian, Nat.mod_eq_of_lt h]

@[elab_as_elim]
theorem byte_induction {p : UInt8 → Prop} (each : ∀ n < 256, p (UInt8.ofNat n)) (b : UInt8) :
    p b := by
  have own := each b.toNat b.toNat_lt
  rwa [UInt8.ofNat_toNat] at own

def utf8 (s : String) : Bytes := s.toUTF8.data.toList

/-- The text whose UTF-8 form is exactly `bs`. -/
def ofUtf8 (bs : Bytes) : Option String := String.fromUTF8? ⟨bs.toArray⟩

@[simp] theorem ofUtf8_utf8 (s : String) : ofUtf8 (utf8 s) = some s := by
  have valid : (⟨s.toByteArray.data⟩ : ByteArray).IsValidUTF8 := s.isValidUTF8
  simp only [ofUtf8, utf8, String.fromUTF8?]
  exact dif_pos valid

theorem utf8_ofList (cs : List Char) :
    utf8 (String.ofList cs) = cs.flatMap String.utf8EncodeChar := by
  simp [utf8, List.utf8Encode]

/-- How many continuation bytes a lead byte asks for, and the range of the first. -/
def leadByte (b : ℕ) : Option (ℕ × ℕ × ℕ) :=
  if 0xC2 ≤ b ∧ b ≤ 0xDF then some (1, 0x80, 0xBF)
  else if b = 0xE0 then some (2, 0xA0, 0xBF)
  else if b = 0xED then some (2, 0x80, 0x9F)
  else if 0xE1 ≤ b ∧ b ≤ 0xEF then some (2, 0x80, 0xBF)
  else if b = 0xF0 then some (3, 0x90, 0xBF)
  else if 0xF1 ≤ b ∧ b ≤ 0xF3 then some (3, 0x80, 0xBF)
  else if b = 0xF4 then some (3, 0x80, 0x8F)
  else none

structure Pending where
  bits : ℕ
  owed : ℕ
  low : ℕ
  high : ℕ

def startChar (b : ℕ) : List Char × Option Pending :=
  if b < 0x80 then ([Char.ofNat b], none)
  else
    match leadByte b with
    | some (owed, low, high) => ([], some ⟨b % 2 ^ (6 - owed), owed, low, high⟩)
    | none => (['\uFFFD'], none)

/-- Each maximal ill-formed part becomes one replacement character. -/
def replaceInvalid : Option Pending → Bytes → List Char
  | none, [] => []
  | some _, [] => ['\uFFFD']
  | none, b :: bs => (startChar b.toNat).1 ++ replaceInvalid (startChar b.toNat).2 bs
  | some p, b :: bs =>
    if p.low ≤ b.toNat ∧ b.toNat ≤ p.high then
      let bits := p.bits * 64 + b.toNat % 64
      if p.owed = 1 then Char.ofNat bits :: replaceInvalid none bs
      else replaceInvalid (some ⟨bits, p.owed - 1, 0x80, 0xBF⟩) bs
    else '\uFFFD' :: ((startChar b.toNat).1 ++ replaceInvalid (startChar b.toNat).2 bs)

/-- Decoding that never fails: well-formed text exactly, anything else with replacements. -/
def getString (bs : Bytes) : String :=
  match ofUtf8 bs with
  | some s => s
  | none => String.ofList (replaceInvalid none bs)

@[simp] theorem getString_utf8 (s : String) : getString (utf8 s) = s := by
  simp [getString]

example : replaceInvalid none [0x61, 0xE2, 0x82, 0x62, 0xFF] = ['a', '\uFFFD', 'b', '\uFFFD'] := by
  decide

end KeePassKeyWin.ByteStrings
