import KeePassKeyWin.CborCodec
import Mathlib.Data.List.Sort

set_option autoImplicit false

/-!
# Writing CBOR

Each method of `CborWriter` gives the bytes it appends to the buffer.
-/
namespace KeePassKeyWin.CborWriting
open ByteStrings CborCodec

def byteOf (value : ℕ) : UInt8 := UInt8.ofNat value

def writeTypeAndValue (majorType value : ℕ) : Bytes :=
  if value ≤ 23 then [byteOf (majorType <<< 5 ||| value)]
  else if value ≤ 0xFF then [byteOf (majorType <<< 5 ||| 24), byteOf value]
  else if value ≤ 0xFFFF then [byteOf (majorType <<< 5 ||| 25), byteOf (value >>> 8), byteOf value]
  else if value ≤ 0xFFFFFFFF then
    [byteOf (majorType <<< 5 ||| 26), byteOf (value >>> 24), byteOf (value >>> 16),
      byteOf (value >>> 8), byteOf value]
  else
    byteOf (majorType <<< 5 ||| 27) ::
      [56, 48, 40, 32, 24, 16, 8, 0].map fun shift => byteOf (value >>> shift)

def writeUnsignedInt (value : ℕ) : Bytes := writeTypeAndValue 0 value

/-- The source throws on a value that is not negative; no caller passes one. -/
def writeNegativeInt (value : ℤ) : Bytes := writeTypeAndValue 1 (-1 - value).toNat

def writeByteString (bytes : Bytes) : Bytes := writeTypeAndValue 2 bytes.length ++ bytes

def writeTextString (text : String) : Bytes :=
  writeTypeAndValue 3 (utf8 text).length ++ utf8 text

def writeArrayHeader (count : ℕ) : Bytes := writeTypeAndValue 4 count

def bytewiseLexCompare : Bytes → Bytes → Ordering
  | a :: as, b :: bs => if a ≠ b then (if a < b then .lt else .gt) else bytewiseLexCompare as bs
  | [], [] => .eq
  | [], _ :: _ => .lt
  | _ :: _, [] => .gt

def keyLe (p q : Bytes × Bytes) : Prop := (bytewiseLexCompare p.1 q.1).isLE = true

instance : DecidableRel keyLe := fun p q =>
  inferInstanceAs (Decidable ((bytewiseLexCompare p.1 q.1).isLE = true))

def writeMap (entries : List (Bytes × Bytes)) : Bytes :=
  writeTypeAndValue 5 entries.length ++
    (entries.insertionSort keyLe).flatMap fun (key, value) => key ++ value

theorem byteOf_shiftLeft_or {mt info : ℕ} (h : info < 32) :
    byteOf (mt <<< 5 ||| info) = UInt8.ofNat (mt * 32 + info) := by
  rw [byteOf, Nat.shiftLeft_eq, Nat.mul_comm, ← Nat.two_pow_add_eq_or_of_lt (by omega)]

theorem writeTypeAndValue_eq_head (mt value : ℕ) : writeTypeAndValue mt value = head mt value := by
  simp only [writeTypeAndValue, head, byteOf_shiftLeft_or (show 24 < 32 by omega),
    byteOf_shiftLeft_or (show 25 < 32 by omega), byteOf_shiftLeft_or (show 26 < 32 by omega),
    byteOf_shiftLeft_or (show 27 < 32 by omega)]
  split_ifs with h₀ h₁ h₂ h₃
  · rw [byteOf_shiftLeft_or (by omega)]
  · simp [bigEndian, byteOf]
  · simp [bigEndian, byteOf, Nat.shiftRight_eq_div_pow]
  · simp [bigEndian, byteOf, Nat.shiftRight_eq_div_pow]
  · simp [bigEndian, byteOf, Nat.shiftRight_eq_div_pow]

theorem writeUnsignedInt_eq (n : ℕ) : writeUnsignedInt n = encode (.uint n) := by
  simp [writeUnsignedInt, writeTypeAndValue_eq_head, encode]

theorem writeNegativeInt_eq (n : ℕ) :
    writeNegativeInt (Int.negSucc n) = encode (.nint n) := by
  have h : (-1 - Int.negSucc n).toNat = n := by omega
  simp [writeNegativeInt, h, writeTypeAndValue_eq_head, encode]

@[simp] theorem writeByteString_eq (b : Bytes) : writeByteString b = encode (.bytes b) := by
  simp [writeByteString, writeTypeAndValue_eq_head, encode]

@[simp] theorem writeTextString_eq (s : String) : writeTextString s = encode (.text s) := by
  simp [writeTextString, writeTypeAndValue_eq_head, encode]

theorem writeUnsignedInt_int (n : ℕ) : writeUnsignedInt n = encode (.int n) :=
  writeUnsignedInt_eq n

theorem writeNegativeInt_int {v : ℤ} (h : v < 0) : writeNegativeInt v = encode (.int v) := by
  cases v with
  | ofNat n => exact absurd h (Int.not_lt.mpr (Int.natCast_nonneg n))
  | negSucc n => exact writeNegativeInt_eq n

def bytesLe (a b : Bytes) : Prop := (bytewiseLexCompare a b).isLE = true

instance : DecidableRel bytesLe := fun a b =>
  inferInstanceAs (Decidable ((bytewiseLexCompare a b).isLE = true))

/-- Entries given in canonical order are written in that order. -/
theorem writeMap_eq (pairs : List (Value × Value))
    (h : ((pairs.map Prod.fst).map encode).Pairwise bytesLe) :
    writeMap (pairs.map fun p => (encode p.1, encode p.2)) = encode (.map pairs) := by
  have order : (pairs.map fun p => (encode p.1, encode p.2)).Pairwise keyLe := by
    rw [List.map_map, List.pairwise_map] at h
    rw [List.pairwise_map]
    exact h
  have hpairs : (pairs.map fun p => (encode p.1, encode p.2)).flatMap
      (fun (key, value) => key ++ value) = encodePairs pairs := by
    clear h order
    induction pairs with
    | nil => rfl
    | cons p ps ih =>
      simp only [List.map_cons, List.flatMap_cons, encodePairs, List.append_assoc]
      rw [ih]
  rw [writeMap, order.insertionSort_eq, hpairs, List.length_map, writeTypeAndValue_eq_head, encode]

end KeePassKeyWin.CborWriting
