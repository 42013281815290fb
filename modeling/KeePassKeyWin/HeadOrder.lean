import KeePassKeyWin.CborCodec

set_option autoImplicit false

/-!
# The order of encoded heads

The shortest head of a data item, by its first byte and the width of what follows, and
how two heads of one major type compare byte by byte.
-/
namespace KeePassKeyWin.HeadOrder
open ByteStrings CborCodec

def headInfo (n : ℕ) : ℕ :=
  if n ≤ 23 then n else if n ≤ 0xFF then 24 else if n ≤ 0xFFFF then 25
  else if n ≤ 0xFFFFFFFF then 26 else 27

def headWidth (n : ℕ) : ℕ :=
  if n ≤ 23 then 0 else if n ≤ 0xFF then 1 else if n ≤ 0xFFFF then 2
  else if n ≤ 0xFFFFFFFF then 4 else 8

theorem head_eq (mt n : ℕ) :
    head mt n = UInt8.ofNat (mt * 32 + headInfo n) :: bigEndian (headWidth n) n := by
  unfold head headInfo headWidth
  split_ifs <;> rfl

@[simp] theorem head_length (mt n : ℕ) : (head mt n).length = 1 + headWidth n := by
  rw [head_eq, List.length_cons, bigEndian_length]
  omega

theorem headInfo_lt (n : ℕ) : headInfo n < 28 := by
  unfold headInfo
  split_ifs <;> omega

theorem headWidth_mono {n m : ℕ} (h : n ≤ m) : headWidth n ≤ headWidth m := by
  unfold headWidth
  split_ifs <;> omega

theorem headInfo_cases {n m : ℕ} (h : n < m) (hm : m < 2 ^ 64) :
    headInfo n < headInfo m ∨
      headInfo n = headInfo m ∧ headWidth n = headWidth m ∧ m < 256 ^ headWidth m := by
  unfold headInfo headWidth
  split_ifs <;> omega

theorem ofNat_lt {a b : ℕ} (h : a < b) (hb : b < 256) : UInt8.ofNat a < UInt8.ofNat b :=
  (UInt8.ofNat_lt_iff_lt (by change a < 256; omega) hb).mpr h

theorem bigEndian_lt {w n m : ℕ} (h : n % 256 ^ w < m % 256 ^ w) (as bs : Bytes) :
    bigEndian w n ++ as < bigEndian w m ++ bs := by
  induction w with
  | zero => simp [Nat.mod_one] at h
  | succ w ih =>
    have pos : 0 < 256 ^ w := Nat.pow_pos (by omega)
    rw [Nat.pow_succ, Nat.mod_mul, Nat.mod_mul] at h
    have hn := Nat.mod_lt n pos
    have hm := Nat.mod_lt m pos
    simp only [bigEndian, List.cons_append, List.cons_lt_cons_iff, UInt8.lt_iff_toNat_lt,
      ← UInt8.toNat_inj, UInt8.toNat_ofNat']
    obtain less | same | more := Nat.lt_trichotomy (n / 256 ^ w % 256) (m / 256 ^ w % 256)
    · exact .inl less
    · rw [same] at h
      exact .inr ⟨same, ih (by omega)⟩
    · have := Nat.mul_le_mul_left (256 ^ w) (Nat.succ_le_of_lt more)
      rw [Nat.mul_succ] at this
      omega

theorem head_lt {mt n m : ℕ} (hmt : mt < 8) (h : n < m) (hm : m < 2 ^ 64) (as bs : Bytes) :
    head mt n ++ as < head mt m ++ bs := by
  have hinfo := headInfo_lt m
  rw [head_eq, head_eq, List.cons_append, List.cons_append, List.cons_lt_cons_iff]
  obtain less | ⟨same, width, fits⟩ := headInfo_cases h hm
  · exact .inl (ofNat_lt (by omega) (by omega))
  · rw [same, width]
    refine .inr ⟨rfl, bigEndian_lt ?_ as bs⟩
    rwa [Nat.mod_eq_of_lt fits, Nat.mod_eq_of_lt (h.trans fits)]

theorem bytes_lt_trans {a b c : Bytes} (h : a < b) (h' : b < c) : a < c :=
  List.lex_trans (fun h h' => UInt8.lt_trans h h') h h'

theorem bytes_lt_irrefl (a : Bytes) : ¬ a < a :=
  List.lex_irrefl (fun _ => UInt8.lt_irrefl _) a

end KeePassKeyWin.HeadOrder
