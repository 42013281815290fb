import KeePassKeyWin.ByteStrings

set_option autoImplicit false

/-!
# Base64

The encoding with padding over the standard alphabet, on lists of characters.
The decoder ignores the unused low bits of a final short group, as lenient
decoders do, so several texts decode to one byte string; the encoder picks one.
-/
namespace KeePassKeyWin.Base64Codec
open ByteStrings

def digit (n : ℕ) : Char :=
  if n < 26 then Char.ofNat (n + 65)
  else if n < 52 then Char.ofNat (n + 71)
  else if n < 62 then Char.ofNat (n - 4)
  else if n = 62 then '+'
  else '/'

def alphabet : List Char := (List.range 64).map digit

example : alphabet =
    "ABCDEFGHIJKLMNOPQRSTUVWXYZabcdefghijklmnopqrstuvwxyz0123456789+/".toList := by decide +kernel

def digitValue (c : Char) : Option ℕ :=
  if 65 ≤ c.toNat ∧ c.toNat ≤ 90 then some (c.toNat - 65)
  else if 97 ≤ c.toNat ∧ c.toNat ≤ 122 then some (c.toNat - 71)
  else if 48 ≤ c.toNat ∧ c.toNat ≤ 57 then some (c.toNat + 4)
  else if c = '+' then some 62
  else if c = '/' then some 63
  else none

def encode : Bytes → List Char
  | [] => []
  | [a] => [digit (a.toNat / 4), digit (a.toNat % 4 * 16), '=', '=']
  | [a, b] =>
    [digit (a.toNat / 4), digit (a.toNat % 4 * 16 + b.toNat / 16), digit (b.toNat % 16 * 4), '=']
  | a :: b :: c :: rest =>
    digit (a.toNat / 4) :: digit (a.toNat % 4 * 16 + b.toNat / 16) ::
      digit (b.toNat % 16 * 4 + c.toNat / 64) :: digit (c.toNat % 64) :: encode rest

/-- One group of four characters; `rest` decides whether padding may stand here. -/
def decodeGroup (c₀ c₁ c₂ c₃ : Char) (last : Bool) : Option Bytes := do
  let x ← digitValue c₀
  let y ← digitValue c₁
  if last && c₃ == '=' then
    if c₂ == '=' then
      return [UInt8.ofNat (x * 4 + y / 16)]
    let z ← digitValue c₂
    return [UInt8.ofNat (x * 4 + y / 16), UInt8.ofNat (y % 16 * 16 + z / 4)]
  let z ← digitValue c₂
  let t ← digitValue c₃
  return [UInt8.ofNat (x * 4 + y / 16), UInt8.ofNat (y % 16 * 16 + z / 4),
    UInt8.ofNat (z % 4 * 64 + t)]

def decode : List Char → Option Bytes
  | [] => some []
  | c₀ :: c₁ :: c₂ :: c₃ :: rest => do
    let group ← decodeGroup c₀ c₁ c₂ c₃ rest.isEmpty
    let bytes ← decode rest
    return group ++ bytes
  | _ => none

theorem digitValue_digit : ∀ n < 64, digitValue (digit n) = some n := by decide +kernel

theorem digit_ne_pad : ∀ n < 64, digit n ≠ '=' := by decide +kernel

theorem digit_mem : ∀ n < 64, digit n ∈ alphabet := by decide +kernel

theorem byte_eq {a : UInt8} {n : ℕ} (h : n = a.toNat) : UInt8.ofNat n = a := by
  subst h
  exact UInt8.ofNat_toNat

theorem decodeGroup_full (a b c : UInt8) (last : Bool) :
    decodeGroup (digit (a.toNat / 4)) (digit (a.toNat % 4 * 16 + b.toNat / 16))
      (digit (b.toNat % 16 * 4 + c.toNat / 64)) (digit (c.toNat % 64)) last = some [a, b, c] := by
  have ha := a.toNat_lt
  have hb := b.toNat_lt
  have hc := c.toNat_lt
  have hpad : (digit (c.toNat % 64) == '=') = false := by
    simpa using digit_ne_pad _ (Nat.mod_lt _ (by omega))
  simp only [decodeGroup, hpad, Bool.and_false, Bool.false_eq_true, if_false,
    digitValue_digit (a.toNat / 4) (by omega),
    digitValue_digit (a.toNat % 4 * 16 + b.toNat / 16) (by omega),
    digitValue_digit (b.toNat % 16 * 4 + c.toNat / 64) (by omega),
    digitValue_digit (c.toNat % 64) (by omega)]
  have h₀ := @byte_eq a (a.toNat / 4 * 4 + (a.toNat % 4 * 16 + b.toNat / 16) / 16) (by omega)
  have h₁ := @byte_eq b ((a.toNat % 4 * 16 + b.toNat / 16) % 16 * 16 +
    (b.toNat % 16 * 4 + c.toNat / 64) / 4) (by omega)
  have h₂ := @byte_eq c ((b.toNat % 16 * 4 + c.toNat / 64) % 4 * 64 + c.toNat % 64) (by omega)
  change some [_, _, _] = _
  rw [h₀, h₁, h₂]

theorem decodeGroup_two (a b : UInt8) :
    decodeGroup (digit (a.toNat / 4)) (digit (a.toNat % 4 * 16 + b.toNat / 16))
      (digit (b.toNat % 16 * 4)) '=' true = some [a, b] := by
  have ha := a.toNat_lt
  have hb := b.toNat_lt
  have hpad : (digit (b.toNat % 16 * 4) == '=') = false := by
    simpa using digit_ne_pad (b.toNat % 16 * 4) (by omega)
  simp only [decodeGroup, hpad, BEq.rfl, Bool.and_self, Bool.false_eq_true, if_true, if_false,
    digitValue_digit (a.toNat / 4) (by omega),
    digitValue_digit (a.toNat % 4 * 16 + b.toNat / 16) (by omega),
    digitValue_digit (b.toNat % 16 * 4) (by omega)]
  have h₀ := @byte_eq a (a.toNat / 4 * 4 + (a.toNat % 4 * 16 + b.toNat / 16) / 16) (by omega)
  have h₁ := @byte_eq b ((a.toNat % 4 * 16 + b.toNat / 16) % 16 * 16 + b.toNat % 16 * 4 / 4)
    (by omega)
  change some [_, _] = _
  rw [h₀, h₁]

theorem decodeGroup_one (a : UInt8) :
    decodeGroup (digit (a.toNat / 4)) (digit (a.toNat % 4 * 16)) '=' '=' true = some [a] := by
  have ha := a.toNat_lt
  simp only [decodeGroup, BEq.rfl, Bool.and_self, if_true,
    digitValue_digit (a.toNat / 4) (by omega), digitValue_digit (a.toNat % 4 * 16) (by omega)]
  have h₀ := @byte_eq a (a.toNat / 4 * 4 + a.toNat % 4 * 16 / 16) (by omega)
  change some [_] = _
  rw [h₀]

theorem decode_encode (bs : Bytes) : decode (encode bs) = some bs := by
  fun_induction encode bs with
  | case1 => rfl
  | case2 a => simp [decode, decodeGroup_one]
  | case3 a b => simp [decode, decodeGroup_two]
  | case4 a b c rest ih => simp [decode, decodeGroup_full, ih]

theorem encode_injective {as bs : Bytes} (h : encode as = encode bs) : as = bs := by
  have hb := decode_encode bs
  rw [← h, decode_encode] at hb
  exact Option.some.inj hb

theorem decodeGroup_length {c₀ c₁ c₂ c₃ : Char} {last : Bool} {bs : Bytes}
    (h : decodeGroup c₀ c₁ c₂ c₃ last = some bs) : bs.length ≤ 3 := by
  simp only [decodeGroup, Option.bind_eq_bind, Option.bind_eq_some_iff] at h
  obtain ⟨x, _, y, _, h⟩ := h
  split_ifs at h
  · obtain rfl := Option.some.inj h
    simp
  · obtain ⟨z, _, h⟩ := Option.bind_eq_some_iff.mp h
    obtain rfl := Option.some.inj h
    simp
  · obtain ⟨z, _, h⟩ := Option.bind_eq_some_iff.mp h
    obtain ⟨t, _, h⟩ := Option.bind_eq_some_iff.mp h
    obtain rfl := Option.some.inj h
    simp

theorem decode_length_le {cs : List Char} {bs : Bytes} (h : decode cs = some bs) :
    bs.length ≤ cs.length := by
  fun_induction decode cs generalizing bs with
  | case1 => simp_all
  | case2 c₀ c₁ c₂ c₃ rest ih =>
    simp only [Option.bind_eq_bind, Option.bind_eq_some_iff] at h
    obtain ⟨group, hgroup, bytes, hbytes, h⟩ := h
    obtain rfl := Option.some.inj h
    have hg := decodeGroup_length hgroup
    have hb := ih hbytes
    simp only [List.length_append, List.length_cons]
    omega
  | case3 cs _ _ => simp at h

theorem encode_shape (bs : Bytes) : ∃ text pad : List Char,
    encode bs = text ++ pad ∧ (∀ c ∈ text, c ∈ alphabet) ∧ (∀ c ∈ pad, c = '=') ∧
      (text.length + pad.length) % 4 = 0 ∧ pad.length ≤ 2 := by
  fun_induction encode bs with
  | case1 => exact ⟨[], [], rfl, by simp, by simp, rfl, by simp⟩
  | case2 a =>
    have ha := a.toNat_lt
    refine ⟨[digit (a.toNat / 4), digit (a.toNat % 4 * 16)], ['=', '='], rfl, ?_, by simp, by simp,
      by simp⟩
    simp [digit_mem (a.toNat / 4) (by omega), digit_mem (a.toNat % 4 * 16) (by omega)]
  | case3 a b =>
    have ha := a.toNat_lt
    have hb := b.toNat_lt
    refine ⟨[digit (a.toNat / 4), digit (a.toNat % 4 * 16 + b.toNat / 16),
      digit (b.toNat % 16 * 4)], ['='], rfl, ?_, by simp, by simp, by simp⟩
    simp [digit_mem (a.toNat / 4) (by omega), digit_mem (b.toNat % 16 * 4) (by omega),
      digit_mem (a.toNat % 4 * 16 + b.toNat / 16) (by omega)]
  | case4 a b c rest ih =>
    have ha := a.toNat_lt
    have hb := b.toNat_lt
    have hc := c.toNat_lt
    obtain ⟨text, pad, split, digits, pads, width, short⟩ := ih
    refine ⟨digit (a.toNat / 4) :: digit (a.toNat % 4 * 16 + b.toNat / 16) ::
      digit (b.toNat % 16 * 4 + c.toNat / 64) :: digit (c.toNat % 64) :: text, pad,
      by simp [split], ?_, pads, by simp only [List.length_cons]; omega, short⟩
    simp [digit_mem (a.toNat / 4) (by omega), digit_mem (c.toNat % 64) (by omega),
      digit_mem (a.toNat % 4 * 16 + b.toNat / 16) (by omega),
      digit_mem (b.toNat % 16 * 4 + c.toNat / 64) (by omega)]
    exact digits

end KeePassKeyWin.Base64Codec
