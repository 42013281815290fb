import KeePassKeyWin.ByteStrings

set_option autoImplicit false

/-!
# Base64 without padding, over the alphabet for URLs

Bytes are cut into groups of six bits. The decoder takes a text only as the encoder writes it: no
padding, and no bit set behind the last byte.
-/
namespace KeePassKeyWin.UrlSafeBase64
open ByteStrings

def sextets : Bytes → List ℕ
  | [] => []
  | [a] => [a.toNat / 4, a.toNat % 4 * 16]
  | [a, b] => [a.toNat / 4, a.toNat % 4 * 16 + b.toNat / 16, b.toNat % 16 * 4]
  | a :: b :: c :: rest =>
    a.toNat / 4 :: (a.toNat % 4 * 16 + b.toNat / 16) :: (b.toNat % 16 * 4 + c.toNat / 64) ::
      c.toNat % 64 :: sextets rest

def ofSextets : List ℕ → Option Bytes
  | [] => some []
  | [_] => none
  | [x, y] => if y % 16 = 0 then some [UInt8.ofNat (x * 4 + y / 16)] else none
  | [x, y, z] =>
    if z % 4 = 0 then some [UInt8.ofNat (x * 4 + y / 16), UInt8.ofNat (y % 16 * 16 + z / 4)]
    else none
  | x :: y :: z :: t :: rest => do
    let bytes ← ofSextets rest
    return UInt8.ofNat (x * 4 + y / 16) :: UInt8.ofNat (y % 16 * 16 + z / 4) ::
      UInt8.ofNat (z % 4 * 64 + t) :: bytes

theorem sextets_lt (bs : Bytes) : ∀ n ∈ sextets bs, n < 64 := by
  fun_induction sextets bs with
  | case1 => simp
  | case2 a =>
    have := a.toNat_lt
    simp only [List.mem_cons, List.not_mem_nil, or_false]
    omega
  | case3 a b =>
    have := a.toNat_lt
    have := b.toNat_lt
    simp only [List.mem_cons, List.not_mem_nil, or_false]
    omega
  | case4 a b c rest ih =>
    have := a.toNat_lt
    have := b.toNat_lt
    have := c.toNat_lt
    simp only [List.mem_cons]
    rintro n (rfl | rfl | rfl | rfl | later)
    · omega
    · omega
    · omega
    · omega
    · exact ih n later

theorem byte_of {a : UInt8} {n : ℕ} (same : n = a.toNat) : UInt8.ofNat n = a := by
  rw [same, UInt8.ofNat_toNat]

theorem value_of {n : ℕ} (small : n < 256) : (UInt8.ofNat n).toNat = n := by
  rw [UInt8.toNat_ofNat', Nat.mod_eq_of_lt small]

theorem ofSextets_sextets (bs : Bytes) : ofSextets (sextets bs) = some bs := by
  fun_induction sextets bs with
  | case1 => rfl
  | case2 a =>
    have first : a.toNat / 4 * 4 + a.toNat % 4 * 16 / 16 = a.toNat := by omega
    have clear : a.toNat % 4 * 16 % 16 = 0 := by omega
    rw [ofSextets, if_pos clear, byte_of first]
  | case3 a b =>
    have := b.toNat_lt
    have first : a.toNat / 4 * 4 + (a.toNat % 4 * 16 + b.toNat / 16) / 16 = a.toNat := by omega
    have second : (a.toNat % 4 * 16 + b.toNat / 16) % 16 * 16 + b.toNat % 16 * 4 / 4 = b.toNat := by
      omega
    have clear : b.toNat % 16 * 4 % 4 = 0 := by omega
    rw [ofSextets, if_pos clear, byte_of first, byte_of second]
  | case4 a b c rest ih =>
    have := b.toNat_lt
    have := c.toNat_lt
    have first : a.toNat / 4 * 4 + (a.toNat % 4 * 16 + b.toNat / 16) / 16 = a.toNat := by omega
    have second : (a.toNat % 4 * 16 + b.toNat / 16) % 16 * 16 +
        (b.toNat % 16 * 4 + c.toNat / 64) / 4 = b.toNat := by omega
    have third : (b.toNat % 16 * 4 + c.toNat / 64) % 4 * 64 + c.toNat % 64 = c.toNat := by omega
    rw [ofSextets, ih, byte_of first, byte_of second, byte_of third]
    rfl

theorem sextets_of_ofSextets {ns : List ℕ} {bs : Bytes} (small : ∀ n ∈ ns, n < 64)
    (h : ofSextets ns = some bs) : sextets bs = ns := by
  fun_induction ofSextets ns generalizing bs with
  | case1 =>
    obtain rfl := Option.some.inj h
    rfl
  | case2 => cases h
  | case3 x y clear =>
    obtain rfl := Option.some.inj h
    have := small x (by simp)
    have := small y (by simp)
    have first := value_of (show x * 4 + y / 16 < 256 by omega)
    rw [sextets, first]
    congr 2 <;> omega
  | case4 => cases h
  | case5 x y z clear =>
    obtain rfl := Option.some.inj h
    have := small x (by simp)
    have := small y (by simp)
    have := small z (by simp)
    have first := value_of (show x * 4 + y / 16 < 256 by omega)
    have second := value_of (show y % 16 * 16 + z / 4 < 256 by omega)
    rw [sextets, first, second]
    congr 3 <;> omega
  | case6 => cases h
  | case7 x y z t rest ih =>
    obtain ⟨bytes, read, h⟩ := Option.bind_eq_some_iff.mp h
    obtain rfl := Option.some.inj h
    have := small x (by simp)
    have := small y (by simp)
    have := small z (by simp)
    have := small t (by simp)
    have first := value_of (show x * 4 + y / 16 < 256 by omega)
    have second := value_of (show y % 16 * 16 + z / 4 < 256 by omega)
    have third := value_of (show z % 4 * 64 + t < 256 by omega)
    rw [sextets, first, second, third, ih (fun n later => small n (by simp [later])) read]
    congr 4 <;> omega

def digit (n : ℕ) : Char :=
  if n < 26 then Char.ofNat (n + 65)
  else if n < 52 then Char.ofNat (n + 71)
  else if n < 62 then Char.ofNat (n - 4)
  else if n = 62 then '-'
  else '_'

def digitValue (c : Char) : Option ℕ :=
  if 65 ≤ c.toNat ∧ c.toNat ≤ 90 then some (c.toNat - 65)
  else if 97 ≤ c.toNat ∧ c.toNat ≤ 122 then some (c.toNat - 71)
  else if 48 ≤ c.toNat ∧ c.toNat ≤ 57 then some (c.toNat + 4)
  else if c = '-' then some 62
  else if c = '_' then some 63
  else none

def encode (bs : Bytes) : List Char := (sextets bs).map digit

def decode (cs : List Char) : Option Bytes := (cs.mapM digitValue).bind ofSextets

theorem digitValue_digit : ∀ n < 64, digitValue (digit n) = some n := by decide +kernel

theorem digit_of_digitValue {c : Char} {n : ℕ} (h : digitValue c = some n) :
    n < 64 ∧ digit n = c := by
  unfold digitValue at h
  split_ifs at h with upper lower number dash underscore
  · obtain rfl := Option.some.inj h
    refine ⟨by omega, ?_⟩
    rw [digit, if_pos (by omega), Nat.sub_add_cancel (by omega), Char.ofNat_toNat]
  · obtain rfl := Option.some.inj h
    refine ⟨by omega, ?_⟩
    rw [digit, if_neg (by omega), if_pos (by omega), Nat.sub_add_cancel (by omega),
      Char.ofNat_toNat]
  · obtain rfl := Option.some.inj h
    refine ⟨by omega, ?_⟩
    rw [digit, if_neg (by omega), if_neg (by omega), if_pos (by omega), Nat.add_sub_cancel,
      Char.ofNat_toNat]
  · obtain rfl := Option.some.inj h
    exact ⟨by decide, dash.symm⟩
  · obtain rfl := Option.some.inj h
    exact ⟨by decide, underscore.symm⟩

theorem digitValues_iff {cs : List Char} {ns : List ℕ} :
    cs.mapM digitValue = some ns ↔ (∀ n ∈ ns, n < 64) ∧ cs = ns.map digit := by
  induction cs generalizing ns with
  | nil =>
    constructor
    · intro h
      obtain rfl := Option.some.inj h
      exact ⟨by simp, rfl⟩
    · rintro ⟨_, empty⟩
      obtain rfl := List.map_eq_nil_iff.mp empty.symm
      rfl
  | cons c cs ih =>
    simp only [List.mapM_cons, Option.bind_eq_bind, Option.bind_eq_some_iff, pure,
      Option.some.injEq]
    constructor
    · rintro ⟨n, value, ns', values, rfl⟩
      obtain ⟨small, rfl⟩ := digit_of_digitValue value
      obtain ⟨smalls, rfl⟩ := ih.mp values
      refine ⟨?_, rfl⟩
      rintro m (_ | ⟨_, later⟩)
      · exact small
      · exact smalls m later
    · rintro ⟨smalls, split⟩
      cases ns with
      | nil => cases split
      | cons n ns =>
        obtain ⟨rfl, rfl⟩ := List.cons.inj split
        exact ⟨n, digitValue_digit n (smalls n (by simp)), ns,
          ih.mpr ⟨fun m later => smalls m (by simp [later]), rfl⟩, rfl⟩

/-- The decoder takes the texts that the encoder writes, and no others. -/
theorem decode_some {cs : List Char} {bs : Bytes} : decode cs = some bs ↔ cs = encode bs := by
  constructor
  · intro h
    obtain ⟨ns, values, read⟩ := Option.bind_eq_some_iff.mp h
    obtain ⟨small, rfl⟩ := digitValues_iff.mp values
    rw [encode, sextets_of_ofSextets small read]
  · rintro rfl
    have values : (encode bs).mapM digitValue = some (sextets bs) :=
      digitValues_iff.mpr ⟨sextets_lt bs, rfl⟩
    rw [decode, values, Option.bind_some, ofSextets_sextets]

theorem decode_encode (bs : Bytes) : decode (encode bs) = some bs := decode_some.mpr rfl

def Plain (c : Char) : Prop :=
  ('A' ≤ c ∧ c ≤ 'Z') ∨ ('a' ≤ c ∧ c ≤ 'z') ∨ ('0' ≤ c ∧ c ≤ '9') ∨ c = '-' ∨ c = '_'

theorem encode_plain (bs : Bytes) : ∀ c ∈ encode bs, Plain c := by
  have digits : ∀ n < 64, Plain (digit n) := by
    unfold Plain
    decide +kernel
  intro c written
  obtain ⟨n, group, rfl⟩ := List.mem_map.mp written
  exact digits n (sextets_lt bs n group)

end KeePassKeyWin.UrlSafeBase64
