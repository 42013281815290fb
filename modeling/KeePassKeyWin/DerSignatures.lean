import KeePassKeyWin.CborBuffer
import KeePassKeyWin.DerGrammar
import KeePassKeyWin.VaultGates

set_option autoImplicit false

/-!
# Signatures in DER

The signer writes the strict form. The verifier's parser, as it reads its span by index, takes
every pair of INTEGERs with short length fields whose numbers fit a coordinate.
-/
namespace KeePassKeyWin.DerSignatures
open ByteStrings JsonRpc OutcomeRules PlatformServices EcdsaSignatures DerGrammar
open CborBuffer (int32 int32_of_small)

theorem lengthField_grammar {n : ℕ} (small : n < 65536) : LengthField n (lengthField n) := by
  unfold lengthField
  split_ifs with short one
  · exact .short short
  · have value : ofBigEndian [UInt8.ofNat n] = n := by
      simp [ofBigEndian]
      omega
    have field : LengthField (ofBigEndian [UInt8.ofNat n]) [0x81, UInt8.ofNat n] :=
      .long (List.cons_ne_nil _ _) (show 1 < 0x7F by omega)
    rwa [value] at field
  · have value : ofBigEndian [UInt8.ofNat (n >>> 8), UInt8.ofNat n] = n := by
      simp [ofBigEndian, Nat.shiftRight_eq_div_pow]
      omega
    have field : LengthField (ofBigEndian [UInt8.ofNat (n >>> 8), UInt8.ofNat n])
        [0x82, UInt8.ofNat (n >>> 8), UInt8.ofNat n] :=
      .long (List.cons_ne_nil _ _) (show 2 < 0x7F by omega)
    rwa [value] at field

theorem lengthField_shortest {n : ℕ} (small : n < 65536) :
    Shortest (LengthField n) (lengthField n) := by
  refine ⟨lengthField_grammar small, fun other h => ?_⟩
  rw [lengthField_length, lengthFieldSize]
  cases h with
  | short short =>
    rw [if_pos short]
    rfl
  | @long digits some few =>
    have fits := ofBigEndian_lt digits
    have positive : 1 ≤ digits.length := List.length_pos_iff.mpr some
    rw [List.length_cons]
    split_ifs with short one
    · omega
    · omega
    · by_contra less
      have single : digits.length = 1 := by omega
      rw [single] at fits
      omega

theorem stripZeros_value (bs : Bytes) : ofBigEndian (stripZeros bs) = ofBigEndian bs := by
  conv_rhs => rw [← (stripZeros_pad bs).1]
  exact (ofBigEndian_zeros _ _).symm

theorem stripZeros_lead {bs rest : Bytes} {first : UInt8} (h : stripZeros bs = first :: rest) :
    first ≠ 0 ∨ rest = [] := by
  fun_induction stripZeros bs with
  | case1 => cases h
  | case2 b =>
    obtain ⟨_, rfl⟩ := List.cons.inj h
    exact .inr rfl
  | case3 c bs ih => exact ih h
  | case4 b c bs hb =>
    obtain ⟨rfl, _⟩ := List.cons.inj h
    exact .inl hb

theorem signBit_iff (b : UInt8) : b &&& 0x80 ≠ 0 ↔ 0x80 ≤ b.toNat := by
  refine byte_induction ?_ b
  decide +kernel

theorem represents_longer {n m : ℕ} {other : Bytes} (large : 0x80 * 256 ^ m ≤ n)
    (h : Represents n other) : m + 2 ≤ other.length := by
  obtain ⟨c, cs, rfl, clear, rfl⟩ := h
  have small := ofBigEndian_cons_lt (show c.toNat < 0x80 from clear) cs
  have longer : m < cs.length := by
    by_contra short
    have powers : 256 ^ cs.length ≤ 256 ^ m := Nat.pow_le_pow_right (by omega) (by omega)
    omega
  rw [List.length_cons]
  omega

theorem represents_nonempty {n : ℕ} {other : Bytes} (h : Represents n other) :
    1 ≤ other.length := by
  obtain ⟨c, cs, rfl, _⟩ := h
  exact Nat.succ_le_succ (Nat.zero_le _)

theorem length_of_le {n m : ℕ} {bs : Bytes} (large : 256 ^ m ≤ n) (value : ofBigEndian bs = n) :
    m < bs.length := by
  have small := ofBigEndian_lt bs
  rw [value] at small
  exact (Nat.pow_lt_pow_iff_right (by omega)).mp (large.trans_lt small)

theorem integerContent_shortest {value : Bytes} (nonempty : value ≠ []) :
    Shortest (Represents (ofBigEndian value)) (integerContent (stripZeros value)) := by
  obtain ⟨b, bs, rfl⟩ := List.exists_cons_of_ne_nil nonempty
  obtain ⟨first, rest, stripped⟩ := stripZeros_cons b bs
  have lead := stripZeros_lead stripped
  have same := stripZeros_value (b :: bs)
  rw [stripped] at same ⊢
  rw [← same, integerContent]
  split_ifs with sign
  · have high : 0x80 ≤ first.toNat := (signBit_iff first).mp sign
    refine ⟨⟨0, first :: rest, rfl, by decide, ofBigEndian_zeros 1 _⟩, fun other h => ?_⟩
    exact represents_longer (le_ofBigEndian_cons high rest) h
  · have low : first.toNat < 0x80 := by
      by_contra high
      exact sign ((signBit_iff first).mpr (Nat.le_of_not_lt high))
    refine ⟨⟨first, rest, rfl, low, rfl⟩, fun other h => ?_⟩
    rcases lead with positive | rfl
    · have one : 1 ≤ first.toNat := by
        by_contra zero
        exact positive (UInt8.toNat_inj.mp (show first.toNat = 0 by omega))
      have large := le_ofBigEndian_cons one rest
      rw [Nat.one_mul] at large
      obtain ⟨_, _, _, _, value⟩ := h
      exact length_of_le large value
    · exact represents_nonempty h

def sequenceContent (r s : Bytes) : Bytes := integerDer r ++ integerDer s

theorem integerDer_strict {value : Bytes} (nonempty : value ≠ [])
    (small : (integerDer value).length < 65536) :
    StrictInteger (ofBigEndian value) (integerDer value) := by
  have content : (integerContent (stripZeros value)).length < 65536 := by
    simp only [integerDer, List.length_cons, List.length_append] at small
    omega
  exact ⟨_, integerContent_shortest nonempty, _, lengthField_shortest content, rfl⟩

/-- Both halves of a signature become a strict SEQUENCE of two strict INTEGERs. -/
theorem p1363ToDer_strict {r s : Bytes} (width : r.length = s.length) (nonempty : r ≠ [])
    (small : (sequenceContent r s).length < 65536) :
    ∃ der, p1363ToDer (r ++ s) = .ok der ∧ StrictPair (ofBigEndian r) (ofBigEndian s) der := by
  have lengths : (sequenceContent r s).length = (integerDer r).length + (integerDer s).length :=
    List.length_append
  have sNonempty : s ≠ [] := by
    rintro rfl
    exact nonempty (List.length_eq_zero_iff.mp width)
  refine ⟨_, p1363ToDer_eq width nonempty, integerDer r, integerDer s,
    integerDer_strict nonempty (by omega), integerDer_strict sNonempty (by omega), _,
    lengthField_shortest small, ?_⟩
  rw [List.length_append, List.cons_append, List.cons_append, List.append_assoc]

def byteAt (data : Bytes) (index : ℤ) : Except Exn UInt8 :=
  if index < 0 then .error indexOutOfRange
  else
    match data[index.toNat]? with
    | some byte => .ok byte
    | none => .error indexOutOfRange

def slice (data : Bytes) (start length : ℤ) : Except Exn Bytes :=
  if start < 0 ∨ length < 0 ∨ data.length < start + length then
    .error (.other "Specified argument was out of the range of valid values.")
  else .ok ((data.drop start.toNat).take length.toNat)

def readDigits (data : Bytes) : ℕ → ℕ → ℤ → Except Exn (ℤ × ℤ)
  | 0, len, pos => .ok (len, pos)
  | i + 1, len, pos => do
    let byte ← byteAt data pos
    readDigits data i (len <<< 8 ||| byte.toNat) (int32 (pos + 1))

/-- The length, or -1, and the position after it. -/
def readDerLength (data : Bytes) (pos : ℤ) : Except Exn (ℤ × ℤ) := do
  if data.length ≤ pos then return (-1, pos)
  let b ← byteAt data pos
  let pos := int32 (pos + 1)
  if b < 0x80 then return (b.toNat, pos)
  let numBytes := (b &&& 0x7F).toNat
  if numBytes = 0 ∨ numBytes > 2 ∨ data.length < int32 (pos + numBytes) then return (-1, pos)
  readDigits data numBytes 0 pos

def tryFitCoord (coord dest : Bytes) (destOffset : ℕ) : Except Exn (Option Bytes) := do
  let trimmed := stripZeros coord
  if 32 < trimmed.length then return none
  let padding := 32 - trimmed.length
  return some (← writeAt dest (destOffset + padding) trimmed)

/-- Tag and length of an INTEGER, and the position after them; nothing without the tag. -/
def readIntegerHeader (der : Bytes) (pos : ℤ) : Except Exn (Option (ℤ × ℤ)) := do
  if der.length ≤ pos then return none
  if (← byteAt der pos) ≠ 0x02 then return none
  return some (← readDerLength der (int32 (pos + 1)))

def readSecond (der : Bytes) (rBytes : Bytes) (pos : ℤ) : Except Exn (Option Bytes) := do
  let some (sLen, pos) ← readIntegerHeader der pos | return none
  if sLen ≤ 0 ∨ int32 (pos + sLen) ≠ der.length then return none
  let sBytes ← slice der pos sLen
  let some result ← tryFitCoord rBytes (List.replicate 64 0) 0 | return none
  tryFitCoord sBytes result 32

def readPair (der : Bytes) (pos : ℤ) : Except Exn (Option Bytes) := do
  let some (rLen, pos) ← readIntegerHeader der pos | return none
  if rLen ≤ 0 ∨ der.length < int32 (pos + rLen) then return none
  let rBytes ← slice der pos rLen
  readSecond der rBytes (int32 (pos + rLen))

def tryDerToP1363 (der : Bytes) : Except Exn (Option Bytes) := do
  if der.length < 8 then return none
  if (← byteAt der 0) ≠ 0x30 then return none
  let (seqLen, pos) ← readDerLength der 1
  if seqLen < 0 ∨ int32 (pos + seqLen) ≠ der.length then return none
  readPair der pos

section
variable {data : Bytes} {k : ℕ}

theorem byteAt_eq (data : Bytes) (k : ℕ) : byteAt data k =
    match data.drop k with
    | byte :: _ => .ok byte
    | [] => .error indexOutOfRange := by
  have natural : ¬ (k : ℤ) < 0 := by omega
  rw [byteAt, if_neg natural, Int.toNat_natCast]
  cases rest : data.drop k with
  | nil => rw [List.getElem?_eq_none (List.drop_eq_nil_iff.mp rest)]
  | cons byte tail =>
    have head : data[k]? = some byte := by
      rw [← List.head?_drop, rest]
      rfl
    rw [head]

theorem int32_add {m : ℕ} (small : k + m < 2 ^ 31) : int32 ((k : ℤ) + m) = ((k + m : ℕ) : ℤ) := by
  rw [int32_of_small (by omega) (by omega)]
  push_cast
  rfl

theorem byteAt_cons {b : UInt8} {rest : Bytes} (left : data.drop k = b :: rest) :
    byteAt data k = .ok b ∧ data.drop (k + 1) = rest ∧
      data.length = k + 1 + rest.length := by
  have lengths := congrArg List.length left
  rw [List.length_drop, List.length_cons] at lengths
  refine ⟨by rw [byteAt_eq, left], ?_, by omega⟩
  rw [← List.tail_drop, left]
  rfl

theorem readDigits_eq {digits rest : Bytes} (len : ℕ)
    (left : data.drop k = digits ++ rest) (small : k + digits.length < 2 ^ 31) :
    readDigits data digits.length len k =
      .ok ((len * 256 ^ digits.length + ofBigEndian digits : ℕ), (k + digits.length : ℕ)) := by
  induction digits generalizing k len with
  | nil => simp [readDigits, ofBigEndian]
  | cons b digits ih =>
    obtain ⟨read, left', _⟩ := byteAt_cons left
    have shifted : len <<< 8 ||| b.toNat = len * 256 + b.toNat := by
      rw [← Nat.shiftLeft_add_eq_or_of_lt b.toNat_lt, Nat.shiftLeft_eq]
    rw [List.length_cons] at small ⊢
    have next := ih (k := k + 1) (len * 256 + b.toNat) left' (by omega)
    have moved : int32 ((k : ℤ) + 1) = ((k + 1 : ℕ) : ℤ) := int32_add (m := 1) (by omega)
    have total : (len * 256 + b.toNat) * 256 ^ digits.length + ofBigEndian digits =
        len * 256 ^ (digits.length + 1) + ofBigEndian (b :: digits) := by
      rw [ofBigEndian_cons, Nat.pow_succ]
      ring
    have ended : k + 1 + digits.length = k + (digits.length + 1) := by omega
    rw [total, ended] at next
    simp only [readDigits, read, bind, Except.bind, shifted, moved]
    exact next

theorem readDerLength_eq (data : Bytes) (k : ℕ) (small : k + 3 < 2 ^ 31) :
    match EcdsaSignatures.readDerLength (data.drop k) with
    | none => ∃ pos, readDerLength data k = .ok (-1, pos)
    | some (n, rest) => ∃ k', readDerLength data k = .ok ((n : ℕ), (k' : ℕ)) ∧ k' ≤ k + 3 ∧
        k' ≤ data.length ∧ rest = data.drop k' ∧ n < 65536 := by
  cases left : data.drop k with
  | nil =>
    have ended : (data.length : ℤ) ≤ k := by
      have := List.drop_eq_nil_iff.mp left
      exact Int.ofNat_le.mpr this
    simp only [EcdsaSignatures.readDerLength]
    exact ⟨_, by rw [readDerLength, if_pos ended]; rfl⟩
  | cons b tail =>
    obtain ⟨read, left', length⟩ := byteAt_cons left
    have going : ¬ data.length ≤ (k : ℤ) := by omega
    have moved : int32 ((k : ℤ) + 1) = ((k + 1 : ℕ) : ℤ) := int32_add (m := 1) (by omega)
    have header : readDerLength data k = if b < 0x80 then .ok ((b.toNat : ℕ), (k + 1 : ℕ))
        else if (b &&& 0x7F).toNat = 0 ∨ (b &&& 0x7F).toNat > 2 ∨
            data.length < int32 ((k + 1 : ℕ) + ((b &&& 0x7F).toNat : ℕ)) then
          .ok (-1, (k + 1 : ℕ))
        else readDigits data (b &&& 0x7F).toNat 0 (k + 1 : ℕ) := by
      simp only [readDerLength, if_neg going, read, bind, Except.bind, moved]
      rfl
    simp only [EcdsaSignatures.readDerLength]
    split_ifs with short long
    · refine ⟨k + 1, ?_, by omega, by omega, left'.symm, ?_⟩
      · rw [header, if_pos short]
      · have := b.toNat_lt
        omega
    · rw [header, if_neg short]
      refine ⟨_, if_pos ?_⟩
      by_cases many : (b &&& 0x7F).toNat > 2
      · exact .inr (.inl many)
      · rcases long with none | many' | ended
        · exact .inl none
        · exact absurd many' many
        · rw [int32_add (by omega)]
          exact .inr (.inr (by omega))
    · obtain ⟨some, few, enough⟩ : (b &&& 0x7F).toNat ≠ 0 ∧ (b &&& 0x7F).toNat ≤ 2 ∧
          (b &&& 0x7F).toNat ≤ tail.length := by omega
      generalize (b &&& 0x7F).toNat = numBytes at header some few enough
      have digits : (tail.take numBytes).length = numBytes := by
        rw [List.length_take]
        omega
      have split : data.drop (k + 1) = tail.take numBytes ++ tail.drop numBytes := by
        rw [left', List.take_append_drop]
      have loop := readDigits_eq 0 split (by omega)
      rw [digits, Nat.zero_mul, Nat.zero_add] at loop
      have fits : ¬ (numBytes = 0 ∨ numBytes > 2 ∨
          data.length < int32 ((k + 1 : ℕ) + (numBytes : ℕ))) := by
        rw [int32_add (by omega)]
        omega
      refine ⟨k + 1 + numBytes, ?_, by omega, by omega, ?_, ?_⟩
      · rw [header, if_neg short, if_neg fits]
        exact loop
      · rw [← List.drop_drop, left']
      · have value := ofBigEndian_lt (tail.take numBytes)
        have wide : 256 ^ (tail.take numBytes).length ≤ 256 ^ 2 :=
          Nat.pow_le_pow_right (by omega) (by omega)
        omega

theorem tryFitCoord_eq (coord done : Bytes) (left : ℕ) :
    tryFitCoord coord (done ++ List.replicate (32 + left) 0) done.length =
      .ok ((EcdsaSignatures.tryFitCoord coord).map fun x => done ++ x ++ List.replicate left 0) := by
  unfold tryFitCoord EcdsaSignatures.tryFitCoord
  by_cases wide : 32 < (stripZeros coord).length
  · rw [if_pos wide, if_pos wide]
    rfl
  · have room : done ++ List.replicate (32 + left) (0 : UInt8) =
        done ++ List.replicate (32 - (stripZeros coord).length) 0 ++
          List.replicate ((stripZeros coord).length + left) 0 := by
      rw [List.append_assoc, ← List.replicate_add]
      congr 2
      omega
    have front := writeAt_front (done ++ List.replicate (32 - (stripZeros coord).length) 0)
      (stripZeros coord) left
    rw [← room, List.length_append, List.length_replicate] at front
    rw [if_neg wide, if_neg wide]
    simp only [front, bind, Except.bind, Option.map_some, List.append_assoc]
    rfl

theorem readIntegerHeader_tagged {rest : Bytes} (left : data.drop k = 0x02 :: rest)
    (small : k + 1 < 2 ^ 31) :
    readIntegerHeader data k = (readDerLength data (k + 1 : ℕ)).map some := by
  obtain ⟨read, _, length⟩ := byteAt_cons left
  have going : ¬ data.length ≤ (k : ℤ) := by omega
  have moved : int32 ((k : ℤ) + 1) = ((k + 1 : ℕ) : ℤ) := int32_add (m := 1) small
  rw [readIntegerHeader, if_neg going, read, moved]
  cases readDerLength data (k + 1 : ℕ) <;> rfl

theorem readIntegerHeader_untagged {rest : Bytes} {tag : UInt8}
    (left : data.drop k = tag :: rest) (other : tag ≠ 0x02) :
    readIntegerHeader data k = .ok none := by
  obtain ⟨read, _, length⟩ := byteAt_cons left
  have going : ¬ data.length ≤ (k : ℤ) := by omega
  rw [readIntegerHeader, if_neg going, read]
  exact if_pos other

theorem readIntegerHeader_ended (left : data.drop k = []) :
    readIntegerHeader data k = .ok none := by
  have ended : (data.length : ℤ) ≤ k := Int.ofNat_le.mpr (List.drop_eq_nil_iff.mp left)
  rw [readIntegerHeader, if_pos ended]
  rfl

theorem readIntegerHeader_cases (data : Bytes) (k : ℕ) (small : k + 4 < 2 ^ 31) :
    ((readIntegerHeader data k = .ok none ∨
        ∃ pos, readIntegerHeader data k = .ok (some (-1, pos))) ∧
      readInteger (data.drop k) = none) ∨
    ∃ n k' : ℕ, readIntegerHeader data k = .ok (some (n, k')) ∧ k' ≤ k + 4 ∧
      k' ≤ data.length ∧ n < 65536 ∧
      readInteger (data.drop k) =
        if n = 0 ∨ n > (data.drop k').length then none
        else some ((data.drop k').take n, (data.drop k').drop n) := by
  cases left : data.drop k with
  | nil => exact .inl ⟨.inl (readIntegerHeader_ended left), rfl⟩
  | cons tag rest =>
    by_cases integer : tag = 0x02
    · subst integer
      have len := readDerLength_eq data (k + 1) (by omega)
      rw [readIntegerHeader_tagged left (by omega)]
      rw [(byteAt_cons left).2.1] at len
      cases field : EcdsaSignatures.readDerLength rest with
      | none =>
        rw [field] at len
        obtain ⟨pos, failed⟩ := len
        refine .inl ⟨.inr ⟨pos, by rw [failed]; rfl⟩, ?_⟩
        simp [readInteger, field]
      | some result =>
        obtain ⟨n, rest'⟩ := result
        rw [field] at len
        obtain ⟨k', done, near, inside, rfl, word⟩ := len
        refine .inr ⟨n, k', by rw [done]; rfl, by omega, inside, word, ?_⟩
        simp [readInteger, field]
    · exact .inl ⟨.inl (readIntegerHeader_untagged left integer), by simp [readInteger, integer]⟩

theorem slice_eq {n : ℕ} (inside : k + n ≤ data.length) :
    slice data k n = .ok ((data.drop k).take n) := by
  have fits : ¬ ((k : ℤ) < 0 ∨ (n : ℤ) < 0 ∨ (data.length : ℤ) < k + n) := by omega
  rw [slice, if_neg fits, Int.toNat_natCast, Int.toNat_natCast]

def fitCoords (r s : Bytes) : Option Bytes := do
  return (← EcdsaSignatures.tryFitCoord r) ++ (← EcdsaSignatures.tryFitCoord s)

theorem fitCoords_eq (r s : Bytes) :
    (do
      let some result ← tryFitCoord r (List.replicate 64 0) 0 | return none
      tryFitCoord s result 32 : Except Exn (Option Bytes)) =
    .ok (fitCoords r s) := by
  unfold fitCoords
  have first : tryFitCoord r (List.replicate 64 0) 0 = _ := tryFitCoord_eq r [] 32
  rw [first]
  cases fit : EcdsaSignatures.tryFitCoord r with
  | none => rfl
  | some x =>
    have width : x.length = 32 := by
      unfold EcdsaSignatures.tryFitCoord at fit
      dsimp only at fit
      split_ifs at fit with wide
      obtain rfl := Option.some.inj fit
      rw [List.length_append, List.length_replicate]
      omega
    have second := tryFitCoord_eq s x 0
    rw [width] at second
    change tryFitCoord s (x ++ List.replicate (32 + 0) 0) 32 = _
    rw [second]
    cases EcdsaSignatures.tryFitCoord s with
    | none => rfl
    | some y => simp [bind, Option.bind]

theorem readSecond_none {r : Bytes} {pos : ℤ} (failed : readIntegerHeader data pos = .ok none ∨
    ∃ p, readIntegerHeader data pos = .ok (some (-1, p))) :
    readSecond data r pos = .ok none := by
  unfold readSecond
  rcases failed with failed | ⟨p, failed⟩
  · rw [failed]
    rfl
  · rw [failed]
    rfl

theorem readSecond_stops {r : Bytes} {pos m p : ℤ}
    (header : readIntegerHeader data pos = .ok (some (m, p)))
    (stops : m ≤ 0 ∨ int32 (p + m) ≠ data.length) : readSecond data r pos = .ok none := by
  rw [readSecond, header]
  exact if_pos stops

theorem readSecond_some {r s : Bytes} {pos m p : ℤ}
    (header : readIntegerHeader data pos = .ok (some (m, p)))
    (ends : ¬ (m ≤ 0 ∨ int32 (p + m) ≠ data.length)) (content : slice data p m = .ok s) :
    readSecond data r pos = .ok (fitCoords r s) := by
  rw [← fitCoords_eq, readSecond, header]
  change (if m ≤ 0 ∨ int32 (p + m) ≠ data.length then _ else _) = _
  rw [if_neg ends, content]
  rfl

theorem readSecond_eq (r : Bytes) (small : data.length + 65536 < 2 ^ 31)
    (inside : k ≤ data.length) :
    readSecond data r k = .ok ((readInteger (data.drop k)).bind fun (s, rest) =>
      if rest ≠ [] then none else fitCoords r s) := by
  rcases readIntegerHeader_cases data k (by omega) with
    ⟨failed, none⟩ | ⟨m, k', header, _, inside', word, read⟩
  · rw [none, readSecond_none failed]
    rfl
  have total : int32 ((k' : ℤ) + m) = ((k' + m : ℕ) : ℤ) := int32_add (by omega)
  have ends : (m : ℤ) ≤ 0 ∨ int32 ((k' : ℤ) + m) ≠ data.length ↔
      m = 0 ∨ k' + m ≠ data.length := by
    rw [total]
    omega
  rw [read]
  by_cases empty : m = 0 ∨ m > (data.drop k').length
  · have stops : m = 0 ∨ k' + m ≠ data.length := by
      rw [List.length_drop] at empty
      omega
    rw [if_pos empty, readSecond_stops header (ends.mpr stops)]
    rfl
  rw [if_neg empty, Option.bind_some]
  rw [List.length_drop] at empty
  have last : List.drop m (data.drop k') ≠ [] ↔ k' + m ≠ data.length := by
    rw [List.drop_drop, Ne, List.drop_eq_nil_iff]
    omega
  by_cases stops : k' + m = data.length
  · have content : slice data k' m = .ok ((data.drop k').take m) := slice_eq (by omega)
    have fits : ¬ (m = 0 ∨ k' + m ≠ data.length) := by omega
    rw [readSecond_some header (ends.not.mpr fits) content]
    exact congrArg _ (if_neg (last.not.mpr (not_not.mpr stops))).symm
  · rw [readSecond_stops header (ends.mpr (.inr stops))]
    exact congrArg _ (if_pos (last.mpr stops)).symm

theorem readPair_none {pos : ℤ} (failed : readIntegerHeader data pos = .ok none ∨
    ∃ p, readIntegerHeader data pos = .ok (some (-1, p))) : readPair data pos = .ok none := by
  unfold readPair
  rcases failed with failed | ⟨p, failed⟩
  · rw [failed]
    rfl
  · rw [failed]
    rfl

theorem readPair_stops {pos n p : ℤ} (header : readIntegerHeader data pos = .ok (some (n, p)))
    (stops : n ≤ 0 ∨ data.length < int32 (p + n)) : readPair data pos = .ok none := by
  rw [readPair, header]
  exact if_pos stops

theorem readPair_some {r : Bytes} {pos n p : ℤ}
    (header : readIntegerHeader data pos = .ok (some (n, p)))
    (room : ¬ (n ≤ 0 ∨ data.length < int32 (p + n))) (content : slice data p n = .ok r) :
    readPair data pos = readSecond data r (int32 (p + n)) := by
  rw [readPair, header]
  change (if n ≤ 0 ∨ data.length < int32 (p + n) then _ else _) = _
  rw [if_neg room, content]
  rfl

theorem readPair_eq (small : data.length + 65536 < 2 ^ 31) (inside : k ≤ data.length) :
    readPair data k = .ok ((readInteger (data.drop k)).bind fun (r, rest) =>
      (readInteger rest).bind fun (s, rest) => if rest ≠ [] then none else fitCoords r s) := by
  rcases readIntegerHeader_cases data k (by omega) with
    ⟨failed, none⟩ | ⟨n, k', header, _, inside', word, read⟩
  · rw [none, readPair_none failed]
    rfl
  have total : int32 ((k' : ℤ) + n) = ((k' + n : ℕ) : ℤ) := int32_add (by omega)
  have room : (n : ℤ) ≤ 0 ∨ data.length < int32 ((k' : ℤ) + n) ↔
      n = 0 ∨ n > (data.drop k').length := by
    rw [total, List.length_drop]
    omega
  rw [read]
  by_cases empty : n = 0 ∨ n > (data.drop k').length
  · rw [if_pos empty, readPair_stops header (room.mpr empty)]
    rfl
  have inside'' : k' + n ≤ data.length := by
    rw [List.length_drop] at empty
    omega
  rw [if_neg empty, Option.bind_some,
    readPair_some header (room.not.mpr empty) (slice_eq inside''), total,
    readSecond_eq _ small inside'', List.drop_drop]

end

theorem tryDerToP1363_sequence {bs rest : Bytes} (whole : bs = 0x30 :: rest)
    (many : ¬ bs.length < 8) : EcdsaSignatures.tryDerToP1363 bs =
      (EcdsaSignatures.readDerLength rest).bind fun (seqLen, rest) =>
        if seqLen ≠ rest.length then none
        else (readInteger rest).bind fun (r, rest) => (readInteger rest).bind fun (s, rest) =>
          if rest ≠ [] then none else fitCoords r s := by
  subst whole
  rw [EcdsaSignatures.tryDerToP1363.eq_def, if_neg many]
  simp only [bind, ne_eq, not_true_eq_false, if_false]
  rfl

/-- Whatever the bytes, no read or write is out of range, and the result is that of the parser
over what is left. -/
theorem tryDerToP1363_eq (der : Bytes) :
    tryDerToP1363 der = .ok (EcdsaSignatures.tryDerToP1363 der) := by
  by_cases short : der.length < 8
  · rw [tryDerToP1363, if_pos short, EcdsaSignatures.tryDerToP1363.eq_def, if_pos short]
    rfl
  obtain ⟨tag, rest, whole⟩ : ∃ tag rest, der = tag :: rest := by
    cases bytes : der with
    | nil => simp [bytes] at short
    | cons tag rest => exact ⟨tag, rest, rfl⟩
  obtain ⟨read, left, length⟩ := byteAt_cons (k := 0) whole
  rw [Nat.cast_zero] at read
  by_cases sequence : tag = 0x30
  · subst sequence
    rw [tryDerToP1363_sequence whole short, tryDerToP1363, if_neg short, read]
    have len := readDerLength_eq der 1 (by omega)
    rw [Nat.cast_one, left] at len
    cases field : EcdsaSignatures.readDerLength rest with
    | none =>
      rw [field] at len
      obtain ⟨pos, failed⟩ := len
      simp [failed, bind, Except.bind]
      rfl
    | some result =>
      obtain ⟨seqLen, rest'⟩ := result
      rw [field] at len
      obtain ⟨k, done, near, inside, rfl, word⟩ := len
      have total : int32 ((k : ℤ) + seqLen) = ((k + seqLen : ℕ) : ℤ) := int32_add (by omega)
      have positive : ¬ (seqLen : ℤ) < 0 := by omega
      have spans : int32 ((k : ℤ) + seqLen) ≠ der.length ↔
          seqLen ≠ (der.drop k).length := by
        rw [total, List.length_drop]
        omega
      simp only [done, bind, Except.bind, Option.bind, positive, false_or, spans, ne_eq,
        not_true_eq_false, if_false]
      by_cases fits : seqLen = (der.drop k).length
      · rw [if_neg (not_not.mpr fits), if_neg (not_not.mpr fits)]
        rw [List.length_drop] at fits
        exact readPair_eq (by omega) inside
      · rw [if_pos fits, if_pos fits]
        rfl
  · rw [tryDerToP1363, if_neg short, read, EcdsaSignatures.tryDerToP1363.eq_def, if_neg short, whole]
    simp [bind, Except.bind, sequence]
    rfl

/-- The signer writes strict DER into buffers that are exactly filled, and the verifier gets
every signature of 64 bytes back from it. -/
theorem signature_conversions :
    (∀ r s : Bytes, r.length = s.length → r ≠ [] → (sequenceContent r s).length < 65536 →
      ∃ der, p1363ToDer (r ++ s) = .ok der ∧ StrictPair (ofBigEndian r) (ofBigEndian s) der) ∧
    ∀ p : Bytes, p.length = 64 →
      ∃ der, p1363ToDer p = .ok der ∧ tryDerToP1363 der = .ok (some p) := by
  refine ⟨fun r s width nonempty small => p1363ToDer_strict width nonempty small, ?_⟩
  intro p width
  obtain ⟨der, written, read⟩ := tryDerToP1363_p1363ToDer width
  refine ⟨der, written, ?_⟩
  rw [tryDerToP1363_eq, read]

theorem signature_conversions_zero :
    (∃ der, p1363ToDer ([0x80] ++ [0x00]) = .ok der ∧ StrictPair 0x80 0 der) ∧
    ∃ der, p1363ToDer (List.replicate 64 0) = .ok der ∧
      tryDerToP1363 der = .ok (some (List.replicate 64 0)) :=
  ⟨signature_conversions.1 [0x80] [0x00] rfl (List.cons_ne_nil _ _) (by decide),
    signature_conversions.2 (List.replicate 64 0) List.length_replicate⟩

end KeePassKeyWin.DerSignatures
