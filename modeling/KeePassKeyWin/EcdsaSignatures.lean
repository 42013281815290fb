import KeePassKeyWin.ByteStrings
import KeePassKeyWin.PlatformServices

set_option autoImplicit false

/-!
# Signatures

`EcdsaSigner`, `EcdsaVerifier` and `RsaSigner`: signing, the DER form of an ECDSA
signature and back, and verification. A buffer is filled by writes at positions.
-/
namespace KeePassKeyWin.EcdsaSignatures
open ByteStrings JsonRpc PlatformServices

def indexOutOfRange : Exn := .other "Index was outside the bounds of the array."

def writeAt (buf : Bytes) (pos : ℕ) (bytes : Bytes) : Except Exn Bytes :=
  if pos + bytes.length ≤ buf.length then
    .ok (buf.take pos ++ bytes ++ buf.drop (pos + bytes.length))
  else .error indexOutOfRange

def lengthFieldSize (length : ℕ) : ℕ :=
  if length < 0x80 then 1
  else if length < 0x100 then 2
  else 3

def writeLength (buf : Bytes) (pos length : ℕ) : Except Exn (Bytes × ℕ) :=
  if length < 0x80 then return (← writeAt buf pos [UInt8.ofNat length], 1)
  else if length < 0x100 then return (← writeAt buf pos [0x81, UInt8.ofNat length], 2)
  else return (← writeAt buf pos [0x82, UInt8.ofNat (length >>> 8), UInt8.ofNat length], 3)

/-- Leading zeros go, but never the last byte. -/
def stripZeros : Bytes → Bytes
  | [] => []
  | [b] => [b]
  | b :: c :: bs => if b = 0 then stripZeros (c :: bs) else b :: c :: bs

def encodeInteger (value : Bytes) : Except Exn Bytes := do
  match stripZeros value with
  | [] => throw indexOutOfRange
  | first :: rest =>
    let needsPad : Bool := first &&& 0x80 ≠ 0
    let contentLen := rest.length + 1 + (if needsPad then 1 else 0)
    let encoded := List.replicate (1 + lengthFieldSize contentLen + contentLen) 0
    let encoded ← writeAt encoded 0 [0x02]
    let (encoded, size) ← writeLength encoded 1 contentLen
    let pos := 1 + size
    if needsPad then
      let encoded ← writeAt encoded pos [0x00]
      writeAt encoded (pos + 1) (first :: rest)
    else writeAt encoded pos (first :: rest)

def p1363ToDer (p1363 : Bytes) : Except Exn Bytes := do
  if p1363.length % 2 ≠ 0 then
    throw (.other "P1363 signature length must be even.\r\nParameter name: p1363")
  let half := p1363.length / 2
  let rDer ← encodeInteger (p1363.take half)
  let sDer ← encodeInteger (p1363.drop half)
  let seqContentLen := rDer.length + sDer.length
  let der := List.replicate (1 + lengthFieldSize seqContentLen + seqContentLen) 0
  let der ← writeAt der 0 [0x30]
  let (der, size) ← writeLength der 1 seqContentLen
  let pos := 1 + size
  let der ← writeAt der pos rDer
  writeAt der (pos + rDer.length) sDer

def readDerLength : Bytes → Option (ℕ × Bytes)
  | [] => none
  | b :: data =>
    if b < 0x80 then some (b.toNat, data)
    else
      let numBytes := (b &&& 0x7F).toNat
      if numBytes = 0 ∨ numBytes > 2 ∨ data.length < numBytes then none
      else some (ofBigEndian (data.take numBytes), data.drop numBytes)

def tryFitCoord (coord : Bytes) : Option Bytes :=
  let trimmed := stripZeros coord
  if trimmed.length > 32 then none else some (List.replicate (32 - trimmed.length) 0 ++ trimmed)

def readInteger : Bytes → Option (Bytes × Bytes)
  | [] => none
  | tag :: rest => do
    if tag ≠ 0x02 then none
    let (len, rest) ← readDerLength rest
    if len = 0 ∨ len > rest.length then none
    return (rest.take len, rest.drop len)

def tryDerToP1363 (der : Bytes) : Option Bytes := do
  if der.length < 8 then none
  match der with
  | [] => none
  | tag :: rest =>
    if tag ≠ 0x30 then none
    let (seqLen, rest) ← readDerLength rest
    if seqLen ≠ rest.length then none
    let (rBytes, rest) ← readInteger rest
    let (sBytes, rest) ← readInteger rest
    if rest ≠ [] then none
    return (← tryFitCoord rBytes) ++ (← tryFitCoord sBytes)

def verify (P : Platform) (pubKeyBlob payload signature : Bytes) : Except Exn Bool :=
  if pubKeyBlob = [] ∨ payload = [] ∨ signature = [] then .ok false
  else
    match P.verifyData pubKeyBlob payload signature with
    | .answer verified => .ok verified
    | .cryptographicException | .argumentException => .ok false
    | .otherException message => .error (.other message)

def verifyAcceptingEitherFormat (P : Platform) (pubKeyBlob payload signature : Bytes) :
    Except Exn Bool :=
  if pubKeyBlob = [] ∨ payload = [] ∨ signature = [] then .ok false
  else
    let fast := if signature.length = 64 then verify P pubKeyBlob payload signature else .ok false
    match fast with
    | .error e => .error e
    | .ok true => .ok true
    | .ok false =>
      match tryDerToP1363 signature with
      | some p1363Sig => verify P pubKeyBlob payload p1363Sig
      | none => .ok false

def EcdsaSigner.sign (P : Platform) (pkcs8PrivateKey data entropy : Bytes) : Except Exn Bytes := do
  let p1363 ← (P.ecdsaSignData pkcs8PrivateKey entropy data).mapError Exn.other
  p1363ToDer p1363

def EcdsaSigner.generateKeyPair (out : Outside) : Except Exn (Bytes × Bytes × Bytes) := do
  let pair ← out.ecKey.mapError Exn.other
  return (pair.pkcs8, pair.x, pair.y)

def RsaSigner.sign (P : Platform) (pkcs8PrivateKey data : Bytes) : Except Exn Bytes :=
  (P.rsaSignData pkcs8PrivateKey data).mapError Exn.other

def stripLeadingZero (bytes : Bytes) (expectedLen : ℕ) : Bytes :=
  if 0 < expectedLen ∧ bytes.length = expectedLen + 1 ∧ bytes.head? = some 0 then bytes.drop 1
  else bytes

def RsaSigner.generateKeyPair (out : Outside) : Except Exn (Bytes × Bytes × Bytes) := do
  let pair ← out.rsaKey.mapError Exn.other
  return (pair.pkcs8, stripLeadingZero pair.modulus 256, stripLeadingZero pair.exponent 0)

def lengthField (length : ℕ) : Bytes :=
  if length < 0x80 then [UInt8.ofNat length]
  else if length < 0x100 then [0x81, UInt8.ofNat length]
  else [0x82, UInt8.ofNat (length >>> 8), UInt8.ofNat length]

theorem lengthField_length (n : ℕ) : (lengthField n).length = lengthFieldSize n := by
  simp only [lengthField, lengthFieldSize]
  split_ifs <;> rfl

theorem writeAt_front (done bytes : Bytes) (left : ℕ) :
    writeAt (done ++ List.replicate (bytes.length + left) 0) done.length bytes =
      .ok (done ++ bytes ++ List.replicate left 0) := by
  have fits : done.length + bytes.length ≤
      (done ++ List.replicate (bytes.length + left) (0 : UInt8)).length := by
    simp only [List.length_append, List.length_replicate]
    omega
  have rest : (done ++ List.replicate (bytes.length + left) (0 : UInt8)).drop
      (done.length + bytes.length) = List.replicate left 0 := by
    rw [List.drop_append, List.drop_of_length_le (by omega), List.nil_append, List.drop_replicate]
    congr 1
    omega
  rw [writeAt, if_pos fits, rest, List.take_left]

theorem writeTag (tag : UInt8) (n : ℕ) :
    writeAt (List.replicate (1 + lengthFieldSize n + n) 0) 0 [tag] =
      .ok (tag :: List.replicate (lengthFieldSize n + n) 0) := by
  simpa [Nat.add_assoc] using writeAt_front [] [tag] (lengthFieldSize n + n)

theorem writeLength_after_tag (tag : UInt8) (n : ℕ) :
    writeLength (tag :: List.replicate (lengthFieldSize n + n) 0) 1 n =
      .ok (tag :: lengthField n ++ List.replicate n 0, lengthFieldSize n) := by
  have front := writeAt_front [tag] (lengthField n) n
  rw [lengthField_length] at front
  simp only [writeLength, lengthField, lengthFieldSize] at *
  split_ifs at * <;> (simp only [List.singleton_append, List.length_singleton] at front
                      rw [front]; rfl)

theorem writeAt_after_header (tag : UInt8) (front back : Bytes) {n : ℕ}
    (hn : n = front.length + back.length) :
    writeAt (tag :: lengthField n ++ List.replicate n 0) (1 + lengthFieldSize n) front =
        .ok (tag :: lengthField n ++ front ++ List.replicate back.length 0) ∧
      writeAt (tag :: lengthField n ++ front ++ List.replicate back.length 0)
          (1 + lengthFieldSize n + front.length) back =
        .ok (tag :: lengthField n ++ front ++ back) := by
  have header : (tag :: lengthField n).length = 1 + lengthFieldSize n := by
    rw [List.length_cons, lengthField_length, Nat.add_comm]
  constructor
  · have first := writeAt_front (tag :: lengthField n) front back.length
    rwa [header, ← hn] at first
  · have second := writeAt_front (tag :: lengthField n ++ front) back 0
    simpa [header, lengthField_length, Nat.add_comm, Nat.add_left_comm, Nat.add_assoc] using second

theorem stripZeros_cons (b : UInt8) (bs : Bytes) : ∃ c cs, stripZeros (b :: bs) = c :: cs := by
  induction bs generalizing b with
  | nil => exact ⟨b, [], rfl⟩
  | cons c bs ih =>
    by_cases hb : b = 0
    · simpa [stripZeros, hb] using ih c
    · exact ⟨b, c :: bs, by simp [stripZeros, hb]⟩

theorem stripZeros_pad (bs : Bytes) :
    List.replicate (bs.length - (stripZeros bs).length) 0 ++ stripZeros bs = bs ∧
      (stripZeros bs).length ≤ bs.length := by
  fun_induction stripZeros bs with
  | case1 => simp
  | case2 b => simp
  | case3 c bs ih =>
    obtain ⟨pad, short⟩ := ih
    refine ⟨?_, by simp only [List.length_cons] at *; omega⟩
    have step : (0 :: c :: bs : Bytes).length - (stripZeros (c :: bs)).length =
        ((c :: bs).length - (stripZeros (c :: bs)).length) + 1 := by
      simp only [List.length_cons] at *
      omega
    rw [step, List.replicate_succ, List.cons_append, pad]
  | case4 b c bs hb => simp

theorem stripZeros_stripZeros (bs : Bytes) : stripZeros (stripZeros bs) = stripZeros bs := by
  fun_induction stripZeros bs with
  | case1 => rfl
  | case2 b => rfl
  | case3 c bs ih => exact ih
  | case4 b c bs hb => simp [stripZeros, hb]

/-- The content of an INTEGER: the stripped bytes, behind a zero when the top bit is set. -/
def integerContent : Bytes → Bytes
  | [] => []
  | first :: rest => if first &&& 0x80 ≠ 0 then 0 :: first :: rest else first :: rest

def integerDer (value : Bytes) : Bytes :=
  0x02 :: lengthField (integerContent (stripZeros value)).length ++
    integerContent (stripZeros value)

theorem encodeInteger_eq {value : Bytes} (h : value ≠ []) :
    encodeInteger value = .ok (integerDer value) := by
  obtain ⟨b, bs, rfl⟩ := List.exists_cons_of_ne_nil h
  obtain ⟨first, rest, hs⟩ := stripZeros_cons b bs
  by_cases hpad : first &&& 0x80 ≠ 0
  · obtain ⟨zero, body⟩ := writeAt_after_header 0x02 [0x00] (first :: rest)
      (n := rest.length + 1 + 1) (by simp only [List.length_cons, List.length_nil]; omega)
    simp only [List.length_cons, List.length_nil, Nat.zero_add] at zero body
    simp only [encodeInteger, integerDer, hs, integerContent, hpad, ne_eq, not_false_iff,
      decide_true, if_true, writeTag, writeLength_after_tag, bind, Except.bind, zero, body,
      List.length_cons]
    simp
  · obtain ⟨body, _⟩ := writeAt_after_header 0x02 (first :: rest) [] (n := rest.length + 1)
      (by simp)
    simp [encodeInteger, integerDer, hs, integerContent, hpad, writeTag, writeLength_after_tag,
      bind, Except.bind] at body ⊢
    simp [body]

theorem p1363ToDer_eq {r s : Bytes} (width : r.length = s.length) (hr : r ≠ []) :
    p1363ToDer (r ++ s) = .ok (0x30 ::
      lengthField ((integerDer r).length + (integerDer s).length) ++ integerDer r ++
        integerDer s) := by
  have hs : s ≠ [] := by
    intro he
    rw [he, List.length_nil, List.length_eq_zero_iff] at width
    exact hr width
  have even : (r ++ s).length % 2 = 0 := by rw [List.length_append]; omega
  have half : (r ++ s).length / 2 = r.length := by rw [List.length_append]; omega
  obtain ⟨front, back⟩ := writeAt_after_header 0x30 (integerDer r) (integerDer s) rfl
  simp only [p1363ToDer, even, half, List.take_left, List.drop_left, encodeInteger_eq hr,
    encodeInteger_eq hs, bind, Except.bind, writeTag, writeLength_after_tag, front, back]
  rfl

theorem readDerLength_lengthField {n : ℕ} (hn : n < 0x80) (rest : Bytes) :
    readDerLength (lengthField n ++ rest) = some (n, rest) := by
  have small : UInt8.ofNat n < 0x80 := by
    rw [UInt8.lt_iff_toNat_lt, UInt8.toNat_ofNat']
    change n % 256 < 128
    omega
  have value : (UInt8.ofNat n).toNat = n := by
    rw [UInt8.toNat_ofNat']
    omega
  simp only [lengthField, hn, if_true, List.singleton_append, readDerLength, small, value]

theorem integerContent_length (c : Bytes) : (integerContent c).length ≤ c.length + 1 := by
  cases c with
  | nil => simp [integerContent]
  | cons first rest =>
    simp only [integerContent]
    split_ifs <;> simp

theorem stripZeros_integerContent (value : Bytes) :
    stripZeros (integerContent (stripZeros value)) = stripZeros value := by
  have again := stripZeros_stripZeros value
  cases hc : stripZeros value with
  | nil => rfl
  | cons first rest =>
    rw [hc] at again
    simp only [integerContent]
    split_ifs
    · exact again
    · exact again

theorem readInteger_integerDer {value : Bytes} (hv : value ≠ []) (short : value.length ≤ 32)
    (rest : Bytes) :
    readInteger (integerDer value ++ rest) = some (integerContent (stripZeros value), rest) := by
  obtain ⟨b, bs, rfl⟩ := List.exists_cons_of_ne_nil hv
  obtain ⟨first, tail, hs⟩ := stripZeros_cons b bs
  have fits := (stripZeros_pad (b :: bs)).2
  have small := integerContent_length (stripZeros (b :: bs))
  have positive : (integerContent (stripZeros (b :: bs))).length ≠ 0 := by
    rw [hs, integerContent]
    split_ifs <;> simp
  generalize hcontent : integerContent (stripZeros (b :: bs)) = content at *
  have len := readDerLength_lengthField (n := content.length) (by omega) (content ++ rest)
  simp [integerDer, hcontent, readInteger, len, List.append_assoc]
  simp [List.length_eq_zero_iff.not.mp positive]

theorem tryFitCoord_integerContent {value : Bytes} (width : value.length = 32) :
    tryFitCoord (integerContent (stripZeros value)) = some value := by
  obtain ⟨pad, short⟩ := stripZeros_pad value
  have fits : ¬ (stripZeros value).length > 32 := by omega
  simp only [tryFitCoord, stripZeros_integerContent, fits, if_false]
  rw [← width, pad]

theorem integerDer_length_le (value : Bytes) :
    3 ≤ (integerDer value).length + (if value = [] then 3 else 0) ∧
      (integerDer value).length ≤ value.length + 5 := by
  have content := integerContent_length (stripZeros value)
  have fits := (stripZeros_pad value).2
  have field : 1 ≤ lengthFieldSize (integerContent (stripZeros value)).length ∧
      lengthFieldSize (integerContent (stripZeros value)).length ≤ 3 := by
    simp only [lengthFieldSize]
    split_ifs <;> omega
  have positive : value ≠ [] → 1 ≤ (integerContent (stripZeros value)).length := by
    intro hv
    obtain ⟨b, bs, rfl⟩ := List.exists_cons_of_ne_nil hv
    obtain ⟨first, tail, hs⟩ := stripZeros_cons b bs
    rw [hs, integerContent]
    split_ifs <;> simp
  simp only [integerDer, List.length_cons, List.length_append, lengthField_length]
  split_ifs with hv
  · omega
  · have := positive hv
    omega

theorem p1363ToDer_length {p der : Bytes} (h : p1363ToDer p = .ok der) {half : ℕ}
    (width : p.length = 2 * half) (positive : 0 < half) : der.length ≤ p.length + 14 := by
  have hr : (p.take half).length = half := by rw [List.length_take]; omega
  have hs : (p.drop half).length = half := by rw [List.length_drop]; omega
  have rne : p.take half ≠ [] := by
    intro he
    rw [he, List.length_nil] at hr
    omega
  have written := p1363ToDer_eq (hr.trans hs.symm) rne
  rw [List.take_append_drop, h, Except.ok.injEq] at written
  have rlen := (integerDer_length_le (p.take half)).2
  have slen := (integerDer_length_le (p.drop half)).2
  have field : lengthFieldSize ((integerDer (p.take half)).length +
      (integerDer (p.drop half)).length) ≤ 3 := by
    simp only [lengthFieldSize]
    split_ifs <;> omega
  simp only [written, List.length_cons, List.length_append, lengthField_length]
  omega

/-- A P-256 signature survives the change to DER and back. -/
theorem tryDerToP1363_p1363ToDer {p : Bytes} (width : p.length = 64) :
    ∃ der, p1363ToDer p = .ok der ∧ tryDerToP1363 der = some p := by
  have hr : (p.take 32).length = 32 := by rw [List.length_take]; omega
  have hs : (p.drop 32).length = 32 := by rw [List.length_drop]; omega
  have rne : p.take 32 ≠ [] := by intro h; rw [h] at hr; simp at hr
  have sne : p.drop 32 ≠ [] := by intro h; rw [h] at hs; simp at hs
  have written := p1363ToDer_eq (hr.trans hs.symm) rne
  rw [List.take_append_drop] at written
  refine ⟨_, written, ?_⟩
  have rlen := integerDer_length_le (p.take 32)
  have slen := integerDer_length_le (p.drop 32)
  rw [if_neg rne] at rlen
  rw [if_neg sne] at slen
  have enough : ¬ (0x30 :: (lengthField ((integerDer (p.take 32)).length +
      (integerDer (p.drop 32)).length) ++ (integerDer (p.take 32) ++
        integerDer (p.drop 32)))).length < 8 := by
    simp only [List.length_cons, List.length_append, lengthField_length, lengthFieldSize]
    split_ifs <;> omega
  have sequence := readDerLength_lengthField (n := (integerDer (p.take 32)).length +
    (integerDer (p.drop 32)).length) (by omega) (integerDer (p.take 32) ++ integerDer (p.drop 32))
  have first := readInteger_integerDer rne (by omega) (integerDer (p.drop 32))
  have second := readInteger_integerDer sne (by omega) []
  rw [List.append_nil] at second
  simp only [tryDerToP1363, List.cons_append, List.append_assoc, enough, if_false, sequence]
  simp [first, second, tryFitCoord_integerContent hr, tryFitCoord_integerContent hs]

end KeePassKeyWin.EcdsaSignatures
