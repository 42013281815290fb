import KeePassKeyWin.CborExactness
import Mathlib.Data.Int.ModEq

set_option autoImplicit false

/-!
# `CborReader` over its array

The reader as it is written: an array, an index of 32 bits, and reads at indices that may lie
outside. It does what the reader over the rest of the bytes does.
-/
namespace KeePassKeyWin.CborBuffer
open ByteStrings JsonRpc OutcomeRules
open CborReading (CborReader Reader intMaxValue hexDigit)

structure Buffer where
  bytes : Bytes
  length_le : bytes.length ≤ 0x7FFFFFC7

def Buffer.length (buf : Buffer) : ℤ := buf.bytes.length

structure BufferReader where
  buf : Buffer
  pos : ℤ

abbrev Reading := EStateM Exn BufferReader

/-- Arithmetic of `int`, unchecked. -/
def int32 (n : ℤ) : ℤ := n.bmod (2 ^ 32)

def toUlong (n : ℤ) : ℕ := (n % 2 ^ 64).toNat

def fail {α : Type} (message : String) : Reading α := throw (.cborReader message)

def byteAt (index : ℤ) : Reading UInt8 := fun b =>
  if index < 0 then .error (.other "Index was outside the bounds of the array.") b
  else
    match b.buf.bytes[index.toNat]? with
    | some byte => .ok byte b
    | none => .error (.other "Index was outside the bounds of the array.") b

def movePos (count : ℤ) : Reading Unit := modify fun b => { b with pos := int32 (b.pos + count) }

def position : Reading ℤ := do return (← get).pos

def ensureAvailable (count : ℤ) : Reading Unit := do
  let ⟨buf, pos⟩ ← get
  if buf.length < int32 (pos + count) then
    let left := int32 (buf.length - pos)
    fail s!"Unexpected end of CBOR input at offset {pos}: need {count} more byte(s), {left} available."

def validateAdditionalInfo (ai : ℕ) : Reading Unit := do
  if ai = 31 then
    fail "Indefinite-length CBOR items are not supported (CTAP2 §6 forbids them)."
  if 28 ≤ ai ∧ ai ≤ 30 then
    fail s!"Reserved CBOR additional-info value {ai} is not supported."

def bytesAt : ℕ → ℤ → Reading Bytes
  | 0, _ => return []
  | width + 1, index => do
    let byte ← byteAt index
    return byte :: (← bytesAt width (int32 (index + 1)))

def joinBytes : Bytes → ℕ
  | [] => 0
  | byte :: bytes => byte.toNat <<< (8 * bytes.length) ||| joinBytes bytes

def readWide (width : ℕ) : Reading ℕ := do
  ensureAvailable width
  let bytes ← bytesAt width (← position)
  movePos width
  return joinBytes bytes

def readArgument (ai : ℕ) : Reading ℕ :=
  if ai ≤ 23 then return ai
  else if ai = 24 then readWide 1
  else if ai = 25 then readWide 2
  else if ai = 26 then readWide 4
  else readWide 8

def readInitialByte : Reading (ℕ × ℕ) := do
  ensureAvailable 1
  let initial ← byteAt (← position)
  movePos 1
  let mt := initial.toNat >>> 5
  let ai := initial.toNat &&& 0x1F
  let offset := (← position) - 1
  if mt = 6 then
    fail s!"CBOR tags (major type 6) are not supported at offset {offset}."
  if mt = 7 then
    fail s!"CBOR floats/simple values (major type 7) are not supported at offset {offset}."
  validateAdditionalInfo ai
  return (mt, ← readArgument ai)

def ensureLength (length : ℕ) : Reading Unit := do
  let ⟨buf, pos⟩ ← get
  let left := int32 (buf.length - pos)
  if toUlong left < length then
    fail s!"Byte/text string claims length {length} but only {left} bytes remain at offset {pos}."
  if intMaxValue < length then
    fail s!"Byte/text string length {length} exceeds Int32.MaxValue."

def copyBytes (length : ℕ) : Reading Bytes := fun b =>
  if 0 ≤ b.pos ∧ b.pos + length ≤ b.buf.length then
    .ok ((b.buf.bytes.drop b.pos.toNat).take length) b
  else .error (.other "Source array was not long enough. Check srcIndex and length, and the array's lower bounds.") b

def readBytes (length : ℕ) : Reading Bytes := do
  ensureLength length
  let result ← copyBytes length
  movePos length
  return result

def skipBytes (length : ℕ) : Reading Unit := do
  ensureLength length
  movePos length

def expectMajorType (mt : ℕ) (expected : String) : Reading ℕ := do
  let (actual, value) ← readInitialByte
  if actual ≠ mt then
    let offset := (← position) - 1
    fail s!"Expected {expected} (major type {mt}), got major type {actual} at offset {offset}."
  return value

def peekMajorType : Reading ℕ := do
  ensureAvailable 1
  return (← byteAt (← position)).toNat >>> 5

def readUnsignedInt : Reading ℕ := expectMajorType 0 "unsigned integer"

def readNegativeInt : Reading ℤ := do
  let value ← expectMajorType 1 "negative integer"
  if 2 ^ 63 - 1 < value then
    let pos ← position
    fail s!"Negative integer out of Int64 range at offset {pos}."
  return -1 - (value : ℤ)

def readByteString : Reading Bytes := do
  readBytes (← expectMajorType 2 "byte string")

def readTextString : Reading String := do
  return getString (← readBytes (← expectMajorType 3 "text string"))

def readArrayHeader : Reading ℕ := do
  let count ← expectMajorType 4 "array header"
  if intMaxValue < count then
    let pos ← position
    fail s!"Array count {count} exceeds Int32.MaxValue at offset {pos}."
  return count

def readMapHeader : Reading ℕ := do
  let count ← expectMajorType 5 "map header"
  if intMaxValue < count then
    let pos ← position
    fail s!"Map pair count {count} exceeds Int32.MaxValue at offset {pos}."
  return count

def readBool : Reading Bool := do
  ensureAvailable 1
  let b := (← byteAt (← position)).toNat
  if b = 0xF5 then
    movePos 1
    return true
  if b = 0xF4 then
    movePos 1
    return false
  let hex := String.ofList [hexDigit (b / 16), hexDigit (b % 16)]
  let pos ← position
  fail s!"Expected CBOR bool (0xF4/0xF5), got 0x{hex} at offset {pos}."

def skipItem : ℕ → Reading Unit
  | 0 => throw (.other "Insufficient execution stack.")
  | fuel + 1 => do
    ensureAvailable 1
    let initial ← byteAt (← position)
    let mt := initial.toNat >>> 5
    let ai := initial.toNat &&& 0x1F
    validateAdditionalInfo ai
    match mt with
    | 0 | 1 => let _ ← readInitialByte
    | 2 | 3 => skipBytes (← readInitialByte).2
    | 4 => times (fun _ => skipItem fuel) (← readInitialByte).2 ()
    | 5 => times (fun _ => do skipItem fuel; skipItem fuel) (← readInitialByte).2 ()
    | 7 =>
      if 20 ≤ ai ∧ ai ≤ 23 then movePos 1
      else
        let pos ← position
        fail s!"CBOR major type 7 with additional-info {ai} not supported at offset {pos}."
    | _ =>
      let pos ← position
      fail s!"Unsupported major type {mt} at offset {pos}."

def BufferReader.Within (b : BufferReader) : Prop := 0 ≤ b.pos ∧ b.pos ≤ b.buf.length

def BufferReader.left (b : BufferReader) : Bytes := b.buf.bytes.drop b.pos.toNat

def BufferReader.upTo (b : BufferReader) (q : ℤ) : Bytes := b.left.take (q - b.pos).toNat

def skipValue : Reading Unit := fun b => skipItem (b.left.length + 1) b

def BufferReader.view (b : BufferReader) : CborReader := ⟨b.pos.toNat, b.left⟩

theorem left_length {b : BufferReader} (within : b.Within) :
    (b.left.length : ℤ) = b.buf.length - b.pos := by
  obtain ⟨low, high⟩ := within
  simp only [BufferReader.left, List.length_drop, Buffer.length] at *
  omega

theorem view_inj {b b' : BufferReader} (within : b.Within) (within' : b'.Within) (same : b'.buf = b.buf)
    (view : b'.view = b.view) : b' = b := by
  have pos : b'.pos.toNat = b.pos.toNat := congrArg CborReader.pos view
  obtain ⟨buf, p⟩ := b
  obtain ⟨buf', p'⟩ := b'
  obtain ⟨low, _⟩ := within
  obtain ⟨low', _⟩ := within'
  simp only at pos low low' same
  rw [same, show p' = p by omega]

theorem int32_of_small {n : ℤ} (low : -2 ^ 31 ≤ n) (high : n < 2 ^ 31) : int32 n = n := by
  simp only [int32, Int.bmod]
  omega

/-- From this state the code and the reader end alike, with the position in the array. -/
def SimulatesAt {α : Type} (b : BufferReader) (m : Reading α) (m' : Reader α) : Prop :=
  match m b with
  | .ok a b' => b'.Within ∧ b'.buf = b.buf ∧ m' b.view = .ok a b'.view
  | .error e b' => b'.Within ∧ b'.buf = b.buf ∧ m' b.view = .error e b'.view

def Simulates {α : Type} (m : Reading α) (m' : Reader α) : Prop :=
  ∀ b : BufferReader, b.Within → SimulatesAt b m m'

section
variable {α β : Type} {b : BufferReader} {m : Reading α} {m' : Reader α}

theorem SimulatesAt.ok (h : SimulatesAt b m m') {a : α} {b' : BufferReader}
    (run : m b = .ok a b') : b'.Within ∧ b'.buf = b.buf ∧ m' b.view = .ok a b'.view := by
  simpa only [SimulatesAt, run] using h

theorem SimulatesAt.error (h : SimulatesAt b m m') {e : Exn} {b' : BufferReader}
    (run : m b = .error e b') : b'.Within ∧ b'.buf = b.buf ∧ m' b.view = .error e b'.view := by
  simpa only [SimulatesAt, run] using h

theorem SimulatesAt.same {n : Reading α} {n' : Reader α} (hm : SimulatesAt b m m')
    (hn : SimulatesAt b n n') (run : m' b.view = n' b.view) : m b = n b := by
  cases hmb : m b with
  | ok a c =>
    obtain ⟨within, buf, run'⟩ := hm.ok hmb
    cases hnb : n b with
    | ok a' c' =>
      obtain ⟨within', buf', run''⟩ := hn.ok hnb
      obtain ⟨value, view⟩ := EStateM.Result.ok.inj (run'.symm.trans (run.trans run''))
      rw [value, view_inj within' within (buf.trans buf'.symm) view]
    | error e c' => cases run'.symm.trans (run.trans (hn.error hnb).2.2)
  | error e c =>
    obtain ⟨within, buf, run'⟩ := hm.error hmb
    cases hnb : n b with
    | ok a' c' => cases run'.symm.trans (run.trans (hn.ok hnb).2.2)
    | error e' c' =>
      obtain ⟨within', buf', run''⟩ := hn.error hnb
      obtain ⟨value, view⟩ := EStateM.Result.error.inj (run'.symm.trans (run.trans run''))
      rw [value, view_inj within' within (buf.trans buf'.symm) view]

theorem SimulatesAt.bind {f : α → Reading β} {f' : α → Reader β} (first : SimulatesAt b m m')
    (rest : ∀ a b', m b = .ok a b' → b'.Within → SimulatesAt b' (f a) (f' a)) :
    SimulatesAt b (m >>= f) (m' >>= f') := by
  cases run : m b with
  | error e b' =>
    obtain ⟨within, same, run'⟩ := first.error run
    rw [SimulatesAt, bind_of_error run]
    exact ⟨within, same, bind_of_error run'⟩
  | ok a b' =>
    obtain ⟨within, same, run'⟩ := first.ok run
    have second := rest a b' run within
    simp only [SimulatesAt, bind_of_ok run, bind_of_ok run', ← same] at second ⊢
    exact second

theorem Simulates.bind {f : α → Reading β} {f' : α → Reader β} (first : Simulates m m')
    (rest : ∀ a, Simulates (f a) (f' a)) : Simulates (m >>= f) (m' >>= f') :=
  fun b within => (first b within).bind fun a b' _ within' => rest a b' within'

theorem Simulates.pure (a : α) : Simulates (pure a) (pure a) := fun _ within =>
  ⟨within, rfl, rfl⟩

theorem Simulates.fail (message : String) :
    Simulates (fail message : Reading α) (CborReading.fail message) := fun _ within =>
  ⟨within, rfl, rfl⟩

theorem SimulatesAt.positioned {f : ℤ → Reading α} {f' : ℕ → Reader α} (within : b.Within)
    (rest : ∀ pos : ℕ, b.pos = pos → SimulatesAt b (f pos) (f' pos)) :
    SimulatesAt b (position >>= f) (CborReading.position >>= f') := by
  have same : ((b.pos.toNat : ℕ) : ℤ) = b.pos := Int.toNat_of_nonneg within.1
  have h := rest b.pos.toNat same.symm
  rw [same] at h
  exact h

theorem Simulates.positioned {f : ℤ → Reading α} {f' : ℕ → Reader α}
    (rest : ∀ pos : ℕ, Simulates (f pos) (f' pos)) :
    Simulates (position >>= f) (CborReading.position >>= f') := fun b within =>
  .positioned within fun pos _ => rest pos b within

theorem Simulates.ite {c : Prop} [Decidable c] {n : Reading α} {n' : Reader α}
    (hm : c → Simulates m m') (hn : ¬ c → Simulates n n') :
    Simulates (if c then m else n) (if c then m' else n') := by
  split
  · exact hm ‹_›
  · exact hn ‹_›

theorem Simulates.guard {c : Prop} [Decidable c] {x : Reading Unit} {x' : Reader Unit}
    {f : Unit → Reading α} {f' : Unit → Reader α} (hx : Simulates x x')
    (hf : Simulates (f ()) (f' ())) :
    Simulates (if c then x >>= f else f ()) (if c then x' >>= f' else f' ()) :=
  .ite (fun _ => hx.bind fun _ => hf) fun _ => hf

theorem Simulates.times {body : α → Reading α} {body' : α → Reader α}
    (each : ∀ a, Simulates (body a) (body' a)) (n : ℕ) (a : α) :
    Simulates (times body n a) (times body' n a) := by
  induction n generalizing a with
  | zero => exact .pure a
  | succ n ih => exact (each a).bind ih

end

theorem ensureAvailable_run (count : ℤ) (b : BufferReader) : ensureAvailable count b =
    if b.buf.length < int32 (b.pos + count) then
      .error (.cborReader s!"Unexpected end of CBOR input at offset {b.pos}: need {count} more byte(s), {int32 (b.buf.length - b.pos)} available.") b
    else .ok () b := by
  simp only [ensureAvailable, get_bind, ite_run]
  rfl

theorem Within.arithmetic {b : BufferReader} (within : b.Within) {count : ℕ} (small : count ≤ 8) :
    int32 (b.pos + count) = b.pos + count ∧
      int32 (b.buf.length - b.pos) = (b.left.length : ℕ) := by
  have length := left_length within
  have bound := b.buf.length_le
  obtain ⟨low, high⟩ := within
  have size : b.buf.length = b.buf.bytes.length := rfl
  refine ⟨int32_of_small (by omega) (by omega), ?_⟩
  rw [length]
  exact int32_of_small (by omega) (by omega)

theorem ensureAvailable_cases {b : BufferReader} (within : b.Within) {count : ℕ}
    (small : count ≤ 8) :
    (count ≤ b.left.length ∧ ensureAvailable count b = .ok () b ∧
      CborReading.ensureAvailable count b.view = .ok () b.view) ∨
    (b.left.length < count ∧ ∃ message, ensureAvailable count b = .error (.cborReader message) b ∧
      CborReading.ensureAvailable count b.view = .error (.cborReader message) b.view) := by
  have length := left_length within
  obtain ⟨sum, left⟩ := Within.arithmetic within small
  have pos : b.pos = (b.pos.toNat : ℕ) := (Int.toNat_of_nonneg within.1).symm
  have view : b.view = ⟨b.pos.toNat, b.left⟩ := rfl
  rw [ensureAvailable_run, sum, left, view]
  simp only [CborReading.ensureAvailable, get_bind, ite_run]
  by_cases enough : count ≤ b.left.length
  · rw [if_neg (by omega), if_neg (by omega)]
    exact .inl ⟨enough, rfl, rfl⟩
  · rw [if_pos (by omega), if_pos (by omega)]
    refine .inr ⟨by omega, _, rfl, ?_⟩
    conv_rhs => rw [pos]
    rfl

theorem byteAt_pos {b : BufferReader} (within : b.Within) {byte : UInt8} {rest : Bytes}
    (left : b.left = byte :: rest) : byteAt b.pos b = .ok byte b := by
  have found : b.buf.bytes[b.pos.toNat]? = some byte := by
    have head := congrArg List.head? left
    rwa [BufferReader.left, List.head?_drop] at head
  simp only [byteAt, found, if_neg (Int.not_lt.mpr within.1)]

theorem movePos_run {b : BufferReader} (within : b.Within) {count : ℕ}
    (enough : count ≤ b.left.length) : ∃ b' : BufferReader, movePos count b = .ok () b' ∧
      b'.Within ∧ b'.buf = b.buf ∧ b'.view = ⟨b.view.pos + count, b.view.rest.drop count⟩ := by
  have length := left_length within
  have bound := b.buf.length_le
  obtain ⟨low, high⟩ := within
  simp only [Buffer.length] at length high
  have sum : int32 (b.pos + count) = b.pos + count := int32_of_small (by omega) (by omega)
  refine ⟨⟨b.buf, b.pos + count⟩, ?_, ⟨?_, ?_⟩, rfl, ?_⟩
  · rw [← sum]
    rfl
  · change 0 ≤ b.pos + count
    omega
  · change b.pos + count ≤ b.buf.length
    simp only [Buffer.length]
    omega
  · have pos : (b.pos + count).toNat = b.pos.toNat + count := by omega
    simp only [BufferReader.view, BufferReader.left, pos, List.drop_drop]

section
variable {α : Type}

theorem Simulates.peek {f : UInt8 → Reading α} {f' : ℕ → Reader α}
    (rest : ∀ byte b, b.Within → b.left ≠ [] → SimulatesAt b (f byte) (f' byte.toNat)) :
    Simulates (ensureAvailable 1 >>= fun _ => position >>= fun pos => byteAt pos >>= f)
      (CborReading.ensureAvailable 1 >>= fun _ => CborReading.peekByte >>= f') := by
  intro b within
  rcases ensureAvailable_cases within (show 1 ≤ 8 by omega) with
    ⟨enough, run, run'⟩ | ⟨_, message, run, run'⟩ <;> rw [Nat.cast_one] at run
  · obtain ⟨byte, tail, left⟩ := List.exists_cons_of_length_pos enough
    have peeked : CborReading.peekByte b.view = .ok byte.toNat b.view := by
      simp [CborReading.peekByte, BufferReader.view, left, ofBigEndian]
    have here : position b = .ok b.pos b := rfl
    have seen := rest byte b within (by simp [left])
    have code : (ensureAvailable 1 >>= fun _ => position >>= fun pos => byteAt pos >>= f) b =
        f byte b := by
      rw [bind_of_ok run, bind_of_ok here, bind_of_ok (byteAt_pos within left)]
    rw [SimulatesAt, code, bind_of_ok run', bind_of_ok peeked]
    exact seen
  · have code : (ensureAvailable 1 >>= fun _ => position >>= fun pos => byteAt pos >>= f) b =
        .error (.cborReader message) b := bind_of_error run
    rw [SimulatesAt, code, bind_of_error run']
    exact ⟨within, rfl, rfl⟩

theorem Simulates.next {f : UInt8 → Reading α} {f' : Bytes → Reader α}
    (rest : ∀ byte b, b.Within → 0 < b.pos → SimulatesAt b (f byte) (f' [byte])) :
    Simulates (ensureAvailable 1 >>= fun _ => position >>= fun pos => byteAt pos >>= fun byte =>
        movePos 1 >>= fun _ => f byte)
      (CborReading.ensureAvailable 1 >>= fun _ => CborReading.advance 1 >>= f') := by
  intro b within
  rcases ensureAvailable_cases within (show 1 ≤ 8 by omega) with
    ⟨enough, run, run'⟩ | ⟨_, message, run, run'⟩ <;> rw [Nat.cast_one] at run
  · obtain ⟨byte, tail, left⟩ := List.exists_cons_of_length_pos enough
    obtain ⟨b', moved, within', same, view⟩ := movePos_run within enough
    rw [Nat.cast_one] at moved
    have here : position b = .ok b.pos b := rfl
    have taken : CborReading.advance 1 b.view = .ok [byte] b'.view := by
      rw [view]
      simp [CborReading.advance, BufferReader.view, left]
    have code : (ensureAvailable 1 >>= fun _ => position >>= fun pos => byteAt pos >>= fun byte =>
        movePos 1 >>= fun _ => f byte) b = f byte b' := by
      rw [bind_of_ok run, bind_of_ok here, bind_of_ok (byteAt_pos within left), bind_of_ok moved]
    have second := rest byte b' within' (by
      have place := congrArg CborReader.pos view
      simp only [BufferReader.view] at place
      omega)
    rw [SimulatesAt, code, bind_of_ok run', bind_of_ok taken, ← same]
    exact second
  · have code : (ensureAvailable 1 >>= fun _ => position >>= fun pos => byteAt pos >>= fun byte =>
        movePos 1 >>= fun _ => f byte) b = .error (.cborReader message) b := bind_of_error run
    rw [SimulatesAt, code, bind_of_error run']
    exact ⟨within, rfl, rfl⟩

end

theorem bytesAt_run {b : BufferReader} {width : ℕ} {index : ℤ} (low : 0 ≤ index)
    (enough : index + width ≤ b.buf.length) :
    bytesAt width index b = .ok ((b.buf.bytes.drop index.toNat).take width) b := by
  induction width generalizing index with
  | zero => simp [bytesAt]
  | succ width ih =>
    have bound := b.buf.length_le
    have size : b.buf.length = b.buf.bytes.length := rfl
    have inside : index.toNat < b.buf.bytes.length := by omega
    have byte : byteAt index b = .ok (b.buf.bytes[index.toNat]) b := by
      simp only [byteAt, List.getElem?_eq_getElem inside, if_neg (Int.not_lt.mpr low)]
    have next : int32 (index + 1) = index + 1 := int32_of_small (by omega) (by omega)
    have rest : bytesAt width (index + 1) b =
        .ok ((b.buf.bytes.drop (index + 1).toNat).take width) b :=
      ih (by omega) (by push_cast at enough; omega)
    have step : (index + 1).toNat = index.toNat + 1 := by omega
    rw [bytesAt, bind_of_ok byte, next, bind_of_ok rest, step, List.drop_eq_getElem_cons inside]
    rfl

theorem joinBytes_eq (bytes : Bytes) : joinBytes bytes = ofBigEndian bytes := by
  induction bytes with
  | nil => rfl
  | cons byte bytes ih =>
    have low := ofBigEndian_lt bytes
    have power : 256 ^ bytes.length = 2 ^ (8 * bytes.length) := by
      rw [Nat.pow_mul]
    rw [power] at low
    rw [joinBytes, ih, ofBigEndian_cons, Nat.shiftLeft_eq, power, Nat.mul_comm,
      Nat.two_pow_add_eq_or_of_lt low]

theorem readWide_simulates {width : ℕ} (small : width ≤ 8) :
    Simulates (readWide width) (do
      CborReading.ensureAvailable width
      return ofBigEndian (← CborReading.advance width)) := by
  intro b within
  rcases ensureAvailable_cases within small with ⟨enough, run, run'⟩ | ⟨_, message, run, run'⟩
  · have length := left_length within
    obtain ⟨b', moved, within', same, view⟩ := movePos_run within enough
    have here : position b = .ok b.pos b := rfl
    have bytes : bytesAt width b.pos b = .ok (b.left.take width) b :=
      bytesAt_run within.1 (by omega)
    have code : readWide width b = .ok (joinBytes (b.left.take width)) b' := by
      rw [readWide, bind_of_ok run, bind_of_ok here, bind_of_ok bytes, bind_of_ok moved]
      rfl
    rw [SimulatesAt, code, bind_of_ok run', joinBytes_eq]
    refine ⟨within', same, ?_⟩
    rw [view]
    rfl
  · rw [SimulatesAt, show readWide width b = _ from bind_of_error run, bind_of_error run']
    exact ⟨within, rfl, rfl⟩

theorem readArgument_simulates (ai : ℕ) :
    Simulates (readArgument ai) (CborReading.readArgument ai) := by
  unfold readArgument CborReading.readArgument
  refine .ite (fun _ => .pure ai) fun _ => ?_
  by_cases h₁ : ai = 24
  · simp only [if_pos h₁]
    exact readWide_simulates (by omega)
  · by_cases h₂ : ai = 25
    · simp only [if_neg h₁, if_pos h₂]
      exact readWide_simulates (by omega)
    · by_cases h₄ : ai = 26
      · simp only [if_neg h₁, if_neg h₂, if_pos h₄]
        exact readWide_simulates (by omega)
      · simp only [if_neg h₁, if_neg h₂, if_neg h₄]
        exact readWide_simulates (by omega)

theorem validateAdditionalInfo_simulates (ai : ℕ) :
    Simulates (validateAdditionalInfo ai) (CborReading.validateAdditionalInfo ai) := by
  unfold validateAdditionalInfo CborReading.validateAdditionalInfo
  refine .guard (.fail _) ?_
  exact .ite (fun _ => .fail _) fun _ => .pure ()

theorem readInitialByte_simulates : Simulates readInitialByte CborReading.readInitialByte := by
  refine .next fun byte b within started => .positioned within fun pos same => ?_
  have offset : ((pos : ℤ) - 1) = ((pos - 1 : ℕ) : ℤ) := by omega
  have initial : ofBigEndian [byte] = byte.toNat := by simp [ofBigEndian]
  rw [initial, offset]
  have rest : Simulates (validateAdditionalInfo (byte.toNat &&& 0x1F) >>= fun _ =>
        readArgument (byte.toNat &&& 0x1F) >>= fun value => pure (byte.toNat >>> 5, value))
      (CborReading.validateAdditionalInfo (byte.toNat &&& 0x1F) >>= fun _ =>
        CborReading.readArgument (byte.toNat &&& 0x1F) >>= fun value =>
          pure (byte.toNat >>> 5, value)) :=
    (validateAdditionalInfo_simulates _).bind fun _ =>
      (readArgument_simulates _).bind fun _ => .pure _
  exact Simulates.guard (.fail _) (.guard (.fail _) rest) b within

theorem ensureLength_cases {b : BufferReader} (within : b.Within) (length : ℕ) :
    (length ≤ b.left.length ∧ ensureLength length b = .ok () b ∧
      CborReading.ensureLength length b.view = .ok () b.view) ∨
    (∃ message, ensureLength length b = .error (.cborReader message) b ∧
      CborReading.ensureLength length b.view = .error (.cborReader message) b.view) := by
  have bound := b.buf.length_le
  have rest := left_length within
  have pos : b.pos = (b.pos.toNat : ℕ) := (Int.toNat_of_nonneg within.1).symm
  have size : b.buf.length = b.buf.bytes.length := rfl
  have left := (Within.arithmetic within (Nat.zero_le 8)).2
  obtain ⟨low, high⟩ := within
  have unsigned : toUlong (b.left.length : ℕ) = b.left.length := by
    simp only [toUlong]
    omega
  have view : b.view = ⟨b.pos.toNat, b.left⟩ := rfl
  rw [view]
  simp only [ensureLength, CborReading.ensureLength, get_bind, left, unsigned]
  by_cases enough : length ≤ b.left.length
  · have small : ¬ intMaxValue < length := by
      simp only [intMaxValue]
      omega
    simp only [Nat.not_lt.mpr enough, small, if_false]
    exact .inl ⟨enough, rfl, rfl⟩
  · simp only [Nat.not_le.mp enough, if_true]
    refine .inr ⟨_, rfl, ?_⟩
    conv_rhs => rw [pos]
    rfl

theorem readBytes_simulates (length : ℕ) :
    Simulates (readBytes length) (CborReading.readBytes length) := by
  intro b within
  rcases ensureLength_cases within length with ⟨enough, run, run'⟩ | ⟨message, run, run'⟩
  · have rest := left_length within
    obtain ⟨b', moved, within', same, view⟩ := movePos_run within enough
    have copied : copyBytes length b = .ok (b.left.take length) b := by
      rw [copyBytes, if_pos ⟨within.1, by omega⟩]
      rfl
    have code : readBytes length b = .ok (b.left.take length) b' := by
      rw [readBytes, bind_of_ok run, bind_of_ok copied, bind_of_ok moved]
      rfl
    rw [SimulatesAt, code]
    refine ⟨within', same, ?_⟩
    rw [CborReading.readBytes, bind_of_ok run', view]
    rfl
  · have code : readBytes length b = .error (.cborReader message) b := bind_of_error run
    rw [SimulatesAt, code]
    exact ⟨within, rfl, bind_of_error run'⟩

theorem skipBytes_simulates (length : ℕ) :
    Simulates (skipBytes length) (CborReading.skipBytes length) := by
  intro b within
  rcases ensureLength_cases within length with ⟨enough, run, run'⟩ | ⟨message, run, run'⟩
  · obtain ⟨b', moved, within', same, view⟩ := movePos_run within enough
    have code : skipBytes length b = .ok () b' := by
      rw [skipBytes, bind_of_ok run, moved]
    rw [SimulatesAt, code]
    refine ⟨within', same, ?_⟩
    rw [CborReading.skipBytes, bind_of_ok run', view]
    rfl
  · have code : skipBytes length b = .error (.cborReader message) b := bind_of_error run
    rw [SimulatesAt, code]
    exact ⟨within, rfl, bind_of_error run'⟩

theorem readInitialByte_started {b b' : BufferReader} (within : b.Within) {p : ℕ × ℕ}
    (run : readInitialByte b = .ok p b') : 0 < b'.pos := by
  obtain ⟨within', _, run'⟩ := (readInitialByte_simulates b within).ok run
  have reads : CborExactness.Reads b.left.length CborReading.readInitialByte _ :=
    CborExactness.readInitialByte_reads
  obtain ⟨bs, ⟨_, after⟩, _, head⟩ := (reads b.view le_rfl p b'.view).mp run'
  have place : b'.pos.toNat = b.pos.toNat + bs.length := congrArg CborReader.pos after
  have some := List.length_pos_of_ne_nil head.ne_nil
  omega

theorem expectMajorType_simulates (mt : ℕ) (expected : String) :
    Simulates (expectMajorType mt expected) (CborReading.expectMajorType mt expected) := by
  intro b within
  refine (readInitialByte_simulates b within).bind fun ⟨actual, value⟩ b' run within' => ?_
  have started := readInitialByte_started within run
  dsimp only
  by_cases same : actual = mt
  · rw [if_neg (not_not_intro same), if_neg (not_not_intro same)]
    exact Simulates.pure value b' within'
  · rw [if_pos same, if_pos same]
    refine .positioned within' fun pos here => ?_
    have offset : ((pos : ℤ) - 1) = ((pos - 1 : ℕ) : ℤ) := by omega
    rw [offset]
    exact (Simulates.fail _).bind (fun _ => .pure value) b' within'

theorem readUnsignedInt_simulates : Simulates readUnsignedInt CborReading.readUnsignedInt :=
  expectMajorType_simulates 0 _

theorem readNegativeInt_simulates : Simulates readNegativeInt CborReading.readNegativeInt :=
  (expectMajorType_simulates 1 _).bind fun _ =>
    .ite (fun _ => .positioned fun _ => (Simulates.fail _).bind fun _ => .pure _) fun _ => .pure _

theorem readByteString_simulates : Simulates readByteString CborReading.readByteString :=
  (expectMajorType_simulates 2 _).bind readBytes_simulates

theorem readTextString_simulates : Simulates readTextString CborReading.readTextString :=
  (expectMajorType_simulates 3 _).bind fun n => (readBytes_simulates n).bind fun _ => .pure _

theorem readArrayHeader_simulates : Simulates readArrayHeader CborReading.readArrayHeader :=
  (expectMajorType_simulates 4 _).bind fun _ =>
    .ite (fun _ => .positioned fun _ => (Simulates.fail _).bind fun _ => .pure _) fun _ => .pure _

theorem readMapHeader_simulates : Simulates readMapHeader CborReading.readMapHeader :=
  (expectMajorType_simulates 5 _).bind fun _ =>
    .ite (fun _ => .positioned fun _ => (Simulates.fail _).bind fun _ => .pure _) fun _ => .pure _

theorem movePos_simulates {b : BufferReader} (within : b.Within) (some : b.left ≠ []) {α : Type}
    {m : Reading α} {m' : Reader α} (rest : Simulates m m') :
    SimulatesAt b (movePos 1 >>= fun _ => m) (CborReading.advance 1 >>= fun _ => m') := by
  obtain ⟨b', moved, within', same, view⟩ := movePos_run within (List.length_pos_of_ne_nil some)
  rw [Nat.cast_one] at moved
  have taken : CborReading.advance 1 b.view = .ok (b.left.take 1) b'.view := by
    rw [view]
    rfl
  have second := rest b' within'
  simp only [SimulatesAt, bind_of_ok moved, bind_of_ok taken, ← same] at second ⊢
  exact second

theorem peekMajorType_simulates : Simulates peekMajorType CborReading.peekMajorType :=
  .peek fun _ b within _ => Simulates.pure _ b within

theorem readBool_simulates : Simulates readBool CborReading.readBool := by
  refine .peek fun byte b within some => ?_
  dsimp only
  by_cases true : byte.toNat = 0xF5
  · rw [if_pos true, if_pos true]
    exact movePos_simulates within some (.pure _)
  rw [if_neg true, if_neg true]
  by_cases false : byte.toNat = 0xF4
  · rw [if_pos false, if_pos false]
    exact movePos_simulates within some (.pure _)
  · rw [if_neg false, if_neg false]
    exact Simulates.positioned (fun _ => .fail _) b within

theorem validateAdditionalInfo_ok {ai : ℕ} {b b' : BufferReader}
    (run : validateAdditionalInfo ai b = .ok () b') : b' = b := by
  simp only [validateAdditionalInfo, ite_run] at run
  split_ifs at run
  all_goals first | exact (pure_ok.mp run).2.symm | cases run

theorem skipItem_simulates (fuel : ℕ) :
    Simulates (skipItem fuel) (CborReading.skipItem fuel) := by
  induction fuel with
  | zero => exact fun _ within => ⟨within, rfl, rfl⟩
  | succ fuel ih =>
    refine .peek fun byte b within some => ?_
    refine (validateAdditionalInfo_simulates _ b within).bind fun _ b' checked within' => ?_
    obtain rfl := validateAdditionalInfo_ok checked
    generalize byte.toNat >>> 5 = mt
    match mt with
    | 0 | 1 => exact (readInitialByte_simulates.bind fun _ => .pure ()) b' within'
    | 2 | 3 => exact (readInitialByte_simulates.bind fun p => skipBytes_simulates p.2) b' within'
    | 4 =>
      exact (readInitialByte_simulates.bind fun p => .times (fun _ => ih) p.2 ()) b' within'
    | 5 =>
      exact (readInitialByte_simulates.bind fun p =>
        .times (fun _ => ih.bind fun _ => ih) p.2 ()) b' within'
    | 7 =>
      by_cases one : 20 ≤ byte.toNat &&& 0x1F ∧ byte.toNat &&& 0x1F ≤ 23
      · rw [if_pos one, if_pos one]
        exact movePos_simulates within' some (.pure ())
      · rw [if_neg one, if_neg one]
        exact Simulates.positioned (fun _ => .fail _) b' within'
    | 6 | n + 8 => exact Simulates.positioned (fun _ => .fail _) b' within'

end KeePassKeyWin.CborBuffer
