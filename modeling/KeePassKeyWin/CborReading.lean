import KeePassKeyWin.JsonRpc
import KeePassKeyWin.OutcomeRules

set_option autoImplicit false

/-!
# Reading CBOR

A reader is its position and the bytes from there to the end of the buffer.
-/
namespace KeePassKeyWin.CborReading
open ByteStrings JsonRpc OutcomeRules

structure CborReader where
  pos : ℕ
  rest : Bytes

abbrev Reader := EStateM Exn CborReader

def fail {α : Type} (message : String) : Reader α := throw (.cborReader message)

def ensureAvailable (count : ℕ) : Reader Unit := do
  let ⟨pos, rest⟩ ← get
  let left := rest.length
  if left < count then
    fail s!"Unexpected end of CBOR input at offset {pos}: need {count} more byte(s), {left} available."

/-- The next `count` bytes, known to be there. -/
def advance (count : ℕ) : Reader Bytes := fun r =>
  .ok (r.rest.take count) ⟨r.pos + count, r.rest.drop count⟩

def peekByte : Reader ℕ := fun r => .ok (ofBigEndian (r.rest.take 1)) r

def position : Reader ℕ := fun r => .ok r.pos r

def validateAdditionalInfo (ai : ℕ) : Reader Unit := do
  if ai = 31 then
    fail "Indefinite-length CBOR items are not supported (CTAP2 §6 forbids them)."
  if 28 ≤ ai ∧ ai ≤ 30 then
    fail s!"Reserved CBOR additional-info value {ai} is not supported."

def readArgument (ai : ℕ) : Reader ℕ :=
  if ai ≤ 23 then return ai
  else do
    let width := if ai = 24 then 1 else if ai = 25 then 2 else if ai = 26 then 4 else 8
    ensureAvailable width
    return ofBigEndian (← advance width)

def readInitialByte : Reader (ℕ × ℕ) := do
  ensureAvailable 1
  let initial := ofBigEndian (← advance 1)
  let mt := initial >>> 5
  let ai := initial &&& 0x1F
  let offset := (← position) - 1
  if mt = 6 then
    fail s!"CBOR tags (major type 6) are not supported at offset {offset}."
  if mt = 7 then
    fail s!"CBOR floats/simple values (major type 7) are not supported at offset {offset}."
  validateAdditionalInfo ai
  return (mt, ← readArgument ai)

def intMaxValue : ℕ := 2 ^ 31 - 1

/-- The bound check shared by reading and skipping a string's content. -/
def ensureLength (length : ℕ) : Reader Unit := do
  let ⟨pos, rest⟩ ← get
  let left := rest.length
  if left < length then
    fail s!"Byte/text string claims length {length} but only {left} bytes remain at offset {pos}."
  if intMaxValue < length then
    fail s!"Byte/text string length {length} exceeds Int32.MaxValue."

def readBytes (length : ℕ) : Reader Bytes := do
  ensureLength length
  advance length

def skipBytes (length : ℕ) : Reader Unit := do
  ensureLength length
  let _ ← advance length

def expectMajorType (mt : ℕ) (expected : String) : Reader ℕ := do
  let (actual, value) ← readInitialByte
  if actual ≠ mt then
    let offset := (← position) - 1
    fail s!"Expected {expected} (major type {mt}), got major type {actual} at offset {offset}."
  return value

def peekMajorType : Reader ℕ := do
  ensureAvailable 1
  return (← peekByte) >>> 5

def readUnsignedInt : Reader ℕ := expectMajorType 0 "unsigned integer"

def readNegativeInt : Reader ℤ := do
  let value ← expectMajorType 1 "negative integer"
  if 2 ^ 63 - 1 < value then
    let pos ← position
    fail s!"Negative integer out of Int64 range at offset {pos}."
  return -1 - (value : ℤ)

def readByteString : Reader Bytes := do
  readBytes (← expectMajorType 2 "byte string")

def readTextString : Reader String := do
  return getString (← readBytes (← expectMajorType 3 "text string"))

def readArrayHeader : Reader ℕ := do
  let count ← expectMajorType 4 "array header"
  if intMaxValue < count then
    let pos ← position
    fail s!"Array count {count} exceeds Int32.MaxValue at offset {pos}."
  return count

def readMapHeader : Reader ℕ := do
  let count ← expectMajorType 5 "map header"
  if intMaxValue < count then
    let pos ← position
    fail s!"Map pair count {count} exceeds Int32.MaxValue at offset {pos}."
  return count

def hexDigit (n : ℕ) : Char := "0123456789ABCDEF".toList.getD n '0'

def readBool : Reader Bool := do
  ensureAvailable 1
  let b ← peekByte
  if b = 0xF5 then
    let _ ← advance 1
    return true
  if b = 0xF4 then
    let _ ← advance 1
    return false
  let hex := String.ofList [hexDigit (b / 16), hexDigit (b % 16)]
  let pos ← position
  fail s!"Expected CBOR bool (0xF4/0xF5), got 0x{hex} at offset {pos}."

/-- One item of any type. The fuel bounds the nesting, which the length of the input does too. -/
def skipItem : ℕ → Reader Unit
  | 0 => throw (.other "Insufficient execution stack.")
  | fuel + 1 => do
    ensureAvailable 1
    let initial ← peekByte
    let mt := initial >>> 5
    let ai := initial &&& 0x1F
    validateAdditionalInfo ai
    match mt with
    | 0 | 1 => let _ ← readInitialByte
    | 2 | 3 => skipBytes (← readInitialByte).2
    | 4 => times (fun _ => skipItem fuel) (← readInitialByte).2 ()
    | 5 => times (fun _ => do skipItem fuel; skipItem fuel) (← readInitialByte).2 ()
    | 7 =>
      if 20 ≤ ai ∧ ai ≤ 23 then
        let _ ← advance 1
      else
        let pos ← position
        fail s!"CBOR major type 7 with additional-info {ai} not supported at offset {pos}."
    | _ =>
      let pos ← position
      fail s!"Unsupported major type {mt} at offset {pos}."

def skipValue : Reader Unit := fun r => skipItem (r.rest.length + 1) r

def parse {α : Type} (reader : Reader α) (data : Bytes) : Except Exn α :=
  match reader ⟨0, data⟩ with
  | .ok a _ => .ok a
  | .error e _ => .error e

theorem parse_ok {α : Type} {reader : Reader α} {data : Bytes} {a : α} :
    parse reader data = .ok a ↔ ∃ r, reader ⟨0, data⟩ = .ok a r := by
  unfold parse
  cases reader ⟨0, data⟩ <;> simp

end KeePassKeyWin.CborReading
