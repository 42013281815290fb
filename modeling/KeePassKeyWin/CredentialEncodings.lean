import KeePassKeyWin.Base64Codec
import KeePassKeyWin.CborWriting
import KeePassKeyWin.PlatformServices
import Mathlib.Data.List.DropRight

set_option autoImplicit false

/-!
# Credential ids, public keys and authenticator data as bytes and text
-/
namespace KeePassKeyWin.CredentialEncodings
open ByteStrings JsonRpc PlatformServices CborCodec CborWriting

def toBase64String (data : Bytes) : String := String.ofList (Base64Codec.encode data)

def isBase64White (c : Char) : Bool := [' ', '\t', '\n', '\r'].contains c

def fromBase64String (P : Platform) (s : String) : Except Exn Bytes :=
  match Base64Codec.decode (s.toList.filter fun c => !isBase64White c) with
  | some data => .ok data
  | none => .error (.format (P.base64Message s))

def replaceChar (old new : Char) (cs : List Char) : List Char :=
  cs.map fun c => if c = old then new else c

/-- `String.Length`, in UTF-16 code units. -/
def utf16Length (cs : List Char) : ℕ := (cs.map fun c => if c.toNat < 0x10000 then 1 else 2).sum

namespace Base64Url

def encode (data : Bytes) : String :=
  String.ofList (replaceChar '/' '_' (replaceChar '+' '-'
    ((Base64Codec.encode data).rdropWhile (· == '='))))

def decode (P : Platform) (s : String) : Except Exn Bytes :=
  let padded := replaceChar '_' '/' (replaceChar '-' '+' s.toList)
  let padding := match utf16Length padded % 4 with
    | 2 => ['=', '=']
    | 3 => ['=']
    | _ => []
  fromBase64String P (String.ofList (padded ++ padding))

end Base64Url

theorem toBase64String_ne_empty {data : Bytes} (h : data ≠ []) : toBase64String data ≠ "" := by
  intro empty
  have chars : Base64Codec.encode data = Base64Codec.encode [] := String.ofList_injective empty
  exact h (Base64Codec.encode_injective chars)

theorem alphabet_plain : ∀ c ∈ Base64Codec.alphabet,
    isBase64White c = false ∧ (c == '=') = false ∧ c.toNat < 0x10000 ∧ c ≠ '-' ∧ c ≠ '_' := by
  intro c hc
  obtain ⟨i, hi, rfl⟩ := List.mem_map.mp hc
  have bound : i < 64 := List.mem_range.mp hi
  clear hc hi
  decide +kernel +revert

theorem filter_white {cs : List Char} (h : ∀ c ∈ cs, c ∈ Base64Codec.alphabet ∨ c = '=') :
    (cs.filter fun c => !isBase64White c) = cs := by
  rw [List.filter_eq_self]
  intro c hc
  rcases h c hc with hd | rfl
  · simp [(alphabet_plain c hd).1]
  · rfl

theorem encode_digits (data : Bytes) :
    ∀ c ∈ Base64Codec.encode data, c ∈ Base64Codec.alphabet ∨ c = '=' := by
  obtain ⟨text, pad, split, digits, pads, _⟩ := Base64Codec.encode_shape data
  intro c hc
  rw [split, List.mem_append] at hc
  exact hc.imp (digits c) (pads c)

@[simp] theorem fromBase64String_toBase64String (P : Platform) (data : Bytes) :
    fromBase64String P (toBase64String data) = .ok data := by
  simp [fromBase64String, toBase64String, filter_white (encode_digits data),
    Base64Codec.decode_encode]

theorem rdropWhile_padding {text pad : List Char} (digits : ∀ c ∈ text, c ∈ Base64Codec.alphabet)
    (pads : ∀ c ∈ pad, c = '=') : (text ++ pad).rdropWhile (· == '=') = text := by
  have hpad : ∀ c ∈ pad.reverse, (c == '=') = true := by simpa using pads
  have htext : text.reverse.dropWhile (· == '=') = text.reverse := by
    rw [List.dropWhile_eq_self_iff]
    intro hl
    have hmem : text.reverse[0] ∈ text := by
      rw [← List.mem_reverse]
      exact List.getElem_mem hl
    simpa using (alphabet_plain _ (digits _ hmem)).2.1
  rw [List.rdropWhile, List.reverse_append, List.dropWhile_append_of_pos hpad, htext,
    List.reverse_reverse]

theorem utf16Length_digits {cs : List Char} (h : ∀ c ∈ cs, c ∈ Base64Codec.alphabet) :
    utf16Length cs = cs.length := by
  induction cs with
  | nil => rfl
  | cons c cs ih =>
    have hc := (alphabet_plain c (h c (by simp))).2.2.1
    have hcs := ih fun d hd => h d (by simp [hd])
    simp only [utf16Length] at hcs
    simp [utf16Length, hc, hcs]
    omega

theorem replaceChar_undo {cs : List Char} (h : ∀ c ∈ cs, c ∈ Base64Codec.alphabet) :
    replaceChar '_' '/' (replaceChar '-' '+'
      (replaceChar '/' '_' (replaceChar '+' '-' cs))) = cs := by
  simp only [replaceChar, List.map_map]
  conv_rhs => rw [← List.map_id cs]
  apply List.map_congr_left
  intro c hc
  obtain ⟨_, _, _, hdash, hunder⟩ := alphabet_plain c (h c hc)
  by_cases hplus : c = '+'
  · subst hplus
    rfl
  · by_cases hslash : c = '/'
    · subst hslash
      rfl
    · simp [hplus, hslash, hdash, hunder]

@[simp] theorem Base64Url.decode_encode (P : Platform) (data : Bytes) :
    Base64Url.decode P (Base64Url.encode data) = .ok data := by
  obtain ⟨text, pad, split, digits, pads, width, short⟩ := Base64Codec.encode_shape data
  have trimmed : (Base64Codec.encode data).rdropWhile (· == '=') = text := by
    rw [split, rdropWhile_padding digits pads]
  have padding : (match utf16Length text % 4 with
      | 2 => ['=', '=']
      | 3 => ['=']
      | _ => []) = pad := by
    rw [utf16Length_digits digits]
    match pad, pads, width, short with
    | [], _, width, _ =>
      have hm : text.length % 4 = 0 := by simpa using width
      simp [hm]
    | [c], pads, width, _ =>
      have hm : text.length % 4 = 3 := by simp only [List.length_singleton] at width; omega
      simp [hm, pads c (by simp)]
    | [c, d], pads, width, _ =>
      have hm : text.length % 4 = 2 := by
        simp only [List.length_cons, List.length_nil] at width; omega
      simp [hm, pads c (by simp), pads d (by simp)]
    | _ :: _ :: _ :: _, _, _, short =>
      simp only [List.length_cons] at short
      omega
  have result : Base64Url.decode P (Base64Url.encode data) =
      fromBase64String P (String.ofList (text ++ pad)) := by
    simp only [Base64Url.decode, Base64Url.encode, String.toList_ofList, trimmed,
      replaceChar_undo digits]
    rw [padding]
  rw [result, ← split]
  exact fromBase64String_toBase64String P data

theorem fromBase64String_length_le {P : Platform} {s : String} {data : Bytes}
    (h : fromBase64String P s = .ok data) : data.length ≤ s.toList.length := by
  unfold fromBase64String at h
  split at h
  · rename_i decoded hd
    obtain rfl := Except.ok.inj h
    exact (Base64Codec.decode_length_le hd).trans (List.length_filter_le _ _)
  · simp at h

theorem Base64Url.decode_length_le {P : Platform} {s : String} {data : Bytes}
    (h : Base64Url.decode P s = .ok data) : data.length ≤ s.toList.length + 2 := by
  unfold Base64Url.decode at h
  have bound := fromBase64String_length_le h
  simp only [String.toList_ofList, List.length_append, replaceChar, List.length_map] at bound
  refine bound.trans (Nat.add_le_add_left ?_ _)
  split <;> simp

theorem Base64Url.encode_injective (P : Platform) {as bs : Bytes}
    (h : Base64Url.encode as = Base64Url.encode bs) : as = bs := by
  have hb := Base64Url.decode_encode P bs
  rw [← h, Base64Url.decode_encode] at hb
  exact Except.ok.inj hb

theorem Base64Url.encode_eq_empty {data : Bytes} : Base64Url.encode data = "" ↔ data = [] := by
  constructor
  · intro h
    obtain ⟨text, pad, split, digits, pads, width, short⟩ := Base64Codec.encode_shape data
    have trimmed : (Base64Codec.encode data).rdropWhile (· == '=') = text := by
      rw [split, rdropWhile_padding digits pads]
    have none : text = [] := by
      have chars := congrArg String.toList h
      simpa [Base64Url.encode, trimmed, replaceChar] using chars
    have empty : pad = [] := by
      rw [← List.length_eq_zero_iff]
      simp only [none, List.length_nil] at width
      omega
    have decoded := Base64Codec.decode_encode data
    rw [split, none, empty] at decoded
    exact (Option.some.inj decoded).symm
  · rintro rfl
    rfl

def argumentException (message parameter : String) : Exn :=
  .other s!"{message}\r\nParameter name: {parameter}"

namespace CoseKey

def ktyLabel : ℕ := 1
def algLabel : ℕ := 3
def crvLabel : ℤ := -1
def xLabel : ℤ := -2
def yLabel : ℤ := -3
def ktyEc2 : ℕ := 2
def algEs256 : ℤ := -7
def crvP256 : ℕ := 1
def ktyRsa : ℕ := 3
def algRs256 : ℤ := -257
def nLabel : ℤ := -1
def eLabel : ℤ := -2

def encode (x y : Bytes) : Except Exn Bytes := do
  if x.length ≠ 32 then throw (argumentException "x must be 32 bytes." "x")
  if y.length ≠ 32 then throw (argumentException "y must be 32 bytes." "y")
  return writeMap [
    (writeUnsignedInt ktyLabel, writeUnsignedInt ktyEc2),
    (writeUnsignedInt algLabel, writeNegativeInt algEs256),
    (writeNegativeInt crvLabel, writeUnsignedInt crvP256),
    (writeNegativeInt xLabel, writeByteString x),
    (writeNegativeInt yLabel, writeByteString y)]

def encodeRsa (n e : Bytes) : Except Exn Bytes := do
  if n = [] then throw (argumentException "n must not be empty." "n")
  if e = [] then throw (argumentException "e must not be empty." "e")
  return writeMap [
    (writeUnsignedInt ktyLabel, writeUnsignedInt ktyRsa),
    (writeUnsignedInt algLabel, writeNegativeInt algRs256),
    (writeNegativeInt nLabel, writeByteString n),
    (writeNegativeInt eLabel, writeByteString e)]

end CoseKey

def ec2Key (x y : Bytes) : Value :=
  .map [(.int 1, .int 2), (.int 3, .int (-7)), (.int (-1), .int 1), (.int (-2), .bytes x),
    (.int (-3), .bytes y)]

def rsaKey (n e : Bytes) : Value :=
  .map [(.int 1, .int 3), (.int 3, .int (-257)), (.int (-1), .bytes n), (.int (-2), .bytes e)]

theorem CoseKey.encode_eq {x y : Bytes} (hx : x.length = 32) (hy : y.length = 32) :
    CoseKey.encode x y = .ok (CborCodec.encode (ec2Key x y)) := by
  have order : ([.int 1, .int 3, .int (-1), .int (-2), .int (-3)].map
      CborCodec.encode).Pairwise bytesLe := by
    simp only [List.map_cons, List.map_nil, Value.int, CborCodec.encode]
    decide
  have written := writeMap_eq [(.int 1, .int 2), (.int 3, .int (-7)), (.int (-1), .int 1),
    (.int (-2), .bytes x), (.int (-3), .bytes y)] (by simpa using order)
  rw [ec2Key, ← written]
  simp [CoseKey.encode, hx, hy, ktyLabel, ktyEc2, algLabel, algEs256, crvLabel, crvP256, xLabel,
    yLabel, writeUnsignedInt_int, writeNegativeInt_int]
  rfl

theorem CoseKey.encodeRsa_eq {n e : Bytes} (hn : n ≠ []) (he : e ≠ []) :
    CoseKey.encodeRsa n e = .ok (CborCodec.encode (rsaKey n e)) := by
  have order : ([.int 1, .int 3, .int (-1), .int (-2)].map CborCodec.encode).Pairwise bytesLe := by
    simp only [List.map_cons, List.map_nil, Value.int, CborCodec.encode]
    decide
  have written := writeMap_eq [(.int 1, .int 3), (.int 3, .int (-257)),
    (.int (-1), .bytes n), (.int (-2), .bytes e)] (by simpa using order)
  rw [rsaKey, ← written]
  simp [CoseKey.encodeRsa, hn, he, ktyLabel, ktyRsa, algLabel, algRs256, nLabel, eLabel,
    writeUnsignedInt_int, writeNegativeInt_int]
  rfl

namespace AuthDataBuilder

def flagUP : UInt8 := 0x01
def flagUV : UInt8 := 0x04
def flagAT : UInt8 := 0x40

def writeUint32Be (value : ℕ) : Bytes :=
  [byteOf (value >>> 24), byteOf (value >>> 16), byteOf (value >>> 8), byteOf value]

def writeUint16Be (value : ℕ) : Bytes := [byteOf (value >>> 8), byteOf value]

def build (P : Platform) (rpId : String) (credentialId coseKey : Bytes) (userVerified : Bool) :
    Except Exn Bytes := do
  if credentialId = [] then
    throw (argumentException "credentialId must not be empty." "credentialId")
  if 0xFFFF < credentialId.length then
    throw (argumentException "credentialId exceeds maximum length of 65535." "credentialId")
  if coseKey = [] then throw (argumentException "coseKey must not be empty." "coseKey")
  let rpIdHash := P.sha256 (utf8 rpId)
  let flags := if userVerified then flagUP ||| flagAT ||| flagUV else flagUP ||| flagAT
  return rpIdHash ++ [flags] ++ writeUint32Be 0 ++ List.replicate 16 0 ++
    writeUint16Be credentialId.length ++ credentialId ++ coseKey

def buildAssertion (P : Platform) (rpId : String) (userVerified : Bool) (signCount : ℕ) : Bytes :=
  let rpIdHash := P.sha256 (utf8 rpId)
  let flags := if userVerified then flagUP ||| flagUV else flagUP
  rpIdHash ++ [flags] ++ writeUint32Be signCount

end AuthDataBuilder

open AuthDataBuilder

theorem writeUint32Be_eq (value : ℕ) : writeUint32Be value = bigEndian 4 value := by
  simp [writeUint32Be, bigEndian, byteOf, Nat.shiftRight_eq_div_pow]

theorem writeUint16Be_eq (value : ℕ) : writeUint16Be value = bigEndian 2 value := by
  simp [writeUint16Be, bigEndian, byteOf, Nat.shiftRight_eq_div_pow]

@[simp] theorem buildAssertion_length (P : Platform) (rpId : String) (uv : Bool) (n : ℕ) :
    (buildAssertion P rpId uv n).length = 37 := by
  simp [buildAssertion, P.sha256_length, writeUint32Be]

theorem buildAssertion_take (P : Platform) (rpId : String) (uv : Bool) (n : ℕ) :
    (buildAssertion P rpId uv n).take 32 = P.sha256 (utf8 rpId) := by
  rw [buildAssertion, List.append_assoc, ← P.sha256_length (utf8 rpId), List.take_left]

theorem buildAssertion_signCount (P : Platform) (rpId : String) (uv : Bool) {n : ℕ}
    (hn : n < 2 ^ 32) : ofBigEndian ((buildAssertion P rpId uv n).drop 33) = n := by
  have hlen : (P.sha256 (utf8 rpId) ++ [if uv then flagUP ||| flagUV else flagUP]).length = 33 := by
    simp [P.sha256_length]
  rw [buildAssertion, List.drop_append_of_le_length (by omega), List.drop_of_length_le (by omega),
    List.nil_append, writeUint32Be_eq, ofBigEndian_bigEndian_of_lt (by omega)]

theorem build_ok (P : Platform) (rpId : String) (uv : Bool) {credentialId coseKey : Bytes}
    (hid : credentialId ≠ []) (hlen : credentialId.length ≤ 0xFFFF) (hkey : coseKey ≠ []) :
    build P rpId credentialId coseKey uv = .ok (P.sha256 (utf8 rpId) ++
      [if uv then flagUP ||| flagAT ||| flagUV else flagUP ||| flagAT] ++ bigEndian 4 0 ++
        List.replicate 16 0 ++ bigEndian 2 credentialId.length ++ credentialId ++ coseKey) := by
  have hlong : ¬ 0xFFFF < credentialId.length := by omega
  simp only [build, hid, hlong, hkey, if_false, writeUint32Be_eq, writeUint16Be_eq]
  rfl

end KeePassKeyWin.CredentialEncodings
