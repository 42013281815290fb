import KeePassKeyWin.JsonRpc
import KeePassKeyWin.OutcomeRules
import KeePassKeyWin.SidecarServices

set_option autoImplicit false

/-!
# How the sidecar reads a result

The structs that `from_value` fills, `parse_add_credentials_fields`, and what
`reconcile_vault_with_os` makes of one item. A result reaches the sidecar as the token that the
plugin wrote.
-/
namespace KeePassKeyWin.SidecarResults
open ByteStrings JsonRpc OutcomeRules CredentialEncodings SidecarServices

def isHighSurrogate (u : UInt16) : Bool := 0xD800 ≤ u.toNat && u.toNat < 0xDC00

def isLowSurrogate (u : UInt16) : Bool := 0xDC00 ≤ u.toNat && u.toNat < 0xE000

def encodeChar (c : Char) : List UInt16 :=
  if c.toNat < 0x10000 then [UInt16.ofNat c.toNat]
  else
    [UInt16.ofNat (0xD800 + (c.toNat - 0x10000) / 0x400),
      UInt16.ofNat (0xDC00 + (c.toNat - 0x10000) % 0x400)]

def encodeUtf16 (s : String) : List UInt16 := s.toList.flatMap encodeChar

def encodeUtf16Nul (s : String) : List UInt16 := encodeUtf16 s ++ [0]

def ofUnit (u : UInt16) : Char :=
  if isHighSurrogate u || isLowSurrogate u then Char.ofNat 0xFFFD else Char.ofNat u.toNat

def ofPair (u v : UInt16) : Char :=
  Char.ofNat (0x10000 + (u.toNat - 0xD800) * 0x400 + (v.toNat - 0xDC00))

/-- A surrogate without its partner reads as U+FFFD. -/
def decodeUtf16Lossy : List UInt16 → List Char
  | [] => []
  | [u] => [ofUnit u]
  | u :: v :: rest =>
    if isHighSurrogate u && isLowSurrogate v then ofPair u v :: decodeUtf16Lossy rest
    else ofUnit u :: decodeUtf16Lossy (v :: rest)

def fromUtf16Lossy (w : List UInt16) : String := String.ofList (decodeUtf16Lossy w)

def stripNul (w : List UInt16) : List UInt16 := if w.getLast? = some 0 then w.dropLast else w

theorem char_valid (c : Char) : c.toNat < 0xD800 ∨ 0xDFFF < c.toNat ∧ c.toNat < 0x110000 :=
  c.valid

theorem toNat_unit {n : ℕ} (h : n < 0x10000) : (UInt16.ofNat n).toNat = n := by
  rw [UInt16.toNat_ofNat']
  exact Nat.mod_eq_of_lt h

theorem decodeUtf16Lossy_plain {u : UInt16} (h : isHighSurrogate u = false)
    (rest : List UInt16) : decodeUtf16Lossy (u :: rest) = ofUnit u :: decodeUtf16Lossy rest := by
  cases rest with
  | nil => rfl
  | cons v rest => simp [decodeUtf16Lossy, h]

theorem decodeUtf16Lossy_encodeChar (c : Char) (rest : List UInt16) :
    decodeUtf16Lossy (encodeChar c ++ rest) = c :: decodeUtf16Lossy rest := by
  have valid := char_valid c
  unfold encodeChar
  split_ifs with small
  · have unit := toNat_unit small
    have high : isHighSurrogate (UInt16.ofNat c.toNat) = false := by
      simp only [isHighSurrogate, unit, Bool.and_eq_false_iff, decide_eq_false_iff_not]
      omega
    have low : isLowSurrogate (UInt16.ofNat c.toNat) = false := by
      simp only [isLowSurrogate, unit, Bool.and_eq_false_iff, decide_eq_false_iff_not]
      omega
    rw [List.singleton_append, decodeUtf16Lossy_plain high]
    simp [ofUnit, high, low, unit]
  · have first := toNat_unit (n := 0xD800 + (c.toNat - 0x10000) / 0x400) (by omega)
    have second := toNat_unit (n := 0xDC00 + (c.toNat - 0x10000) % 0x400) (by omega)
    have high : isHighSurrogate (UInt16.ofNat (0xD800 + (c.toNat - 0x10000) / 0x400)) = true := by
      simp only [isHighSurrogate, first, Bool.and_eq_true, decide_eq_true_eq]
      omega
    have low : isLowSurrogate (UInt16.ofNat (0xDC00 + (c.toNat - 0x10000) % 0x400)) = true := by
      simp only [isLowSurrogate, second, Bool.and_eq_true, decide_eq_true_eq]
      omega
    have joined : 0x10000 + (0xD800 + (c.toNat - 0x10000) / 0x400 - 0xD800) * 0x400 +
        (0xDC00 + (c.toNat - 0x10000) % 0x400 - 0xDC00) = c.toNat := by omega
    simp only [List.cons_append, List.nil_append, decodeUtf16Lossy, high, low, Bool.and_self,
      if_true, ofPair, first, second, joined, Char.ofNat_toNat]

theorem decodeUtf16Lossy_flatMap (cs : List Char) :
    decodeUtf16Lossy (cs.flatMap encodeChar) = cs := by
  induction cs with
  | nil => rfl
  | cons c cs ih => rw [List.flatMap_cons, decodeUtf16Lossy_encodeChar, ih]

theorem fromUtf16Lossy_encodeUtf16Nul (s : String) :
    fromUtf16Lossy (stripNul (encodeUtf16Nul s)) = s := by
  simp [stripNul, encodeUtf16Nul, fromUtf16Lossy, encodeUtf16, decodeUtf16Lossy_flatMap]

def asStr : JToken → Option String
  | .str s => some s
  | _ => none

def asBool : JToken → Option Bool
  | .boolean b => some b
  | _ => none

/-- The members of a struct: by name from an object, whatever else it holds, and by position
from an array of just as many. -/
def members (names : List String) : JToken → Option (List JToken)
  | .object fields => names.mapM fun name => fields.lookup name
  | .array items => if items.length = names.length then some items else none
  | _ => none

def vecFromValue {α : Type} (fromValue : JToken → Option α) : JToken → Option (List α)
  | .array items => items.mapM fromValue
  | _ => none

structure CreatePasskeyResult where
  credentialId : String
  publicKeyCose : String
  authData : String

def CreatePasskeyResult.fromValue (v : JToken) : Option CreatePasskeyResult := do
  let [credentialId, publicKeyCose, authData] ←
    members ["credentialId", "publicKeyCose", "authData"] v | none
  return ⟨← asStr credentialId, ← asStr publicKeyCose, ← asStr authData⟩

structure SignAssertionResult where
  signature : String

def SignAssertionResult.fromValue (v : JToken) : Option SignAssertionResult := do
  let [signature] ← members ["signature"] v | none
  return ⟨← asStr signature⟩

structure CredentialInfo where
  credentialId : String
  userName : String
  rpId : String

def CredentialInfo.fromValue (v : JToken) : Option CredentialInfo := do
  let [credentialId, userName, rpId] ← members ["credentialId", "userName", "rpId"] v | none
  return ⟨← asStr credentialId, ← asStr userName, ← asStr rpId⟩

structure DeleteCredentialResult where
  deleted : Bool

def DeleteCredentialResult.fromValue (v : JToken) : Option DeleteCredentialResult := do
  let [deleted] ← members ["deleted"] v | none
  return ⟨← asBool deleted⟩

/-- `v[key]`: null for a missing key and for what is not an object. -/
def index : JToken → String → JToken
  | .object fields, key => (fields.lookup key).getD .null
  | _, _ => .null

structure AddCredentialsFields where
  credentialId : Bytes
  userHandle : Bytes
  rpIdW : List UInt16
  rpNameW : List UInt16
  userNameW : List UInt16
  userDispW : List UInt16

def okOr {α : Type} (x : Option α) (error : String) : Except String α :=
  match x with
  | some a => .ok a
  | none => .error error

def parseAddCredentialsFields (B : SidecarBase64) (v : JToken) :
    Except String AddCredentialsFields := do
  let credentialIdB64 ← okOr (asStr (index v "credentialIdB64Url")) "credentialIdB64Url"
  let rpId ← okOr (asStr (index v "rpId")) "rpId"
  let rpName ← okOr (asStr (index v "rpName")) "rpName"
  let userHandleB64 ← okOr (asStr (index v "userHandleB64Url")) "userHandleB64Url"
  let userName ← okOr (asStr (index v "userName")) "userName"
  let userDisp ← okOr (asStr (index v "userDisplayName")) "userDisplayName"
  let credentialId ← okOr (B.urlSafeNoPad credentialIdB64) "credentialIdB64Url decode"
  let userHandle ← okOr (B.urlSafeNoPad userHandleB64) "userHandleB64Url decode"
  return {
    credentialId
    userHandle
    rpIdW := encodeUtf16Nul rpId
    rpNameW := encodeUtf16Nul rpName
    userNameW := encodeUtf16Nul userName
    userDispW := encodeUtf16Nul userDisp }

/-- The response that `dispatch_operation` hands to Windows. -/
def responseBytes (B : SidecarBase64) (v : JToken) : Option Bytes :=
  (asStr (index v "cbor")).map fun text => (B.standard text).getD []

def vaultId (B : SidecarBase64) (item : JToken) : Option Bytes := do
  B.urlSafeNoPad (← asStr (index item "credentialId"))

/-- The item under the field names that `parse_add_credentials_fields` reads. -/
def translated (item : JToken) : JToken := .object [
  ("credentialIdB64Url", index item "credentialId"),
  ("rpId", index item "rpId"),
  ("rpName", index item "rpName"),
  ("userHandleB64Url", index item "userHandle"),
  ("userName", index item "userName"),
  ("userDisplayName", index item "userDisplayName")]

/-- A result with these six texts is accepted as soon as the two encoded ones decode. -/
theorem parseAddCredentialsFields_ok {B : SidecarBase64} {v : JToken}
    {credentialId userHandle : Bytes} {rpId rpName userName userDisp : String}
    (hid : index v "credentialIdB64Url" = .str (Base64Url.encode credentialId))
    (hrp : index v "rpId" = .str rpId) (hname : index v "rpName" = .str rpName)
    (hhandle : index v "userHandleB64Url" = .str (Base64Url.encode userHandle))
    (huser : index v "userName" = .str userName)
    (hdisp : index v "userDisplayName" = .str userDisp) :
    parseAddCredentialsFields B v = .ok ⟨credentialId, userHandle, encodeUtf16Nul rpId,
      encodeUtf16Nul rpName, encodeUtf16Nul userName, encodeUtf16Nul userDisp⟩ := by
  have idDecodes : B.urlSafeNoPad (Base64Url.encode credentialId) = some credentialId :=
    B.urlSafeNoPad_iff.mpr rfl
  have handleDecodes : B.urlSafeNoPad (Base64Url.encode userHandle) = some userHandle :=
    B.urlSafeNoPad_iff.mpr rfl
  simp only [parseAddCredentialsFields, hid, hrp, hname, hhandle, huser, hdisp, asStr, okOr, bind,
    Except.bind, idDecodes, handleDecodes]
  rfl

theorem okOr_ok {α : Type} {x : Option α} {error : String} {a : α} :
    okOr x error = .ok a ↔ x = some a := by
  cases x <;> simp [okOr]

theorem parseAddCredentialsFields_id {B : SidecarBase64} {v : JToken}
    {fields : AddCredentialsFields} (parsed : parseAddCredentialsFields B v = .ok fields) :
    ∃ text, asStr (index v "credentialIdB64Url") = some text ∧
      B.urlSafeNoPad text = some fields.credentialId := by
  obtain ⟨credentialIdB64, text, parsed⟩ := except_bind_ok.mp parsed
  obtain ⟨_, _, parsed⟩ := except_bind_ok.mp parsed
  obtain ⟨_, _, parsed⟩ := except_bind_ok.mp parsed
  obtain ⟨_, _, parsed⟩ := except_bind_ok.mp parsed
  obtain ⟨_, _, parsed⟩ := except_bind_ok.mp parsed
  obtain ⟨_, _, parsed⟩ := except_bind_ok.mp parsed
  obtain ⟨credentialId, decoded, parsed⟩ := except_bind_ok.mp parsed
  obtain ⟨_, _, parsed⟩ := except_bind_ok.mp parsed
  obtain rfl := except_pure_ok.mp parsed
  exact ⟨credentialIdB64, okOr_ok.mp text, okOr_ok.mp decoded⟩

end KeePassKeyWin.SidecarResults
