import KeePassKeyWin.CborReading
import KeePassKeyWin.CredentialEncodings

set_option autoImplicit false

/-!
# CTAP2 request maps

`ParseMakeCredentialCbor` and `ParseGetAssertionCbor`: counted loops over the keys of a
map that fill in fields, in any order and the last one winning, then the checks for what
is missing.
-/
namespace KeePassKeyWin.CtapRequests
open ByteStrings JsonRpc OutcomeRules CborReading CredentialEncodings

def makeMethod : String := "keepasskeywin.makeCredentialRaw"
def getMethod : String := "keepasskeywin.getAssertionRaw"

def readClientDataHash (method : String) : Reader Bytes := do
  let hash ← readByteString
  let length := hash.length
  if length ≠ 32 then
    throw (invalidParams s!"{method}: clientDataHash must be 32 bytes, got {length}.")
  return hash

structure MakeCredentialFields where
  clientDataHash : Option Bytes
  rpId : Option String
  rpName : Option String
  userHandle : Option String
  userName : Option String
  userDisplayName : Option String
  requestedAlgs : List ℤ
  excludeList : List String

def MakeCredentialFields.empty : MakeCredentialFields :=
  ⟨none, none, none, none, none, none, [], []⟩

def readRpField (f : MakeCredentialFields) : Reader MakeCredentialFields := do
  let field ← readTextString
  if field = "id" then return { f with rpId := some (← readTextString) }
  else if field = "name" then return { f with rpName := some (← readTextString) }
  else
    skipValue
    return f

def readUserField (f : MakeCredentialFields) : Reader MakeCredentialFields := do
  let field ← readTextString
  if field = "id" then return { f with userHandle := some (Base64Url.encode (← readByteString)) }
  else if field = "name" then return { f with userName := some (← readTextString) }
  else if field = "displayName" then return { f with userDisplayName := some (← readTextString) }
  else
    skipValue
    return f

structure CredentialParam where
  paramType : Option String
  algId : Option ℤ

/-- An algorithm that is not a negative integer is skipped and leaves the last one read. -/
def readParamField (p : CredentialParam) : Reader CredentialParam := do
  let field ← readTextString
  if field = "alg" then
    if (← peekMajorType) = 1 then return { p with algId := some (← readNegativeInt) }
    else
      skipValue
      return p
  else if field = "type" then return { p with paramType := some (← readTextString) }
  else
    skipValue
    return p

def CredentialParam.supported (p : CredentialParam) : List ℤ :=
  if p.paramType = some "public-key" then
    match p.algId with
    | some alg => if alg = -7 ∨ alg = -257 then [alg] else []
    | none => []
  else []

def readCredentialParam (f : MakeCredentialFields) : Reader MakeCredentialFields := do
  let paramCount ← readMapHeader
  let p ← times readParamField paramCount ⟨none, none⟩
  return { f with requestedAlgs := f.requestedAlgs ++ p.supported }

def readExcludedField (descId : Option Bytes) : Reader (Option Bytes) := do
  let field ← readTextString
  if field = "id" then return some (← readByteString)
  else
    skipValue
    return descId

def readExcluded (f : MakeCredentialFields) : Reader MakeCredentialFields := do
  let descCount ← readMapHeader
  match ← times readExcludedField descCount none with
  | some descId => return { f with excludeList := f.excludeList ++ [Base64Url.encode descId] }
  | none => return f

def readMakeCredentialKey (f : MakeCredentialFields) : Reader MakeCredentialFields := do
  match ← readUnsignedInt with
  | 1 => return { f with clientDataHash := some (← readClientDataHash makeMethod) }
  | 2 => times readRpField (← readMapHeader) f
  | 3 => times readUserField (← readMapHeader) f
  | 4 => times readCredentialParam (← readArrayHeader) f
  | 5 => times readExcluded (← readArrayHeader) f
  | _ =>
    skipValue
    return f

def readMakeCredential : Reader MakeCredentialFields := do
  times readMakeCredentialKey (← readMapHeader) .empty

structure MakeCredentialRequest where
  clientDataHash : Bytes
  rpId : String
  rpName : String
  userHandle : String
  userName : String
  userDisplayName : String
  excludeList : List String
  requestedAlgs : List ℤ
  deriving DecidableEq

def noSupportedAlgorithm : Exn := .rpc RpcErrorCode.unsupportedAlgorithm
  s!"{makeMethod}: no supported algorithm found in pubKeyCredParams (supported: -7 ES256, -257 RS256)."

def requireField (value : Option String) (what : String) : Except Exn String :=
  match nonEmpty value with
  | some v => .ok v
  | none => .error (invalidParams s!"{makeMethod}: missing required {what}.")

def MakeCredentialFields.validate (f : MakeCredentialFields) :
    Except Exn MakeCredentialRequest := do
  match f.clientDataHash with
  | none => throw (invalidParams s!"{makeMethod}: missing required CTAP2 key 1 (clientDataHash).")
  | some clientDataHash =>
    let rpId ← requireField f.rpId "RP id in key 2 (rp map)"
    let userHandle ← requireField f.userHandle "user.id in key 3 (user map)"
    let userName ← requireField f.userName "user.name in key 3 (user map)"
    if f.requestedAlgs = [] then throw noSupportedAlgorithm
    return {
      clientDataHash
      rpId
      rpName := (nonEmpty f.rpName).getD rpId
      userHandle
      userName
      userDisplayName := (nonEmpty f.userDisplayName).getD userName
      excludeList := f.excludeList
      requestedAlgs := f.requestedAlgs }

def parseMakeCredentialCbor (data : Bytes) : Except Exn MakeCredentialRequest := do
  (← parse readMakeCredential data).validate

structure GetAssertionFields where
  rpId : Option String
  clientDataHash : Option Bytes
  allowListCredIds : List Bytes
  optionsUp : Bool
  optionsUv : Bool

/-- `up` defaults to true and `uv` to false. -/
def GetAssertionFields.empty : GetAssertionFields := ⟨none, none, [], true, false⟩

structure Descriptor where
  descId : Option Bytes
  descType : Option String

def readDescriptorField (d : Descriptor) : Reader Descriptor := do
  let field ← readTextString
  if field = "id" then return { d with descId := some (← readByteString) }
  else if field = "type" then return { d with descType := some (← readTextString) }
  else
    skipValue
    return d

def Descriptor.publicKeyId (d : Descriptor) : List Bytes :=
  match d.descId with
  | some id => if d.descType = some "public-key" then [id] else []
  | none => []

def readDescriptor (f : GetAssertionFields) : Reader GetAssertionFields := do
  let descCount ← readMapHeader
  let d ← times readDescriptorField descCount ⟨none, none⟩
  return { f with allowListCredIds := f.allowListCredIds ++ d.publicKeyId }

def readOption (f : GetAssertionFields) : Reader GetAssertionFields := do
  let field ← readTextString
  if field = "up" then return { f with optionsUp := ← readBool }
  else if field = "uv" then return { f with optionsUv := ← readBool }
  else
    skipValue
    return f

def readGetAssertionKey (f : GetAssertionFields) : Reader GetAssertionFields := do
  match ← readUnsignedInt with
  | 1 => return { f with rpId := some (← readTextString) }
  | 2 => return { f with clientDataHash := some (← readClientDataHash getMethod) }
  | 3 => times readDescriptor (← readArrayHeader) f
  | 5 => times readOption (← readMapHeader) f
  | _ =>
    skipValue
    return f

def readGetAssertion : Reader GetAssertionFields := do
  times readGetAssertionKey (← readMapHeader) .empty

structure GetAssertionRequest where
  rpId : String
  clientDataHash : Bytes
  allowListCredIds : List Bytes
  optionsUp : Bool
  optionsUv : Bool
  deriving DecidableEq

def GetAssertionFields.validate (f : GetAssertionFields) : Except Exn GetAssertionRequest := do
  match nonEmpty f.rpId with
  | none => throw (invalidParams s!"{getMethod}: missing required CTAP2 key 1 (rpId).")
  | some rpId =>
    match f.clientDataHash with
    | none => throw (invalidParams s!"{getMethod}: missing required CTAP2 key 2 (clientDataHash).")
    | some clientDataHash =>
      return ⟨rpId, clientDataHash, f.allowListCredIds, f.optionsUp, f.optionsUv⟩

def parseGetAssertionCbor (data : Bytes) : Except Exn GetAssertionRequest := do
  (← parse readGetAssertion data).validate

def orMalformed {α : Type} (method : String) (outcome : Except Exn α) : Except Exn α :=
  match outcome with
  | .error (.cborReader message) =>
    .error (invalidParams s!"{method}: malformed CBOR: {message}")
  | other => other

theorem orMalformed_ok {α : Type} {method : String} {outcome : Except Exn α} {a : α} :
    orMalformed method outcome = .ok a ↔ outcome = .ok a := by
  unfold orMalformed
  split
  · simp
  · rfl

theorem requireField_ok {value : Option String} {what v : String} :
    requireField value what = .ok v ↔ value = some v ∧ v ≠ "" := by
  rw [← nonEmpty_eq_some, requireField]
  cases nonEmpty value <;> simp

/-- The fields of a request are those that were read, with the two defaults. -/
structure MakeCredentialFields.Gives (f : MakeCredentialFields) (req : MakeCredentialRequest) :
    Prop where
  clientDataHash : f.clientDataHash = some req.clientDataHash
  rpId : f.rpId = some req.rpId
  rpName : req.rpName = (nonEmpty f.rpName).getD req.rpId
  userHandle : f.userHandle = some req.userHandle
  userHandle_ne : req.userHandle ≠ ""
  userName : f.userName = some req.userName
  userDisplayName : req.userDisplayName = (nonEmpty f.userDisplayName).getD req.userName
  excludeList : req.excludeList = f.excludeList
  requestedAlgs : req.requestedAlgs = f.requestedAlgs

theorem validateMake_ok {f : MakeCredentialFields} {req : MakeCredentialRequest}
    (h : f.validate = .ok req) : f.Gives req := by
  unfold MakeCredentialFields.validate at h
  split at h
  · simp [except_throw_ok] at h
  · rename_i hash hhash
    obtain ⟨rpId, hrp, h⟩ := except_bind_ok.mp h
    obtain ⟨userHandle, hhandle, h⟩ := except_bind_ok.mp h
    obtain ⟨userName, hname, h⟩ := except_bind_ok.mp h
    split_ifs at h
    · simp [bind, Except.bind, throw, throwThe, MonadExceptOf.throw] at h
    · obtain rfl := except_pure_ok.mp h
      obtain ⟨field, nonempty⟩ := requireField_ok.mp hhandle
      exact ⟨hhash, (requireField_ok.mp hrp).1, rfl, field, nonempty, (requireField_ok.mp hname).1,
        rfl, rfl, rfl⟩

theorem parseMakeCredentialCbor_ok {data : Bytes} {req : MakeCredentialRequest}
    (h : parseMakeCredentialCbor data = .ok req) :
    ∃ f, parse readMakeCredential data = .ok f ∧ f.Gives req := by
  obtain ⟨f, hread, hvalid⟩ := except_bind_ok.mp h
  exact ⟨f, hread, validateMake_ok hvalid⟩

end KeePassKeyWin.CtapRequests
