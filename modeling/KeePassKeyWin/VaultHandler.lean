import KeePassKeyWin.CtapRequests
import KeePassKeyWin.VaultGates

set_option autoImplicit false

/-!
# `VaultHandler`

The seven vault methods. An exception leaves the state as the statements before it made it.
-/
namespace KeePassKeyWin.VaultHandler
open ByteStrings JsonRpc NumberFormat OutcomeRules PlatformServices CborCodec CborWriting
open CredentialEncodings EcdsaSignatures PasskeyStore VaultGates CtapRequests

def stringResult (fields : List (String × String)) : JToken :=
  .object (fields.map fun (key, value) => (key, .str value))

def selectAlgorithm (requestedAlgs : List ℤ) : Except Exn ℤ :=
  if -7 ∈ requestedAlgs then .ok (-7)
  else if -257 ∈ requestedAlgs then .ok (-257)
  else .error noSupportedAlgorithm

/-- The PKCS#8 private key and the COSE key. -/
def generateKeyPairAndCoseKey (out : Outside) (culture : NumberFormatInfo) (algId : ℤ) :
    Except Exn (Bytes × Bytes) :=
  if algId = -7 then do
    let (pkcs8, x, y) ← EcdsaSigner.generateKeyPair out
    return (pkcs8, ← CoseKey.encode x y)
  else if algId = -257 then do
    let (pkcs8, n, e) ← RsaSigner.generateKeyPair out
    return (pkcs8, ← CoseKey.encodeRsa n e)
  else
    let alg := intToString culture algId
    .error (.rpc RpcErrorCode.unsupportedAlgorithm
      s!"GenerateKeyPairAndCoseKey: unsupported algId {alg}.")

def signatureOf (P : Platform) (entropy pkcs8 data : Bytes) (algId : ℤ) : Except Exn Bytes :=
  if algId = -7 then EcdsaSigner.sign P pkcs8 data entropy else RsaSigner.sign P pkcs8 data

def signWithAlgorithm (P : Platform) (out : Outside) (pkcs8 data : Bytes) (algId : ℤ) :
    Vault Bytes := do
  if algId = -7 ∨ algId = -257 then
    modify fun s => { s with keyUses := s.keyUses ++ [pkcs8] }
    lift (signatureOf P out.entropy pkcs8 data algId)
  else
    let alg := intToString (← get).culture algId
    throw (.rpc RpcErrorCode.unsupportedAlgorithm
      s!"SignWithAlgorithm: unsupported algId {alg}.")

def buildAttestationObject (authData : Bytes) : Bytes :=
  writeMap [
    (writeUnsignedInt 1, writeTextString "none"),
    (writeUnsignedInt 2, writeByteString authData),
    (writeUnsignedInt 3, writeMap [])]

def userEntity (P : Platform) (userRecord : PasskeyRecord) (uv : Bool) : Except Exn Bytes := do
  let rawUserHandle ← Base64Url.decode P userRecord.userHandle
  let id := (writeTextString "id", writeByteString rawUserHandle)
  let names := [
    (writeTextString "name", writeTextString userRecord.userName),
    (writeTextString "displayName", writeTextString userRecord.userDisplayName)]
  return writeMap (id :: if uv then names else [])

def buildAssertionResponse (P : Platform) (credentialId authData signature : Bytes)
    (userRecord : Option PasskeyRecord) (uv : Bool) : Except Exn Bytes := do
  let descriptor := writeMap [
    (writeTextString "id", writeByteString credentialId),
    (writeTextString "type", writeTextString "public-key")]
  let pairs := [
    (writeUnsignedInt 1, descriptor),
    (writeUnsignedInt 2, writeByteString authData),
    (writeUnsignedInt 3, writeByteString signature)]
  match userRecord with
  | none => return writeMap pairs
  | some userRecord =>
    return writeMap (pairs ++ [(writeUnsignedInt 4, ← userEntity P userRecord uv)])

/-- A record with the defaults of `PasskeyRecord`. -/
def newRecord (out : Outside) (credentialId rpId rpName userHandle userName userDisplayName : String)
    (algId : ℤ) (pkcs8 coseKey : Bytes) : PasskeyRecord where
  credentialId := credentialId
  rpId := rpId
  rpName := rpName
  userHandle := userHandle
  userName := userName
  userDisplayName := userDisplayName
  algId := algId
  privateKeyPkcs8 := toBase64String pkcs8
  publicKeyCose := coseKey
  transports := "internal"
  flags := ""
  creationTime := out.utcNow
  lastUsedTime := DateTime.minValue
  signCount := 0

def createPasskey (P : Platform) (out : Outside) (params : Option JToken) : Vault JToken := do
  let obj ← lift (requireObject params "keepasskeywin.createPasskey")
  let rpId ← lift (requireString obj "rpId")
  let rpName := (← lift (stringField obj "rpName")).getD rpId
  let userHandle ← lift (requireString obj "userHandle")
  let userName ← lift (requireString obj "userName")
  let userDisplayName := (← lift (stringField obj "userDisplayName")).getD userName
  let (pkcs8, coseKey) ← lift (generateKeyPairAndCoseKey out (← get).culture (-7))
  let credentialId := Base64Url.encode out.credentialId
  let authData ← lift (AuthDataBuilder.build P rpId out.credentialId coseKey true)
  add P out (newRecord out credentialId rpId rpName userHandle userName userDisplayName (-7) pkcs8
    coseKey)
  return stringResult [
    ("credentialId", credentialId),
    ("authData", toBase64String authData),
    ("publicKeyCose", toBase64String coseKey)]

/-- The first excluded id that is registered ends the request. -/
def checkExcluded (P : Platform) (excludeList : List String) (s : Plugin) : Except Exn Unit :=
  match excludeList.find? fun id => (s.findById P id).isSome with
  | none => .ok ()
  | some excludedId => .error (.rpc RpcErrorCode.credentialExcluded
      s!"A credential matching the exclude list is already registered: {excludedId}")

def makeCredentialRecord (out : Outside) (req : MakeCredentialRequest) (algId : ℤ)
    (pkcs8 coseKey : Bytes) : PasskeyRecord :=
  newRecord out (Base64Url.encode out.credentialId) req.rpId req.rpName req.userHandle req.userName
    req.userDisplayName algId pkcs8 coseKey

def makeCredentialResult (record : PasskeyRecord) (responseBytes : Bytes) : JToken :=
  stringResult [
    ("cbor", toBase64String responseBytes),
    ("credentialIdB64Url", record.credentialId),
    ("rpId", record.rpId),
    ("rpName", record.rpName),
    ("userHandleB64Url", record.userHandle),
    ("userName", record.userName),
    ("userDisplayName", record.userDisplayName)]

def handleMakeCredentialRaw (P : Platform) (out : Outside) (params : Option JToken) :
    Vault JToken := do
  let (uv, cborBytes) ← receiveRaw P out params makeMethod
  let req ← lift (orMalformed makeMethod (parseMakeCredentialCbor cborBytes))
  let s ← get
  lift (checkExcluded P req.excludeList s)
  let selectedAlg ← lift (selectAlgorithm req.requestedAlgs)
  let (pkcs8, coseKey) ← lift (generateKeyPairAndCoseKey out s.culture selectedAlg)
  let authData ← lift (AuthDataBuilder.build P req.rpId out.credentialId coseKey uv)
  let record := makeCredentialRecord out req selectedAlg pkcs8 coseKey
  add P out record
  return makeCredentialResult record (buildAttestationObject authData)

/-- The credential that signs: the first for the RP when no ids are listed, and otherwise the
first listed id that the vault has. -/
def selectCredential (P : Platform) (req : GetAssertionRequest) (s : Plugin) :
    Except Exn PasskeyRecord :=
  if req.allowListCredIds = [] then
    match s.findByRpId P req.rpId with
    | [] => .error (.rpc RpcErrorCode.credentialNotFound
        ((getMethod ++ ": no passkey found for RP '") ++ req.rpId ++ "'."))
    | selected :: _ => .ok selected
  else
    match req.allowListCredIds.findSome? fun rawId => s.findById P (Base64Url.encode rawId) with
    | some hit => .ok hit
    | none => .error (.rpc RpcErrorCode.credentialNotFound
        s!"{getMethod}: no credential in allowList matches the vault.")

def answerWith (P : Platform) (out : Outside) (req : GetAssertionRequest) (uv : Bool)
    (selected : PasskeyRecord) (newCount : ℕ) : Vault JToken := do
  let authData := AuthDataBuilder.buildAssertion P selected.rpId uv newCount
  let signInput := authData ++ req.clientDataHash
  let pkcs8 ← lift (fromBase64String P selected.privateKeyPkcs8)
  let signature ← signWithAlgorithm P out pkcs8 signInput selected.algId
  let rawCredIdBytes ← lift (Base64Url.decode P selected.credentialId)
  let userRecord := if req.allowListCredIds = [] then some selected else none
  let responseBytes ← lift (buildAssertionResponse P rawCredIdBytes authData signature userRecord uv)
  return stringResult [("cbor", toBase64String responseBytes)]

def assertWith (P : Platform) (out : Outside) (req : GetAssertionRequest) (uv : Bool)
    (selected : PasskeyRecord) : Vault JToken := do
  let newCount ← incrementSignCount out selected.credentialId
  answerWith P out req uv selected newCount

def handleGetAssertionRaw (P : Platform) (out : Outside) (params : Option JToken) :
    Vault JToken := do
  let (uv, cborBytes) ← receiveRaw P out params getMethod
  let req ← lift (orMalformed getMethod (parseGetAssertionCbor cborBytes))
  if !req.optionsUp then
    throw (.rpc RpcErrorCode.invalidOption s!"{getMethod}: options.up=false is not supported.")
  let selected ← lift (selectCredential P req (← get))
  assertWith P out req uv selected

def listCredentials (P : Platform) (params : Option JToken) : Vault JToken := do
  let obj ← lift (requireObject params "keepasskeywin.listCredentials")
  let rpId ← lift (requireString obj "rpId")
  let records := (← get).findByRpId P rpId
  return .array (records.map fun r => stringResult [
    ("credentialId", r.credentialId),
    ("userHandle", r.userHandle),
    ("userName", r.userName),
    ("userDisplayName", r.userDisplayName)])

def signAssertion (P : Platform) (out : Outside) (params : Option JToken) : Vault JToken := do
  let obj ← lift (requireObject params "keepasskeywin.signAssertion")
  let credentialId ← lift (requireString obj "credentialId")
  let authDataB64 ← lift (requireString obj "authData")
  let clientDataHashB64 ← lift (requireString obj "clientDataHash")
  match (← get).findById P credentialId with
  | none => throw (.rpc RpcErrorCode.credentialNotFound s!"Credential not found: {credentialId}")
  | some record =>
    let invalid := fun message => s!"authData or clientDataHash is not valid base64: {message}"
    let authDataBytes ← lift (fromBase64OrInvalid P authDataB64 invalid)
    let clientDataHash ← lift (fromBase64OrInvalid P clientDataHashB64 invalid)
    let pkcs8 ← lift (fromBase64String P record.privateKeyPkcs8)
    let signature ← signWithAlgorithm P out pkcs8 (authDataBytes ++ clientDataHash) record.algId
    let assertionAuthData := AuthDataBuilder.buildAssertion P record.rpId true 0
    return stringResult [
      ("signature", toBase64String signature),
      ("authData", toBase64String assertionAuthData),
      ("userHandle", record.userHandle)]

def deleteCredential (out : Outside) (params : Option JToken) : Vault JToken := do
  let obj ← lift (requireObject params "keepasskeywin.deleteCredential")
  let credentialId ← lift (requireString obj "credentialId")
  let deleted ← delete out credentialId
  return .object [("deleted", .boolean deleted)]

def enumerateForSync (P : Platform) : Vault JToken := do
  let records := (← get).getAll P
  return .array (records.map fun r => .object [
    ("credentialId", .str r.credentialId),
    ("rpId", .str r.rpId),
    ("rpName", .str r.rpName),
    ("userHandle", .str r.userHandle),
    ("userName", .str r.userName),
    ("userDisplayName", .str r.userDisplayName),
    ("algId", .integer r.algId)])

def requireVaultOpen : Vault Unit := do
  if !(← get).isVaultOpen then
    throw (.rpc RpcErrorCode.vaultLocked "KeePass vault is not open.")

def methodNotFound (method : String) : Exn :=
  .rpc RpcErrorCode.methodNotFound s!"Method not found: {method}"

def dispatchMethod (P : Platform) (out : Outside) (method : String) (params : Option JToken) :
    Vault JToken :=
  if method = "keepasskeywin.createPasskey" then createPasskey P out params
  else if method = "keepasskeywin.listCredentials" then listCredentials P params
  else if method = "keepasskeywin.signAssertion" then signAssertion P out params
  else if method = "keepasskeywin.deleteCredential" then deleteCredential out params
  else if method = "keepasskeywin.enumerateForSync" then enumerateForSync P
  else if method = makeMethod then handleMakeCredentialRaw P out params
  else if method = getMethod then handleGetAssertionRaw P out params
  else throw (methodNotFound method)

def handle (P : Platform) (out : Outside) (method : String) (params : Option JToken) :
    Vault JToken := do
  modify fun s => { s with vaultCalls := s.vaultCalls + 1 }
  requireVaultOpen
  dispatchMethod P out method params

end KeePassKeyWin.VaultHandler
