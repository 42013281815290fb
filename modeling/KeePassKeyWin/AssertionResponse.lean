import KeePassKeyWin.CredentialSelection
import KeePassKeyWin.VaultOutcomes

set_option autoImplicit false

/-!
# What an assertion answers

The response, the counter in the vault and the bytes that were signed belong to one and the
same record.
-/
namespace KeePassKeyWin.AssertionResponse
open ByteStrings JsonRpc OutcomeRules PlatformServices CborCodec CredentialEncodings
open AuthDataBuilder EcdsaSignatures PasskeyStore VaultGates CtapRequests VaultHandler
open VaultResponses VaultOutcomes CredentialSelection

/-- The counter of the selected record grows by one; that and every other record keeps its
place and all its other fields. -/
def Counted (P : Platform) (s s' : Plugin) (selected : PasskeyRecord) : Prop :=
  ∃ before after, s.getAll P = before ++ selected :: after ∧
    s'.getAll P = before ++ { selected with signCount := selected.signCount + 1 } :: after

structure AssertionData (P : Platform) (uv : Bool) (selected : PasskeyRecord)
    (authData : Bytes) : Prop where
  length : authData.length = 37
  rpIdHash : authData.take 32 = P.sha256 (utf8 selected.rpId)
  flags : authData[32]? = some (if uv then flagUP ||| flagUV else flagUP)
  signCount : ofBigEndian (authData.drop 33) = selected.signCount + 1

/-- Key 4 is there exactly in the discoverable flow. -/
structure UserKey (P : Platform) (req : GetAssertionRequest) (uv : Bool) (selected : PasskeyRecord)
    (user : Option Value) : Prop where
  present : user.isSome = true ↔ req.allowListCredIds = []
  item : ∀ item, user = some item →
    ∃ raw, Base64Url.decode P selected.userHandle = .ok raw ∧ item = userItem raw selected uv

structure Answer (P : Platform) (out : Outside) (req : GetAssertionRequest) (uv : Bool)
    (selected : PasskeyRecord) (result : JToken) (response authData signature : Bytes)
    (user : Option Value) : Prop where
  result_eq : result = stringResult [("cbor", toBase64String response)]
  response_decodes : fromBase64String P (toBase64String response) = .ok response ∧
    ∃ rawId, Base64Url.decode P selected.credentialId = .ok rawId ∧
      decode response = some (assertionItem rawId authData signature user, [])
  data : AssertionData P uv selected authData
  clientDataHash : req.clientDataHash.length = 32
  signs : ∃ pkcs8, fromBase64String P selected.privateKeyPkcs8 = .ok pkcs8 ∧
    (selected.algId = -7 ∨ selected.algId = -257) ∧
      signatureOf P out.entropy pkcs8 (authData ++ req.clientDataHash) selected.algId =
        .ok signature
  user : UserKey P req uv selected user

end KeePassKeyWin.AssertionResponse
