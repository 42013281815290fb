import KeePassKeyWin.NumberFormat

set_option autoImplicit false

/-!
# The platform

What the plugin calls and does not define: hashing, signing, verification, dates,
JSON text, with the laws it relies on; and what one request meets outside the
plugin while it runs.
-/
namespace KeePassKeyWin.PlatformServices
open ByteStrings JsonRpc

structure DateTime where
  ticks : ℕ
  utc : Bool
  deriving DecidableEq

def DateTime.minValue : DateTime := ⟨0, false⟩

/-- How `VerifyNet48` ends: with an answer, or with one of the two exceptions its caller
catches, or with another. -/
inductive VerifyOutcome where
  | answer (verified : Bool)
  | cryptographicException
  | argumentException
  | otherException (message : String)

structure Platform where
  sha256 : Bytes → Bytes
  sha256_length : ∀ bs, (sha256 bs).length = 32
  /-- `CngKey.Import` of a public key blob, then `ECDsaCng.VerifyData` over a payload with a
  signature in IEEE P1363 form. -/
  verifyData : Bytes → Bytes → Bytes → VerifyOutcome
  /-- RSASSA-PKCS1-v1_5 verification under a modulus and an exponent, as a relying party does. -/
  rsaVerifyData : Bytes → Bytes → Bytes → Bytes → Bool
  /-- `SignData` of an imported P-256 key: key blob, randomness, data. -/
  ecdsaSignData : Bytes → Bytes → Bytes → Except String Bytes
  /-- Two halves, of at most 66 bytes for the widest curve the import accepts. -/
  ecdsaSignData_width : ∀ {pkcs8 entropy data signature},
    ecdsaSignData pkcs8 entropy data = .ok signature →
      ∃ half, signature.length = 2 * half ∧ 0 < half ∧ half ≤ 66
  rsaSignData : Bytes → Bytes → Except String Bytes
  rsaSignData_length : ∀ {pkcs8 data signature},
    rsaSignData pkcs8 data = .ok signature → signature.length < 2 ^ 31
  /-- The text of the `FormatException` that `Convert.FromBase64String` throws. -/
  base64Message : String → String
  /-- `ToString("o")`. -/
  dateToString : DateTime → String
  /-- `TryParse` with `RoundtripKind`. -/
  dateTryParse : String → Option DateTime
  dateTryParse_dateToString : ∀ d, dateTryParse (dateToString d) = some d
  /-- `JsonConvert.DeserializeObject<JsonRpcRequest>`; the error is a `JsonException`. -/
  deserializeRequest : String → Except String (Option JsonRpcRequest)

structure EcKeyPair where
  pkcs8 : Bytes
  x : Bytes
  y : Bytes
  x_length : x.length = 32
  y_length : y.length = 32

structure RsaKeyPair where
  pkcs8 : Bytes
  modulus : Bytes
  exponent : Bytes
  modulus_length : modulus.length = 256
  exponent_length : exponent.length = 3

inductive AskOutcome where
  | yes
  | no
  | throws (e : Exn)

/-- The random numbers, key generation, clock, prompt and storage that one request meets.
A `Save` or a registry write throws with a text or succeeds. -/
structure Outside where
  save : Option String
  credentialId : Bytes
  credentialId_length : credentialId.length = 32
  ecKey : Except String EcKeyPair
  rsaKey : Except String RsaKeyPair
  entropy : Bytes
  ask : AskOutcome
  utcNow : DateTime
  nonce : Bytes
  nonce_length : nonce.length = 32
  registry : Option String

end KeePassKeyWin.PlatformServices
