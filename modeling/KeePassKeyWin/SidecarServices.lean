import KeePassKeyWin.CredentialEncodings

set_option autoImplicit false

/-!
# What the sidecar calls

The base64 engines of the sidecar, with the laws that their documentation gives them.
-/
namespace KeePassKeyWin.SidecarServices
open ByteStrings CredentialEncodings

/-- `URL_SAFE_NO_PAD` takes the unpadded base64url form and no other text, and `STANDARD` the
padded base64 form. -/
structure SidecarBase64 where
  urlSafeNoPad : String → Option Bytes
  standard : String → Option Bytes
  urlSafeNoPad_iff : ∀ {text data}, urlSafeNoPad text = some data ↔ text = Base64Url.encode data
  standard_iff : ∀ {text data}, standard text = some data ↔ text = toBase64String data

/-- Decode leniently, and keep what encodes to the same text. -/
def exactly (decode : String → Except JsonRpc.Exn Bytes) (encode : Bytes → String)
    (text : String) : Option Bytes :=
  match decode text with
  | .ok data => if encode data = text then some data else none
  | .error _ => none

theorem exactly_iff {decode : String → Except JsonRpc.Exn Bytes} {encode : Bytes → String}
    (inverse : ∀ data, decode (encode data) = .ok data) {text : String} {data : Bytes} :
    exactly decode encode text = some data ↔ text = encode data := by
  constructor
  · intro h
    unfold exactly at h
    split at h
    · split_ifs at h with same
      rw [← same, Option.some.inj h]
    · cases h
  · rintro rfl
    simp [exactly, inverse]

def exactBase64 (P : PlatformServices.Platform) : SidecarBase64 where
  urlSafeNoPad := exactly (Base64Url.decode P) Base64Url.encode
  standard := exactly (fromBase64String P) toBase64String
  urlSafeNoPad_iff := exactly_iff (Base64Url.decode_encode P)
  standard_iff := exactly_iff (fromBase64String_toBase64String P)

end KeePassKeyWin.SidecarServices
