import KeePassKeyWin.PasskeyStore
import KeePassKeyWin.SidecarResults
import KeePassKeyWin.UrlSafeBase64

set_option autoImplicit false

/-!
# Credential ids as texts

`Base64Url` strips the padding and trades two characters of the alphabet; what it writes is the
text that the decoder of the sidecar takes, and the comparison of such texts is that of the ids.
-/
namespace KeePassKeyWin.CredentialIds
open ByteStrings JsonRpc PlatformServices CredentialEncodings SidecarServices SidecarResults
open PasskeyStore

theorem encode_sextets (data : Bytes) : ∃ pad : List Char, (∀ c ∈ pad, c = '=') ∧
    Base64Codec.encode data = (UrlSafeBase64.sextets data).map Base64Codec.digit ++ pad := by
  fun_induction UrlSafeBase64.sextets data with
  | case1 => exact ⟨[], by simp, rfl⟩
  | case2 a => exact ⟨['=', '='], by simp, rfl⟩
  | case3 a b => exact ⟨['='], by simp, rfl⟩
  | case4 a b c rest ih =>
    obtain ⟨pad, pads, split⟩ := ih
    refine ⟨pad, pads, ?_⟩
    simp [Base64Codec.encode, split]

theorem replaceChar_digit {n : ℕ} (small : n < 64) :
    replaceChar '/' '_' (replaceChar '+' '-' [Base64Codec.digit n]) =
      [UrlSafeBase64.digit n] := by
  have all : ∀ n < 64, replaceChar '/' '_' (replaceChar '+' '-' [Base64Codec.digit n]) =
      [UrlSafeBase64.digit n] := by decide +kernel
  exact all n small

theorem base64Url_encode (data : Bytes) :
    Base64Url.encode data = String.ofList (UrlSafeBase64.encode data) := by
  obtain ⟨pad, pads, split⟩ := encode_sextets data
  have digits : ∀ c ∈ (UrlSafeBase64.sextets data).map Base64Codec.digit,
      c ∈ Base64Codec.alphabet := by
    intro c written
    obtain ⟨n, group, rfl⟩ := List.mem_map.mp written
    exact Base64Codec.digit_mem n (UrlSafeBase64.sextets_lt data n group)
  rw [Base64Url.encode, split, rdropWhile_padding digits pads, UrlSafeBase64.encode]
  congr 1
  simp only [replaceChar, List.map_map]
  apply List.map_congr_left
  intro n group
  have one := replaceChar_digit (UrlSafeBase64.sextets_lt data n group)
  exact List.head_eq_of_cons_eq one

def engine (P : Platform) : SidecarBase64 :=
  { exactBase64 P with
    urlSafeNoPad := fun text => UrlSafeBase64.decode text.toList
    urlSafeNoPad_iff := by
      intro text data
      rw [UrlSafeBase64.decode_some, base64Url_encode]
      constructor
      · intro h
        rw [← h, String.ofList_toList]
      · rintro rfl
        rw [String.toList_ofList] }

/-- What an encoded id is to those that read it. -/
structure ReadsBack (P : Platform) (b : Bytes) : Prop where
  plain : ∀ c ∈ (Base64Url.encode b).toList, UrlSafeBase64.Plain c
  decode : Base64Url.decode P (Base64Url.encode b) = .ok b
  sidecar : (engine P).urlSafeNoPad (Base64Url.encode b) = some b
  fields : ∀ {v : JToken} {fields : AddCredentialsFields},
    index v "credentialIdB64Url" = .str (Base64Url.encode b) →
      parseAddCredentialsFields (engine P) v = .ok fields → fields.credentialId = b

def rawId (e : PwEntry) : Option Bytes :=
  e.credentialId.bind fun text => UrlSafeBase64.decode text.toList

theorem rawId_some {e : PwEntry} {b : Bytes} :
    rawId e = some b ↔ e.credentialId = some (Base64Url.encode b) := by
  simp only [rawId, Option.bind_eq_some_iff, UrlSafeBase64.decode_some, base64Url_encode]
  constructor
  · rintro ⟨text, own, written⟩
    rw [own, ← written, String.ofList_toList]
  · intro own
    exact ⟨_, own, String.toList_ofList⟩

theorem readsBack (P : Platform) (b : Bytes) : ReadsBack P b where
  plain c written := by
    rw [base64Url_encode, String.toList_ofList] at written
    exact UrlSafeBase64.encode_plain b c written
  decode := Base64Url.decode_encode P b
  sidecar := (engine P).urlSafeNoPad_iff.mpr rfl
  fields given h := by
    obtain ⟨text, own, decoded⟩ := parseAddCredentialsFields_id h
    rw [given] at own
    have written := (engine P).urlSafeNoPad_iff.mp decoded
    rw [← Option.some.inj own] at written
    exact (Base64Url.encode_injective P written).symm

theorem hasId_encode {e : PwEntry} {b : Bytes} :
    hasId (Base64Url.encode b) e = decide (rawId e = some b) := by
  rw [Bool.eq_iff_iff, hasId, beq_iff_eq, decide_eq_true_iff, rawId_some]

/-- Encoded ids read back as they were everywhere, and the store compares them as bytes. -/
theorem credential_ids (P : Platform) :
    (∀ b, ReadsBack P b) ∧
    (∀ text, (∃ b, Base64Url.encode b = text) →
      ∃ b, Base64Url.decode P text = .ok b ∧ Base64Url.encode b = text) ∧
    (∀ a b, Base64Url.encode a = Base64Url.encode b ↔ a = b) ∧
    ∀ (s : Plugin) (b : Bytes), s.findById P (Base64Url.encode b) =
      (s.entries.find? fun e => decide (rawId e = some b)).map (entryToRecord P s.culture) := by
  refine ⟨readsBack P, ?_, ?_, ?_⟩
  · rintro _ ⟨b, rfl⟩
    exact ⟨b, Base64Url.decode_encode P b, rfl⟩
  · intro a b
    constructor
    · exact Base64Url.encode_injective P
    · rintro rfl
      rfl
  · intro s b
    have same : hasId (Base64Url.encode b) = fun e => decide (rawId e = some b) :=
      funext fun _ => hasId_encode
    rw [Plugin.findById, same]

theorem credential_ids_three (P : Platform) : ∃ b, Base64Url.decode P "AQID" = .ok b ∧
    Base64Url.encode b = "AQID" :=
  (credential_ids P).2.1 "AQID" ⟨[1, 2, 3], by decide +kernel⟩

end KeePassKeyWin.CredentialIds
