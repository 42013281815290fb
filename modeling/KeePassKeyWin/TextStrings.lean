import KeePassKeyWin.CborExactness
import KeePassKeyWin.VaultOutcomes

set_option autoImplicit false

/-!
# Text strings and their bytes

The reader decodes the content of every text string, and replaces what is not UTF-8. What it
hands on stands for the content only where there was nothing to replace.
-/
namespace KeePassKeyWin.TextStrings
open ByteStrings JsonRpc PlatformServices CborCodec CborReading CborWriting CborGrammar
open GrammarReaders CborExactness CredentialEncodings AuthDataBuilder VaultOutcomes

def IsUtf8 (content : Bytes) : Prop := ∃ s, utf8 s = content

theorem utf8_getString_iff {content : Bytes} : utf8 (getString content) = content ↔ IsUtf8 content := by
  constructor
  · intro h
    exact ⟨_, h⟩
  · rintro ⟨s, rfl⟩
    rw [getString_utf8]

structure TextItem where
  reader : CborReader
  content : Bytes
  ahead : ∃ bs rest, reader.rest = bs ++ rest ∧ Content 3 bs content
  fits : reader.rest.length ≤ intMaxValue

def TextItem.Returns (i : TextItem) (s : String) : Prop := ∃ t, readTextString i.reader = .ok s t

/-- Nothing of the content is lost, and what is not UTF-8 is refused. -/
structure TextItem.Lossless (P : Platform) (i : TextItem) : Prop where
  kept : ∀ s, i.Returns s → utf8 s = i.content
  rewritten : ∀ s, i.Returns s →
    writeTextString s = CborCodec.head 3 i.content.length ++ i.content
  hashed : ∀ s, i.Returns s → ∀ uv n, (buildAssertion P s uv n).take 32 = P.sha256 i.content
  registered : ∀ s, i.Returns s → ∀ credentialId coseKey uv authData,
    build P s credentialId coseKey uv = .ok authData → authData.take 32 = P.sha256 i.content
  refused : ¬ IsUtf8 i.content → ∃ message t, readTextString i.reader = .error (.cborReader message) t

/-- Each of the items is read without loss, and no two of different content as one string. -/
structure ReadsLossless (P : Platform) (items : Set TextItem) : Prop where
  each : ∀ i ∈ items, i.Lossless P
  apart : ∀ i ∈ items, ∀ j ∈ items, ∀ s, i.Returns s → j.Returns s → i.content = j.content

/-- The reader takes every text string for the text that it decodes to. -/
theorem TextItem.returns_iff {i : TextItem} {s : String} :
    i.Returns s ↔ s = getString i.content := by
  obtain ⟨bs, rest, left, content⟩ := i.ahead
  have reads := (readTextString_reads le_rfl).reads ⟨i.content, content, rfl⟩ left i.fits
  constructor
  · rintro ⟨t, run⟩
    rw [reads.1] at run
    cases run
    rfl
  · rintro rfl
    exact ⟨_, reads.1⟩

theorem build_take {P : Platform} {rpId : String} {credentialId coseKey authData : Bytes}
    {uv : Bool} (h : build P rpId credentialId coseKey uv = .ok authData) :
    authData.take 32 = P.sha256 (utf8 rpId) := by
  have id : credentialId ≠ [] := by
    rintro rfl
    cases h
  have short : credentialId.length ≤ 0xFFFF := by
    by_contra long
    simp [build, id, Nat.not_le.mp long, bind, Except.bind, throw, throwThe, MonadExceptOf.throw] at h
  have key : coseKey ≠ [] := by
    rintro rfl
    simp [build, id, Nat.not_lt.mpr short, bind, Except.bind, throw, throwThe,
      MonadExceptOf.throw] at h
  rw [build_ok P rpId uv id short key, Except.ok.injEq] at h
  rw [← h]
  simp only [List.append_assoc]
  rw [← P.sha256_length (utf8 rpId), List.take_left]

theorem TextItem.lossless_iff {P : Platform} {i : TextItem} : i.Lossless P ↔ IsUtf8 i.content := by
  constructor
  · intro h
    exact ⟨_, h.kept _ (TextItem.returns_iff.mpr rfl)⟩
  · intro valid
    have same : ∀ s, i.Returns s → utf8 s = i.content := by
      intro s returns
      rw [TextItem.returns_iff.mp returns]
      exact utf8_getString_iff.mpr valid
    refine ⟨same, fun s returns => ?_, fun s returns uv n => ?_, fun s returns _ _ _ _ built => ?_,
      absurd valid⟩
    · rw [← same s returns, writeTextString, writeTypeAndValue_eq_head]
    · rw [buildAssertion_take, same s returns]
    · rw [build_take built, same s returns]

/-- Text strings are read without loss exactly when all of them are UTF-8. -/
theorem readTextString_lossless_iff (P : Platform) (items : Set TextItem) :
    ReadsLossless P items ↔ ∀ i ∈ items, IsUtf8 i.content := by
  constructor
  · exact fun h i hi => TextItem.lossless_iff.mp (h.each i hi)
  · intro valid
    refine ⟨fun i hi => TextItem.lossless_iff.mpr (valid i hi), fun i hi j hj s returns returns' => ?_⟩
    have first := (TextItem.lossless_iff (P := P)).mpr (valid i hi)
    have second := (TextItem.lossless_iff (P := P)).mpr (valid j hj)
    rw [← first.kept s returns, second.kept s returns']

def sampleItem : TextItem where
  reader := ⟨0, [0x61, 0xFF]⟩
  content := [0xFF]
  ahead := ⟨[0x61, 0xFF], [], rfl, [0x61], rfl, .short (show 1 ≤ 23 by decide)⟩
  fits := by decide

/-- It is read as the replacement character, which stands for other bytes. -/
theorem replacement_returned :
    sampleItem.Returns "\uFFFD" ∧ utf8 "\uFFFD" ≠ sampleItem.content ∧
      ¬ ReadsLossless (Sample.platform []) {sampleItem} := by
  have returns : sampleItem.Returns "\uFFFD" := TextItem.returns_iff.mpr (by decide +kernel)
  have different : utf8 "\uFFFD" ≠ sampleItem.content := by decide +kernel
  exact ⟨returns, different, fun h => different ((h.each sampleItem rfl).kept _ returns)⟩

end KeePassKeyWin.TextStrings
