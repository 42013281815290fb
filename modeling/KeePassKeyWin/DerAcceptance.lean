import KeePassKeyWin.DerSignatures
import KeePassKeyWin.VaultOutcomes

set_option autoImplicit false

/-!
# What the verifier takes for DER

The parser succeeds exactly on the readings of the grammar, and so the acceptance of a signature in
either format comes down to `Verify`.
-/
namespace KeePassKeyWin.DerAcceptance
open ByteStrings JsonRpc PlatformServices EcdsaSignatures DerGrammar
open VaultOutcomes (Sample.lineless Sample.opSignPubKey Sample.makeCbor Sample.makeSignature)

/-- A SEQUENCE that is the whole input and holds two INTEGERs and nothing else. -/
def DerReading (der : Bytes) (r s : ℕ) : Prop :=
  ∃ rBytes sBytes first second, rBytes ≠ [] ∧ sBytes ≠ [] ∧ Element 2 0x02 rBytes first ∧
    Element 2 0x02 sBytes second ∧ Element 2 0x30 (first ++ second) der ∧
    ofBigEndian rBytes = r ∧ ofBigEndian sBytes = s

theorem long_lead {b : UInt8} (long : ¬ b < 0x80) :
    b = UInt8.ofNat (0x80 + (b &&& 0x7F).toNat) := by
  revert long
  refine byte_induction ?_ b
  decide +kernel

theorem lead_count {n : ℕ} (few : n < 0x7F) :
    ¬ UInt8.ofNat (0x80 + n) < 0x80 ∧ (UInt8.ofNat (0x80 + n) &&& 0x7F).toNat = n := by
  have all : ∀ n < 0x7F, ¬ UInt8.ofNat (0x80 + n) < 0x80 ∧
      (UInt8.ofNat (0x80 + n) &&& 0x7F).toNat = n := by decide +kernel
  exact all n few

theorem readDerLength_some {bs rest : Bytes} {n : ℕ} :
    readDerLength bs = some (n, rest) ↔
      ∃ field, LengthField n field ∧ field.length ≤ 3 ∧ bs = field ++ rest := by
  constructor
  · intro h
    cases bs with
    | nil => cases h
    | cons b data =>
      simp only [readDerLength] at h
      split_ifs at h with short bad
      · obtain ⟨rfl, rfl⟩ := Prod.mk.inj (Option.some.inj h)
        have field : LengthField b.toNat [UInt8.ofNat b.toNat] := .short short
        rw [UInt8.ofNat_toNat] at field
        exact ⟨[b], field, Nat.le_of_ble_eq_true rfl, rfl⟩
      · obtain ⟨rfl, rfl⟩ := Prod.mk.inj (Option.some.inj h)
        have lead := long_lead short
        generalize (b &&& 0x7F).toNat = count at bad lead
        have digits : (data.take count).length = count := by
          rw [List.length_take]
          omega
        have some : data.take count ≠ [] := by
          intro empty
          rw [empty, List.length_nil] at digits
          omega
        have field := LengthField.long some (by omega)
        rw [digits, ← lead] at field
        refine ⟨_, field, by rw [List.length_cons]; omega, ?_⟩
        rw [List.cons_append, List.take_append_drop]
  · rintro ⟨field, form, width, rfl⟩
    cases form with
    | short small =>
      have value : (UInt8.ofNat n).toNat = n := by
        rw [UInt8.toNat_ofNat']
        omega
      have lead : UInt8.ofNat n < 0x80 := by
        rw [UInt8.lt_iff_toNat_lt, value]
        exact small
      rw [List.singleton_append, readDerLength, if_pos lead, value]
    | @long digits some few =>
      rw [List.length_cons] at width
      obtain ⟨lead, count⟩ := lead_count few
      have positive := List.length_pos_iff.mpr some
      have good : ¬ (digits.length = 0 ∨ digits.length > 2 ∨
          (digits ++ rest).length < digits.length) := by
        rw [List.length_append]
        omega
      rw [List.cons_append, readDerLength, if_neg lead, count]
      dsimp only
      rw [if_neg good, List.take_left, List.drop_left]

theorem readInteger_some {bs content rest : Bytes} :
    readInteger bs = some (content, rest) ↔
      content ≠ [] ∧ ∃ element, Element 2 0x02 content element ∧ bs = element ++ rest := by
  constructor
  · intro h
    cases bs with
    | nil => cases h
    | cons tag data =>
      simp only [readInteger, Option.bind_eq_bind] at h
      split_ifs at h with other
      · cases h
      · obtain rfl := not_not.mp other
        obtain ⟨⟨len, data'⟩, read, after⟩ := Option.bind_eq_some_iff.mp h
        obtain ⟨field, form, width, rfl⟩ := readDerLength_some.mp read
        dsimp only at after
        split_ifs at after with bad
        · cases after
        obtain ⟨rfl, rfl⟩ := Prod.mk.inj (Option.some.inj after)
        have length : (data'.take len).length = len := by
          rw [List.length_take]
          omega
        refine ⟨?_, 0x02 :: (field ++ data'.take len), ⟨field, by rwa [length], width, rfl⟩, ?_⟩
        · intro empty
          rw [empty, List.length_nil] at length
          omega
        · rw [List.cons_append, List.append_assoc, List.take_append_drop]
  · rintro ⟨some, element, ⟨field, form, width, rfl⟩, rfl⟩
    have read : readDerLength (field ++ (content ++ rest)) = _ :=
      readDerLength_some.mpr ⟨field, form, width, rfl⟩
    have positive := List.length_pos_iff.mpr some
    have good : ¬ (content.length = 0 ∨ content.length > (content ++ rest).length) := by
      rw [List.length_append]
      omega
    simp only [List.cons_append, List.append_assoc, readInteger, read, ne_eq, not_true_eq_false,
      if_false, Option.bind_eq_bind, Option.bind_some, good, List.take_left, List.drop_left]
    rfl

theorem tryFitCoord_some {coord x : Bytes} :
    tryFitCoord coord = some x ↔
      ofBigEndian coord < 2 ^ 256 ∧ x = bigEndian 32 (ofBigEndian coord) := by
  have same := DerSignatures.stripZeros_value coord
  have fits := ofBigEndian_lt (stripZeros coord)
  simp only [tryFitCoord]
  split_ifs with wide
  · have large : 2 ^ 256 ≤ ofBigEndian coord := by
      cases stripped : stripZeros coord with
      | nil => rw [stripped, List.length_nil] at wide; omega
      | cons first rest =>
        rw [stripped] at wide same
        rw [List.length_cons] at wide
        rcases DerSignatures.stripZeros_lead stripped with positive | rfl
        · have one : 1 ≤ first.toNat := by
            by_contra zero
            exact positive (UInt8.toNat_inj.mp (show first.toNat = 0 by omega))
          have lead := le_ofBigEndian_cons one rest
          have powers : 256 ^ 32 ≤ 256 ^ rest.length := Nat.pow_le_pow_right (by omega) (by omega)
          omega
        · rw [List.length_nil] at wide
          omega
    constructor
    · intro h
      cases h
    · intro h
      omega
  · have small : ofBigEndian coord < 2 ^ 256 := by
      have powers : 256 ^ (stripZeros coord).length ≤ 256 ^ 32 :=
        Nat.pow_le_pow_right (by omega) (by omega)
      omega
    have width : (List.replicate (32 - (stripZeros coord).length) 0 ++ stripZeros coord).length =
        32 := by
      rw [List.length_append, List.length_replicate]
      omega
    have padded := bigEndian_ofBigEndian
      (List.replicate (32 - (stripZeros coord).length) 0 ++ stripZeros coord)
    rw [width, ofBigEndian_zeros, same] at padded
    rw [← padded]
    constructor
    · intro h
      exact ⟨small, (Option.some.inj h).symm⟩
    · rintro ⟨_, rfl⟩
      rfl

theorem DerReading.length {der : Bytes} {r s : ℕ} (reading : DerReading der r s) :
    8 ≤ der.length := by
  obtain ⟨rBytes, sBytes, _, _, rSome, sSome, ⟨rField, rForm, _, rfl⟩, ⟨sField, sForm, _, rfl⟩,
    ⟨field, form, _, rfl⟩, _⟩ := reading
  have := List.length_pos_iff.mpr rSome
  have := List.length_pos_iff.mpr sSome
  have := rForm.nonempty
  have := sForm.nonempty
  have := form.nonempty
  simp only [List.length_cons, List.length_append]
  omega

theorem fitCoords_some {r s p : Bytes} :
    DerSignatures.fitCoords r s = some p ↔
      (ofBigEndian r < 2 ^ 256 ∧ ofBigEndian s < 2 ^ 256) ∧
        p = bigEndian 32 (ofBigEndian r) ++ bigEndian 32 (ofBigEndian s) := by
  simp only [DerSignatures.fitCoords, Option.bind_eq_bind, Option.bind_eq_some_iff,
    tryFitCoord_some, pure, Option.some.injEq]
  constructor
  · rintro ⟨x, ⟨rSmall, rfl⟩, y, ⟨sSmall, rfl⟩, rfl⟩
    exact ⟨⟨rSmall, sSmall⟩, rfl⟩
  · rintro ⟨⟨rSmall, sSmall⟩, rfl⟩
    exact ⟨_, ⟨rSmall, rfl⟩, _, ⟨sSmall, rfl⟩, rfl⟩

theorem content_some {content p : Bytes} :
    ((readInteger content).bind fun (r, rest) => (readInteger rest).bind fun (s, rest) =>
        if rest ≠ [] then none else DerSignatures.fitCoords r s) = some p ↔
      ∃ rBytes sBytes first second, rBytes ≠ [] ∧ sBytes ≠ [] ∧ Element 2 0x02 rBytes first ∧
        Element 2 0x02 sBytes second ∧ content = first ++ second ∧
        DerSignatures.fitCoords rBytes sBytes = some p := by
  constructor
  · intro h
    obtain ⟨⟨rBytes, rest⟩, readR, afterR⟩ := Option.bind_eq_some_iff.mp h
    obtain ⟨⟨sBytes, rest'⟩, readS, afterS⟩ := Option.bind_eq_some_iff.mp afterR
    obtain ⟨rSome, first, rElement, rfl⟩ := readInteger_some.mp readR
    obtain ⟨sSome, second, sElement, rfl⟩ := readInteger_some.mp readS
    dsimp only at afterS
    split_ifs at afterS with more
    obtain rfl := not_not.mp more
    exact ⟨rBytes, sBytes, first, second, rSome, sSome, rElement, sElement,
      by rw [List.append_nil], afterS⟩
  · rintro ⟨rBytes, sBytes, first, second, rSome, sSome, rElement, sElement, rfl, fit⟩
    have readR : readInteger (first ++ second) = _ :=
      readInteger_some.mpr ⟨rSome, first, rElement, rfl⟩
    have readS : readInteger second = some (sBytes, []) :=
      readInteger_some.mpr ⟨sSome, second, sElement, (List.append_nil _).symm⟩
    rw [readR, Option.bind_some]
    dsimp only
    rw [readS]
    exact fit

theorem tryDerToP1363_tagged {der p : Bytes} (h : EcdsaSignatures.tryDerToP1363 der = some p) :
    (∃ rest, der = 0x30 :: rest) ∧ ¬ der.length < 8 := by
  by_cases short : der.length < 8
  · rw [EcdsaSignatures.tryDerToP1363.eq_def, if_pos short] at h
    cases h
  cases der with
  | nil => exact absurd (by decide) short
  | cons tag rest =>
    by_cases sequence : tag = 0x30
    · exact ⟨⟨rest, by rw [sequence]⟩, short⟩
    · rw [EcdsaSignatures.tryDerToP1363.eq_def, if_neg short] at h
      dsimp only at h
      rw [if_pos sequence] at h
      cases h

theorem tryDerToP1363_some {der p : Bytes} :
    EcdsaSignatures.tryDerToP1363 der = some p ↔
      ∃ r s, DerReading der r s ∧ (r < 2 ^ 256 ∧ s < 2 ^ 256) ∧
        p = bigEndian 32 r ++ bigEndian 32 s := by
  constructor
  · intro h
    obtain ⟨⟨rest, whole⟩, many⟩ := tryDerToP1363_tagged h
    rw [DerSignatures.tryDerToP1363_sequence whole many] at h
    obtain ⟨⟨seqLen, content⟩, read, after⟩ := Option.bind_eq_some_iff.mp h
    obtain ⟨field, form, width, rfl⟩ := readDerLength_some.mp read
    dsimp only at after
    split_ifs at after with spans
    obtain ⟨rBytes, sBytes, first, second, rSome, sSome, rElement, sElement, rfl, fit⟩ :=
      content_some.mp after
    have sequence : Element 2 0x30 (first ++ second) der :=
      ⟨field, by rwa [← not_not.mp spans], width, whole⟩
    exact ⟨_, _, ⟨rBytes, sBytes, first, second, rSome, sSome, rElement, sElement, sequence, rfl,
      rfl⟩, fitCoords_some.mp fit⟩
  · rintro ⟨r, s, reading, fit⟩
    have many : ¬ der.length < 8 := Nat.not_lt.mpr reading.length
    obtain ⟨rBytes, sBytes, first, second, rSome, sSome, rElement, sElement,
      ⟨field, form, width, whole⟩, rfl, rfl⟩ := reading
    have read : readDerLength (field ++ (first ++ second)) = _ :=
      readDerLength_some.mpr ⟨field, form, width, rfl⟩
    rw [DerSignatures.tryDerToP1363_sequence whole many, read, Option.bind_some]
    dsimp only
    rw [if_neg (not_not.mpr rfl)]
    exact content_some.mpr ⟨rBytes, sBytes, first, second, rSome, sSome, rElement, sElement, rfl,
      fitCoords_some.mpr fit⟩

section
variable {P : Platform} {key payload signature : Bytes}

theorem verify_quiet (quiet : ∀ message, P.verifyData key payload signature ≠
    .otherException message) : ∃ verified, verify P key payload signature = .ok verified := by
  unfold verify
  split_ifs with empty
  · exact ⟨false, rfl⟩
  · cases answer : P.verifyData key payload signature with
    | answer verified => exact ⟨verified, rfl⟩
    | cryptographicException => exact ⟨false, rfl⟩
    | argumentException => exact ⟨false, rfl⟩
    | otherException message => exact absurd answer (quiet message)

theorem verifyAcceptingEitherFormat_iff (keySome : key ≠ []) (payloadSome : payload ≠ [])
    (signatureSome : signature ≠ [])
    (quiet : ∀ message, P.verifyData key payload signature ≠ .otherException message) :
    verifyAcceptingEitherFormat P key payload signature = .ok true ↔
      VaultGates.VerifiesInEitherFormat P key payload signature := by
  refine ⟨VaultGates.verifyAcceptingEitherFormat_true, fun h => ?_⟩
  have some : ¬ (key = [] ∨ payload = [] ∨ signature = []) := by
    rintro (none | none | none)
    · exact keySome none
    · exact payloadSome none
    · exact signatureSome none
  obtain ⟨fast, direct⟩ := verify_quiet quiet
  rw [verifyAcceptingEitherFormat, if_neg some, direct]
  rcases h with ⟨width, accepted⟩ | ⟨p, read, accepted⟩
  · rw [direct] at accepted
    rw [if_pos width, accepted]
  · cases fast with
    | true => split_ifs <;> simp [read, accepted]
    | false => split_ifs <;> simp [read, accepted]

end

/-- No input makes the parser throw or read outside, and what it takes is what the grammar
allows. -/
theorem der_acceptance (signature : Bytes) :
    (∃ result, DerSignatures.tryDerToP1363 signature = .ok result ∧
      ∀ p, result = some p ↔ ∃ r s, DerReading signature r s ∧ (r < 2 ^ 256 ∧ s < 2 ^ 256) ∧
        p = bigEndian 32 r ++ bigEndian 32 s) ∧
    ∀ (P : Platform) (key payload : Bytes), key ≠ [] → payload ≠ [] → signature ≠ [] →
      (∀ message, P.verifyData key payload signature ≠ .otherException message) →
      (verifyAcceptingEitherFormat P key payload signature = .ok true ↔
        (signature.length = 64 ∧ verify P key payload signature = .ok true) ∨
        ∃ r s, DerReading signature r s ∧ (r < 2 ^ 256 ∧ s < 2 ^ 256) ∧
          verify P key payload (bigEndian 32 r ++ bigEndian 32 s) = .ok true) := by
  refine ⟨⟨_, DerSignatures.tryDerToP1363_eq signature, fun p => tryDerToP1363_some⟩, ?_⟩
  intro P key payload keySome payloadSome signatureSome quiet
  rw [verifyAcceptingEitherFormat_iff keySome payloadSome signatureSome quiet]
  refine or_congr_right ⟨?_, ?_⟩
  · rintro ⟨p, read, accepted⟩
    obtain ⟨r, s, reading, fit, rfl⟩ := tryDerToP1363_some.mp read
    exact ⟨r, s, reading, fit, accepted⟩
  · rintro ⟨r, s, reading, fit, accepted⟩
    exact ⟨_, tryDerToP1363_some.mpr ⟨r, s, reading, fit, rfl⟩, accepted⟩

theorem der_acceptance_raw : verifyAcceptingEitherFormat Sample.lineless Sample.opSignPubKey
    Sample.makeCbor Sample.makeSignature = .ok true :=
  ((der_acceptance Sample.makeSignature).2 Sample.lineless Sample.opSignPubKey Sample.makeCbor
    (List.cons_ne_nil _ _) (List.cons_ne_nil _ _) (List.cons_ne_nil _ _) (by intro _; nofun)).mpr
    (.inl ⟨bigEndian_length _ _, by decide +kernel⟩)

end KeePassKeyWin.DerAcceptance
