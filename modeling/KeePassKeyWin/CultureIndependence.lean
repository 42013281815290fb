import KeePassKeyWin.NumberReading
import KeePassKeyWin.VaultOutcomes

set_option autoImplicit false

/-!
# Records under another culture

The algorithm is written and read under the current culture, and a text that does not parse stands
for ES256; the counter is written and read under the invariant one.
-/
namespace KeePassKeyWin.CultureIndependence
open JsonRpc NumberFormat NumberReading PlatformServices FirstMatch PasskeyStore
open VaultOutcomes (Sample.lineless Sample.plugin Sample.outside Sample.record)

structure CultureFree (P : Platform) (written read : NumberFormatInfo) (record : PasskeyRecord) :
    Prop where
  record : ∀ {out : Outside} {s s' : Plugin}, s.culture = written → s.isVaultOpen = true →
    add P out record s = .ok () s' →
      (s'.entries.map (entryToRecord P read)).getLast? = some record
  counter : ∀ {out : Outside} {s s' : Plugin} {credentialId : String} {n : ℕ},
    s.culture = written → incrementSignCount out credentialId s = .ok n s' →
      ∃ e, s'.entries.find? (hasId credentialId) = some e ∧
        (entryToRecord P read e).signCount = n

/-- The reader finds its own negative sign before the digits, or finds no number and falls back to
the algorithm that was written. -/
def AlgorithmReadsBack (written read : NumberFormatInfo) (algId : ℤ) : Prop :=
  Signs read written.negativeSign.toList algId.natAbs ∨
    algId = -7 ∧ Unread read written.negativeSign.toList algId.natAbs

theorem intToString_negative {format : NumberFormatInfo} {n : ℕ} (positive : 0 < n) :
    (intToString format (-(n : ℤ))).toList =
      format.negativeSign.toList ++ Nat.toDigits 10 n := by
  have negative : -(n : ℤ) < 0 := by omega
  rw [intToString, if_pos negative, String.toList_append, String.toList_ofList, Int.natAbs_neg,
    Int.natAbs_natCast]

theorem intTryParse_negative {format : NumberFormatInfo} {s : String} {sign : List Char} {n : ℕ}
    (positive : 0 < n) (small : n ≤ 2 ^ 31) (text : s.toList = sign ++ Nat.toDigits 10 n) :
    intTryParse format (some s) = some (-(n : ℤ)) ↔ Signs format sign n := by
  rw [← parseInteger_negative positive text, intTryParse, Option.bind_some,
    Option.filter_eq_some_iff, decide_eq_true_eq]
  exact and_iff_left (by omega)

theorem algorithmReadsBack_iff {written read : NumberFormatInfo} {n : ℕ} (positive : 0 < n)
    (small : n ≤ 2 ^ 31) :
    (intTryParse read (some (intToString written (-(n : ℤ))))).getD (-7) = -(n : ℤ) ↔
      AlgorithmReadsBack written read (-(n : ℤ)) := by
  have text : (intToString written (-(n : ℤ))).toList =
      written.negativeSign.toList ++ Nat.toDigits 10 n := intToString_negative positive
  rw [AlgorithmReadsBack, Int.natAbs_neg, Int.natAbs_natCast,
    ← intTryParse_negative positive small text, ← intTryParse_none text]
  cases intTryParse read (some (intToString written (-(n : ℤ)))) with
  | none => simp [eq_comm]
  | some z => simp

theorem entryToRecord_eq_iff {P : Platform} {written read : NumberFormatInfo}
    {record : PasskeyRecord} (fresh : record.signCount = 0) :
    entryToRecord P read (recordToEntry P written record) = record ↔
      (intTryParse read (some (intToString written record.algId))).getD (-7) = record.algId := by
  rw [entryToRecord_across]
  constructor
  · intro same
    exact congrArg PasskeyRecord.algId same
  · intro same
    rw [same, ← fresh]

theorem counter_written {P : Platform} {read : NumberFormatInfo} {out : Outside} {s s' : Plugin}
    {credentialId : String} {n : ℕ} (h : incrementSignCount out credentialId s = .ok n s') :
    ∃ e, s'.entries.find? (hasId credentialId) = some e ∧
      (entryToRecord P read e).signCount = n := by
  obtain ⟨e, found, notMax, rfl, _, rfl⟩ := incrementSignCount_ok.mp h
  refine ⟨e.setSignCount (e.signCount + 1), ?_, signCount_setSignCount (next_lt notMax) e⟩
  rw [saved_entries, Plugin.counted, entries_mapEntries rfl, find?_modifyFirst, found]
  · rfl
  · exact hasId_setSignCount credentialId _

def opened (culture : NumberFormatInfo) : Plugin := { Sample.plugin with culture := culture }

theorem add_opened (P : Platform) (culture : NumberFormatInfo) (record : PasskeyRecord) :
    ∃ s', add P Sample.outside record (opened culture) = .ok () s' ∧
      s'.entries = [recordToEntry P culture record] := by
  refine ⟨_, add_ok.mpr ⟨rfl, rfl, rfl⟩, ?_⟩
  rw [saved_entries, entries_addEntry _ rfl]
  rfl

theorem cultureFree_iff (P : Platform) (written read : NumberFormatInfo) (record : PasskeyRecord)
    (fresh : record.signCount = 0) (known : record.algId = -7 ∨ record.algId = -257) :
    CultureFree P written read record ↔ AlgorithmReadsBack written read record.algId := by
  have algorithm : (intTryParse read (some (intToString written record.algId))).getD (-7) =
      record.algId ↔ AlgorithmReadsBack written read record.algId := by
    rcases known with es256 | rs256
    · rw [es256]
      exact algorithmReadsBack_iff (n := 7) (by omega) (by omega)
    · rw [rs256]
      exact algorithmReadsBack_iff (n := 257) (by omega) (by omega)
  rw [← algorithm, ← entryToRecord_eq_iff (P := P) fresh]
  constructor
  · intro h
    obtain ⟨s', added, entries⟩ := add_opened P written record
    have last := h.record rfl rfl added
    rw [entries] at last
    exact Option.some.inj last
  · intro same
    refine ⟨fun culture isOpen added => ?_, fun _ counted => counter_written counted⟩
    obtain ⟨_, _, rfl⟩ := add_ok.mp added
    rw [saved_entries, entries_addEntry _ isOpen, culture, List.map_append, List.map_singleton,
      List.getLast?_concat, same]

/-- A format whose negative sign is U+2212, as Swedish has it. -/
def swedish : NumberFormatInfo := ⟨"\u2212", "+"⟩

def rs256Record : PasskeyRecord := { Sample.record "example.com" with algId := -257 }

theorem cultureFree_swedish : CultureFree Sample.lineless swedish swedish rs256Record :=
  (cultureFree_iff Sample.lineless swedish swedish rs256Record rfl (.inr rfl)).mpr
    (.inl ⟨by decide, ⟨0, by decide⟩, .inr (by decide)⟩)

/-- An RS256 credential written under the Swedish format is read as ES256 under the invariant
one. -/
theorem swedish_reads_es256 : rs256Record.signCount = 0 ∧ rs256Record.algId = -257 ∧
    (entryToRecord Sample.lineless invariant
      (recordToEntry Sample.lineless swedish rs256Record)).algId = -7 ∧
    ¬ CultureFree Sample.lineless swedish invariant rs256Record := by
  have fallsBack : (intTryParse invariant (some (intToString swedish (-257)))).getD (-7) = -7 := by
    decide
  refine ⟨rfl, rfl, ?_, fun h => ?_⟩
  · rw [entryToRecord_across]
    exact fallsBack
  · obtain ⟨s', added, entries⟩ := add_opened Sample.lineless swedish rs256Record
    have last := h.record rfl rfl added
    rw [entries, List.map_singleton, List.getLast?_singleton, entryToRecord_across] at last
    have algId : (intTryParse invariant (some (intToString swedish (-257)))).getD (-7) = -257 :=
      congrArg PasskeyRecord.algId (Option.some.inj last)
    rw [fallsBack] at algId
    exact absurd algId (by decide)

end KeePassKeyWin.CultureIndependence
