import KeePassKeyWin.CborBuffer
import KeePassKeyWin.CborFailures

set_option autoImplicit false

/-!
# What `SkipValue` skips

The items of the grammar and nothing else, over the array, from any position in it.
-/
namespace KeePassKeyWin.CborSkipping
open ByteStrings JsonRpc OutcomeRules CborGrammar CborExactness CborBuffer
open CborReading (intMaxValue Reader)

variable {b b' : BufferReader}

theorem left_bounded (within : b.Within) : b.left.length ≤ intMaxValue := by
  have length := left_length within
  have bound := b.buf.length_le
  have size : b.buf.length = b.buf.bytes.length := rfl
  obtain ⟨low, high⟩ := within
  simp only [intMaxValue]
  omega

theorem skipItem_deep (within : b.Within) {fuel : ℕ} (deep : b.left.length < fuel) :
    CborReading.skipItem fuel b.view = CborReading.skipValue b.view :=
  (CborFailures.skipItem_alike (Q := fun _ => True) (fun _ => trivial) deep (Nat.lt_succ_self _)
    (left_bounded within) b.view le_rfl).1

theorem skipValue_malformed (within : b.Within) {e : Exn} {t : CborReading.CborReader}
    (run : CborReading.skipValue b.view = .error e t) : ∃ message, e = .cborReader message :=
  (CborFailures.skipItem_alike (Q := fun e => ∃ message, e = .cborReader message)
    (fun message => ⟨message, rfl⟩) (Nat.lt_succ_self _) (Nat.lt_succ_self _)
    (left_bounded within) b.view le_rfl).2 e t run

theorem skipValue_simulates (within : b.Within) :
    SimulatesAt b skipValue CborReading.skipValue :=
  skipItem_simulates (b.left.length + 1) b within

theorem skipValue_ok (within : b.Within) : skipValue b = .ok () b' ↔
    b'.Within ∧ b'.buf = b.buf ∧ CborReading.skipValue b.view = .ok () b'.view := by
  have simulates := skipValue_simulates within
  constructor
  · exact fun run => simulates.ok run
  · rintro ⟨within', same, run'⟩
    cases run : skipValue b with
    | ok a b'' =>
      obtain ⟨within'', same', run''⟩ := simulates.ok run
      rw [run'] at run''
      have view := (EStateM.Result.ok.inj run'').2
      rw [view_inj within'' within' (same.trans same'.symm) view]
    | error e b'' =>
      have failed := (simulates.error run).2.2
      rw [run'] at failed
      cases failed

/-- What a reader takes, when it is an item, `SkipValue` takes too. -/
theorem skipValue_of_reads {α : Type} {m : Reading α} {m' : Reader α} {R : Bytes → α → Prop}
    (simulates : Simulates m m') (reads : Reads intMaxValue m' R)
    (item : ∀ bs a, R bs a → Item bs) (within : b.Within) {a : α} (run : m b = .ok a b') :
    skipValue b = .ok () b' := by
  obtain ⟨within', same, run'⟩ := (simulates b within).ok run
  have short := left_bounded within
  obtain ⟨bs, after, hbs⟩ := (reads b.view short a b'.view).mp run'
  refine (skipValue_ok within).mpr ⟨within', same, ?_⟩
  exact (CborFailures.skipValue_reads le_rfl b.view short () b'.view).mpr ⟨bs, after, item bs a hbs⟩

/-- A typed reader for an item of its own. -/
def Typed (b b' : BufferReader) : Prop :=
  (∃ n, readUnsignedInt b = .ok n b') ∨ (∃ v, readNegativeInt b = .ok v b') ∨
    (∃ content, readByteString b = .ok content b') ∨ (∃ s, readTextString b = .ok s b') ∨
    ∃ v, readBool b = .ok v b'

theorem skipValue_of_typed (within : b.Within) (typed : Typed b b') :
    skipValue b = .ok () b' := by
  rcases typed with ⟨n, run⟩ | ⟨v, run⟩ | ⟨content, run⟩ | ⟨s, run⟩ | ⟨v, run⟩
  · exact skipValue_of_reads readUnsignedInt_simulates readUnsignedInt_reads
      (fun _ _ head => .integer (.inl rfl) head) within run
  · exact skipValue_of_reads readNegativeInt_simulates readNegativeInt_reads
      (fun _ _ ⟨_, _, head, _⟩ => .integer (.inr rfl) head) within run
  · refine skipValue_of_reads readByteString_simulates (readByteString_reads le_rfl) ?_ within run
    rintro _ content ⟨front, rfl, head⟩
    exact .string (.inl rfl) head rfl
  · refine skipValue_of_reads readTextString_simulates (readTextString_reads le_rfl) ?_ within run
    rintro _ _ ⟨content, ⟨front, rfl, head⟩, _⟩
    exact .string (.inr rfl) head rfl
  · refine skipValue_of_reads readBool_simulates readBool_reads ?_ within run
    rintro _ v rfl
    cases v
    · exact .simple (by decide)
    · exact .simple (by decide)

/-- The reader moves to `q` exactly when one item stands there. -/
theorem skipValue_moves (within : b.Within) (q : ℤ) :
    (∃ b', skipValue b = .ok () b' ∧ b'.pos = q) ↔
      b.pos ≤ q ∧ q ≤ b.buf.length ∧ Item (b.upTo q) := by
  have length := left_length within
  have short := left_bounded within
  constructor
  · rintro ⟨b', run, rfl⟩
    obtain ⟨within', same, run'⟩ := (skipValue_ok within).mp run
    obtain ⟨bs, ⟨left, after⟩, item⟩ := (CborFailures.skipValue_reads le_rfl b.view short () b'.view).mp run'
    have place : b'.pos.toNat = b.pos.toNat + bs.length := congrArg CborReading.CborReader.pos after
    have count : (b'.pos - b.pos).toNat = bs.length := by
      have := within.1
      have := within'.1
      omega
    have front : b.upTo b'.pos = bs := by
      rw [BufferReader.upTo, count, show b.left = bs ++ _ from left, List.take_left]
    refine ⟨?_, same ▸ within'.2, front ▸ item⟩
    have := within'.1
    omega
  · rintro ⟨low, high, item⟩
    have split : b.left = b.upTo q ++ b.left.drop (q - b.pos).toNat :=
      (List.take_append_drop _ _).symm
    have count : (b.upTo q).length = (q - b.pos).toNat := by
      rw [BufferReader.upTo, List.length_take]
      omega
    obtain ⟨run', _⟩ := (CborFailures.skipValue_reads le_rfl).reads (s := b.view) (a := ()) item split short
    cases run : skipValue b with
    | ok a b' =>
      obtain ⟨within', _, run''⟩ := (skipValue_simulates within).ok run
      have view := (EStateM.Result.ok.inj (run''.symm.trans run')).2
      have place : b'.pos.toNat = b.pos.toNat + (b.upTo q).length :=
        congrArg CborReading.CborReader.pos view
      refine ⟨b', rfl, ?_⟩
      have := within.1
      have := within'.1
      omega
    | error e b' =>
      have failed := ((skipValue_simulates within).error run).2.2
      cases failed.symm.trans run'

/-- `SkipValue` takes exactly the items of the grammar, with any stack that is deep enough; it
fails in one way only, and never leaves the array. -/
theorem skipValue_grammar (b : BufferReader) (within : b.Within) :
    (∀ fuel, b.left.length < fuel → skipItem fuel b = skipValue b) ∧
    (∀ q, (∃ b', skipValue b = .ok () b' ∧ b'.pos = q) ↔
      b.pos ≤ q ∧ q ≤ b.buf.length ∧ Item (b.upTo q)) ∧
    (∀ e b', skipValue b = .error e b' → ∃ message, e = .cborReader message) ∧
    (final (skipValue b)).Within ∧ (final (skipValue b)).buf = b.buf ∧
    ∀ b', Typed b b' → skipValue b = .ok () b' := by
  have ends : (final (skipValue b)).Within ∧ (final (skipValue b)).buf = b.buf := by
    cases run : skipValue b with
    | ok a b' =>
      obtain ⟨within', same, _⟩ := (skipValue_simulates within).ok run
      exact ⟨within', same⟩
    | error e b' =>
      obtain ⟨within', same, _⟩ := (skipValue_simulates within).error run
      exact ⟨within', same⟩
  refine ⟨fun fuel deep => ?_, skipValue_moves within, fun e b' run => ?_, ends.1, ends.2,
    fun b' => skipValue_of_typed within⟩
  · exact (skipItem_simulates fuel b within).same (skipValue_simulates within)
      (skipItem_deep within deep)
  · exact skipValue_malformed within ((skipValue_simulates within).error run).2.2

def sample : BufferReader := ⟨⟨[0x00, 0x82, 0x01, 0xF5, 0x7F], by decide⟩, 1⟩

theorem skipValue_grammar_array : Item [0x82, 0x01, 0xF5] ∧
    skipItem 9 sample = skipValue sample ∧ (final (skipValue sample)).pos ≤ 5 := by
  have within : sample.Within := ⟨by decide, by decide⟩
  obtain ⟨deep, moves, _, ends, _⟩ := skipValue_grammar sample within
  exact ⟨((moves 4).mp ⟨_, rfl, rfl⟩).2.2, deep 9 (by decide), ends.2⟩

end KeePassKeyWin.CborSkipping
