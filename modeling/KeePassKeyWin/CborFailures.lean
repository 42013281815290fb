import KeePassKeyWin.CborExactness

set_option autoImplicit false

/-!
# What the CBOR readers throw

Every error of a reader is a `CborReaderException`; `SkipValue` with a deep enough stack throws
no other, and does not depend on how deep it is.
-/
namespace KeePassKeyWin.CborFailures
open ByteStrings JsonRpc OutcomeRules CborReading CborGrammar GrammarReaders CborExactness

variable {Q : Exn → Prop}

theorem position_throws : Throws Q position := by
  intro s e t h
  cases h

theorem peekByte_throws : Throws Q peekByte := by
  intro s e t h
  cases h

theorem advance_throws (count : ℕ) : Throws Q (advance count) := by
  intro s e t h
  cases h

variable (malformed : ∀ message, Q (.cborReader message))
include malformed

theorem fail_throws {α : Type} (message : String) : Throws Q (fail message : Reader α) :=
  .throw (malformed message)

theorem ensureAvailable_throws (count : ℕ) : Throws Q (ensureAvailable count) :=
  .bind .get fun _ => .ite (fail_throws malformed _) (.pure _)

theorem validateAdditionalInfo_throws (ai : ℕ) : Throws Q (validateAdditionalInfo ai) := by
  unfold validateAdditionalInfo
  exact .guard (fail_throws malformed _) (.ite (fail_throws malformed _) (.pure _))

theorem readArgument_throws (ai : ℕ) : Throws Q (readArgument ai) := by
  unfold readArgument
  exact .ite (.pure _) (.bind (ensureAvailable_throws malformed _) fun _ =>
    .bind (advance_throws _) fun _ => .pure _)

theorem readInitialByte_throws : Throws Q readInitialByte := by
  refine .bind (ensureAvailable_throws malformed 1) fun _ => .bind (advance_throws 1) fun _ =>
    .bind position_throws fun _ => ?_
  refine .guard (fail_throws malformed _) (.guard (fail_throws malformed _) ?_)
  exact .bind (validateAdditionalInfo_throws malformed _) fun _ =>
    .bind (readArgument_throws malformed _) fun _ => .pure _

theorem ensureLength_throws (length : ℕ) : Throws Q (ensureLength length) := by
  refine .bind .get fun _ => ?_
  exact .guard (fail_throws malformed _) (.ite (fail_throws malformed _) (.pure _))

theorem readBytes_throws (length : ℕ) : Throws Q (readBytes length) :=
  .bind (ensureLength_throws malformed length) fun _ => advance_throws length

theorem skipBytes_throws (length : ℕ) : Throws Q (skipBytes length) :=
  .bind (ensureLength_throws malformed length) fun _ =>
    .bind (advance_throws length) fun _ => .pure _

theorem expectMajorType_throws (mt : ℕ) (expected : String) :
    Throws Q (expectMajorType mt expected) := by
  refine .bind (readInitialByte_throws malformed) fun _ => ?_
  refine .ite (.bind position_throws fun _ => ?_) (.pure _)
  exact .bind (fail_throws malformed _) fun _ => .pure _

theorem peekMajorType_throws : Throws Q peekMajorType :=
  .bind (ensureAvailable_throws malformed 1) fun _ => .bind peekByte_throws fun _ => .pure _

theorem readUnsignedInt_throws : Throws Q readUnsignedInt := expectMajorType_throws malformed 0 _

theorem bounded_throws {α : Type} (mt : ℕ) (expected : String) (c : ℕ → Prop) [DecidablePred c]
    (message : ℕ → ℕ → String) (result : ℕ → α) : Throws Q (do
      let value ← expectMajorType mt expected
      if c value then
        let pos ← position
        fail (message value pos)
      return result value : Reader α) := by
  refine .bind (expectMajorType_throws malformed mt expected) fun _ => ?_
  refine .ite (.bind position_throws fun _ => ?_) (.pure _)
  exact .bind (fail_throws malformed _) fun _ => .pure _

theorem readNegativeInt_throws : Throws Q readNegativeInt :=
  bounded_throws malformed 1 _ (2 ^ 63 - 1 < ·) (fun _ pos =>
    s!"Negative integer out of Int64 range at offset {pos}.") fun value => -1 - (value : ℤ)

theorem readByteString_throws : Throws Q readByteString :=
  .bind (expectMajorType_throws malformed 2 _) fun _ => readBytes_throws malformed _

theorem readTextString_throws : Throws Q readTextString :=
  .bind (expectMajorType_throws malformed 3 _) fun _ =>
    .bind (readBytes_throws malformed _) fun _ => .pure _

theorem readArrayHeader_throws : Throws Q readArrayHeader :=
  bounded_throws malformed 4 _ (intMaxValue < ·) (fun count pos =>
    s!"Array count {count} exceeds Int32.MaxValue at offset {pos}.") id

theorem readMapHeader_throws : Throws Q readMapHeader :=
  bounded_throws malformed 5 _ (intMaxValue < ·) (fun count pos =>
    s!"Map pair count {count} exceeds Int32.MaxValue at offset {pos}.") id

theorem readBool_throws : Throws Q readBool := by
  refine .bind (ensureAvailable_throws malformed 1) fun _ => .bind peekByte_throws fun _ => ?_
  refine .ite (.bind (advance_throws 1) fun _ => .pure _) ?_
  refine .ite (.bind (advance_throws 1) fun _ => .pure _) ?_
  exact .bind position_throws fun _ => fail_throws malformed _

variable {limit : ℕ}

theorem skipBody_alike {fuel fuel' shorter mt : ℕ} (ai : ℕ) (room : limit ≤ shorter + 1)
    (exact : Reads shorter (skipItem fuel) fun bs _ => Item bs)
    (nested : Alike cursor shorter Q (skipItem fuel) (skipItem fuel')) :
    Alike cursor limit Q (skipBody fuel mt ai) (skipBody fuel' mt ai) := by
  have head : ∀ {f f' : ℕ × ℕ → Reader Unit}, (∀ p, Alike cursor shorter Q (f p) (f' p)) →
      Alike cursor limit Q (readInitialByte >>= f) (readInitialByte >>= f') := by
    intro f f' each
    have first : Alike cursor limit Q readInitialByte readInitialByte :=
      .of_throws (readInitialByte_throws malformed)
    refine first.bind_shorter readInitialByte_reads fun p bs h => ⟨?_, each p⟩
    have := List.length_pos_of_ne_nil h.2.ne_nil
    omega
  match mt with
  | 0 | 1 => exact head fun _ => .of_throws (.pure ())
  | 2 | 3 => exact head fun p => .of_throws (skipBytes_throws malformed p.2)
  | 4 => exact head fun p => .times (fun _ => nested) (fun _ => exact) p.2 ()
  | 5 =>
    refine head fun p => .times (fun _ => ?_) (fun _ => exact.bind fun _ _ _ => exact) p.2 ()
    exact nested.bind_shorter exact fun _ _ _ => ⟨Nat.le_add_right .., nested⟩
  | 7 =>
    refine .of_throws (.ite (.bind (advance_throws 1) fun _ => .pure _) ?_)
    exact .bind position_throws fun _ => fail_throws malformed _
  | 6 | n + 8 => exact .of_throws (.bind position_throws fun _ => fail_throws malformed _)

theorem skipItem_alike {fuel fuel' : ℕ} (deep : limit < fuel) (deep' : limit < fuel')
    (bounded : limit ≤ intMaxValue) :
    Alike cursor limit Q (skipItem fuel) (skipItem fuel') := by
  induction fuel generalizing limit fuel' with
  | zero => omega
  | succ fuel ih =>
    obtain ⟨fuel', rfl⟩ := Nat.exists_eq_add_one_of_ne_zero (Nat.ne_zero_of_lt deep')
    rintro ⟨pos, rest⟩ short
    cases rest with
    | nil =>
      refine ⟨rfl, ?_⟩
      rintro _ _ ⟨⟩
      exact malformed _
    | cons b rest =>
      have length : rest.length + 1 ≤ limit := short
      rw [skipItem_cons, skipItem_cons]
      rcases validateAdditionalInfo_run (show b.toNat % 32 < 32 by omega) ⟨pos, b :: rest⟩ with
        ⟨_, checked⟩ | ⟨_, message, checked⟩
      · rw [bind_of_ok checked, bind_of_ok checked]
        have nested : Alike cursor (limit - 1) Q (skipItem fuel) (skipItem fuel') :=
          ih (by omega) (by omega) (by omega)
        have exact : Reads (limit - 1) (skipItem fuel) fun bs _ => Item bs :=
          skipItem_reads (by omega) (by omega)
        exact skipBody_alike malformed _ (by omega) exact nested _ short
      · rw [bind_of_error checked, bind_of_error checked]
        refine ⟨rfl, ?_⟩
        rintro _ _ ⟨⟩
        exact malformed message

omit malformed in
theorem skipValue_reads (bounded : limit ≤ intMaxValue) :
    Reads limit skipValue fun bs _ => Item bs := by
  intro r short a t
  have deep : limit < limit + 1 := Nat.lt_succ_self _
  have same := (skipItem_alike (Q := fun _ => True) (fun _ => trivial)
    (Nat.lt_succ_self r.rest.length) (Nat.lt_succ_of_le short) (Nat.le_trans short bounded)
    r le_rfl).1
  change skipItem _ r = _ ↔ _
  rw [same]
  exact skipItem_reads deep bounded r short a t

end KeePassKeyWin.CborFailures
