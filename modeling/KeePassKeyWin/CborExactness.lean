import KeePassKeyWin.CborGrammar
import KeePassKeyWin.CborReading
import KeePassKeyWin.GrammarReaders

set_option autoImplicit false

/-!
# What the CBOR readers accept

The grammar of each reader, from any state with no more left than a .NET array holds.
-/
namespace KeePassKeyWin.CborExactness
open ByteStrings JsonRpc OutcomeRules CborCodec CborReading CborGrammar GrammarReaders

def cursor : Cursor CborReader UInt8 where
  left := CborReader.rest
  skip n r := ⟨r.pos + n, r.rest.drop n⟩
  left_skip _ _ := rfl
  skip_zero _ := rfl
  skip_skip m n r := by simp [Nat.add_assoc]

abbrev Reads {α : Type} (limit : ℕ) (m : Reader α) (R : Bytes → α → Prop) : Prop :=
  Exact cursor limit m R

variable {α : Type} {limit : ℕ}

theorem ensureAvailable_run (k : ℕ) (r : CborReader) :
    ensureAvailable k r = if r.rest.length < k then
      .error (.cborReader s!"Unexpected end of CBOR input at offset {r.pos}: need {k} more byte(s), {r.rest.length} available.") r
      else .ok () r := by
  obtain ⟨pos, rest⟩ := r
  simp only [ensureAvailable, get_bind, ite_run]
  rfl

theorem advance_run (k : ℕ) (r : CborReader) :
    advance k r = .ok (r.rest.take k) (cursor.skip k r) := rfl

theorem reads_available {k : ℕ} {f : Bytes → Reader α} {S : Bytes → Bytes → α → Prop}
    (rest : ∀ bs, bs.length = k → Reads limit (f bs) (S bs)) :
    Reads limit (ensureAvailable k >>= fun _ => advance k >>= f)
      (Then (fun bs a => bs.length = k ∧ a = bs) S) := by
  have bytes : Reads limit (ensureAvailable k >>= fun _ => advance k)
      (fun bs a => bs.length = k ∧ a = bs) := by
    intro r _ a t
    constructor
    · intro h
      obtain ⟨_, r', checked, read⟩ := bind_ok.mp h
      rw [ensureAvailable_run] at checked
      split_ifs at checked with short
      cases checked
      obtain ⟨rfl, rfl⟩ := EStateM.Result.ok.inj read
      have length : (r.rest.take k).length = k := by
        rw [List.length_take]
        omega
      refine ⟨r.rest.take k, ⟨(List.take_append_drop k r.rest).symm, ?_⟩, length, rfl⟩
      rw [length]
      rfl
    · rintro ⟨bs, ⟨left, rfl⟩, rfl, rfl⟩
      have enough : ¬ r.rest.length < a.length := by
        rw [show r.rest = a ++ _ from left, List.length_append]
        omega
      have front : r.rest.take a.length = a := by
        rw [show r.rest = a ++ _ from left, List.take_left]
      refine bind_ok.mpr ⟨(), r, by rw [ensureAvailable_run, if_neg enough], ?_⟩
      rw [advance_run, front]
  have split : (ensureAvailable k >>= fun _ => advance k >>= f) =
      (ensureAvailable k >>= fun _ => advance k) >>= f := (bind_assoc _ _ _).symm
  rw [split]
  refine bytes.bind fun bs cs h => ?_
  exact rest bs (h.2 ▸ h.1)

theorem reads_position {f : ℕ → Reader α} {S : Bytes → α → Prop}
    (rest : ∀ pos, Reads limit (f pos) S) : Reads limit (position >>= f) S :=
  Exact.observe (fun r => ⟨r.pos, rfl⟩) rest

theorem readArgument_reads {ai : ℕ} (known : ai < 28) :
    Reads limit (readArgument ai) fun bs n =>
      ai ≤ 23 ∧ bs = [] ∧ n = ai ∨
        argumentWidth ai = some bs.length ∧ n = ofBigEndian bs := by
  unfold readArgument
  refine (Exact.ite (fun short => Exact.pure ai) fun long =>
    reads_available fun bs _ => Exact.pure (ofBigEndian bs)).congr fun ds n => ?_
  by_cases short : ai ≤ 23
  · have none : argumentWidth ai = none := by
      unfold argumentWidth
      split <;> first | omega | rfl
    simp only [Nothing, none, reduceCtorEq, false_and, or_false, short, true_and, if_true]
    exact ⟨fun ⟨h, h'⟩ => ⟨h, h'.symm⟩, fun ⟨h, h'⟩ => ⟨h, h'.symm⟩⟩
  · have width : argumentWidth ai =
        some (if ai = 24 then 1 else if ai = 25 then 2 else if ai = 26 then 4 else 8) := by
      have cases : ai = 24 ∨ ai = 25 ∨ ai = 26 ∨ ai = 27 := by omega
      rcases cases with rfl | rfl | rfl | rfl <;> rfl
    simp only [short, false_and, false_or, width, Option.some.injEq, if_false]
    constructor
    · rintro ⟨_, bs, cs, rfl, ⟨hk, rfl⟩, rfl, rfl⟩
      rw [List.append_nil]
      exact ⟨hk.symm, rfl⟩
    · rintro ⟨hk, rfl⟩
      exact ⟨ds, ds, [], (List.append_nil ds).symm, ⟨hk.symm, rfl⟩, rfl, rfl⟩

theorem validateAdditionalInfo_run {ai : ℕ} (bound : ai < 32) (r : CborReader) :
    (ai < 28 ∧ validateAdditionalInfo ai r = .ok () r) ∨
      (28 ≤ ai ∧ ∃ message, validateAdditionalInfo ai r = .error (.cborReader message) r) := by
  unfold validateAdditionalInfo
  by_cases last : ai = 31
  · exact .inr ⟨by omega, _, by simp [last, fail]; rfl⟩
  by_cases reserved : 28 ≤ ai ∧ ai ≤ 30
  · exact .inr ⟨reserved.1, _, by simp [last, reserved, fail]; rfl⟩
  · exact .inl ⟨by omega, by simp [last, reserved]⟩

def afterInitial (mt ai : ℕ) : Reader (ℕ × ℕ) := do
  let offset := (← position) - 1
  if mt = 6 then
    fail s!"CBOR tags (major type 6) are not supported at offset {offset}."
  if mt = 7 then
    fail s!"CBOR floats/simple values (major type 7) are not supported at offset {offset}."
  validateAdditionalInfo ai
  return (mt, ← readArgument ai)

theorem initialByte (b : UInt8) :
    ofBigEndian [b] >>> 5 = b.toNat / 32 ∧ ofBigEndian [b] &&& 0x1F = b.toNat % 32 := by
  have value : ofBigEndian [b] = b.toNat := by simp [ofBigEndian]
  rw [value, Nat.shiftRight_eq_div_pow]
  exact ⟨rfl, Nat.and_two_pow_sub_one_eq_mod b.toNat 5⟩

theorem afterInitial_reads (b : UInt8) :
    Reads limit (afterInitial (b.toNat / 32) (b.toNat % 32)) fun bs p =>
      p.1 < 6 ∧ Head p.1 p.2 (b :: bs) := by
  have mt_lt : b.toNat / 32 < 8 := by
    have := b.toNat_lt
    omega
  have rejected : ¬ (b.toNat / 32 < 6 ∧ b.toNat % 32 < 28) → ∀ bs (p : ℕ × ℕ),
      Never bs p ↔ p.1 < 6 ∧ Head p.1 p.2 (b :: bs) := by
    rintro bad bs p
    refine iff_of_false id fun ⟨low, head⟩ => bad ?_
    obtain ⟨same, known, _⟩ := (head_iff (by omega)).mp head
    exact ⟨same ▸ low, known⟩
  unfold afterInitial
  refine reads_position fun offset => ?_
  dsimp only
  by_cases tag : b.toNat / 32 = 6
  · rw [if_pos tag]
    exact (Exact.never fun _ _ _ h => by cases h).congr (rejected (by omega))
  rw [if_neg tag]
  by_cases simple : b.toNat / 32 = 7
  · rw [if_pos simple]
    exact (Exact.never fun _ _ _ h => by cases h).congr (rejected (by omega))
  · rw [if_neg simple]
    by_cases known : b.toNat % 32 < 28
    · refine (Exact.observe (fun r => ⟨(), ?_⟩) fun _ =>
        (readArgument_reads known).map fun _ => rfl).congr fun bs p => ?_
      · rcases validateAdditionalInfo_run (show b.toNat % 32 < 32 by omega) r with ⟨_, h⟩ | ⟨h, _⟩
        · exact h
        · omega
      · constructor
        · rintro ⟨n, h, rfl⟩
          exact ⟨by omega, (head_iff mt_lt).mpr ⟨rfl, known, h⟩⟩
        · rintro ⟨low, head⟩
          obtain ⟨same, _, h⟩ := (head_iff (by omega)).mp head
          exact ⟨p.2, h, Prod.ext same rfl⟩
    · refine (Exact.never fun r p t h => ?_).congr (rejected (by omega))
      obtain ⟨_, _, checked, _⟩ := bind_ok.mp h
      rcases validateAdditionalInfo_run (show b.toNat % 32 < 32 by omega) r with ⟨h, _⟩ | ⟨_, m, h⟩
      · omega
      · rw [h] at checked
        cases checked

theorem readInitialByte_reads :
    Reads limit readInitialByte fun bs p => p.1 < 6 ∧ Head p.1 p.2 bs := by
  unfold readInitialByte
  refine (reads_available (S := fun bs cs p => p.1 < 6 ∧ Head p.1 p.2 (bs ++ cs))
    fun bs length => ?_).congr fun ds p => ?_
  · obtain ⟨b, rfl⟩ := List.length_eq_one_iff.mp length
    change Reads limit (afterInitial (ofBigEndian [b] >>> 5) (ofBigEndian [b] &&& 0x1F)) _
    rw [(initialByte b).1, (initialByte b).2]
    exact afterInitial_reads b
  constructor
  · rintro ⟨_, bs, cs, rfl, ⟨_, rfl⟩, low, head⟩
    exact ⟨low, head⟩
  · rintro ⟨low, head⟩
    obtain ⟨b, bs, rfl⟩ := List.exists_cons_of_ne_nil head.ne_nil
    exact ⟨[b], [b], bs, rfl, ⟨rfl, rfl⟩, low, head⟩

theorem expectMajorType_reads {mt : ℕ} (hmt : mt < 6) (expected : String) :
    Reads limit (expectMajorType mt expected) fun bs n => Head mt n bs := by
  refine (readInitialByte_reads.bind (S := fun p bs n => p.1 = mt ∧ bs = [] ∧ n = p.2)
    fun ⟨actual, value⟩ bs _ => ?_).congr fun ds n => ?_
  · dsimp only
    by_cases same : actual = mt
    · rw [if_neg (not_not_intro same)]
      refine (Exact.pure value).congr fun bs n => ?_
      exact ⟨fun ⟨h, h'⟩ => ⟨same, h, h'.symm⟩, fun ⟨_, h, h'⟩ => ⟨h, h'.symm⟩⟩
    · rw [if_pos same]
      refine (Exact.never fun r n t h => ?_).congr fun bs n => ⟨False.elim, fun h => same h.1⟩
      cases h
  · constructor
    · rintro ⟨⟨actual, value⟩, bs, cs, rfl, ⟨_, head⟩, rfl, rfl, rfl⟩
      rwa [List.append_nil]
    · exact fun head => ⟨(mt, n), ds, [], (List.append_nil ds).symm, ⟨hmt, head⟩, rfl, rfl, rfl⟩

theorem ensureLength_run (n : ℕ) (r : CborReader) :
    (n ≤ r.rest.length ∧ n ≤ intMaxValue ∧ ensureLength n r = .ok () r) ∨
      ((r.rest.length < n ∨ intMaxValue < n) ∧
        ∃ message, ensureLength n r = .error (.cborReader message) r) := by
  obtain ⟨pos, rest⟩ := r
  by_cases short : rest.length < n
  · exact .inr ⟨.inl short, _, by simp [ensureLength, short, fail]; rfl⟩
  by_cases long : intMaxValue < n
  · exact .inr ⟨.inr long, _, by simp [ensureLength, short, long, fail]; rfl⟩
  · exact .inl ⟨by simpa using short, by omega, by simp [ensureLength, short, long]⟩

theorem readBytes_reads (bounded : limit ≤ intMaxValue) (n : ℕ) :
    Reads limit (readBytes n) fun bs content => bs.length = n ∧ content = bs := by
  intro r short content t
  have short' : r.rest.length ≤ limit := short
  constructor
  · intro h
    obtain ⟨_, r', checked, read⟩ := bind_ok.mp h
    rcases ensureLength_run n r with ⟨enough, _, ok⟩ | ⟨_, _, error⟩
    · rw [ok] at checked
      cases checked
      obtain ⟨rfl, rfl⟩ := EStateM.Result.ok.inj read
      have length : (r.rest.take n).length = n := by
        rw [List.length_take]
        omega
      refine ⟨r.rest.take n, ⟨(List.take_append_drop n r.rest).symm, ?_⟩, length, rfl⟩
      rw [length]
      rfl
    · rw [error] at checked
      cases checked
  · rintro ⟨bs, ⟨left, rfl⟩, rfl, rfl⟩
    have split : r.rest = content ++ _ := left
    have enough : content.length ≤ r.rest.length := by
      rw [split, List.length_append]
      omega
    have front : r.rest.take content.length = content := by
      rw [split, List.take_left]
    rcases ensureLength_run content.length r with ⟨_, _, ok⟩ | ⟨long, _⟩
    · refine bind_ok.mpr ⟨(), r, ok, ?_⟩
      rw [advance_run, front]
    · omega

theorem skipBytes_reads (bounded : limit ≤ intMaxValue) (n : ℕ) :
    Reads limit (skipBytes n) fun bs _ => bs.length = n := by
  have skips : skipBytes n = readBytes n >>= fun _ => pure () := by
    simp only [skipBytes, readBytes, bind_assoc]
  rw [skips]
  refine ((readBytes_reads bounded n).map fun _ => rfl).congr fun bs _ => ?_
  exact ⟨fun ⟨_, h, _⟩ => h.1, fun h => ⟨bs, ⟨h, rfl⟩, rfl⟩⟩

def Content (mt : ℕ) (bs content : Bytes) : Prop :=
  ∃ front, bs = front ++ content ∧ Head mt content.length front

theorem content_reads (bounded : limit ≤ intMaxValue) {mt : ℕ} (hmt : mt < 6)
    (expected : String) :
    Reads limit (expectMajorType mt expected >>= readBytes) (Content mt) := by
  refine ((expectMajorType_reads hmt expected).bind fun n _ _ =>
    readBytes_reads bounded n).congr fun ds content => ?_
  constructor
  · rintro ⟨n, bs, cs, rfl, head, rfl, rfl⟩
    exact ⟨bs, rfl, head⟩
  · rintro ⟨front, rfl, head⟩
    exact ⟨content.length, front, content, rfl, head, rfl, rfl⟩

theorem readUnsignedInt_reads : Reads limit readUnsignedInt fun bs n => Head 0 n bs :=
  expectMajorType_reads (by omega) _

theorem readNegativeInt_reads : Reads limit readNegativeInt fun bs v =>
    ∃ n < 2 ^ 63, Head 1 n bs ∧ v = -1 - (n : ℤ) := by
  have first : Reads limit (expectMajorType 1 "negative integer") fun bs n => Head 1 n bs :=
    expectMajorType_reads (by omega) _
  refine (first.bind (S := fun (n : ℕ) bs v => n < 2 ^ 63 ∧ bs = [] ∧ v = -1 - (n : ℤ))
    fun n bs _ => ?_).congr fun ds v => ?_
  · dsimp only
    by_cases fits : n < 2 ^ 63
    · rw [if_neg (by omega)]
      refine (Exact.pure (-1 - (n : ℤ))).congr fun bs v => ?_
      exact ⟨fun ⟨h, h'⟩ => ⟨fits, h, h'.symm⟩, fun ⟨_, h, h'⟩ => ⟨h, h'.symm⟩⟩
    · rw [if_pos (by omega)]
      refine (Exact.never fun r n t h => ?_).congr fun bs v => ⟨False.elim, fun h => fits h.1⟩
      cases h
  · constructor
    · rintro ⟨n, bs, cs, rfl, head, fits, rfl, rfl⟩
      exact ⟨n, fits, by rwa [List.append_nil], rfl⟩
    · rintro ⟨n, fits, head, rfl⟩
      exact ⟨n, ds, [], (List.append_nil ds).symm, head, fits, rfl, rfl⟩

theorem readByteString_reads (bounded : limit ≤ intMaxValue) :
    Reads limit readByteString (Content 2) := content_reads bounded (show 2 < 6 by omega) _

theorem readTextString_reads (bounded : limit ≤ intMaxValue) :
    Reads limit readTextString fun bs s => ∃ content, Content 3 bs content ∧ getString content = s := by
  have split : readTextString =
      (expectMajorType 3 "text string" >>= readBytes) >>= fun c => pure (getString c) := by
    simp only [readTextString, bind_assoc]
  rw [split]
  exact (content_reads bounded (show 3 < 6 by omega) _).map fun _ => rfl

theorem count_reads {mt : ℕ} (hmt : mt < 6) (expected : String) (message : ℕ → ℕ → String) :
    Reads limit (expectMajorType mt expected >>= fun count => do
      if intMaxValue < count then
        let pos ← position
        fail (message count pos)
      return count) fun bs n => Head mt n bs ∧ n ≤ intMaxValue := by
  refine ((expectMajorType_reads hmt expected).bind (S := fun n bs m =>
    n ≤ intMaxValue ∧ bs = [] ∧ m = n) fun n bs _ => ?_).congr fun ds m => ?_
  · dsimp only
    by_cases fits : n ≤ intMaxValue
    · rw [if_neg (by omega)]
      refine (Exact.pure n).congr fun bs v => ?_
      exact ⟨fun ⟨h, h'⟩ => ⟨fits, h, h'.symm⟩, fun ⟨_, h, h'⟩ => ⟨h, h'.symm⟩⟩
    · rw [if_pos (by omega)]
      refine (Exact.never fun r n t h => ?_).congr fun bs v => ⟨False.elim, fun h => fits h.1⟩
      cases h
  · constructor
    · rintro ⟨n, bs, cs, rfl, head, fits, rfl, rfl⟩
      exact ⟨by rwa [List.append_nil], fits⟩
    · rintro ⟨head, fits⟩
      exact ⟨m, ds, [], (List.append_nil ds).symm, head, fits, rfl, rfl⟩

theorem readArrayHeader_reads :
    Reads limit readArrayHeader fun bs n => Head 4 n bs ∧ n ≤ intMaxValue :=
  count_reads (by omega) _ fun count pos =>
    s!"Array count {count} exceeds Int32.MaxValue at offset {pos}."

theorem readMapHeader_reads :
    Reads limit readMapHeader fun bs n => Head 5 n bs ∧ n ≤ intMaxValue :=
  count_reads (by omega) _ fun count pos =>
    s!"Map pair count {count} exceeds Int32.MaxValue at offset {pos}."

theorem peekByte_cons (pos : ℕ) (b : UInt8) (rest : Bytes) :
    peekByte ⟨pos, b :: rest⟩ = .ok b.toNat ⟨pos, b :: rest⟩ := by
  simp [peekByte, ofBigEndian]

theorem ensureAvailable_cons (pos : ℕ) (b : UInt8) (rest : Bytes) :
    ensureAvailable 1 ⟨pos, b :: rest⟩ = .ok () ⟨pos, b :: rest⟩ := by
  rw [ensureAvailable_run, if_neg (by simp)]

theorem after_one {pos : ℕ} {b : UInt8} {rest bs : Bytes} {t : CborReader} :
    cursor.After ⟨pos, b :: rest⟩ bs t ∧ bs.length = 1 ↔ bs = [b] ∧ t = ⟨pos + 1, rest⟩ := by
  constructor
  · rintro ⟨⟨left, rfl⟩, length⟩
    obtain ⟨c, rfl⟩ := List.length_eq_one_iff.mp length
    exact ⟨by rw [(List.cons.inj left).1], rfl⟩
  · rintro ⟨rfl, rfl⟩
    exact ⟨⟨rfl, rfl⟩, rfl⟩

theorem readBool_cons (pos : ℕ) (b : UInt8) (rest : Bytes) :
    ∃ message, readBool ⟨pos, b :: rest⟩ =
      if b = 0xF5 then .ok true ⟨pos + 1, rest⟩
      else if b = 0xF4 then .ok false ⟨pos + 1, rest⟩
      else .error (.cborReader message) ⟨pos, b :: rest⟩ := by
  have byte : ∀ w : UInt8, b.toNat = w.toNat ↔ b = w := fun w => UInt8.toNat_inj
  rw [readBool, bind_of_ok (ensureAvailable_cons pos b rest),
    bind_of_ok (peekByte_cons pos b rest)]
  simp only [ite_run, ← byte]
  exact ⟨_, rfl⟩

theorem readBool_reads :
    Reads limit readBool fun bs v => bs = [if v then 0xF5 else 0xF4] := by
  rintro ⟨pos, rest⟩ _ v t
  cases rest with
  | nil =>
    refine iff_of_false (fun h => by cases h) ?_
    rintro ⟨_, ⟨left, _⟩, rfl⟩
    cases left
  | cons b rest =>
    have one : ∀ w : UInt8, (∃ bs, cursor.After ⟨pos, b :: rest⟩ bs t ∧ bs = [w]) ↔
        b = w ∧ t = ⟨pos + 1, rest⟩ := by
      intro w
      constructor
      · rintro ⟨_, after, rfl⟩
        obtain ⟨same, rfl⟩ := after_one.mp ⟨after, rfl⟩
        exact ⟨(List.singleton_inj.mp same).symm, rfl⟩
      · rintro ⟨rfl, rfl⟩
        exact ⟨[b], (after_one.mpr ⟨rfl, rfl⟩).1, rfl⟩
    obtain ⟨message, run⟩ := readBool_cons pos b rest
    rw [one, run]
    by_cases yes : b = 0xF5
    · subst yes
      cases v <;> simp [eq_comm]
    · by_cases no : b = 0xF4
      · subst no
        cases v <;> simp [eq_comm]
      · cases v <;> simp [yes, no]

theorem peekMajorType_reads {f : ℕ → Reader α} {S : ℕ → Bytes → α → Prop}
    (rest : ∀ mt, Reads limit (f mt) (S mt)) (some : ∀ mt bs a, S mt bs a → bs ≠ []) :
    Reads limit (peekMajorType >>= f) fun bs a => ∃ b cs, bs = b :: cs ∧ S (b.toNat / 32) bs a := by
  rintro ⟨pos, left⟩ short a t
  cases left with
  | nil =>
    refine iff_of_false (fun h => by cases h) ?_
    rintro ⟨_, ⟨empty, _⟩, b, cs, rfl, _⟩
    cases empty
  | cons b left =>
    have peeked : peekMajorType ⟨pos, b :: left⟩ = .ok (b.toNat / 32) ⟨pos, b :: left⟩ := by
      rw [peekMajorType, bind_of_ok (ensureAvailable_cons pos b left),
        bind_of_ok (peekByte_cons pos b left), Nat.shiftRight_eq_div_pow]
      rfl
    rw [bind_of_ok peeked, rest _ _ short a t]
    refine exists_congr fun bs => and_congr_right fun after => ?_
    have first : ∀ c cs, bs = c :: cs → c = b := by
      rintro c cs rfl
      exact (List.cons.inj after.1).1.symm
    constructor
    · intro h
      obtain ⟨c, cs, rfl⟩ := List.exists_cons_of_ne_nil (some _ _ _ h)
      obtain rfl := first c cs rfl
      exact ⟨c, cs, rfl, h⟩
    · rintro ⟨c, cs, rfl, h⟩
      obtain rfl := first c cs rfl
      exact h

def skipBody (fuel mt ai : ℕ) : Reader Unit :=
  match mt with
  | 0 | 1 => do let _ ← readInitialByte
  | 2 | 3 => do skipBytes (← readInitialByte).2
  | 4 => do times (fun _ => skipItem fuel) (← readInitialByte).2 ()
  | 5 => do times (fun _ => do skipItem fuel; skipItem fuel) (← readInitialByte).2 ()
  | 7 =>
    if 20 ≤ ai ∧ ai ≤ 23 then do
      let _ ← advance 1
    else do
      let pos ← position
      fail s!"CBOR major type 7 with additional-info {ai} not supported at offset {pos}."
  | _ => do
    let pos ← position
    fail s!"Unsupported major type {mt} at offset {pos}."

theorem skipItem_cons (fuel pos : ℕ) (b : UInt8) (rest : Bytes) :
    skipItem (fuel + 1) ⟨pos, b :: rest⟩ =
      (validateAdditionalInfo (b.toNat % 32) >>= fun _ =>
        skipBody fuel (b.toNat / 32) (b.toNat % 32)) ⟨pos, b :: rest⟩ := by
  have shift : b.toNat >>> 5 = b.toNat / 32 := Nat.shiftRight_eq_div_pow _ 5
  have low : b.toNat &&& 0x1F = b.toNat % 32 := Nat.and_two_pow_sub_one_eq_mod b.toNat 5
  rw [skipItem, bind_of_ok (ensureAvailable_cons pos b rest), bind_of_ok (peekByte_cons pos b rest), shift, low]
  rfl

theorem repeats_item {n : ℕ} {bs : Bytes} {u v : Unit} :
    Repeats (fun _ bs _ => Item bs) n u bs v ↔ Items n bs := by
  constructor
  · intro run
    induction run with
    | zero => exact .nil
    | succ first _ ih => exact .cons first ih
  · intro items
    induction n generalizing bs with
    | zero =>
      cases items
      exact .zero ()
    | succ n ih =>
      cases items with
      | cons first rest => exact .succ first (ih rest)

theorem repeats_pair {n : ℕ} {bs : Bytes} {u v : Unit} :
    Repeats (fun _ => Then (fun bs (_ : Unit) => Item bs) fun _ bs _ => Item bs) n u bs v ↔
      Items (2 * n) bs := by
  constructor
  · intro run
    induction run with
    | zero => exact .nil
    | succ first _ ih =>
      obtain ⟨_, key, value, rfl, hkey, hvalue⟩ := first
      rw [List.append_assoc, Nat.mul_succ]
      exact .cons hkey (.cons hvalue ih)
  · intro items
    induction n generalizing bs with
    | zero =>
      cases items
      exact .zero ()
    | succ n ih =>
      rw [Nat.mul_succ] at items
      cases items with
      | cons key rest =>
        cases rest with
        | cons value rest =>
          rw [← List.append_assoc]
          exact .succ ⟨(), _, _, rfl, key, value⟩ (ih rest)

theorem skipBody_reads {fuel shorter mt : ℕ} (hmt : mt < 6) (ai : ℕ)
    (fits : shorter ≤ intMaxValue) (room : limit ≤ shorter + 1)
    (nested : Reads shorter (skipItem fuel) fun bs _ => Item bs) :
    Reads limit (skipBody fuel mt ai) fun bs _ => ∃ mt' n front content, bs = front ++ content ∧
      mt' < 6 ∧ Head mt' n front ∧ Body mt n content := by
  have head : ∀ {f : ℕ × ℕ → Reader Unit},
      (∀ n, Reads shorter (f n) fun bs _ => Body mt n.2 bs) →
      Reads limit (readInitialByte >>= f) fun bs _ => ∃ mt' n front content,
        bs = front ++ content ∧ mt' < 6 ∧ Head mt' n front ∧ Body mt n content := by
    intro f each
    refine (readInitialByte_reads.bind_shorter fun p bs h => ⟨?_, each p⟩).congr fun ds _ => ?_
    · have := List.length_pos_of_ne_nil h.2.ne_nil
      omega
    · constructor
      · rintro ⟨⟨mt', n⟩, front, content, rfl, ⟨low, head⟩, body⟩
        exact ⟨mt', n, front, content, rfl, low, head, body⟩
      · rintro ⟨mt', n, front, content, rfl, low, head, body⟩
        exact ⟨⟨mt', n⟩, front, content, rfl, ⟨low, head⟩, body⟩
  have cases : mt = 0 ∨ mt = 1 ∨ mt = 2 ∨ mt = 3 ∨ mt = 4 ∨ mt = 5 := by omega
  rcases cases with rfl | rfl | rfl | rfl | rfl | rfl
  · exact head fun n => (Exact.pure ()).congr fun bs _ => ⟨fun h => h.1, fun h => ⟨h, rfl⟩⟩
  · exact head fun n => (Exact.pure ()).congr fun bs _ => ⟨fun h => h.1, fun h => ⟨h, rfl⟩⟩
  · exact head fun n => skipBytes_reads fits n.2
  · exact head fun n => skipBytes_reads fits n.2
  · exact head fun n => (Exact.times (fun _ => nested) n.2 ()).congr fun _ _ => repeats_item
  · refine head fun n => (Exact.times (fun _ => ?_) n.2 ()).congr fun _ _ => repeats_pair
    exact nested.bind fun _ _ _ => nested

theorem cons_of_after {pos : ℕ} {b : UInt8} {rest bs : Bytes} {t : CborReader}
    (after : cursor.After ⟨pos, b :: rest⟩ bs t) (some : bs ≠ []) : ∃ cs, bs = b :: cs := by
  obtain ⟨c, cs, rfl⟩ := List.exists_cons_of_ne_nil some
  exact ⟨cs, by rw [(List.cons.inj after.1).1]⟩

theorem skipItem_reads {fuel : ℕ} (deep : limit < fuel) (bounded : limit ≤ intMaxValue) :
    Reads limit (skipItem fuel) fun bs _ => Item bs := by
  induction fuel generalizing limit with
  | zero => omega
  | succ fuel ih =>
    rintro ⟨pos, rest⟩ short u t
    cases rest with
    | nil =>
      refine iff_of_false (fun h => by cases h) ?_
      rintro ⟨bs, ⟨left, _⟩, item⟩
      exact item.ne_nil (List.append_eq_nil_iff.mp left.symm).1
    | cons b rest =>
      have length : rest.length + 1 ≤ limit := short
      have byte := b.toNat_lt
      have cons : ∀ bs, cursor.After ⟨pos, b :: rest⟩ bs t → Item bs →
          ∃ cs, bs = b :: cs ∧ Item (b :: cs) := by
        intro bs after item
        obtain ⟨cs, rfl⟩ := cons_of_after after item.ne_nil
        exact ⟨cs, rfl, item⟩
      rw [skipItem_cons]
      rcases validateAdditionalInfo_run (show b.toNat % 32 < 32 by omega) ⟨pos, b :: rest⟩ with
        ⟨known, checked⟩ | ⟨unknown, message, checked⟩
      · rw [bind_of_ok checked]
        by_cases low : b.toNat / 32 < 6
        · have nested : Reads (limit - 1) (skipItem fuel) fun bs _ => Item bs :=
            ih (by omega) (by omega)
          rw [skipBody_reads low _ (by omega) (by omega) nested _ short]
          refine exists_congr fun bs => and_congr_right fun after => ?_
          constructor
          · rintro ⟨mt, n, front, content, rfl, below, head, body⟩
            have some : front ++ content ≠ [] := by simp [head.ne_nil]
            obtain ⟨cs, split⟩ := cons_of_after after some
            obtain ⟨c, front, rfl⟩ := List.exists_cons_of_ne_nil head.ne_nil
            obtain ⟨rfl, _⟩ := List.cons.inj split
            obtain rfl := ((head_iff (by omega)).mp head).1
            exact item_cons.mpr (.inl ⟨n, _, content, rfl, head, low, body⟩)
          · intro item
            obtain ⟨cs, rfl, item⟩ := cons bs after item
            rcases item_cons.mp item with ⟨n, front, content, split, head, _, body⟩ | ⟨high, _⟩
            · exact ⟨_, n, front, content, split, low, head, body⟩
            · omega
        · have simple : ∀ bs, cursor.After ⟨pos, b :: rest⟩ bs t → Item bs →
              0xF4 ≤ b.toNat ∧ b.toNat ≤ 0xF7 ∧ bs = [b] := by
            intro bs after item
            obtain ⟨cs, rfl, item⟩ := cons bs after item
            rcases item_cons.mp item with ⟨_, _, _, _, _, below, _⟩ | ⟨least, most, rfl⟩
            · exact absurd below low
            · exact ⟨least, most, rfl⟩
          by_cases seven : b.toNat / 32 = 7
          · rw [seven]
            by_cases one : 20 ≤ b.toNat % 32 ∧ b.toNat % 32 ≤ 23
            · have skips : skipBody fuel 7 (b.toNat % 32) ⟨pos, b :: rest⟩ =
                  .ok () ⟨pos + 1, rest⟩ := by
                simp only [skipBody, one, and_self, if_true]
                rfl
              rw [skips]
              constructor
              · rintro ⟨⟩
                exact ⟨[b], (after_one.mpr ⟨rfl, rfl⟩).1, .simple ⟨by omega, by omega⟩⟩
              · rintro ⟨bs, after, item⟩
                obtain ⟨_, _, rfl⟩ := simple bs after item
                rw [(after_one.mp ⟨after, rfl⟩).2]
            · refine iff_of_false (fun h => ?_) fun ⟨bs, after, item⟩ => ?_
              · simp only [skipBody, one, if_false] at h
                cases h
              · obtain ⟨_, _, _⟩ := simple bs after item
                omega
          · have six : b.toNat / 32 = 6 := by omega
            refine iff_of_false (fun h => ?_) fun ⟨bs, after, item⟩ => ?_
            · rw [six] at h
              cases h
            · obtain ⟨_, _, _⟩ := simple bs after item
              omega
      · refine iff_of_false (fun h => ?_) ?_
        · rw [bind_of_error checked] at h
          cases h
        · rintro ⟨bs, after, item⟩
          obtain ⟨cs, rfl, item⟩ := cons bs after item
          rcases item_cons.mp item with ⟨n, front, content, split, head, low, _⟩ | ⟨_, _, _⟩
          · obtain ⟨c, front, rfl⟩ := List.exists_cons_of_ne_nil head.ne_nil
            obtain ⟨rfl, _⟩ := List.cons.inj split
            have := ((head_iff (by omega)).mp head).2.1
            omega
          · omega

end KeePassKeyWin.CborExactness
