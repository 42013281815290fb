import KeePassKeyWin.CborReading
import KeePassKeyWin.CborWriting
import KeePassKeyWin.HeadOrder

set_option autoImplicit false

/-!
# Reading back what was written

Each method of `CborReader` inverts the method of `CborWriter` that matches it, and `WriteMap`
lists its keys in the canonical order of CTAP2.
-/
namespace KeePassKeyWin.CborRoundTrip
open ByteStrings JsonRpc OutcomeRules CborCodec CborWriting CborReading HeadOrder

/-- Reading what was written gives the value, and stops where the rest begins. -/
def ReadsBack {α : Type} (read : Reader α) (a : α) (written : Bytes) : Prop :=
  ∀ pos suffix, read ⟨pos, written ++ suffix⟩ = .ok a ⟨pos + written.length, suffix⟩

/-- A head for `mt` and `n` before the content, and no head that is read as one is shorter. -/
def ShortestHead (mt n : ℕ) (content written : Bytes) : Prop :=
  ∃ first, written = first ++ content ∧ ReadsBack readInitialByte (mt, n) first ∧
    ∀ r r', readInitialByte r = .ok (mt, n) r' → r.pos + first.length ≤ r'.pos

theorem ReadsBack.bind {α β : Type} {read : Reader α} {a : α} {written : Bytes}
    {next : α → Reader β} {b : β} {more : Bytes} (h : ReadsBack read a written)
    (h' : ReadsBack (next a) b more) : ReadsBack (read >>= next) b (written ++ more) := by
  intro pos suffix
  rw [List.append_assoc, bind_of_ok (h pos (more ++ suffix)), h' (pos + written.length) suffix,
    List.length_append, Nat.add_assoc]

theorem ReadsBack.map {α β : Type} {read : Reader α} {a : α} {written : Bytes}
    {next : α → Reader β} {b : β} (h : ReadsBack read a written) (h' : ∀ r, next a r = .ok b r) :
    ReadsBack (read >>= next) b written := by
  intro pos suffix
  rw [bind_of_ok (h pos suffix), h']

theorem ReadsBack.tag {α β : Type} {read : Reader α} {a : α} {written : Bytes} (f : α → β)
    (h : ReadsBack read a written) : ReadsBack (do return f (← read)) (f a) written :=
  h.map fun _ => rfl

theorem ReadsBack.ensured {α : Type} {count : ℕ} {next : Unit → Reader α} {a : α}
    {written : Bytes} (enough : count ≤ written.length) (h : ReadsBack (next ()) a written) :
    ReadsBack (ensureAvailable count >>= next) a written := by
  intro pos suffix
  have available : ¬ (written ++ suffix).length < count := by
    rw [List.length_append]
    omega
  have run : ensureAvailable count ⟨pos, written ++ suffix⟩ = .ok () ⟨pos, written ++ suffix⟩ := by
    simp only [ensureAvailable, get_bind, ite_run, available, if_false, pure_apply]
  rw [bind_of_ok run, h pos suffix]

theorem readsBack_advance {count : ℕ} {bs : Bytes} (h : bs.length = count) :
    ReadsBack (advance count) bs bs := by
  intro pos suffix
  subst h
  simp [advance]

theorem readArgument_wide {ai width : ℕ} (wide : ¬ ai ≤ 23)
    (h : (if ai = 24 then 1 else if ai = 25 then 2 else if ai = 26 then 4 else 8) = width)
    {argument : Bytes} (hlen : argument.length = width) :
    ReadsBack (readArgument ai) (ofBigEndian argument) argument := by
  rw [readArgument, if_neg wide]
  simp only [h]
  exact .ensured hlen.ge ((readsBack_advance hlen).map fun _ => rfl)

theorem readsBack_argument {n : ℕ} (hn : n < 2 ^ 64) :
    ReadsBack (readArgument (headInfo n)) n (bigEndian (headWidth n) n) := by
  by_cases short : n ≤ 23
  · have info : headInfo n = n := by simp [headInfo, short]
    have width : headWidth n = 0 := by simp [headWidth, short]
    rw [info, width, readArgument, if_pos short]
    exact fun pos suffix => rfl
  · have wide : ¬ headInfo n ≤ 23 := by
      unfold headInfo
      split_ifs <;> omega
    have width : (if headInfo n = 24 then 1 else if headInfo n = 25 then 2
        else if headInfo n = 26 then 4 else 8) = headWidth n := by
      unfold headInfo headWidth
      split_ifs <;> omega
    have fits : n < 256 ^ headWidth n := by
      unfold headWidth
      split_ifs <;> omega
    have read := readArgument_wide wide width (bigEndian_length (headWidth n) n)
    rwa [ofBigEndian_bigEndian_of_lt fits] at read

theorem readsBack_head {mt n : ℕ} (hmt : mt < 6) (hn : n < 2 ^ 64) :
    ReadsBack readInitialByte (mt, n) (head mt n) := by
  have hinfo := headInfo_lt n
  have byte : ofBigEndian [UInt8.ofNat (mt * 32 + headInfo n)] = mt * 32 + headInfo n := by
    simp only [ofBigEndian, List.foldl_cons, List.foldl_nil, UInt8.toNat_ofNat']
    omega
  have type : (mt * 32 + headInfo n) >>> 5 = mt := by
    rw [Nat.shiftRight_eq_div_pow]
    omega
  have info : (mt * 32 + headInfo n) &&& 0x1F = headInfo n := by
    rw [show 0x1F = 2 ^ 5 - 1 from rfl, Nat.and_two_pow_sub_one_eq_mod]
    omega
  rw [head_eq, ← List.singleton_append]
  refine .ensured (by simp) (.bind (readsBack_advance rfl) fun pos suffix => ?_)
  have h₁ : mt ≠ 6 := by omega
  have h₂ : mt ≠ 7 := by omega
  have h₃ : headInfo n ≠ 31 := by omega
  have h₄ : ¬ (28 ≤ headInfo n ∧ headInfo n ≤ 30) := by omega
  simp only [byte, type, info, h₁, h₂, validateAdditionalInfo, h₃, h₄, if_false]
  exact (readsBack_argument hn).tag (fun value => (mt, value)) pos suffix

theorem ensureAvailable_ok {count : ℕ} {r r' : CborReader} {u : Unit}
    (h : ensureAvailable count r = .ok u r') : r' = r ∧ count ≤ r.rest.length := by
  simp only [ensureAvailable, get_bind, ite_run] at h
  split_ifs at h with short
  · exact (throw_ok.mp h).elim
  · exact ⟨(pure_ok.mp h).2.symm, Nat.not_lt.mp short⟩

theorem readWide_ok {width n : ℕ} {r r' : CborReader}
    (h : (ensureAvailable width >>= fun _ => advance width >>= fun argument =>
      pure (ofBigEndian argument)) r = .ok n r') : n < 256 ^ width ∧ r'.pos = r.pos + width := by
  obtain ⟨_, r₁, available, wide⟩ := bind_ok.mp h
  obtain ⟨rfl, enough⟩ := ensureAvailable_ok available
  obtain ⟨argument, r₂, read, last⟩ := bind_ok.mp wide
  cases read
  obtain ⟨rfl, rfl⟩ := pure_ok.mp last
  have bound := ofBigEndian_lt (r₁.rest.take width)
  rw [List.length_take, Nat.min_eq_left enough] at bound
  exact ⟨bound, rfl⟩

theorem readArgument_length {ai n : ℕ} {r r' : CborReader} (h : readArgument ai r = .ok n r') :
    r.pos + headWidth n ≤ r'.pos := by
  unfold readArgument at h
  by_cases short : ai ≤ 23
  · rw [if_pos short] at h
    obtain ⟨rfl, rfl⟩ := pure_ok.mp h
    simp [headWidth, short]
  · rw [if_neg short] at h
    obtain ⟨fits, position⟩ := readWide_ok h
    rw [position]
    unfold headWidth
    split_ifs at fits ⊢ <;> omega

theorem validateAdditionalInfo_ok {ai : ℕ} {r r' : CborReader} {u : Unit}
    (h : validateAdditionalInfo ai r = .ok u r') : r' = r := by
  simp only [validateAdditionalInfo, ite_run, fail] at h
  split_ifs at h <;> cases h
  rfl

theorem readInitialByte_length {mt n : ℕ} {r r' : CborReader}
    (h : readInitialByte r = .ok (mt, n) r') : r.pos + (head mt n).length ≤ r'.pos := by
  obtain ⟨_, r₁, available, checked⟩ := bind_ok.mp h
  obtain ⟨rfl, _⟩ := ensureAvailable_ok available
  obtain ⟨first, r₂, read, typed⟩ := bind_ok.mp checked
  cases read
  obtain ⟨offset, r₃, read, valid⟩ := bind_ok.mp typed
  cases read
  simp only [ite_run, fail, throw_bind] at valid
  split_ifs at valid
  obtain ⟨_, r₄, read, argued⟩ := bind_ok.mp valid
  obtain rfl := validateAdditionalInfo_ok read
  obtain ⟨argument, r₅, read, last⟩ := bind_ok.mp argued
  obtain ⟨paired, rfl⟩ := pure_ok.mp last
  obtain ⟨_, rfl⟩ := Prod.mk.inj paired
  have width := readArgument_length read
  rw [head_length]
  dsimp only at width
  omega

theorem shortestHead {mt n : ℕ} (hmt : mt < 6) (hn : n < 2 ^ 64) (content : Bytes) :
    ShortestHead mt n content (head mt n ++ content) :=
  ⟨head mt n, rfl, readsBack_head hmt hn, fun _ _ h => readInitialByte_length h⟩

theorem readsBack_expectMajorType {mt n : ℕ} (hmt : mt < 6) (hn : n < 2 ^ 64) (expected : String) :
    ReadsBack (expectMajorType mt expected) n (head mt n) := by
  refine (readsBack_head hmt hn).map fun r => ?_
  simp

theorem readsBack_readBytes {bs : Bytes} (h : bs.length < 2 ^ 31) :
    ReadsBack (readBytes bs.length) bs bs := by
  intro pos suffix
  have enough : ¬ (bs ++ suffix).length < bs.length := by
    rw [List.length_append]
    omega
  have small : ¬ intMaxValue < bs.length := by
    unfold intMaxValue
    omega
  have checked : ensureLength bs.length ⟨pos, bs ++ suffix⟩ = .ok () ⟨pos, bs ++ suffix⟩ := by
    simp only [ensureLength, get_bind, ite_run, enough, small, if_false, pure_apply]
  rw [readBytes, bind_of_ok checked, readsBack_advance rfl]

theorem readsBack_string {mt : ℕ} (hmt : mt < 6) (expected : String) {bs : Bytes}
    (h : bs.length < 2 ^ 31) :
    ReadsBack (expectMajorType mt expected >>= readBytes) bs (head mt bs.length ++ bs) :=
  (readsBack_expectMajorType hmt (by omega) expected).bind (readsBack_readBytes h)

theorem readsBack_unsignedInt {n : ℕ} (hn : n < 2 ^ 64) :
    ReadsBack readUnsignedInt n (writeUnsignedInt n) := by
  rw [writeUnsignedInt, writeTypeAndValue_eq_head]
  exact readsBack_expectMajorType (by omega) hn _

theorem readsBack_negativeInt {v : ℤ} (negative : v < 0) (hv : -2 ^ 63 ≤ v) :
    ReadsBack readNegativeInt v (writeNegativeInt v) := by
  have small : ¬ 2 ^ 63 - 1 < (-1 - v).toNat := by omega
  have value : -1 - ((-1 - v).toNat : ℤ) = v := by omega
  rw [writeNegativeInt, writeTypeAndValue_eq_head]
  refine (readsBack_expectMajorType (by omega) (by omega) _).map fun r => ?_
  rw [ite_run, if_neg small]
  change EStateM.Result.ok (-1 - ((-1 - v).toNat : ℤ)) r = _
  rw [value]

theorem readsBack_byteString {b : Bytes} (h : b.length < 2 ^ 31) :
    ReadsBack readByteString b (writeByteString b) := by
  rw [writeByteString, writeTypeAndValue_eq_head]
  exact readsBack_string (by omega) _ h

theorem readsBack_textString {s : String} (h : (utf8 s).length < 2 ^ 31) :
    ReadsBack readTextString s (writeTextString s) := by
  rw [writeTextString, writeTypeAndValue_eq_head]
  refine (readsBack_expectMajorType (by omega) (by omega) _).bind ?_
  refine (readsBack_readBytes h).map fun r => ?_
  rw [getString_utf8, pure_apply]

theorem readsBack_arrayHeader {count : ℕ} (h : count < 2 ^ 31) :
    ReadsBack readArrayHeader count (writeArrayHeader count) := by
  have small : ¬ intMaxValue < count := by
    unfold intMaxValue
    omega
  rw [writeArrayHeader, writeTypeAndValue_eq_head]
  refine (readsBack_expectMajorType (by omega) (by omega) _).map fun r => ?_
  rw [ite_run, if_neg small]
  rfl

theorem readsBack_mapHeader {count : ℕ} (h : count < 2 ^ 31) :
    ReadsBack readMapHeader count (writeTypeAndValue 5 count) := by
  have small : ¬ intMaxValue < count := by
    unfold intMaxValue
    omega
  rw [writeTypeAndValue_eq_head]
  refine (readsBack_expectMajorType (by omega) (by omega) _).map fun r => ?_
  rw [ite_run, if_neg small]
  rfl

inductive Key where
  | unsignedInt (n : ℕ) (bound : n < 2 ^ 64)
  | negativeInt (v : ℤ) (negative : v < 0) (bound : -2 ^ 63 ≤ v)
  | byteString (b : Bytes) (bound : b.length < 2 ^ 31)
  | textString (s : String) (bound : (utf8 s).length < 2 ^ 31)

def Key.write : Key → Bytes
  | .unsignedInt n _ => writeUnsignedInt n
  | .negativeInt v _ _ => writeNegativeInt v
  | .byteString b _ => writeByteString b
  | .textString s _ => writeTextString s

def Key.majorType : Key → ℕ
  | .unsignedInt .. => 0
  | .negativeInt .. => 1
  | .byteString .. => 2
  | .textString .. => 3

def Key.argument : Key → ℕ
  | .unsignedInt n _ => n
  | .negativeInt v _ _ => (-1 - v).toNat
  | .byteString b _ => b.length
  | .textString s _ => (utf8 s).length

def Key.content : Key → Bytes
  | .unsignedInt .. => []
  | .negativeInt .. => []
  | .byteString b _ => b
  | .textString s _ => utf8 s

theorem Key.write_eq (key : Key) : key.write = head key.majorType key.argument ++ key.content := by
  cases key <;> simp [Key.write, Key.majorType, Key.argument, Key.content, writeUnsignedInt,
    writeNegativeInt, writeByteString, writeTextString, writeTypeAndValue_eq_head]

def Key.value : Key → Value
  | .unsignedInt n _ => .uint n
  | .negativeInt v _ _ => .int v
  | .byteString b _ => .bytes b
  | .textString s _ => .text s

def readKey : Reader Value := do
  match ← peekMajorType with
  | 0 => return .uint (← readUnsignedInt)
  | 1 => return .int (← readNegativeInt)
  | 2 => return .bytes (← readByteString)
  | 3 => return .text (← readTextString)
  | mt => fail s!"Unexpected map key of major type {mt}."

theorem peekMajorType_head {mt n : ℕ} (hmt : mt < 8) (pos : ℕ) (rest : Bytes) :
    peekMajorType ⟨pos, head mt n ++ rest⟩ = .ok mt ⟨pos, head mt n ++ rest⟩ := by
  have hinfo := headInfo_lt n
  have available : ensureAvailable 1 ⟨pos, head mt n ++ rest⟩ = .ok () ⟨pos, head mt n ++ rest⟩ := by
    have enough : ¬ (head mt n ++ rest).length < 1 := by
      rw [List.length_append, head_length]
      omega
    simp only [ensureAvailable, get_bind, ite_run, enough, if_false, pure_apply]
  have first : ofBigEndian ((head mt n ++ rest).take 1) = mt * 32 + headInfo n := by
    rw [head_eq, List.cons_append, List.take_succ_cons, List.take_zero]
    simp only [ofBigEndian, List.foldl_cons, List.foldl_nil, UInt8.toNat_ofNat']
    omega
  have byte : peekByte ⟨pos, head mt n ++ rest⟩ =
      .ok (mt * 32 + headInfo n) ⟨pos, head mt n ++ rest⟩ := by
    rw [peekByte, first]
  have type : (mt * 32 + headInfo n) >>> 5 = mt := by
    rw [Nat.shiftRight_eq_div_pow]
    omega
  rw [peekMajorType, bind_of_ok available, bind_of_ok byte, type, pure_apply]

theorem readsBack_key (key : Key) : ReadsBack readKey key.value key.write := by
  intro pos suffix
  have peeked : peekMajorType ⟨pos, key.write ++ suffix⟩ =
      .ok key.majorType ⟨pos, key.write ++ suffix⟩ := by
    rw [key.write_eq, List.append_assoc]
    exact peekMajorType_head (by cases key <;> simp [Key.majorType]) pos _
  rw [readKey, bind_of_ok peeked]
  cases key with
  | unsignedInt n bound => exact (readsBack_unsignedInt bound).tag Value.uint pos suffix
  | negativeInt v negative bound =>
    exact (readsBack_negativeInt negative bound).tag Value.int pos suffix
  | byteString b bound => exact (readsBack_byteString bound).tag Value.bytes pos suffix
  | textString s bound => exact (readsBack_textString bound).tag Value.text pos suffix

theorem Value.int_ne_uint {v : ℤ} (negative : v < 0) (n : ℕ) : Value.int v ≠ .uint n := by
  cases v with
  | ofNat m => exact absurd negative (Int.not_lt.mpr (Int.natCast_nonneg m))
  | negSucc m => simp [Value.int]

theorem Key.value_injective {key key' : Key} (h : key.value = key'.value) : key = key' := by
  cases key with
  | unsignedInt n _ =>
    cases key' with
    | negativeInt v negative _ => exact absurd h.symm (Value.int_ne_uint negative n)
    | _ => simp_all [Key.value]
  | negativeInt v negative _ =>
    cases key' with
    | unsignedInt n _ => exact absurd h (Value.int_ne_uint negative n)
    | negativeInt w _ _ =>
      obtain rfl := Value.int_injective h
      rfl
    | _ => cases v <;> simp_all [Key.value, Value.int]
  | byteString b _ => cases key' with
    | negativeInt v _ _ => cases v <;> simp_all [Key.value, Value.int]
    | _ => simp_all [Key.value]
  | textString s _ => cases key' with
    | negativeInt v _ _ => cases v <;> simp_all [Key.value, Value.int]
    | _ => simp_all [Key.value]

theorem Key.write_injective {key key' : Key} (h : key.write = key'.write) : key = key' := by
  have read := readsBack_key key 0 []
  rw [h, readsBack_key key' 0 []] at read
  injection read with same _
  exact Key.value_injective same.symm

theorem bytewiseLexCompare_lt {a b : Bytes} : bytewiseLexCompare a b = .lt ↔ a < b := by
  induction a generalizing b with
  | nil => cases b <;> simp [bytewiseLexCompare]
  | cons x a ih =>
    cases b with
    | nil => simp [bytewiseLexCompare]
    | cons y b =>
      rw [List.cons_lt_cons_iff, bytewiseLexCompare]
      by_cases same : x = y
      · simp [same, ih]
      · by_cases less : x < y <;> simp [same, less]

theorem bytewiseLexCompare_gt {a b : Bytes} : bytewiseLexCompare a b = .gt ↔ b < a := by
  induction a generalizing b with
  | nil => cases b <;> simp [bytewiseLexCompare]
  | cons x a ih =>
    cases b with
    | nil => simp [bytewiseLexCompare]
    | cons y b =>
      rw [List.cons_lt_cons_iff, bytewiseLexCompare]
      by_cases same : x = y
      · simp [same, ih]
      · have either := UInt8.lt_or_lt_of_ne same
        by_cases less : x < y
        · have := UInt8.lt_asymm less
          simp [same, less, Ne.symm same, this]
        · simp [same, less, either.resolve_left less]

theorem bytewiseLexCompare_eq {a b : Bytes} (h : bytewiseLexCompare a b = .eq) : a = b := by
  induction a generalizing b with
  | nil => cases b <;> simp_all [bytewiseLexCompare]
  | cons x a ih =>
    cases b with
    | nil => simp [bytewiseLexCompare] at h
    | cons y b =>
      rw [bytewiseLexCompare] at h
      split_ifs at h with same
      simp only [ne_eq, not_not] at same
      rw [same, ih h]

theorem keyLe_iff {p q : Bytes × Bytes} : keyLe p q ↔ p.1 = q.1 ∨ p.1 < q.1 := by
  unfold keyLe
  cases h : bytewiseLexCompare p.1 q.1 with
  | lt => simp [bytewiseLexCompare_lt.mp h]
  | eq => simp [bytewiseLexCompare_eq h]
  | gt =>
    have more := bytewiseLexCompare_gt.mp h
    refine ⟨fun le => by simp at le, ?_⟩
    rintro (same | less)
    · exact absurd (same ▸ more) (bytes_lt_irrefl _)
    · exact absurd (bytes_lt_trans more less) (bytes_lt_irrefl _)

instance : Std.Total keyLe where
  total p q := by
    rw [keyLe_iff, keyLe_iff]
    cases h : bytewiseLexCompare p.1 q.1 with
    | lt => exact .inl (.inr (bytewiseLexCompare_lt.mp h))
    | eq => exact .inl (.inl (bytewiseLexCompare_eq h))
    | gt => exact .inr (.inr (bytewiseLexCompare_gt.mp h))

instance : IsTrans (Bytes × Bytes) keyLe where
  trans p q r h h' := by
    rw [keyLe_iff] at *
    obtain same | less := h
    · rwa [same]
    · obtain same | less' := h'
      · exact .inr (same ▸ less)
      · exact .inr (bytes_lt_trans less less')

def encodedMajorType (key : Bytes) : ℕ := (key.headD 0).toNat / 32

/-- The canonical order of CTAP2: the lower major type, then the shorter key, then the one
that is lower byte by byte. -/
def CanonicalBefore (a b : Bytes) : Prop :=
  encodedMajorType a < encodedMajorType b ∨
    encodedMajorType a = encodedMajorType b ∧
      (a.length < b.length ∨ a.length = b.length ∧ a < b)

theorem Key.argument_lt (key : Key) : key.argument < 2 ^ 64 := by
  cases key <;> simp only [Key.argument] <;> omega

theorem Key.content_length (key : Key) :
    key.content.length = if key.majorType < 2 then 0 else key.argument := by
  cases key <;> simp [Key.content, Key.majorType, Key.argument]

theorem Key.write_length_mono {key key' : Key} (type : key.majorType = key'.majorType)
    (h : key.argument ≤ key'.argument) : key.write.length ≤ key'.write.length := by
  have width := headWidth_mono h
  simp only [Key.write_eq, List.length_append, head_length, Key.content_length, type]
  split_ifs <;> omega

theorem Key.encodedMajorType_write (key : Key) :
    encodedMajorType key.write = key.majorType := by
  have hinfo := headInfo_lt key.argument
  have type : key.majorType < 8 := by cases key <;> simp [Key.majorType]
  rw [encodedMajorType, key.write_eq, head_eq, List.cons_append, List.headD_cons,
    UInt8.toNat_ofNat']
  omega

theorem canonicalBefore_of_lt {key key' : Key} (h : key.write < key'.write) :
    CanonicalBefore key.write key'.write := by
  unfold CanonicalBefore
  rw [key.encodedMajorType_write, key'.encodedMajorType_write]
  obtain less | same | more := Nat.lt_trichotomy key.majorType key'.majorType
  · exact .inl less
  · refine .inr ⟨same, ?_⟩
    obtain shorter | equal | longer := Nat.lt_trichotomy key.write.length key'.write.length
    · exact .inl shorter
    · exact .inr ⟨equal, h⟩
    · have argument : key'.argument < key.argument := by
        by_contra hle
        exact absurd (Key.write_length_mono same (Nat.not_lt.mp hle)) (Nat.not_le.mpr longer)
      have after : key'.write < key.write := by
        rw [key.write_eq, key'.write_eq, same]
        have type : key'.majorType < 8 := by cases key' <;> simp [Key.majorType]
        exact head_lt type argument key.argument_lt _ _
      exact absurd (bytes_lt_trans h after) (bytes_lt_irrefl _)
  · have after : key'.write < key.write := by
      have info := headInfo_lt key.argument
      have info' := headInfo_lt key'.argument
      have type : key.majorType < 8 := by cases key <;> simp [Key.majorType]
      rw [key.write_eq, key'.write_eq, head_eq, head_eq, List.cons_append, List.cons_append,
        List.cons_lt_cons_iff]
      exact .inl (ofNat_lt (by omega) (by omega))
    exact absurd (bytes_lt_trans h after) (bytes_lt_irrefl _)

def readPair {α : Type} (readValue : Reader α) : Reader (Value × α) := do
  let key ← readKey
  return (key, ← readValue)

def readMany {β : Type} (item : Reader β) : ℕ → Reader (List β)
  | 0 => return []
  | n + 1 => do
    let b ← item
    return b :: (← readMany item n)

def readMap {α : Type} (readValue : Reader α) : Reader (List (Value × α)) := do
  readMany (readPair readValue) (← readMapHeader)

section
variable {α : Type} (write : α → Bytes)

def writeEntry (e : Key × α) : Bytes × Bytes := (e.1.write, write e.2)

def pairBytes (e : Key × α) : Bytes := e.1.write ++ write e.2

instance : DecidableRel fun e e' : Key × α => keyLe (writeEntry write e) (writeEntry write e') :=
  fun e e' => inferInstanceAs (Decidable (keyLe (writeEntry write e) (writeEntry write e')))

def listed (entries : List (Key × α)) : List (Key × α) :=
  entries.insertionSort fun e e' => keyLe (writeEntry write e) (writeEntry write e')

theorem listed_perm (entries : List (Key × α)) : (listed write entries).Perm entries :=
  List.perm_insertionSort _ entries

theorem writeMap_listed (entries : List (Key × α)) :
    writeMap (entries.map (writeEntry write)) =
      writeTypeAndValue 5 entries.length ++ (listed write entries).flatMap (pairBytes write) := by
  have order : (listed write entries).map (writeEntry write) =
      (entries.map (writeEntry write)).insertionSort keyLe :=
    List.map_insertionSort _ _ _ _ fun _ _ _ _ => Iff.rfl
  rw [writeMap, ← order, List.flatMap_map, List.length_map]
  rfl

theorem listed_sorted (entries : List (Key × α)) :
    (listed write entries).Pairwise fun e e' => keyLe (writeEntry write e) (writeEntry write e') := by
  have sorted := List.pairwise_insertionSort keyLe (entries.map (writeEntry write))
  have order : (listed write entries).map (writeEntry write) =
      (entries.map (writeEntry write)).insertionSort keyLe :=
    List.map_insertionSort _ _ _ _ fun _ _ _ _ => Iff.rfl
  rwa [← order, List.pairwise_map] at sorted

theorem listed_canonical {entries : List (Key × α)} (distinct : (entries.map Prod.fst).Nodup) :
    (listed write entries).Pairwise fun e e' => CanonicalBefore e.1.write e'.1.write := by
  have nodup : ((listed write entries).map Prod.fst).Nodup :=
    ((listed_perm write entries).map Prod.fst).nodup_iff.mpr distinct
  rw [List.Nodup, List.pairwise_map] at nodup
  refine ((listed_sorted write entries).and nodup).imp fun {e e'} h => ?_
  obtain same | less := keyLe_iff.mp h.1
  · exact absurd (Key.write_injective same) h.2
  · exact canonicalBefore_of_lt less

theorem listed_of_perm {entries shuffled : List (Key × α)} (perm : shuffled.Perm entries)
    (distinct : (entries.map Prod.fst).Nodup) : listed write shuffled = listed write entries := by
  refine List.Perm.eq_of_pairwise ?_ (listed_sorted write shuffled) (listed_sorted write entries)
    ((listed_perm write shuffled).trans (perm.trans (listed_perm write entries).symm))
  intro e e' he he' le le'
  have keys : e.1 = e'.1 := by
    obtain same | less := keyLe_iff.mp le
    · exact Key.write_injective same
    · obtain same | less' := keyLe_iff.mp le'
      · exact (Key.write_injective same).symm
      · exact absurd (bytes_lt_trans less less') (bytes_lt_irrefl _)
  have mem := perm.mem_iff.mp ((listed_perm write shuffled).mem_iff.mp he)
  have mem' := (listed_perm write entries).mem_iff.mp he'
  exact List.inj_on_of_nodup_map distinct mem mem' keys

theorem readsBack_many {read : Reader α} {entries : List (Key × α)}
    (values : ∀ e ∈ entries, ReadsBack read e.2 (write e.2)) :
    ReadsBack (readMany (readPair read) entries.length)
      (entries.map fun e => (e.1.value, e.2)) (entries.flatMap (pairBytes write)) := by
  induction entries with
  | nil => exact fun pos suffix => rfl
  | cons e es ih =>
    have pair : ReadsBack (readPair read) (e.1.value, e.2) (pairBytes write e) :=
      (readsBack_key e.1).bind ((values e (by simp)).tag (Prod.mk e.1.value))
    exact pair.bind ((ih fun e' he' => values e' (by simp [he'])).tag (List.cons _))

theorem readsBack_map {read : Reader α} {entries : List (Key × α)}
    (count : entries.length < 2 ^ 31)
    (values : ∀ e ∈ entries, ReadsBack read e.2 (write e.2)) :
    ReadsBack (readMap read) ((listed write entries).map fun e => (e.1.value, e.2))
      (writeMap (entries.map (writeEntry write))) := by
  have perm := listed_perm write entries
  have many : ReadsBack (readMany (readPair read) (listed write entries).length) _ _ :=
    readsBack_many write fun e he => values e (perm.mem_iff.mp he)
  rw [perm.length_eq] at many
  rw [writeMap_listed]
  exact (readsBack_mapHeader count).bind many

end

/-- Every item is read back exactly, under its shortest head, and a map is written in canonical
order, whatever the order of its entries. -/
theorem cbor_inverse_canonical :
    (∀ n < 2 ^ 64, ReadsBack readUnsignedInt n (writeUnsignedInt n) ∧
      ShortestHead 0 n [] (writeUnsignedInt n)) ∧
    (∀ v : ℤ, v < 0 → -2 ^ 63 ≤ v → ReadsBack readNegativeInt v (writeNegativeInt v) ∧
      ShortestHead 1 (-1 - v).toNat [] (writeNegativeInt v)) ∧
    (∀ b : Bytes, b.length < 2 ^ 31 → ReadsBack readByteString b (writeByteString b) ∧
      ShortestHead 2 b.length b (writeByteString b)) ∧
    (∀ s : String, (utf8 s).length < 2 ^ 31 → ReadsBack readTextString s (writeTextString s) ∧
      ShortestHead 3 (utf8 s).length (utf8 s) (writeTextString s)) ∧
    (∀ count < 2 ^ 31, ReadsBack readArrayHeader count (writeArrayHeader count) ∧
      ShortestHead 4 count [] (writeArrayHeader count) ∧
      ReadsBack readMapHeader count (writeTypeAndValue 5 count) ∧
      ShortestHead 5 count [] (writeTypeAndValue 5 count)) ∧
    ∀ {α : Type} (write : α → Bytes) (entries : List (Key × α)),
      (entries.map Prod.fst).Nodup → entries.length < 2 ^ 31 →
      (∀ shuffled : List (Key × α), shuffled.Perm entries →
        writeMap (shuffled.map (writeEntry write)) = writeMap (entries.map (writeEntry write))) ∧
      ∃ listed : List (Key × α), listed.Perm entries ∧
        (listed.Pairwise fun e e' => CanonicalBefore e.1.write e'.1.write) ∧
        writeMap (entries.map (writeEntry write)) =
          writeTypeAndValue 5 entries.length ++ listed.flatMap (pairBytes write) ∧
        ∀ read : Reader α, (∀ e ∈ entries, ReadsBack read e.2 (write e.2)) →
          ReadsBack (readMap read) (listed.map fun e => (e.1.value, e.2))
            (writeMap (entries.map (writeEntry write))) := by
  refine ⟨fun n hn => ⟨readsBack_unsignedInt hn, ?_⟩,
    fun v negative hv => ⟨readsBack_negativeInt negative hv, ?_⟩,
    fun b hb => ⟨readsBack_byteString hb, ?_⟩, fun s hs => ⟨readsBack_textString hs, ?_⟩,
    fun count hc => ⟨readsBack_arrayHeader hc, ?_, readsBack_mapHeader hc, ?_⟩, ?_⟩
  · simpa [writeUnsignedInt, writeTypeAndValue_eq_head] using shortestHead (by omega) hn []
  · have bound : (-1 - v).toNat < 2 ^ 64 := by omega
    simpa [writeNegativeInt, writeTypeAndValue_eq_head] using shortestHead (by omega) bound []
  · rw [writeByteString, writeTypeAndValue_eq_head]
    exact shortestHead (by omega) (by omega) b
  · rw [writeTextString, writeTypeAndValue_eq_head]
    exact shortestHead (by omega) (by omega) (utf8 s)
  · have bound : count < 2 ^ 64 := by omega
    simpa [writeArrayHeader, writeTypeAndValue_eq_head] using shortestHead (by omega) bound []
  · have bound : count < 2 ^ 64 := by omega
    simpa [writeTypeAndValue_eq_head] using shortestHead (by omega) bound []
  · intro α write entries distinct count
    refine ⟨fun shuffled perm => ?_, listed write entries, listed_perm write entries,
      listed_canonical write distinct, writeMap_listed write entries,
      fun read values => readsBack_map write count values⟩
    rw [writeMap_listed, writeMap_listed, listed_of_perm write perm distinct, perm.length_eq]

def sampleEntries : List (Key × ℕ) :=
  [(.negativeInt (-1) (by decide) (by decide), 1), (.unsignedInt 3 (by decide), 2 ^ 64 - 1)]

theorem cbor_inverse_canonical_sample :
    ReadsBack readNegativeInt (-2 ^ 63) (writeNegativeInt (-2 ^ 63)) ∧
      ReadsBack readUnsignedInt (2 ^ 64 - 1) (writeUnsignedInt (2 ^ 64 - 1)) ∧
      ∃ listed : List (Key × ℕ), listed.Perm sampleEntries ∧
        ReadsBack (readMap readUnsignedInt) (listed.map fun e => (e.1.value, e.2))
          (writeMap (sampleEntries.map (writeEntry writeUnsignedInt))) := by
  obtain ⟨unsigned, negative, _, _, _, maps⟩ := cbor_inverse_canonical
  have values : ∀ e ∈ sampleEntries, e.2 < 2 ^ 64 := by decide
  obtain ⟨_, listed, perm, _, _, read⟩ := maps writeUnsignedInt sampleEntries
    (by simp [sampleEntries]) (by decide)
  exact ⟨(negative (-2 ^ 63) (by decide) (by decide)).1, (unsigned (2 ^ 64 - 1) (by decide)).1,
    listed, perm, read _ fun e he => (unsigned e.2 (values e he)).1⟩

end KeePassKeyWin.CborRoundTrip
