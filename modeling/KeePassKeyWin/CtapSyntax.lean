import KeePassKeyWin.CborFailures
import KeePassKeyWin.CtapRequests

set_option autoImplicit false

/-!
# The syntax of the request maps

What stands in a request, entry by entry as it stands on the wire, and that the parsers accept
these entries and no others.
-/
namespace KeePassKeyWin.CtapSyntax
open ByteStrings JsonRpc OutcomeRules CborReading CborGrammar GrammarReaders CborExactness
open CredentialEncodings CtapRequests CborFailures

/-- A text string, by what the reader makes of its content. -/
def Text (s : String) (bs : Bytes) : Prop := ∃ content, Content 3 bs content ∧ getString content = s

def Integer (a : ℤ) (bs : Bytes) : Prop :=
  ∃ n : ℕ, a = n ∧ Head 0 n bs ∨ a = -1 - (n : ℤ) ∧ Head 1 n bs

def Skipped (item bs : Bytes) : Prop := bs = item ∧ Item item

def Keyed (field : String) (V : Bytes → Prop) (bs : Bytes) : Prop :=
  ∃ key value, bs = key ++ value ∧ Text field key ∧ V value

def Numbered (k : ℕ) (V : Bytes → Prop) (bs : Bytes) : Prop :=
  ∃ key value, bs = key ++ value ∧ Head 0 k key ∧ V value

def Counted {α : Type} (mt : ℕ) (R : α → Bytes → Prop) (es : List α) (bs : Bytes) : Prop :=
  ∃ front body, bs = front ++ body ∧ Head mt es.length front ∧ Listed R es body

inductive RpEntry
  | id (s : String)
  | name (s : String)
  | other (field : String) (item : Bytes)
  deriving DecidableEq

def RpEntry.Encodes : RpEntry → Bytes → Prop
  | .id s => Keyed "id" (Text s)
  | .name s => Keyed "name" (Text s)
  | .other field item => fun bs => field ∉ ["id", "name"] ∧ Keyed field (Skipped item) bs

def RpEntry.apply (f : MakeCredentialFields) : RpEntry → MakeCredentialFields
  | .id s => { f with rpId := some s }
  | .name s => { f with rpName := some s }
  | .other .. => f

inductive UserEntry
  | id (content : Bytes)
  | name (s : String)
  | displayName (s : String)
  | other (field : String) (item : Bytes)
  deriving DecidableEq

def UserEntry.Encodes : UserEntry → Bytes → Prop
  | .id content => Keyed "id" fun bs => Content 2 bs content
  | .name s => Keyed "name" (Text s)
  | .displayName s => Keyed "displayName" (Text s)
  | .other field item => fun bs =>
    field ∉ ["id", "name", "displayName"] ∧ Keyed field (Skipped item) bs

def UserEntry.apply (f : MakeCredentialFields) : UserEntry → MakeCredentialFields
  | .id content => { f with userHandle := some (Base64Url.encode content) }
  | .name s => { f with userName := some s }
  | .displayName s => { f with userDisplayName := some s }
  | .other .. => f

/-- An `alg` that is no integer is one of the others. -/
inductive ParamEntry
  | alg (a : ℤ)
  | type (s : String)
  | other (field : String) (item : Bytes)
  deriving DecidableEq

def ParamEntry.Encodes : ParamEntry → Bytes → Prop
  | .alg a => Keyed "alg" (Integer a)
  | .type s => Keyed "type" (Text s)
  | .other field item => fun bs => field ≠ "type" ∧
    (field = "alg" → ∀ a, ¬ Integer a item) ∧ Keyed field (Skipped item) bs

def ParamEntry.Readable : ParamEntry → Prop
  | .alg a => -2 ^ 63 ≤ a
  | _ => True

def ParamEntry.apply (p : CredentialParam) : ParamEntry → CredentialParam
  | .alg a => if a < 0 then { p with algId := some a } else p
  | .type s => { p with paramType := some s }
  | .other .. => p

theorem ParamEntry.apply_negative {p : CredentialParam} {a : ℤ} (h : a < 0) :
    ParamEntry.apply p (.alg a) = { p with algId := some a } := by
  simp [ParamEntry.apply, h]

theorem ParamEntry.apply_unsigned {p : CredentialParam} {a : ℤ} (h : 0 ≤ a) :
    ParamEntry.apply p (.alg a) = p := by
  simp [ParamEntry.apply, Int.not_lt.mpr h]

def paramOf (es : List ParamEntry) : CredentialParam := es.foldl ParamEntry.apply ⟨none, none⟩

/-- A descriptor's `type` is skipped with the others. -/
inductive ExcludedEntry
  | id (content : Bytes)
  | other (field : String) (item : Bytes)
  deriving DecidableEq

def ExcludedEntry.Encodes : ExcludedEntry → Bytes → Prop
  | .id content => Keyed "id" fun bs => Content 2 bs content
  | .other field item => fun bs => field ≠ "id" ∧ Keyed field (Skipped item) bs

def ExcludedEntry.apply (descId : Option Bytes) : ExcludedEntry → Option Bytes
  | .id content => some content
  | .other .. => descId

def excludedId (es : List ExcludedEntry) : Option Bytes := es.foldl ExcludedEntry.apply none

inductive MakeEntry
  | clientDataHash (hash : Bytes)
  | rp (es : List RpEntry)
  | user (es : List UserEntry)
  | pubKeyCredParams (ps : List (List ParamEntry))
  | excludeList (ds : List (List ExcludedEntry))
  | other (key : ℕ) (item : Bytes)
  deriving DecidableEq

def MakeEntry.key : MakeEntry → ℕ
  | .clientDataHash _ => 1
  | .rp _ => 2
  | .user _ => 3
  | .pubKeyCredParams _ => 4
  | .excludeList _ => 5
  | .other key _ => key

def MakeEntry.Value : MakeEntry → Bytes → Prop
  | .clientDataHash hash => fun bs => Content 2 bs hash ∧ hash.length = 32
  | .rp es => Counted 5 RpEntry.Encodes es
  | .user es => Counted 5 UserEntry.Encodes es
  | .pubKeyCredParams ps => Counted 4 (Counted 5 ParamEntry.Encodes) ps
  | .excludeList ds => Counted 4 (Counted 5 ExcludedEntry.Encodes) ds
  | .other key item => fun bs => key ∉ [1, 2, 3, 4, 5] ∧ Skipped item bs

def MakeEntry.Encodes (e : MakeEntry) : Bytes → Prop := Numbered e.key e.Value

def MakeEntry.Readable : MakeEntry → Prop
  | .pubKeyCredParams ps => ∀ p ∈ ps, ∀ e ∈ p, e.Readable
  | _ => True

def addParam (f : MakeCredentialFields) (es : List ParamEntry) : MakeCredentialFields :=
  { f with requestedAlgs := f.requestedAlgs ++ (paramOf es).supported }

def addExcluded (f : MakeCredentialFields) (es : List ExcludedEntry) : MakeCredentialFields :=
  match excludedId es with
  | some descId => { f with excludeList := f.excludeList ++ [Base64Url.encode descId] }
  | none => f

def MakeEntry.apply (f : MakeCredentialFields) : MakeEntry → MakeCredentialFields
  | .clientDataHash hash => { f with clientDataHash := some hash }
  | .rp es => es.foldl RpEntry.apply f
  | .user es => es.foldl UserEntry.apply f
  | .pubKeyCredParams ps => ps.foldl addParam f
  | .excludeList ds => ds.foldl addExcluded f
  | .other .. => f

def makeFields (es : List MakeEntry) : MakeCredentialFields := es.foldl MakeEntry.apply .empty

inductive DescriptorEntry
  | id (content : Bytes)
  | type (s : String)
  | other (field : String) (item : Bytes)
  deriving DecidableEq

def DescriptorEntry.Encodes : DescriptorEntry → Bytes → Prop
  | .id content => Keyed "id" fun bs => Content 2 bs content
  | .type s => Keyed "type" (Text s)
  | .other field item => fun bs => field ∉ ["id", "type"] ∧ Keyed field (Skipped item) bs

def DescriptorEntry.apply (d : Descriptor) : DescriptorEntry → Descriptor
  | .id content => { d with descId := some content }
  | .type s => { d with descType := some s }
  | .other .. => d

def descriptorOf (es : List DescriptorEntry) : Descriptor :=
  es.foldl DescriptorEntry.apply ⟨none, none⟩

inductive OptionEntry
  | up (v : Bool)
  | uv (v : Bool)
  | other (field : String) (item : Bytes)
  deriving DecidableEq

def Flag (v : Bool) (bs : Bytes) : Prop := bs = [if v then 0xF5 else 0xF4]

def OptionEntry.Encodes : OptionEntry → Bytes → Prop
  | .up v => Keyed "up" (Flag v)
  | .uv v => Keyed "uv" (Flag v)
  | .other field item => fun bs => field ∉ ["up", "uv"] ∧ Keyed field (Skipped item) bs

def OptionEntry.apply (f : GetAssertionFields) : OptionEntry → GetAssertionFields
  | .up v => { f with optionsUp := v }
  | .uv v => { f with optionsUv := v }
  | .other .. => f

inductive GetEntry
  | rpId (s : String)
  | clientDataHash (hash : Bytes)
  | allowList (ds : List (List DescriptorEntry))
  | options (es : List OptionEntry)
  | other (key : ℕ) (item : Bytes)
  deriving DecidableEq

def GetEntry.key : GetEntry → ℕ
  | .rpId _ => 1
  | .clientDataHash _ => 2
  | .allowList _ => 3
  | .options _ => 5
  | .other key _ => key

def GetEntry.Value : GetEntry → Bytes → Prop
  | .rpId s => Text s
  | .clientDataHash hash => fun bs => Content 2 bs hash ∧ hash.length = 32
  | .allowList ds => Counted 4 (Counted 5 DescriptorEntry.Encodes) ds
  | .options es => Counted 5 OptionEntry.Encodes es
  | .other key item => fun bs => key ∉ [1, 2, 3, 5] ∧ Skipped item bs

def GetEntry.Encodes (e : GetEntry) : Bytes → Prop := Numbered e.key e.Value

def addDescriptor (f : GetAssertionFields) (es : List DescriptorEntry) : GetAssertionFields :=
  { f with allowListCredIds := f.allowListCredIds ++ (descriptorOf es).publicKeyId }

def GetEntry.apply (f : GetAssertionFields) : GetEntry → GetAssertionFields
  | .rpId s => { f with rpId := some s }
  | .clientDataHash hash => { f with clientDataHash := some hash }
  | .allowList ds => ds.foldl addDescriptor f
  | .options es => es.foldl OptionEntry.apply f
  | .other .. => f

def getFields (es : List GetEntry) : GetAssertionFields := es.foldl GetEntry.apply .empty

theorem content_ne_nil {mt : ℕ} {bs content : Bytes} (h : Content mt bs content) : bs ≠ [] := by
  obtain ⟨front, rfl, head⟩ := h
  simp [head.ne_nil]

theorem Keyed.ne_nil {field : String} {V : Bytes → Prop} {bs : Bytes} (h : Keyed field V bs) :
    bs ≠ [] := by
  obtain ⟨key, value, rfl, ⟨content, text, _⟩, _⟩ := h
  simp [content_ne_nil text]

theorem Numbered.ne_nil {k : ℕ} {V : Bytes → Prop} {bs : Bytes} (h : Numbered k V bs) :
    bs ≠ [] := by
  obtain ⟨key, value, rfl, head, _⟩ := h
  simp [head.ne_nil]

theorem Counted.ne_nil {α : Type} {mt : ℕ} {R : α → Bytes → Prop} {es : List α} {bs : Bytes}
    (h : Counted mt R es bs) : bs ≠ [] := by
  obtain ⟨front, body, rfl, head, _⟩ := h
  simp [head.ne_nil]

theorem RpEntry.ne_nil (e : RpEntry) (bs : Bytes) (h : e.Encodes bs) : bs ≠ [] := by
  cases e with
  | other field item => exact h.2.ne_nil
  | _ => exact Keyed.ne_nil h

theorem UserEntry.ne_nil (e : UserEntry) (bs : Bytes) (h : e.Encodes bs) : bs ≠ [] := by
  cases e with
  | other field item => exact h.2.ne_nil
  | _ => exact Keyed.ne_nil h

theorem ParamEntry.ne_nil (e : ParamEntry) (bs : Bytes) (h : e.Encodes bs) : bs ≠ [] := by
  cases e with
  | other field item => exact h.2.2.ne_nil
  | _ => exact Keyed.ne_nil h

theorem ExcludedEntry.ne_nil (e : ExcludedEntry) (bs : Bytes) (h : e.Encodes bs) : bs ≠ [] := by
  cases e with
  | other field item => exact h.2.ne_nil
  | _ => exact Keyed.ne_nil h

theorem DescriptorEntry.ne_nil (e : DescriptorEntry) (bs : Bytes) (h : e.Encodes bs) :
    bs ≠ [] := by
  cases e with
  | other field item => exact h.2.ne_nil
  | _ => exact Keyed.ne_nil h

theorem OptionEntry.ne_nil (e : OptionEntry) (bs : Bytes) (h : e.Encodes bs) : bs ≠ [] := by
  cases e with
  | other field item => exact h.2.ne_nil
  | _ => exact Keyed.ne_nil h

section
variable {α : Type} {limit : ℕ}

theorem keyed_reads (bounded : limit ≤ intMaxValue) {k : String → Reader α}
    {S : String → Bytes → α → Prop} (rest : ∀ field, Reads limit (k field) (S field)) :
    Reads limit (readTextString >>= k) fun bs a =>
      ∃ field key value, bs = key ++ value ∧ Text field key ∧ S field value a :=
  (readTextString_reads bounded).bind fun field _ _ => rest field

theorem value_reads {β : Type} {m : Reader β} {R : Bytes → β → Prop} (reads : Reads limit m R)
    (g : β → α) : Reads limit (do return g (← m)) fun bs a => ∃ b, R bs b ∧ g b = a :=
  reads.map fun _ => rfl

theorem skipped_reads (bounded : limit ≤ intMaxValue) (a : α) :
    Reads limit (do skipValue; return a) fun bs a' => ∃ item, Skipped item bs ∧ a = a' := by
  refine (value_reads (skipValue_reads bounded) fun _ => a).congr fun bs a' => ?_
  constructor
  · rintro ⟨_, item, same⟩
    exact ⟨bs, ⟨rfl, item⟩, same⟩
  · rintro ⟨_, ⟨rfl, item⟩, same⟩
    exact ⟨(), item, same⟩

theorem counted_reads (bounded : limit ≤ intMaxValue) {ε : Type} {mt : ℕ} {header : Reader ℕ}
    (first : Reads limit header fun bs n => Head mt n bs ∧ n ≤ intMaxValue)
    {body : α → Reader α} {R : ε → Bytes → Prop} {apply : α → ε → α}
    (some : ∀ e bs, R e bs → bs ≠ [])
    (each : ∀ a, Reads limit (body a) fun bs a' => ∃ e, R e bs ∧ apply a e = a') (a : α) :
    Reads limit (header >>= fun n => times body n a) fun bs a' =>
      ∃ es, Counted mt R es bs ∧ es.foldl apply a = a' := by
  refine (first.bind fun n _ _ => (Exact.times each n a).congr fun _ _ =>
    repeats_foldl).congr_short fun ds a' short => ?_
  constructor
  · rintro ⟨n, front, body, rfl, ⟨head, _⟩, es, rfl, listed, same⟩
    exact ⟨es, ⟨front, body, rfl, head, listed⟩, same⟩
  · rintro ⟨es, ⟨front, body, rfl, head, listed⟩, same⟩
    have count := listed.le_length some
    rw [List.length_append] at short
    exact ⟨es.length, front, body, rfl, ⟨head, by omega⟩, es, rfl, listed, same⟩

variable (bounded : limit ≤ intMaxValue)
include bounded

theorem readRpField_reads (f : MakeCredentialFields) : Reads limit (readRpField f) fun bs f' =>
    ∃ e : RpEntry, e.Encodes bs ∧ RpEntry.apply f e = f' := by
  refine (keyed_reads bounded fun field =>
    .ite (fun _ => value_reads (readTextString_reads bounded) fun s => { f with rpId := some s })
      fun _ => .ite (fun _ => value_reads (readTextString_reads bounded) fun s =>
        { f with rpName := some s })
      fun _ => skipped_reads bounded f).congr fun bs f' => ?_
  constructor
  · rintro ⟨field, key, value, rfl, text, h⟩
    split_ifs at h with hid hname
    · obtain ⟨s, hs, rfl⟩ := h
      exact ⟨.id s, ⟨key, value, rfl, hid ▸ text, hs⟩, rfl⟩
    · obtain ⟨s, hs, rfl⟩ := h
      exact ⟨.name s, ⟨key, value, rfl, hname ▸ text, hs⟩, rfl⟩
    · obtain ⟨item, hitem, rfl⟩ := h
      exact ⟨.other field item, ⟨by simp [hid, hname], key, value, rfl, text, hitem⟩, rfl⟩
  · rintro ⟨e, h, rfl⟩
    cases e with
    | id s =>
      obtain ⟨key, value, rfl, text, hs⟩ := h
      exact ⟨_, key, value, rfl, text, s, hs, rfl⟩
    | name s =>
      obtain ⟨key, value, rfl, text, hs⟩ := h
      exact ⟨_, key, value, rfl, text, s, hs, rfl⟩
    | other field item =>
      obtain ⟨fresh, key, value, rfl, text, hitem⟩ := h
      simp only [List.mem_cons, List.not_mem_nil, or_false, not_or] at fresh
      refine ⟨field, key, value, rfl, text, ?_⟩
      rw [if_neg fresh.1, if_neg fresh.2]
      exact ⟨item, hitem, rfl⟩

theorem readUserField_reads (f : MakeCredentialFields) :
    Reads limit (readUserField f) fun bs f' =>
      ∃ e : UserEntry, e.Encodes bs ∧ UserEntry.apply f e = f' := by
  refine (keyed_reads bounded fun field =>
    .ite (fun _ => value_reads (readByteString_reads bounded) fun content =>
        { f with userHandle := some (Base64Url.encode content) })
      fun _ => .ite (fun _ => value_reads (readTextString_reads bounded) fun s =>
        { f with userName := some s })
      fun _ => .ite (fun _ => value_reads (readTextString_reads bounded) fun s =>
        { f with userDisplayName := some s })
      fun _ => skipped_reads bounded f).congr fun bs f' => ?_
  constructor
  · rintro ⟨field, key, value, rfl, text, h⟩
    split_ifs at h with hid hname hdisplay
    · obtain ⟨content, hs, rfl⟩ := h
      exact ⟨.id content, ⟨key, value, rfl, hid ▸ text, hs⟩, rfl⟩
    · obtain ⟨s, hs, rfl⟩ := h
      exact ⟨.name s, ⟨key, value, rfl, hname ▸ text, hs⟩, rfl⟩
    · obtain ⟨s, hs, rfl⟩ := h
      exact ⟨.displayName s, ⟨key, value, rfl, hdisplay ▸ text, hs⟩, rfl⟩
    · obtain ⟨item, hitem, rfl⟩ := h
      exact ⟨.other field item,
        ⟨by simp [hid, hname, hdisplay], key, value, rfl, text, hitem⟩, rfl⟩
  · rintro ⟨e, h, rfl⟩
    cases e with
    | id content =>
      obtain ⟨key, value, rfl, text, hs⟩ := h
      exact ⟨_, key, value, rfl, text, content, hs, rfl⟩
    | name s =>
      obtain ⟨key, value, rfl, text, hs⟩ := h
      exact ⟨_, key, value, rfl, text, s, hs, rfl⟩
    | displayName s =>
      obtain ⟨key, value, rfl, text, hs⟩ := h
      exact ⟨_, key, value, rfl, text, s, hs, rfl⟩
    | other field item =>
      obtain ⟨fresh, key, value, rfl, text, hitem⟩ := h
      simp only [List.mem_cons, List.not_mem_nil, or_false, not_or] at fresh
      refine ⟨field, key, value, rfl, text, ?_⟩
      rw [if_neg fresh.1, if_neg fresh.2.1, if_neg fresh.2.2]
      exact ⟨item, hitem, rfl⟩

theorem readExcludedField_reads (descId : Option Bytes) :
    Reads limit (readExcludedField descId) fun bs d =>
      ∃ e : ExcludedEntry, e.Encodes bs ∧ ExcludedEntry.apply descId e = d := by
  refine (keyed_reads bounded fun field =>
    .ite (fun _ => value_reads (readByteString_reads bounded) some)
      fun _ => skipped_reads bounded descId).congr fun bs d => ?_
  constructor
  · rintro ⟨field, key, value, rfl, text, h⟩
    split_ifs at h with hid
    · obtain ⟨content, hs, rfl⟩ := h
      exact ⟨.id content, ⟨key, value, rfl, hid ▸ text, hs⟩, rfl⟩
    · obtain ⟨item, hitem, rfl⟩ := h
      exact ⟨.other field item, ⟨hid, key, value, rfl, text, hitem⟩, rfl⟩
  · rintro ⟨e, h, rfl⟩
    cases e with
    | id content =>
      obtain ⟨key, value, rfl, text, hs⟩ := h
      exact ⟨_, key, value, rfl, text, content, hs, rfl⟩
    | other field item =>
      obtain ⟨fresh, key, value, rfl, text, hitem⟩ := h
      refine ⟨field, key, value, rfl, text, ?_⟩
      rw [if_neg fresh]
      exact ⟨item, hitem, rfl⟩

theorem readDescriptorField_reads (d : Descriptor) :
    Reads limit (readDescriptorField d) fun bs d' =>
      ∃ e : DescriptorEntry, e.Encodes bs ∧ DescriptorEntry.apply d e = d' := by
  refine (keyed_reads bounded fun field =>
    .ite (fun _ => value_reads (readByteString_reads bounded) fun content =>
        { d with descId := some content })
      fun _ => .ite (fun _ => value_reads (readTextString_reads bounded) fun s =>
        { d with descType := some s })
      fun _ => skipped_reads bounded d).congr fun bs d' => ?_
  constructor
  · rintro ⟨field, key, value, rfl, text, h⟩
    split_ifs at h with hid htype
    · obtain ⟨content, hs, rfl⟩ := h
      exact ⟨.id content, ⟨key, value, rfl, hid ▸ text, hs⟩, rfl⟩
    · obtain ⟨s, hs, rfl⟩ := h
      exact ⟨.type s, ⟨key, value, rfl, htype ▸ text, hs⟩, rfl⟩
    · obtain ⟨item, hitem, rfl⟩ := h
      exact ⟨.other field item, ⟨by simp [hid, htype], key, value, rfl, text, hitem⟩, rfl⟩
  · rintro ⟨e, h, rfl⟩
    cases e with
    | id content =>
      obtain ⟨key, value, rfl, text, hs⟩ := h
      exact ⟨_, key, value, rfl, text, content, hs, rfl⟩
    | type s =>
      obtain ⟨key, value, rfl, text, hs⟩ := h
      exact ⟨_, key, value, rfl, text, s, hs, rfl⟩
    | other field item =>
      obtain ⟨fresh, key, value, rfl, text, hitem⟩ := h
      simp only [List.mem_cons, List.not_mem_nil, or_false, not_or] at fresh
      refine ⟨field, key, value, rfl, text, ?_⟩
      rw [if_neg fresh.1, if_neg fresh.2]
      exact ⟨item, hitem, rfl⟩

theorem readOption_reads (f : GetAssertionFields) : Reads limit (readOption f) fun bs f' =>
    ∃ e : OptionEntry, e.Encodes bs ∧ OptionEntry.apply f e = f' := by
  refine (keyed_reads bounded fun field =>
    .ite (fun _ => value_reads readBool_reads fun v => { f with optionsUp := v })
      fun _ => .ite (fun _ => value_reads readBool_reads fun v => { f with optionsUv := v })
      fun _ => skipped_reads bounded f).congr fun bs f' => ?_
  constructor
  · rintro ⟨field, key, value, rfl, text, h⟩
    split_ifs at h with hup huv
    · obtain ⟨v, hv, rfl⟩ := h
      exact ⟨.up v, ⟨key, value, rfl, hup ▸ text, hv⟩, rfl⟩
    · obtain ⟨v, hv, rfl⟩ := h
      exact ⟨.uv v, ⟨key, value, rfl, huv ▸ text, hv⟩, rfl⟩
    · obtain ⟨item, hitem, rfl⟩ := h
      exact ⟨.other field item, ⟨by simp [hup, huv], key, value, rfl, text, hitem⟩, rfl⟩
  · rintro ⟨e, h, rfl⟩
    cases e with
    | up v =>
      obtain ⟨key, value, rfl, text, hv⟩ := h
      exact ⟨_, key, value, rfl, text, v, hv, rfl⟩
    | uv v =>
      obtain ⟨key, value, rfl, text, hv⟩ := h
      exact ⟨_, key, value, rfl, text, v, hv, rfl⟩
    | other field item =>
      obtain ⟨fresh, key, value, rfl, text, hitem⟩ := h
      simp only [List.mem_cons, List.not_mem_nil, or_false, not_or] at fresh
      refine ⟨field, key, value, rfl, text, ?_⟩
      rw [if_neg fresh.1, if_neg fresh.2]
      exact ⟨item, hitem, rfl⟩

def Algorithm (p : CredentialParam) (bs : Bytes) (p' : CredentialParam) : Prop :=
  (∃ a, Integer a bs ∧ -2 ^ 63 ≤ a ∧ ParamEntry.apply p (.alg a) = p') ∨
    (Item bs ∧ (∀ a, ¬ Integer a bs) ∧ p = p')

omit bounded in
theorem integer_major {a : ℤ} {b : UInt8} {bs : Bytes} (h : Integer a (b :: bs)) :
    b.toNat / 32 = 0 ∧ 0 ≤ a ∨ b.toNat / 32 = 1 ∧ a < 0 := by
  obtain ⟨n, ⟨rfl, head⟩ | ⟨rfl, head⟩⟩ := h
  · exact .inl ⟨head.major (by omega), by omega⟩
  · exact .inr ⟨head.major (by omega), by omega⟩

theorem algorithm_reads (p : CredentialParam) : Reads limit (do
    if (← peekMajorType) = 1 then return { p with algId := some (← readNegativeInt) }
    else
      skipValue
      return p) (Algorithm p) := by
  refine (peekMajorType_reads (fun mt => .ite (fun _ => value_reads readNegativeInt_reads
    fun v => { p with algId := some v }) fun _ => skipped_reads bounded p) ?_).congr fun bs p' => ?_
  · intro mt bs p' h
    split_ifs at h
    · obtain ⟨_, ⟨n, _, head, _⟩, _⟩ := h
      exact head.ne_nil
    · obtain ⟨_, ⟨rfl, item⟩, _⟩ := h
      exact item.ne_nil
  constructor
  · rintro ⟨b, cs, rfl, h⟩
    split_ifs at h with negative
    · obtain ⟨_, ⟨n, fits, head, rfl⟩, rfl⟩ := h
      exact .inl ⟨_, ⟨n, .inr ⟨rfl, head⟩⟩, by omega, ParamEntry.apply_negative (by omega)⟩
    · obtain ⟨_, ⟨rfl, item⟩, rfl⟩ := h
      by_cases integer : ∃ a, Integer a (b :: cs)
      · obtain ⟨a, ha⟩ := integer
        have sign := integer_major ha
        exact .inl ⟨a, ha, by omega, ParamEntry.apply_unsigned (by omega)⟩
      · exact .inr ⟨item, fun a ha => integer ⟨a, ha⟩, rfl⟩
  · rintro (⟨a, integer, fits, rfl⟩ | ⟨item, other, rfl⟩)
    · obtain ⟨b, cs, rfl⟩ : ∃ b cs, bs = b :: cs := by
        obtain ⟨n, ⟨_, head⟩ | ⟨_, head⟩⟩ := integer
        all_goals exact List.exists_cons_of_ne_nil head.ne_nil
      refine ⟨b, cs, rfl, ?_⟩
      obtain ⟨n, ⟨rfl, head⟩ | ⟨rfl, head⟩⟩ := integer
      · rw [if_neg (by rw [head.major (by omega)]; omega)]
        exact ⟨_, ⟨rfl, .integer (.inl rfl) head⟩,
          (ParamEntry.apply_unsigned (Int.natCast_nonneg n)).symm⟩
      · rw [if_pos (head.major (by omega))]
        have fits' : n < 2 ^ 63 := by omega
        have negative : -1 - (n : ℤ) < 0 := by omega
        exact ⟨_, ⟨n, fits', head, rfl⟩, (ParamEntry.apply_negative negative).symm⟩
    · obtain ⟨b, cs, rfl⟩ := List.exists_cons_of_ne_nil item.ne_nil
      refine ⟨b, cs, rfl, ?_⟩
      rw [if_neg]
      · exact ⟨_, ⟨rfl, item⟩, rfl⟩
      · intro negative
        rcases item_cons.mp item with ⟨n, front, content, split, head, _, body⟩ | ⟨_, _, _⟩
        · rw [negative] at head body
          obtain rfl : content = [] := body
          rw [List.append_nil] at split
          exact other _ ⟨n, .inr ⟨rfl, split ▸ head⟩⟩
        · omega

theorem readParamField_reads (p : CredentialParam) : Reads limit (readParamField p) fun bs p' =>
    ∃ e : ParamEntry, (e.Encodes bs ∧ e.Readable) ∧ ParamEntry.apply p e = p' := by
  refine (keyed_reads bounded fun field => .ite (fun _ => algorithm_reads bounded p)
    fun _ => .ite (fun _ => value_reads (readTextString_reads bounded) fun s =>
      { p with paramType := some s })
    fun _ => skipped_reads bounded p).congr fun bs p' => ?_
  constructor
  · rintro ⟨field, key, value, rfl, text, h⟩
    split_ifs at h with halg htype
    · subst halg
      rcases h with ⟨a, integer, fits, rfl⟩ | ⟨item, other, rfl⟩
      · exact ⟨.alg a, ⟨⟨key, value, rfl, text, integer⟩, fits⟩, rfl⟩
      · exact ⟨.other "alg" value,
          ⟨⟨by decide, fun _ => other, key, value, rfl, text, rfl, item⟩, trivial⟩, rfl⟩
    · obtain ⟨s, hs, rfl⟩ := h
      exact ⟨.type s, ⟨⟨key, value, rfl, htype ▸ text, hs⟩, trivial⟩, rfl⟩
    · obtain ⟨item, hitem, rfl⟩ := h
      exact ⟨.other field item,
        ⟨⟨htype, fun h => absurd h halg, key, value, rfl, text, hitem⟩, trivial⟩, rfl⟩
  · rintro ⟨e, ⟨h, readable⟩, rfl⟩
    cases e with
    | alg a =>
      obtain ⟨key, value, rfl, text, integer⟩ := h
      exact ⟨_, key, value, rfl, text, .inl ⟨a, integer, readable, rfl⟩⟩
    | type s =>
      obtain ⟨key, value, rfl, text, hs⟩ := h
      exact ⟨_, key, value, rfl, text, s, hs, rfl⟩
    | other field item =>
      obtain ⟨fresh, other, key, value, rfl, text, rfl, hitem⟩ := h
      refine ⟨field, key, value, rfl, text, ?_⟩
      by_cases halg : field = "alg"
      · rw [if_pos halg]
        exact .inr ⟨hitem, other halg, rfl⟩
      · rw [if_neg halg, if_neg fresh]
        exact ⟨value, ⟨rfl, hitem⟩, rfl⟩

omit bounded in
theorem counted_and {ε : Type} {mt : ℕ} {R : ε → Bytes → Prop} {P : ε → Prop} {es : List ε}
    {bs : Bytes} : Counted mt (fun e bs => R e bs ∧ P e) es bs ↔
      Counted mt R es bs ∧ ∀ e ∈ es, P e := by
  constructor
  · rintro ⟨front, body, rfl, head, listed⟩
    obtain ⟨listed, all⟩ := listed_and.mp listed
    exact ⟨⟨front, body, rfl, head, listed⟩, all⟩
  · rintro ⟨⟨front, body, rfl, head, listed⟩, all⟩
    exact ⟨front, body, rfl, head, listed_and.mpr ⟨listed, all⟩⟩

theorem inner_map_reads {ε γ : Type} {body : γ → Reader γ} {R : ε → Bytes → Prop}
    {apply : γ → ε → γ} (some : ∀ e bs, R e bs → bs ≠ [])
    (each : ∀ c, Reads limit (body c) fun bs c' => ∃ e, R e bs ∧ apply c e = c') (c : γ)
    {finish : γ → Reader α} {g : γ → α} (done : ∀ c, finish c = pure (g c)) :
    Reads limit (readMapHeader >>= fun n => times body n c >>= finish) fun bs a =>
      ∃ es, Counted 5 R es bs ∧ g (es.foldl apply c) = a := by
  have split : (readMapHeader >>= fun n => times body n c >>= finish) =
      (readMapHeader >>= fun n => times body n c) >>= finish := (bind_assoc _ _ _).symm
  rw [split]
  refine ((counted_reads bounded readMapHeader_reads some each c).map done).congr fun bs a => ?_
  constructor
  · rintro ⟨_, ⟨es, counted, rfl⟩, same⟩
    exact ⟨es, counted, same⟩
  · rintro ⟨es, counted, same⟩
    exact ⟨_, ⟨es, counted, rfl⟩, same⟩

theorem readCredentialParam_reads (f : MakeCredentialFields) :
    Reads limit (readCredentialParam f) fun bs f' => ∃ es : List ParamEntry,
      (Counted 5 ParamEntry.Encodes es bs ∧ ∀ e ∈ es, e.Readable) ∧ addParam f es = f' := by
  exact (inner_map_reads bounded (fun e bs h => e.ne_nil bs h.1) (readParamField_reads bounded)
    ⟨none, none⟩ fun _ => rfl).congr fun bs f' =>
      exists_congr fun es => and_congr_left fun _ => counted_and

theorem readExcluded_reads (f : MakeCredentialFields) :
    Reads limit (readExcluded f) fun bs f' => ∃ es : List ExcludedEntry,
      Counted 5 ExcludedEntry.Encodes es bs ∧ addExcluded f es = f' := by
  refine inner_map_reads bounded ExcludedEntry.ne_nil (readExcludedField_reads bounded) none
    (g := fun d => match d with
      | some descId => { f with excludeList := f.excludeList ++ [Base64Url.encode descId] }
      | none => f) fun d => ?_
  cases d <;> rfl

theorem readDescriptor_reads (f : GetAssertionFields) :
    Reads limit (readDescriptor f) fun bs f' => ∃ es : List DescriptorEntry,
      Counted 5 DescriptorEntry.Encodes es bs ∧ addDescriptor f es = f' :=
  inner_map_reads bounded DescriptorEntry.ne_nil (readDescriptorField_reads bounded)
    ⟨none, none⟩ fun _ => rfl

theorem readClientDataHash_reads (method : String) :
    Reads limit (readClientDataHash method) fun bs hash =>
      Content 2 bs hash ∧ hash.length = 32 := by
  refine ((readByteString_reads bounded).bind (S := fun content bs hash =>
    content.length = 32 ∧ bs = [] ∧ hash = content) fun content _ _ => ?_).congr fun ds hash => ?_
  · dsimp only
    by_cases width : content.length = 32
    · rw [if_neg (not_not_intro width)]
      refine (Exact.pure content).congr fun bs hash => ?_
      exact ⟨fun ⟨h, h'⟩ => ⟨width, h, h'.symm⟩, fun ⟨_, h, h'⟩ => ⟨h, h'.symm⟩⟩
    · rw [if_pos width]
      refine (Exact.never fun r hash t h => ?_).congr fun bs hash =>
        ⟨False.elim, fun h => width h.1⟩
      cases h
  · constructor
    · rintro ⟨content, bs, _, rfl, h, width, rfl, rfl⟩
      exact ⟨by rwa [List.append_nil], width⟩
    · rintro ⟨h, width⟩
      exact ⟨hash, ds, [], (List.append_nil ds).symm, h, width, rfl, rfl⟩

omit bounded in
theorem known_key {key n : ℕ} {keys : List ℕ} {P : Prop} (fresh : key ∉ keys) (same : key = n)
    (known : n ∈ keys) : P := absurd (same ▸ known) fresh

omit bounded in
theorem numbered_reads {ε : Type} {key : ε → ℕ} {V : ε → Bytes → Prop} {P : ε → α → Prop}
    {k : ℕ → Reader α}
    (rest : ∀ n, Reads limit (k n) fun bs a => ∃ e, key e = n ∧ V e bs ∧ P e a) :
    Reads limit (readUnsignedInt >>= k) fun bs a =>
      ∃ e, Numbered (key e) (V e) bs ∧ P e a := by
  refine (readUnsignedInt_reads.bind fun n _ _ => rest n).congr fun bs a => ?_
  constructor
  · rintro ⟨_, front, value, rfl, head, e, rfl, h, he⟩
    exact ⟨e, ⟨front, value, rfl, head, h⟩, he⟩
  · rintro ⟨e, ⟨front, value, rfl, head, h⟩, he⟩
    exact ⟨key e, front, value, rfl, head, e, rfl, h, he⟩

theorem readMakeCredentialKey_reads (f : MakeCredentialFields) :
    Reads limit (readMakeCredentialKey f) fun bs f' =>
      ∃ e : MakeEntry, e.Encodes bs ∧ e.Readable ∧ MakeEntry.apply f e = f' := by
  -- any other key is skipped with its value
  have unknown : ∀ n, n ∉ [1, 2, 3, 4, 5] → Reads limit (do skipValue; return f) fun bs f' =>
      ∃ e : MakeEntry, e.key = n ∧ e.Value bs ∧ e.Readable ∧ MakeEntry.apply f e = f' := by
    intro n fresh
    refine (skipped_reads bounded f).congr fun bs f' => ?_
    constructor
    · rintro ⟨item, hitem, rfl⟩
      exact ⟨.other n item, rfl, ⟨fresh, hitem⟩, trivial, rfl⟩
    · rintro ⟨e, rfl, h, readable, rfl⟩
      cases e with
      | other key item => exact ⟨item, h.2, rfl⟩
      | _ => exact absurd (by simp [MakeEntry.key]) fresh
  refine numbered_reads fun n => ?_
  match n with
  | 1 =>
    refine (value_reads (readClientDataHash_reads bounded makeMethod) fun hash =>
      { f with clientDataHash := some hash }).congr fun bs f' => ?_
    constructor
    · rintro ⟨hash, h, rfl⟩
      exact ⟨.clientDataHash hash, rfl, h, trivial, rfl⟩
    · rintro ⟨e, hkey, h, readable, rfl⟩
      cases e with
      | clientDataHash hash => exact ⟨hash, h, rfl⟩
      | other key item => exact known_key h.1 hkey (n := 1) (by decide)
      | _ => cases hkey
  | 2 =>
    refine (counted_reads bounded readMapHeader_reads RpEntry.ne_nil
      (readRpField_reads bounded) f).congr fun bs f' => ?_
    constructor
    · rintro ⟨es, h, rfl⟩
      exact ⟨.rp es, rfl, h, trivial, rfl⟩
    · rintro ⟨e, hkey, h, readable, rfl⟩
      cases e with
      | rp es => exact ⟨es, h, rfl⟩
      | other key item => exact known_key h.1 hkey (n := 2) (by decide)
      | _ => cases hkey
  | 3 =>
    refine (counted_reads bounded readMapHeader_reads UserEntry.ne_nil
      (readUserField_reads bounded) f).congr fun bs f' => ?_
    constructor
    · rintro ⟨es, h, rfl⟩
      exact ⟨.user es, rfl, h, trivial, rfl⟩
    · rintro ⟨e, hkey, h, readable, rfl⟩
      cases e with
      | user es => exact ⟨es, h, rfl⟩
      | other key item => exact known_key h.1 hkey (n := 3) (by decide)
      | _ => cases hkey
  | 4 =>
    refine (counted_reads bounded readArrayHeader_reads (fun _ _ h => h.1.ne_nil)
      (readCredentialParam_reads bounded) f).congr fun bs f' => ?_
    constructor
    · rintro ⟨ps, h, rfl⟩
      obtain ⟨h, readable⟩ := counted_and.mp h
      exact ⟨.pubKeyCredParams ps, rfl, h, readable, rfl⟩
    · rintro ⟨e, hkey, h, readable, rfl⟩
      cases e with
      | pubKeyCredParams ps => exact ⟨ps, counted_and.mpr ⟨h, readable⟩, rfl⟩
      | other key item => exact known_key h.1 hkey (n := 4) (by decide)
      | _ => cases hkey
  | 5 =>
    refine (counted_reads bounded readArrayHeader_reads (fun _ _ h => h.ne_nil)
      (readExcluded_reads bounded) f).congr fun bs f' => ?_
    constructor
    · rintro ⟨ds, h, rfl⟩
      exact ⟨.excludeList ds, rfl, h, trivial, rfl⟩
    · rintro ⟨e, hkey, h, readable, rfl⟩
      cases e with
      | excludeList ds => exact ⟨ds, h, rfl⟩
      | other key item => exact known_key h.1 hkey (n := 5) (by decide)
      | _ => cases hkey
  | 0 => exact unknown _ (by simp)
  | n + 6 => exact unknown _ (by simp)

theorem readMakeCredential_reads : Reads limit readMakeCredential fun bs f =>
    ∃ es, (Counted 5 MakeEntry.Encodes es bs ∧ ∀ e ∈ es, MakeEntry.Readable e) ∧
      makeFields es = f := by
  have each : ∀ f, Reads limit (readMakeCredentialKey f) fun bs f' =>
      ∃ e : MakeEntry, (e.Encodes bs ∧ e.Readable) ∧ MakeEntry.apply f e = f' := fun f =>
    (readMakeCredentialKey_reads bounded f).congr fun bs f' =>
      exists_congr fun e => and_assoc.symm
  exact (counted_reads bounded readMapHeader_reads (fun _ _ h => h.1.ne_nil) each
    MakeCredentialFields.empty).congr fun bs f =>
      exists_congr fun es => and_congr_left fun _ => counted_and

theorem readGetAssertionKey_reads (f : GetAssertionFields) :
    Reads limit (readGetAssertionKey f) fun bs f' =>
      ∃ e : GetEntry, e.Encodes bs ∧ GetEntry.apply f e = f' := by
  have unknown : ∀ n, n ∉ [1, 2, 3, 5] → Reads limit (do skipValue; return f) fun bs f' =>
      ∃ e : GetEntry, e.key = n ∧ e.Value bs ∧ GetEntry.apply f e = f' := by
    intro n fresh
    refine (skipped_reads bounded f).congr fun bs f' => ?_
    constructor
    · rintro ⟨item, hitem, rfl⟩
      exact ⟨.other n item, rfl, ⟨fresh, hitem⟩, rfl⟩
    · rintro ⟨e, rfl, h, rfl⟩
      cases e with
      | other key item => exact ⟨item, h.2, rfl⟩
      | _ => exact absurd (by simp [GetEntry.key]) fresh
  refine numbered_reads fun n => ?_
  match n with
  | 1 =>
    refine (value_reads (readTextString_reads bounded) fun s =>
      { f with rpId := some s }).congr fun bs f' => ?_
    constructor
    · rintro ⟨s, h, rfl⟩
      exact ⟨.rpId s, rfl, h, rfl⟩
    · rintro ⟨e, hkey, h, rfl⟩
      cases e with
      | rpId s => exact ⟨s, h, rfl⟩
      | other key item => exact known_key h.1 hkey (n := 1) (by decide)
      | _ => cases hkey
  | 2 =>
    refine (value_reads (readClientDataHash_reads bounded getMethod) fun hash =>
      { f with clientDataHash := some hash }).congr fun bs f' => ?_
    constructor
    · rintro ⟨hash, h, rfl⟩
      exact ⟨.clientDataHash hash, rfl, h, rfl⟩
    · rintro ⟨e, hkey, h, rfl⟩
      cases e with
      | clientDataHash hash => exact ⟨hash, h, rfl⟩
      | other key item => exact known_key h.1 hkey (n := 2) (by decide)
      | _ => cases hkey
  | 3 =>
    refine (counted_reads bounded readArrayHeader_reads (fun _ _ h => h.ne_nil)
      (readDescriptor_reads bounded) f).congr fun bs f' => ?_
    constructor
    · rintro ⟨ds, h, rfl⟩
      exact ⟨.allowList ds, rfl, h, rfl⟩
    · rintro ⟨e, hkey, h, rfl⟩
      cases e with
      | allowList ds => exact ⟨ds, h, rfl⟩
      | other key item => exact known_key h.1 hkey (n := 3) (by decide)
      | _ => cases hkey
  | 5 =>
    refine (counted_reads bounded readMapHeader_reads OptionEntry.ne_nil
      (readOption_reads bounded) f).congr fun bs f' => ?_
    constructor
    · rintro ⟨es, h, rfl⟩
      exact ⟨.options es, rfl, h, rfl⟩
    · rintro ⟨e, hkey, h, rfl⟩
      cases e with
      | options es => exact ⟨es, h, rfl⟩
      | other key item => exact known_key h.1 hkey (n := 5) (by decide)
      | _ => cases hkey
  | 0 => exact unknown _ (by simp)
  | 4 => exact unknown _ (by simp)
  | n + 6 => exact unknown _ (by simp)

theorem readGetAssertion_reads : Reads limit readGetAssertion fun bs f =>
    ∃ es, Counted 5 GetEntry.Encodes es bs ∧ getFields es = f :=
  counted_reads bounded readMapHeader_reads (fun _ _ h => h.ne_nil)
    (readGetAssertionKey_reads bounded) GetAssertionFields.empty

end

section
variable {data bs rest : Bytes}

/-- What stands in front decides, and nothing behind it is looked at. -/
theorem parse_makeEntries {es : List MakeEntry} (counted : Counted 5 MakeEntry.Encodes es bs)
    (readable : ∀ e ∈ es, e.Readable) (size : (bs ++ rest).length ≤ intMaxValue) :
    parseMakeCredentialCbor (bs ++ rest) = (makeFields es).validate := by
  have left : cursor.left ⟨0, bs ++ rest⟩ = bs ++ rest := rfl
  have read := ((readMakeCredential_reads le_rfl).reads ⟨es, ⟨counted, readable⟩, rfl⟩ left size).1
  exact except_bind_of_ok (parse_ok.mpr ⟨_, read⟩)

theorem parse_getEntries {es : List GetEntry} (counted : Counted 5 GetEntry.Encodes es bs)
    (size : (bs ++ rest).length ≤ intMaxValue) :
    parseGetAssertionCbor (bs ++ rest) = (getFields es).validate := by
  have left : cursor.left ⟨0, bs ++ rest⟩ = bs ++ rest := rfl
  have read := ((readGetAssertion_reads le_rfl).reads ⟨es, counted, rfl⟩ left size).1
  exact except_bind_of_ok (parse_ok.mpr ⟨_, read⟩)

theorem makeEntries_of_parse (size : data.length ≤ intMaxValue) {req : MakeCredentialRequest}
    (h : parseMakeCredentialCbor data = .ok req) : ∃ es bs rest, data = bs ++ rest ∧
      Counted 5 MakeEntry.Encodes es bs ∧ (∀ e ∈ es, MakeEntry.Readable e) ∧
      (makeFields es).validate = .ok req := by
  obtain ⟨f, read, valid⟩ := except_bind_ok.mp h
  obtain ⟨r, read⟩ := parse_ok.mp read
  obtain ⟨bs, ⟨left, _⟩, es, ⟨counted, readable⟩, rfl⟩ :=
    (readMakeCredential_reads le_rfl ⟨0, data⟩ size f r).mp read
  exact ⟨es, bs, _, left, counted, readable, valid⟩

theorem getEntries_of_parse (size : data.length ≤ intMaxValue) {req : GetAssertionRequest}
    (h : parseGetAssertionCbor data = .ok req) : ∃ es bs rest, data = bs ++ rest ∧
      Counted 5 GetEntry.Encodes es bs ∧ (getFields es).validate = .ok req := by
  obtain ⟨f, read, valid⟩ := except_bind_ok.mp h
  obtain ⟨r, read⟩ := parse_ok.mp read
  obtain ⟨bs, ⟨left, _⟩, es, counted, rfl⟩ :=
    (readGetAssertion_reads le_rfl ⟨0, data⟩ size f r).mp read
  exact ⟨es, bs, _, left, counted, valid⟩

end

theorem foldl_same {α β γ : Type} {apply : α → β → α} {g : α → γ}
    (h : ∀ a b, g (apply a b) = g a) (bs : List β) (a : α) : g (bs.foldl apply a) = g a := by
  induction bs generalizing a with
  | nil => rfl
  | cons b bs ih => rw [List.foldl_cons, ih, h]

theorem foldl_appends {α β γ : Type} {apply : α → β → α} {g : α → List γ} {h : β → List γ}
    (each : ∀ a b, g (apply a b) = g a ++ h b) (bs : List β) (a : α) :
    g (bs.foldl apply a) = g a ++ bs.flatMap h := by
  induction bs generalizing a with
  | nil => simp
  | cons b bs ih => rw [List.foldl_cons, ih, each, List.flatMap_cons, List.append_assoc]

def MakeEntry.excluded : MakeEntry → List (List ExcludedEntry)
  | .excludeList ds => ds
  | _ => []

def GetEntry.allowed : GetEntry → List (List DescriptorEntry)
  | .allowList ds => ds
  | _ => []

theorem rp_keeps {γ : Type} {g : MakeCredentialFields → γ}
    (h : ∀ f v w, g { f with rpId := v, rpName := w } = g f) (es : List RpEntry)
    (f : MakeCredentialFields) : g (es.foldl RpEntry.apply f) = g f := by
  refine foldl_same (fun f e => ?_) es f
  cases e with
  | id s => exact h f (some s) f.rpName
  | name s => exact h f f.rpId (some s)
  | other => rfl

theorem user_keeps {γ : Type} {g : MakeCredentialFields → γ}
    (h : ∀ f u v w, g { f with userHandle := u, userName := v, userDisplayName := w } = g f)
    (es : List UserEntry) (f : MakeCredentialFields) : g (es.foldl UserEntry.apply f) = g f := by
  refine foldl_same (fun f e => ?_) es f
  cases e with
  | id content => exact h f (some (Base64Url.encode content)) f.userName f.userDisplayName
  | name s => exact h f f.userHandle (some s) f.userDisplayName
  | displayName s => exact h f f.userHandle f.userName (some s)
  | other => rfl

def excludedIds (d : List ExcludedEntry) : List String :=
  ((excludedId d).map Base64Url.encode).toList

theorem addExcluded_eq (f : MakeCredentialFields) (d : List ExcludedEntry) :
    addExcluded f d = { f with excludeList := f.excludeList ++ excludedIds d } := by
  unfold addExcluded excludedIds
  cases excludedId d <;> simp

theorem makeFields_excludeList (es : List MakeEntry) :
    (makeFields es).excludeList = (es.flatMap MakeEntry.excluded).flatMap excludedIds := by
  have each : ∀ f e, (MakeEntry.apply f e).excludeList =
      f.excludeList ++ (MakeEntry.excluded e).flatMap excludedIds := by
    intro f e
    cases e with
    | rp es => exact (rp_keeps (fun _ _ _ => rfl) es f).trans (List.append_nil _).symm
    | user es => exact (user_keeps (fun _ _ _ _ => rfl) es f).trans (List.append_nil _).symm
    | pubKeyCredParams ps =>
      have keeps : ∀ f p, (addParam f p).excludeList = f.excludeList := fun _ _ => rfl
      exact (foldl_same keeps ps f).trans (List.append_nil _).symm
    | excludeList ds =>
      exact foldl_appends (fun f d => by rw [addExcluded_eq]) ds f
    | _ => simp [MakeEntry.apply, MakeEntry.excluded]
  rw [makeFields, foldl_appends each, List.flatMap_assoc]
  rfl

theorem getFields_allowList (es : List GetEntry) : (getFields es).allowListCredIds =
    (es.flatMap GetEntry.allowed).flatMap fun d => (descriptorOf d).publicKeyId := by
  have each : ∀ f e, (GetEntry.apply f e).allowListCredIds =
      f.allowListCredIds ++ (GetEntry.allowed e).flatMap fun d => (descriptorOf d).publicKeyId := by
    intro f e
    cases e with
    | allowList ds => exact foldl_appends (fun _ _ => rfl) ds f
    | options es =>
      have keeps : ∀ f e, (OptionEntry.apply f e).allowListCredIds = f.allowListCredIds := by
        rintro f (_ | _ | _) <;> rfl
      exact (foldl_same keeps es f).trans (List.append_nil _).symm
    | _ => simp [GetEntry.apply, GetEntry.allowed]
  rw [getFields, foldl_appends each, List.flatMap_assoc]
  rfl

section
variable {k : ℕ} {V : Bytes → Prop} {value : Bytes}

def writeText (s : String) : Bytes := CborCodec.head 3 (utf8 s).length ++ utf8 s

def writeBytes (content : Bytes) : Bytes := CborCodec.head 2 content.length ++ content

def writeCounted (mt : ℕ) (items : List Bytes) : Bytes :=
  CborCodec.head mt items.length ++ items.flatten

theorem text_write {s : String} (small : (utf8 s).length < 2 ^ 64) : Text s (writeText s) :=
  ⟨utf8 s, ⟨_, rfl, head_head small⟩, getString_utf8 s⟩

theorem text_item {s : String} {bs : Bytes} (h : Text s bs) : Item bs := by
  obtain ⟨content, ⟨front, rfl, head⟩, _⟩ := h
  exact .string (.inr rfl) head rfl

theorem content_write {content : Bytes} (small : content.length < 2 ^ 64) :
    Content 2 (writeBytes content) content := ⟨_, rfl, head_head small⟩

theorem keyed_write {field : String} (small : (utf8 field).length < 2 ^ 64) (h : V value) :
    Keyed field V (writeText field ++ value) := ⟨_, _, rfl, text_write small, h⟩

theorem numbered_write (small : k < 2 ^ 64) (h : V value) :
    Numbered k V (CborCodec.head 0 k ++ value) := ⟨_, _, rfl, head_head small, h⟩

theorem counted_write {α : Type} {mt : ℕ} {R : α → Bytes → Prop} {es : List α}
    {items : List Bytes} (small : items.length < 2 ^ 64) (h : List.Forall₂ R es items) :
    Counted mt R es (writeCounted mt items) := by
  refine ⟨_, _, rfl, by rw [h.length_eq]; exact head_head small, ?_⟩
  clear small
  induction h with
  | nil => exact .nil
  | cons first _ ih => exact .cons first ih

end

end KeePassKeyWin.CtapSyntax
