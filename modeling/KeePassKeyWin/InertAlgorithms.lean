import KeePassKeyWin.CtapDescriptions

set_option autoImplicit false

/-!
# Algorithms that the plugin does not support

An offer of another algorithm changes nothing about a request, unless it is a negative integer
of more than 64 bits: at that the whole request is turned down.
-/
namespace KeePassKeyWin.InertAlgorithms
open ByteStrings JsonRpc OutcomeRules CborReading CborGrammar GrammarReaders CborExactness
open CborFailures CtapRequests CtapSyntax CtapDescriptions

/-- The bytes begin with a map of these entries. -/
def Begins (es : List MakeEntry) (data : Bytes) : Prop :=
  ∃ bs rest, data = bs ++ rest ∧ Counted 5 MakeEntry.Encodes es bs

def Offers (a : ℤ) (p : List ParamEntry) : Prop :=
  p = [.type "public-key", .alg a] ∨ p = [.alg a, .type "public-key"]

theorem paramOf_offer {a : ℤ} {p : List ParamEntry} (h : Offers a p) :
    paramOf p = ⟨some "public-key", if a < 0 then some a else none⟩ := by
  rcases h with rfl | rfl <;> by_cases negative : a < 0 <;>
    simp [paramOf, ParamEntry.apply, negative]

theorem supported_offer {a : ℤ} {p : List ParamEntry} (h : Offers a p)
    (other : a ≠ -7 ∧ a ≠ -257) : (paramOf p).supported = [] := by
  rw [paramOf_offer h]
  by_cases negative : a < 0 <;> simp [CredentialParam.supported, negative, other]

theorem makeFields_insert {A B : List MakeEntry} {ps₁ ps₂ : List (List ParamEntry)}
    {p : List ParamEntry} (h : (paramOf p).supported = []) :
    makeFields (A ++ .pubKeyCredParams (ps₁ ++ p :: ps₂) :: B) =
      makeFields (A ++ .pubKeyCredParams (ps₁ ++ ps₂) :: B) := by
  have idle : ∀ f, addParam f p = f := by
    intro f
    rw [addParam, h, List.append_nil]
  simp only [makeFields, List.foldl_append, List.foldl_cons, MakeEntry.apply, idle]

section
variable {limit : ℕ}

theorem integer_item {a : ℤ} {bs : Bytes} (h : Integer a bs) : Item bs := by
  obtain ⟨n, ⟨_, head⟩ | ⟨_, head⟩⟩ := h
  · exact .integer (.inl rfl) head
  · exact .integer (.inr rfl) head

theorem integer_unique {a a' : ℤ} {bs : Bytes} (h : Integer a bs) (h' : Integer a' bs) :
    a = a' := by
  obtain ⟨n, ⟨rfl, head⟩ | ⟨rfl, head⟩⟩ := h
  all_goals obtain ⟨n', ⟨rfl, head'⟩ | ⟨rfl, head'⟩⟩ := h'
  all_goals obtain ⟨b, bs, rfl⟩ := List.exists_cons_of_ne_nil head.ne_nil
  · rw [head.argument_unique (by omega) head']
  · have := (head.major (by omega)).symm.trans (head'.major (by omega))
    omega
  · have := (head.major (by omega)).symm.trans (head'.major (by omega))
    omega
  · rw [head.argument_unique (by omega) head']

variable (bounded : limit ≤ intMaxValue)
include bounded

theorem counted_refuses {α ε : Type} {mt : ℕ} {header : Reader ℕ}
    (first : Reads limit header fun bs n => Head mt n bs ∧ n ≤ intMaxValue)
    {body : α → Reader α} {R : ε → Bytes → Prop} {apply : α → ε → α} {P : ε → Prop}
    (some : ∀ e bs, R e bs → bs ≠ [])
    (each : ∀ a, Reads limit (body a) fun bs a' => ∃ e, (R e bs ∧ P e) ∧ apply a e = a')
    (refuses : ∀ e bs, ¬ P e → R e bs → ∀ a, Refuses cursor limit (body a) bs)
    {es : List ε} (unreadable : ¬ ∀ e ∈ es, P e) {bs : Bytes} (counted : Counted mt R es bs)
    (a : α) : Refuses cursor limit (header >>= fun n => times body n a) bs := by
  obtain ⟨before, e, after, rfl, hbefore, he⟩ := first_failing unreadable
  obtain ⟨front, content, rfl, head, listed⟩ := counted
  intro s rest left short
  have count := listed.le_length some
  have fits : (before ++ e :: after).length ≤ intMaxValue := by
    have := congrArg List.length left
    simp only [List.length_append] at this
    omega
  obtain ⟨bs, _, rfl, hbs, hcs⟩ := listed_append.mp listed
  cases hcs with
  | @cons _ _ cs ds hcs _ =>
    have stops : Refuses cursor limit (times body (before ++ e :: after).length a) (bs ++ cs) :=
      .times each hbs hbefore (refuses e cs he hcs) (by simp) a
    have all : Refuses cursor limit (header >>= fun n => times body n a)
        (front ++ (bs ++ cs ++ ds)) := .after first ⟨head, fits⟩ stops.append
    rw [List.append_assoc] at all
    exact all s rest left short

theorem algorithm_refuses {a : ℤ} (big : a < -2 ^ 63) {bs : Bytes} (integer : Integer a bs)
    (p : CredentialParam) : Refuses cursor limit (do
      if (← peekMajorType) = 1 then return { p with algId := some (← readNegativeInt) }
      else
        skipValue
        return p) bs := by
  intro s rest left short p' t run
  obtain ⟨bs', after, h⟩ := (algorithm_reads bounded p s short p' t).mp run
  have same : Item bs' → bs = bs' := fun item =>
    ((skipValue_reads bounded).unique (a := ()) (b := ()) (integer_item integer) item left after.1
      short).2
  rcases h with ⟨a', integer', fits, _⟩ | ⟨item, other, _⟩
  · obtain rfl := same (integer_item integer')
    have := integer_unique integer integer'
    omega
  · obtain rfl := same item
    exact other a integer

theorem readParamField_refuses (e : ParamEntry) (bs : Bytes) (unreadable : ¬ e.Readable)
    (h : e.Encodes bs) (p : CredentialParam) : Refuses cursor limit (readParamField p) bs := by
  cases e with
  | alg a =>
    obtain ⟨key, value, rfl, text, integer⟩ := h
    exact .after (readTextString_reads bounded) text
      (algorithm_refuses bounded (Int.not_le.mp unreadable) integer p)
  | type s => exact absurd trivial unreadable
  | other field item => exact absurd trivial unreadable

theorem readCredentialParam_refuses (p : List ParamEntry) (bs : Bytes)
    (unreadable : ¬ ∀ e ∈ p, e.Readable) (h : Counted 5 ParamEntry.Encodes p bs)
    (f : MakeCredentialFields) : Refuses cursor limit (readCredentialParam f) bs := by
  have split : readCredentialParam f = (readMapHeader >>= fun n =>
      times readParamField n ⟨none, none⟩) >>= fun p =>
        pure { f with requestedAlgs := f.requestedAlgs ++ p.supported } := by
    simp only [readCredentialParam, bind_assoc]
  rw [split]
  exact (counted_refuses bounded readMapHeader_reads ParamEntry.ne_nil
    (readParamField_reads bounded) (readParamField_refuses bounded) unreadable h _).stop

theorem readMakeCredentialKey_refuses (e : MakeEntry) (bs : Bytes) (unreadable : ¬ e.Readable)
    (h : e.Encodes bs) (f : MakeCredentialFields) :
    Refuses cursor limit (readMakeCredentialKey f) bs := by
  cases e with
  | pubKeyCredParams ps =>
    obtain ⟨key, value, rfl, head, params⟩ := h
    have stops : Refuses cursor limit (readArrayHeader >>= fun n => times readCredentialParam n f)
        value :=
      counted_refuses bounded readArrayHeader_reads (fun _ _ h => h.ne_nil)
        (readCredentialParam_reads bounded) (readCredentialParam_refuses bounded) unreadable params f
    exact .after readUnsignedInt_reads head stops
  | _ => exact absurd trivial unreadable

theorem readMakeCredential_refuses {es : List MakeEntry} {bs : Bytes}
    (unreadable : ¬ ∀ e ∈ es, e.Readable) (h : Counted 5 MakeEntry.Encodes es bs) :
    Refuses cursor limit readMakeCredential bs := by
  have each : ∀ f, Reads limit (readMakeCredentialKey f) fun bs f' =>
      ∃ e : MakeEntry, (e.Encodes bs ∧ e.Readable) ∧ MakeEntry.apply f e = f' := fun f =>
    (readMakeCredentialKey_reads bounded f).congr fun bs f' =>
      exists_congr fun e => and_assoc.symm
  exact counted_refuses bounded readMapHeader_reads (fun _ _ h => h.ne_nil) each
    (readMakeCredentialKey_refuses bounded) unreadable h MakeCredentialFields.empty

end

theorem readable_of_accepted {es : List MakeEntry} {data : Bytes} {req : MakeCredentialRequest}
    (size : data.length ≤ intMaxValue) (begins : Begins es data)
    (accepted : parseMakeCredentialCbor data = .ok req) : ∀ e ∈ es, e.Readable := by
  by_contra unreadable
  obtain ⟨bs, rest, rfl, counted⟩ := begins
  obtain ⟨f, read, _⟩ := except_bind_ok.mp accepted
  obtain ⟨r, run⟩ := parse_ok.mp read
  exact readMakeCredential_refuses le_rfl unreadable counted ⟨0, bs ++ rest⟩ rest rfl size f r run

theorem parse_begins {es : List MakeEntry} {data : Bytes} (size : data.length ≤ intMaxValue)
    (begins : Begins es data) (readable : ∀ e ∈ es, e.Readable) :
    parseMakeCredentialCbor data = (makeFields es).validate := by
  obtain ⟨bs, rest, rfl, counted⟩ := begins
  exact parse_makeEntries counted readable size

theorem readable_insert {A B : List MakeEntry} {ps₁ ps₂ : List (List ParamEntry)}
    {p : List ParamEntry} (hp : ∀ e ∈ p, ParamEntry.Readable e)
    (h : ∀ e ∈ A ++ .pubKeyCredParams (ps₁ ++ ps₂) :: B, MakeEntry.Readable e) :
    ∀ e ∈ A ++ .pubKeyCredParams (ps₁ ++ p :: ps₂) :: B, MakeEntry.Readable e := by
  simp only [List.forall_mem_append, List.forall_mem_cons, MakeEntry.Readable] at h ⊢
  exact ⟨h.1, ⟨h.2.1.1, hp, h.2.1.2⟩, h.2.2⟩

/-- What is inserted into an accepted request leaves its result as it was exactly when the
reader of negative integers takes the algorithm. -/
theorem parse_insert_iff (data data' : Bytes) (req : MakeCredentialRequest)
    (A B : List MakeEntry) (ps₁ ps₂ : List (List ParamEntry)) (p : List ParamEntry) (a : ℤ)
    (size : data.length ≤ intMaxValue) (size' : data'.length ≤ intMaxValue)
    (accepted : parseMakeCredentialCbor data = .ok req)
    (begins : Begins (A ++ .pubKeyCredParams (ps₁ ++ ps₂) :: B) data)
    (begins' : Begins (A ++ .pubKeyCredParams (ps₁ ++ p :: ps₂) :: B) data')
    (offer : Offers a p) (other : a ≠ -7 ∧ a ≠ -257) :
    parseMakeCredentialCbor data' = .ok req ↔ -2 ^ 63 ≤ a := by
  constructor
  · intro accepted'
    have readable := readable_of_accepted size' begins' accepted'
    have inserted : ∀ e ∈ p, ParamEntry.Readable e :=
      readable (.pubKeyCredParams (ps₁ ++ p :: ps₂)) (by simp) p (by simp)
    exact inserted (.alg a) (by rcases offer with rfl | rfl <;> simp)
  · intro fits
    have readable := readable_of_accepted size begins accepted
    have inserted : ∀ e ∈ p, ParamEntry.Readable e := by
      rcases offer with rfl | rfl <;> simpa [ParamEntry.Readable] using fits
    rw [parse_begins size' begins' (readable_insert inserted readable),
      makeFields_insert (supported_offer offer other), ← parse_begins size begins readable, accepted]

def negative (n : ℕ) : List ParamEntry := [.type "public-key", .alg (-1 - n)]

def writeOffer (n : ℕ) : Bytes :=
  writeCounted 5 [writeText "type" ++ writeText "public-key", writeText "alg" ++ CborCodec.head 1 n]

theorem writeOffer_encodes {n : ℕ} (small : n < 2 ^ 64) :
    Counted 5 ParamEntry.Encodes (negative n) (writeOffer n) := by
  have integer : Integer (-1 - n) (CborCodec.head 1 n) := ⟨n, .inr ⟨rfl, head_head small⟩⟩
  exact counted_write (by simp) (.cons (keyed_write (by decide) (text_write (by decide)))
    (.cons (keyed_write (by decide) integer) .nil))

def sampleEntries (ps : List (List ParamEntry)) : List MakeEntry :=
  [.clientDataHash (List.replicate 32 0), .rp [.id "a.b"], .user [.id [1], .name "u"],
    .pubKeyCredParams ps]

def sampleData (params : List Bytes) : Bytes :=
  let key := fun k value => CborCodec.head 0 k ++ value
  let field := fun name value => writeText name ++ value
  writeCounted 5
    [key 1 (writeBytes (List.replicate 32 0)), key 2 (writeCounted 5 [field "id" (writeText "a.b")]),
      key 3 (writeCounted 5 [field "id" (writeBytes [1]), field "name" (writeText "u")]),
      key 4 (writeCounted 4 params)]

theorem sample_begins {ps : List (List ParamEntry)} {params : List Bytes}
    (small : params.length < 2 ^ 64)
    (h : List.Forall₂ (Counted 5 ParamEntry.Encodes) ps params) :
    Begins (sampleEntries ps) (sampleData params) := by
  have rp : Counted 5 RpEntry.Encodes [.id "a.b"] _ :=
    counted_write (by decide) (.cons (keyed_write (by decide) (text_write (by decide))) .nil)
  have user : Counted 5 UserEntry.Encodes [.id [1], .name "u"] _ :=
    counted_write (by decide) (.cons (keyed_write (by decide) (content_write (by decide)))
      (.cons (keyed_write (by decide) (text_write (by decide))) .nil))
  refine ⟨_, [], (List.append_nil _).symm, counted_write (by simp) ?_⟩
  exact .cons (numbered_write (by decide) ⟨content_write (by decide), by decide⟩)
    (.cons (numbered_write (by decide) rp) (.cons (numbered_write (by decide) user)
      (.cons (numbered_write (show 4 < 2 ^ 64 by decide) (counted_write small h)) .nil)))

def sampleRequest : MakeCredentialRequest :=
  ⟨List.replicate 32 0, "a.b", "a.b", "AQ", "u", "u", [], [-7]⟩

theorem begins_one : Begins (sampleEntries [negative 6]) (sampleData [writeOffer 6]) :=
  sample_begins (by decide) (.cons (writeOffer_encodes (by decide)) .nil)

theorem begins_two {n : ℕ} (small : n < 2 ^ 64) :
    Begins (sampleEntries [negative 6, negative n]) (sampleData [writeOffer 6, writeOffer n]) :=
  sample_begins (by simp) (.cons (writeOffer_encodes (by decide))
    (.cons (writeOffer_encodes small) .nil))

theorem sample_accepted : parseMakeCredentialCbor (sampleData [writeOffer 6]) =
    .ok sampleRequest := by
  have readable : ∀ e ∈ sampleEntries [negative 6], MakeEntry.Readable e := by
    simp [sampleEntries, negative, MakeEntry.Readable, ParamEntry.Readable]
  exact (parse_begins (by decide +kernel) begins_one readable).trans rfl

/-- EdDSA after ES256. -/
theorem parse_insert_iff_sample :
    parseMakeCredentialCbor (sampleData [writeOffer 6, writeOffer 7]) = .ok sampleRequest ↔
      (-2 ^ 63 : ℤ) ≤ -8 :=
  parse_insert_iff (sampleData [writeOffer 6]) (sampleData [writeOffer 6, writeOffer 7])
    sampleRequest [.clientDataHash (List.replicate 32 0), .rp [.id "a.b"], .user [.id [1], .name "u"]]
    [] [negative 6] [] (negative 7) (-8) (by decide +kernel) (by decide +kernel) sample_accepted
    begins_one (begins_two (by decide)) (.inl rfl) (by decide)

/-- The least of all CBOR integers as an algorithm makes the request malformed. -/
theorem least_algorithm_rejected :
    parseMakeCredentialCbor (sampleData [writeOffer 6]) = .ok sampleRequest ∧
      Begins (sampleEntries ([negative 6] ++ [])) (sampleData [writeOffer 6]) ∧
      Begins (sampleEntries ([negative 6] ++ negative (2 ^ 64 - 1) :: []))
        (sampleData [writeOffer 6, writeOffer (2 ^ 64 - 1)]) ∧
      Offers (-2 ^ 64) (negative (2 ^ 64 - 1)) ∧
      ∃ e, parseMakeCredentialCbor (sampleData [writeOffer 6, writeOffer (2 ^ 64 - 1)]) =
        .error e := by
  have begins := begins_two (n := 2 ^ 64 - 1) (by decide)
  refine ⟨sample_accepted, begins_one, begins, .inl (by decide), ?_⟩
  cases parsed : parseMakeCredentialCbor (sampleData [writeOffer 6, writeOffer (2 ^ 64 - 1)]) with
  | error e => exact ⟨e, rfl⟩
  | ok req =>
    have readable := readable_of_accepted (by decide +kernel) begins parsed
    have least : (-2 ^ 63 : ℤ) ≤ -1 - (2 ^ 64 - 1 : ℕ) :=
      readable (.pubKeyCredParams [negative 6, negative (2 ^ 64 - 1)]) (by simp [sampleEntries]) _
        (List.mem_cons_of_mem _ (List.mem_singleton.mpr rfl)) _
        (List.mem_cons_of_mem _ (List.mem_singleton.mpr rfl))
    omega

end KeePassKeyWin.InertAlgorithms
