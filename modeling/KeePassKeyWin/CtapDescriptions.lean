import KeePassKeyWin.CtapSyntax

set_option autoImplicit false

/-!
# Requests as they are described

What a client asks for, apart from how it is written down: each map with its keys in any order,
heads of any width, and entries among them that the parsers do not know.
-/
namespace KeePassKeyWin.CtapDescriptions
open ByteStrings JsonRpc OutcomeRules CborReading CborGrammar GrammarReaders CborExactness
open CredentialEncodings CtapRequests CtapSyntax

inductive Optional {δ ε : Type} (R : δ → ε → Prop) : Option δ → List ε → Prop
  | absent : Optional R none []
  | present {d : δ} {e : ε} (h : R d e) : Optional R (some d) [e]

structure RpDescription where
  id : Option String
  name : Option String

def RpEntry.IsOther : RpEntry → Prop
  | .other .. => True
  | _ => False

def RpDescription.entries (d : RpDescription) : List RpEntry :=
  (d.id.map RpEntry.id).toList ++ (d.name.map RpEntry.name).toList

def RpDescription.Describes (d : RpDescription) (es : List RpEntry) : Prop :=
  Shuffled d.entries RpEntry.IsOther es

structure UserDescription where
  id : Option Bytes
  name : Option String
  displayName : Option String

def UserEntry.IsOther : UserEntry → Prop
  | .other .. => True
  | _ => False

def UserDescription.entries (d : UserDescription) : List UserEntry :=
  (d.id.map UserEntry.id).toList ++ (d.name.map UserEntry.name).toList ++
    (d.displayName.map UserEntry.displayName).toList

def UserDescription.Describes (d : UserDescription) (es : List UserEntry) : Prop :=
  Shuffled d.entries UserEntry.IsOther es

structure ParamDescription where
  type : Option String
  alg : Option ℤ
  alg_fits : ∀ a ∈ alg, -2 ^ 63 ≤ a ∧ a < 2 ^ 64

def ParamEntry.IsOther : ParamEntry → Prop
  | .other field _ => field ≠ "alg"
  | _ => False

def ParamDescription.entries (d : ParamDescription) : List ParamEntry :=
  (d.type.map ParamEntry.type).toList ++ (d.alg.map ParamEntry.alg).toList

def ParamDescription.Describes (d : ParamDescription) (es : List ParamEntry) : Prop :=
  Shuffled d.entries ParamEntry.IsOther es

structure DescriptorDescription where
  id : Option Bytes
  type : Option String

def ExcludedEntry.IsOther : ExcludedEntry → Prop
  | .other field _ => field ≠ "type"
  | _ => False

/-- The parser of the exclude list skips the type too. -/
def DescriptorDescription.DescribesExcluded (d : DescriptorDescription)
    (es : List ExcludedEntry) : Prop :=
  ∃ types, Optional (fun s e => ∃ item, Text s item ∧ e = ExcludedEntry.other "type" item)
    d.type types ∧ Shuffled ((d.id.map ExcludedEntry.id).toList ++ types) ExcludedEntry.IsOther es

structure MakeCredentialDescription where
  clientDataHash : Option Bytes
  rp : Option RpDescription
  user : Option UserDescription
  pubKeyCredParams : Option (List ParamDescription)
  excludeList : Option (List DescriptorDescription)
  hash_length : ∀ hash ∈ clientDataHash, hash.length = 32

def MakeEntry.IsOther : MakeEntry → Prop
  | .other .. => True
  | _ => False

structure MakeCredentialDescription.Known (d : MakeCredentialDescription)
    (hash rp user params excluded : List MakeEntry) : Prop where
  hash : Optional (fun h e => e = MakeEntry.clientDataHash h) d.clientDataHash hash
  rp : Optional (fun r e => ∃ es, r.Describes es ∧ e = MakeEntry.rp es) d.rp rp
  user : Optional (fun u e => ∃ es, u.Describes es ∧ e = MakeEntry.user es) d.user user
  params : Optional (fun ps e => ∃ pes, List.Forall₂ ParamDescription.Describes ps pes ∧
    e = MakeEntry.pubKeyCredParams pes) d.pubKeyCredParams params
  excluded : Optional (fun ds e =>
    ∃ des, List.Forall₂ DescriptorDescription.DescribesExcluded ds des ∧
      e = MakeEntry.excludeList des) d.excludeList excluded

def MakeCredentialDescription.Describes (d : MakeCredentialDescription)
    (es : List MakeEntry) : Prop :=
  ∃ hash rp user params excluded, d.Known hash rp user params excluded ∧
    Shuffled (hash ++ rp ++ user ++ params ++ excluded) MakeEntry.IsOther es

def MakeCredentialDescription.Encodes (d : MakeCredentialDescription) (data : Bytes) : Prop :=
  ∃ es, d.Describes es ∧ Counted 5 MakeEntry.Encodes es data

/-- The algorithm of a parameter that the plugin supports. -/
def ParamDescription.supported (d : ParamDescription) : Option ℤ :=
  if d.type = some "public-key" then d.alg.filter fun a => a = -7 ∨ a = -257 else none

def MakeCredentialDescription.request (d : MakeCredentialDescription) :
    Option MakeCredentialRequest := do
  let clientDataHash ← d.clientDataHash
  let rpId ← nonEmpty (d.rp.bind RpDescription.id)
  let userId ← (d.user.bind UserDescription.id).filter (· ≠ [])
  let userName ← nonEmpty (d.user.bind UserDescription.name)
  let requestedAlgs := (d.pubKeyCredParams.getD []).filterMap ParamDescription.supported
  if requestedAlgs = [] then none
  else return {
    clientDataHash
    rpId
    rpName := (nonEmpty (d.rp.bind RpDescription.name)).getD rpId
    userHandle := Base64Url.encode userId
    userName
    userDisplayName := (nonEmpty (d.user.bind UserDescription.displayName)).getD userName
    excludeList := ((d.excludeList.getD []).filterMap DescriptorDescription.id).map Base64Url.encode
    requestedAlgs }

def DescriptorEntry.IsOther : DescriptorEntry → Prop
  | .other .. => True
  | _ => False

def DescriptorDescription.entries (d : DescriptorDescription) : List DescriptorEntry :=
  (d.id.map DescriptorEntry.id).toList ++ (d.type.map DescriptorEntry.type).toList

def DescriptorDescription.Describes (d : DescriptorDescription)
    (es : List DescriptorEntry) : Prop :=
  Shuffled d.entries DescriptorEntry.IsOther es

structure OptionsDescription where
  up : Option Bool
  uv : Option Bool

def OptionEntry.IsOther : OptionEntry → Prop
  | .other .. => True
  | _ => False

def OptionsDescription.entries (d : OptionsDescription) : List OptionEntry :=
  (d.up.map OptionEntry.up).toList ++ (d.uv.map OptionEntry.uv).toList

def OptionsDescription.Describes (d : OptionsDescription) (es : List OptionEntry) : Prop :=
  Shuffled d.entries OptionEntry.IsOther es

structure GetAssertionDescription where
  rpId : Option String
  clientDataHash : Option Bytes
  allowList : Option (List DescriptorDescription)
  options : Option OptionsDescription
  hash_length : ∀ hash ∈ clientDataHash, hash.length = 32

def GetEntry.IsOther : GetEntry → Prop
  | .other .. => True
  | _ => False

structure GetAssertionDescription.Known (d : GetAssertionDescription)
    (rpId hash allowed options : List GetEntry) : Prop where
  rpId : Optional (fun s e => e = GetEntry.rpId s) d.rpId rpId
  hash : Optional (fun h e => e = GetEntry.clientDataHash h) d.clientDataHash hash
  allowed : Optional (fun ds e => ∃ des, List.Forall₂ DescriptorDescription.Describes ds des ∧
    e = GetEntry.allowList des) d.allowList allowed
  options : Optional (fun o e => ∃ es, o.Describes es ∧ e = GetEntry.options es) d.options options

def GetAssertionDescription.Describes (d : GetAssertionDescription) (es : List GetEntry) : Prop :=
  ∃ rpId hash allowed options, d.Known rpId hash allowed options ∧
    Shuffled (rpId ++ hash ++ allowed ++ options) GetEntry.IsOther es

def GetAssertionDescription.Encodes (d : GetAssertionDescription) (data : Bytes) : Prop :=
  ∃ es, d.Describes es ∧ Counted 5 GetEntry.Encodes es data

def DescriptorDescription.publicKeyId (d : DescriptorDescription) : Option Bytes :=
  if d.type = some "public-key" then d.id else none

def GetAssertionDescription.request (d : GetAssertionDescription) :
    Option GetAssertionRequest := do
  let rpId ← nonEmpty d.rpId
  let clientDataHash ← d.clientDataHash
  return {
    rpId
    clientDataHash
    allowListCredIds := (d.allowList.getD []).filterMap DescriptorDescription.publicKeyId
    optionsUp := (d.options.bind OptionsDescription.up).getD true
    optionsUv := (d.options.bind OptionsDescription.uv).getD false }

def RpEntry.field : RpEntry → String
  | .id _ => "id"
  | .name _ => "name"
  | .other field _ => field

theorem rp_foldl {d : RpDescription} {es : List RpEntry} (h : d.Describes es)
    (f : MakeCredentialFields) : es.foldl RpEntry.apply f =
      { f with rpId := d.id.or f.rpId, rpName := d.name.or f.rpName } := by
  rw [h.foldl_eq RpEntry.field RpEntry.apply]
  · obtain ⟨_ | id, _ | name⟩ := d <;> rfl
  · obtain ⟨_ | id, _ | name⟩ := d <;> simp [RpDescription.entries, RpEntry.field]
  · intro x y different c
    cases x <;> cases y <;> first | rfl | exact absurd rfl different
  · rintro (_ | _ | _) other c
    · cases other
    · cases other
    · rfl

def UserEntry.field : UserEntry → String
  | .id _ => "id"
  | .name _ => "name"
  | .displayName _ => "displayName"
  | .other field _ => field

theorem user_foldl {d : UserDescription} {es : List UserEntry} (h : d.Describes es)
    (f : MakeCredentialFields) : es.foldl UserEntry.apply f =
      { f with
        userHandle := (d.id.map Base64Url.encode).or f.userHandle
        userName := d.name.or f.userName
        userDisplayName := d.displayName.or f.userDisplayName } := by
  rw [h.foldl_eq UserEntry.field UserEntry.apply]
  · obtain ⟨_ | id, _ | name, _ | displayName⟩ := d <;> rfl
  · obtain ⟨_ | id, _ | name, _ | displayName⟩ := d <;>
      simp [UserDescription.entries, UserEntry.field]
  · intro x y different c
    cases x <;> cases y <;> first | rfl | exact absurd rfl different
  · rintro (_ | _ | _ | _) other c
    · cases other
    · cases other
    · cases other
    · rfl

def ParamEntry.field : ParamEntry → String
  | .alg _ => "alg"
  | .type _ => "type"
  | .other field _ => field

theorem paramOf_described {d : ParamDescription} {es : List ParamEntry} (h : d.Describes es) :
    paramOf es = ⟨d.type, d.alg.filter (· < 0)⟩ := by
  rw [paramOf, h.foldl_eq ParamEntry.field ParamEntry.apply]
  · obtain ⟨_ | type, _ | alg, fits⟩ := d
    · rfl
    · by_cases negative : alg < 0 <;>
        simp [ParamDescription.entries, ParamEntry.apply, Option.filter, negative]
    · rfl
    · by_cases negative : alg < 0 <;>
        simp [ParamDescription.entries, ParamEntry.apply, Option.filter, negative]
  · obtain ⟨_ | type, _ | alg, fits⟩ := d <;> simp [ParamDescription.entries, ParamEntry.field]
  · intro x y different c
    cases x <;> cases y <;> simp only [ParamEntry.apply] <;>
      first | exact absurd rfl different | (split_ifs <;> rfl)
  · rintro (_ | _ | _) other c
    · cases other
    · cases other
    · rfl

theorem supported_described {d : ParamDescription} {es : List ParamEntry} (h : d.Describes es) :
    (paramOf es).supported = d.supported.toList := by
  rw [paramOf_described h, CredentialParam.supported, ParamDescription.supported]
  obtain ⟨type, _ | alg, fits⟩ := d
  · by_cases key : type = some "public-key" <;> simp [key]
  · by_cases key : type = some "public-key"
    · by_cases known : alg = -7 ∨ alg = -257
      · have negative : alg < 0 := by omega
        simp [key, known, negative, Option.filter]
      · by_cases negative : alg < 0 <;> simp [key, known, negative, Option.filter]
    · simp [key]

theorem params_foldl {ps : List ParamDescription} {pes : List (List ParamEntry)}
    (h : List.Forall₂ ParamDescription.Describes ps pes) (f : MakeCredentialFields) :
    pes.foldl addParam f =
      { f with requestedAlgs := f.requestedAlgs ++ ps.filterMap ParamDescription.supported } := by
  induction h generalizing f with
  | nil => simp
  | @cons d es ps pes first _ ih =>
    rw [List.foldl_cons, ih, addParam, supported_described first]
    cases known : d.supported <;> simp [known]

def ExcludedEntry.field : ExcludedEntry → String
  | .id _ => "id"
  | .other field _ => field

theorem excludedId_described {d : DescriptorDescription} {es : List ExcludedEntry}
    (h : d.DescribesExcluded es) : excludedId es = d.id := by
  obtain ⟨types, htypes, shuffled⟩ := h
  rw [excludedId, shuffled.foldl_eq ExcludedEntry.field ExcludedEntry.apply]
  · obtain ⟨_ | id, type⟩ := d
    · cases htypes with
      | absent => rfl
      | present h =>
        obtain ⟨item, _, rfl⟩ := h
        rfl
    · cases htypes with
      | absent => rfl
      | present h =>
        obtain ⟨item, _, rfl⟩ := h
        rfl
  · obtain ⟨_ | id, type⟩ := d
    all_goals
      cases htypes with
      | absent => simp [ExcludedEntry.field]
      | present h =>
        obtain ⟨item, _, rfl⟩ := h
        simp [ExcludedEntry.field]
  · intro x y different c
    cases x <;> cases y <;> first | rfl | exact absurd rfl different
  · rintro (_ | _) other c
    · cases other
    · rfl

theorem excluded_foldl {ds : List DescriptorDescription} {des : List (List ExcludedEntry)}
    (h : List.Forall₂ DescriptorDescription.DescribesExcluded ds des) (f : MakeCredentialFields) :
    des.foldl addExcluded f = { f with excludeList :=
      f.excludeList ++ (ds.filterMap DescriptorDescription.id).map Base64Url.encode } := by
  induction h generalizing f with
  | nil => simp
  | @cons d es ds des first _ ih =>
    rw [List.foldl_cons, ih, addExcluded, excludedId_described first]
    cases known : d.id <;> simp [known]

def DescriptorEntry.field : DescriptorEntry → String
  | .id _ => "id"
  | .type _ => "type"
  | .other field _ => field

theorem descriptorOf_described {d : DescriptorDescription} {es : List DescriptorEntry}
    (h : d.Describes es) : descriptorOf es = ⟨d.id, d.type⟩ := by
  rw [descriptorOf, h.foldl_eq DescriptorEntry.field DescriptorEntry.apply]
  · obtain ⟨_ | id, _ | type⟩ := d <;> rfl
  · obtain ⟨_ | id, _ | type⟩ := d <;> simp [DescriptorDescription.entries, DescriptorEntry.field]
  · intro x y different c
    cases x <;> cases y <;> first | rfl | exact absurd rfl different
  · rintro (_ | _ | _) other c
    · cases other
    · cases other
    · rfl

theorem allowed_foldl {ds : List DescriptorDescription} {des : List (List DescriptorEntry)}
    (h : List.Forall₂ DescriptorDescription.Describes ds des) (f : GetAssertionFields) :
    des.foldl addDescriptor f = { f with
      allowListCredIds :=
        f.allowListCredIds ++ ds.filterMap DescriptorDescription.publicKeyId } := by
  induction h generalizing f with
  | nil => simp
  | @cons d es ds des first _ ih =>
    have known : (descriptorOf es).publicKeyId = d.publicKeyId.toList := by
      rw [descriptorOf_described first, Descriptor.publicKeyId, DescriptorDescription.publicKeyId]
      obtain ⟨_ | id, type⟩ := d <;> by_cases key : type = some "public-key" <;> simp [key]
    rw [List.foldl_cons, ih, addDescriptor, known]
    cases listed : d.publicKeyId <;> simp [listed]

def OptionEntry.field : OptionEntry → String
  | .up _ => "up"
  | .uv _ => "uv"
  | .other field _ => field

theorem options_foldl {d : OptionsDescription} {es : List OptionEntry} (h : d.Describes es)
    (f : GetAssertionFields) : es.foldl OptionEntry.apply f =
      { f with optionsUp := d.up.getD f.optionsUp, optionsUv := d.uv.getD f.optionsUv } := by
  rw [h.foldl_eq OptionEntry.field OptionEntry.apply]
  · obtain ⟨_ | up, _ | uv⟩ := d <;> rfl
  · obtain ⟨_ | up, _ | uv⟩ := d <;> simp [OptionsDescription.entries, OptionEntry.field]
  · intro x y different c
    cases x <;> cases y <;> first | rfl | exact absurd rfl different
  · rintro (_ | _ | _) other c
    · cases other
    · cases other
    · rfl

theorem hash_comm {ε : Type} {apply : MakeCredentialFields → ε → MakeCredentialFields}
    (h : ∀ c e (hash : Bytes), apply { c with clientDataHash := some hash } e =
      { apply c e with clientDataHash := some hash }) (hash : Bytes) (es : List ε)
    (c : MakeCredentialFields) : es.foldl apply { c with clientDataHash := some hash } =
      { es.foldl apply c with clientDataHash := some hash } :=
  List.foldl_hom (fun c => { c with clientDataHash := some hash }) fun c e => h c e hash

theorem makeEntry_comm_lt {x y : MakeEntry} (less : x.key < y.key) (c : MakeCredentialFields) :
    MakeEntry.apply (MakeEntry.apply c x) y = MakeEntry.apply (MakeEntry.apply c y) x := by
  have rp_excluded : ∀ c a b, addExcluded (RpEntry.apply c a) b =
      RpEntry.apply (addExcluded c b) a := by
    rintro c (_ | _ | _) b <;> simp only [addExcluded_eq, RpEntry.apply]
  have user_excluded : ∀ c a b, addExcluded (UserEntry.apply c a) b =
      UserEntry.apply (addExcluded c b) a := by
    rintro c (_ | _ | _ | _) b <;> simp only [addExcluded_eq, UserEntry.apply]
  have param_excluded : ∀ c a b, addExcluded (addParam c a) b = addParam (addExcluded c b) a :=
    fun c a b => by simp only [addExcluded_eq, addParam]
  have hash_excluded : ∀ (c : MakeCredentialFields) b (hash : Bytes),
      addExcluded { c with clientDataHash := some hash } b =
        { addExcluded c b with clientDataHash := some hash } :=
    fun c b hash => by simp only [addExcluded_eq]
  cases x with
  | other => rfl
  | clientDataHash hash =>
    cases y with
    | clientDataHash => exact absurd less (Nat.lt_irrefl _)
    | other => rfl
    | rp es => exact hash_comm (by rintro c (_ | _ | _) hash <;> rfl) hash es c
    | user es => exact hash_comm (by rintro c (_ | _ | _ | _) hash <;> rfl) hash es c
    | pubKeyCredParams ps => exact hash_comm (fun _ _ _ => rfl) hash ps c
    | excludeList ds => exact hash_comm hash_excluded hash ds c
  | rp es =>
    cases y with
    | clientDataHash | rp => simp [MakeEntry.key] at less
    | other => rfl
    | user es' => exact foldl_comm (by rintro c (_ | _ | _) (_ | _ | _ | _) <;> rfl) es es' c
    | pubKeyCredParams ps => exact foldl_comm (by rintro c (_ | _ | _) p <;> rfl) es ps c
    | excludeList ds => exact foldl_comm rp_excluded es ds c
  | user es =>
    cases y with
    | clientDataHash | rp | user => simp [MakeEntry.key] at less
    | other => rfl
    | pubKeyCredParams ps => exact foldl_comm (by rintro c (_ | _ | _ | _) p <;> rfl) es ps c
    | excludeList ds => exact foldl_comm user_excluded es ds c
  | pubKeyCredParams ps =>
    cases y with
    | clientDataHash | rp | user | pubKeyCredParams => simp [MakeEntry.key] at less
    | other => rfl
    | excludeList ds => exact foldl_comm param_excluded ps ds c
  | excludeList ds =>
    cases y with
    | clientDataHash | rp | user | pubKeyCredParams | excludeList => simp [MakeEntry.key] at less
    | other => rfl

theorem makeEntry_comm {x y : MakeEntry} (different : x.key ≠ y.key)
    (c : MakeCredentialFields) :
    MakeEntry.apply (MakeEntry.apply c x) y = MakeEntry.apply (MakeEntry.apply c y) x := by
  rcases Nat.lt_or_gt_of_ne different with less | more
  · exact makeEntry_comm_lt less c
  · exact (makeEntry_comm_lt more c).symm

theorem getEntry_comm_lt {x y : GetEntry} (less : x.key < y.key) (c : GetAssertionFields) :
    GetEntry.apply (GetEntry.apply c x) y = GetEntry.apply (GetEntry.apply c y) x := by
  cases x with
  | other => rfl
  | rpId s =>
    cases y with
    | rpId => exact absurd less (Nat.lt_irrefl _)
    | other | clientDataHash => rfl
    | allowList ds =>
      exact foldl_comm (f := fun (c : GetAssertionFields) (_ : Unit) => { c with rpId := some s })
        (fun _ _ _ => rfl) [()] ds c
    | options es =>
      exact foldl_comm (f := fun (c : GetAssertionFields) (_ : Unit) => { c with rpId := some s })
        (by rintro c _ (_ | _ | _) <;> rfl) [()] es c
  | clientDataHash hash =>
    cases y with
    | rpId | clientDataHash => simp [GetEntry.key] at less
    | other => rfl
    | allowList ds =>
      exact foldl_comm (f := fun (c : GetAssertionFields) (_ : Unit) =>
        { c with clientDataHash := some hash }) (fun _ _ _ => rfl) [()] ds c
    | options es =>
      exact foldl_comm (f := fun (c : GetAssertionFields) (_ : Unit) =>
        { c with clientDataHash := some hash }) (by rintro c _ (_ | _ | _) <;> rfl) [()] es c
  | allowList ds =>
    cases y with
    | rpId | clientDataHash | allowList => simp [GetEntry.key] at less
    | other => rfl
    | options es => exact foldl_comm (by rintro c d (_ | _ | _) <;> rfl) ds es c
  | options es =>
    cases y with
    | rpId | clientDataHash | allowList | options => simp [GetEntry.key] at less
    | other => rfl

theorem getEntry_comm {x y : GetEntry} (different : x.key ≠ y.key) (c : GetAssertionFields) :
    GetEntry.apply (GetEntry.apply c x) y = GetEntry.apply (GetEntry.apply c y) x := by
  rcases Nat.lt_or_gt_of_ne different with less | more
  · exact getEntry_comm_lt less c
  · exact (getEntry_comm_lt more c).symm

theorem Optional.keys {δ ε : Type} {R : δ → ε → Prop} {o : Option δ} {es : List ε}
    (h : Optional R o es) (key : ε → ℕ) (k : ℕ) (hk : ∀ d e, R d e → key e = k) :
    (es.map key).Sublist [k] := by
  cases h with
  | absent => exact List.nil_sublist _
  | present h => rw [List.map_singleton, hk _ _ h]

def MakeCredentialDescription.fields (d : MakeCredentialDescription) : MakeCredentialFields where
  clientDataHash := d.clientDataHash
  rpId := d.rp.bind RpDescription.id
  rpName := d.rp.bind RpDescription.name
  userHandle := (d.user.bind UserDescription.id).map Base64Url.encode
  userName := d.user.bind UserDescription.name
  userDisplayName := d.user.bind UserDescription.displayName
  requestedAlgs := (d.pubKeyCredParams.getD []).filterMap ParamDescription.supported
  excludeList := ((d.excludeList.getD []).filterMap DescriptorDescription.id).map Base64Url.encode

theorem MakeCredentialDescription.Known.keys {d : MakeCredentialDescription}
    {hash rp user params excluded : List MakeEntry}
    (known : d.Known hash rp user params excluded) :
    ((hash ++ rp ++ user ++ params ++ excluded).map MakeEntry.key).Nodup := by
  have h₁ := known.hash.keys MakeEntry.key 1 (by rintro _ _ rfl; rfl)
  have h₂ := known.rp.keys MakeEntry.key 2 (by rintro _ _ ⟨_, _, rfl⟩; rfl)
  have h₃ := known.user.keys MakeEntry.key 3 (by rintro _ _ ⟨_, _, rfl⟩; rfl)
  have h₄ := known.params.keys MakeEntry.key 4 (by rintro _ _ ⟨_, _, rfl⟩; rfl)
  have h₅ := known.excluded.keys MakeEntry.key 5 (by rintro _ _ ⟨_, _, rfl⟩; rfl)
  simp only [List.map_append]
  exact List.Nodup.sublist ((((h₁.append h₂).append h₃).append h₄).append h₅) (by decide)

theorem MakeCredentialDescription.Known.foldl {d : MakeCredentialDescription}
    {hash rp user params excluded : List MakeEntry}
    (known : d.Known hash rp user params excluded) :
    makeFields (hash ++ rp ++ user ++ params ++ excluded) = d.fields := by
  obtain ⟨clientDataHash, rpMap, userMap, params', excludeList, width⟩ := d
  obtain ⟨h₁, h₂, h₃, h₄, h₅⟩ := known
  have afterHash : hash.foldl MakeEntry.apply .empty =
      { MakeCredentialFields.empty with clientDataHash := clientDataHash } := by
    cases h₁ with
    | absent => rfl
    | present h => rw [h]; rfl
  have afterRp : ∀ f, f.rpId = none → f.rpName = none → rp.foldl MakeEntry.apply f =
      { f with rpId := rpMap.bind RpDescription.id, rpName := rpMap.bind RpDescription.name } := by
    intro f noId noName
    cases h₂ with
    | absent =>
      obtain ⟨_, _, _, _, _, _, _, _⟩ := f
      cases noId
      cases noName
      rfl
    | present h =>
      obtain ⟨es, described, rfl⟩ := h
      simp [MakeEntry.apply, rp_foldl described, noId, noName]
  have afterUser : ∀ f, f.userHandle = none → f.userName = none → f.userDisplayName = none →
      user.foldl MakeEntry.apply f = { f with
        userHandle := (userMap.bind UserDescription.id).map Base64Url.encode
        userName := userMap.bind UserDescription.name
        userDisplayName := userMap.bind UserDescription.displayName } := by
    intro f noHandle noName noDisplay
    cases h₃ with
    | absent =>
      obtain ⟨_, _, _, _, _, _, _, _⟩ := f
      cases noHandle
      cases noName
      cases noDisplay
      rfl
    | present h =>
      obtain ⟨es, described, rfl⟩ := h
      simp [MakeEntry.apply, user_foldl described, noHandle, noName, noDisplay]
  have afterParams : ∀ f, params.foldl MakeEntry.apply f = { f with
      requestedAlgs :=
        f.requestedAlgs ++ (params'.getD []).filterMap ParamDescription.supported } := by
    intro f
    cases h₄ with
    | absent => simp
    | present h =>
      obtain ⟨pes, described, rfl⟩ := h
      exact params_foldl described f
  have afterExcluded : ∀ f, excluded.foldl MakeEntry.apply f = { f with
      excludeList := f.excludeList ++
        ((excludeList.getD []).filterMap DescriptorDescription.id).map Base64Url.encode } := by
    intro f
    cases h₅ with
    | absent => simp
    | present h =>
      obtain ⟨des, described, rfl⟩ := h
      exact excluded_foldl described f
  simp only [makeFields, List.foldl_append]
  rw [afterHash, afterRp _ rfl rfl, afterUser _ rfl rfl rfl, afterParams, afterExcluded]
  rfl

theorem makeFields_described {d : MakeCredentialDescription} {es : List MakeEntry}
    (h : d.Describes es) : makeFields es = d.fields := by
  obtain ⟨hash, rp, user, params, excluded, known, shuffled⟩ := h
  have idle : ∀ e, MakeEntry.IsOther e → ∀ f, MakeEntry.apply f e = f := by
    rintro (_ | _ | _ | _ | _ | _) other f
    all_goals first | rfl | cases other
  rw [← known.foldl]
  exact shuffled.foldl_eq MakeEntry.key _ known.keys (fun x y => makeEntry_comm) idle _

theorem param_readable {d : ParamDescription} {es : List ParamEntry} (h : d.Describes es) :
    ∀ e ∈ es, ParamEntry.Readable e := by
  obtain ⟨others, hothers, perm⟩ := h
  intro e he
  cases e with
  | alg a =>
    rcases List.mem_append.mp (perm.subset he) with known | other
    · obtain ⟨_ | type, _ | alg, fits⟩ := d <;> simp [ParamDescription.entries] at known
      all_goals
        subst known
        exact (fits a rfl).1
    · exact absurd (hothers _ other) id
  | _ => trivial

theorem params_readable {ps : List ParamDescription} {pes : List (List ParamEntry)}
    (h : List.Forall₂ ParamDescription.Describes ps pes) :
    ∀ p ∈ pes, ∀ e ∈ p, ParamEntry.Readable e := by
  induction h with
  | nil => simp
  | cons first _ ih => exact List.forall_mem_cons.mpr ⟨param_readable first, ih⟩

theorem makeEntries_readable {d : MakeCredentialDescription} {es : List MakeEntry}
    (h : d.Describes es) : ∀ e ∈ es, MakeEntry.Readable e := by
  obtain ⟨hash, rp, user, params, excluded, known, others, hothers, perm⟩ := h
  have known_readable : ∀ e ∈ hash ++ rp ++ user ++ params ++ excluded, MakeEntry.Readable e := by
    have trivially : ∀ {δ : Type} {R : δ → MakeEntry → Prop} {o : Option δ} {es : List MakeEntry},
        Optional R o es → (∀ d e, R d e → e.Readable) → ∀ e ∈ es, e.Readable := by
      intro δ R o es h hR
      cases h with
      | absent => simp
      | present h => simpa using hR _ _ h
    simp only [List.forall_mem_append]
    refine ⟨⟨⟨⟨?_, ?_⟩, ?_⟩, ?_⟩, ?_⟩
    · exact trivially known.hash (by rintro _ _ rfl; trivial)
    · exact trivially known.rp (by rintro _ _ ⟨_, _, rfl⟩; trivial)
    · exact trivially known.user (by rintro _ _ ⟨_, _, rfl⟩; trivial)
    · exact trivially known.params (by rintro _ _ ⟨_, h, rfl⟩; exact params_readable h)
    · exact trivially known.excluded (by rintro _ _ ⟨_, _, rfl⟩; trivial)
  intro e he
  rcases List.mem_append.mp (perm.subset he) with inside | other
  · exact known_readable e inside
  · have := hothers e other
    cases e <;> trivial

theorem GetAssertionDescription.Known.keys {d : GetAssertionDescription}
    {rpId hash allowed options : List GetEntry} (known : d.Known rpId hash allowed options) :
    ((rpId ++ hash ++ allowed ++ options).map GetEntry.key).Nodup := by
  have h₁ := known.rpId.keys GetEntry.key 1 (by rintro _ _ rfl; rfl)
  have h₂ := known.hash.keys GetEntry.key 2 (by rintro _ _ rfl; rfl)
  have h₃ := known.allowed.keys GetEntry.key 3 (by rintro _ _ ⟨_, _, rfl⟩; rfl)
  have h₅ := known.options.keys GetEntry.key 5 (by rintro _ _ ⟨_, _, rfl⟩; rfl)
  simp only [List.map_append]
  exact List.Nodup.sublist (((h₁.append h₂).append h₃).append h₅) (by decide)

def GetAssertionDescription.fields (d : GetAssertionDescription) : GetAssertionFields where
  rpId := d.rpId
  clientDataHash := d.clientDataHash
  allowListCredIds := (d.allowList.getD []).filterMap DescriptorDescription.publicKeyId
  optionsUp := (d.options.bind OptionsDescription.up).getD true
  optionsUv := (d.options.bind OptionsDescription.uv).getD false

theorem GetAssertionDescription.Known.foldl {d : GetAssertionDescription}
    {rpId hash allowed options : List GetEntry} (known : d.Known rpId hash allowed options) :
    getFields (rpId ++ hash ++ allowed ++ options) = d.fields := by
  obtain ⟨rpId', clientDataHash, allowList, options', width⟩ := d
  obtain ⟨h₁, h₂, h₃, h₅⟩ := known
  have afterRpId : rpId.foldl GetEntry.apply .empty =
      { GetAssertionFields.empty with rpId := rpId' } := by
    cases h₁ with
    | absent => rfl
    | present h => rw [h]; rfl
  have afterHash : ∀ f, f.clientDataHash = none → hash.foldl GetEntry.apply f =
      { f with clientDataHash := clientDataHash } := by
    intro f noHash
    cases h₂ with
    | absent =>
      obtain ⟨_, _, _, _, _⟩ := f
      cases noHash
      rfl
    | present h => rw [h]; rfl
  have afterAllowed : ∀ f, allowed.foldl GetEntry.apply f = { f with
      allowListCredIds := f.allowListCredIds ++
        (allowList.getD []).filterMap DescriptorDescription.publicKeyId } := by
    intro f
    cases h₃ with
    | absent => simp
    | present h =>
      obtain ⟨des, described, rfl⟩ := h
      exact allowed_foldl described f
  have afterOptions : ∀ f, options.foldl GetEntry.apply f = { f with
      optionsUp := (options'.bind OptionsDescription.up).getD f.optionsUp
      optionsUv := (options'.bind OptionsDescription.uv).getD f.optionsUv } := by
    intro f
    cases h₅ with
    | absent => rfl
    | present h =>
      obtain ⟨es, described, rfl⟩ := h
      exact options_foldl described f
  simp only [getFields, List.foldl_append]
  rw [afterRpId, afterHash _ rfl, afterAllowed, afterOptions]
  rfl

theorem getFields_described {d : GetAssertionDescription} {es : List GetEntry}
    (h : d.Describes es) : getFields es = d.fields := by
  obtain ⟨rpId, hash, allowed, options, known, shuffled⟩ := h
  have idle : ∀ e, GetEntry.IsOther e → ∀ f, GetEntry.apply f e = f := by
    rintro (_ | _ | _ | _ | _) other f
    all_goals first | rfl | cases other
  rw [← known.foldl]
  exact shuffled.foldl_eq GetEntry.key _ known.keys (fun x y => getEntry_comm) idle _

theorem nonEmpty_handle (id : Option Bytes) :
    nonEmpty (id.map Base64Url.encode) = (id.filter (· ≠ [])).map Base64Url.encode := by
  cases id with
  | none => rfl
  | some id =>
    by_cases empty : id = []
    · subst empty
      rfl
    · have some : Base64Url.encode id ≠ "" := fun h => empty (Base64Url.encode_eq_empty.mp h)
      simp [nonEmpty, Option.filter, empty, some]

theorem requireField_toOption (value : Option String) (what : String) :
    (requireField value what).toOption = nonEmpty value := by
  unfold requireField
  cases nonEmpty value <;> rfl

theorem toOption_bind {α β : Type} (x : Except Exn α) (f : α → Except Exn β) :
    (x >>= f).toOption = x.toOption >>= fun a => (f a).toOption := by
  cases x <;> rfl

theorem validate_make (d : MakeCredentialDescription) :
    d.fields.validate.toOption = d.request := by
  unfold MakeCredentialFields.validate MakeCredentialDescription.request
  cases hash : d.clientDataHash with
  | none => simp [MakeCredentialDescription.fields, hash]; rfl
  | some hash' =>
    have handle := nonEmpty_handle (d.user.bind UserDescription.id)
    simp only [MakeCredentialDescription.fields, hash, toOption_bind, requireField_toOption, handle]
    cases nonEmpty (d.rp.bind RpDescription.id) with
    | none => rfl
    | some rpId =>
      cases (d.user.bind UserDescription.id).filter (· ≠ []) with
      | none => rfl
      | some userId =>
        cases nonEmpty (d.user.bind UserDescription.name) with
        | none => rfl
        | some userName =>
          by_cases offered : (d.pubKeyCredParams.getD []).filterMap ParamDescription.supported = []
          · simp [offered]; rfl
          · simp [offered]; rfl

theorem validate_get (d : GetAssertionDescription) : d.fields.validate.toOption = d.request := by
  unfold GetAssertionFields.validate GetAssertionDescription.request
  simp only [GetAssertionDescription.fields]
  cases nonEmpty d.rpId with
  | none => rfl
  | some rpId => cases d.clientDataHash <;> rfl

/-- What is described is what is parsed, in whatever order it is written down. -/
theorem parse_described :
    (∀ (d : MakeCredentialDescription) (data : Bytes), d.Encodes data →
      data.length ≤ intMaxValue → (parseMakeCredentialCbor data).toOption = d.request) ∧
    ∀ (d : GetAssertionDescription) (data : Bytes), d.Encodes data →
      data.length ≤ intMaxValue → (parseGetAssertionCbor data).toOption = d.request := by
  constructor
  · rintro d data ⟨es, described, counted⟩ size
    rw [← List.append_nil data] at size ⊢
    rw [parse_makeEntries counted (makeEntries_readable described) size,
      makeFields_described described]
    exact validate_make d
  · rintro d data ⟨es, described, counted⟩ size
    rw [← List.append_nil data] at size ⊢
    rw [parse_getEntries counted size, getFields_described described]
    exact validate_get d

def sampleMake : MakeCredentialDescription where
  clientDataHash := some (List.replicate 32 0)
  rp := some ⟨some "a.b", none⟩
  user := some ⟨some [1], some "u", none⟩
  pubKeyCredParams := some [⟨some "public-key", some 5, by simp⟩,
    ⟨some "public-key", some (-7), by simp⟩]
  excludeList := some [⟨some [9], some "x"⟩]
  hash_length := by simp

def sampleMakeEntries : List MakeEntry :=
  [.other 9 [0x00],
    .pubKeyCredParams [[.alg 5, .type "public-key"], [.type "public-key", .alg (-7)]],
    .user [.other "icon" [0xF6], .name "u", .id [1]], .rp [.id "a.b"],
    .excludeList [[.other "type" (writeText "x"), .id [9]]],
    .clientDataHash (List.replicate 32 0)]

theorem sampleMake_describes : sampleMake.Describes sampleMakeEntries := by
  have rp : RpDescription.Describes ⟨some "a.b", none⟩ [.id "a.b"] := ⟨[], by simp, by decide⟩
  have user : UserDescription.Describes ⟨some [1], some "u", none⟩
      [.other "icon" [0xF6], .name "u", .id [1]] :=
    ⟨[.other "icon" [0xF6]], by simp [UserEntry.IsOther], by decide⟩
  have unknown : ParamDescription.Describes ⟨some "public-key", some 5, by simp⟩
      [.alg 5, .type "public-key"] := ⟨[], by simp, by decide⟩
  have es256 : ParamDescription.Describes ⟨some "public-key", some (-7), by simp⟩
      [.type "public-key", .alg (-7)] := ⟨[], by simp, by decide⟩
  have excluded : DescriptorDescription.DescribesExcluded ⟨some [9], some "x"⟩
      [.other "type" (writeText "x"), .id [9]] :=
    ⟨[.other "type" (writeText "x")], .present ⟨_, text_write (by decide), rfl⟩, [], by simp,
      .swap ..⟩
  refine ⟨[_], [_], [_], [_], [_], ⟨.present rfl, .present ⟨_, rp, rfl⟩, .present ⟨_, user, rfl⟩,
    .present ⟨_, .cons unknown (.cons es256 .nil), rfl⟩,
    .present ⟨_, .cons excluded .nil, rfl⟩⟩, [.other 9 [0x00]], by simp [MakeEntry.IsOther], ?_⟩
  decide

def sampleMakeData : Bytes :=
  let key := fun k value => CborCodec.head 0 k ++ value
  let field := fun name value => writeText name ++ value
  writeCounted 5
    [key 9 [0x00],
      key 4 (writeCounted 4
        [writeCounted 5 [field "alg" [0x05], field "type" (writeText "public-key")],
          writeCounted 5 [field "type" (writeText "public-key"), field "alg" [0x26]]]),
      key 3 (writeCounted 5
        [field "icon" [0xF6], field "name" (writeText "u"), field "id" (writeBytes [1])]),
      key 2 (writeCounted 5 [field "id" (writeText "a.b")]),
      key 5 (writeCounted 4
        [writeCounted 5 [field "type" (writeText "x"), field "id" (writeBytes [9])]]),
      key 1 (writeBytes (List.replicate 32 0))]

theorem sampleMake_counted : Counted 5 MakeEntry.Encodes sampleMakeEntries sampleMakeData := by
  refine counted_write (by decide) ?_
  have zero : Item [0x00] := .integer (.inl rfl) (.short (show 0 ≤ 23 by decide))
  have five : Integer 5 [0x05] := ⟨5, .inl ⟨rfl, .short (by decide)⟩⟩
  have es256 : Integer (-7) [0x26] := ⟨6, .inr ⟨rfl, .short (by decide)⟩⟩
  have text : Text "x" (writeText "x") := text_write (by decide)
  have params : Counted 4 (Counted 5 ParamEntry.Encodes)
      [[.alg 5, .type "public-key"], [.type "public-key", .alg (-7)]] _ :=
    counted_write (by decide) (.cons (counted_write (by decide)
      (.cons (keyed_write (by decide) five)
        (.cons (keyed_write (by decide) (text_write (by decide))) .nil)))
      (.cons (counted_write (by decide)
        (.cons (keyed_write (by decide) (text_write (by decide)))
          (.cons (keyed_write (by decide) es256) .nil))) .nil))
  have user : Counted 5 UserEntry.Encodes [.other "icon" [0xF6], .name "u", .id [1]] _ :=
    counted_write (by decide)
      (.cons ⟨by decide, keyed_write (by decide) ⟨rfl, .simple (by decide)⟩⟩
        (.cons (keyed_write (by decide) (text_write (by decide)))
          (.cons (keyed_write (by decide) (content_write (by decide))) .nil)))
  have rp : Counted 5 RpEntry.Encodes [.id "a.b"] _ :=
    counted_write (by decide) (.cons (keyed_write (by decide) (text_write (by decide))) .nil)
  have excluded : Counted 4 (Counted 5 ExcludedEntry.Encodes)
      [[.other "type" (writeText "x"), .id [9]]] _ :=
    counted_write (by decide) (.cons (counted_write (by decide)
      (.cons ⟨by decide, keyed_write (by decide) ⟨rfl, text_item text⟩⟩
        (.cons (keyed_write (by decide) (content_write (by decide))) .nil))) .nil)
  exact .cons (numbered_write (by decide) ⟨by decide, rfl, zero⟩)
    (.cons (numbered_write (by decide) params) (.cons (numbered_write (by decide) user)
      (.cons (numbered_write (by decide) rp) (.cons (numbered_write (by decide) excluded)
        (.cons (numbered_write (by decide) ⟨content_write (by decide), by decide⟩) .nil)))))

theorem sampleMake_encodes : sampleMake.Encodes sampleMakeData :=
  ⟨_, sampleMake_describes, sampleMake_counted⟩

def sampleGet : GetAssertionDescription where
  rpId := some "a.b"
  clientDataHash := some (List.replicate 32 0)
  allowList := some [⟨some [9], some "x"⟩, ⟨some [7], some "public-key"⟩]
  options := some ⟨none, some true⟩
  hash_length := by simp

def sampleGetData : Bytes :=
  let key := fun k value => CborCodec.head 0 k ++ value
  let field := fun name value => writeText name ++ value
  writeCounted 5
    [key 5 (writeCounted 5 [field "uv" [0xF5]]),
      key 3 (writeCounted 4
        [writeCounted 5 [field "type" (writeText "x"), field "id" (writeBytes [9])],
          writeCounted 5 [field "id" (writeBytes [7]), field "type" (writeText "public-key")]]),
      key 2 (writeBytes (List.replicate 32 0)), key 1 (writeText "a.b")]

def sampleGetEntries : List GetEntry :=
  [.options [.uv true], .allowList [[.type "x", .id [9]], [.id [7], .type "public-key"]],
    .clientDataHash (List.replicate 32 0), .rpId "a.b"]

theorem sampleGet_describes : sampleGet.Describes sampleGetEntries := by
  have options : OptionsDescription.Describes ⟨none, some true⟩ [.uv true] :=
    ⟨[], by simp, by decide⟩
  have other : DescriptorDescription.Describes ⟨some [9], some "x"⟩ [.type "x", .id [9]] :=
    ⟨[], by simp, by decide⟩
  have listed : DescriptorDescription.Describes ⟨some [7], some "public-key"⟩
      [.id [7], .type "public-key"] := ⟨[], by simp, by decide⟩
  have shuffled : Shuffled ([.rpId "a.b"] ++ [.clientDataHash (List.replicate 32 0)] ++
      [.allowList [[.type "x", .id [9]], [.id [7], .type "public-key"]]] ++ [.options [.uv true]])
      GetEntry.IsOther sampleGetEntries := ⟨[], by simp, by decide⟩
  exact ⟨_, _, _, _, ⟨.present rfl, .present rfl,
    .present ⟨_, .cons other (.cons listed .nil), rfl⟩, .present ⟨_, options, rfl⟩⟩, shuffled⟩

theorem sampleGet_counted : Counted 5 GetEntry.Encodes sampleGetEntries sampleGetData := by
  refine counted_write (by decide) ?_
  have flags : Counted 5 OptionEntry.Encodes [.uv true] _ :=
    counted_write (by decide) (.cons (keyed_write (by decide) rfl) .nil)
  have allowed : Counted 4 (Counted 5 DescriptorEntry.Encodes)
      [[.type "x", .id [9]], [.id [7], .type "public-key"]] _ :=
    counted_write (by decide) (.cons (counted_write (by decide)
      (.cons (keyed_write (by decide) (text_write (by decide)))
        (.cons (keyed_write (by decide) (content_write (by decide))) .nil)))
      (.cons (counted_write (by decide)
        (.cons (keyed_write (by decide) (content_write (by decide)))
          (.cons (keyed_write (by decide) (text_write (by decide))) .nil))) .nil))
  exact .cons (numbered_write (by decide) flags) (.cons (numbered_write (by decide) allowed)
    (.cons (numbered_write (by decide) ⟨content_write (by decide), by decide⟩)
      (.cons (numbered_write (by decide) (text_write (by decide))) .nil)))

theorem sampleGet_encodes : sampleGet.Encodes sampleGetData :=
  ⟨_, sampleGet_describes, sampleGet_counted⟩

theorem parse_described_sample :
    (parseMakeCredentialCbor sampleMakeData).toOption = sampleMake.request ∧
      (parseGetAssertionCbor sampleGetData).toOption = some
        ⟨"a.b", List.replicate 32 0, [[7]], true, true⟩ :=
  ⟨parse_described.1 _ _ sampleMake_encodes (by decide +kernel),
    parse_described.2 _ _ sampleGet_encodes (by decide +kernel)⟩

end KeePassKeyWin.CtapDescriptions
