import KeePassKeyWin.RequestEffects
import KeePassKeyWin.SidecarServices
import KeePassKeyWin.StoreRefinement

set_option autoImplicit false

/-!
# The records that requests make

From an empty vault, every record has a fresh id, a key pair of its algorithm and a user
handle that decodes, as long as `createPasskey` is given such handles and the culture reads back
the algorithms that it wrote.
-/
namespace KeePassKeyWin.VaultWellFormedness
open ByteStrings JsonRpc NumberFormat OutcomeRules PlatformServices FirstMatch CborReading
open CredentialEncodings PasskeyStore VaultGates CtapRequests VaultHandler VaultResponses
open VaultOutcomes VaultRuns RequestEffects TransitionRuns SidecarServices
open CultureIndependence (opened)
open StoreRefinement (OwnAlgorithmReadsBack entryToRecord_own spaced)

/-- The unpadded base64url form of at least one byte. -/
def EncodedHandle (text : String) : Prop := ∃ handle ≠ [], text = Base64Url.encode handle

theorem padding_not_mem (data : Bytes) : '=' ∉ (Base64Url.encode data).toList := by
  obtain ⟨text, pad, split, digits, pads, _⟩ := Base64Codec.encode_shape data
  rw [Base64Url.encode, String.toList_ofList, split, rdropWhile_padding digits pads]
  simp only [replaceChar, List.map_map, List.mem_map, not_exists, not_and]
  rintro c hc same
  obtain ⟨_, notPadding, _⟩ := alphabet_plain c (digits c hc)
  by_cases plus : c = '+'
  · subst plus
    revert same
    decide
  · by_cases slash : c = '/'
    · subst slash
      revert same
      decide
    · simp [plus, slash] at same
      simp [same] at notPadding

/-- The record is what one of the requests generated, its counter apart. -/
structure MadeBy (rs : List Request) (record : PasskeyRecord) : Prop where
  generated : ∃ r ∈ rs, ∃ pkcs8, record.credentialId = Base64Url.encode r.out.credentialId ∧
    FreshKey r.out record.algId pkcs8 record.publicKeyCose ∧
    record.privateKeyPkcs8 = toBase64String pkcs8
  handle : EncodedHandle record.userHandle

theorem MadeBy.mono {rs rs' : List Request} {record : PasskeyRecord} (h : MadeBy rs record)
    (sub : ∀ r ∈ rs, r ∈ rs') : MadeBy rs' record := by
  obtain ⟨⟨r, mem, made⟩, handle⟩ := h
  exact ⟨⟨r, sub r mem, made⟩, handle⟩

def MakeCredentialFields.HandleEncoded (f : MakeCredentialFields) : Prop :=
  ∀ text, f.userHandle = some text → ∃ handle, text = Base64Url.encode handle

theorem readRpField_ok {f f' : MakeCredentialFields} {r r' : CborReader}
    (h : readRpField f r = .ok f' r') : f'.userHandle = f.userHandle := by
  obtain ⟨_, _, _, h⟩ := bind_ok.mp h
  simp only [ite_run] at h
  split_ifs at h <;>
    (obtain ⟨_, _, _, h⟩ := bind_ok.mp h
     obtain ⟨rfl, _⟩ := pure_ok.mp h
     rfl)

theorem readUserField_ok {f f' : MakeCredentialFields} {r r' : CborReader}
    (hf : MakeCredentialFields.HandleEncoded f) (h : readUserField f r = .ok f' r') :
    MakeCredentialFields.HandleEncoded f' := by
  obtain ⟨_, _, _, h⟩ := bind_ok.mp h
  simp only [ite_run] at h
  split_ifs at h
  · obtain ⟨handle, _, _, h⟩ := bind_ok.mp h
    obtain ⟨rfl, _⟩ := pure_ok.mp h
    exact fun text ht => ⟨handle, (Option.some.inj ht).symm⟩
  all_goals
    obtain ⟨_, _, _, h⟩ := bind_ok.mp h
    obtain ⟨rfl, _⟩ := pure_ok.mp h
    exact hf

theorem readCredentialParam_ok {f f' : MakeCredentialFields} {r r' : CborReader}
    (h : readCredentialParam f r = .ok f' r') : f'.userHandle = f.userHandle := by
  obtain ⟨_, _, _, h⟩ := bind_ok.mp h
  obtain ⟨_, _, _, h⟩ := bind_ok.mp h
  obtain ⟨rfl, _⟩ := pure_ok.mp h
  rfl

theorem readExcluded_ok {f f' : MakeCredentialFields} {r r' : CborReader}
    (h : readExcluded f r = .ok f' r') : f'.userHandle = f.userHandle := by
  obtain ⟨_, _, _, h⟩ := bind_ok.mp h
  obtain ⟨_, _, _, h⟩ := bind_ok.mp h
  split at h <;>
    (obtain ⟨rfl, _⟩ := pure_ok.mp h
     rfl)

theorem readMakeCredentialKey_ok {f f' : MakeCredentialFields} {r r' : CborReader}
    (hf : MakeCredentialFields.HandleEncoded f) (h : readMakeCredentialKey f r = .ok f' r') :
    MakeCredentialFields.HandleEncoded f' := by
  have same : ∀ g : MakeCredentialFields, g.userHandle = f.userHandle →
      MakeCredentialFields.HandleEncoded g := fun g hg text ht => hf text (hg ▸ ht)
  obtain ⟨key, t, _, h⟩ := bind_ok.mp h
  split at h
  · obtain ⟨_, _, _, h⟩ := bind_ok.mp h
    obtain ⟨rfl, _⟩ := pure_ok.mp h
    exact same _ rfl
  · obtain ⟨_, _, _, h⟩ := bind_ok.mp h
    exact same _ (times_ok (I := fun g => g.userHandle = f.userHandle)
      (fun hI hb => (readRpField_ok hb).trans hI) rfl h)
  · obtain ⟨_, _, _, h⟩ := bind_ok.mp h
    exact times_ok readUserField_ok hf h
  · obtain ⟨_, _, _, h⟩ := bind_ok.mp h
    exact same _ (times_ok (I := fun g => g.userHandle = f.userHandle)
      (fun hI hb => (readCredentialParam_ok hb).trans hI) rfl h)
  · obtain ⟨_, _, _, h⟩ := bind_ok.mp h
    exact same _ (times_ok (I := fun g => g.userHandle = f.userHandle)
      (fun hI hb => (readExcluded_ok hb).trans hI) rfl h)
  · obtain ⟨_, _, _, h⟩ := bind_ok.mp h
    obtain ⟨rfl, _⟩ := pure_ok.mp h
    exact hf

theorem encodedHandle_of_parse {data : Bytes} {req : MakeCredentialRequest}
    (h : parseMakeCredentialCbor data = .ok req) : EncodedHandle req.userHandle := by
  obtain ⟨f, hread, gives⟩ := parseMakeCredentialCbor_ok h
  obtain ⟨r, run⟩ := parse_ok.mp hread
  obtain ⟨count, _, _, loop⟩ := bind_ok.mp run
  have empty : MakeCredentialFields.HandleEncoded .empty := fun text ht => by cases ht
  obtain ⟨handle, encoded⟩ := times_ok readMakeCredentialKey_ok empty loop _
    gives.userHandle
  refine ⟨handle, ?_, encoded⟩
  rintro rfl
  exact gives.userHandle_ne encoded

theorem prepareMake_ok {P : Platform} {out : Outside} {s : Plugin} {uv : Bool} {cborBytes : Bytes}
    {record : PasskeyRecord} {answer : JToken}
    (h : prepareMake P out s uv cborBytes = .ok (record, answer)) :
    ∃ pkcs8, EncodedHandle record.userHandle ∧
      record.credentialId = Base64Url.encode out.credentialId ∧
      FreshKey out record.algId pkcs8 record.publicKeyCose ∧
      record.privateKeyPkcs8 = toBase64String pkcs8 := by
  obtain ⟨req, hreq, h⟩ := except_bind_ok.mp h
  obtain ⟨_, _, h⟩ := except_bind_ok.mp h
  obtain ⟨alg, _, h⟩ := except_bind_ok.mp h
  obtain ⟨⟨pkcs8, coseKey⟩, hkey, h⟩ := except_bind_ok.mp h
  obtain ⟨authData, _, h⟩ := except_bind_ok.mp h
  obtain ⟨rfl, _⟩ := Prod.mk.inj (except_pure_ok.mp h)
  exact ⟨pkcs8, encodedHandle_of_parse (orMalformed_ok.mp hreq), rfl,
    generateKeyPairAndCoseKey_ok hkey, rfl⟩

/-- A `createPasskey` that reaches `Add` gives its user handle in base64url form. -/
def HandleFits (P : Platform) (s : Plugin) (r : Request) : Prop :=
  r.method = "keepasskeywin.createPasskey" → (∃ record, Registers P r.out r.method r.params s record) →
    ∀ obj handle, r.params = some (.object obj) →
      stringField obj "userHandle" = .ok (some handle) → EncodedHandle handle

/-- Whatever the request registers, the handle is in that form and the culture reads back the
algorithm. -/
structure Fits (P : Platform) (s : Plugin) (r : Request) : Prop where
  handle : HandleFits P s r
  algorithm : ∀ record, Registers P r.out r.method r.params s record →
    OwnAlgorithmReadsBack s.culture record.algId

theorem madeBy_of_registers {P : Platform} {s : Plugin} {r : Request} {record : PasskeyRecord}
    (fits : HandleFits P s r) (registers : Registers P r.out r.method r.params s record) :
    record.credentialId = Base64Url.encode r.out.credentialId ∧ MadeBy [r] record := by
  obtain ⟨_, answer, ready⟩ := id registers
  unfold prepared at ready
  split_ifs at ready with create make
  · have creates := creates_of_prepareCreate ready
    obtain ⟨obj, object, field⟩ := creates.userHandle
    obtain ⟨pkcs8, generated, stored⟩ := creates.key
    have key : FreshKey r.out record.algId pkcs8 record.publicKeyCose := by
      rw [creates.algId]
      exact generateKeyPairAndCoseKey_ok generated
    exact ⟨creates.credentialId, ⟨r, by simp, pkcs8, creates.credentialId, key, stored⟩,
      fits create ⟨record, registers⟩ obj _ object field⟩
  · split at ready
    · cases ready
    · obtain ⟨pkcs8, handle, id, key, stored⟩ := prepareMake_ok ready
      exact ⟨id, ⟨r, by simp, pkcs8, id, key, stored⟩, handle⟩

theorem algId_small {out : Outside} {algId : ℤ} {pkcs8 coseKey : Bytes}
    (key : FreshKey out algId pkcs8 coseKey) : -2 ^ 31 ≤ algId ∧ algId < 2 ^ 31 := by
  rcases key with ⟨rfl, _⟩ | ⟨rfl, _⟩ <;> decide

theorem fits_of_handle {P : Platform} {s : Plugin} {r : Request} (proper : s.culture.Proper)
    (handle : HandleFits P s r) : Fits P s r := by
  refine ⟨handle, fun record registers => ?_⟩
  obtain ⟨_, _, _, _, key, _⟩ := (madeBy_of_registers handle registers).2.generated
  exact StoreRefinement.ownAlgorithmReadsBack_of_proper proper (algId_small key)

def Holds (P : Platform) (culture : NumberFormatInfo) (rs : List Request) (e : PwEntry) : Prop :=
  e.credentialId = some (entryToRecord P culture e).credentialId ∧
    MadeBy rs (entryToRecord P culture e)

/-- Every entry holds such a record, under an id of its own. -/
structure Records (P : Platform) (culture : NumberFormatInfo) (rs : List Request) (s : Plugin) :
    Prop where
  sameCulture : s.culture = culture
  made : ∀ e ∈ s.entries, Holds P culture rs e
  distinct : (s.entries.map PwEntry.credentialId).Nodup

section
variable {P : Platform} {culture : NumberFormatInfo} {old : List Request} {r : Request}
variable {s : Plugin}

theorem Holds.mono {rs rs' : List Request} {e : PwEntry} (h : Holds P culture rs e)
    (sub : ∀ r ∈ rs, r ∈ rs') : Holds P culture rs' e :=
  ⟨h.1, h.2.mono sub⟩

theorem Holds.setSignCount {rs : List Request} {e : PwEntry} {n : ℕ} (h : Holds P culture rs e)
    (bound : n < 2 ^ 32) : Holds P culture rs (e.setSignCount n) := by
  rw [Holds, entryToRecord_setSignCount P culture bound]
  exact ⟨h.1, h.2.generated, h.2.handle⟩

theorem counts_holds {before after : List PwEntry} (counts : Counts before after)
    (h : ∀ e ∈ before, Holds P culture old e) : ∀ e ∈ after, Holds P culture old e := by
  intro e he
  cases counts with
  | same => exact h e he
  | next id e₀ found room =>
    rcases mem_modifyFirst he with kept | ⟨x, hx, _, rfl⟩
    · exact h e kept
    · exact (h x hx).setSignCount (next_lt room)

theorem counts_ids {before after : List PwEntry} (counts : Counts before after) :
    after.map PwEntry.credentialId = before.map PwEntry.credentialId := by
  cases counts with
  | same => rfl
  | next id e found room =>
    exact map_modifyFirst (f := PwEntry.setSignCount (e.signCount + 1)) (fun x => rfl) before

theorem records_counts (h : Records P culture old s) {t : Plugin} (same : t.culture = s.culture)
    (counts : CountsTo s t) : Records P culture (old ++ [r]) t where
  sameCulture := same.trans h.sameCulture
  made := counts_holds counts fun e he => (h.made e he).mono fun _ => List.mem_append_left _
  distinct := counts_ids counts ▸ h.distinct

theorem records_added (h : Records P culture old s) {record : PasskeyRecord}
    (reads : OwnAlgorithmReadsBack culture record.algId) (id : record.credentialId = Base64Url.encode r.out.credentialId)
    (made : MadeBy [r] record) (fresh : ∀ r' ∈ old, r'.out.credentialId ≠ r.out.credentialId)
    {t : Plugin} (same : t.culture = s.culture)
    (added : t.entries = s.entries ++ [recordToEntry P s.culture record]) :
    Records P culture (old ++ [r]) t := by
  obtain ⟨_, _, _, _, key, _⟩ := made.generated
  have readBack : entryToRecord P culture (recordToEntry P culture record) =
      { record with signCount := 0 } := entryToRecord_own P (algId_small key) reads
  have new : Holds P culture (old ++ [r]) (recordToEntry P culture record) := by
    have grown := made.mono fun _ => List.mem_append_right old
    rw [Holds, readBack]
    exact ⟨rfl, grown.generated, grown.handle⟩
  refine ⟨same.trans h.sameCulture, ?_, ?_⟩ <;> rw [added, h.sameCulture]
  · intro e he
    rcases List.mem_append.mp he with kept | last
    · exact (h.made e kept).mono fun _ => List.mem_append_left _
    · obtain rfl := List.mem_singleton.mp last
      exact new
  · rw [List.map_append, List.nodup_append]
    refine ⟨h.distinct, List.nodup_singleton _, ?_⟩
    rintro x hx y hy rfl
    obtain ⟨e, he, hid⟩ := List.mem_map.mp hx
    obtain ⟨own, ⟨r', hr', _, encoded, _⟩, _⟩ := h.made e he
    have hy : x = some record.credentialId := List.mem_singleton.mp hy
    rw [← hid, own, Option.some.injEq, encoded, id] at hy
    exact fresh r' hr' (Base64Url.encode_injective P hy)

theorem records_deleted (h : Records P culture old s) {id : String} {t : Plugin}
    (same : t.culture = s.culture) (deleted : t.entries = s.entries.eraseP (hasId id)) :
    Records P culture (old ++ [r]) t := by
  have sub : t.entries.Sublist s.entries := deleted ▸ List.eraseP_sublist
  exact ⟨same.trans h.sameCulture,
    fun e he => (h.made e (sub.subset he)).mono fun _ => List.mem_append_left _,
    h.distinct.sublist (sub.map _)⟩

theorem records_served (h : Records P culture old s) (fits : Fits P s r) (fresh : ∀ r' ∈ old, r'.out.credentialId ≠ r.out.credentialId)
    {t : Plugin} (served : serve P s r t) : Records P culture (old ++ [r]) t := by
  obtain rfl := served
  have same := (handle_held P r.out r.method r.params s).culture
  by_cases registers : ∃ record, Registers P r.out r.method r.params s record
  · obtain ⟨record, registers⟩ := registers
    obtain ⟨id, made⟩ := madeBy_of_registers fits.handle registers
    have reads := h.sameCulture ▸ fits.algorithm record registers
    exact records_added h reads id made fresh same (handle_registers registers).1
  by_cases deletes : ∃ id, DeletesStored r.method r.params s id
  · obtain ⟨id, deletes⟩ := deletes
    exact records_deleted h same (handle_deletes deletes).1
  exact records_counts h same (handle_counts (fun record h => registers ⟨record, h⟩)
    fun id h => deletes ⟨id, h⟩)

/-- The ids of the requests, old ones first, are distinct along the run. -/
theorem records_run {rs : List Request} {t : Plugin}
    (run : Run (restrict (Fits P) (serve P)) s rs t)
    (fresh : ((old ++ rs).map fun r => r.out.credentialId).Nodup) (h : Records P culture old s) :
    Records P culture (old ++ rs) t := by
  induction run generalizing old with
  | nil s => simpa using h
  | @cons s m u r rs head _ ih =>
    have other : ∀ r' ∈ old, r'.out.credentialId ≠ r.out.credentialId := by
      intro r' hr' heq
      rw [List.map_append, List.nodup_append] at fresh
      exact fresh.2.2 _ (List.mem_map_of_mem hr') _ (List.mem_map_of_mem (List.mem_cons_self ..))
        heq
    have next := records_served h head.1 other head.2
    have split : old ++ r :: rs = (old ++ [r]) ++ rs := by simp
    rw [split] at fresh ⊢
    exact ih fresh next

end

/-- What the later readers of a record rely on. -/
structure WellFormedRecord (P : Platform) (C : SidecarBase64) (rs : List Request)
    (record : PasskeyRecord) : Prop where
  credentialId : ∃ id, id.length = 32 ∧ record.credentialId = Base64Url.encode id
  userHandle : EncodedHandle record.userHandle
  key : ∃ r ∈ rs, ∃ pkcs8, FreshKey r.out record.algId pkcs8 record.publicKeyCose ∧
    record.privateKeyPkcs8 = toBase64String pkcs8
  answers : ∀ authData signature uv, ∃ rawId response,
    Base64Url.decode P record.credentialId = .ok rawId ∧
      buildAssertionResponse P rawId authData signature (some record) uv = .ok response
  accepted : (C.urlSafeNoPad record.credentialId).isSome = true ∧
    (C.urlSafeNoPad record.userHandle).isSome = true

theorem wellFormedRecord_of_madeBy {P : Platform} (C : SidecarBase64) {rs : List Request}
    {record : PasskeyRecord} (made : MadeBy rs record) : WellFormedRecord P C rs record := by
  obtain ⟨⟨r, hr, pkcs8, id, key, stored⟩, handle, nonempty, encoded⟩ := made
  have decoded : Base64Url.decode P record.userHandle = .ok handle :=
    encoded ▸ Base64Url.decode_encode P handle
  refine ⟨⟨_, r.out.credentialId_length, id⟩, ⟨handle, nonempty, encoded⟩,
    ⟨r, hr, pkcs8, key, stored⟩, fun authData signature uv => ?_, ?_, ?_⟩
  · exact ⟨r.out.credentialId, _, id ▸ Base64Url.decode_encode P _,
      buildAssertionResponse_some _ _ _ _ decoded⟩
  · rw [C.urlSafeNoPad_iff.mpr id]
    rfl
  · rw [C.urlSafeNoPad_iff.mpr encoded]
    rfl

/-- After any requests to a vault that was empty, as long as every `createPasskey` that
registers gives an encoded user handle and the culture reads back every algorithm registered, the
records have ids of their own and are well-formed. -/
theorem records_wellFormed (P : Platform) (C : SidecarBase64) (s₀ t : Plugin) (rs : List Request)
    (empty : s₀.entries = []) (fresh : (rs.map fun r => r.out.credentialId).Nodup)
    (run : Run (restrict (Fits P) (serve P)) s₀ rs t) :
    ((t.getAll P).map PasskeyRecord.credentialId).Nodup ∧
      ∀ record ∈ t.getAll P, WellFormedRecord P C rs record := by
  have start : Records P s₀.culture [] s₀ := ⟨rfl, by simp [empty], by simp [empty]⟩
  have distinctIds : (([] ++ rs).map fun r : Request => r.out.credentialId).Nodup := fresh
  obtain ⟨same, made, distinct⟩ := records_run run distinctIds start
  rw [Plugin.getAll, same]
  constructor
  · have ids : (t.entries.map PwEntry.credentialId) =
        ((t.entries.map (entryToRecord P s₀.culture)).map PasskeyRecord.credentialId).map some := by
      rw [List.map_map, List.map_map]
      exact List.map_congr_left fun e he => (made e he).1
    rw [ids] at distinct
    exact distinct.of_map some
  · intro record mem
    obtain ⟨e, he, rfl⟩ := List.mem_map.mp mem
    exact wellFormedRecord_of_madeBy C (made e he).2

namespace Sample

def createParams (userHandle : String) : JObject :=
  [("rpId", .str "example.com"), ("userHandle", .str userHandle), ("userName", .str "alice")]

def create (userHandle : String) : Request where
  out := VaultOutcomes.Sample.outside
  method := "keepasskeywin.createPasskey"
  params := some (.object (createParams userHandle))

def coseKey : Bytes :=
  CborCodec.encode (ec2Key VaultOutcomes.Sample.credentialKey.x VaultOutcomes.Sample.credentialKey.y)

def created (userHandle : String) : PasskeyRecord :=
  newRecord VaultOutcomes.Sample.outside (Base64Url.encode VaultOutcomes.Sample.credentialId)
    "example.com" "example.com" userHandle "alice" "alice" (-7)
    VaultOutcomes.Sample.credentialPkcs8 coseKey

theorem prepares {userHandle : String} (nonempty : userHandle ≠ "") : ∃ answer,
    prepareCreate (VaultOutcomes.Sample.platform []) VaultOutcomes.Sample.outside
      (create userHandle).params invariant = .ok (created userHandle, answer) := by
  have handle : requireString (createParams userHandle) "userHandle" = .ok userHandle :=
    requireString_ok.mpr ⟨rfl, nonempty⟩
  have key : generateKeyPairAndCoseKey VaultOutcomes.Sample.outside invariant (-7) =
      .ok (VaultOutcomes.Sample.credentialPkcs8, coseKey) := by
    have encoded := CoseKey.encode_eq VaultOutcomes.Sample.credentialKey.x_length
      VaultOutcomes.Sample.credentialKey.y_length
    change (CoseKey.encode VaultOutcomes.Sample.credentialKey.x VaultOutcomes.Sample.credentialKey.y
      >>= fun coseKey => .ok (VaultOutcomes.Sample.credentialPkcs8, coseKey)) = _
    rw [encoded]
    rfl
  have nonemptyKey : coseKey ≠ [] := by decide +kernel
  have nonemptyId : VaultOutcomes.Sample.credentialId ≠ [] := by decide
  have data := build_ok (VaultOutcomes.Sample.platform []) "example.com" true nonemptyId
    (by decide) nonemptyKey
  exact ⟨_, except_bind_ok.mpr ⟨createParams userHandle, rfl, except_bind_ok.mpr ⟨"example.com", rfl,
    except_bind_ok.mpr ⟨none, rfl, except_bind_ok.mpr ⟨userHandle, handle,
      except_bind_ok.mpr ⟨"alice", rfl, except_bind_ok.mpr ⟨none, rfl,
        except_bind_ok.mpr ⟨_, key, except_bind_ok.mpr ⟨_, data, rfl⟩⟩⟩⟩⟩⟩⟩⟩⟩

theorem registers {userHandle : String} (nonempty : userHandle ≠ "") :
    Registers (VaultOutcomes.Sample.platform []) (create userHandle).out (create userHandle).method
      (create userHandle).params VaultOutcomes.Sample.plugin (created userHandle) := by
  obtain ⟨answer, ready⟩ := prepares nonempty
  refine ⟨rfl, answer, ?_⟩
  rw [prepared, if_pos (show (create userHandle).method = "keepasskeywin.createPasskey" from rfl)]
  exact ready

def drawing (n : UInt8) (r : Request) : Request :=
  { r with out := { r.out with
      credentialId := List.replicate 32 n
      credentialId_length := List.length_replicate } }

def requests : List Request :=
  [create "AQIDBA", drawing 0 ⟨VaultOutcomes.Sample.outside, getMethod, VaultOutcomes.Sample.getParams⟩,
    drawing 9 (create "BQYHCA")]

theorem handleFits_create {s : Plugin} {r : Request} {userHandle : String}
    (params : r.params = some (.object (createParams userHandle)))
    (encoded : EncodedHandle userHandle) :
    HandleFits (VaultOutcomes.Sample.platform []) s r := by
  intro _ _ obj handle hobj field
  rw [params] at hobj
  obtain rfl := JToken.object.inj (Option.some.inj hobj)
  obtain rfl : userHandle = handle := Option.some.inj (Except.ok.inj field)
  exact encoded

theorem stays {s : Plugin} {r : Request} (some : s.entries ≠ [])
    (spares : ∀ id, ¬ Deletes r.method r.params id) :
    (final (handle (VaultOutcomes.Sample.platform []) r.out r.method r.params s)).entries ≠ [] := by
  have effect := (handle_ran (VaultOutcomes.Sample.platform []) r.out r.method r.params s).effect
  generalize (final (handle _ r.out r.method r.params s)).entries = entries at effect ⊢
  cases effect with
  | unchanged => exact some
  | added record _ => exact List.append_ne_nil_of_right_ne_nil _ (List.cons_ne_nil _ _)
  | deleted id asked => exact absurd asked (spares id)
  | counted id next _ =>
    intro none
    have same := congrArg List.length none
    rw [modifyFirst_length] at same
    exact some (List.length_eq_zero_iff.mp same)

theorem run : ∃ t, t.entries ≠ [] ∧ Run (restrict (Fits (VaultOutcomes.Sample.platform []))
    (serve (VaultOutcomes.Sample.platform []))) VaultOutcomes.Sample.plugin requests t := by
  have held : ∀ (r : Request) (s : Plugin), s.culture = invariant →
      (final (handle (VaultOutcomes.Sample.platform []) r.out r.method r.params s)).culture =
        invariant := fun r s same =>
    (handle_held (VaultOutcomes.Sample.platform []) r.out r.method r.params s).culture.trans same
  have proper : ∀ {s : Plugin}, s.culture = invariant → s.culture.Proper := fun same =>
    same ▸ invariant_proper
  have first := held (create "AQIDBA") VaultOutcomes.Sample.plugin rfl
  have second := held (drawing 0 ⟨VaultOutcomes.Sample.outside, getMethod,
    VaultOutcomes.Sample.getParams⟩) _ first
  have fits₁ := fits_of_handle (proper rfl) (handleFits_create (s := VaultOutcomes.Sample.plugin)
    (r := create "AQIDBA") rfl ⟨[1, 2, 3, 4], by decide, by decide +kernel⟩)
  have fits₃ := fits_of_handle (proper second) (handleFits_create (r := drawing 9 (create "BQYHCA"))
    rfl ⟨[5, 6, 7, 8], by decide, by decide +kernel⟩)
  refine ⟨_, ?_, .cons ⟨fits₁, rfl⟩ (.cons ⟨fits_of_handle (proper first) ?_, rfl⟩
    (.single ⟨fits₃, rfl⟩))⟩
  · refine stays (stays (r := drawing 0 ⟨VaultOutcomes.Sample.outside, getMethod,
      VaultOutcomes.Sample.getParams⟩) ?_ ?_) ?_
    · rw [(handle_registers (registers (show "AQIDBA" ≠ "" by decide))).1]
      exact List.append_ne_nil_of_right_ne_nil _ (List.cons_ne_nil _ _)
    · exact fun id asked => absurd asked.1 (by decide)
    · exact fun id asked => absurd asked.1 (by decide)
  · exact fun other => absurd other (by decide)

def rsaPair : RsaKeyPair where
  pkcs8 :=
    bigEndian 38 0x308204bf020100300d06092a864886f70d0101010500048204a9308204a50201000282010100 ++
      bigEndian 38 0xd768c50ba888bac3377ae4c9453036c55cb0a85d9862aecef954420dada8a3df6e8b4e36581a ++
      bigEndian 38 0x465663b74c02cad58f27fb2dd2202f3a3afa083e6d4eafa8b4c48a6a0aefd9b3f8840717ee7e ++
      bigEndian 38 0x4c1a260d17359ce5df2970f0a4548cac499807f6bb369e3add5da8634b22b01152ae9cd93a86 ++
      bigEndian 38 0x9a48b9d3728a37bcdf674fa9128aea8abce1612bd079b3c7562898a01f5253b8e7607c3d0740 ++
      bigEndian 38 0xf3c5cbe0ad24dabfa223fb31049e50ae5cad0ba57d4af57d940b354e2d2c26e187b210c59bc3 ++
      bigEndian 38 0x54025262f9e55d1fc0d7359f63887abd9ad0814d8b62aff4b0e1ff594a9eda41873c0764c732 ++
      bigEndian 38 0x0e5bb23538fe89a8bcf4cb16ccb71a774447c917762d7bc4cb465beb02030100010282010013 ++
      bigEndian 38 0x953cc4b08fad9aedc248665bd9e440d10a66640be47ccbe832d6c673912f44b2c20b5c396a3a ++
      bigEndian 38 0x16c47df775118794ba27c5a4a2b46870d0264bb6983eb3f1ab24823b784eac63dd6cdfaa18e5 ++
      bigEndian 38 0x46434b515ed862b58508f5779b1026e191e6b77191a794e6670b55eb90bdbcf56d5669113f07 ++
      bigEndian 38 0x6bb1291df29eda96dcc78b315a30f87cfe598abf702173026dfec7c83c5ef3bfd09e7aafc4ae ++
      bigEndian 38 0xb92f7d2411d002139a1e00679d878845f3faf8c2d5fb108f34142977f66f5ce6f28bf5b58842 ++
      bigEndian 38 0xf7e10704701cb501df0c0c518b70e88c7d8915e66903de373ebbf19a12b6549fa61db322cc1b ++
      bigEndian 38 0x9e24b5106ec51e7fae42f3735eb6a4a18a27379b6fe101b829efa102818100f4beda12d87be7 ++
      bigEndian 38 0x0bacca33cb88a6861e95e75c0951af1a82cedd33f26337a8d66f429ce84263dba6cb3dd95bab ++
      bigEndian 38 0x4b6fe6860af49db0929b603cc7a6b8d1c77aac9f2226572327dfee5ab2af4a201c0cdf849eb9 ++
      bigEndian 38 0xc0414d73a90ae8fae3caf0c290324614a6a927bf969394adfca28a381630a79caaccff1e5dd3 ++
      bigEndian 38 0xba9743db6a870302818100e1509229f21503dc285e54ef9d84f0ef5f48f5f8480f550244f7cb ++
      bigEndian 38 0x7a4bb0b1876beeca8a2bee5afff127a8acbd5785ff1c3d1f31ba381faf6d24359e626efaede4 ++
      bigEndian 38 0x1c95b8490b72651ed726e41a5a2b1cd501568953c9e8b52a6431a3d70e836a34cc2db8c04878 ++
      bigEndian 38 0xe2505858bd2b7c13eac4b35e5fec1f20b959411e02e7f7aef9028181008e31840986f5159b56 ++
      bigEndian 38 0xdc739340e55eeece3108ebf12546c5d0e1fb984bc4beb73715008c8065fbebc01143035b560c ++
      bigEndian 38 0xc166075f6f6e72ff0abec5503bf8c568a47a20211e6732778bc7ee20a1745e57ac5524d2cebc ++
      bigEndian 38 0x21ff9caad6094de74e51fbecf9826e01c132328db3c8120b6d3a80c9ebd7bdf43414b4769ae5 ++
      bigEndian 38 0xdf6acf4d7902818100d4a38f6ddab38e9305de10d69a984e31fa8106f1ac401c002a4a9953ef ++
      bigEndian 38 0x7eefec5826622b884e48bf673e006815c1360a8f01f8209c183f7ef5c7c87a93771d85c95458 ++
      bigEndian 38 0xd034cf82c4801898f1891533bee01f8525d157aa30dfb2f34e26b5e1bc27dbd2029c2549407c ++
      bigEndian 38 0x870428739383d07a96b5285dd4fab331d2cc99fd85b93102818100d2c54af81094ff118ed5da ++
      bigEndian 38 0xbab3f71b68820e5f8e7775200cd38d347e55ed623b46a62e425fdbbff2412d4c71811b140777 ++
      bigEndian 38 0x7838448c7b762e9221a998f4fd5880e4183e4537a56fba46413252de137d90f75310b5fcdaa3 ++
      bigEndian 38 0x6792f0f8d10c5e71b7ce4addbe76e56569db55fd1b00be4ab18b94cf8280227c0beec758bc98 ++
      bigEndian 3 0x47e7b3
  modulus :=
    bigEndian 38 0xd768c50ba888bac3377ae4c9453036c55cb0a85d9862aecef954420dada8a3df6e8b4e36581a ++
      bigEndian 38 0x465663b74c02cad58f27fb2dd2202f3a3afa083e6d4eafa8b4c48a6a0aefd9b3f8840717ee7e ++
      bigEndian 38 0x4c1a260d17359ce5df2970f0a4548cac499807f6bb369e3add5da8634b22b01152ae9cd93a86 ++
      bigEndian 38 0x9a48b9d3728a37bcdf674fa9128aea8abce1612bd079b3c7562898a01f5253b8e7607c3d0740 ++
      bigEndian 38 0xf3c5cbe0ad24dabfa223fb31049e50ae5cad0ba57d4af57d940b354e2d2c26e187b210c59bc3 ++
      bigEndian 38 0x54025262f9e55d1fc0d7359f63887abd9ad0814d8b62aff4b0e1ff594a9eda41873c0764c732 ++
      bigEndian 28 0x0e5bb23538fe89a8bcf4cb16ccb71a774447c917762d7bc4cb465beb
  exponent := [1, 0, 1]
  modulus_length := by simp [bigEndian_length]
  exponent_length := rfl

def rsaCbor : Bytes :=
  bigEndian 38 0xa4015820108a9107a11167c1d1090f07d6fd7dbf37f8cd8ad88a90fc1b3bc067c120fd2302a2 ++
    bigEndian 38 0x6269646b6578616d706c652e636f6d646e616d65674578616d706c6503a36269644401020304 ++
    bigEndian 38 0x646e616d6565616c6963656b646973706c61794e616d6565416c6963650481a263616c673901 ++
    bigEndian 17 0x0064747970656a7075626c69632d6b6579

def rsaSignature : Bytes :=
  bigEndian 38 0x9c9b0d49e808b0225ae1639e30ada0cbf6818e903e1ec0b331c490e3c5a701832d181510f897 ++
    bigEndian 26 0x34d7acf2031b9e5f2da19abdac05d9471aaadca967fc599d2ad8

def rsaLoginSignature : Bytes :=
  bigEndian 38 0x8f65e1fbb2f9286ff2a32f482df8ec321edb8a37da6c72d58449d2f159c1915dcc36f1139fed ++
    bigEndian 38 0xf1b010de21137ac9f95b09e961b559f708846ec1634efcd6ac6c5c11f45b1eadc158aa944840 ++
    bigEndian 38 0x4c0348cb477aba58c97be8e2d2ae92d60f507821fce5545300a9db762b2c4f0fcd6bddb95bbe ++
    bigEndian 38 0xada53d33c3e83d709a5b7150beccaac371868f52c175bfad9aef6a313b5ce4a315294771f14e ++
    bigEndian 38 0xaeb040dbdd7e2a989a2ad1c7c3f7c6410e660b803e608c55432d9d27ee959ebf82e6463f6223 ++
    bigEndian 38 0x9122059bc244f4572eba48e0bb345603f0c52b9636960408a3478dc20340b3cc0be07a750a39 ++
    bigEndian 28 0xc79f5a43357052113bcf9b28e330b9695372db6ca6bec69cc8c1dea9

def rsaSigned (data : Bytes) : Bytes :=
  if data = VaultOutcomes.Sample.signInput then rsaLoginSignature else List.replicate 256 1

/-- Windows with this key: it signs with RSA, and `ECDsaCng` does not take it. -/
def rsaPlatform : Platform := { VaultOutcomes.Sample.platform [] with
  verifyData := fun pubKey payload signature => .answer (decide
    (pubKey = VaultOutcomes.Sample.opSignPubKey ∧
      (payload = rsaCbor ∧ signature = rsaSignature ∨
        payload = VaultOutcomes.Sample.getCbor ∧ signature = VaultOutcomes.Sample.getSignature)))
  ecdsaSignData := fun _ _ _ =>
    .error "Keys used with the ECDsaCng algorithm must have an algorithm group of ECDsa."
  ecdsaSignData_width := nofun
  rsaSignData := fun pkcs8 data => if pkcs8 = rsaPair.pkcs8 then .ok (rsaSigned data)
    else .error "The parameter is incorrect."
  rsaSignData_length := by
    intro pkcs8 data signature h
    split_ifs at h
    obtain rfl := Except.ok.inj h
    unfold rsaSigned
    split_ifs <;> decide +kernel
  rsaVerifyData := fun modulus exponent data signature =>
    modulus = rsaPair.modulus ∧ exponent = rsaPair.exponent ∧ signature = rsaSigned data }

def rsaOutside : Outside := { VaultOutcomes.Sample.outside with
  ecKey := .error "The requested operation is not supported."
  rsaKey := .ok rsaPair }

def rsaRequest : Request :=
  ⟨rsaOutside, makeMethod, VaultOutcomes.Sample.rawParams rsaCbor rsaSignature⟩

def rsaRecord : PasskeyRecord :=
  newRecord rsaOutside (Base64Url.encode VaultOutcomes.Sample.credentialId) "example.com" "Example"
    "AQIDBA" "alice" "Alice" (-257) rsaPair.pkcs8
    (CborCodec.encode (rsaKey rsaPair.modulus rsaPair.exponent))

theorem rsa_key {out : Outside} (pair : RsaKeyPair) (given : out.rsaKey = .ok pair)
    (culture : NumberFormatInfo) : generateKeyPairAndCoseKey out culture (-257) =
      .ok (pair.pkcs8, CborCodec.encode (rsaKey pair.modulus pair.exponent)) := by
  have encoded := CoseKey.encodeRsa_eq
    (List.ne_nil_of_length_pos (show 0 < pair.modulus.length by simp [pair.modulus_length]))
    (List.ne_nil_of_length_pos (show 0 < pair.exponent.length by simp [pair.exponent_length]))
  have generated : EcdsaSignatures.RsaSigner.generateKeyPair out =
      .ok (pair.pkcs8, pair.modulus, pair.exponent) :=
    except_bind_ok.mpr ⟨pair, mapError_ok.mpr given, by
      simp [EcdsaSignatures.stripLeadingZero, pair.modulus_length, except_pure_ok]⟩
  rw [generateKeyPairAndCoseKey, if_neg (by decide), if_pos rfl]
  exact except_bind_ok.mpr ⟨_, generated, except_bind_ok.mpr ⟨_, encoded, rfl⟩⟩

theorem rsaRegisters (culture : NumberFormatInfo) : Registers rsaPlatform rsaRequest.out
    rsaRequest.method rsaRequest.params (opened culture) rsaRecord := by
  have parsed : parseMakeCredentialCbor rsaCbor = .ok ⟨VaultOutcomes.Sample.clientDataHash,
      "example.com", "Example", "AQIDBA", "alice", "Alice", [], [-257]⟩ := by decide +kernel
  have key := rsa_key rsaPair (show rsaOutside.rsaKey = .ok rsaPair from rfl) culture
  have data := build_ok rsaPlatform "example.com" true
    (show VaultOutcomes.Sample.credentialId ≠ [] by decide) (by decide)
    (show CborCodec.encode (rsaKey rsaPair.modulus rsaPair.exponent) ≠ [] by decide +kernel)
  have ready : prepareMake rsaPlatform rsaOutside (opened culture) true rsaCbor =
      .ok (rsaRecord, _) :=
    except_bind_ok.mpr ⟨_, orMalformed_ok.mpr parsed, except_bind_ok.mpr ⟨(), rfl,
      except_bind_ok.mpr ⟨-257, rfl, except_bind_ok.mpr ⟨_, key,
        except_bind_ok.mpr ⟨_, data, rfl⟩⟩⟩⟩⟩
  exact RequestEffects.Sample.registers_raw (by decide +kernel) (by decide +kernel) rfl rfl rfl rfl
    ready

end Sample

theorem records_wellFormed_sample : ∃ t, t.entries ≠ [] ∧
    Run (restrict (Fits (VaultOutcomes.Sample.platform []))
      (serve (VaultOutcomes.Sample.platform []))) VaultOutcomes.Sample.plugin Sample.requests t ∧
      ((t.getAll (VaultOutcomes.Sample.platform [])).map PasskeyRecord.credentialId).Nodup ∧
      ∀ record ∈ t.getAll (VaultOutcomes.Sample.platform []),
        WellFormedRecord (VaultOutcomes.Sample.platform [])
          (exactBase64 (VaultOutcomes.Sample.platform [])) Sample.requests record := by
  obtain ⟨t, some, run⟩ := Sample.run
  exact ⟨t, some, run, records_wellFormed (VaultOutcomes.Sample.platform [])
    (exactBase64 (VaultOutcomes.Sample.platform [])) _ t _ rfl (by decide +kernel) run⟩

/-- A user handle in padded base64, as the sidecar's own command sends it, is stored as it is:
the engine that the sidecar publishes with refuses it. -/
theorem padded_handle_stored : ∃ t record,
    Run (serve (VaultOutcomes.Sample.platform [])) VaultOutcomes.Sample.plugin
        [Sample.create "dGVzdC11c2VyLWhhbmRsZQ=="] t ∧
      record ∈ t.getAll (VaultOutcomes.Sample.platform []) ∧ ¬ EncodedHandle record.userHandle ∧
      ∀ C : SidecarBase64, C.urlSafeNoPad record.userHandle = none := by
  let record := Sample.created "dGVzdC11c2VyLWhhbmRsZQ=="
  have nonempty : "dGVzdC11c2VyLWhhbmRsZQ==" ≠ "" := by decide
  have padded : ∀ data, record.userHandle ≠ Base64Url.encode data := by
    intro data same
    have padding : '=' ∈ record.userHandle.toList := by decide
    exact padding_not_mem data (same ▸ padding)
  have registers := Sample.registers nonempty
  have entries := (handle_registers registers).1
  have readBack : entryToRecord (VaultOutcomes.Sample.platform []) invariant
      (recordToEntry (VaultOutcomes.Sample.platform []) invariant record) =
        { record with signCount := 0 } :=
    entryToRecord_recordToEntry _ (intTryParse_intToString invariant_proper (by decide))
  refine ⟨_, { record with signCount := 0 }, .single rfl, ?_, ?_, ?_⟩
  · have culture := (handle_held (VaultOutcomes.Sample.platform [])
      (Sample.create "dGVzdC11c2VyLWhhbmRsZQ==").out
      (Sample.create "dGVzdC11c2VyLWhhbmRsZQ==").method
      (Sample.create "dGVzdC11c2VyLWhhbmRsZQ==").params VaultOutcomes.Sample.plugin).culture
    rw [Plugin.getAll, entries, culture, ← readBack]
    exact List.mem_map_of_mem (List.mem_append_right _ (List.mem_singleton_self _))
  · rintro ⟨data, _, same⟩
    exact padded data same
  · intro C
    cases h : C.urlSafeNoPad record.userHandle with
    | none => rfl
    | some data => exact absurd (C.urlSafeNoPad_iff.mp h) (padded data)

/-- Where the negative sign starts with white space, an RS256 credential is read as one of ES256,
which its keys are not. -/
theorem spaced_algorithm_stored : ∃ t record,
    Run (serve Sample.rsaPlatform) (opened spaced) [Sample.rsaRequest] t ∧
      record ∈ t.getAll Sample.rsaPlatform ∧
      record.publicKeyCose =
        CborCodec.encode (rsaKey Sample.rsaPair.modulus Sample.rsaPair.exponent) ∧
      record.algId = -7 ∧
      ¬ ∃ pkcs8, FreshKey Sample.rsaOutside record.algId pkcs8 record.publicKeyCose := by
  have entries := (handle_registers (Sample.rsaRegisters spaced)).1
  have culture := (handle_held Sample.rsaPlatform Sample.rsaRequest.out Sample.rsaRequest.method
    Sample.rsaRequest.params (opened spaced)).culture
  have fallsBack : (intTryParse spaced (some (intToString spaced (-257)))).getD (-7) = -7 := by
    decide
  refine ⟨_, { Sample.rsaRecord with algId := -7 }, .single rfl, ?_, rfl, rfl, ?_⟩
  · rw [Plugin.getAll, entries, culture]
    refine List.mem_map.mpr ⟨_, List.mem_append_right _ (List.mem_singleton_self _), ?_⟩
    rw [show (opened spaced).culture = spaced from rfl, entryToRecord_across]
    rw [show Sample.rsaRecord.algId = -257 from rfl, fallsBack]
    rfl
  · rintro ⟨_, ⟨_, pair, given, _⟩ | ⟨other, _⟩⟩
    · cases given
    · exact absurd other (by decide)

end KeePassKeyWin.VaultWellFormedness
