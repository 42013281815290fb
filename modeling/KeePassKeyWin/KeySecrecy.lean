import KeePassKeyWin.ConnectionSafety
import KeePassKeyWin.PairedPrograms
import KeePassKeyWin.VaultOutcomes

set_option autoImplicit false

/-!
# What the answers say of the private keys

Two plugins that differ in the private keys of their records only, where each key signs as the
other one does. Whatever a client sends, over however many connections, it gets the same answers
from both: beyond the signatures, nothing of a key leaves the plugin.
-/
namespace KeePassKeyWin.KeySecrecy
open ByteStrings JsonRpc NumberFormat OutcomeRules PlatformServices CredentialEncodings
open EcdsaSignatures PasskeyStore VaultGates CtapRequests VaultHandler PipeServer FirstMatch
open TransitionRuns PairedPrograms
open ConnectionSafety (helloLine helloRequest visible_hello)
open VaultOutcomes.Sample (listLine loginLine listRequest loginRequest)

structure SignAlike (P : Platform) (a b : Bytes) : Prop where
  ecdsa : ∀ entropy data, P.ecdsaSignData a entropy data = P.ecdsaSignData b entropy data
  rsa : ∀ data, P.rsaSignData a data = P.rsaSignData b data

def KeysAlike (P : Platform) (k l : String) : Prop :=
  SameOutcome (SignAlike P) (fromBase64String P k) (fromBase64String P l)

def privateKey (e : PwEntry) : String := (e.strings.lookup keyPrivateKey).getD ""

def publicStrings (e : PwEntry) : List (String × String) :=
  e.strings.filter fun field => field.1 != keyPrivateKey

structure EntryAlike (P : Platform) (e f : PwEntry) : Prop where
  strings : publicStrings e = publicStrings f
  customData : e.customData = f.customData
  binaries : e.binaries = f.binaries
  key : KeysAlike P (privateKey e) (privateKey f)

structure GroupAlike (P : Platform) (g h : PwGroup) : Prop where
  name : g.name = h.name
  entries : List.Forall₂ (EntryAlike P) g.entries h.entries

structure DatabaseAlike (P : Platform) (c d : PwDatabase) : Prop where
  isOpen : c.isOpen = d.isOpen
  groups : List.Forall₂ (GroupAlike P) c.groups d.groups

/-- All but the keys in memory and in the file, and the keys that have signed. -/
structure PluginAlike (P : Platform) (s t : Plugin) : Prop where
  database : Option.Rel (DatabaseAlike P) s.database t.database
  file : List.Forall₂ (GroupAlike P) s.file t.file
  opSignPubKey : s.opSignPubKey = t.opSignPubKey
  uvFallbackPrompt : s.uvFallbackPrompt = t.uvFallbackPrompt
  skipPluginSigVerify : s.skipPluginSigVerify = t.skipPluginSigVerify
  culture : s.culture = t.culture
  nonce : s.nonce = t.nonce
  registryNonce : s.registryNonce = t.registryNonce
  vaultCalls : s.vaultCalls = t.vaultCalls

structure RecordAlike (P : Platform) (r u : PasskeyRecord) : Prop where
  same : u = { r with privateKeyPkcs8 := u.privateKeyPkcs8 }
  key : KeysAlike P r.privateKeyPkcs8 u.privateKeyPkcs8

structure SessionAlike (P : Platform) (s t : Session) : Prop where
  context : s.context = t.context
  plugin : PluginAlike P s.plugin t.plugin

section
variable {P : Platform}

theorem KeysAlike.refl (k : String) : KeysAlike P k k := by
  unfold KeysAlike
  cases fromBase64String P k with
  | ok bytes => exact .ok ⟨fun _ _ => rfl, fun _ => rfl⟩
  | error e => exact .error e

theorem EntryAlike.refl (e : PwEntry) : EntryAlike P e e := ⟨rfl, rfl, rfl, .refl _⟩

theorem GroupAlike.isPasskeys {g h : PwGroup} (alike : GroupAlike P g h) :
    PasskeyStore.isPasskeys g = PasskeyStore.isPasskeys h := by
  rw [PasskeyStore.isPasskeys, alike.name]
  rfl

theorem lookup_publicStrings {key : String} (other : key ≠ keyPrivateKey) (e : PwEntry) :
    (publicStrings e).lookup key = e.strings.lookup key := by
  unfold publicStrings
  induction e.strings with
  | nil => rfl
  | cons field fields ih =>
    obtain ⟨name, value⟩ := field
    by_cases secret : name = keyPrivateKey
    · have skipped : (key == name) = false := beq_false_of_ne (secret ▸ other)
      rw [List.filter_cons_of_neg (by simp [secret]), ih, List.lookup_cons, skipped]
    · rw [List.filter_cons_of_pos (by simp [secret]), List.lookup_cons, List.lookup_cons, ih]

section
variable {e f : PwEntry} (h : EntryAlike P e f)
include h

theorem EntryAlike.lookup {key : String} (other : key ≠ keyPrivateKey) :
    e.strings.lookup key = f.strings.lookup key := by
  rw [← lookup_publicStrings other, h.strings, lookup_publicStrings other]

theorem EntryAlike.hasId (credentialId : String) :
    PasskeyStore.hasId credentialId e = PasskeyStore.hasId credentialId f := by
  unfold PasskeyStore.hasId PwEntry.credentialId
  rw [h.lookup (by decide)]

theorem EntryAlike.hasRpId (rpId : String) :
    PasskeyStore.hasRpId rpId e = PasskeyStore.hasRpId rpId f := by
  unfold PasskeyStore.hasRpId
  rw [h.lookup (by decide)]

theorem EntryAlike.signCount : e.signCount = f.signCount := by
  rw [PwEntry.signCount, h.customData]
  rfl

theorem EntryAlike.setSignCount (next : ℕ) :
    EntryAlike P (e.setSignCount next) (f.setSignCount next) :=
  ⟨h.strings, by rw [PwEntry.setSignCount, h.customData]; rfl, h.binaries, h.key⟩

theorem EntryAlike.record (culture : NumberFormatInfo) :
    RecordAlike P (entryToRecord P culture e) (entryToRecord P culture f) := by
  refine ⟨?_, h.key⟩
  simp only [entryToRecord, PwEntry.credentialId, h.lookup (show keyCredId ≠ _ by decide),
    h.lookup (show keyRpId ≠ _ by decide), h.lookup (show keyRpName ≠ _ by decide),
    h.lookup (show keyUserHandle ≠ _ by decide), h.lookup (show keyUserName ≠ _ by decide),
    h.lookup (show keyUserDisplay ≠ _ by decide), h.customData, h.binaries, h.signCount]

end

section
variable {s t : Plugin} (h : PluginAlike P s t)
include h

theorem PluginAlike.isVaultOpen : s.isVaultOpen = t.isVaultOpen := by
  unfold Plugin.isVaultOpen
  obtain ⟨left, right⟩ | ⟨c, d, left, right, db⟩ := rel_cases h.database
  · rw [left, right]
  · rw [left, right]
    exact db.isOpen

theorem PluginAlike.database_isNone : s.database.isNone = t.database.isNone := by
  obtain ⟨left, right⟩ | ⟨c, d, left, right, _⟩ := rel_cases h.database
  · rw [left, right]
  · rw [left, right]
    rfl

theorem PluginAlike.group : Option.Rel (GroupAlike P) s.findPasskeysGroup t.findPasskeysGroup := by
  unfold Plugin.findPasskeysGroup
  obtain ⟨left, right⟩ | ⟨c, d, left, right, db⟩ := rel_cases h.database
  · rw [left, right]
    exact .none
  · rw [left, right]
    simp only [db.isOpen]
    split_ifs
    · exact find?_related (R := GroupAlike P) (fun _ _ alike => alike.isPasskeys) db.groups
    · exact .none

theorem PluginAlike.entries : List.Forall₂ (EntryAlike P) s.entries t.entries := by
  unfold Plugin.entries
  obtain ⟨left, right⟩ | ⟨c, d, left, right, group⟩ := rel_cases h.group
  · rw [left, right]
    exact .nil
  · rw [left, right]
    exact group.entries

theorem PluginAlike.found (credentialId : String) : Option.Rel (EntryAlike P)
    (s.entries.find? (hasId credentialId)) (t.entries.find? (hasId credentialId)) :=
  find?_related (R := EntryAlike P) (fun _ _ alike => alike.hasId credentialId) h.entries

theorem PluginAlike.any_hasId (credentialId : String) :
    s.entries.any (hasId credentialId) = t.entries.any (hasId credentialId) :=
  any_related (R := EntryAlike P) (fun _ _ alike => alike.hasId credentialId) h.entries

theorem PluginAlike.findById (credentialId : String) :
    Option.Rel (RecordAlike P) (s.findById P credentialId) (t.findById P credentialId) := by
  unfold Plugin.findById
  rw [h.culture]
  obtain ⟨left, right⟩ | ⟨e, f, left, right, alike⟩ := rel_cases (h.found credentialId)
  · rw [left, right]
    exact .none
  · rw [left, right]
    exact .some (alike.record t.culture)

theorem PluginAlike.findByRpId (rpId : String) :
    List.Forall₂ (RecordAlike P) (s.findByRpId P rpId) (t.findByRpId P rpId) := by
  unfold Plugin.findByRpId
  rw [h.culture]
  exact List.rel_map (R := EntryAlike P) (fun {_ _} alike => alike.record t.culture)
    (filter_related (fun _ _ alike => alike.hasRpId rpId) h.entries)

theorem PluginAlike.getAll : List.Forall₂ (RecordAlike P) (s.getAll P) (t.getAll P) := by
  unfold Plugin.getAll
  rw [h.culture]
  exact List.rel_map (R := EntryAlike P) (fun {_ _} alike => alike.record t.culture) h.entries

theorem PluginAlike.mapGroups {f g : List PwGroup → List PwGroup}
    (kept : ∀ xs ys, List.Forall₂ (GroupAlike P) xs ys → List.Forall₂ (GroupAlike P) (f xs) (g ys)) :
    PluginAlike P (s.mapGroups f) (t.mapGroups g) where
  database := by
    change Option.Rel _ (s.database.map _) (t.database.map _)
    obtain ⟨left, right⟩ | ⟨c, d, left, right, db⟩ := rel_cases h.database
    · rw [left, right]
      exact .none
    · rw [left, right]
      exact .some ⟨db.isOpen, kept _ _ db.groups⟩
  file := h.file
  opSignPubKey := h.opSignPubKey
  uvFallbackPrompt := h.uvFallbackPrompt
  skipPluginSigVerify := h.skipPluginSigVerify
  culture := h.culture
  nonce := h.nonce
  registryNonce := h.registryNonce
  vaultCalls := h.vaultCalls

theorem PluginAlike.mapEntries {f g : List PwEntry → List PwEntry}
    (kept : ∀ xs ys, List.Forall₂ (EntryAlike P) xs ys → List.Forall₂ (EntryAlike P) (f xs) (g ys)) :
    PluginAlike P (s.mapEntries f) (t.mapEntries g) :=
  h.mapGroups fun _ _ groups =>
    modifyFirst_related (R := GroupAlike P) (fun _ _ alike => alike.isPasskeys)
      (fun _ _ alike => ⟨alike.name, kept _ _ alike.entries⟩) groups

theorem PluginAlike.addEntry (e : PwEntry) : PluginAlike P (s.addEntry e) (t.addEntry e) := by
  have ensured : PluginAlike P (s.mapGroups ensurePasskeysGroup) (t.mapGroups ensurePasskeysGroup) := by
    refine h.mapGroups fun xs ys groups => ?_
    have same : xs.any isPasskeys = ys.any isPasskeys :=
      any_related (R := GroupAlike P) (fun _ _ alike => alike.isPasskeys) groups
    unfold ensurePasskeysGroup
    rw [same]
    split_ifs
    · exact groups
    · exact List.rel_append groups (.cons ⟨rfl, .nil⟩ .nil)
  exact ensured.mapEntries fun _ _ entries => List.rel_append entries (.cons (.refl e) .nil)

theorem PluginAlike.nextSignCount (credentialId : String) :
    nextSignCount credentialId s = nextSignCount credentialId t := by
  unfold PasskeyStore.nextSignCount
  obtain ⟨left, right⟩ | ⟨_, _, left, right, _⟩ := rel_cases h.group
  · rw [left, right]
    rfl
  · rw [left, right]
    obtain ⟨left, right⟩ | ⟨e, f, left, right, alike⟩ := rel_cases (h.found credentialId)
    · rw [left, right]
      rfl
    · rw [left, right]
      simp only [alike.signCount, Option.isNone_some]

end

abbrev Secret (P : Platform) {α β : Type} (A : α → β → Prop) (x : Vault α) (y : Vault β) : Prop :=
  Agree (PluginAlike P) A x y

theorem save_secret (out : Outside) : Secret P Eq (save out) (save out) := by
  intro s t h
  unfold save
  obtain ⟨left, right⟩ | ⟨c, d, left, right, db⟩ := rel_cases h.database
  · rw [left, right]
    cases out.save with
    | none => exact .error _ h
    | some message => exact .error _ h
  · rw [left, right]
    cases out.save with
    | none => exact .ok rfl { h with database := .some db, file := db.groups }
    | some message => exact .error _ h

theorem add_secret (out : Outside) (record : PasskeyRecord) :
    Secret P Eq (add P out record) (add P out record) := by
  refine .read fun s t h => ?_
  have added : Secret P Eq
      (modify (Plugin.addEntry (recordToEntry P s.culture record)) >>= fun _ => save out)
      (modify (Plugin.addEntry (recordToEntry P t.culture record)) >>= fun _ => save out) := by
    rw [h.culture]
    exact .bind (.modify fun _ _ h' => h'.addEntry _) fun _ _ _ => save_secret out
  exact .ite (by rw [h.database_isNone]) (.bind (A := Eq) (.throw _) fun _ _ _ => added) added

theorem delete_secret (out : Outside) (credentialId : String) :
    Secret P Eq (delete out credentialId) (delete out credentialId) := by
  refine .read fun s t h => .ite (by rw [h.any_hasId]) ?_ (.pure rfl)
  refine .bind (.modify fun s' t' h' => ?_) fun _ _ _ =>
    .bind (save_secret out) fun _ _ _ => .pure rfl
  exact h'.mapEntries fun _ _ entries =>
    eraseP_related (R := EntryAlike P) (fun _ _ alike => alike.hasId credentialId) entries

theorem incrementSignCount_secret (out : Outside) (credentialId : String) :
    Secret P Eq (incrementSignCount out credentialId) (incrementSignCount out credentialId) := by
  refine .read fun s t h => ?_
  rw [h.nextSignCount]
  refine .lift_bind fun next _ => .bind (.modify fun s' t' h' => ?_) fun _ _ _ =>
    .bind (save_secret out) fun _ _ _ => .pure rfl
  exact h'.mapEntries fun _ _ entries =>
    modifyFirst_related (R := EntryAlike P) (fun _ _ alike => alike.hasId credentialId)
      (fun _ _ alike => alike.setSignCount next) entries

theorem signatureOf_alike {a b : Bytes} (h : SignAlike P a b) (entropy data : Bytes) (algId : ℤ) :
    signatureOf P entropy a data algId = signatureOf P entropy b data algId := by
  unfold signatureOf EcdsaSigner.sign RsaSigner.sign
  rw [h.ecdsa, h.rsa]

theorem signWithAlgorithm_secret (out : Outside) {a b : Bytes} (alike : SignAlike P a b)
    (data : Bytes) (algId : ℤ) :
    Secret P Eq (signWithAlgorithm P out a data algId) (signWithAlgorithm P out b data algId) := by
  refine .ite Iff.rfl (.bind (.modify fun s t h => ?_) fun _ _ _ => .lift ?_) (.read fun s t h => ?_)
  · exact ⟨h.database, h.file, h.opSignPubKey, h.uvFallbackPrompt, h.skipPluginSigVerify, h.culture,
      h.nonce, h.registryNonce, h.vaultCalls⟩
  · rw [signatureOf_alike alike]
    exact .refl _
  · rw [h.culture]
    exact .throw _

theorem receiveRaw_secret (out : Outside) (params : Option JToken) (method : String) :
    Secret P Eq (receiveRaw P out params method) (receiveRaw P out params method) := by
  intro s t h
  unfold receiveRaw
  rw [h.opSignPubKey, h.skipPluginSigVerify, h.uvFallbackPrompt]
  obtain ⟨outcome, prompt⟩ := gates P out.ask t.opSignPubKey t.skipPluginSigVerify
    t.uvFallbackPrompt params method
  cases outcome with
  | ok a =>
    exact .ok rfl
      { h with opSignPubKey := rfl, skipPluginSigVerify := rfl, uvFallbackPrompt := rfl }
  | error e =>
    exact .error e
      { h with opSignPubKey := rfl, skipPluginSigVerify := rfl, uvFallbackPrompt := rfl }

theorem createPasskey_secret (out : Outside) (params : Option JToken) :
    Secret P Eq (createPasskey P out params) (createPasskey P out params) := by
  refine .lift_bind fun obj _ => .lift_bind fun rpId _ => .lift_bind fun rpName _ =>
    .lift_bind fun userHandle _ => .lift_bind fun userName _ =>
    .lift_bind fun userDisplayName _ => .read fun s t h => ?_
  rw [h.culture]
  refine .lift_bind fun (pkcs8, coseKey) _ => .lift_bind fun authData _ => ?_
  exact .bind (add_secret out _) fun _ _ _ => .pure rfl

theorem checkExcluded_alike {s t : Plugin} (h : PluginAlike P s t) (excludeList : List String) :
    checkExcluded P excludeList s = checkExcluded P excludeList t := by
  have same : (fun id => (s.findById P id).isSome) = fun id => (t.findById P id).isSome := by
    funext id
    obtain ⟨left, right⟩ | ⟨_, _, left, right, _⟩ := rel_cases (h.findById id)
    · rw [left, right]
    · rw [left, right]
      rfl
  rw [checkExcluded, same]
  rfl

theorem handleMakeCredentialRaw_secret (out : Outside) (params : Option JToken) :
    Secret P Eq (handleMakeCredentialRaw P out params) (handleMakeCredentialRaw P out params) := by
  refine .bind (receiveRaw_secret out params makeMethod) ?_
  rintro ⟨uv, cborBytes⟩ _ rfl
  refine .lift_bind fun req _ => .read fun s t h => ?_
  rw [checkExcluded_alike h, h.culture]
  refine .lift_bind fun _ _ => .lift_bind fun algId _ => .lift_bind fun (pkcs8, coseKey) _ =>
    .lift_bind fun authData _ => ?_
  exact .bind (add_secret out _) fun _ _ _ => .pure rfl

theorem selectCredential_alike {s t : Plugin} (h : PluginAlike P s t) (req : GetAssertionRequest) :
    SameOutcome (RecordAlike P) (selectCredential P req s) (selectCredential P req t) := by
  unfold selectCredential
  split_ifs
  · have found := h.findByRpId req.rpId
    cases left : s.findByRpId P req.rpId <;> cases right : t.findByRpId P req.rpId <;>
      rw [left, right] at found <;> cases found
    · exact .error _
    · rename_i alike _
      exact .ok alike
  · have found := findSome?_related (fun rawId => h.findById (Base64Url.encode rawId))
      req.allowListCredIds
    obtain ⟨left, right⟩ | ⟨r, u, left, right, alike⟩ := rel_cases found
    · rw [left, right]
      exact .error _
    · rw [left, right]
      exact .ok alike

theorem answerWith_secret (out : Outside) (req : GetAssertionRequest) (uv : Bool)
    {r u : PasskeyRecord} (alike : RecordAlike P r u) (newCount : ℕ) :
    Secret P Eq (answerWith P out req uv r newCount) (answerWith P out req uv u newCount) := by
  obtain ⟨same, key⟩ := alike
  rw [same] at key ⊢
  refine .bind (.lift key) fun a b alike => ?_
  refine .bind (signWithAlgorithm_secret out alike _ _) ?_
  rintro signature _ rfl
  refine .lift_bind fun rawCredIdBytes _ => ?_
  by_cases every : req.allowListCredIds = []
  · simp only [if_pos every]
    exact .lift_bind fun _ _ => .pure rfl
  · simp only [if_neg every]
    exact .lift_bind fun _ _ => .pure rfl

theorem handleGetAssertionRaw_secret (out : Outside) (params : Option JToken) :
    Secret P Eq (handleGetAssertionRaw P out params) (handleGetAssertionRaw P out params) := by
  refine .bind (receiveRaw_secret out params getMethod) ?_
  rintro ⟨uv, cborBytes⟩ _ rfl
  refine .lift_bind fun req _ => ?_
  have selects : Secret P Eq
      (do let selected ← lift (selectCredential P req (← get)); assertWith P out req uv selected)
      (do let selected ← lift (selectCredential P req (← get)); assertWith P out req uv selected) := by
    refine .read fun s t h => .bind (.lift (selectCredential_alike h req)) fun r u alike => ?_
    have id : u.credentialId = r.credentialId := by rw [alike.same]
    unfold assertWith
    rw [id]
    refine .bind (incrementSignCount_secret out _) ?_
    rintro newCount _ rfl
    exact answerWith_secret out req uv alike newCount
  exact .ite Iff.rfl (.bind (A := Eq) (.throw _) fun _ _ _ => selects) selects

theorem listCredentials_secret (params : Option JToken) :
    Secret P Eq (listCredentials P params) (listCredentials P params) := by
  refine .lift_bind fun obj _ => .lift_bind fun rpId _ => .read fun s t h => .pure ?_
  exact congrArg JToken.array (map_eq_of_related (R := RecordAlike P)
    (fun r u alike => by rw [alike.same]) (h.findByRpId rpId))

theorem enumerateForSync_secret : Secret P Eq (enumerateForSync P) (enumerateForSync P) := by
  refine .read fun s t h => .pure ?_
  exact congrArg JToken.array (map_eq_of_related (R := RecordAlike P)
    (fun r u alike => by rw [alike.same]) h.getAll)

theorem signAssertion_secret (out : Outside) (params : Option JToken) :
    Secret P Eq (signAssertion P out params) (signAssertion P out params) := by
  refine .lift_bind fun obj _ => .lift_bind fun credentialId _ => .lift_bind fun authDataB64 _ =>
    .lift_bind fun clientDataHashB64 _ => .read fun s t h => ?_
  obtain ⟨left, right⟩ | ⟨r, u, left, right, same, key⟩ := rel_cases (h.findById credentialId)
  · rw [left, right]
    exact .throw _
  · rw [left, right, same]
    rw [same] at key
    refine .lift_bind fun authDataBytes _ => .lift_bind fun clientDataHash _ => ?_
    refine .bind (.lift key) fun a b alike => ?_
    refine .bind (signWithAlgorithm_secret out alike _ _) ?_
    rintro signature _ rfl
    exact .pure rfl

theorem deleteCredential_secret (out : Outside) (params : Option JToken) :
    Secret P Eq (deleteCredential out params) (deleteCredential out params) := by
  refine .lift_bind fun obj _ => .lift_bind fun credentialId _ => ?_
  refine .bind (delete_secret out credentialId) ?_
  rintro deleted _ rfl
  exact .pure rfl

theorem dispatchMethod_secret (out : Outside) (method : String) (params : Option JToken) :
    Secret P Eq (dispatchMethod P out method params) (dispatchMethod P out method params) :=
  .ite Iff.rfl (createPasskey_secret out params) <|
  .ite Iff.rfl (listCredentials_secret params) <|
  .ite Iff.rfl (signAssertion_secret out params) <|
  .ite Iff.rfl (deleteCredential_secret out params) <|
  .ite Iff.rfl enumerateForSync_secret <|
  .ite Iff.rfl (handleMakeCredentialRaw_secret out params) <|
  .ite Iff.rfl (handleGetAssertionRaw_secret out params) (.throw _)

theorem handle_secret (out : Outside) (method : String) (params : Option JToken) :
    Secret P Eq (handle P out method params) (handle P out method params) := by
  have opens : Secret P Eq requireVaultOpen requireVaultOpen :=
    .read fun s t h => .ite (by rw [h.isVaultOpen]) (.throw _) (.pure rfl)
  refine .bind (.modify fun s t h => ?_) fun _ _ _ =>
    .bind opens fun _ _ _ => dispatchMethod_secret out method params
  exact { h with vaultCalls := congrArg (· + 1) h.vaultCalls }

abbrev SecretServing (P : Platform) (x y : Serving JToken) : Prop := Agree (SessionAlike P) Eq x y

theorem onPlugin_secret {α : Type} {x y : Vault α} (h : Secret P Eq x y) :
    Agree (SessionAlike P) Eq (onPlugin x) (onPlugin y) := by
  intro s t alike
  have plugins := h s.plugin t.plugin alike.plugin
  unfold onPlugin
  cases left : x s.plugin <;> cases right : y t.plugin <;> rw [left, right] at plugins <;>
    cases plugins
  · rename_i same plugin
    exact .ok same ⟨alike.context, plugin⟩
  · rename_i plugin
    exact .error _ ⟨alike.context, plugin⟩

theorem consumeNonce_secret (out : Outside) (nonce : String) :
    Secret P Eq (consumeNonce out nonce) (consumeNonce out nonce) := by
  have renews : Secret P Eq (initializeNonce out) (initializeNonce out) := by
    refine .bind (.modify fun s t h => { h with nonce := rfl }) fun _ _ _ => ?_
    cases out.registry with
    | some message => exact .throw _
    | none => exact .modify fun s t h => { h with registryNonce := rfl }
  refine .read fun s t h => .ite ?_ (.bind renews fun _ _ _ => .pure rfl) (.pure rfl)
  rw [matchesNonce, h.nonce]
  rfl

theorem greet_secret (hello : Hello) : SecretServing P (greet P hello) (greet P hello) := by
  refine .bind (.modify fun s t h => ⟨rfl, h.plugin⟩) fun _ _ _ => .lift_bind fun keyBytes _ =>
    .bind (.modify fun s t h => ⟨h.context, { h.plugin with opSignPubKey := rfl }⟩) fun _ _ _ =>
    .pure rfl

theorem handleHello_secret (out : Outside) (params : Option JToken) :
    SecretServing P (handleHello P out params) (handleHello P out params) := by
  refine .read fun s t h => .ite (by rw [h.context]) (.throw _) (.lift_bind fun hello _ => ?_)
  refine .bind (onPlugin_secret (consumeNonce_secret out hello.nonce)) ?_
  rintro accepted _ rfl
  exact .ite Iff.rfl (greet_secret hello) (.throw _)

theorem dispatch_secret (out : Outside) (request : JsonRpcRequest) :
    SecretServing P (dispatch P out request) (dispatch P out request) :=
  .ite Iff.rfl (handleHello_secret out request.params) <|
    .read fun s t h => .ite (by rw [h.context]) (.throw _)
      (onPlugin_secret (handle_secret out request.method request.params))

theorem respond_secret (out : Outside) (request : JsonRpcRequest) {s t : Session}
    (h : SessionAlike P s t) :
    (respond P out request s).1 = (respond P out request t).1 ∧
      SessionAlike P (respond P out request s).2 (respond P out request t).2 := by
  have outcomes := dispatch_secret out request s t h
  unfold respond
  cases left : dispatch P out request s <;> cases right : dispatch P out request t <;>
    rw [left, right] at outcomes <;> cases outcomes
  · rename_i same after
    exact ⟨by rw [same], after⟩
  · rename_i after
    exact ⟨rfl, after⟩

/-- What the two servers have answered over the present connection is the same. -/
structure ServerAlike (P : Platform) (s t : Server) : Prop where
  session : SessionAlike P s.session t.session
  exchanges : s.exchanges = t.exchanges

theorem receive_secret (out : Outside) (text : String) {s t : Server} (h : ServerAlike P s t) :
    ServerAlike P (s.receive P out text) (t.receive P out text) := by
  unfold Server.receive
  split_ifs
  · exact h
  · cases parseLine P text with
    | error response => exact h
    | ok request =>
      obtain ⟨response, after⟩ := respond_secret out request h.session
      refine ⟨after, ?_⟩
      change s.exchanges ++ [⟨request, (respond P out request s.session).1⟩] =
        t.exchanges ++ [⟨request, (respond P out request t.session).1⟩]
      rw [h.exchanges, response]

theorem groups_refl (groups : List PwGroup) : List.Forall₂ (GroupAlike P) groups groups :=
  List.forall₂_same.mpr fun _ _ => ⟨rfl, List.forall₂_same.mpr fun e _ => .refl e⟩

theorem PluginAlike.of_environment {s t s' : Plugin} (h : PluginAlike P s t) (owned : Owned s s') :
    ∃ t', Owned t t' ∧ PluginAlike P s' t' := by
  refine ⟨{ s' with keyUses := t.keyUses }, ⟨owned.opSignPubKey.trans h.opSignPubKey,
    owned.nonce.trans h.nonce, owned.vaultCalls.trans h.vaultCalls, rfl⟩, ?_, groups_refl _,
    rfl, rfl, rfl, rfl, rfl, rfl, rfl⟩
  change Option.Rel _ s'.database s'.database
  cases s'.database with
  | none => exact .none
  | some db => exact .some ⟨rfl, groups_refl _⟩

/-- Whatever happens to the one server can happen to the other, with the same answers. -/
theorem server_secret {s t s' : Server} {event : Event} (h : ServerAlike P s t)
    (hs : step P s event s') : ∃ t', step P t event t' ∧ ServerAlike P s' t' := by
  cases event with
  | connect =>
    obtain rfl := hs
    exact ⟨_, rfl, ⟨rfl, h.session.plugin⟩, rfl⟩
  | line out text =>
    obtain rfl := hs
    exact ⟨_, rfl, receive_secret out text h⟩
  | environment =>
    obtain ⟨context, exchanges, owned⟩ := hs
    obtain ⟨plugin, owned', alike⟩ := h.session.plugin.of_environment owned
    refine ⟨⟨⟨t.session.context, plugin⟩, t.exchanges⟩, ⟨rfl, rfl, owned'⟩,
      ⟨context.trans h.session.context, alike⟩, exchanges.trans h.exchanges⟩

end

/-- Two servers whose vaults differ in private keys that sign alike stay indistinguishable:
whatever one of them goes through, the other can go through with the same answers. -/
theorem keys_stay_inside (P : Platform) (s t : Server) (alike : ServerAlike P s t)
    (events : List Event) (s' : Server) (run : Run (step P) s events s') :
    ∃ t', Run (step P) t events t' ∧ ServerAlike P s' t' := by
  have answer : ∀ s event s' t, ServerAlike P s t → step P s event s' →
      ∃ t', step P t event t' ∧ ServerAlike P s' t' := fun _ _ _ _ h hs => server_secret h hs
  exact run.matched answer alike

namespace Sample

def keyB64 : String := toBase64String VaultOutcomes.Sample.opSignPubKey

/-- The same key as CNG exports it, with its usage as an attribute. -/
def attributedPkcs8 : Bytes :=
  [0x30, 0x81, 0x96] ++ VaultOutcomes.Sample.credentialPkcs8.drop 3 ++
    bigEndian 15 0xa00d300b0603551d0f310403020080

/-- A key is imported from either encoding, and from no other. -/
def ecdsaSignData (pkcs8 data : Bytes) : Except String Bytes :=
  if pkcs8 = VaultOutcomes.Sample.credentialPkcs8 ∨ pkcs8 = attributedPkcs8 then
    .ok (if data = VaultOutcomes.Sample.signInput then VaultOutcomes.Sample.credentialSignature
      else VaultOutcomes.Sample.otherSignature)
  else .error "ASN1 bad tag value met."

def platform : Platform :=
  { VaultOutcomes.Sample.platform [(helloLine keyB64, helloRequest keyB64),
      (listLine, listRequest), (loginLine, loginRequest)] with
    ecdsaSignData pkcs8 _ data := ecdsaSignData pkcs8 data
    ecdsaSignData_width := by
      intro _ _ data signature h
      unfold ecdsaSignData at h
      split_ifs at h with known signs
      · rw [← Except.ok.inj h]
        exact VaultOutcomes.Sample.halves_of_length (bigEndian_length _ _)
      · rw [← Except.ok.inj h]
        exact VaultOutcomes.Sample.halves_of_length (by simp [VaultOutcomes.Sample.otherSignature]) }

def record (pkcs8 : Bytes) : PasskeyRecord :=
  { VaultOutcomes.Sample.record "example.com" with privateKeyPkcs8 := toBase64String pkcs8 }

def server (pkcs8 : Bytes) : Server :=
  Server.start { VaultOutcomes.Sample.plugin with
    database := some ⟨true, [⟨groupName, [recordToEntry platform invariant (record pkcs8)]⟩]⟩ }

def events : List Event :=
  [.connect, .line VaultOutcomes.Sample.outside (helloLine keyB64),
    .line VaultOutcomes.Sample.outside listLine, .line VaultOutcomes.Sample.outside loginLine]

def after (pkcs8 : Bytes) : Server :=
  (((server pkcs8).connect.receive platform VaultOutcomes.Sample.outside (helloLine keyB64)).receive
    platform VaultOutcomes.Sample.outside listLine).receive platform VaultOutcomes.Sample.outside
      loginLine

theorem signAlike : SignAlike platform VaultOutcomes.Sample.credentialPkcs8 attributedPkcs8 where
  ecdsa entropy data := by simp [platform, ecdsaSignData]
  rsa _ := rfl

theorem alike {a b : Bytes} (same : SignAlike platform a b) :
    ServerAlike platform (server a) (server b) := by
  have keys : KeysAlike platform (toBase64String a) (toBase64String b) := by
    unfold KeysAlike
    rw [fromBase64String_toBase64String, fromBase64String_toBase64String]
    exact .ok same
  have entry : EntryAlike platform (recordToEntry platform invariant (record a))
      (recordToEntry platform invariant (record b)) := ⟨rfl, rfl, rfl, keys⟩
  exact ⟨⟨rfl, .some ⟨rfl, .cons ⟨rfl, .cons entry .nil⟩ .nil⟩, .nil, rfl, rfl, rfl, rfl, rfl, rfl,
    rfl⟩, rfl⟩

theorem visible_list : isBlank listLine = false := by
  unfold listLine
  refine isBlank_append ?_ _
  decide +kernel

theorem visible_login : isBlank loginLine = false := by
  unfold loginLine
  refine isBlank_append (isBlank_append (isBlank_append (isBlank_append ?_ _) _) _) _
  decide +kernel

theorem after_eq (pkcs8 : Bytes) : after pkcs8 =
    (((server pkcs8).connect.answer platform VaultOutcomes.Sample.outside
      (helloRequest keyB64)).answer platform VaultOutcomes.Sample.outside listRequest).answer
        platform VaultOutcomes.Sample.outside loginRequest := by
  have listed : (listLine == helloLine keyB64) = false := by decide +kernel
  have logs : (loginLine == helloLine keyB64) = false ∧ (loginLine == listLine) = false := by
    decide +kernel
  have hello : parseLine platform (helloLine keyB64) = .ok (helloRequest keyB64) := by
    simp [parseLine, platform, VaultOutcomes.Sample.platform, helloRequest, helloMethod]
  have list : parseLine platform listLine = .ok listRequest := by
    simp [parseLine, platform, VaultOutcomes.Sample.platform, List.lookup_cons, listed, listRequest]
  have login : parseLine platform loginLine = .ok loginRequest := by
    simp [parseLine, platform, VaultOutcomes.Sample.platform, List.lookup_cons, logs, loginRequest,
      getMethod]
  rw [after, Server.receive_request _ (visible_hello keyB64) hello,
    Server.receive_request _ visible_list list,
    Server.receive_request _ visible_login login]

end Sample

/-- A client greets, lists the passkeys and has an assertion signed; the vaults hold two encodings
of one key. -/
theorem keys_stay_inside_sample : ∃ t',
    Run (step Sample.platform) (Sample.server VaultOutcomes.Sample.credentialPkcs8) Sample.events
      (Sample.after VaultOutcomes.Sample.credentialPkcs8) ∧
    (Sample.after VaultOutcomes.Sample.credentialPkcs8).exchanges.map
      (fun x => x.response.succeeded) = [true, true, true] ∧
    Run (step Sample.platform) (Sample.server Sample.attributedPkcs8) Sample.events t' ∧
    ServerAlike Sample.platform (Sample.after VaultOutcomes.Sample.credentialPkcs8) t' := by
  have run : Run (step Sample.platform) (Sample.server VaultOutcomes.Sample.credentialPkcs8)
      Sample.events (Sample.after VaultOutcomes.Sample.credentialPkcs8) := by
    unfold Sample.after Sample.events
    exact .cons rfl (.cons rfl (.cons rfl (.cons rfl (.nil _))))
  obtain ⟨t', other, alike⟩ := keys_stay_inside _ _ _
    (Sample.alike Sample.signAlike) _ _ run
  refine ⟨t', run, ?_, other, alike⟩
  rw [Sample.after_eq]
  decide +kernel

end KeePassKeyWin.KeySecrecy
