import KeePassKeyWin.CredentialEncodings
import KeePassKeyWin.FirstMatch
import KeePassKeyWin.OutcomeRules

set_option autoImplicit false

/-!
# `KeePassPasskeyStore`

Passkey records as entries of the first group called "Passkeys" of the open
KeePass database. The plugin's state is the database in memory, the file it was
last saved to, and what the gates and the handshake keep.
-/
namespace KeePassKeyWin.PasskeyStore
open ByteStrings JsonRpc NumberFormat PlatformServices FirstMatch OutcomeRules

structure PasskeyRecord where
  credentialId : String
  rpId : String
  rpName : String
  userHandle : String
  userName : String
  userDisplayName : String
  algId : ℤ
  privateKeyPkcs8 : String
  publicKeyCose : Bytes
  transports : String
  flags : String
  creationTime : DateTime
  lastUsedTime : DateTime
  signCount : ℕ

structure PwEntry where
  strings : List (String × String)
  customData : List (String × String)
  binaries : List (String × Bytes)

structure PwGroup where
  name : String
  entries : List PwEntry

/-- `groups` are the groups right below the root group. -/
structure PwDatabase where
  isOpen : Bool
  groups : List PwGroup

structure UvFallbackPrompt where
  decided : Bool
  decision : Bool
  /-- How often the user was asked. -/
  asked : ℕ
  deriving DecidableEq

/-- `file` holds the groups of the last successful `Save`. `vaultCalls` and `keyUses` count
what happened: requests that reached `VaultHandler.Handle`, private keys that signed. -/
structure Plugin where
  database : Option PwDatabase
  file : List PwGroup
  opSignPubKey : Option Bytes
  uvFallbackPrompt : Option UvFallbackPrompt
  skipPluginSigVerify : Option String
  culture : NumberFormatInfo
  nonce : Option String
  registryNonce : Option String
  vaultCalls : ℕ
  keyUses : List Bytes

abbrev Vault := EStateM Exn Plugin

def groupName : String := "Passkeys"
def keyCredId : String := "KeePassKeyWin.credentialId"
def keyRpId : String := "KeePassKeyWin.rpId"
def keyRpName : String := "KeePassKeyWin.rpName"
def keyUserHandle : String := "KeePassKeyWin.userHandle"
def keyUserName : String := "KeePassKeyWin.userName"
def keyUserDisplay : String := "KeePassKeyWin.userDisplayName"
def keyPrivateKey : String := "KeePassKeyWin.privateKey"
def keyAlgId : String := "KeePassKeyWin.algId"
def keySignCount : String := "KeePassKeyWin.signCount"
def keyAaguid : String := "KeePassKeyWin.aaguid"
def keyTransports : String := "KeePassKeyWin.transports"
def keyFlags : String := "KeePassKeyWin.flags"
def keyCreated : String := "KeePassKeyWin.creationTime"
def keyLastUsed : String := "KeePassKeyWin.lastUsedTime"
def binPublicKey : String := "KeePassKeyWin.publicKey.cbor"

def Plugin.isVaultOpen (s : Plugin) : Bool :=
  match s.database with
  | some db => db.isOpen
  | none => false

def isPasskeys (g : PwGroup) : Bool := g.name == groupName

/-- `FindPasskeysGroup`. -/
def Plugin.findPasskeysGroup (s : Plugin) : Option PwGroup :=
  match s.database with
  | some db => if db.isOpen then db.groups.find? isPasskeys else none
  | none => none

def Plugin.entries (s : Plugin) : List PwEntry :=
  match s.findPasskeysGroup with
  | some g => g.entries
  | none => []

def PwEntry.credentialId (e : PwEntry) : Option String := e.strings.lookup keyCredId

def hasId (credentialId : String) (e : PwEntry) : Bool := e.credentialId == some credentialId

def hasRpId (rpId : String) (e : PwEntry) : Bool := e.strings.lookup keyRpId == some rpId

/-- The counter, read as both `EntryToRecord` and `IncrementSignCount` do. -/
def PwEntry.signCount (e : PwEntry) : ℕ := (uintTryParse (e.customData.lookup keySignCount)).getD 0

def entryToRecord (P : Platform) (culture : NumberFormatInfo) (e : PwEntry) : PasskeyRecord where
  credentialId := e.credentialId.getD ""
  rpId := (e.strings.lookup keyRpId).getD ""
  rpName := (e.strings.lookup keyRpName).getD ""
  userHandle := (e.strings.lookup keyUserHandle).getD ""
  userName := (e.strings.lookup keyUserName).getD ""
  userDisplayName := (e.strings.lookup keyUserDisplay).getD ""
  privateKeyPkcs8 := (e.strings.lookup keyPrivateKey).getD ""
  algId := (intTryParse culture (e.customData.lookup keyAlgId)).getD (-7)
  publicKeyCose := (e.binaries.lookup binPublicKey).getD []
  transports := (e.customData.lookup keyTransports).getD "internal"
  flags := (e.customData.lookup keyFlags).getD ""
  creationTime := ((e.customData.lookup keyCreated).bind P.dateTryParse).getD DateTime.minValue
  lastUsedTime := ((e.customData.lookup keyLastUsed).bind P.dateTryParse).getD DateTime.minValue
  signCount := e.signCount

/-- The entry that `Add` fills in. The counter starts at zero whatever the record says. -/
def recordToEntry (P : Platform) (culture : NumberFormatInfo) (r : PasskeyRecord) : PwEntry where
  strings := [(keyCredId, r.credentialId), (keyRpId, r.rpId), (keyRpName, r.rpName),
    (keyUserHandle, r.userHandle), (keyUserName, r.userName),
    (keyUserDisplay, r.userDisplayName), (keyPrivateKey, r.privateKeyPkcs8),
    ("Title", s!"{r.rpName} / {r.userDisplayName}")]
  customData := [(keyAlgId, intToString culture r.algId), (keySignCount, "0"),
    (keyAaguid, "00000000000000000000000000000000"), (keyTransports, r.transports),
    (keyFlags, r.flags), (keyCreated, P.dateToString r.creationTime),
    (keyLastUsed, P.dateToString r.lastUsedTime)]
  binaries := [(binPublicKey, r.publicKeyCose)]

def Plugin.mapGroups (f : List PwGroup → List PwGroup) (s : Plugin) : Plugin :=
  { s with database := s.database.map fun db => { db with groups := f db.groups } }

def Plugin.mapEntries (f : List PwEntry → List PwEntry) (s : Plugin) : Plugin :=
  s.mapGroups (modifyFirst isPasskeys fun g => { g with entries := f g.entries })

def ensurePasskeysGroup (groups : List PwGroup) : List PwGroup :=
  if groups.any isPasskeys then groups else groups ++ [⟨groupName, []⟩]

def Plugin.addEntry (e : PwEntry) (s : Plugin) : Plugin :=
  (s.mapGroups ensurePasskeysGroup).mapEntries (· ++ [e])

def nullReference : Exn := .other "Object reference not set to an instance of an object."

/-- `Database.Save(null)`: all of the database reaches the file, or none of it does. -/
def save (out : Outside) : Vault Unit := fun s =>
  match out.save, s.database with
  | some message, _ => .error (.other message) s
  | none, some db => .ok () { s with file := db.groups }
  | none, none => .error nullReference s

def add (P : Platform) (out : Outside) (record : PasskeyRecord) : Vault Unit := do
  let s ← get
  if s.database.isNone then throw nullReference
  modify (Plugin.addEntry (recordToEntry P s.culture record))
  save out

def Plugin.findByRpId (P : Platform) (s : Plugin) (rpId : String) : List PasskeyRecord :=
  (s.entries.filter (hasRpId rpId)).map (entryToRecord P s.culture)

def Plugin.findById (P : Platform) (s : Plugin) (credentialId : String) : Option PasskeyRecord :=
  (s.entries.find? (hasId credentialId)).map (entryToRecord P s.culture)

def Plugin.getAll (P : Platform) (s : Plugin) : List PasskeyRecord :=
  s.entries.map (entryToRecord P s.culture)

def delete (out : Outside) (credentialId : String) : Vault Bool := do
  let s ← get
  if s.entries.any (hasId credentialId) then
    modify (Plugin.mapEntries (List.eraseP (hasId credentialId)))
    save out
    return true
  return false

def uintMaxValue : ℕ := 2 ^ 32 - 1

def PwEntry.setSignCount (next : ℕ) (e : PwEntry) : PwEntry :=
  { e with customData := setKey keySignCount (intToString invariant next) e.customData }

/-- The value that the credential counts to next. -/
def nextSignCount (credentialId : String) (s : Plugin) : Except Exn ℕ :=
  if s.findPasskeysGroup.isNone then
    .error (.other s!"Vault is closed or no Passkeys group exists; cannot increment signCount for {credentialId}.")
  else
    match s.entries.find? (hasId credentialId) with
    | none => .error (.other s!"Credential not found: {credentialId}")
    | some target =>
      let current := target.signCount
      if current = uintMaxValue then
        .error (.other s!"signCount overflow for credential {credentialId} (already at uint.MaxValue).")
      else .ok (current + 1)

def Plugin.counted (credentialId : String) (next : ℕ) (s : Plugin) : Plugin :=
  s.mapEntries (modifyFirst (hasId credentialId) (PwEntry.setSignCount next))

def incrementSignCount (out : Outside) (credentialId : String) : Vault ℕ := do
  let next ← lift (nextSignCount credentialId (← get))
  modify (Plugin.counted credentialId next)
  save out
  return next

theorem entries_eq (s : Plugin) (db : PwDatabase) (hdb : s.database = some db)
    (hopen : db.isOpen = true) :
    s.entries = match db.groups.find? isPasskeys with
      | some g => g.entries
      | none => [] := by
  simp [Plugin.entries, Plugin.findPasskeysGroup, hdb, hopen]

theorem entries_mapGroups (f : List PwGroup → List PwGroup) {s : Plugin} {db : PwDatabase}
    (hdb : s.database = some db) (hopen : db.isOpen = true) :
    (s.mapGroups f).entries = match (f db.groups).find? isPasskeys with
      | some g => g.entries
      | none => [] :=
  entries_eq (s.mapGroups f) { db with groups := f db.groups } (by simp [Plugin.mapGroups, hdb])
    hopen

theorem open_database {s : Plugin} (h : s.isVaultOpen = true) :
    ∃ db, s.database = some db ∧ db.isOpen = true := by
  cases hdb : s.database with
  | none => simp [Plugin.isVaultOpen, hdb] at h
  | some db => exact ⟨db, rfl, by simpa [Plugin.isVaultOpen, hdb] using h⟩

theorem entries_of_closed {s : Plugin} (h : s.isVaultOpen = false) : s.entries = [] := by
  cases hdb : s.database with
  | none => simp [Plugin.entries, Plugin.findPasskeysGroup, hdb]
  | some db =>
    have closed : db.isOpen = false := by simpa [Plugin.isVaultOpen, hdb] using h
    simp [Plugin.entries, Plugin.findPasskeysGroup, hdb, closed]

@[simp] theorem isVaultOpen_mapGroups (f : List PwGroup → List PwGroup) (s : Plugin) :
    (s.mapGroups f).isVaultOpen = s.isVaultOpen := by
  cases h : s.database <;> simp [Plugin.mapGroups, Plugin.isVaultOpen, h]

theorem isPasskeys_entries (f : List PwEntry → List PwEntry) (g : PwGroup) :
    isPasskeys { g with entries := f g.entries } = isPasskeys g := rfl

theorem entries_mapEntries_of_open (f : List PwEntry → List PwEntry) {s : Plugin} {db : PwDatabase}
    (hdb : s.database = some db) (hopen : db.isOpen = true)
    (h : f [] = [] ∨ db.groups.find? isPasskeys ≠ none) :
    (s.mapEntries f).entries = f s.entries := by
  rw [entries_eq s db hdb hopen, Plugin.mapEntries, entries_mapGroups _ hdb hopen,
    find?_modifyFirst (isPasskeys_entries f)]
  cases hg : db.groups.find? isPasskeys with
  | none => exact (h.resolve_right fun hne => hne hg).symm
  | some g => rfl

theorem entries_mapEntries {f : List PwEntry → List PwEntry} (hf : f [] = []) (s : Plugin) :
    (s.mapEntries f).entries = f s.entries := by
  cases hopen : s.isVaultOpen with
  | false => rw [entries_of_closed hopen, hf, entries_of_closed (by simp [Plugin.mapEntries, hopen])]
  | true =>
    obtain ⟨db, hdb, hdbOpen⟩ := open_database hopen
    exact entries_mapEntries_of_open f hdb hdbOpen (.inl hf)

theorem find?_ensurePasskeysGroup (groups : List PwGroup) :
    (ensurePasskeysGroup groups).find? isPasskeys =
      some ((groups.find? isPasskeys).getD ⟨groupName, []⟩) := by
  cases h : groups.find? isPasskeys with
  | none =>
    have hany : groups.any isPasskeys = false := by
      rw [List.any_eq_false]
      exact List.find?_eq_none.mp h
    rw [ensurePasskeysGroup, hany, if_neg (by simp), find?_append_of_none h]
    rfl
  | some g =>
    have hany : groups.any isPasskeys = true :=
      List.any_eq_true.mpr ⟨g, List.mem_of_find?_eq_some h, List.find?_some h⟩
    rw [ensurePasskeysGroup, hany, if_pos rfl, h]
    rfl

theorem entries_addEntry (e : PwEntry) {s : Plugin} (hopen : s.isVaultOpen = true) :
    (s.addEntry e).entries = s.entries ++ [e] := by
  obtain ⟨db, hdb, hdbOpen⟩ := open_database hopen
  have ensured : (s.mapGroups ensurePasskeysGroup).entries = s.entries := by
    rw [entries_eq s db hdb hdbOpen, entries_mapGroups _ hdb hdbOpen, find?_ensurePasskeysGroup]
    cases db.groups.find? isPasskeys <;> rfl
  rw [← ensured]
  have hdb' : (s.mapGroups ensurePasskeysGroup).database =
      some { db with groups := ensurePasskeysGroup db.groups } := by
    simp only [Plugin.mapGroups, hdb, Option.map_some]
  refine entries_mapEntries_of_open (· ++ [e]) hdb' hdbOpen (.inr ?_)
  rw [find?_ensurePasskeysGroup]
  simp

/-- Everything but the database and the file is as it was, and the vault is as open. -/
structure Frame (s t : Plugin) : Prop where
  isVaultOpen : t.isVaultOpen = s.isVaultOpen
  opSignPubKey : t.opSignPubKey = s.opSignPubKey
  uvFallbackPrompt : t.uvFallbackPrompt = s.uvFallbackPrompt
  skipPluginSigVerify : t.skipPluginSigVerify = s.skipPluginSigVerify
  culture : t.culture = s.culture
  nonce : t.nonce = s.nonce
  registryNonce : t.registryNonce = s.registryNonce
  vaultCalls : t.vaultCalls = s.vaultCalls
  keyUses : t.keyUses = s.keyUses

theorem Frame.refl (s : Plugin) : Frame s s := ⟨rfl, rfl, rfl, rfl, rfl, rfl, rfl, rfl, rfl⟩

theorem Frame.trans (s t u : Plugin) (h : Frame s t) (h' : Frame t u) : Frame s u :=
  ⟨h'.isVaultOpen.trans h.isVaultOpen, h'.opSignPubKey.trans h.opSignPubKey,
    h'.uvFallbackPrompt.trans h.uvFallbackPrompt,
    h'.skipPluginSigVerify.trans h.skipPluginSigVerify, h'.culture.trans h.culture,
    h'.nonce.trans h.nonce, h'.registryNonce.trans h.registryNonce,
    h'.vaultCalls.trans h.vaultCalls, h'.keyUses.trans h.keyUses⟩

theorem frame_mapGroups (f : List PwGroup → List PwGroup) (s : Plugin) :
    Frame s (s.mapGroups f) :=
  ⟨isVaultOpen_mapGroups f s, rfl, rfl, rfl, rfl, rfl, rfl, rfl, rfl⟩

theorem frame_mapEntries (f : List PwEntry → List PwEntry) (s : Plugin) :
    Frame s (s.mapEntries f) := frame_mapGroups _ s

theorem frame_addEntry (e : PwEntry) (s : Plugin) : Frame s (s.addEntry e) :=
  (frame_mapGroups _ s).trans _ _ _ (frame_mapEntries _ _)

/-- The file holds what the database holds. -/
def Plugin.saved (s : Plugin) : Plugin :=
  match s.database with
  | some db => { s with file := db.groups }
  | none => s

@[simp] theorem saved_database (s : Plugin) : s.saved.database = s.database := by
  cases h : s.database <;> simp [Plugin.saved, h]

@[simp] theorem saved_entries (s : Plugin) : s.saved.entries = s.entries := by
  simp [Plugin.entries, Plugin.findPasskeysGroup]

theorem frame_saved (s : Plugin) : Frame s s.saved := by
  cases h : s.database with
  | none => simpa [Plugin.saved, h] using Frame.refl s
  | some db =>
    simp only [Plugin.saved, h]
    exact ⟨by simp [Plugin.isVaultOpen, h], rfl, rfl, rfl, rfl, rfl, rfl, rfl, rfl⟩

theorem save_ok {out : Outside} {s s' : Plugin} {u : Unit} :
    save out s = .ok u s' ↔ out.save = none ∧ s.database.isSome ∧ s' = s.saved := by
  cases hs : out.save <;> cases hd : s.database <;>
    simp [save, Plugin.saved, hs, hd, eq_comm]

theorem save_final (out : Outside) (s : Plugin) :
    final (save out s) = s ∨ final (save out s) = s.saved := by
  cases hs : out.save <;> cases hd : s.database <;> simp [save, Plugin.saved, hs, hd]

theorem save_entries (out : Outside) (s : Plugin) :
    (final (save out s)).entries = s.entries ∧ Frame s (final (save out s)) := by
  rcases save_final out s with h | h
  · rw [h]
    exact ⟨rfl, Frame.refl s⟩
  · rw [h]
    exact ⟨saved_entries s, frame_saved s⟩

theorem add_eq (P : Platform) (out : Outside) (r : PasskeyRecord) (s : Plugin) :
    add P out r s = if s.database.isNone then .error nullReference s
      else save out (s.addEntry (recordToEntry P s.culture r)) := by
  simp only [add, get_bind, ite_run, throw_bind, modify_bind]

theorem add_ok {P : Platform} {out : Outside} {r : PasskeyRecord} {s s' : Plugin} {u : Unit} :
    add P out r s = .ok u s' ↔ out.save = none ∧ s.database.isSome = true ∧
      s' = (s.addEntry (recordToEntry P s.culture r)).saved := by
  rw [add_eq]
  cases hdb : s.database with
  | none => simp
  | some db =>
    simp [save_ok, Plugin.addEntry, Plugin.mapEntries, Plugin.mapGroups, hdb]

theorem delete_eq (out : Outside) (credentialId : String) (s : Plugin) :
    delete out credentialId s =
      if s.entries.any (hasId credentialId) then
        (save out >>= fun _ => pure true) (s.mapEntries (List.eraseP (hasId credentialId)))
      else .ok false s := by
  simp only [delete, get_bind, ite_run, modify_bind, pure_apply]

theorem delete_ok {out : Outside} {credentialId : String} {s s' : Plugin} {b : Bool} :
    delete out credentialId s = .ok b s' ↔
      if s.entries.any (hasId credentialId) then
        b = true ∧ out.save = none ∧
          s' = (s.mapEntries (List.eraseP (hasId credentialId))).saved
      else b = false ∧ s' = s := by
  rw [delete_eq]
  split_ifs with h
  · have hdb : s.database.isSome = true := by
      cases hd : s.database with
      | none => simp [Plugin.entries, Plugin.findPasskeysGroup, hd] at h
      | some db => rfl
    simp only [bind_ok, save_ok, pure_ok, Plugin.mapEntries, Plugin.mapGroups, Option.isSome_map,
      hdb]
    constructor
    · rintro ⟨_, _, ⟨hs, _, rfl⟩, rfl, rfl⟩
      exact ⟨rfl, hs, rfl⟩
    · rintro ⟨rfl, hs, rfl⟩
      exact ⟨(), _, ⟨hs, trivial, rfl⟩, rfl, rfl⟩
  · simp only [EStateM.Result.ok.injEq]
    exact ⟨fun ⟨hb, hs⟩ => ⟨hb.symm, hs.symm⟩, fun ⟨hb, hs⟩ => ⟨hb.symm, hs.symm⟩⟩

theorem group_of_entry {s : Plugin} {p : PwEntry → Bool} {e : PwEntry}
    (h : s.entries.find? p = some e) :
    s.findPasskeysGroup.isNone = false ∧ s.database.isSome = true := by
  cases hg : s.findPasskeysGroup with
  | none => simp [Plugin.entries, hg] at h
  | some g =>
    cases hd : s.database with
    | none => simp [Plugin.findPasskeysGroup, hd] at hg
    | some db => exact ⟨rfl, rfl⟩

theorem nextSignCount_ok {credentialId : String} {s : Plugin} {n : ℕ} :
    nextSignCount credentialId s = .ok n ↔ ∃ e, s.entries.find? (hasId credentialId) = some e ∧
      e.signCount ≠ uintMaxValue ∧ n = e.signCount + 1 := by
  cases h : s.entries.find? (hasId credentialId) with
  | none =>
    simp only [nextSignCount, h, reduceCtorEq, false_and, exists_false, iff_false]
    split_ifs <;> simp
  | some e =>
    simp only [nextSignCount, h, (group_of_entry h).1, Bool.false_eq_true, if_false,
      Option.some.injEq, exists_eq_left']
    split_ifs with hmax
    · simp [hmax]
    · simp [hmax, eq_comm]

theorem nextSignCount_error {credentialId : String} {s : Plugin} {e : Exn}
    (h : nextSignCount credentialId s = .error e) : ∃ message, e = .other message := by
  unfold nextSignCount at h
  split_ifs at h
  · exact ⟨_, (Except.error.inj h).symm⟩
  · split at h
    · exact ⟨_, (Except.error.inj h).symm⟩
    · dsimp only at h
      split_ifs at h
      exact ⟨_, (Except.error.inj h).symm⟩

theorem incrementSignCount_of_error {out : Outside} {credentialId : String} {s : Plugin} {e : Exn}
    (h : nextSignCount credentialId s = .error e) :
    incrementSignCount out credentialId s = .error e s := by
  rw [incrementSignCount, get_bind, h]
  rfl

theorem incrementSignCount_of_next {out : Outside} {credentialId : String} {s : Plugin} {n : ℕ}
    (h : nextSignCount credentialId s = .ok n) :
    incrementSignCount out credentialId s =
      (save out >>= fun _ => pure n) (s.counted credentialId n) := by
  rw [incrementSignCount, get_bind, h]
  rfl

theorem counted_database (credentialId : String) {s : Plugin} (next : ℕ) :
    (s.counted credentialId next).database.isSome = s.database.isSome := by
  simp [Plugin.counted, Plugin.mapEntries, Plugin.mapGroups]

theorem incrementSignCount_ok {out : Outside} {credentialId : String} {s s' : Plugin} {n : ℕ} :
    incrementSignCount out credentialId s = .ok n s' ↔
      ∃ e, s.entries.find? (hasId credentialId) = some e ∧ e.signCount ≠ uintMaxValue ∧
        n = e.signCount + 1 ∧ out.save = none ∧
          s' = (s.counted credentialId (e.signCount + 1)).saved := by
  cases h : nextSignCount credentialId s with
  | error e =>
    rw [incrementSignCount_of_error h]
    simp only [reduceCtorEq, false_iff, not_exists, not_and]
    intro entry hfind hmax
    rw [nextSignCount_ok.mpr ⟨entry, hfind, hmax, rfl⟩] at h
    cases h
  | ok next =>
    obtain ⟨e, hfind, hmax, rfl⟩ := nextSignCount_ok.mp h
    have hdb := (counted_database credentialId (e.signCount + 1)).trans
      (group_of_entry hfind).2
    rw [incrementSignCount_of_next h]
    simp only [bind_ok, save_ok, pure_ok, hdb]
    constructor
    · rintro ⟨_, _, ⟨hs, _, rfl⟩, rfl, rfl⟩
      exact ⟨e, hfind, hmax, rfl, hs, rfl⟩
    · rintro ⟨e', hfind', _, rfl, hs, rfl⟩
      obtain rfl := Option.some.inj (hfind.symm.trans hfind')
      exact ⟨(), _, ⟨hs, trivial, rfl⟩, rfl, rfl⟩

theorem signCount_lt (e : PwEntry) : e.signCount < 2 ^ 32 := by
  unfold PwEntry.signCount
  cases h : uintTryParse (e.customData.lookup keySignCount) with
  | none => simp
  | some n => simpa using uintTryParse_lt h

theorem next_lt {e : PwEntry} (h : e.signCount ≠ uintMaxValue) : e.signCount + 1 < 2 ^ 32 := by
  have := signCount_lt e
  simp only [uintMaxValue] at h
  omega

theorem save_then (out : Outside) {α : Type} (a : α) (s : Plugin) :
    (final ((save out >>= fun _ => pure a) s)).entries = s.entries ∧
      Frame s (final ((save out >>= fun _ => pure a) s)) := by
  have kept := save_entries out s
  cases h : save out s with
  | ok u t =>
    rw [bind_of_ok h]
    simpa [h] using kept
  | error e t =>
    rw [bind_of_error h]
    simpa [h] using kept

theorem add_final (P : Platform) (out : Outside) (r : PasskeyRecord) {s : Plugin}
    (hopen : s.isVaultOpen = true) :
    (final (add P out r s)).entries = s.entries ++ [recordToEntry P s.culture r] ∧
      Frame s (final (add P out r s)) := by
  obtain ⟨db, hdb, _⟩ := open_database hopen
  have kept := save_entries out (s.addEntry (recordToEntry P s.culture r))
  rw [add_eq, hdb]
  exact ⟨kept.1.trans (entries_addEntry _ hopen), (frame_addEntry _ _).trans _ _ _ kept.2⟩

theorem delete_final (out : Outside) (credentialId : String) (s : Plugin) :
    (final (delete out credentialId s)).entries = s.entries.eraseP (hasId credentialId) ∧
      Frame s (final (delete out credentialId s)) := by
  rw [delete_eq]
  split_ifs with h
  · have kept := save_then out true (s.mapEntries (List.eraseP (hasId credentialId)))
    exact ⟨kept.1.trans (entries_mapEntries rfl s), (frame_mapEntries _ _).trans _ _ _ kept.2⟩
  · have none : ∀ e ∈ s.entries, ¬ hasId credentialId e = true := by simpa using h
    exact ⟨(List.eraseP_of_forall_not none).symm, Frame.refl s⟩

theorem incrementSignCount_final (out : Outside) (credentialId : String) (s : Plugin) :
    ((final (incrementSignCount out credentialId s)).entries = s.entries ∨
      ∃ next < 2 ^ 32, (final (incrementSignCount out credentialId s)).entries =
        modifyFirst (hasId credentialId) (PwEntry.setSignCount next) s.entries) ∧
      Frame s (final (incrementSignCount out credentialId s)) := by
  cases h : nextSignCount credentialId s with
  | error e =>
    rw [incrementSignCount_of_error h]
    exact ⟨.inl rfl, Frame.refl s⟩
  | ok next =>
    obtain ⟨e, _, hmax, rfl⟩ := nextSignCount_ok.mp h
    have kept := save_then out (e.signCount + 1) (s.counted credentialId (e.signCount + 1))
    rw [incrementSignCount_of_next h]
    exact ⟨.inr ⟨e.signCount + 1, next_lt hmax, kept.1.trans (entries_mapEntries rfl s)⟩,
      (frame_mapEntries _ _).trans _ _ _ kept.2⟩

theorem signCount_setSignCount {n : ℕ} (hn : n < 2 ^ 32) (e : PwEntry) :
    (e.setSignCount n).signCount = n := by
  simp [PwEntry.signCount, PwEntry.setSignCount, uintTryParse_intToString hn]

@[simp] theorem hasId_setSignCount (credentialId : String) (n : ℕ) (e : PwEntry) :
    hasId credentialId (e.setSignCount n) = hasId credentialId e := rfl

theorem entryToRecord_setSignCount (P : Platform) (culture : NumberFormatInfo) {n : ℕ}
    (hn : n < 2 ^ 32) (e : PwEntry) :
    entryToRecord P culture (e.setSignCount n) =
      { entryToRecord P culture e with signCount := n } := by
  have other : ∀ key ≠ keySignCount,
      (e.setSignCount n).customData.lookup key = e.customData.lookup key := fun key hk =>
    lookup_setKey_of_ne hk _ _
  simp only [entryToRecord, other keyAlgId (by decide), other keyTransports (by decide),
    other keyFlags (by decide), other keyCreated (by decide), other keyLastUsed (by decide),
    signCount_setSignCount hn]
  rfl

@[simp] theorem signCount_recordToEntry (P : Platform) (culture : NumberFormatInfo)
    (r : PasskeyRecord) : (recordToEntry P culture r).signCount = 0 := by
  have zero : uintTryParse (some "0") = some 0 := uintTryParse_intToString (n := 0) (by omega)
  simp [PwEntry.signCount, recordToEntry, List.lookup_cons, keyAlgId, keySignCount, zero]

theorem entryToRecord_across (P : Platform) (written read : NumberFormatInfo)
    (r : PasskeyRecord) : entryToRecord P read (recordToEntry P written r) =
      { r with
        algId := (intTryParse read (some (intToString written r.algId))).getD (-7)
        signCount := 0 } := by
  simp only [entryToRecord, signCount_recordToEntry]
  simp [recordToEntry, PwEntry.credentialId, List.lookup_cons, keyCredId, keyRpId, keyRpName,
    keyUserHandle, keyUserName, keyUserDisplay, keyPrivateKey, keyAlgId, keySignCount,
    keyTransports, keyFlags, keyCreated, keyLastUsed, keyAaguid, binPublicKey,
    P.dateTryParse_dateToString]

/-- What `Add` writes, `EntryToRecord` reads, where the number format reads back what it
wrote. -/
theorem entryToRecord_recordToEntry (P : Platform) {culture : NumberFormatInfo}
    {r : PasskeyRecord}
    (h : intTryParse culture (some (intToString culture r.algId)) = some r.algId) :
    entryToRecord P culture (recordToEntry P culture r) = { r with signCount := 0 } := by
  rw [entryToRecord_across, h]
  rfl

end KeePassKeyWin.PasskeyStore
