import KeePassKeyWin.CountingThreads

set_option autoImplicit false

/-!
# The counter of one credential

Seen from one credential, every step of the callers and of the database is a move of a counter
that is stored before it is handed out, as long as no `Save` succeeds for an entry that a
reopened database has left behind.
-/
namespace KeePassKeyWin.CounterSafety
open ByteStrings JsonRpc OutcomeRules PlatformServices FirstMatch CborCodec CredentialEncodings
open AuthDataBuilder PasskeyStore VaultGates CtapRequests VaultHandler VaultResponses
open CredentialSelection VaultOutcomes VaultRuns DurableCounter CountingThreads TransitionRuns

def UniqueIds (xs : List PwEntry) : Prop := (xs.filterMap PwEntry.credentialId).Nodup

def value (id : String) (xs : List PwEntry) : Option ℕ := (xs.find? (hasId id)).map PwEntry.signCount

section
variable {xs : List PwEntry} {e : PwEntry} {id id' : String}

theorem hasId_other (h : id' ≠ id) (he : hasId id' e = true) : hasId id e = false := by
  rw [Bool.eq_false_iff, ne_eq, hasId_iff, hasId_iff.mp he, Option.some.injEq]
  exact h

theorem mem_ids (he : e ∈ xs) (hid : e.credentialId = some id) :
    id ∈ xs.filterMap PwEntry.credentialId := List.mem_filterMap.mpr ⟨e, he, hid⟩

theorem value_eq_none (absent : id ∉ xs.filterMap PwEntry.credentialId) : value id xs = none := by
  have missed : xs.find? (hasId id) = none :=
    List.find?_eq_none.mpr fun e he found => absent (mem_ids he (hasId_iff.mp found))
  rw [value, missed, Option.map_none]

theorem value_append_new (hid : e.credentialId = some id)
    (absent : id ∉ xs.filterMap PwEntry.credentialId) : value id (xs ++ [e]) = some e.signCount := by
  have missed := Option.map_eq_none_iff.mp (value_eq_none absent)
  rw [value, find?_append_of_none missed, List.find?_cons, hasId_iff.mpr hid, Option.map_some]

theorem value_append_other (other : e.credentialId ≠ some id) :
    value id (xs ++ [e]) = value id xs := by
  have unseen : ¬ hasId id e = true := fun h => other (hasId_iff.mp h)
  rw [value, List.find?_append]
  simp [value, unseen]

theorem uniqueIds_append (unique : UniqueIds xs) (hid : e.credentialId = some id)
    (absent : id ∉ xs.filterMap PwEntry.credentialId) : UniqueIds (xs ++ [e]) := by
  unfold UniqueIds
  rw [List.filterMap_append, List.nodup_append]
  refine ⟨unique, by simp [hid], ?_⟩
  intro a ha b hb heq
  obtain rfl : b = id := by simpa [hid] using hb
  exact absent (heq ▸ ha)

theorem uniqueIds_eraseP (p : PwEntry → Bool) (unique : UniqueIds xs) : UniqueIds (xs.eraseP p) :=
  unique.sublist ((List.eraseP_sublist).filterMap _)

theorem value_erase_own (unique : UniqueIds xs) : value id (xs.eraseP (hasId id)) = none := by
  refine value_eq_none ?_
  induction xs with
  | nil => simp
  | cons x xs ih =>
    by_cases hx : hasId id x = true
    · rw [List.eraseP_cons_of_pos hx]
      unfold UniqueIds at unique
      rw [List.filterMap_cons_some (hasId_iff.mp hx)] at unique
      exact (List.nodup_cons.mp unique).1
    · rw [List.eraseP_cons_of_neg hx]
      have rest := ih (unique.sublist ((List.sublist_cons_self x xs).filterMap _))
      intro found
      obtain ⟨e, he, hid⟩ := List.mem_filterMap.mp found
      rcases List.mem_cons.mp he with rfl | he
      · exact hx (hasId_iff.mpr hid)
      · exact rest (mem_ids he hid)

theorem value_erase_other (h : id' ≠ id) : value id (xs.eraseP (hasId id')) = value id xs := by
  rw [value, find?_eraseP_of_ne fun _ => hasId_other h]
  rfl

theorem value_count_own {n : ℕ} (bounded : n < 2 ^ 32) :
    value id (modifyFirst (hasId id) (PwEntry.setSignCount n) xs) = (value id xs).map fun _ => n := by
  rw [value, find?_modifyFirst fun e => hasId_setSignCount id n e, Option.map_map, value,
    Option.map_map]
  congr 1
  funext e
  exact signCount_setSignCount bounded e

theorem value_count_other (h : id' ≠ id) (n : ℕ) :
    value id (modifyFirst (hasId id') (PwEntry.setSignCount n) xs) = value id xs := by
  have unseen : ∀ e, hasId id' e = true → hasId id (e.setSignCount n) = false :=
    fun _ he => hasId_other h he
  rw [value, find?_modifyFirst_of_ne (fun _ => hasId_other h) unseen]
  rfl

theorem ids_count (n : ℕ) :
    (modifyFirst (hasId id) (PwEntry.setSignCount n) xs).filterMap PwEntry.credentialId =
      xs.filterMap PwEntry.credentialId := by
  induction xs with
  | nil => rfl
  | cons x xs ih =>
    simp only [modifyFirst]
    split_ifs
    · rfl
    · rw [List.filterMap_cons, List.filterMap_cons, ih]

end

structure SameVault (s t : Plugin) : Prop where
  database : t.database = s.database
  file : t.file = s.file

section
variable {P : Platform} {out : Outside} {s t : Plugin}

theorem SameVault.refl (s : Plugin) : SameVault s s := ⟨rfl, rfl⟩

theorem SameVault.entries (h : SameVault s t) : t.entries = s.entries := by
  simp only [Plugin.entries, Plugin.findPasskeysGroup, h.database]

theorem SameVault.fileEntries (h : SameVault s t) :
    Plugin.fileEntries t = Plugin.fileEntries s := by
  simp only [Plugin.fileEntries, h.file]

theorem sameVault_prepare (params : Option JToken) :
    SameVault s (final (prepare P out params s)) := by
  rw [prepare, modify_bind]
  refine final_bind_keeps ?_ fun _ t h => ?_
  · unfold requireVaultOpen
    simp only [get_bind, ite_run, throw_apply, pure_apply]
    split_ifs <;> exact ⟨rfl, rfl⟩
  refine final_receiveRaw (Q := SameVault s) ⟨h.database, h.file⟩ fun _ => ?_
  refine final_lift_bind ⟨h.database, h.file⟩ fun req _ => ?_
  simp only [ite_run, throw_bind, get_bind]
  split_ifs
  · exact ⟨h.database, h.file⟩
  · exact final_lift_bind ⟨h.database, h.file⟩ fun selected _ => ⟨h.database, h.file⟩

theorem sameVault_answerWith (req : GetAssertionRequest) (uv : Bool) (selected : PasskeyRecord)
    (n : ℕ) : SameVault s (final (answerWith P out req uv selected n s)) := by
  refine final_lift_bind (.refl s) fun pkcs8 _ => ?_
  refine final_bind_keeps ?_ fun signature t h => ?_
  · unfold signWithAlgorithm
    by_cases halg : selected.algId = -7 ∨ selected.algId = -257
    · simp only [halg, if_true, modify_bind]
      cases signatureOf P out.entropy pkcs8 (buildAssertion P selected.rpId uv n ++
        req.clientDataHash) selected.algId <;> exact ⟨rfl, rfl⟩
    · simp only [halg, if_false, get_bind, throw_apply]
      exact .refl s
  refine final_lift_bind h fun rawId _ => ?_
  exact final_lift_bind h fun response _ => h

end

def issuedTo (id : String) (answered : List Answered) : List ℕ :=
  (answered.filter fun a => a.caller.credentialId == id).map Answered.count

/-- The value that the holder of the lock is about to hand out for this id. -/
def pendingFor (id : String) : Option (Caller × Stage) → Option ℕ
  | some (caller, .found _ n) => if caller.credentialId = id then some n else none
  | some (caller, .written _ n) => if caller.credentialId = id then some n else none
  | _ => none

def view (id : String) (s : Machine) : Counter where
  born := decide (id ∈ s.known)
  memory := value id s.plugin.entries
  stored := value id (Plugin.fileEntries s.plugin)
  pending := pendingFor id s.holder
  issued := issuedTo id s.answered

structure Consistent (s : Machine) : Prop where
  opened : ∀ db, s.plugin.database = some db → db.isOpen = true
  memory : UniqueIds s.plugin.entries
  file : UniqueIds (Plugin.fileEntries s.plugin)
  knownMemory : ∀ id ∈ s.plugin.entries.filterMap PwEntry.credentialId, id ∈ s.known
  knownFile : ∀ id ∈ (Plugin.fileEntries s.plugin).filterMap PwEntry.credentialId, id ∈ s.known
  found : ∀ caller opening n, s.holder = some (caller, .found opening n) →
    opening ≤ s.opening ∧ caller.credentialId ∈ s.known ∧ n < 2 ^ 32
  written : ∀ caller opening n, s.holder = some (caller, .written opening n) →
    opening ≤ s.opening ∧ caller.credentialId ∈ s.known ∧
      (opening = s.opening → ∀ m, value caller.credentialId s.plugin.entries = some m → m = n)

/-- A new credential has an id that the vault never had, and no `Save` succeeds for an entry
found before the database was opened again. -/
def Sane (s : Machine) (event : Event) : Prop :=
  match event with
  | .add record => record.credentialId ∉ s.known
  | .save out => ∀ caller opening n, s.holder = some (caller, .written opening n) →
      out.save = none → opening = s.opening
  | _ => True

/-- An opened file has this credential at its last value or not at all. -/
def OpensSpent (id : String) (s : Machine) (event : Event) : Prop :=
  match event with
  | .reopen => ∀ m, value id (Plugin.fileEntries s.plugin) = some m → m = uintMaxValue
  | _ => True

section
variable {P : Platform} {s t : Machine} {event : Event}

/-- The machine after the step is consistent, and each credential has made a move; a counter is
loaded by opening the database only. -/
structure Moves (s : Machine) (event : Event) (t : Machine) : Prop where
  consistent : Consistent t
  move : ∀ id, ∃ move, Step uintMaxValue (view id s) move (view id t) ∧
    (move = .load → event = .reopen)

theorem pendingFor_none (id : String) : pendingFor id none = none := rfl

theorem pendingFor_entered (id : String) (caller : Caller) :
    pendingFor id (some (caller, .entered)) = none := rfl

theorem consistent_same (h : Consistent s) (vault : SameVault s.plugin t.plugin)
    (known : t.known = s.known)
    (found : ∀ caller opening n, t.holder = some (caller, .found opening n) →
      opening ≤ t.opening ∧ caller.credentialId ∈ s.known ∧ n < 2 ^ 32)
    (written : ∀ caller opening n, t.holder = some (caller, .written opening n) →
      opening ≤ t.opening ∧ caller.credentialId ∈ s.known ∧
        (opening = t.opening → ∀ m, value caller.credentialId s.plugin.entries = some m → m = n)) :
    Consistent t := by
  refine ⟨?_, ?_, ?_, ?_, ?_, ?_, ?_⟩
  · exact fun db hdb => h.opened db (vault.database ▸ hdb)
  · exact vault.entries ▸ h.memory
  · exact vault.fileEntries ▸ h.file
  · rw [vault.entries, known]
    exact h.knownMemory
  · rw [vault.fileEntries, known]
    exact h.knownFile
  · rw [known]
    exact found
  · rw [known, vault.entries]
    exact written

theorem moves_idle (h : Consistent s) (vault : SameVault s.plugin t.plugin)
    (known : t.known = s.known) (answered : t.answered = s.answered)
    (idle : ∀ id, pendingFor id t.holder = none)
    (unfound : ∀ caller opening n, t.holder ≠ some (caller, .found opening n) ∧
      t.holder ≠ some (caller, .written opening n)) : Moves s event t := by
  refine ⟨consistent_same h vault known ?_ ?_, fun id => ⟨.giveUp, ?_, by simp⟩⟩
  · exact fun caller opening n found => absurd found (unfound caller opening n).1
  · exact fun caller opening n written => absurd written (unfound caller opening n).2
  · have same : view id t = { view id s with pending := none } := by
      simp only [view, vault.entries, vault.fileEntries, known, answered, idle]
    exact same ▸ .giveUp _

theorem moves_arrive (h : Consistent s) (out : Outside) (params : Option JToken) :
    Moves s event (s.arrive P out params) := by
  have vault : SameVault s.plugin (final (prepare P out params s.plugin)) := sameVault_prepare params
  have same : ∀ t : Machine, SameVault s.plugin t.plugin → t.known = s.known →
      t.opening = s.opening → t.holder = s.holder → t.answered = s.answered → Moves s event t := by
    intro t vault known opening holder answered
    refine ⟨consistent_same h vault known ?_ ?_, fun id => ⟨.stay, ?_, by simp⟩⟩
    · rw [opening, holder]
      exact h.found
    · rw [opening, holder]
      exact h.written
    · have same : view id t = view id s := by
        simp only [view, vault.entries, vault.fileEntries, known, answered, holder]
      exact same ▸ .stay _
  unfold Machine.arrive
  cases hp : prepare P out params s.plugin with
  | ok caller plugin =>
    rw [hp] at vault
    exact same _ vault rfl rfl rfl rfl
  | error e plugin =>
    rw [hp] at vault
    exact same _ vault rfl rfl rfl rfl

theorem moves_found (h : Consistent s) {caller : Caller} (entered : s.holder = some (caller, .entered))
    {n : ℕ} (hnext : nextSignCount caller.credentialId s.plugin = .ok n) :
    Moves s event { s with holder := some (caller, .found s.opening n) } := by
  obtain ⟨e, hfind, hmax, rfl⟩ := nextSignCount_ok.mp hnext
  have hid := hasId_iff.mp (List.find?_some hfind)
  have known := h.knownMemory _ (mem_ids (List.mem_of_find?_eq_some hfind) hid)
  refine ⟨consistent_same h (.refl _) rfl ?_ (by simp), fun id => ?_⟩
  · rintro caller' opening n ⟨⟩
    exact ⟨le_rfl, known, next_lt hmax⟩
  · by_cases own : caller.credentialId = id
    · have present : value id s.plugin.entries = some e.signCount := by
        rw [value, ← own, hfind, Option.map_some]
      have below : e.signCount < uintMaxValue := by
        have := next_lt hmax
        simp only [uintMaxValue]
        omega
      have after : view id { s with holder := some (caller, .found s.opening (e.signCount + 1)) } =
          { view id s with pending := some (e.signCount + 1) } := by
        simp only [view, pendingFor, own, if_true]
      exact ⟨.take, after ▸ .take _ e.signCount present below, by simp⟩
    · have after : view id { s with holder := some (caller, .found s.opening (e.signCount + 1)) } =
          view id s := by
        simp only [view, pendingFor, own, if_false, entered]
      exact ⟨.stay, after ▸ .stay _, by simp⟩

theorem consistent_counted (h : Consistent s) (caller : Caller) {n : ℕ} (bounded : n < 2 ^ 32)
    (known : caller.credentialId ∈ s.known) (opening : ℕ) (le : opening ≤ s.opening) :
    Consistent { s with
      plugin := s.plugin.counted caller.credentialId n
      holder := some (caller, .written opening n) } := by
  have entries : (s.plugin.counted caller.credentialId n).entries =
      modifyFirst (hasId caller.credentialId) (PwEntry.setSignCount n) s.plugin.entries :=
    entries_mapEntries rfl _
  refine ⟨?_, ?_, h.file, ?_, h.knownFile, by simp, ?_⟩
  · intro db hdb
    obtain ⟨db', hdb', rfl⟩ := Option.map_eq_some_iff.mp hdb
    exact h.opened db' hdb'
  · simp only [UniqueIds, entries, ids_count]
    exact h.memory
  · simp only [entries, ids_count]
    exact h.knownMemory
  · rintro _ _ _ ⟨⟩
    refine ⟨le, known, fun _ m hm => ?_⟩
    rw [entries, value_count_own bounded] at hm
    obtain ⟨_, _, rfl⟩ := Option.map_eq_some_iff.mp hm
    rfl

theorem moves_written (h : Consistent s) {caller : Caller} {opening n : ℕ}
    (found : s.holder = some (caller, .found opening n)) :
    Moves s event { s with
      plugin := if opening = s.opening then s.plugin.counted caller.credentialId n else s.plugin
      holder := some (caller, .written opening n) } := by
  obtain ⟨le, known, bounded⟩ := h.found caller opening n found
  split_ifs with current
  · refine ⟨consistent_counted h caller bounded known opening le, fun id => ?_⟩
    have entries : (s.plugin.counted caller.credentialId n).entries =
        modifyFirst (hasId caller.credentialId) (PwEntry.setSignCount n) s.plugin.entries :=
      entries_mapEntries rfl _
    have file : Plugin.fileEntries (s.plugin.counted caller.credentialId n) =
      Plugin.fileEntries s.plugin := rfl
    by_cases own : caller.credentialId = id
    · subst own
      have pending : (view caller.credentialId s).pending = some n := by
        simp only [view, pendingFor, found, if_true]
      refine ⟨.raise, ?_, by simp⟩
      have after : Step uintMaxValue (view caller.credentialId s) .raise _ := .raise _ n pending
      simpa only [view, entries, file, value_count_own bounded, pendingFor, found, if_true] using after
    · refine ⟨.stay, ?_, by simp⟩
      have after : Step uintMaxValue (view id s) .stay _ := .stay _
      simpa only [view, entries, file, value_count_other own, pendingFor, found, own, if_false]
        using after
  · refine ⟨consistent_same h (.refl _) rfl (by simp) ?_, fun id => ⟨.stay, ?_, by simp⟩⟩
    · rintro _ _ _ ⟨⟩
      exact ⟨le, known, fun same => absurd same current⟩
    · have same : view id { s with holder := some (caller, .written opening n) } = view id s := by
        simp only [view, pendingFor, found]
      exact same ▸ .stay _

theorem save_outcome (out : Outside) (s : Plugin) :
    (∃ e, PasskeyStore.save out s = .error e s) ∨
      PasskeyStore.save out s = .ok () s.saved ∧ out.save = none ∧ s.database.isSome = true := by
  cases hs : out.save <;> cases hd : s.database <;> simp [PasskeyStore.save, Plugin.saved, hs, hd]

theorem consistent_stored (h : Consistent s) {plugin : Plugin}
    (entries : plugin.entries = s.plugin.entries)
    (file : Plugin.fileEntries plugin = s.plugin.entries)
    (opened : ∀ db, plugin.database = some db → db.isOpen = true)
    {holder : Option (Caller × Stage)} (kept : holder = s.holder ∨ holder = none)
    (answered : List Answered) :
    Consistent { s with plugin, holder, answered } := by
  refine ⟨opened, ?_, ?_, ?_, ?_, ?_, ?_⟩
  · exact entries ▸ h.memory
  · exact file ▸ h.memory
  · rw [entries]
    exact h.knownMemory
  · rw [file]
    exact h.knownMemory
  · rcases kept with rfl | rfl
    · exact h.found
    · simp
  · rcases kept with rfl | rfl
    · rw [entries]
      exact h.written
    · simp

theorem issuedTo_append (id : String) (xs : List Answered) (a : Answered) :
    issuedTo id (xs ++ [a]) =
      issuedTo id xs ++ if a.caller.credentialId = id then [a.count] else [] := by
  simp only [issuedTo, List.filter_append, List.map_append]
  by_cases own : a.caller.credentialId = id <;> simp [own]

theorem moves_save (h : Consistent s) (out : Outside) {caller : Caller} {opening n : ℕ}
    (written : s.holder = some (caller, .written opening n))
    (current : out.save = none → opening = s.opening) : Moves s event (s.save P out caller n) := by
  obtain ⟨le, known, target⟩ := h.written caller opening n written
  unfold Machine.save
  rcases save_outcome out s.plugin with ⟨e, failed⟩ | ⟨saved, succeeds, loaded⟩
  · rw [failed]
    exact moves_idle h (.refl _) rfl rfl (pendingFor_none) (by simp)
  · rw [saved]
    have vault : SameVault s.plugin.saved (final (answerWith P out caller.req caller.uv
        caller.selected n s.plugin.saved)) := sameVault_answerWith _ _ _ _
    obtain ⟨db, hdb⟩ := Option.isSome_iff_exists.mp loaded
    have stored := fileEntries_saved hdb (h.opened db hdb)
    have issues : ∀ plugin response, SameVault s.plugin.saved plugin → Moves s event { s with
        plugin, holder := none, answered := s.answered ++ [⟨caller, n, response⟩] } := by
      intro plugin response vault
      have entries := vault.entries.trans (saved_entries s.plugin)
      have file := vault.fileEntries.trans stored
      have opened : ∀ db, plugin.database = some db → db.isOpen = true := fun db hdb =>
        h.opened db (by rw [← saved_database, ← vault.database, hdb])
      refine ⟨consistent_stored h entries file opened (.inr rfl) _, fun id => ?_⟩
      by_cases own : caller.credentialId = id
      · subst own
        have pending : (view caller.credentialId s).pending = some n := by
          simp only [view, pendingFor, written, if_true]
        have raised : ∀ m, (view caller.credentialId s).memory = some m → n ≤ m := fun m hm =>
          Nat.le_of_eq (target (current succeeds) m hm).symm
        refine ⟨.issue, ?_, by simp⟩
        have after : Step uintMaxValue (view caller.credentialId s) .issue _ := .issue _ n pending raised
        simpa only [view, entries, file, pendingFor, issuedTo_append, if_true] using after
      · refine ⟨.store, ?_, by simp⟩
        have after : Step uintMaxValue (view id s) .store _ := .store _
        simpa only [view, entries, file, pendingFor, written, own, issuedTo_append, if_false,
          List.append_nil] using after
    simp only
    cases answer : answerWith P out caller.req caller.uv caller.selected n s.plugin.saved with
    | ok result plugin =>
      rw [answer] at vault
      exact issues plugin _ vault
    | error e plugin =>
      rw [answer] at vault
      exact issues plugin _ vault

theorem moves_saveOther (h : Consistent s) (out : Outside) :
    Moves s event { s with plugin := final (PasskeyStore.save out s.plugin) } := by
  rcases save_outcome out s.plugin with ⟨e, failed⟩ | ⟨saved, _, loaded⟩
  · rw [failed]
    exact ⟨h, fun id => ⟨.stay, .stay _, by simp⟩⟩
  · rw [saved]
    obtain ⟨db, hdb⟩ := Option.isSome_iff_exists.mp loaded
    have entries : s.plugin.saved.entries = s.plugin.entries := saved_entries s.plugin
    have file := fileEntries_saved hdb (h.opened db hdb)
    have opened : ∀ db, s.plugin.saved.database = some db → db.isOpen = true := fun db hdb =>
      h.opened db (by rw [← saved_database, hdb])
    refine ⟨consistent_stored h entries file opened (.inl rfl) _, fun id => ⟨.store, ?_, by simp⟩⟩
    have after : Step uintMaxValue (view id s) .store _ := .store _
    simpa only [view, final_ok, entries, file] using after

theorem moves_add (h : Consistent s) (P : Platform) (record : PasskeyRecord)
    (hopen : s.plugin.isVaultOpen = true) (fresh : record.credentialId ∉ s.known) :
    Moves s event { s with
      plugin := s.plugin.addEntry (recordToEntry P s.plugin.culture record)
      known := s.known ++ [record.credentialId] } := by
  have entries := entries_addEntry (recordToEntry P s.plugin.culture record) hopen
  have hid : (recordToEntry P s.plugin.culture record).credentialId = some record.credentialId := rfl
  have absent : record.credentialId ∉ s.plugin.entries.filterMap PwEntry.credentialId :=
    fun found => fresh (h.knownMemory _ found)
  have file : Plugin.fileEntries (s.plugin.addEntry (recordToEntry P s.plugin.culture record)) =
    Plugin.fileEntries s.plugin := rfl
  have others : ∀ id ∈ s.known, value id (s.plugin.addEntry (recordToEntry P s.plugin.culture
      record)).entries = value id s.plugin.entries := by
    intro id hmem
    have other : (recordToEntry P s.plugin.culture record).credentialId ≠ some id := by
      rintro ⟨⟩
      exact fresh hmem
    rw [entries, value_append_other other]
  refine ⟨⟨?_, ?_, h.file, ?_, ?_, ?_, ?_⟩, fun id => ?_⟩
  · intro db hdb
    obtain ⟨db', hdb', rfl⟩ := Option.map_eq_some_iff.mp hdb
    obtain ⟨db'', hdb'', rfl⟩ := Option.map_eq_some_iff.mp hdb'
    exact h.opened db'' hdb''
  · rw [entries]
    exact uniqueIds_append h.memory hid absent
  · intro id hmem
    rw [entries, List.filterMap_append, List.mem_append] at hmem
    rcases hmem with hmem | hmem
    · exact List.mem_append_left _ (h.knownMemory id hmem)
    · exact List.mem_append_right _ (by simpa [hid] using hmem)
  · exact fun id hmem => List.mem_append_left _ (h.knownFile id hmem)
  · intro caller opening n found
    obtain ⟨le, known, bounded⟩ := h.found caller opening n found
    exact ⟨le, List.mem_append_left _ known, bounded⟩
  · intro caller opening n written
    obtain ⟨le, known, target⟩ := h.written caller opening n written
    exact ⟨le, List.mem_append_left _ known, by rwa [others _ known]⟩
  · by_cases own : record.credentialId = id
    · subst own
      have unborn : (view record.credentialId s).born = false := by simp [view, fresh]
      refine ⟨.create, ?_, by simp⟩
      have after : Step uintMaxValue (view record.credentialId s) .create _ := .create _ unborn
      simpa only [view, entries, file, value_append_new hid absent, signCount_recordToEntry,
        List.mem_append, List.mem_singleton, or_true, decide_true] using after
    · have other : (recordToEntry P s.plugin.culture record).credentialId ≠ some id := by
        rintro ⟨⟩
        exact own rfl
      refine ⟨.stay, ?_, by simp⟩
      have after : Step uintMaxValue (view id s) .stay _ := .stay _
      simpa only [view, entries, file, value_append_other other, List.mem_append,
        List.mem_singleton, Ne.symm own, or_false] using after

theorem moves_delete (h : Consistent s) (credentialId : String) :
    Moves s event { s with
      plugin := s.plugin.mapEntries (List.eraseP (hasId credentialId)) } := by
  have entries : (s.plugin.mapEntries (List.eraseP (hasId credentialId))).entries =
      s.plugin.entries.eraseP (hasId credentialId) := entries_mapEntries rfl _
  have file : Plugin.fileEntries (s.plugin.mapEntries (List.eraseP (hasId credentialId))) =
    Plugin.fileEntries s.plugin := rfl
  refine ⟨⟨?_, ?_, h.file, ?_, h.knownFile, h.found, ?_⟩, fun id => ?_⟩
  · intro db hdb
    obtain ⟨db', hdb', rfl⟩ := Option.map_eq_some_iff.mp hdb
    exact h.opened db' hdb'
  · rw [entries]
    exact uniqueIds_eraseP _ h.memory
  · intro id hmem
    rw [entries] at hmem
    exact h.knownMemory id (((List.eraseP_sublist).filterMap _).subset hmem)
  · intro caller opening n written
    obtain ⟨le, known, target⟩ := h.written caller opening n written
    refine ⟨le, known, fun current m hm => target current m ?_⟩
    rw [entries] at hm
    by_cases own : credentialId = caller.credentialId
    · rw [own, value_erase_own h.memory] at hm
      cases hm
    · rwa [value_erase_other own] at hm
  · by_cases own : credentialId = id
    · subst own
      refine ⟨.lose, ?_, by simp⟩
      have after : Step uintMaxValue (view credentialId s) .lose _ := .lose _
      simpa only [view, entries, file, value_erase_own h.memory] using after
    · refine ⟨.stay, ?_, by simp⟩
      have after : Step uintMaxValue (view id s) .stay _ := .stay _
      simpa only [view, entries, file, value_erase_other own] using after

theorem moves_close (h : Consistent s) :
    Moves s event { s with plugin := { s.plugin with database := none } } := by
  have entries : Plugin.entries { s.plugin with database := none } = [] := rfl
  have file : Plugin.fileEntries { s.plugin with database := none } =
    Plugin.fileEntries s.plugin := rfl
  have gone : ∀ id, value id [] = none := fun _ => rfl
  refine ⟨⟨by simp, ?_, h.file, ?_, h.knownFile, h.found, ?_⟩, fun id => ⟨.lose, ?_, by simp⟩⟩
  · simp [entries, UniqueIds]
  · simp [entries]
  · intro caller opening n written
    obtain ⟨le, known, _⟩ := h.written caller opening n written
    exact ⟨le, known, fun _ m hm => by simp [entries, gone] at hm⟩
  · have after : Step uintMaxValue (view id s) .lose _ := .lose _
    simpa only [view, entries, file, gone] using after

theorem moves_reopen (h : Consistent s) :
    Moves s .reopen { s with
      plugin := { s.plugin with database := some ⟨true, s.plugin.file⟩ }
      opening := s.opening + 1 } := by
  have entries : Plugin.entries { s.plugin with database := some ⟨true, s.plugin.file⟩ } =
    Plugin.fileEntries s.plugin := entries_reopened s.plugin _ rfl
  have file : Plugin.fileEntries { s.plugin with database := some ⟨true, s.plugin.file⟩ } =
    Plugin.fileEntries s.plugin := rfl
  refine ⟨⟨?_, ?_, h.file, ?_, h.knownFile, ?_, ?_⟩, fun id => ⟨.load, ?_, by simp⟩⟩
  · rintro db ⟨⟩
    rfl
  · exact entries ▸ h.file
  · rw [entries]
    exact h.knownFile
  · intro caller opening n found
    obtain ⟨le, known, bounded⟩ := h.found caller opening n found
    exact ⟨le.trans (Nat.le_succ _), known, bounded⟩
  · intro caller opening n written
    obtain ⟨le, known, _⟩ := h.written caller opening n written
    exact ⟨le.trans (Nat.le_succ _), known, fun current => absurd current (by simp; omega)⟩
  · have after : Step uintMaxValue (view id s) .load _ := .load _
    simpa only [view, entries, file] using after

theorem moves_step (h : Consistent s) (hs : restrict Sane (step P) s event t) : Moves s event t := by
  obtain ⟨sane, hs⟩ := hs
  cases event with
  | arrive out params =>
    obtain rfl := Option.some.inj hs
    exact moves_arrive h out params
  | enter i =>
    simp only [step, next] at hs
    split at hs
    · obtain rfl := Option.some.inj hs
      exact moves_idle h (.refl _) rfl rfl (fun id => rfl) (by simp)
    · cases hs
  | find =>
    simp only [step, next] at hs
    split at hs
    · rename_i caller entered
      split at hs
      · obtain rfl := Option.some.inj hs
        exact moves_found h entered ‹_›
      · obtain rfl := Option.some.inj hs
        exact moves_idle h (.refl _) rfl rfl (fun id => rfl) (by simp)
    · cases hs
  | write =>
    simp only [step, next] at hs
    split at hs
    · rename_i caller opening n found
      obtain rfl := Option.some.inj hs
      exact moves_written h found
    · cases hs
  | save out =>
    simp only [step, next] at hs
    split at hs
    · rename_i caller opening n written
      obtain rfl := Option.some.inj hs
      exact moves_save h out written (sane caller opening n written)
    · cases hs
  | add record =>
    simp only [step, next] at hs
    split_ifs at hs with hopen
    obtain rfl := Option.some.inj hs
    exact moves_add h P record hopen sane
  | delete credentialId =>
    obtain rfl := Option.some.inj hs
    exact moves_delete h credentialId
  | saveOther out =>
    obtain rfl := Option.some.inj hs
    exact moves_saveOther h out
  | close =>
    obtain rfl := Option.some.inj hs
    exact moves_close h
  | reopen =>
    simp only [step, next] at hs
    split_ifs at hs
    obtain rfl := Option.some.inj hs
    exact moves_reopen h

theorem consistent_start (plugin : Plugin) (distinct : UniqueIds (Plugin.fileEntries plugin)) :
    Consistent (Machine.start plugin) := by
  have entries : (Machine.start plugin).plugin.entries = [] := rfl
  refine ⟨by simp [Machine.start], ?_, distinct, ?_, fun _ h => h, by simp [Machine.start],
    by simp [Machine.start]⟩
  · simp [entries, UniqueIds]
  · simp [entries]

theorem sound_run {plugin : Plugin} (distinct : UniqueIds (Plugin.fileEntries plugin))
    {events : List Event} (run : Run (restrict Sane (step P)) (Machine.start plugin) events t)
    (id : String) : Consistent t ∧ Sound uintMaxValue (view id t) := by
  refine run.invariant (I := fun s => Consistent s ∧ Sound uintMaxValue (view id s)) ?_
    ⟨consistent_start plugin distinct, ?_⟩
  · rintro s event t ⟨consistent, sound⟩ hs
    have moves := moves_step consistent hs
    obtain ⟨move, hmove, _⟩ := moves.move id
    exact ⟨moves.consistent, sound.step hmove⟩
  · refine ⟨.nil, by simp [view, Machine.start, issuedTo], by simp [view, Machine.start, issuedTo],
      by simp [view, Machine.start, issuedTo], by simp [view, Machine.start, pendingFor], ?_⟩
    intro unborn
    have absent : id ∉ (Plugin.fileEntries plugin).filterMap PwEntry.credentialId :=
      of_decide_eq_false unborn
    exact ⟨rfl, value_eq_none absent, rfl, rfl⟩

/-- Once it is used up, a counter that is not loaded from an older file hands nothing out. -/
theorem spent_run {id : String} {events : List Event}
    (run : Run (restrict (fun s e => Sane s e ∧ OpensSpent id s e) (step P)) s events t)
    (consistent : Consistent s) (spent : Spent uintMaxValue (view id s)) :
    issuedTo id t.answered = issuedTo id s.answered := by
  have kept := run.invariant (I := fun u => Consistent u ∧ Spent uintMaxValue (view id u) ∧
    issuedTo id u.answered = issuedTo id s.answered) ?_ ⟨consistent, spent, rfl⟩
  · exact kept.2.2
  · rintro u event v ⟨consistent, spent, same⟩ ⟨⟨sane, opens⟩, hs⟩
    have moves := moves_step consistent ⟨sane, hs⟩
    obtain ⟨move, hmove, loads⟩ := moves.move id
    have loadsSpent : LoadsSpent uintMaxValue (view id u) move := by
      intro h
      obtain rfl := loads h
      exact opens
    obtain ⟨spent', issued⟩ := spent.step ⟨loadsSpent, hmove⟩
    exact ⟨moves.consistent, spent', issued.trans same⟩

end

/-- The values of the assertions of this credential that succeeded. -/
def signCounts (id : String) (s : Machine) : List ℕ :=
  (s.answered.filter fun a => a.caller.credentialId == id && a.response.isOk).map Answered.count

theorem signCounts_sublist (id : String) (s : Machine) :
    (signCounts id s).Sublist (issuedTo id s.answered) :=
  (List.monotone_filter_right _ fun _ h => (Bool.and_eq_true_iff.mp h).1).map _

def WritesCount (result : JToken) (n : ℕ) : Prop :=
  ∃ rawId authData signature user, result = stringResult [("cbor", toBase64String
    (encode (assertionItem rawId authData signature user)))] ∧ authData.length = 37 ∧
      ofBigEndian (authData.drop 33) = n

theorem writesCount_of_answer {P : Platform} {out : Outside} {req : GetAssertionRequest} {uv : Bool}
    {selected : PasskeyRecord} {n : ℕ} {s s' : Plugin} {result : JToken} (bounded : n < 2 ^ 32)
    (h : answerWith P out req uv selected n s = .ok result s') : WritesCount result n := by
  obtain ⟨_, signature, rawId, _, _, _, _, _, hresp, rfl, _⟩ := answerWith_ok.mp h
  obtain ⟨user, rfl, _⟩ := buildAssertionResponse_ok hresp
  exact ⟨rawId, _, signature, user, rfl, buildAssertion_length P _ _ _,
    buildAssertion_signCount P _ _ bounded⟩

/-- Only the `Save` of a caller answers a request, by `answerWith`. -/
theorem answered_step {P : Platform} {s t : Machine} {event : Event} (hs : step P s event t) :
    t.answered = s.answered ∨ ∃ a, t.answered = s.answered ++ [a] ∧
      ∀ result, a.response = .ok result → ∃ out plugin plugin', answerWith P out a.caller.req
        a.caller.uv a.caller.selected a.count plugin = .ok result plugin' := by
  cases event with
  | save out =>
    simp only [step, next] at hs
    split at hs
    · obtain rfl := Option.some.inj hs
      unfold Machine.save
      split
      · exact .inl rfl
      · split
        · rename_i plugin _ _ result plugin' answered
          refine .inr ⟨_, rfl, ?_⟩
          rintro _ ⟨⟩
          exact ⟨out, plugin, plugin', answered⟩
        · exact .inr ⟨_, rfl, by simp⟩
    · cases hs
  | arrive out params =>
    obtain rfl := Option.some.inj hs
    unfold Machine.arrive
    split <;> exact .inl rfl
  | find =>
    simp only [step, next] at hs
    split at hs
    · split at hs <;> (obtain rfl := Option.some.inj hs; exact .inl rfl)
    · cases hs
  | enter | write =>
    simp only [step, next] at hs
    split at hs
    · obtain rfl := Option.some.inj hs
      exact .inl rfl
    · cases hs
  | add | reopen =>
    simp only [step, next] at hs
    split_ifs at hs
    obtain rfl := Option.some.inj hs
    exact .inl rfl
  | delete | saveOther | close => exact Option.some.inj hs ▸ .inl rfl

def AnswersCarry (s : Machine) : Prop :=
  ∀ a ∈ s.answered, ∀ result, a.response = .ok result → a.count < 2 ^ 32 →
    WritesCount result a.count

theorem answersCarry_step {P : Platform} {s t : Machine} {event : Event} (h : AnswersCarry s)
    (hs : step P s event t) : AnswersCarry t := by
  rcases answered_step hs with same | ⟨a, split, answers⟩
  · exact fun a ha => h a (same ▸ ha)
  · intro b hb result hresult bounded
    rw [split] at hb
    rcases List.mem_append.mp hb with hb | hb
    · exact h b hb result hresult bounded
    · obtain rfl := List.mem_singleton.mp hb
      obtain ⟨out, plugin, plugin', answered⟩ := answers result hresult
      exact writesCount_of_answer bounded answered

theorem signCounts_of_issuedTo {P : Platform} {s t : Machine} {id : String} {events : List Event}
    (run : Run (step P) s events t) (same : issuedTo id t.answered = issuedTo id s.answered) :
    signCounts id t = signCounts id s := by
  have grown : ∃ extra, t.answered = s.answered ++ extra := by
    refine run.relates (R := fun s t : Machine => ∃ extra, t.answered = s.answered ++ extra)
      (fun _ => ⟨[], by simp⟩) ?_ ?_
    · rintro _ _ _ ⟨xs, first⟩ ⟨ys, second⟩
      exact ⟨xs ++ ys, by rw [second, first, List.append_assoc]⟩
    · intro u event v hs
      rcases answered_step hs with same | ⟨a, split, _⟩
      · exact ⟨[], by simp [same]⟩
      · exact ⟨[a], split⟩
  obtain ⟨extra, split⟩ := grown
  have none : issuedTo id extra = [] := by
    simpa [issuedTo, split] using same
  have noAnswer : signCounts id { t with answered := extra } = [] :=
    List.sublist_nil.mp (none ▸ signCounts_sublist id { t with answered := extra })
  simpa [signCounts, split] using noAnswer

/-- In every run whose new ids are fresh and in which no `Save` succeeds for an entry left
behind by a reopened database: the values in the answers of one credential increase and end at
the maximum, and once the counter has reached it in memory, the request that finds it there and
every later one fails, unless a file with an older counter is opened. -/
theorem signCounts_increase (P : Platform) (plugin : Plugin)
    (distinct : UniqueIds (Plugin.fileEntries plugin)) (events : List Event) (t : Machine)
    (run : Run (restrict Sane (step P)) (Machine.start plugin) events t) (id : String) :
    (signCounts id t).Pairwise (· < ·) ∧ (∀ n ∈ signCounts id t, n ≤ uintMaxValue) ∧
      (∀ a ∈ t.answered, ∀ result, a.response = .ok result → WritesCount result a.count) ∧
      ∀ caller later u, t.holder = some (caller, .entered) → caller.credentialId = id →
        value id t.plugin.entries = some uintMaxValue →
        Run (restrict (fun s e => Sane s e ∧ OpensSpent id s e) (step P)) t (.find :: later) u →
        signCounts id u = signCounts id t := by
  obtain ⟨consistent, sound⟩ := sound_run distinct run id
  have sub := signCounts_sublist id t
  refine ⟨sound.increasing.sublist sub, fun n hn => sound.bounded n (sub.subset hn), ?_, ?_⟩
  · intro a ha result hresult
    have carry : AnswersCarry t := run.invariant (fun _ _ _ h hs => answersCarry_step h hs.2)
      (by simp [AnswersCarry, Machine.start])
    have own : a.count ∈ issuedTo a.caller.credentialId t.answered :=
      List.mem_map_of_mem (List.mem_filter.mpr ⟨ha, by simp⟩)
    have bounded := (sound_run distinct run a.caller.credentialId).2.bounded _ own
    simp only [uintMaxValue] at bounded
    exact carry a ha result hresult (by omega)
  · intro caller later u entered own full tail
    have spent : Spent uintMaxValue (view id t) := by
      refine ⟨?_, fun m hm => Option.some.inj (hm.symm.trans full), ?_⟩
      · obtain ⟨e, hfind, _⟩ := Option.map_eq_some_iff.mp full
        have hid := hasId_iff.mp (List.find?_some hfind)
        exact decide_eq_true (consistent.knownMemory id
          (mem_ids (List.mem_of_find?_eq_some hfind) hid))
      · rw [view, entered, pendingFor_entered]
    exact signCounts_of_issuedTo tail.unrestrict (spent_run tail consistent spent)

def sampleId : String := Base64Url.encode Sample.credentialId

def sampleRecord (n : ℕ) : PasskeyRecord := { Sample.record "example.com" with signCount := n }

def sampleCaller (n : ℕ) : Caller := ⟨Sample.getRequest, true, sampleRecord n⟩

def sampleEntry (n : ℕ) : PwEntry := (Sample.entry "example.com").setSignCount n

def sampleFile (n : ℕ) : Plugin := { Sample.plugin with file := [⟨groupName, [sampleEntry n]⟩] }

def sampleFull : Outside := { Sample.outside with save := some "There is not enough space." }

structure Holds (n : ℕ) (e : PwEntry) : Prop where
  own : hasId sampleId e = true
  reads : entryToRecord (Sample.platform []) NumberFormat.invariant e = sampleRecord n

section
variable {n m : ℕ} {e f : PwEntry}

theorem Holds.signCount (h : Holds n e) : e.signCount = n := congrArg PasskeyRecord.signCount h.reads

theorem Holds.counted (h : Holds n e) (bounded : m < 2 ^ 32) : Holds m (e.setSignCount m) where
  own := (hasId_setSignCount sampleId m e).trans h.own
  reads := by
    rw [entryToRecord_setSignCount _ _ bounded, h.reads]
    rfl

theorem holds_sampleEntry (bounded : n < 2 ^ 32) : Holds n (sampleEntry n) where
  own := hasId_iff.mpr rfl
  reads := by
    rw [sampleEntry, entryToRecord_setSignCount _ _ bounded, Sample.record_entry]
    rfl

/-- The vault is open with one entry, the file has another, and the request passes the gates. -/
structure Ready (f e : PwEntry) (p : Plugin) : Prop where
  database : p.database = some ⟨true, [⟨groupName, [e]⟩]⟩
  file : p.file = [⟨groupName, [f]⟩]
  opSignPubKey : p.opSignPubKey = Sample.plugin.opSignPubKey
  uvFallbackPrompt : p.uvFallbackPrompt = Sample.plugin.uvFallbackPrompt
  skipPluginSigVerify : p.skipPluginSigVerify = Sample.plugin.skipPluginSigVerify
  culture : p.culture = Sample.plugin.culture

variable {p : Plugin}

theorem Ready.entries (h : Ready f e p) : p.entries = [e] := by
  rw [entries_eq p _ h.database rfl]
  rfl

theorem Ready.value (h : Ready f e p) (holds : Holds n e) : value sampleId p.entries = some n := by
  simp [CounterSafety.value, h.entries, holds.own, holds.signCount]

theorem Ready.fileValue (h : Ready f e p) (holds : Holds n f) :
    CounterSafety.value sampleId (Plugin.fileEntries p) = some n := by
  have group : isPasskeys ⟨groupName, [f]⟩ = true := rfl
  simp [CounterSafety.value, Plugin.fileEntries, h.file, group, holds.own, holds.signCount]

theorem Ready.next (h : Ready f e p) (holds : Holds n e) (below : n < uintMaxValue) :
    nextSignCount sampleId p = .ok (n + 1) := by
  refine nextSignCount_ok.mpr ⟨e, by simp [h.entries, holds.own], ?_, by rw [holds.signCount]⟩
  rw [holds.signCount]
  exact Nat.ne_of_lt below

theorem Ready.full (h : Ready f e p) (holds : Holds uintMaxValue e) :
    ∃ error, nextSignCount sampleId p = .error error := by
  cases outcome : nextSignCount sampleId p with
  | error error => exact ⟨error, rfl⟩
  | ok n =>
    obtain ⟨e', found, below, _⟩ := nextSignCount_ok.mp outcome
    obtain rfl : e = e' := by simpa [h.entries, holds.own] using found
    exact absurd holds.signCount below

theorem Ready.prepare (h : Ready f e p) (holds : Holds n e) : ∃ q, Ready f e q ∧
    CountingThreads.prepare (Sample.platform []) Sample.outside Sample.getParams p =
      .ok (sampleCaller n) q := by
  have open' : (Plugin.called p).isVaultOpen = true := by
    simp [Plugin.isVaultOpen, Plugin.called, h.database]
  have checked : requireVaultOpen (Plugin.called p) = .ok () (Plugin.called p) := by
    simp [requireVaultOpen, open']
  have gated : gates (Sample.platform []) Sample.outside.ask (Plugin.called p).opSignPubKey
      (Plugin.called p).skipPluginSigVerify (Plugin.called p).uvFallbackPrompt Sample.getParams
        getMethod = (.ok (true, Sample.getCbor), Sample.plugin.uvFallbackPrompt) := by
    simp only [Plugin.called, h.opSignPubKey, h.skipPluginSigVerify, h.uvFallbackPrompt]
    exact Sample.gates_get
  have selects : selectCredential (Sample.platform []) Sample.getRequest
      (Plugin.prompted Sample.plugin.uvFallbackPrompt (Plugin.called p)) =
        .ok (sampleRecord n) := by
    have own : hasId (Base64Url.encode Sample.credentialId) e = true := holds.own
    refine selectCredential_ok.mpr ⟨e, .inr ⟨[], Sample.credentialId, [], rfl, by simp, ?_⟩, ?_⟩
    · simp only [prompted_entries, called_entries, h.entries]
      rw [List.find?_cons, own]
    · simp only [Plugin.prompted, Plugin.called, h.culture]
      exact holds.reads.symm
  refine ⟨Plugin.prompted Sample.plugin.uvFallbackPrompt (Plugin.called p),
    ⟨h.database, h.file, h.opSignPubKey, rfl, h.skipPluginSigVerify, h.culture⟩, ?_⟩
  refine bind_ok.mpr ⟨(), Plugin.called p, rfl, bind_ok.mpr ⟨(), _, checked, ?_⟩⟩
  refine bind_ok.mpr ⟨_, _, receiveRaw_ok.mpr ⟨_, gated, rfl⟩, ?_⟩
  refine bind_ok.mpr ⟨Sample.getRequest, _,
    lift_ok.mpr ⟨orMalformed_ok.mpr Sample.parse_getCbor, rfl⟩, ?_⟩
  change (lift (selectCredential _ _ _) >>= _) _ = _
  exact bind_ok.mpr ⟨_, _, lift_ok.mpr ⟨selects, rfl⟩, rfl⟩

end

section
variable {s : Machine} {n : ℕ} {e f : PwEntry}

theorem save_answered {P : Platform} {out : Outside} {caller : Caller} {n : ℕ}
    {saved plugin : Plugin} {result : JToken}
    (saves : PasskeyStore.save out s.plugin = .ok () saved)
    (answers : answerWith P out caller.req caller.uv caller.selected n saved = .ok result plugin) :
    s.save P out caller n =
      { s with plugin, holder := none, answered := s.answered ++ [⟨caller, n, .ok result⟩] } := by
  simp only [Machine.save, saves, answers]

structure Rests (f e : PwEntry) (counts : List ℕ) (s : Machine) : Prop where
  ready : Ready f e s.plugin
  waiting : s.waiting = []
  holder : s.holder = none
  counts : signCounts sampleId s = counts

variable {counts : List ℕ}

theorem sample_enter (h : Rests f e counts s) (holds : Holds n e) : ∃ t,
    Run (step (Sample.platform [])) s [.arrive Sample.outside Sample.getParams, .enter 0] t ∧
      Rests f e counts { t with holder := none } ∧ t.holder = some (sampleCaller n, .entered) ∧
        t.opening = s.opening := by
  obtain ⟨q, ready, prepared⟩ := h.ready.prepare holds
  refine ⟨{ s with plugin := q, holder := some (sampleCaller n, .entered) },
    .cons (t := { s with plugin := q, waiting := [sampleCaller n] }) ?_ (.single ?_),
    ⟨ready, h.waiting, rfl, h.counts⟩, rfl, rfl⟩
  · simp [step, next, Machine.arrive, prepared, h.waiting]
  · simp [step, next, h.holder, h.waiting]

theorem sample_find (h : Rests f e counts { s with holder := none }) (holds : Holds n e)
    (below : n < uintMaxValue) (entered : s.holder = some (sampleCaller n, .entered)) :
    Run (step (Sample.platform [])) s [.find]
      { s with holder := some (sampleCaller n, .found s.opening (n + 1)) } := by
  have found : nextSignCount (sampleCaller n).credentialId s.plugin = .ok (n + 1) :=
    h.ready.next holds below
  exact .single (by simp [step, next, entered, found])

theorem sample_refused (h : Rests f e counts { s with holder := none })
    (holds : Holds uintMaxValue e) (entered : s.holder = some (sampleCaller uintMaxValue, .entered)) :
    Run (step (Sample.platform [])) s [.find] { s with holder := none } := by
  obtain ⟨error, refused⟩ : ∃ error,
    nextSignCount (sampleCaller uintMaxValue).credentialId s.plugin = .error error :=
      h.ready.full holds
  exact .single (by simp [step, next, entered, refused])

def reopened (s : Machine) : Machine := { s with
  plugin := { s.plugin with database := some ⟨true, s.plugin.file⟩ }
  opening := s.opening + 1 }

theorem Rests.reopened (h : Rests f e counts { s with holder := none }) :
    Rests f f counts { reopened s with holder := none } := by
  refine ⟨⟨?_, h.ready.file, h.ready.opSignPubKey, h.ready.uvFallbackPrompt,
    h.ready.skipPluginSigVerify, h.ready.culture⟩, h.waiting, rfl, h.counts⟩
  change some (PwDatabase.mk true s.plugin.file) = _
  rw [h.ready.file]

theorem sample_reopen {C : Machine → Event → Prop} (close : C s .close)
    (reopen : C { s with plugin := { s.plugin with database := none } } .reopen) :
    Run (restrict C (step (Sample.platform []))) s [.close, .reopen] (reopened s) := by
  refine .cons ⟨close, ?_⟩ (.single ⟨reopen, ?_⟩)
  · rfl
  · rfl

theorem sample_write (opening : ℕ) (found : s.holder = some (sampleCaller n, .found opening (n + 1))) :
    step (Sample.platform []) s .write { s with
      plugin := if opening = s.opening then s.plugin.counted sampleId (n + 1) else s.plugin
      holder := some (sampleCaller n, .written opening (n + 1)) } := by
  simp only [step, next, found]
  rfl

theorem Ready.counted {p : Plugin} (h : Ready f e p) (holds : Holds n e) (m : ℕ) :
    Ready f (e.setSignCount m) (p.counted sampleId m) := by
  refine ⟨?_, h.file, h.opSignPubKey, h.uvFallbackPrompt, h.skipPluginSigVerify, h.culture⟩
  have group : isPasskeys ⟨groupName, [e]⟩ = true := rfl
  simp [Plugin.counted, Plugin.mapEntries, Plugin.mapGroups, h.database, modifyFirst, group,
    holds.own]

theorem sample_fail (h : Rests f e counts { s with holder := none }) (holds : Holds n e)
    (found : s.holder = some (sampleCaller n, .found s.opening (n + 1))) : ∃ t,
    Run (step (Sample.platform [])) s [.write, .save sampleFull] t ∧
      Rests f (e.setSignCount (n + 1)) counts t ∧ t.opening = s.opening := by
  have wrote := sample_write s.opening found
  rw [if_pos rfl] at wrote
  refine ⟨{ s with plugin := s.plugin.counted sampleId (n + 1), holder := none },
    .cons wrote (.single ?_), ⟨h.ready.counted holds _, h.waiting, rfl, h.counts⟩, rfl⟩
  simp [step, next, Machine.save, PasskeyStore.save, sampleFull]

theorem counts_answered {plugin : Plugin} {holder : Option (Caller × Stage)} {result : JToken} :
    signCounts sampleId { s with
      plugin, holder, answered := s.answered ++ [⟨sampleCaller n, n + 1, .ok result⟩] } =
      signCounts sampleId s ++ [n + 1] := by
  simp [signCounts, Caller.credentialId, sampleCaller, sampleRecord, sampleId, Except.isOk,
    Except.toBool, Sample.record, newRecord]

theorem sample_save {opening : ℕ} (h : Rests f e counts { s with holder := none })
    (holds : Holds n e) (found : s.holder = some (sampleCaller n, .found opening (n + 1))) : ∃ t,
    Run (step (Sample.platform [])) s [.write, .save Sample.outside] t ∧
      (opening = s.opening →
        Run (restrict Sane (step (Sample.platform []))) s [.write, .save Sample.outside] t ∧
          Rests (e.setSignCount (n + 1)) (e.setSignCount (n + 1)) (counts ++ [n + 1]) t) ∧
      (opening ≠ s.opening → Rests e e (counts ++ [n + 1]) t) := by
  let plugin := if opening = s.opening then s.plugin.counted sampleId (n + 1) else s.plugin
  have written : ∃ e', Ready f e' plugin ∧
      (opening = s.opening → e' = e.setSignCount (n + 1)) ∧ (opening ≠ s.opening → e' = e) := by
    by_cases current : opening = s.opening
    · refine ⟨_, ?_, fun _ => rfl, fun stale => absurd current stale⟩
      simp only [plugin, if_pos current]
      exact h.ready.counted holds (n + 1)
    · refine ⟨e, ?_, fun same => absurd same current, fun _ => rfl⟩
      simp only [plugin, if_neg current]
      exact h.ready
  obtain ⟨e', ready, current, stale⟩ := written
  have saved : PasskeyStore.save Sample.outside plugin = .ok () plugin.saved :=
    save_ok.mpr ⟨rfl, by rw [ready.database]; rfl, rfl⟩
  obtain ⟨result, answered⟩ := Sample.answers "example.com" (n + 1) plugin.saved
  let t : Machine := { s with
    plugin := Plugin.signed Sample.credentialPkcs8 plugin.saved
    holder := none
    answered := s.answered ++ [⟨sampleCaller n, n + 1, .ok result⟩] }
  have wrote := sample_write opening found
  have done : step (Sample.platform [])
      { s with plugin, holder := some (sampleCaller n, .written opening (n + 1)) }
      (.save Sample.outside) t := congrArg some (save_answered saved answered)
  have rests : Rests e' e' (counts ++ [n + 1]) t := by
    refine ⟨⟨?_, ?_, ?_, ?_, ?_, ?_⟩, h.waiting, rfl,
      counts_answered.trans (congrArg (· ++ [n + 1]) h.counts)⟩ <;>
        simp only [t, Plugin.signed, Plugin.saved, ready.database, ready.opSignPubKey,
          ready.uvFallbackPrompt, ready.skipPluginSigVerify, ready.culture]
  refine ⟨t, .cons wrote (.single done), fun same => ⟨?_, current same ▸ rests⟩, fun other =>
    stale other ▸ rests⟩
  refine .cons ⟨trivial, wrote⟩ (.single ⟨?_, done⟩)
  rintro _ _ _ ⟨⟩ _
  exact same

def Quiet : Event → Prop
  | .add _ => False
  | .save out => out.save ≠ none
  | _ => True

theorem sane_run {t : Machine} {events : List Event}
    (run : Run (step (Sample.platform [])) s events t) (quiet : ∀ event ∈ events, Quiet event) :
    Run (restrict Sane (step (Sample.platform []))) s events t := by
  refine (run.restrict_labels quiet).mono fun s event t h => ⟨?_, h.2⟩
  obtain ⟨quiet, _⟩ := h
  cases event with
  | add record => exact quiet.elim
  | save out => exact fun _ _ _ _ saves => absurd saves quiet
  | _ => trivial

theorem spent_run_of_quiet (id : String) {t : Machine} {events : List Event}
    (run : Run (step (Sample.platform [])) s events t)
    (quiet : ∀ event ∈ events, Quiet event ∧ event ≠ .reopen) :
    Run (restrict (fun s e => Sane s e ∧ OpensSpent id s e) (step (Sample.platform []))) s
      events t := by
  have sane := sane_run run fun event mem => (quiet event mem).1
  refine (sane.restrict_labels quiet).mono fun s event t h => ⟨⟨h.2.1, ?_⟩, h.2.2⟩
  obtain ⟨⟨_, other⟩, _⟩ := h
  cases event with
  | reopen => exact absurd rfl other
  | _ => trivial

theorem sample_start (e : PwEntry) :
    ∃ t, Run (restrict Sane (step (Sample.platform [])))
      (Machine.start { Sample.plugin with file := [⟨groupName, [e]⟩] }) [.reopen] t ∧
        Rests e e [] t :=
  ⟨_, .single ⟨trivial, rfl⟩, ⟨rfl, rfl, rfl, rfl, rfl, rfl⟩, rfl, rfl, rfl⟩

theorem sample_assertion (h : Rests f e counts s) (holds : Holds n e) (below : n < uintMaxValue) :
    ∃ t events, Run (restrict Sane (step (Sample.platform []))) s events t ∧
      Rests (e.setSignCount (n + 1)) (e.setSignCount (n + 1)) (counts ++ [n + 1]) t := by
  obtain ⟨u, enters, rests, entered, _⟩ := sample_enter h holds
  have finds := sample_find rests holds below entered
  obtain ⟨t, _, saves, _⟩ := sample_save (s := { u with
    holder := some (sampleCaller n, .found u.opening (n + 1)) }) rests holds rfl
  obtain ⟨saves, rests⟩ := saves rfl
  refine ⟨t, _, (sane_run enters ?_).append ((sane_run finds ?_).append saves), rests⟩
  · simp [Quiet]
  · simp [Quiet]

theorem sample_attempt (h : Rests f e counts s) (holds : Holds n e) (below : n < uintMaxValue) :
    ∃ t events, Run (restrict Sane (step (Sample.platform []))) s events t ∧
      Rests f (e.setSignCount (n + 1)) counts t := by
  obtain ⟨u, enters, rests, entered, _⟩ := sample_enter h holds
  have finds := sample_find rests holds below entered
  obtain ⟨t, fails, rests, _⟩ := sample_fail (s := { u with
    holder := some (sampleCaller n, .found u.opening (n + 1)) }) rests holds rfl
  exact ⟨t, _, sane_run (enters.append (finds.append fails)) (by simp [Quiet, sampleFull]), rests⟩

theorem Rests.idle (h : Rests f e counts s) : { s with holder := none } = s := by
  rw [← h.holder]

theorem sample_reopened (h : Rests f e counts s) :
    Run (restrict Sane (step (Sample.platform []))) s [.close, .reopen] (reopened s) ∧
      Rests f f counts (reopened s) := by
  have same : { reopened s with holder := none } = reopened s := by
    rw [← h.holder]
    rfl
  exact ⟨sample_reopen trivial trivial, same ▸ Rests.reopened (h.idle.symm ▸ h)⟩

end

theorem sampleFile_distinct (n : ℕ) : UniqueIds (Plugin.fileEntries (sampleFile n)) :=
  List.nodup_singleton _

/-- Two requests are answered, with one in between whose `Save` throws, and the database opened
again. And a request that finds the maximum, and those after it, change nothing. -/
theorem signCounts_increase_sample :
    (∃ events t, Run (restrict Sane (step (Sample.platform []))) (Machine.start (sampleFile 0))
      events t ∧ signCounts sampleId t = [1, 2] ∧ (signCounts sampleId t).Pairwise (· < ·)) ∧
    ∃ events later t u,
      Run (restrict Sane (step (Sample.platform []))) (Machine.start (sampleFile (uintMaxValue - 1)))
        events t ∧
      Run (restrict (fun s e => Sane s e ∧ OpensSpent sampleId s e) (step (Sample.platform []))) t
        (.find :: .close :: .reopen :: later) u ∧
      signCounts sampleId t = [uintMaxValue] ∧ signCounts sampleId u = signCounts sampleId t := by
  constructor
  · have zero : Holds 0 (sampleEntry 0) := holds_sampleEntry (by decide)
    have one := zero.counted (m := 1) (by decide)
    obtain ⟨s, start, rests⟩ := sample_start (sampleEntry 0)
    obtain ⟨s₁, _, run₁, rests⟩ := sample_assertion rests zero (by decide)
    obtain ⟨s₂, _, run₂, rests⟩ := sample_attempt rests one (by decide)
    obtain ⟨run₃, rests⟩ := sample_reopened rests
    obtain ⟨t, _, run₄, rests⟩ := sample_assertion rests one (by decide)
    have run := start.append (run₁.append (run₂.append (run₃.append run₄)))
    exact ⟨_, t, run, rests.counts, (signCounts_increase (Sample.platform []) (sampleFile 0)
      (sampleFile_distinct 0) _ t run sampleId).1⟩
  · have below : Holds (uintMaxValue - 1) (sampleEntry (uintMaxValue - 1)) :=
      holds_sampleEntry (by decide)
    have full := below.counted (m := uintMaxValue) (by decide)
    obtain ⟨s, start, rests⟩ := sample_start (sampleEntry (uintMaxValue - 1))
    obtain ⟨s₁, _, run₁, rests⟩ := sample_assertion rests below (by decide)
    obtain ⟨s₂, run₂, rests, entered, _⟩ := sample_enter rests full
    have run := start.append (run₁.append (sane_run run₂ (by simp [Quiet])))
    have refused := spent_run_of_quiet sampleId (sample_refused rests full entered)
      (by simp [Quiet])
    have opened : OpensSpent sampleId
        { s₂ with holder := none, plugin := { s₂.plugin with database := none } } .reopen :=
      fun m hm => Option.some.inj (hm.symm.trans (rests.ready.fileValue full))
    have reopens := sample_reopen (s := { s₂ with holder := none })
      (C := fun s e => Sane s e ∧ OpensSpent sampleId s e) ⟨trivial, trivial⟩ ⟨trivial, opened⟩
    obtain ⟨s₃, run₃, rests₃, entered₃, _⟩ := sample_enter (Rests.reopened rests) full
    have refused₃ := sample_refused rests₃ full entered₃
    have tail := refused.append (reopens.append (spent_run_of_quiet sampleId (run₃.append refused₃)
      (by simp [Quiet])))
    exact ⟨_, _, s₂, _, run, tail, rests.counts, (signCounts_increase (Sample.platform []) _
      (sampleFile_distinct _) _ s₂ run sampleId).2.2.2 _ _ _ entered rfl (rests.ready.value full)
        tail⟩

/-- The database is opened again while a request holds the lock: its `Save` succeeds and stores
nothing of its counter, and the next request is given the same value. -/
theorem reopened_repeats : ∃ events t,
    Run (step (Sample.platform [])) (Machine.start (sampleFile 0)) events t ∧
      signCounts sampleId t = [1, 1] ∧ ¬ (signCounts sampleId t).Pairwise (· < ·) := by
  have zero : Holds 0 (sampleEntry 0) := holds_sampleEntry (by decide)
  obtain ⟨s, start, rests⟩ := sample_start (sampleEntry 0)
  obtain ⟨s₁, run₁, rests, entered, _⟩ := sample_enter rests zero
  have run₂ := sample_find rests zero (by decide) entered
  have run₃ := sample_reopen (C := fun _ _ => True)
    (s := { s₁ with holder := some (sampleCaller 0, .found s₁.opening 1) }) trivial trivial
  have found : (reopened { s₁ with holder := some (sampleCaller 0, .found s₁.opening 1) }).holder =
      some (sampleCaller 0, .found s₁.opening (0 + 1)) := rfl
  obtain ⟨s₄, run₄, _, stale⟩ := sample_save
    (s := reopened { s₁ with holder := some (sampleCaller 0, .found s₁.opening 1) })
    (Rests.reopened rests) zero found
  have rests₄ := stale (Nat.ne_of_lt (Nat.lt_succ_self _))
  obtain ⟨t, _, run₅, rests₅⟩ := sample_assertion rests₄ zero (by decide)
  refine ⟨_, t, start.unrestrict.append (run₁.append (run₂.append (run₃.unrestrict.append
    (run₄.append run₅.unrestrict)))), rests₅.counts, ?_⟩
  rw [rests₅.counts]
  decide

/-- The maximum was in memory only when the database is opened again: it is answered after all,
by a request that comes after one that it made fail. -/
theorem reopened_maximum_answers : ∃ events later t u,
    Run (restrict Sane (step (Sample.platform []))) (Machine.start (sampleFile (uintMaxValue - 1)))
      events t ∧
    (∃ caller, t.holder = some (caller, .entered) ∧ caller.credentialId = sampleId) ∧
    value sampleId t.plugin.entries = some uintMaxValue ∧
    Run (restrict Sane (step (Sample.platform []))) t (.find :: later) u ∧
    signCounts sampleId t = [] ∧ signCounts sampleId u = [uintMaxValue] := by
  have below : Holds (uintMaxValue - 1) (sampleEntry (uintMaxValue - 1)) :=
    holds_sampleEntry (by decide)
  have full := below.counted (m := uintMaxValue) (by decide)
  obtain ⟨s, start, rests⟩ := sample_start (sampleEntry (uintMaxValue - 1))
  obtain ⟨s₁, _, run₁, rests⟩ := sample_attempt rests below (by decide)
  obtain ⟨t, run₂, rests, entered, _⟩ := sample_enter rests full
  have refused := sane_run (sample_refused rests full entered) (by simp [Quiet])
  obtain ⟨reopens, rests'⟩ := sample_reopened rests
  obtain ⟨u, _, run₃, rests'⟩ := sample_assertion rests' below (by decide)
  exact ⟨_, _, t, u, start.append (run₁.append (sane_run run₂ (by simp [Quiet]))),
    ⟨_, entered, rfl⟩, rests.ready.value full, refused.append (reopens.append run₃),
    rests.counts, rests'.counts⟩

end KeePassKeyWin.CounterSafety
