import KeePassKeyWin.CountingThreads
import KeePassKeyWin.Ledgers
import KeePassKeyWin.VaultService

set_option autoImplicit false

/-!
# What a vault keeps that is closed and opened again

Every change is written to memory and then saved with all that is in memory. A `Save` that throws
leaves the change pending, and closing the database loses what is pending. What was answered
with success was saved.
-/
namespace KeePassKeyWin.DurableVault
open ByteStrings JsonRpc OutcomeRules PlatformServices KeyedTables CredentialEncodings PasskeyStore
open VaultHandler VaultOutcomes VaultRuns TransitionRuns VaultService Ledgers
open RequestEffects (failed save_of_none save_of_some)
open StoreRefinement (Op Table Represents addedRecords standing live any_hasId found_row
  findById_eq order_apply standing_eq counted counted_credentialId)
open CountingThreads (Plugin.fileEntries fileEntries_saved entries_reopened)

/-- Whether the operation finds what it is about. -/
def changes (t : Table) : Op → Bool
  | .add _ => true
  | .delete credentialId => (t.content credentialId).isSome
  | .incrementSignCount credentialId =>
    (t.content credentialId).any fun r => r.signCount != uintMaxValue
  | _ => false

def replay (base : Table) (ops : List Op) : Table := (Table.run base ops).1

theorem replay_snoc (base : Table) (ops : List Op) (op : Op) :
    replay base (ops ++ [op]) = (replay base ops).apply op := by
  induction ops generalizing base with
  | nil => rfl
  | cons first ops ih => exact ih (base.apply first)

theorem table_ext {t t' : Table} (order : t.order = t'.order) (content : t.content = t'.content) :
    t = t' := by
  cases t
  cases t'
  obtain rfl : _ = _ := order
  obtain rfl : _ = _ := content
  rfl

theorem apply_unchanged {t : Table} {op : Op} (same : changes t op = false) : t.apply op = t := by
  cases op with
  | add record => cases same
  | delete credentialId =>
    have absent : t.content credentialId = none := Option.not_isSome_iff_eq_none.mp (by
      rw [show (t.content credentialId).isSome = false from same]
      decide)
    refine table_ext rfl ?_
    change Function.update t.content credentialId none = t.content
    rw [← absent, Function.update_eq_self]
  | incrementSignCount credentialId =>
    refine table_ext rfl ?_
    change Function.update t.content credentialId ((t.content credentialId).map (counted 1)) =
      t.content
    have stays : (t.content credentialId).map (counted 1) = t.content credentialId := by
      cases held : t.content credentialId with
      | none => rfl
      | some r =>
        have full : r.signCount = uintMaxValue := by
          simpa [changes, held] using same
        have most : min (r.signCount + 1) uintMaxValue = r.signCount := by omega
        rw [Option.map_some, counted, most]
    rw [stays, Function.update_eq_self]
  | findById _ => rfl
  | findByRpId _ => rfl
  | getAll => rfl

/-- What a request that comes to an operation does to the file and to its answer. -/
structure Persists (out : Outside) (s : Plugin) (changed : Bool)
    {α : Type} (x : EStateM.Result Exn Plugin α) : Prop where
  stored : changed = true → out.save = none →
    Plugin.fileEntries (final x) = (final x).entries
  kept : changed = false ∨ out.save ≠ none → (final x).file = s.file
  refused : changed = true → out.save ≠ none → failed x = true

section
variable {P : Platform} {out : Outside} {s t u : Plugin} {table : Table} {changed : Bool}

theorem Persists.nothing {α : Type} {x : EStateM.Result Exn Plugin α} (same : (final x).file = s.file) :
    Persists out s false x :=
  ⟨nofun, fun _ => same, nofun⟩

theorem persists_save (isOpen : t.isVaultOpen = true) (same : t.file = s.file) :
    Persists out s true (save out t) := by
  obtain ⟨db, loaded, dbOpen⟩ := open_database isOpen
  cases saves : out.save with
  | none =>
    rw [save_of_none saves (by rw [loaded]; rfl)]
    refine ⟨fun _ _ => ?_, fun unsaved => ?_, fun _ unsaved => absurd saves unsaved⟩
    · exact (fileEntries_saved loaded dbOpen).trans (saved_entries t).symm
    · rcases unsaved with h | h
      · cases h
      · exact absurd saves h
  | some message =>
    rw [save_of_some saves]
    refine ⟨fun _ saved => ?_, fun _ => same, fun _ _ => rfl⟩
    rw [saves] at saved
    cases saved

theorem Persists.bind {α β : Type} {x : Vault α} {f : α → Vault β}
    (h : Persists out s changed (x u)) (quiet : ∀ a, Quiet (f a)) :
    Persists out s changed ((x >>= f) u) := by
  have same := final_bind_quiet x quiet u
  refine ⟨fun c saves => ?_, fun unsaved => same.file.trans (h.kept unsaved), fun c unsaved => ?_⟩
  · rw [same.entries, ← h.stored c saves]
    unfold Plugin.fileEntries
    rw [same.file]
  · have stopped := h.refused c unsaved
    cases ended : x u with
    | ok a w =>
      rw [ended] at stopped
      cases stopped
    | error e w =>
      rw [bind_of_error ended]
      rfl

theorem persists_add (isOpen : u.isVaultOpen = true) (record : PasskeyRecord) :
    Persists out u true (add P out record u) := by
  obtain ⟨db, loaded, _⟩ := open_database isOpen
  rw [add_eq, loaded]
  exact persists_save ((frame_addEntry _ u).isVaultOpen.trans isOpen) rfl

theorem quiet_pure {α : Type} (a : α) : Quiet (pure a) := fun u => .refl u

theorem persists_delete (h : Represents P u table) (credentialId : String) :
    Persists out u (changes table (.delete credentialId)) (delete out credentialId u) := by
  rw [changes, ← any_hasId h, delete_eq]
  split_ifs with stored
  · rw [stored]
    refine Persists.bind ?_ fun _ => quiet_pure true
    exact persists_save ((frame_mapEntries _ u).isVaultOpen.trans h.isOpen) rfl
  · rw [Bool.eq_false_iff.mpr stored]
    exact .nothing rfl

theorem persists_incrementSignCount (h : Represents P u table) (credentialId : String) :
    Persists out u (changes table (.incrementSignCount credentialId))
      (incrementSignCount out credentialId u) := by
  cases next : nextSignCount credentialId u with
  | ok n =>
    obtain ⟨e, found, room, _⟩ := nextSignCount_ok.mp next
    have moves : changes table (.incrementSignCount credentialId) = true := by
      rw [changes, found_row h found]
      simpa [entryToRecord] using room
    rw [moves, incrementSignCount_of_next next]
    refine Persists.bind ?_ fun _ => quiet_pure n
    exact persists_save ((frame_mapEntries _ u).isVaultOpen.trans h.isOpen) rfl
  | error e =>
    have stays : changes table (.incrementSignCount credentialId) = false := by
      rw [changes, ← findById_eq h, Plugin.findById]
      cases found : u.entries.find? (hasId credentialId) with
      | none => rfl
      | some entry =>
        by_contra moves
        have room : entry.signCount ≠ uintMaxValue := by simpa [entryToRecord] using moves
        rw [nextSignCount_ok.mpr ⟨entry, found, room, rfl⟩] at next
        cases next
    rw [stays, incrementSignCount_of_error next]
    exact .nothing rfl

theorem persists_of_file {α : Type} {x : EStateM.Result Exn Plugin α} (h : Persists out u changed x)
    (same : u.file = s.file) : Persists out s changed x :=
  ⟨h.stored, fun unsaved => (h.kept unsaved).trans same, h.refused⟩

theorem persists_comes {op : Option Op} {x : EStateM.Result Exn Plugin JToken}
    (h : Represents P s table) (comes : Comes P out s op x) :
    Persists out s (op.any (changes table)) x := by
  cases comes with
  | reads same => exact .nothing same.file
  | adds same quiet =>
    exact persists_of_file
      ((persists_add (same.isVaultOpen.trans h.isOpen) _).bind quiet) same.file
  | deletes same quiet =>
    exact persists_of_file ((persists_delete (represents_untouched h same) _).bind quiet) same.file
  | counts same quiet =>
    exact persists_of_file
      ((persists_incrementSignCount (represents_untouched h same) _).bind quiet) same.file

end

/-- `used` are the ids that the requests so far came with. -/
structure Machine where
  plugin : Plugin
  ledger : Ledger Op
  used : List String
  handling : Option Request

inductive Event where
  | receive (r : Request)
  | answer
  | save (out : Outside)
  | close
  | reopen

def Plugin.reopened (s : Plugin) : Plugin := { s with database := some ⟨true, s.file⟩ }

def newId (r : Request) : String := Base64Url.encode r.out.credentialId

section
variable (P : Platform) (setup : Setup) (base : Table)

def Machine.service (m : Machine) : Service := ⟨replay base m.ledger.all, m.plugin.uvFallbackPrompt⟩

/-- What the request changes, if the vault is open and it comes to something. -/
def Machine.operation (m : Machine) (r : Request) : Option Op :=
  if m.plugin.isVaultOpen then
    ((m.service base).operation P setup r).filter (changes (m.service base).table)
  else none

def Machine.handled (m : Machine) (r : Request) : Machine :=
  let result := handle P r.out r.method r.params m.plugin
  { plugin := final result
    ledger := (m.operation P setup base r).elim m.ledger fun op =>
      m.ledger.perform op r.out.save.isNone (!failed result)
    used := m.used ++ [newId r]
    handling := none }

/-- The pipe serves one request after the other. All that a request does is done when it is
answered: it would not be if the database were closed under it. -/
def next (m : Machine) : Event → Option Machine
  | .receive r => if m.handling.isNone then some { m with handling := some r } else none
  | .answer => m.handling.map (m.handled P setup base)
  | .save out =>
    if m.plugin.isVaultOpen then
      some { m with
        plugin := final (save out m.plugin)
        ledger := if out.save.isNone then m.ledger.store else m.ledger }
    else none
  | .close => some { m with plugin := { m.plugin with database := none }, ledger := m.ledger.lose }
  | .reopen =>
    if m.plugin.database.isNone then some { m with plugin := Plugin.reopened m.plugin } else none

def step (m : Machine) (event : Event) (m' : Machine) : Prop := next P setup base m event = some m'

end

def Machine.start (plugin : Plugin) : Machine := ⟨plugin, Ledger.empty, [], none⟩

/-- The ids that requests come with are new, and nobody saves, closes or opens the database while a
request is handled. -/
def Fits (base : Table) (m : Machine) : Event → Prop
  | .receive _ => True
  | .answer => ∀ r, m.handling = some r → newId r ∉ base.order ++ m.used
  | .save _ | .close | .reopen => m.handling = none

def addedIds (ops : List Op) : List String := (addedRecords ops).map PasskeyRecord.credentialId

/-- Memory holds what all operations leave, the file what the kept ones do. -/
structure Inv (P : Platform) (setup : Setup) (base : Table) (m : Machine) : Prop where
  memory : m.plugin.isVaultOpen = true → Represents P m.plugin (replay base m.ledger.all)
  file : Represents P (Plugin.reopened m.plugin) (replay base m.ledger.kept)
  opSignPubKey : m.plugin.opSignPubKey = setup.opSignPubKey
  skipPluginSigVerify : m.plugin.skipPluginSigVerify = setup.skipPluginSigVerify
  culture : m.plugin.culture = setup.culture
  distinct : (base.order ++ addedIds m.ledger.all).Nodup
  known : ∀ id ∈ addedIds m.ledger.all, id ∈ m.used
  zero : ∀ record ∈ addedRecords m.ledger.all, record.signCount = 0
  durable : m.ledger.Durable
  closed : m.plugin.isVaultOpen = false → m.ledger.pending = []

theorem addedIds_append (ops ops' : List Op) :
    addedIds (ops ++ ops') = addedIds ops ++ addedIds ops' := by
  rw [addedIds, addedRecords_append, List.map_append]
  rfl

theorem order_replay {base : Table} {ops : List Op} (distinct : (base.order ++ addedIds ops).Nodup) :
    (replay base ops).order = base.order ++ addedIds ops := by
  induction ops using List.reverseRecOn with
  | nil => exact (List.append_nil _).symm
  | append_singleton ops op ih =>
    rw [addedIds_append, ← List.append_assoc] at distinct
    have before := ih (List.nodup_append.mp distinct).1
    have fresh : ∀ r, op.added = some r → r.credentialId ∉ (replay base ops).order := by
      intro r own here
      rw [before] at here
      refine (List.nodup_append.mp distinct).2.2 _ here r.credentialId ?_ rfl
      simp [addedIds, addedRecords, own]
    rw [replay_snoc, order_apply fresh, before, addedIds_append, ← List.append_assoc]
    cases op <;> rfl

theorem addedIds_sublist {ops ops' : List Op} (h : ops.Sublist ops') :
    (addedIds ops).Sublist (addedIds ops') :=
  (h.filterMap _).map _

section
variable {P : Platform} {setup : Setup} {base : Table} {m : Machine} {s u : Plugin} {t : Table}

theorem represents_same_file (h : Represents P (Plugin.reopened s) t) (file : u.file = s.file)
    (culture : u.culture = s.culture) : Represents P (Plugin.reopened u) t := by
  refine represents_congr h rfl culture ?_
  rw [Plugin.reopened, Plugin.reopened, file]
  rfl

theorem represents_stored (h : Represents P u t) (stored : Plugin.fileEntries u = u.entries) :
    Represents P (Plugin.reopened u) t :=
  represents_congr h h.isOpen.symm rfl ((entries_reopened u _ rfl).trans stored)

theorem after_filter (t : Table) (op : Option Op) :
    after t (op.filter (changes t)) = after t op := by
  cases op with
  | none => rfl
  | some op =>
    cases moves : changes t op with
    | true => rw [Option.filter_some_pos moves]
    | false =>
      rw [Option.filter_some_neg (by simp [moves])]
      exact (apply_unchanged moves).symm

theorem inv_idle (h : Inv P setup base m) (held : Held m.plugin u)
    (memory : u.isVaultOpen = true → Represents P u (replay base m.ledger.all))
    (file : u.file = m.plugin.file) (id : String) :
    Inv P setup base ⟨u, m.ledger, m.used ++ [id], none⟩ where
  memory := memory
  file := represents_same_file h.file file held.culture
  opSignPubKey := held.opSignPubKey.trans h.opSignPubKey
  skipPluginSigVerify := held.skipPluginSigVerify.trans h.skipPluginSigVerify
  culture := held.culture.trans h.culture
  distinct := h.distinct
  known id here := List.mem_append_left _ (h.known id here)
  zero := h.zero
  durable := h.durable
  closed shut := h.closed (held.isVaultOpen.symm.trans shut)

/-- An operation is done in memory, and is in the file if `Save` does not throw. -/
theorem inv_perform (h : Inv P setup base m) (held : Held m.plugin u)
    (isOpen : m.plugin.isVaultOpen = true) {op : Op} {r : Request} {answered : Bool}
    (fresh : newId r ∉ base.order ++ m.used)
    (new : ∀ record, op.added = some record → NewRecord r.out record)
    (memory : Represents P u (replay base (m.ledger.all ++ [op])))
    (stored : r.out.save = none → Plugin.fileEntries u = u.entries)
    (kept : r.out.save ≠ none → u.file = m.plugin.file)
    (safe : answered = true → r.out.save = none) :
    Inv P setup base
      ⟨u, m.ledger.perform op r.out.save.isNone answered, m.used ++ [newId r], none⟩ := by
  have own : ∀ record ∈ addedRecords [op], record.credentialId = newId r ∧ record.signCount = 0 := by
    intro record here
    have added : op.added = some record := by simpa [addedRecords] using here
    exact ⟨(new record added).credentialId, (new record added).signCount⟩
  have ids : ∀ id ∈ addedIds [op], id = newId r := by
    intro id here
    obtain ⟨record, added, rfl⟩ := List.mem_map.mp here
    exact (own record added).1
  have once : (addedIds [op]).Nodup := by
    cases op with
    | add record => exact List.nodup_singleton _
    | _ => exact List.nodup_nil
  refine ⟨fun _ => ?_, ?_, held.opSignPubKey.trans h.opSignPubKey,
    held.skipPluginSigVerify.trans h.skipPluginSigVerify, held.culture.trans h.culture,
    ?_, ?_, ?_, h.durable.perform fun a => ?_, fun shut => ?_⟩
  · rw [Ledger.all_perform]
    exact memory
  · rw [Ledger.kept_perform]
    cases saves : r.out.save with
    | none => exact represents_stored memory (stored saves)
    | some message =>
      exact represents_same_file h.file (kept (saves ▸ Option.some_ne_none message)) held.culture
  · rw [Ledger.all_perform, addedIds_append, ← List.append_assoc, List.nodup_append]
    refine ⟨h.distinct, once, fun id here id' now same => ?_⟩
    rw [same, ids id' now] at here
    rcases List.mem_append.mp here with old | earlier
    · exact fresh (List.mem_append_left _ old)
    · exact fresh (List.mem_append_right _ (h.known _ earlier))
  · intro id here
    rw [Ledger.all_perform, addedIds_append] at here
    rcases List.mem_append.mp here with earlier | now
    · exact List.mem_append_left _ (h.known id earlier)
    · rw [ids id now]
      exact List.mem_append_right _ List.mem_cons_self
  · intro record here
    rw [Ledger.all_perform, addedRecords_append] at here
    rcases List.mem_append.mp here with earlier | now
    · exact h.zero record earlier
    · exact (own record now).2
  · rw [safe a]
    rfl
  · rw [held.isVaultOpen.trans isOpen] at shut
    cases shut

theorem inv_request (h : Inv P setup base m) {r : Request} (fresh : newId r ∉ base.order ++ m.used)
    (reads : ReadsAlgorithms setup.culture) : Inv P setup base (m.handled P setup base r) := by
  have held := handle_held P r.out r.method r.params m.plugin
  unfold Machine.handled Machine.operation
  cases isOpen : m.plugin.isVaultOpen with
  | false =>
    rw [handle_of_closed isOpen] at held ⊢
    have shut : (Plugin.called m.plugin).isVaultOpen ≠ true := by
      rw [show (Plugin.called m.plugin).isVaultOpen = false from isOpen]
      decide
    exact inv_idle h held (fun opened => absurd opened shut) rfl _
  | true =>
    have implements : Implements P setup m.plugin (m.service base) :=
      ⟨h.memory isOpen, h.opSignPubKey, h.skipPluginSigVerify, h.culture, rfl⟩
    have called := implements_called implements
    have comes := comes_dispatch (r := r) called
    rw [handle_of_open isOpen] at held ⊢
    have admits : Admits P (Plugin.called m.plugin).culture (m.service base).table
        ((m.service base).operation P setup r) := by
      intro record op
      have new := newRecord_of_operation op
      rw [called.culture]
      refine ⟨fun here => ?_, new.reads reads⟩
      rw [show (m.service base).table.order = _ from order_replay h.distinct, new.credentialId]
        at here
      rcases List.mem_append.mp here with old | earlier
      · exact fresh (List.mem_append_left _ old)
      · exact fresh (List.mem_append_right _ (h.known _ earlier))
    have memory := represents_comes called.represents admits comes
    have persists := persists_comes called.represents comes
    rw [← after_filter] at memory
    rw [← Option.isSome_filter] at persists
    rw [if_pos rfl]
    cases op : ((m.service base).operation P setup r).filter (changes (m.service base).table) with
    | none =>
      rw [op] at memory persists
      exact inv_idle h held (fun _ => memory) (persists.kept (.inl rfl)) _
    | some op' =>
      rw [op] at memory persists
      refine inv_perform h held isOpen fresh (fun record own => ?_) ?_ (persists.stored rfl)
        (fun unsaved => persists.kept (.inr unsaved)) fun answered => ?_
      · cases op' <;> cases own
        exact newRecord_of_operation (Option.filter_eq_some_iff.mp op).1
      · rw [replay_snoc]
        exact memory
      · by_contra unsaved
        rw [persists.refused rfl unsaved] at answered
        cases answered

theorem inv_save (h : Inv P setup base m) (isOpen : m.plugin.isVaultOpen = true) (out : Outside) :
    Inv P setup base { m with
      plugin := final (save out m.plugin)
      ledger := if out.save.isNone then m.ledger.store else m.ledger } := by
  have frame := (save_entries out m.plugin).2
  have memory : Represents P (final (save out m.plugin)) (replay base m.ledger.all) :=
    represents_congr (h.memory isOpen) frame.isVaultOpen frame.culture (save_entries out m.plugin).1
  have persists : Persists out m.plugin true (save out m.plugin) := persists_save isOpen rfl
  have opened := frame.isVaultOpen.trans isOpen
  have setup := And.intro (frame.opSignPubKey.trans h.opSignPubKey) <| And.intro
    (frame.skipPluginSigVerify.trans h.skipPluginSigVerify) (frame.culture.trans h.culture)
  cases saves : out.save with
  | none =>
    change Inv P _ base ⟨_, m.ledger.store, m.used, m.handling⟩
    refine ⟨fun _ => ?_, ?_, setup.1, setup.2.1, setup.2.2, ?_, ?_, ?_, h.durable.store,
      fun _ => rfl⟩
    · rw [Ledger.all_store]
      exact memory
    · exact represents_stored memory (persists.stored rfl saves)
    · rw [Ledger.all_store]
      exact h.distinct
    · rw [Ledger.all_store]
      exact h.known
    · rw [Ledger.all_store]
      exact h.zero
  | some message =>
    have unsaved : out.save ≠ none := saves ▸ Option.some_ne_none _
    refine ⟨fun _ => memory, ?_, setup.1, setup.2.1, setup.2.2, h.distinct, h.known, h.zero,
      h.durable, fun shut => ?_⟩
    · exact represents_same_file h.file (persists.kept (.inr unsaved)) frame.culture
    · rw [opened] at shut
      cases shut

theorem inv_close (h : Inv P setup base m) :
    Inv P setup base
      { m with plugin := { m.plugin with database := none }, ledger := m.ledger.lose } := by
  have fewer := addedIds_sublist m.ledger.kept_sublist
  refine ⟨nofun, represents_same_file h.file rfl rfl, h.opSignPubKey, h.skipPluginSigVerify,
    h.culture, ?_, ?_, ?_, h.durable.lose, fun _ => rfl⟩
  · rw [Ledger.all_lose]
    exact h.distinct.sublist ((List.Sublist.refl _).append fewer)
  · rw [Ledger.all_lose]
    exact fun id here => h.known id (fewer.subset here)
  · rw [Ledger.all_lose]
    exact fun record here => h.zero record ((m.ledger.kept_sublist.filterMap _).subset here)

theorem inv_reopen (h : Inv P setup base m) (shut : m.plugin.database = none) :
    Inv P setup base { m with plugin := Plugin.reopened m.plugin } := by
  have closed : m.plugin.isVaultOpen = false := by rw [Plugin.isVaultOpen, shut]
  have nothing := h.closed closed
  have whole : m.ledger.all = m.ledger.kept := by
    rw [Ledger.all, nothing, List.append_nil]
  refine ⟨fun _ => ?_, represents_same_file h.file rfl rfl, h.opSignPubKey, h.skipPluginSigVerify,
    h.culture, h.distinct, h.known, h.zero, h.durable, fun _ => nothing⟩
  rw [whole]
  exact h.file

theorem inv_step (reads : ReadsAlgorithms setup.culture) {event : Event} {m' : Machine}
    (h : Inv P setup base m) (moved : restrict (Fits base) (step P setup base) m event m') :
    Inv P setup base m' := by
  obtain ⟨fits, moved⟩ := moved
  change next P setup base m event = some m' at moved
  cases event with
  | receive r =>
    simp only [next] at moved
    split_ifs at moved
    obtain rfl := Option.some.inj moved
    exact ⟨h.memory, h.file, h.opSignPubKey, h.skipPluginSigVerify, h.culture, h.distinct, h.known,
      h.zero, h.durable, h.closed⟩
  | answer =>
    obtain ⟨r, handling, rfl⟩ := Option.map_eq_some_iff.mp moved
    exact inv_request h (fits r handling) reads
  | save out =>
    change (if m.plugin.isVaultOpen then _ else none) = some m' at moved
    by_cases isOpen : m.plugin.isVaultOpen = true
    · rw [if_pos isOpen] at moved
      obtain rfl := Option.some.inj moved
      exact inv_save h isOpen out
    · rw [if_neg isOpen] at moved
      cases moved
  | close =>
    obtain rfl := Option.some.inj moved
    exact inv_close h
  | reopen =>
    simp only [next] at moved
    split_ifs at moved with shut
    obtain rfl := Option.some.inj moved
    exact inv_reopen h (Option.isNone_iff_eq_none.mp shut)

theorem answers_replay {ops : List Op} (start : Represents P s base)
    (h : Represents P u (replay base ops)) (distinct : (base.order ++ addedIds ops).Nodup)
    (zero : ∀ record ∈ addedRecords ops, record.signCount = 0) : Answers P base ops u := by
  have content : ∀ credentialId,
      (replay base ops).content credentialId = standing base ops credentialId :=
    standing_eq start zero
  refine answers_of_represents h ?_ content
  rw [OrderedTable.rows, order_replay distinct, live]
  exact List.filterMap_congr fun credentialId _ => content credentialId

end

/-- However requests, failing `Save`s, closings and reopenings alternate: an open vault answers
as the table that all operations leave, the file opens to the one that the kept operations leave,
and the operations answered with success are among the kept ones, in their order. -/
theorem vault_durable (P : Platform) (setup : Setup) (base : Table) (plugin : Plugin)
    (events : List Event) (m : Machine)
    (run : Run (restrict (Fits base) (step P setup base)) (Machine.start plugin) events m)
    (h : Implements P setup plugin ⟨base, plugin.uvFallbackPrompt⟩)
    (saved : Plugin.fileEntries plugin = plugin.entries) (reads : ReadsAlgorithms setup.culture) :
    m.ledger.acknowledged.Sublist m.ledger.kept ∧
      (m.plugin.isVaultOpen = true → Answers P base m.ledger.all m.plugin) ∧
      Answers P base m.ledger.kept (Plugin.reopened m.plugin) := by
  have start : Inv P setup base (Machine.start plugin) := by
    refine ⟨fun _ => h.represents, represents_stored h.represents saved, h.opSignPubKey,
      h.skipPluginSigVerify, h.culture, ?_, nofun, nofun, .empty, fun _ => rfl⟩
    exact (List.append_nil base.order).symm ▸ base.nodup
  have inv := run.invariant (fun _ _ _ h moved => inv_step reads h moved) start
  refine ⟨inv.durable, fun isOpen => ?_, ?_⟩
  · exact answers_replay h.represents (inv.memory isOpen) inv.distinct inv.zero
  · have fewer := m.ledger.kept_sublist
    refine answers_replay h.represents inv.file ?_ fun record here => ?_
    · exact inv.distinct.sublist ((List.Sublist.refl _).append (addedIds_sublist fewer))
    · exact inv.zero record ((fewer.filterMap _).subset here)

theorem ledger_handled {P : Platform} {setup : Setup} {base : Table} {m : Machine} {r : Request}
    {op : Op} {refused : Bool} (operation : m.operation P setup base r = some op)
    (answer : failed (handle P r.out r.method r.params m.plugin) = refused) :
    (m.handled P setup base r).ledger = m.ledger.perform op r.out.save.isNone (!refused) := by
  simp only [Machine.handled, operation, answer, Option.elim_some]

namespace Sample
open VaultService.Sample (create unsavedLogin credentialId setup createdTable operation_create
  operation_login login_fails)

def platform : Platform := VaultOutcomes.Sample.platform []

/-- A registration, a login for which `Save` throws, and the file closed and opened. -/
def events : List Event :=
  [.receive create, .answer, .receive unsavedLogin, .answer, .close, .reopen]

def added : Op := .add (VaultWellFormedness.Sample.created "AQIDBA")

def counted : Op := .incrementSignCount credentialId

def start : Machine := Machine.start VaultOutcomes.Sample.plugin

def registered : Machine := start.handled platform setup OrderedTable.empty create

def loggedIn : Machine := registered.handled platform setup OrderedTable.empty unsavedLogin

def closed : Machine := { loggedIn with
  plugin := { loggedIn.plugin with database := none }
  ledger := loggedIn.ledger.lose }

def reopened : Machine := { closed with plugin := Plugin.reopened closed.plugin }

theorem create_answered :
    failed (handle platform create.out create.method create.params start.plugin) = false := by
  decide +kernel

theorem ledger_registered : registered.ledger = ⟨[added], [], [added]⟩ := by
  have op : start.operation platform setup OrderedTable.empty create = some added :=
    congrArg (Option.filter (changes OrderedTable.empty)) operation_create
  rw [registered, ledger_handled op create_answered]
  rfl

theorem ledger_loggedIn : loggedIn.ledger = ⟨[added], [counted], [added]⟩ := by
  have isOpen : registered.plugin.isVaultOpen = true := by decide +kernel
  have prompt : registered.plugin.uvFallbackPrompt = VaultService.Sample.service.prompt := by
    decide +kernel
  have service : registered.service OrderedTable.empty =
      ⟨createdTable, VaultService.Sample.service.prompt⟩ := by
    rw [Machine.service, ledger_registered, prompt]
    rfl
  have moves : changes createdTable counted = true := by decide +kernel
  have op : registered.operation platform setup OrderedTable.empty unsavedLogin = some counted := by
    rw [Machine.operation, if_pos isOpen, service, platform, operation_login]
    exact Option.filter_some_pos moves
  have fails : failed (handle platform unsavedLogin.out unsavedLogin.method unsavedLogin.params
      registered.plugin) = true := login_fails
  rw [loggedIn, ledger_handled op fails, ledger_registered]
  rfl

theorem ledger_reopened : reopened.ledger = ⟨[added], [], [added]⟩ := by
  have lost : reopened.ledger = loggedIn.ledger.lose := by rw [reopened, closed]
  rw [lost, ledger_loggedIn]
  rfl

theorem run_events : Run (restrict (Fits OrderedTable.empty) (step platform setup OrderedTable.empty))
    start events reopened :=
  .cons ⟨trivial, rfl⟩ <| .cons (t := registered) ⟨fun _ same => by cases same; decide, rfl⟩ <|
    .cons ⟨trivial, rfl⟩ <| .cons (t := loggedIn) ⟨fun _ same => by cases same; decide, rfl⟩ <|
      .cons (t := closed) ⟨rfl, rfl⟩ <| .single ⟨rfl, rfl⟩

end Sample

theorem vault_durable_sample :
    Run (restrict (Fits OrderedTable.empty)
        (step Sample.platform VaultService.Sample.setup OrderedTable.empty))
      Sample.start Sample.events Sample.reopened ∧
      Sample.loggedIn.ledger.all = [Sample.added, Sample.counted] ∧
      Sample.reopened.ledger.acknowledged = [Sample.added] ∧
      Sample.reopened.ledger.kept = [Sample.added] ∧
      Sample.reopened.plugin.isVaultOpen = true ∧
      Answers Sample.platform OrderedTable.empty [Sample.added]
        (Plugin.reopened Sample.reopened.plugin) := by
  have both : Sample.loggedIn.ledger.all = [Sample.added, Sample.counted] := by
    rw [Sample.ledger_loggedIn]
    rfl
  have acknowledged : Sample.reopened.ledger.acknowledged = [Sample.added] := by
    rw [Sample.ledger_reopened]
  have kept : Sample.reopened.ledger.kept = [Sample.added] := by rw [Sample.ledger_reopened]
  have durable := vault_durable Sample.platform VaultService.Sample.setup OrderedTable.empty
    VaultOutcomes.Sample.plugin Sample.events Sample.reopened Sample.run_events
    ⟨StoreRefinement.represents_empty rfl rfl, rfl, rfl, rfl, rfl⟩ rfl VaultService.Sample.reads
  refine ⟨Sample.run_events, both, acknowledged, kept, rfl, ?_⟩
  rw [← kept]
  exact durable.2.2

end KeePassKeyWin.DurableVault
