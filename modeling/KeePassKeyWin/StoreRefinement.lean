import KeePassKeyWin.CredentialSelection
import KeePassKeyWin.CultureIndependence
import KeePassKeyWin.KeyedTables

set_option autoImplicit false

/-!
# The store as a table of records

Each operation on the entries of the group does to the records read from them what the operation
of an ordered table does, over any run on an open database.
-/
namespace KeePassKeyWin.StoreRefinement
open JsonRpc NumberFormat NumberReading PlatformServices FirstMatch KeyedTables PasskeyStore
open CultureIndependence (AlgorithmReadsBack algorithmReadsBack_iff rs256Record opened add_opened)
open VaultOutcomes (Sample.lineless Sample.outside)
open CredentialSelection (hasId_iff hasRpId_iff)

inductive Op where
  | add (record : PasskeyRecord)
  | delete (credentialId : String)
  | incrementSignCount (credentialId : String)
  | findById (credentialId : String)
  | findByRpId (rpId : String)
  | getAll

inductive Answer where
  | done
  | threw
  | deleted (found : Bool)
  | counted (signCount : ℕ)
  | found (record : Option PasskeyRecord)
  | records (records : List PasskeyRecord)

/-- The credential that an operation is about. -/
def Op.target : Op → Option String
  | .add record => some record.credentialId
  | .delete credentialId | .incrementSignCount credentialId => some credentialId
  | _ => none

def Op.added : Op → Option PasskeyRecord
  | .add record => some record
  | _ => none

def addedRecords (ops : List Op) : List PasskeyRecord := ops.filterMap Op.added

def outcome {α : Type} (answer : α → Answer) : EStateM.Result Exn Plugin α → Plugin × Answer
  | .ok a s => (s, answer a)
  | .error _ s => (s, .threw)

def perform (P : Platform) (out : Outside) (s : Plugin) : Op → Plugin × Answer
  | .add record => outcome (fun _ => .done) (add P out record s)
  | .delete credentialId => outcome .deleted (delete out credentialId s)
  | .incrementSignCount credentialId => outcome .counted (incrementSignCount out credentialId s)
  | .findById credentialId => (s, .found (s.findById P credentialId))
  | .findByRpId rpId => (s, .records (s.findByRpId P rpId))
  | .getAll => (s, .records (s.getAll P))

def run (P : Platform) (out : Outside) : Plugin → List Op → Plugin × List Answer
  | s, [] => (s, [])
  | s, op :: ops =>
    let (s', answer) := perform P out s op
    let (t, answers) := run P out s' ops
    (t, answer :: answers)

abbrev Table := OrderedTable PasskeyRecord.credentialId

def counted (n : ℕ) (r : PasskeyRecord) : PasskeyRecord :=
  { r with signCount := min (r.signCount + n) uintMaxValue }

theorem counted_credentialId (n : ℕ) (r : PasskeyRecord) :
    (counted n r).credentialId = r.credentialId := rfl

def Table.apply (t : Table) : Op → Table
  | .add record => t.insert record
  | .delete credentialId => t.erase credentialId
  | .incrementSignCount credentialId => t.modify credentialId (counted 1) (counted_credentialId 1)
  | _ => t

def Table.answer (t : Table) : Op → Answer
  | .add _ => .done
  | .delete credentialId => .deleted (t.content credentialId).isSome
  | .incrementSignCount credentialId =>
    match t.content credentialId with
    | some r => if r.signCount = uintMaxValue then .threw else .counted (r.signCount + 1)
    | none => .threw
  | .findById credentialId => .found (t.content credentialId)
  | .findByRpId rpId => .records (t.rows.filter fun r => r.rpId == rpId)
  | .getAll => .records t.rows

def Table.run : Table → List Op → Table × List Answer
  | t, [] => (t, [])
  | t, op :: ops =>
    let (t', answers) := Table.run (t.apply op) ops
    (t', t.answer op :: answers)

/-- The record that stands under an id, and how often it was counted since it was added. -/
def track (credentialId : String) (now : Option (PasskeyRecord × ℕ)) :
    Op → Option (PasskeyRecord × ℕ)
  | .add record => if record.credentialId = credentialId then some (record, 0) else now
  | .delete id => if id = credentialId then none else now
  | .incrementSignCount id =>
    if id = credentialId then now.map fun (r, n) => (r, n + 1) else now
  | _ => now

def standing (t : Table) (ops : List Op) (credentialId : String) : Option PasskeyRecord :=
  (ops.foldl (track credentialId) ((t.content credentialId).map fun r => (r, 0))).map
    fun (r, n) => counted n r

/-- In the order in which their ids were first added. -/
def live (t : Table) (ops : List Op) : List PasskeyRecord :=
  (t.order ++ (addedRecords ops).map PasskeyRecord.credentialId).filterMap (standing t ops)

def groupNames (s : Plugin) : List String :=
  match s.database with
  | some db => db.groups.map PwGroup.name
  | none => []

/-- The store holds the rows of the table, each in an entry that lists its id and its relying
party. -/
structure Represents (P : Platform) (s : Plugin) (t : Table) : Prop where
  isOpen : s.isVaultOpen = true
  rows : s.entries.map (entryToRecord P s.culture) = t.rows
  identified : ∀ e ∈ s.entries, e.credentialId ≠ none
  listed : ∀ e ∈ s.entries, e.strings.lookup keyRpId ≠ none

theorem represents_empty {P : Platform} {s : Plugin} (isOpen : s.isVaultOpen = true)
    (none : s.entries = []) : Represents P s OrderedTable.empty := by
  refine ⟨isOpen, ?_, ?_, ?_⟩
  · rw [none]
    rfl
  · rw [none]
    nofun
  · rw [none]
    nofun

/-- Entries with ids of their own are the rows of a table. -/
theorem exists_represents {P : Platform} {s : Plugin} (isOpen : s.isVaultOpen = true)
    (identified : ∀ e ∈ s.entries, e.credentialId ≠ none)
    (listed : ∀ e ∈ s.entries, e.strings.lookup keyRpId ≠ none)
    (distinct : (s.entries.map PwEntry.credentialId).Nodup) :
    ∃ t : Table, Represents P s t ∧ t.order = s.entries.filterMap PwEntry.credentialId := by
  have row : ∀ e ∈ s.entries, (e.credentialId.bind fun id => s.findById P id) =
      some (entryToRecord P s.culture e) := by
    intro e here
    obtain ⟨id, own⟩ := Option.ne_none_iff_exists'.mp (identified e here)
    rw [own, Option.bind_some, Plugin.findById, CredentialSelection.find?_of_mem distinct here own]
    rfl
  refine ⟨⟨s.entries.filterMap PwEntry.credentialId, fun id => s.findById P id, ?_, ?_⟩,
    ⟨isOpen, ?_, identified, listed⟩, rfl⟩
  · have texts := distinct.filterMap (f := id) fun a a' b own own' =>
      (Option.mem_def.mp own).trans (Option.mem_def.mp own').symm
    rwa [List.filterMap_map] at texts
  · intro id r found
    obtain ⟨e, hit, rfl⟩ := Option.map_eq_some_iff.mp found
    have own := hasId_iff.mp (List.find?_some hit)
    exact ⟨List.mem_filterMap.mpr ⟨e, List.mem_of_find?_eq_some hit, own⟩,
      CredentialSelection.entryToRecord_credentialId own⟩
  · rw [OrderedTable.rows, List.filterMap_filterMap, List.filterMap_congr row,
      List.filterMap_eq_map']

section
variable {P : Platform} {out : Outside} {s s' : Plugin} {t : Table} {credentialId : String}

theorem hasKey_entry (culture : NumberFormatInfo) {e : PwEntry}
    (identified : e.credentialId ≠ none) :
    hasKey PasskeyRecord.credentialId credentialId (entryToRecord P culture e) =
      hasId credentialId e := by
  obtain ⟨id, own⟩ := Option.ne_none_iff_exists'.mp identified
  rw [Bool.eq_iff_iff, hasKey_iff, hasId_iff, own, entryToRecord, own, Option.getD_some,
    Option.some.injEq]

theorem hasRpId_entry (culture : NumberFormatInfo) {rpId : String} {e : PwEntry}
    (listed : e.strings.lookup keyRpId ≠ none) :
    ((entryToRecord P culture e).rpId == rpId) = hasRpId rpId e := by
  obtain ⟨id, own⟩ := Option.ne_none_iff_exists'.mp listed
  rw [Bool.eq_iff_iff, beq_iff_eq, hasRpId_iff, own, entryToRecord, own, Option.getD_some,
    Option.some.injEq]

theorem keys (h : Represents P s t) : ∀ e ∈ s.entries,
    hasKey PasskeyRecord.credentialId credentialId (entryToRecord P s.culture e) =
      hasId credentialId e :=
  fun e here => hasKey_entry s.culture (h.identified e here)

theorem findById_eq (h : Represents P s t) (credentialId : String) :
    s.findById P credentialId = t.content credentialId := by
  rw [Plugin.findById, find?_image (keys h), h.rows, OrderedTable.find?_rows]

theorem findByRpId_eq (h : Represents P s t) (rpId : String) :
    s.findByRpId P rpId = t.rows.filter fun r => r.rpId == rpId := by
  rw [Plugin.findByRpId, filter_image (q := fun r => r.rpId == rpId)
    fun e here => hasRpId_entry s.culture (h.listed e here), h.rows]

theorem any_hasId (h : Represents P s t) (credentialId : String) :
    s.entries.any (hasId credentialId) = (t.content credentialId).isSome := by
  rw [← findById_eq h, Plugin.findById, Option.isSome_map, Bool.eq_iff_iff, List.any_eq_true,
    List.find?_isSome]

theorem found_row (h : Represents P s t) {e : PwEntry}
    (found : s.entries.find? (hasId credentialId) = some e) :
    t.content credentialId = some (entryToRecord P s.culture e) := by
  rw [← findById_eq h, Plugin.findById, found]
  rfl

theorem represents_add {r : PasskeyRecord} (h : Represents P s t)
    (fresh : r.credentialId ∉ t.order)
    (reads : entryToRecord P s.culture (recordToEntry P s.culture r) = r) :
    Represents P (s.addEntry (recordToEntry P s.culture r)).saved (t.insert r) := by
  have entries : (s.addEntry (recordToEntry P s.culture r)).saved.entries =
      s.entries ++ [recordToEntry P s.culture r] :=
    (saved_entries _).trans (entries_addEntry _ h.isOpen)
  have frame : Frame s (s.addEntry (recordToEntry P s.culture r)).saved :=
    (frame_addEntry _ _).trans _ _ _ (frame_saved _)
  refine ⟨frame.isVaultOpen.trans h.isOpen, ?_, ?_, ?_⟩
  · rw [frame.culture, entries, List.map_append, h.rows, OrderedTable.rows_insert fresh,
      List.map_singleton, reads]
  · rw [entries]
    intro e here
    rcases List.mem_append.mp here with old | new
    · exact h.identified e old
    · rw [List.mem_singleton.mp new]
      exact Option.some_ne_none _
  · rw [entries]
    intro e here
    rcases List.mem_append.mp here with old | new
    · exact h.listed e old
    · rw [List.mem_singleton.mp new]
      exact Option.some_ne_none _

theorem represents_delete (h : Represents P s t) (credentialId : String) :
    Represents P (s.mapEntries (List.eraseP (hasId credentialId))).saved
      (t.erase credentialId) := by
  have entries : (s.mapEntries (List.eraseP (hasId credentialId))).saved.entries =
      s.entries.eraseP (hasId credentialId) :=
    (saved_entries _).trans (entries_mapEntries rfl s)
  have frame : Frame s (s.mapEntries (List.eraseP (hasId credentialId))).saved :=
    (frame_mapEntries _ _).trans _ _ _ (frame_saved _)
  refine ⟨frame.isVaultOpen.trans h.isOpen, ?_, ?_, ?_⟩
  · rw [frame.culture, entries, eraseP_image (keys h), h.rows, OrderedTable.rows_erase]
  · rw [entries]
    exact fun e here => h.identified e (List.mem_of_mem_eraseP here)
  · rw [entries]
    exact fun e here => h.listed e (List.mem_of_mem_eraseP here)

theorem represents_counted (h : Represents P s t) {e : PwEntry}
    (found : s.entries.find? (hasId credentialId) = some e) (notMax : e.signCount ≠ uintMaxValue) :
    Represents P (s.counted credentialId (e.signCount + 1)).saved
      (t.modify credentialId (counted 1) (counted_credentialId 1)) := by
  have entries : (s.counted credentialId (e.signCount + 1)).saved.entries =
      modifyFirst (hasId credentialId) (PwEntry.setSignCount (e.signCount + 1)) s.entries :=
    (saved_entries _).trans (entries_mapEntries rfl s)
  have frame : Frame s (s.counted credentialId (e.signCount + 1)).saved :=
    (frame_mapEntries _ _).trans _ _ _ (frame_saved _)
  have small := next_lt notMax
  have fits : ∀ e', s.entries.find? (hasId credentialId) = some e' →
      entryToRecord P s.culture (e'.setSignCount (e.signCount + 1)) =
        counted 1 (entryToRecord P s.culture e') := by
    intro e' found'
    obtain rfl := Option.some.inj (found.symm.trans found')
    have below : min (e.signCount + 1) uintMaxValue = e.signCount + 1 := by
      simp only [uintMaxValue]
      omega
    rw [entryToRecord_setSignCount P s.culture small, counted]
    exact congrArg (fun n => { entryToRecord P s.culture e with signCount := n }) below.symm
  refine ⟨frame.isVaultOpen.trans h.isOpen, ?_, ?_, ?_⟩
  · rw [frame.culture, entries, modifyFirst_image (keys h) fits, h.rows,
      OrderedTable.rows_modify]
  · rw [entries]
    intro e' here
    rcases mem_modifyFirst here with old | ⟨old, own, _, rfl⟩
    · exact h.identified e' old
    · exact h.identified old own
  · rw [entries]
    intro e' here
    rcases mem_modifyFirst here with old | ⟨old, own, _, rfl⟩
    · exact h.listed e' old
    · exact h.listed old own

def OneGroup (s s' : Plugin) : Prop :=
  groupNames s' = groupNames s ∨
    groupName ∉ groupNames s ∧ groupNames s' = groupNames s ++ [groupName]

theorem OneGroup.trans {u : Plugin} (h : OneGroup s s') (h' : OneGroup s' u) : OneGroup s u := by
  rcases h with same | ⟨new, added⟩
  · rcases h' with same' | ⟨new', added'⟩
    · exact .inl (same'.trans same)
    · rw [same] at new' added'
      exact .inr ⟨new', added'⟩
  · rcases h' with same' | ⟨new', _⟩
    · exact .inr ⟨new, same'.trans added⟩
    · rw [added] at new'
      exact absurd (List.mem_append_right _ (List.mem_singleton_self _)) new'

theorem groupNames_mapEntries (f : List PwEntry → List PwEntry) (s : Plugin) :
    groupNames (s.mapEntries f) = groupNames s := by
  cases database : s.database with
  | none => simp [groupNames, Plugin.mapEntries, Plugin.mapGroups, database]
  | some db =>
    simp only [groupNames, Plugin.mapEntries, Plugin.mapGroups, database, Option.map_some]
    exact map_modifyFirst (g := PwGroup.name) (f := fun g => { g with entries := f g.entries })
      (fun _ => rfl) db.groups

theorem groupNames_saved (s : Plugin) : groupNames s.saved = groupNames s := by
  rw [groupNames, groupNames, saved_database]

theorem oneGroup_mapEntries (f : List PwEntry → List PwEntry) (s : Plugin) :
    OneGroup s (s.mapEntries f).saved :=
  .inl ((groupNames_saved _).trans (groupNames_mapEntries f s))

theorem oneGroup_addEntry (e : PwEntry) (s : Plugin) : OneGroup s (s.addEntry e).saved := by
  rw [OneGroup, groupNames_saved, Plugin.addEntry, groupNames_mapEntries]
  cases database : s.database with
  | none => exact .inl (by simp [groupNames, Plugin.mapGroups, database])
  | some db =>
    simp only [groupNames, Plugin.mapGroups, database, Option.map_some, ensurePasskeysGroup]
    split_ifs with there
    · exact .inl rfl
    · refine .inr ⟨?_, by simp⟩
      intro named
      obtain ⟨g, here, own⟩ := List.mem_map.mp named
      exact there (List.any_eq_true.mpr ⟨g, here, beq_iff_eq.mpr own⟩)

structure Step (P : Platform) (out : Outside) (s : Plugin) (t : Table) (op : Op) : Prop where
  answer : (perform P out s op).2 = t.answer op
  represents : Represents P (perform P out s op).1 (t.apply op)
  culture : (perform P out s op).1.culture = s.culture
  group : OneGroup s (perform P out s op).1

theorem step_idle (h : Represents P s t) {op : Op} {answer : Answer}
    (done : perform P out s op = (s, answer)) (same : (t.apply op).rows = t.rows)
    (expected : answer = t.answer op) : Step P out s t op := by
  refine ⟨?_, ?_, ?_, ?_⟩
  · rw [done, ← expected]
  · rw [done]
    exact ⟨h.isOpen, h.rows.trans same.symm, h.identified, h.listed⟩
  · rw [done]
  · rw [done]
    exact .inl rfl

theorem step_changed {op : Op} {answer : Answer} {f : Plugin}
    (done : perform P out s op = (f.saved, answer)) (expected : answer = t.answer op)
    (represents : Represents P f.saved (t.apply op)) (frame : Frame s f)
    (group : OneGroup s f.saved) : Step P out s t op := by
  refine ⟨?_, ?_, ?_, ?_⟩
  · rw [done, ← expected]
  · rwa [done]
  · rw [done]
    exact (frame.trans _ _ _ (frame_saved f)).culture
  · rwa [done]

theorem absent_rows (absent : t.content credentialId = none) :
    ∀ r ∈ t.rows, ¬ hasKey PasskeyRecord.credentialId credentialId r = true := by
  rw [← OrderedTable.find?_rows, List.find?_eq_none] at absent
  exact absent

theorem step_delete (noThrow : out.save = none) (h : Represents P s t) (credentialId : String) :
    Step P out s t (.delete credentialId) := by
  have any := any_hasId h credentialId
  cases content : t.content credentialId with
  | some r =>
    rw [content, Option.isSome_some] at any
    have removed : delete out credentialId s =
        .ok true (s.mapEntries (List.eraseP (hasId credentialId))).saved := by
      rw [delete_ok, any, if_pos rfl]
      exact ⟨rfl, noThrow, rfl⟩
    have done : perform P out s (.delete credentialId) =
        ((s.mapEntries (List.eraseP (hasId credentialId))).saved, .deleted true) := by
      rw [perform, removed]
      rfl
    exact step_changed done (by rw [Table.answer, content]; rfl) (represents_delete h credentialId)
      (frame_mapEntries _ s) (oneGroup_mapEntries _ s)
  | none =>
    rw [content, Option.isSome_none] at any
    have kept : delete out credentialId s = .ok false s := by
      rw [delete_ok, any, if_neg Bool.false_ne_true]
      exact ⟨rfl, rfl⟩
    have done : perform P out s (.delete credentialId) = (s, .deleted false) := by
      rw [perform, kept]
      rfl
    refine step_idle h done ?_ (by rw [Table.answer, content]; rfl)
    exact OrderedTable.rows_erase.trans (List.eraseP_of_forall_not (absent_rows content))

theorem rows_counted (stays : ∀ r, t.content credentialId = some r →
    r.signCount = uintMaxValue) :
    (t.apply (.incrementSignCount credentialId)).rows = t.rows := by
  refine (OrderedTable.rows_modify (counted_credentialId 1)).trans ?_
  cases content : t.content credentialId with
  | none => exact modifyFirst_of_none (List.find?_eq_none.mpr (absent_rows content))
  | some r =>
    rw [← OrderedTable.find?_rows] at content
    obtain ⟨before, after, split, changed⟩ := modifyFirst_split (f := counted 1) content
    rw [OrderedTable.find?_rows] at content
    have top : counted 1 r = r := by
      have most : min (r.signCount + 1) uintMaxValue = r.signCount := by
        rw [stays r content]
        exact Nat.min_eq_right (Nat.le_succ _)
      rw [counted, most]
    rw [changed, top, ← split]

theorem step_threw (h : Represents P s t) {e : Exn}
    (failed : incrementSignCount out credentialId s = .error e s)
    (stays : ∀ r, t.content credentialId = some r → r.signCount = uintMaxValue) :
    Step P out s t (.incrementSignCount credentialId) := by
  have done : perform P out s (.incrementSignCount credentialId) = (s, .threw) := by
    rw [perform, failed]
    rfl
  refine step_idle h done (rows_counted stays) ?_
  rw [Table.answer]
  cases content : t.content credentialId with
  | none => rfl
  | some r => exact (if_pos (stays r content)).symm

theorem step_increment (noThrow : out.save = none) (h : Represents P s t)
    (credentialId : String) : Step P out s t (.incrementSignCount credentialId) := by
  cases next : nextSignCount credentialId s with
  | error e =>
    refine step_threw h (incrementSignCount_of_error next) fun r content => ?_
    rw [← findById_eq h] at content
    obtain ⟨entry, found, rfl⟩ := Option.map_eq_some_iff.mp content
    by_contra below
    rw [nextSignCount_ok.mpr ⟨entry, found, below, rfl⟩] at next
    cases next
  | ok n =>
    obtain ⟨e, found, notMax, rfl⟩ := nextSignCount_ok.mp next
    have content := found_row h found
    have counts : incrementSignCount out credentialId s =
        .ok (e.signCount + 1) (s.counted credentialId (e.signCount + 1)).saved :=
      incrementSignCount_ok.mpr ⟨e, found, notMax, rfl, noThrow, rfl⟩
    have done : perform P out s (.incrementSignCount credentialId) =
        ((s.counted credentialId (e.signCount + 1)).saved, .counted (e.signCount + 1)) := by
      rw [perform, counts]
      rfl
    refine step_changed done ?_ (represents_counted h found notMax) (frame_mapEntries _ s)
      (oneGroup_mapEntries _ s)
    rw [Table.answer, content]
    exact (if_neg notMax).symm

theorem step_add (noThrow : out.save = none) (h : Represents P s t) {r : PasskeyRecord}
    (fresh : r.credentialId ∉ t.order)
    (reads : entryToRecord P s.culture (recordToEntry P s.culture r) = r) :
    Step P out s t (.add r) := by
  obtain ⟨db, database, _⟩ := open_database h.isOpen
  have added : add P out r s = .ok () (s.addEntry (recordToEntry P s.culture r)).saved :=
    add_ok.mpr ⟨noThrow, by rw [database]; rfl, rfl⟩
  have done : perform P out s (.add r) =
      ((s.addEntry (recordToEntry P s.culture r)).saved, .done) := by
    rw [perform, added]
    rfl
  exact step_changed done rfl (represents_add h fresh reads) (frame_addEntry _ s)
    (oneGroup_addEntry _ s)

theorem step (noThrow : out.save = none) (h : Represents P s t) (op : Op)
    (admits : ∀ r, op.added = some r → r.credentialId ∉ t.order ∧
      entryToRecord P s.culture (recordToEntry P s.culture r) = r) : Step P out s t op := by
  cases op with
  | add r =>
    obtain ⟨fresh, reads⟩ := admits r rfl
    exact step_add noThrow h fresh reads
  | delete credentialId => exact step_delete noThrow h credentialId
  | incrementSignCount credentialId => exact step_increment noThrow h credentialId
  | findById credentialId => exact step_idle h rfl rfl (by rw [findById_eq h]; rfl)
  | findByRpId rpId => exact step_idle h rfl rfl (by rw [findByRpId_eq h]; rfl)
  | getAll => exact step_idle h rfl rfl (congrArg Answer.records h.rows)

theorem order_apply {op : Op} (fresh : ∀ r, op.added = some r → r.credentialId ∉ t.order) :
    (t.apply op).order = t.order ++ (op.added.toList).map PasskeyRecord.credentialId := by
  cases op with
  | add r => exact if_neg (fresh r rfl)
  | delete _ => exact (List.append_nil _).symm
  | incrementSignCount _ => exact (List.append_nil _).symm
  | findById _ => exact (List.append_nil _).symm
  | findByRpId _ => exact (List.append_nil _).symm
  | getAll => exact (List.append_nil _).symm

theorem addedRecords_cons (op : Op) (ops : List Op) :
    addedRecords (op :: ops) = op.added.toList ++ addedRecords ops := by
  rw [addedRecords, List.filterMap_cons]
  cases op.added <;> rfl

structure Reached (P : Platform) (out : Outside) (s : Plugin) (t : Table) (ops : List Op) :
    Prop where
  answers : (run P out s ops).2 = (Table.run t ops).2
  represents : Represents P (run P out s ops).1 (Table.run t ops).1
  order : (Table.run t ops).1.order =
    t.order ++ (addedRecords ops).map PasskeyRecord.credentialId
  group : OneGroup s (run P out s ops).1

theorem reached (noThrow : out.save = none) {ops : List Op} (h : Represents P s t)
    (distinct : (t.order ++ (addedRecords ops).map PasskeyRecord.credentialId).Nodup)
    (reads : ∀ r ∈ addedRecords ops,
      entryToRecord P s.culture (recordToEntry P s.culture r) = r) :
    Reached P out s t ops := by
  induction ops generalizing s t with
  | nil => exact ⟨rfl, h, (List.append_nil _).symm, .inl rfl⟩
  | cons op ops ih =>
    rw [addedRecords_cons, List.map_append, ← List.append_assoc] at distinct
    have old := (List.nodup_append.mp distinct).1
    have new : ∀ r, op.added = some r → r ∈ addedRecords (op :: ops) := fun r own => by
      rw [addedRecords_cons, own]
      exact List.mem_append_left _ (List.mem_singleton_self r)
    have fresh : ∀ r, op.added = some r → r.credentialId ∉ t.order := by
      intro r own here
      rw [own] at old
      exact (List.nodup_append.mp old).2.2 _ here _ (List.mem_singleton_self _) rfl
    have one := step noThrow h op fun r own => ⟨fresh r own, reads r (new r own)⟩
    rw [← order_apply fresh] at distinct
    have rest := ih one.represents distinct fun r later => by
      rw [one.culture]
      refine reads r ?_
      rw [addedRecords_cons]
      exact List.mem_append_right _ later
    refine ⟨?_, rest.represents, ?_, one.group.trans rest.group⟩
    · exact congrArg₂ List.cons one.answer rest.answers
    · rw [addedRecords_cons, List.map_append, ← List.append_assoc, ← order_apply fresh]
      exact rest.order

theorem counted_zero {r : PasskeyRecord} (small : r.signCount ≤ uintMaxValue) :
    counted 0 r = r := by
  rw [counted, Nat.add_zero, Nat.min_eq_left small]

theorem counted_counted (n : ℕ) (r : PasskeyRecord) :
    counted 1 (counted n r) = counted (n + 1) r := by
  have sums : min (min (r.signCount + n) uintMaxValue + 1) uintMaxValue =
      min (r.signCount + (n + 1)) uintMaxValue := by
    omega
  rw [counted, counted, counted]
  exact congrArg (fun n => { r with signCount := n }) sums

theorem content_apply {op : Op} {now : Option (PasskeyRecord × ℕ)}
    (zero : ∀ r, op.added = some r → r.signCount = 0)
    (known : t.content credentialId = now.map fun (r, n) => counted n r) :
    (t.apply op).content credentialId =
      (track credentialId now op).map fun (r, n) => counted n r := by
  cases op with
  | add r =>
    have fresh : counted 0 r = r := by
      apply counted_zero
      rw [zero r rfl]
      exact Nat.zero_le _
    rw [Table.apply, track]
    change Function.update t.content r.credentialId (some r) credentialId = _
    split_ifs with own
    · rw [own, Function.update_self]
      exact congrArg some fresh.symm
    · rw [Function.update_of_ne (Ne.symm own), known]
  | delete id =>
    rw [Table.apply, track]
    change Function.update t.content id none credentialId = _
    split_ifs with own
    · rw [own, Function.update_self, Option.map_none]
    · rw [Function.update_of_ne (Ne.symm own), known]
  | incrementSignCount id =>
    rw [Table.apply, track]
    change Function.update t.content id ((t.content id).map (counted 1)) credentialId = _
    split_ifs with own
    · subst own
      rw [Function.update_self, known, Option.map_map, Option.map_map]
      congr 1
      funext ⟨r, n⟩
      exact counted_counted n r
    · rw [Function.update_of_ne (Ne.symm own), known]
  | findById _ => exact known
  | findByRpId _ => exact known
  | getAll => exact known

theorem content_run {ops : List Op} {now : Option (PasskeyRecord × ℕ)}
    (zero : ∀ r ∈ addedRecords ops, r.signCount = 0)
    (known : t.content credentialId = now.map fun (r, n) => counted n r) :
    (Table.run t ops).1.content credentialId =
      (ops.foldl (track credentialId) now).map fun (r, n) => counted n r := by
  induction ops generalizing t now with
  | nil => exact known
  | cons op ops ih =>
    rw [addedRecords_cons] at zero
    have head : ∀ r, op.added = some r → r.signCount = 0 := fun r own =>
      zero r (List.mem_append_left _ (by rw [own]; exact List.mem_singleton_self r))
    exact ih (fun r later => zero r (List.mem_append_right _ later)) (content_apply head known)

theorem standing_eq {ops : List Op} (h : Represents P s t)
    (zero : ∀ r ∈ addedRecords ops, r.signCount = 0) (credentialId : String) :
    (Table.run t ops).1.content credentialId = standing t ops credentialId := by
  refine content_run zero ?_
  rw [Option.map_map, ← findById_eq h, Plugin.findById, Option.map_map]
  congr 1
  funext e
  exact (counted_zero (Nat.le_pred_of_lt (signCount_lt e))).symm

end

/-- The culture finds its own negative sign before the digits of the algorithm, or falls back to
the algorithm that was meant; digits without a sign start with no sign. -/
def OwnAlgorithmReadsBack (culture : NumberFormatInfo) (algId : ℤ) : Prop :=
  if algId < 0 then AlgorithmReadsBack culture culture algId else Unsigned culture algId.natAbs

theorem ownAlgorithmReadsBack_iff {culture : NumberFormatInfo} {algId : ℤ}
    (int : -2 ^ 31 ≤ algId ∧ algId < 2 ^ 31) :
    (intTryParse culture (some (intToString culture algId))).getD (-7) = algId ↔
      OwnAlgorithmReadsBack culture algId := by
  rw [OwnAlgorithmReadsBack]
  split_ifs with negative
  · obtain ⟨n, rfl⟩ := Int.exists_eq_neg_ofNat negative.le
    exact algorithmReadsBack_iff (by omega) (by omega)
  · obtain ⟨n, rfl⟩ := Int.eq_ofNat_of_zero_le (Int.not_lt.mp negative)
    have text : (intToString culture n).toList = Nat.toDigits 10 n := by
      rw [intToString, if_neg negative, String.toList_ofList, Int.natAbs_natCast]
    rw [Int.natAbs_natCast, ← parseInteger_unsigned text, intTryParse, Option.bind_some]
    cases parseInteger culture (intToString culture n) with
    | none =>
      refine iff_of_false ?_ (Option.some_ne_none _).symm
      change (-7 : ℤ) ≠ n
      omega
    | some z =>
      rw [Option.filter_some, Option.some.injEq]
      split_ifs with fits
      · rfl
      · rw [decide_eq_true_eq] at fits
        refine iff_of_false ?_ ?_
        · change (-7 : ℤ) ≠ n
          omega
        · rintro rfl
          exact fits int

theorem ownAlgorithmReadsBack_of_proper {culture : NumberFormatInfo} (proper : culture.Proper)
    {algId : ℤ} (int : -2 ^ 31 ≤ algId ∧ algId < 2 ^ 31) : OwnAlgorithmReadsBack culture algId := by
  rw [← ownAlgorithmReadsBack_iff int, intTryParse_intToString proper int]
  rfl

/-- Such a record is read as it was added. -/
theorem entryToRecord_own (P : Platform) {culture : NumberFormatInfo} {record : PasskeyRecord}
    (int : -2 ^ 31 ≤ record.algId ∧ record.algId < 2 ^ 31)
    (reads : OwnAlgorithmReadsBack culture record.algId) :
    entryToRecord P culture (recordToEntry P culture record) = { record with signCount := 0 } := by
  rw [entryToRecord_across, (ownAlgorithmReadsBack_iff int).mpr reads]

/-- What a run leaves, in terms of what was asked of it. -/
structure Refined (P : Platform) (out : Outside) (s : Plugin) (t : Table) (ops : List Op) :
    Prop where
  answers : (run P out s ops).2 = (Table.run t ops).2
  findById : ∀ credentialId,
    (run P out s ops).1.findById P credentialId = standing t ops credentialId
  findByRpId : ∀ rpId,
    (run P out s ops).1.findByRpId P rpId = (live t ops).filter fun r => r.rpId == rpId
  getAll : (run P out s ops).1.getAll P = live t ops
  delete : ∀ credentialId, ∃ s',
    perform P out (run P out s ops).1 (.delete credentialId) =
        (s', .deleted (standing t ops credentialId).isSome) ∧
      s'.findById P credentialId = none ∧ ∀ r ∈ s'.getAll P, r.credentialId ≠ credentialId
  untouched : ∀ credentialId, (∀ op ∈ ops, op.target ≠ some credentialId) →
    (run P out s ops).1.findById P credentialId = s.findById P credentialId
  group : OneGroup s (run P out s ops).1

theorem track_untouched {credentialId : String} {ops : List Op}
    (other : ∀ op ∈ ops, op.target ≠ some credentialId) (now : Option (PasskeyRecord × ℕ)) :
    ops.foldl (track credentialId) now = now := by
  induction ops with
  | nil => rfl
  | cons op ops ih =>
    have head := other op List.mem_cons_self
    have same : track credentialId now op = now := by
      cases op with
      | add r => exact if_neg fun own => head (congrArg some own)
      | delete id => exact if_neg fun own => head (congrArg some own)
      | incrementSignCount id => exact if_neg fun own => head (congrArg some own)
      | findById _ => rfl
      | findByRpId _ => rfl
      | getAll => rfl
    rw [List.foldl_cons, same]
    exact ih fun op later => other op (List.mem_cons_of_mem _ later)

/-- Where the culture reads back the algorithms that are added, the store is the table. -/
theorem store_refines (P : Platform) (out : Outside) (s : Plugin) (t : Table) (ops : List Op)
    (noThrow : out.save = none) (h : Represents P s t)
    (distinct : (t.order ++ (addedRecords ops).map PasskeyRecord.credentialId).Nodup)
    (zero : ∀ r ∈ addedRecords ops, r.signCount = 0)
    (int : ∀ r ∈ addedRecords ops, -2 ^ 31 ≤ r.algId ∧ r.algId < 2 ^ 31)
    (reads : ∀ r ∈ addedRecords ops, OwnAlgorithmReadsBack s.culture r.algId) :
    Refined P out s t ops := by
  have whole := reached noThrow h distinct fun r here => by
    rw [CultureIndependence.entryToRecord_eq_iff (zero r here),
      ownAlgorithmReadsBack_iff (int r here)]
    exact reads r here
  have find := fun credentialId =>
    (findById_eq whole.represents credentialId).trans (standing_eq h zero credentialId)
  have all : (Table.run t ops).1.rows = live t ops := by
    rw [OrderedTable.rows, whole.order, live]
    exact List.filterMap_congr fun credentialId _ => standing_eq h zero credentialId
  refine ⟨whole.answers, find, ?_, whole.represents.rows.trans all, ?_, ?_, whole.group⟩
  · intro rpId
    rw [findByRpId_eq whole.represents, all]
  · intro credentialId
    have gone := step_delete noThrow whole.represents credentialId
    have answer := gone.answer
    rw [Table.answer, standing_eq h zero] at answer
    have absent : ((Table.run t ops).1.apply (.delete credentialId)).content credentialId = none :=
      Function.update_self ..
    refine ⟨_, Prod.ext rfl answer, (findById_eq gone.represents _).trans absent, ?_⟩
    intro r listed own
    rw [Plugin.getAll, gone.represents.rows] at listed
    have held := OrderedTable.content_of_mem listed
    rw [own, absent] at held
    cases held
  · intro credentialId other
    have before : (Table.run t []).1.content credentialId = standing t [] credentialId :=
      standing_eq h (fun r here => absurd here List.not_mem_nil) credentialId
    rw [find, standing, track_untouched other, findById_eq h]
    exact before.symm

def sampleOps : List Op :=
  [.add rs256Record, .incrementSignCount rs256Record.credentialId,
    .incrementSignCount rs256Record.credentialId, .findById rs256Record.credentialId,
    .delete rs256Record.credentialId, .getAll]

theorem store_refines_sample :
    Refined Sample.lineless Sample.outside (opened invariant) OrderedTable.empty sampleOps := by
  have only : ∀ r ∈ addedRecords sampleOps, r = rs256Record := fun r here =>
    List.mem_singleton.mp here
  refine store_refines Sample.lineless Sample.outside (opened invariant) OrderedTable.empty
    sampleOps rfl (represents_empty rfl rfl) (List.nodup_singleton _) ?_ ?_ ?_
  · intro r here
    rw [only r here]
    rfl
  · intro r here
    rw [only r here]
    exact ⟨by decide, by decide⟩
  · intro r here
    rw [only r here]
    exact .inl ⟨by decide, ⟨0, by decide⟩, .inr (by decide)⟩

/-- A negative sign that starts with white space. -/
def spaced : NumberFormatInfo := ⟨" -", "+"⟩

/-- The white space is skipped before the sign is looked for, so the record just added is found
with another algorithm. -/
theorem spaced_not_refined :
    Sample.outside.save = none ∧
      Represents Sample.lineless (opened spaced) OrderedTable.empty ∧
        rs256Record.signCount = 0 ∧ rs256Record.algId = -257 ∧
          ¬ Refined Sample.lineless Sample.outside (opened spaced) OrderedTable.empty
            [.add rs256Record] := by
  have fallsBack : (intTryParse spaced (some (intToString spaced (-257)))).getD (-7) = -7 := by
    decide
  refine ⟨rfl, represents_empty rfl rfl, rfl, rfl, fun h => ?_⟩
  obtain ⟨s', added, entries⟩ := add_opened Sample.lineless spaced rs256Record
  have state : (run Sample.lineless Sample.outside (opened spaced) [.add rs256Record]).1 = s' := by
    rw [run, perform, added]
    rfl
  have culture : s'.culture = spaced := by
    obtain ⟨_, _, rfl⟩ := add_ok.mp added
    rfl
  have rows : live OrderedTable.empty [.add rs256Record] = [counted 0 rs256Record] := by
    simp [live, standing, track, addedRecords, Op.added, OrderedTable.empty]
  have all := h.getAll
  rw [state, Plugin.getAll, entries, culture, List.map_singleton, entryToRecord_across,
    rows] at all
  have algId : (intTryParse spaced (some (intToString spaced (-257)))).getD (-7) = -257 :=
    congrArg PasskeyRecord.algId (List.head_eq_of_cons_eq all)
  rw [fallsBack] at algId
  exact absurd algId (by decide)

end KeePassKeyWin.StoreRefinement
