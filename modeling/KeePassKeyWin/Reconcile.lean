import KeePassKeyWin.SidecarResults
import KeePassKeyWin.VaultFile
import KeePassKeyWin.VaultWellFormedness

set_option autoImplicit false

/-!
# The reconcile task

`reconcile_vault_with_os`, beside the dispatches of the sidecar, the plugin that serves both over
one pipe, and a user who closes and reopens the database. The plugin finds the vault open for
`enumerateForSync` before it reads the records, and Windows is asked later still.
-/
namespace KeePassKeyWin.Reconcile
open ByteStrings JsonRpc OutcomeRules PlatformServices CredentialEncodings PasskeyStore
open CtapRequests VaultHandler VaultOutcomes VaultRuns CountingThreads VaultFile TransitionRuns
open SidecarServices SidecarResults VaultWellFormedness

/-- How far the task is: it asks, the plugin has found the vault open, the answer is on its way,
the pipe is back. `osIds` is what `GetAllCredentials` listed, and `rest` what a loop has left. -/
inductive Task where
  | absent
  | waiting
  | asking
  | checked
  | answered (result : JToken)
  | enumerated (vault : List JToken)
  | adding (vault : List JToken) (osIds : List Bytes) (rest : List JToken)
  | removing (vault : List JToken) (osIds : List Bytes) (rest : List Bytes)

inductive Operation where
  | makeCredential
  | getAssertion
  deriving DecidableEq

def Operation.method : Operation → String
  | .makeCredential => makeMethod
  | .getAssertion => getMethod

/-- `dispatch_operation`: the call has the pipe, has been answered, has put the pipe back. -/
inductive Dispatch where
  | idle
  | calling (operation : Operation)
  | answered (operation : Operation) (result : JToken)
  | publishing (operation : Operation) (result : JToken)

/-- `pipe` says whether the shared state has it, and `os` is what Windows lists. -/
structure World where
  plugin : Plugin
  pipe : Bool
  os : List AddCredentialsFields
  dispatch : Dispatch
  task : Task

def World.start (plugin : Plugin) (os : List AddCredentialsFields) : World :=
  ⟨plugin, false, os, .idle, .absent⟩

/-- How a call to `AddCredentials` or `RemoveCredentials` ends. -/
inductive Ffi where
  | done
  | refused
  | unavailable
  deriving DecidableEq

inductive Act where
  | close
  | reopen
  | save (out : Outside)
  | activate
  | dispatch (operation : Operation)
  | serve (out : Outside) (params : Option JToken) (lost : Bool)
  | callFails (pipe : Bool)
  | returned
  | publish (ffi : Ffi)
  | take
  | check
  | read
  | taskCallFails
  | putBack
  | list (ffi : Ffi)
  | addNext (ffi : Ffi)
  | removeNext (ffi : Ffi)

def addCredentials (ffi : Ffi) (fields : AddCredentialsFields) (os : List AddCredentialsFields) :
    List AddCredentialsFields :=
  if ffi = .done then os ++ [fields] else os

def removeCredentials (ffi : Ffi) (id : Bytes) (os : List AddCredentialsFields) :
    List AddCredentialsFields :=
  if ffi = .done then os.filter (·.credentialId ≠ id) else os

/-- What `try_add_credentials` publishes of a response that holds a `cbor` text. -/
def published (B : SidecarBase64) (operation : Operation) (result : JToken) :
    Option AddCredentialsFields :=
  if operation = .makeCredential ∧ (responseBytes B result).isSome then
    (parseAddCredentialsFields B result).toOption
  else none

def missing (B : SidecarBase64) (osIds : List Bytes) (item : JToken) :
    Option AddCredentialsFields :=
  match vaultId B item with
  | some id =>
    if id ∈ osIds then none else (parseAddCredentialsFields B (translated item)).toOption
  | none => none

def vaultIds (B : SidecarBase64) (vault : List JToken) : List Bytes := vault.filterMap (vaultId B)

/-- The item of `enumerateForSync` for a record. -/
def enumerated (r : PasskeyRecord) : JToken := .object [
  ("credentialId", .str r.credentialId), ("rpId", .str r.rpId), ("rpName", .str r.rpName),
  ("userHandle", .str r.userHandle), ("userName", .str r.userName),
  ("userDisplayName", .str r.userDisplayName), ("algId", .integer r.algId)]

def World.osIds (s : World) : List Bytes := s.os.map AddCredentialsFields.credentialId

def perform (P : Platform) (B : SidecarBase64) (s : World) : Act → Option World
  | .close => some { s with plugin := { s.plugin with database := none } }
  | .reopen =>
    if s.plugin.database.isNone then
      some { s with plugin := { s.plugin with database := some ⟨true, s.plugin.file⟩ } }
    else none
  | .save out =>
    if s.plugin.isVaultOpen then some { s with plugin := final (PasskeyStore.save out s.plugin) }
    else none
  | .activate =>
    match s.pipe, s.dispatch, s.task with
    | false, .idle, .absent => some { s with pipe := true, task := .waiting }
    | _, _, _ => none
  | .dispatch operation =>
    match s.dispatch, s.pipe with
    | .idle, true => some { s with pipe := false, dispatch := .calling operation }
    | .idle, false => some s
    | _, _ => none
  | .serve out params lost =>
    match s.dispatch with
    | .calling operation =>
      let ended := handle P out operation.method params s.plugin
      let s := { s with plugin := final ended }
      match lost, ended with
      | true, _ => some s
      | false, .ok result _ => some { s with dispatch := .answered operation result }
      | false, .error _ _ => some { s with pipe := true, dispatch := .idle }
    | _ => none
  | .callFails pipe =>
    match s.dispatch with
    | .calling _ => some { s with pipe, dispatch := .idle }
    | _ => none
  | .returned =>
    match s.dispatch with
    | .answered operation result =>
      some { s with pipe := true, dispatch := .publishing operation result }
    | _ => none
  | .publish ffi =>
    match s.dispatch with
    | .publishing operation result =>
      let os := match published B operation result with
        | some fields => addCredentials ffi fields s.os
        | none => s.os
      some { s with os, dispatch := .idle }
    | _ => none
  | .take =>
    match s.task, s.pipe with
    | .waiting, true => some { s with pipe := false, task := .asking }
    | .waiting, false => some { s with task := .absent }
    | _, _ => none
  | .check =>
    match s.task with
    | .asking =>
      match requireVaultOpen (Plugin.called s.plugin) with
      | .ok _ plugin => some { s with plugin, task := .checked }
      | .error _ plugin => some { s with plugin, pipe := true, task := .absent }
    | _ => none
  | .read =>
    match s.task with
    | .checked =>
      match enumerateForSync P s.plugin with
      | .ok result plugin => some { s with plugin, task := .answered result }
      | .error _ plugin => some { s with plugin, pipe := true, task := .absent }
    | _ => none
  | .taskCallFails =>
    match s.task with
    | .asking | .checked | .answered _ => some { s with pipe := true, task := .absent }
    | _ => none
  | .putBack =>
    match s.task with
    | .answered (.array vault) => some { s with pipe := true, task := .enumerated vault }
    | .answered _ => some { s with pipe := true, task := .absent }
    | _ => none
  | .list ffi =>
    match s.task with
    | .enumerated vault =>
      some { s with task := if ffi = .done then .adding vault s.osIds vault else .absent }
    | _ => none
  | .addNext ffi =>
    match s.task with
    | .adding vault osIds [] => some { s with task := .removing vault osIds osIds }
    | .adding vault osIds (item :: rest) =>
      match missing B osIds item with
      | none => some { s with task := .adding vault osIds rest }
      | some fields => some { s with
          os := addCredentials ffi fields s.os
          task := if ffi = .unavailable then .absent else .adding vault osIds rest }
    | _ => none
  | .removeNext ffi =>
    match s.task with
    | .removing _ _ [] => some { s with task := .absent }
    | .removing vault osIds (id :: rest) =>
      if id = [] ∨ id ∈ vaultIds B vault then
        some { s with task := .removing vault osIds rest }
      else some { s with
        os := removeCredentials ffi id s.os
        task := if ffi = .unavailable then .absent else .removing vault osIds rest }
    | _ => none

def step (P : Platform) (B : SidecarBase64) (s : World) (act : Act) (t : World) : Prop :=
  perform P B s act = some t

/-- Without a step of the user between them, `check` and `read` are the whole request. -/
theorem handle_enumerateForSync (P : Platform) (out : Outside) (params : Option JToken)
    (s : Plugin) : handle P out "keepasskeywin.enumerateForSync" params s =
      (requireVaultOpen >>= fun _ => enumerateForSync P) (Plugin.called s) := by
  cases hopen : s.isVaultOpen with
  | true =>
    have checked : requireVaultOpen (Plugin.called s) = .ok () (Plugin.called s) := by
      have open' : (Plugin.called s).isVaultOpen = true := hopen
      simp [requireVaultOpen, open']
    rw [handle_of_open hopen, bind_of_ok checked]
    rfl
  | false =>
    have closed : requireVaultOpen (Plugin.called s) =
        .error (.rpc RpcErrorCode.vaultLocked "KeePass vault is not open.") (Plugin.called s) := by
      have closed' : (Plugin.called s).isVaultOpen = false := hopen
      simp [requireVaultOpen, closed']
    rw [handle_of_closed hopen, bind_of_error closed]

def World.InFile (s : World) (id : Bytes) : Prop := Has (Plugin.fileEntries s.plugin) id

/-- In the file, or in the database in memory. -/
def World.Known (s : World) (id : Bytes) : Prop := s.InFile id ∨ Has s.plugin.entries id

def Task.snapshot : Task → Option (List JToken)
  | .answered (.array vault) | .enumerated vault => some vault
  | _ => none

def Task.listing : Task → Option (List JToken × List Bytes)
  | .adding vault osIds _ | .removing vault osIds _ => some (vault, osIds)
  | _ => none

/-- The plugin reads an open vault, or one of whose file Windows lists nothing; and between that
and `GetAllCredentials` nothing is published that was not read. -/
def Fits (B : SidecarBase64) (s : World) : Act → Prop
  | .read => s.plugin.isVaultOpen = true ∨ ∀ id ≠ [], s.InFile id → id ∉ s.osIds
  | .publish ffi => ffi = .done → ∀ operation result fields vault,
      s.dispatch = .publishing operation result → published B operation result = some fields →
        s.task.snapshot = some vault → fields.credentialId ∈ vaultIds B vault
  | _ => True

/-- The random id of a new credential is none that Windows lists or has listed to the task. -/
def FreshId (s : World) : Act → Prop
  | .serve out _ _ => out.credentialId ∉ s.osIds ∧
      ∀ vault osIds, s.task.listing = some (vault, osIds) → out.credentialId ∉ osIds
  | _ => True

/-- The next step of the task has Windows remove this id. -/
def Removes (B : SidecarBase64) (s : World) (id : Bytes) : Prop :=
  ∃ vault osIds rest, s.task = .removing vault osIds (id :: rest) ∧ id ≠ [] ∧
    id ∉ vaultIds B vault

/-- An open database has what the file has, and what the task will remove is in neither. -/
structure Sound (B : SidecarBase64) (s : World) : Prop where
  loaded : s.plugin.isVaultOpen = true → ∀ id, s.InFile id → Has s.plugin.entries id
  snapshot : ∀ vault, s.task.snapshot = some vault →
    ∀ id ≠ [], s.Known id → id ∈ vaultIds B vault ∨ id ∉ s.osIds
  listing : ∀ vault osIds, s.task.listing = some (vault, osIds) →
    ∀ id ≠ [], s.Known id → id ∈ vaultIds B vault ∨ id ∉ osIds
  left : ∀ vault osIds rest, s.task = .removing vault osIds rest → ∀ id ∈ rest, id ∈ osIds

theorem Sound.spares {B : SidecarBase64} {s : World} {id : Bytes} (h : Sound B s)
    (removes : Removes B s id) : ¬ s.InFile id := by
  obtain ⟨vault, osIds, rest, removing, nonempty, gone⟩ := removes
  intro present
  have listed : s.task.listing = some (vault, osIds) := by rw [removing]; rfl
  rcases h.listing vault osIds listed id nonempty (.inl present) with kept | unlisted
  · exact gone kept
  · exact unlisted (h.left vault osIds _ removing id (List.mem_cons_self ..))

section
variable {P : Platform} {B : SidecarBase64} {s t : World}

theorem Sound.replugged (h : Sound B s) {plugin : Plugin}
    (loaded : plugin.isVaultOpen = true → ∀ id, Has (Plugin.fileEntries plugin) id →
      Has plugin.entries id)
    (known : ∀ id, Has (Plugin.fileEntries plugin) id ∨ Has plugin.entries id → s.Known id ∨
      id ∉ s.osIds ∧ ∀ vault osIds, s.task.listing = some (vault, osIds) → id ∉ osIds) :
    Sound B { s with plugin } where
  loaded := loaded
  snapshot vault taken id nonempty hid := by
    rcases known id hid with old | ⟨unlisted, _⟩
    · exact h.snapshot vault taken id nonempty old
    · exact .inr unlisted
  listing vault osIds listed id nonempty hid := by
    rcases known id hid with old | ⟨_, unlisted⟩
    · exact h.listing vault osIds listed id nonempty old
    · exact .inr (unlisted vault osIds listed)
  left := h.left

theorem Sound.unknowing (h : Sound B s) (plugin : Plugin) (same : plugin.file = s.plugin.file)
    (entries : plugin.entries = s.plugin.entries)
    (hopen : plugin.isVaultOpen = s.plugin.isVaultOpen) (pipe : Bool)
    (os : List AddCredentialsFields) (dispatch : Dispatch) {task : Task}
    (snapshot : task.snapshot = none) (listing : task.listing = none) :
    Sound B ⟨plugin, pipe, os, dispatch, task⟩ where
  loaded isOpen id present := by
    have old : s.InFile id := by
      simpa [World.InFile, Plugin.fileEntries, same] using present
    exact entries ▸ h.loaded (hopen ▸ isOpen) id old
  snapshot vault taken := by
    rw [snapshot] at taken
    cases taken
  listing vault osIds listed := by
    rw [listing] at listed
    cases listed
  left vault osIds rest removing := by
    rw [show task = .removing vault osIds rest from removing] at listing
    cases listing

theorem Sound.going (h : Sound B s) {vault : List JToken} {osIds : List Bytes}
    (listed : s.task.listing = some (vault, osIds)) (os : List AddCredentialsFields) {task : Task}
    (snapshot : task.snapshot = none) (listing : task.listing = some (vault, osIds))
    (left : ∀ vault' osIds' rest, task = .removing vault' osIds' rest → ∀ id ∈ rest, id ∈ osIds') :
    Sound B { s with os, task } where
  loaded := h.loaded
  snapshot vault' taken := by
    rw [show task.snapshot = some vault' from taken] at snapshot
    cases snapshot
  listing vault' osIds' listed' := by
    obtain ⟨rfl, rfl⟩ := Prod.mk.inj (Option.some.inj (listing.symm.trans listed'))
    exact h.listing vault osIds listed
  left := left

theorem sound_close (h : Sound B s) : Sound B { s with plugin := { s.plugin with database := none } } := by
  refine h.replugged (fun isOpen => by cases isOpen) fun id hid => ?_
  rcases hid with file | memory
  · exact .inl (.inl file)
  · cases memory

theorem sound_reopen (h : Sound B s) :
    Sound B { s with plugin := { s.plugin with database := some ⟨true, s.plugin.file⟩ } } := by
  have entries := entries_reopened s.plugin _ rfl
  refine h.replugged (fun _ id file => ?_) fun id hid => ?_
  · rw [entries]
    exact file
  · rcases hid with file | memory
    · exact .inl (.inl file)
    · rw [entries] at memory
      exact .inl (.inl memory)

theorem Sound.stored (h : Sound B s) {plugin : Plugin} (stored : Stored s.plugin plugin)
    (hopen : plugin.isVaultOpen = true → s.plugin.isVaultOpen = true)
    (kept : ∀ id, Has s.plugin.entries id → Has plugin.entries id)
    (known : ∀ id, Has plugin.entries id → Has s.plugin.entries id ∨
      id ∉ s.osIds ∧ ∀ vault osIds, s.task.listing = some (vault, osIds) → id ∉ osIds) :
    Sound B { s with plugin } := by
  have new : ∀ id, Has plugin.entries id → s.Known id ∨
      id ∉ s.osIds ∧ ∀ vault osIds, s.task.listing = some (vault, osIds) → id ∉ osIds :=
    fun id memory => (known id memory).imp_left .inr
  rcases stored with same | same
  · have file : ∀ id, Has (Plugin.fileEntries plugin) id → s.InFile id := by
      intro id present
      simpa [World.InFile, Plugin.fileEntries, same] using present
    refine h.replugged (fun isOpen id present => ?_) fun id hid => ?_
    · exact kept id (h.loaded (hopen isOpen) id (file id present))
    · exact hid.elim (fun present => .inl (.inl (file id present))) (new id)
  · refine h.replugged (fun _ id present => same ▸ present) fun id hid => ?_
    exact hid.elim (fun present => new id (same ▸ present)) (new id)

theorem sound_save (h : Sound B s) (hopen : s.plugin.isVaultOpen = true) (out : Outside) :
    Sound B { s with plugin := final (PasskeyStore.save out s.plugin) } := by
  obtain ⟨entries, frame⟩ := save_entries out s.plugin
  refine h.stored (stored_save hopen rfl) (fun _ => hopen) (fun id had => ?_) fun id has => ?_
  · rw [entries]
    exact had
  · rw [entries] at has
    exact .inl has

theorem Operation.method_ne (operation : Operation) :
    operation.method ≠ "keepasskeywin.deleteCredential" := by
  cases operation <;> decide

theorem sound_handle (h : Sound B s) (operation : Operation) (out : Outside)
    (params : Option JToken) {lost : Bool} (fresh : FreshId s (.serve out params lost)) :
    Sound B { s with plugin := final (handle P out operation.method params s.plugin) } := by
  refine h.stored (handle_stored P out operation.method params s.plugin) ?_
    (fun id => has_handle operation.method_ne) fun id has => ?_
  · rw [(handle_held P out operation.method params s.plugin).isVaultOpen]
    exact fun isOpen => isOpen
  · rcases handle_has has with old | rfl
    · exact .inl old
    · exact .inr fresh

theorem sound_publish (h : Sound B s) {operation : Operation} {result : JToken} {ffi : Ffi}
    (fits : Fits B s (.publish ffi)) (dispatching : s.dispatch = .publishing operation result)
    {fields : AddCredentialsFields} (new : published B operation result = some fields) :
    Sound B { s with os := addCredentials ffi fields s.os, dispatch := .idle } where
  loaded := h.loaded
  snapshot vault taken id nonempty hid := by
    rcases h.snapshot vault taken id nonempty hid with known | unlisted
    · exact .inl known
    · unfold World.osIds addCredentials
      split_ifs with done
      · by_cases same : id = fields.credentialId
        · subst same
          exact .inl (fits done operation result fields vault dispatching new taken)
        · refine .inr fun listed => ?_
          rw [List.map_append] at listed
          rcases List.mem_append.mp listed with old | last
          · exact unlisted old
          · exact same (List.mem_singleton.mp last)
      · exact .inr unlisted
  listing := h.listing
  left := h.left

theorem sound_serve (h : Sound B s) {out : Outside} {params : Option JToken} {lost : Bool}
    (fresh : FreshId s (.serve out params lost)) (hs : step P B s (.serve out params lost) t) :
    Sound B t := by
  simp only [step, perform] at hs
  split at hs
  · rename_i operation calling
    have kept := sound_handle h operation out params fresh (P := P)
    split at hs <;>
      (obtain rfl := Option.some.inj hs
       exact ⟨kept.loaded, kept.snapshot, kept.listing, kept.left⟩)
  · cases hs

theorem mem_vaultIds {plugin : Plugin} {id : Bytes} :
    id ∈ vaultIds B ((plugin.getAll P).map enumerated) ↔
      ∃ e ∈ plugin.entries, e.credentialId.getD "" = Base64Url.encode id := by
  have decodes : ∀ e, vaultId B (enumerated (entryToRecord P plugin.culture e)) = some id ↔
      e.credentialId.getD "" = Base64Url.encode id := fun e => B.urlSafeNoPad_iff
  simp only [vaultIds, Plugin.getAll, List.map_map, List.mem_filterMap, List.mem_map,
    Function.comp_apply, exists_exists_and_eq_and, decodes]

theorem vaultIds_of_has {plugin : Plugin} {id : Bytes} (has : Has plugin.entries id) :
    id ∈ vaultIds B ((plugin.getAll P).map enumerated) := by
  obtain ⟨e, mem, own⟩ := List.mem_map.mp has
  exact mem_vaultIds.mpr ⟨e, mem, by rw [own]; rfl⟩

theorem has_of_vaultIds {plugin : Plugin} {id : Bytes} (nonempty : id ≠ [])
    (mem : id ∈ vaultIds B ((plugin.getAll P).map enumerated)) : Has plugin.entries id := by
  obtain ⟨e, mem, own⟩ := mem_vaultIds.mp mem
  refine List.mem_map.mpr ⟨e, mem, ?_⟩
  cases id' : e.credentialId with
  | some text =>
    rw [id', Option.getD_some] at own
    rw [own]
  | none =>
    rw [id', Option.getD_none] at own
    exact absurd (Base64Url.encode_eq_empty.mp own.symm) nonempty

theorem requireVaultOpen_final (plugin : Plugin) : final (requireVaultOpen plugin) = plugin := by
  cases hopen : plugin.isVaultOpen <;> simp [requireVaultOpen, hopen]

theorem sound_check (h : Sound B s) (hs : step P B s .check t) : Sound B t := by
  simp only [step, perform] at hs
  split at hs
  · have same := requireVaultOpen_final (Plugin.called s.plugin)
    split at hs
    · rename_i run
      rw [run, final_ok] at same
      obtain rfl := Option.some.inj hs
      subst same
      exact h.unknowing (Plugin.called s.plugin) rfl rfl rfl _ _ _ rfl rfl
    · rename_i run
      rw [run, final_error] at same
      obtain rfl := Option.some.inj hs
      subst same
      exact h.unknowing (Plugin.called s.plugin) rfl rfl rfl _ _ _ rfl rfl
  · cases hs

theorem sound_read (h : Sound B s) (fits : Fits B s .read) {result : JToken} {plugin : Plugin}
    (run : enumerateForSync P s.plugin = .ok result plugin) :
    Sound B { s with plugin, task := .answered result } := by
  obtain ⟨rfl, rfl⟩ := pure_ok.mp run
  refine ⟨h.loaded, ?_, ?_, ?_⟩
  rotate_left
  · intro vault osIds listed
    cases listed
  · intro vault osIds rest removing
    cases removing
  intro vault taken id nonempty hid
  obtain rfl := Option.some.inj taken
  cases hopen : s.plugin.isVaultOpen with
  | true => exact .inl (vaultIds_of_has (hid.elim (h.loaded hopen id) fun memory => memory))
  | false =>
    right
    rcases fits with isOpen | unlisted
    · rw [hopen] at isOpen
      cases isOpen
    · rcases hid with file | memory
      · exact unlisted id nonempty file
      · have none : s.plugin.entries = [] := entries_of_closed hopen
        have memory' : Has s.plugin.entries id := memory
        rw [none] at memory'
        cases memory'

theorem sound_putBack (h : Sound B s) (hs : step P B s .putBack t) : Sound B t := by
  simp only [step, perform] at hs
  split at hs
  · rename_i vault answered
    obtain rfl := Option.some.inj hs
    have taken : s.task.snapshot = some vault := by rw [answered]; rfl
    refine ⟨h.loaded, ?_, ?_, ?_⟩
    · intro vault' taken'
      obtain rfl := Option.some.inj taken'
      exact h.snapshot vault taken
    · intro vault' osIds listed
      cases listed
    · intro vault' osIds rest removing
      cases removing
  · obtain rfl := Option.some.inj hs
    exact h.unknowing s.plugin rfl rfl rfl _ _ _ rfl rfl
  · cases hs

theorem sound_list (h : Sound B s) {ffi : Ffi} (hs : step P B s (.list ffi) t) : Sound B t := by
  simp only [step, perform] at hs
  split at hs
  · rename_i vault enumerated
    obtain rfl := Option.some.inj hs
    have taken : s.task.snapshot = some vault := by rw [enumerated]; rfl
    split_ifs
    · refine ⟨h.loaded, ?_, ?_, ?_⟩
      · intro vault' taken'
        cases taken'
      · intro vault' osIds listed
        obtain ⟨rfl, rfl⟩ := Prod.mk.inj (Option.some.inj listed)
        exact h.snapshot vault taken
      · intro vault' osIds rest removing
        cases removing
    · exact h.unknowing s.plugin rfl rfl rfl _ _ _ rfl rfl
  · cases hs

theorem sound_addNext (h : Sound B s) {ffi : Ffi} (hs : step P B s (.addNext ffi) t) :
    Sound B t := by
  simp only [step, perform] at hs
  split at hs
  · rename_i vault osIds adding
    obtain rfl := Option.some.inj hs
    have listed : s.task.listing = some (vault, osIds) := by rw [adding]; rfl
    refine h.going listed s.os rfl rfl ?_
    intro vault' osIds' rest removing id mem
    obtain ⟨_, rfl, rfl⟩ := Task.removing.inj removing
    exact mem
  · rename_i vault osIds item rest adding
    have listed : s.task.listing = some (vault, osIds) := by rw [adding]; rfl
    split at hs
    · obtain rfl := Option.some.inj hs
      exact h.going listed s.os rfl rfl (by simp)
    · obtain rfl := Option.some.inj hs
      split_ifs
      · exact h.unknowing s.plugin rfl rfl rfl _ _ _ rfl rfl
      · exact h.going listed _ rfl rfl (by simp)
  · cases hs

theorem sound_removeNext (h : Sound B s) {ffi : Ffi} (hs : step P B s (.removeNext ffi) t) :
    Sound B t := by
  simp only [step, perform] at hs
  split at hs
  · obtain rfl := Option.some.inj hs
    exact h.unknowing s.plugin rfl rfl rfl _ _ _ rfl rfl
  · rename_i vault osIds id rest removing
    have listed : s.task.listing = some (vault, osIds) := by rw [removing]; rfl
    have left : ∀ vault' osIds' rest', Task.removing vault osIds rest = .removing vault' osIds' rest' →
        ∀ id ∈ rest', id ∈ osIds' := by
      intro vault' osIds' rest' same id' mem
      obtain ⟨_, rfl, rfl⟩ := Task.removing.inj same
      exact h.left vault osIds _ removing id' (List.mem_cons_of_mem _ mem)
    split_ifs at hs
    · obtain rfl := Option.some.inj hs
      exact h.going listed s.os rfl rfl left
    · obtain rfl := Option.some.inj hs
      exact h.unknowing s.plugin rfl rfl rfl _ _ _ rfl rfl
    · obtain rfl := Option.some.inj hs
      exact h.going listed _ rfl rfl left
  · cases hs

/-- A step that fits keeps what the task knows sound. -/
theorem sound_step (h : Sound B s) {act : Act} (fresh : FreshId s act) (fits : Fits B s act)
    (hs : step P B s act t) : Sound B t := by
  cases act with
  | close =>
    obtain rfl := Option.some.inj hs
    exact sound_close h
  | reopen =>
    simp only [step, perform] at hs
    split_ifs at hs
    obtain rfl := Option.some.inj hs
    exact sound_reopen h
  | save out =>
    simp only [step, perform] at hs
    split_ifs at hs with hopen
    obtain rfl := Option.some.inj hs
    exact sound_save h hopen out
  | activate =>
    simp only [step, perform] at hs
    split at hs
    · obtain rfl := Option.some.inj hs
      exact h.unknowing s.plugin rfl rfl rfl _ _ _ rfl rfl
    · cases hs
  | dispatch operation =>
    simp only [step, perform] at hs
    split at hs
    · obtain rfl := Option.some.inj hs
      exact ⟨h.loaded, h.snapshot, h.listing, h.left⟩
    · obtain rfl := Option.some.inj hs
      exact h
    · cases hs
  | serve out params lost => exact sound_serve h fresh hs
  | callFails pipe =>
    simp only [step, perform] at hs
    split at hs
    · obtain rfl := Option.some.inj hs
      exact ⟨h.loaded, h.snapshot, h.listing, h.left⟩
    · cases hs
  | returned =>
    simp only [step, perform] at hs
    split at hs
    · obtain rfl := Option.some.inj hs
      exact ⟨h.loaded, h.snapshot, h.listing, h.left⟩
    · cases hs
  | publish ffi =>
    simp only [step, perform] at hs
    split at hs
    · rename_i operation result publishing
      obtain rfl := Option.some.inj hs
      cases new : published B operation result with
      | none => exact ⟨h.loaded, h.snapshot, h.listing, h.left⟩
      | some fields => exact sound_publish h fits publishing new
    · cases hs
  | take =>
    simp only [step, perform] at hs
    split at hs
    · obtain rfl := Option.some.inj hs
      exact h.unknowing s.plugin rfl rfl rfl _ _ _ rfl rfl
    · obtain rfl := Option.some.inj hs
      exact h.unknowing s.plugin rfl rfl rfl _ _ _ rfl rfl
    · cases hs
  | check => exact sound_check h hs
  | read =>
    simp only [step, perform] at hs
    split at hs
    · split at hs
      · rename_i result plugin run
        obtain rfl := Option.some.inj hs
        exact sound_read h fits run
      · rename_i failed
        cases failed
    · cases hs
  | taskCallFails =>
    simp only [step, perform] at hs
    split at hs
    · obtain rfl := Option.some.inj hs
      exact h.unknowing s.plugin rfl rfl rfl _ _ _ rfl rfl
    · obtain rfl := Option.some.inj hs
      exact h.unknowing s.plugin rfl rfl rfl _ _ _ rfl rfl
    · obtain rfl := Option.some.inj hs
      exact h.unknowing s.plugin rfl rfl rfl _ _ _ rfl rfl
    · cases hs
  | putBack => exact sound_putBack h hs
  | list ffi => exact sound_list h hs
  | addNext ffi => exact sound_addNext h hs
  | removeNext ffi => exact sound_removeNext h hs

end

theorem sound_start {B : SidecarBase64} {plugin : Plugin} (os : List AddCredentialsFields)
    (loaded : plugin.isVaultOpen = true → ∀ id, Has (Plugin.fileEntries plugin) id →
      Has plugin.entries id) : Sound B (World.start plugin os) where
  loaded := loaded
  snapshot vault taken := by cases taken
  listing vault osIds listed := by cases listed
  left vault osIds rest removing := by cases removing

/-- Whatever the user and the dispatches do meanwhile, as long as the steps fit, the task removes
from the list of Windows nothing that the file has. -/
theorem reconcile_spares_file (P : Platform) (B : SidecarBase64) (plugin : Plugin)
    (os : List AddCredentialsFields) (acts : List Act) (t : World) (id : Bytes)
    (loaded : plugin.isVaultOpen = true → ∀ id, Has (Plugin.fileEntries plugin) id →
      Has plugin.entries id)
    (run : Run (restrict (fun s act => FreshId s act ∧ Fits B s act) (step P B))
      (World.start plugin os) acts t)
    (removes : Removes B t id) : ¬ t.InFile id := by
  have sound : Sound B t := run.invariant (I := Sound B)
    (fun _ _ _ h hs => sound_step h hs.1.1 hs.1.2 hs.2) (sound_start os loaded)
  exact sound.spares removes

section
variable {P : Platform} {B : SidecarBase64} {vault : List JToken} {osIds : List Bytes}

theorem adding_ends (rest : List JToken) (s : World) (adding : s.task = .adding vault osIds rest) :
    Run (step P B) s (List.replicate (rest.length + 1) (.addNext .refused))
      { s with task := .removing vault osIds osIds } := by
  induction rest generalizing s with
  | nil => exact .single (by simp [step, perform, adding])
  | cons item rest ih =>
    refine .cons (t := { s with task := .adding vault osIds rest }) ?_
      (ih { s with task := .adding vault osIds rest } rfl)
    cases new : missing B osIds item <;> simp [step, perform, adding, new, addCredentials]

theorem removing_reaches (before after : List Bytes) (s : World)
    (removing : s.task = .removing vault osIds (before ++ after)) :
    Run (step P B) s (List.replicate before.length (.removeNext .refused))
      { s with task := .removing vault osIds after } := by
  induction before generalizing s with
  | nil =>
    have same : { s with task := .removing vault osIds after } = s := by
      cases s
      cases removing
      rfl
    rw [same]
    exact .nil s
  | cons first before ih =>
    refine .cons (t := { s with task := .removing vault osIds (before ++ after) }) ?_
      (ih { s with task := .removing vault osIds (before ++ after) } rfl)
    by_cases kept : first = [] ∨ first ∈ vaultIds B vault <;>
      simp [step, perform, removing, kept, removeCredentials]

theorem listed_removes {s : World} {id : Bytes} (enumerated : s.task = .enumerated vault)
    (listed : id ∈ s.osIds) (nonempty : id ≠ []) (unread : id ∉ vaultIds B vault)
    (present : s.InFile id) :
    ∃ acts u, Run (step P B) s acts u ∧ Removes B u id ∧ u.InFile id := by
  have list : step P B s (.list .done) { s with task := .adding vault s.osIds vault } := by
    simp [step, perform, enumerated]
  have adds := adding_ends (P := P) (B := B) vault { s with task := .adding vault s.osIds vault } rfl
  obtain ⟨before, after, split⟩ := List.append_of_mem listed
  have removals := removing_reaches (P := P) (B := B) before (id :: after)
    { s with task := .removing vault s.osIds s.osIds } (by rw [split])
  exact ⟨_, _, (Run.cons list adds).append removals,
    ⟨vault, s.osIds, after, congrArg (Task.removing vault · _) split.symm, nonempty, unread⟩, present⟩

theorem putBack_array {s : World} (answered : s.task = .answered (.array vault)) :
    step P B s .putBack { s with pipe := true, task := .enumerated vault } := by
  simp [step, perform, answered]

/-- A closed vault whose credential Windows lists is read as an empty one. -/
theorem unfit_read_removes {s t : World} (hs : step P B s .read t) (unfit : ¬ Fits B s .read) :
    ∃ acts u id, Run (step P B) t acts u ∧ Removes B u id ∧ u.InFile id := by
  obtain ⟨closed, listing⟩ := not_or.mp unfit
  simp only [not_forall, not_not, exists_prop] at listing
  obtain ⟨id, nonempty, present, listed⟩ := listing
  have none : s.plugin.getAll P = [] := by
    rw [Plugin.getAll, entries_of_closed (Bool.eq_false_iff.mpr closed)]
    rfl
  simp only [step, perform] at hs
  split at hs
  · have read : enumerateForSync P s.plugin = .ok (.array []) s.plugin := by
      change EStateM.Result.ok (JToken.array ((s.plugin.getAll P).map _)) s.plugin = _
      rw [none]
      rfl
    rw [read] at hs
    obtain rfl := Option.some.inj hs
    obtain ⟨acts, u, run, removes, inFile⟩ := listed_removes (P := P) (B := B)
      (s := ⟨s.plugin, true, s.os, s.dispatch, .enumerated []⟩) rfl listed nonempty (by simp [vaultIds])
      present
    exact ⟨_, u, id, .cons (putBack_array rfl) run, removes, inFile⟩
  · cases hs

/-- What is published too late is removed, though the file has it. -/
theorem unfit_publish_removes {s t : World} {operation : Operation} {result : JToken}
    {fields : AddCredentialsFields} (dispatching : s.dispatch = .publishing operation result)
    (new : published B operation result = some fields) (taken : s.task.snapshot = some vault)
    (unread : fields.credentialId ∉ vaultIds B vault) (nonempty : fields.credentialId ≠ [])
    (present : s.InFile fields.credentialId) (hs : step P B s (.publish .done) t) :
    ∃ acts u, Run (step P B) t acts u ∧ Removes B u fields.credentialId ∧
      u.InFile fields.credentialId := by
  simp only [step, perform, dispatching, new] at hs
  obtain rfl := Option.some.inj hs
  have listed : ∀ pipe, fields.credentialId ∈ World.osIds
      ⟨s.plugin, pipe, addCredentials .done fields s.os, .idle, .enumerated vault⟩ := by
    simp [World.osIds, addCredentials]
  cases known : s.task with
  | answered answer =>
    rw [known] at taken
    cases answer with
    | array items =>
      obtain rfl := Option.some.inj taken
      obtain ⟨acts, u, run, rest⟩ :=
        listed_removes (P := P) (B := B) rfl (listed true) nonempty unread present
      exact ⟨_, u, .cons (putBack_array rfl) run, rest⟩
    | _ => cases taken
  | enumerated items =>
    rw [known] at taken
    obtain rfl := Option.some.inj taken
    exact listed_removes rfl (listed s.pipe) nonempty unread present
  | _ =>
    rw [known] at taken
    cases taken

end

theorem published_of_ok {B : SidecarBase64} {result : JToken} {fields : AddCredentialsFields}
    (answers : (responseBytes B result).isSome = true)
    (parsed : parseAddCredentialsFields B result = .ok fields) :
    published B .makeCredential result = some fields := by
  rw [published, if_pos ⟨rfl, answers⟩, parsed]
  rfl

theorem registration_published {P : Platform} (B : SidecarBase64) {out : Outside}
    {params : Option JToken} {s s' : Plugin} {result : JToken}
    (h : handle P out makeMethod params s = .ok result s') :
    Has (Plugin.fileEntries s') out.credentialId ∧
      ∃ fields, published B .makeCredential result = some fields ∧
        fields.credentialId = out.credentialId := by
  have hopen := handle_ok_open h
  rw [handle_of_open hopen, dispatchMethod_make] at h
  obtain ⟨uv, cborBytes, prompt, req, algId, pkcs8, coseKey, authData, _, hreq, _, _, _, _, rfl, rfl⟩ :=
    handleMakeCredentialRaw_ok h
  obtain ⟨handle, _, encoded⟩ := encodedHandle_of_parse hreq
  constructor
  · exact has_saved (s := Plugin.prompted prompt (Plugin.called s)) hopen rfl
  · have text : index (makeCredentialResult (makeCredentialRecord out req algId pkcs8 coseKey)
        (buildAttestationObject authData)) "userHandleB64Url" = .str (Base64Url.encode handle) :=
      congrArg JToken.str encoded
    have parsed : parseAddCredentialsFields B (makeCredentialResult (makeCredentialRecord out req algId
        pkcs8 coseKey) (buildAttestationObject authData)) = .ok ⟨out.credentialId, handle, _, _, _, _⟩ :=
      parseAddCredentialsFields_ok rfl rfl rfl text rfl rfl
    exact ⟨_, published_of_ok rfl parsed, rfl⟩

theorem serve_answered {P : Platform} {B : SidecarBase64} {s : World} {operation : Operation} {out : Outside}
    {params : Option JToken} {result : JToken} {plugin : Plugin}
    (calling : s.dispatch = .calling operation)
    (answered : handle P out operation.method params s.plugin = .ok result plugin) :
    step P B s (.serve out params false)
      { s with plugin, dispatch := .answered operation result } := by
  simp [step, perform, calling, answered]

namespace Sample

def fields (id : Bytes) : AddCredentialsFields :=
  ⟨id, [1, 2, 3, 4], encodeUtf16Nul "example.com", encodeUtf16Nul "example",
    encodeUtf16Nul "alice", encodeUtf16Nul "Alice"⟩

def vault : Plugin :=
  { VaultOutcomes.Sample.registered "example.com" with
    file := [⟨groupName, [VaultOutcomes.Sample.entry "example.com"]⟩] }

def base64 : SidecarBase64 := exactBase64 (VaultOutcomes.Sample.platform [])

def oldId : Bytes := (List.range 32).map fun i => UInt8.ofNat (200 - i)

def staleId : Bytes := (List.range 32).map fun i => UInt8.ofNat (100 + i)

def groups : List PwGroup :=
  [⟨groupName, [recordToEntry (VaultOutcomes.Sample.platform []) NumberFormat.invariant
    { VaultOutcomes.Sample.record "example.com" with credentialId := Base64Url.encode oldId }]⟩]

/-- A vault with one credential. Windows lists it, and one that is gone. -/
def start : World :=
  .start { VaultOutcomes.Sample.plugin with database := some ⟨true, groups⟩, file := groups }
    [fields oldId, fields staleId]

def Calm (s : World) : Act → Bool
  | .read => s.plugin.isVaultOpen
  | .serve .. | .publish .. => false
  | _ => true

def fitting : World → Act → World → Prop :=
  restrict (fun s act => FreshId s act ∧ Fits base64 s act)
    (step (VaultOutcomes.Sample.platform []) base64)

theorem fits_of_calm {B : SidecarBase64} {s : World} {act : Act} (h : Calm s act = true) :
    FreshId s act ∧ Fits B s act := by
  cases act with
  | read => exact ⟨trivial, .inl h⟩
  | serve out params lost => cases h
  | publish ffi => cases h
  | _ => exact ⟨trivial, trivial⟩

theorem fitting_replicate {s t : World} {act : Act} {n : ℕ}
    (run : Run (step (VaultOutcomes.Sample.platform []) base64) s (List.replicate n act) t)
    (calm : ∀ s, Calm s act = true) : Run fitting s (List.replicate n act) t := by
  have labelled := run.restrict_labels (P := (· = act)) fun _ mem => List.eq_of_mem_replicate mem
  refine labelled.mono ?_
  rintro u _ v ⟨rfl, stepped⟩
  exact ⟨fits_of_calm (calm u), stepped⟩

/-- A registration that is answered, and what is published of it. -/
structure Registration (result : JToken) (plugin : Plugin) (fields : AddCredentialsFields) :
    Prop where
  answered : handle (VaultOutcomes.Sample.platform []) VaultOutcomes.Sample.outside makeMethod
    (VaultOutcomes.Sample.rawParams VaultOutcomes.Sample.makeCbor
      VaultOutcomes.Sample.makeSignature) start.plugin = .ok result plugin
  isOpen : plugin.isVaultOpen = true
  present : Has (Plugin.fileEntries plugin) VaultOutcomes.Sample.credentialId
  new : published base64 .makeCredential result = some fields
  own : fields.credentialId = VaultOutcomes.Sample.credentialId

theorem registers : ∃ result plugin fields, Registration result plugin fields := by
  obtain ⟨result, plugin, answered⟩ := RequestEffects.Sample.answers_make
    (s := start.plugin) rfl rfl rfl rfl (by decide +kernel)
  obtain ⟨present, fields, new, own⟩ := registration_published base64 answered
  have held := (handle_held (VaultOutcomes.Sample.platform []) VaultOutcomes.Sample.outside makeMethod
    (VaultOutcomes.Sample.rawParams VaultOutcomes.Sample.makeCbor
      VaultOutcomes.Sample.makeSignature) start.plugin).isVaultOpen
  rw [answered, final_ok] at held
  exact ⟨result, plugin, fields, answered, held, present, new, own⟩

theorem loaded : start.plugin.isVaultOpen = true → ∀ id,
    Has (Plugin.fileEntries start.plugin) id → Has start.plugin.entries id :=
  fun _ _ present => present

def vaultOf (plugin : Plugin) : List JToken :=
  ((Plugin.called plugin).getAll (VaultOutcomes.Sample.platform [])).map enumerated

/-- The task waits for the pipe. -/
def waiting (plugin : Plugin) (dispatch : Dispatch) : World :=
  ⟨plugin, false, start.os, dispatch, .waiting⟩

/-- The task has read the vault that the credential is in, which is not published yet. -/
def unpublished (plugin : Plugin) (result : JToken) : World :=
  ⟨Plugin.called plugin, false, start.os, .publishing .makeCredential result,
    .answered (.array (vaultOf plugin))⟩

def publishing (plugin : Plugin) (fields : AddCredentialsFields) : World :=
  ⟨Plugin.called plugin, false, start.os ++ [fields], .idle, .answered (.array (vaultOf plugin))⟩

def closed (plugin : Plugin) (fields : AddCredentialsFields) (task : Task) : World :=
  ⟨{ Plugin.called plugin with database := none }, true, start.os ++ [fields], .idle, task⟩

section
variable {result : JToken} {plugin : Plugin} {fields : AddCredentialsFields}

theorem run_registered (r : Registration result plugin fields) : Run fitting start
    ([.activate, .close, .reopen, .dispatch .makeCredential] ++
      [.serve VaultOutcomes.Sample.outside (VaultOutcomes.Sample.rawParams
        VaultOutcomes.Sample.makeCbor VaultOutcomes.Sample.makeSignature) false])
    (waiting plugin (.answered .makeCredential result)) := by
  have before : Run (restrict (fun s act => Calm s act = true)
      (step (VaultOutcomes.Sample.platform []) base64)) start
      [.activate, .close, .reopen, .dispatch .makeCredential]
      (waiting start.plugin (.calling .makeCredential)) := run_restricted_foldlM rfl
  have served := serve_answered (P := VaultOutcomes.Sample.platform []) (B := base64)
    (s := waiting start.plugin (.calling .makeCredential)) rfl r.answered
  have fresh : FreshId (waiting start.plugin (.calling .makeCredential))
      (.serve VaultOutcomes.Sample.outside (VaultOutcomes.Sample.rawParams
        VaultOutcomes.Sample.makeCbor VaultOutcomes.Sample.makeSignature) false) :=
    ⟨by decide, fun _ _ listing => by cases listing⟩
  exact (before.mono fun _ _ _ h => ⟨fits_of_calm h.1, h.2⟩).append
    (.single ⟨⟨fresh, trivial⟩, served⟩)

theorem run_read (r : Registration result plugin fields) : Run fitting
    (waiting plugin (.answered .makeCredential result)) [.returned, .take, .check, .read]
    (unpublished plugin result) := by
  have checked : requireVaultOpen (Plugin.called plugin) = .ok () (Plugin.called plugin) := by
    have isOpen : (Plugin.called plugin).isVaultOpen = true := r.isOpen
    simp [requireVaultOpen, isOpen]
  have calm : Calm ⟨Plugin.called plugin, false, start.os, .publishing .makeCredential result,
      .checked⟩ .read = true := r.isOpen
  refine .cons ⟨fits_of_calm rfl, rfl⟩ <| .cons ⟨fits_of_calm rfl, rfl⟩ <|
    .cons ⟨fits_of_calm rfl, ?_⟩ <| .single ⟨fits_of_calm calm, rfl⟩
  simp only [step, perform, waiting, checked]

/-- The publication fits: what is published has been read. -/
theorem publication (r : Registration result plugin fields) :
    fitting (unpublished plugin result) (.publish .done) (publishing plugin fields) := by
  have sound : Sound base64 (waiting plugin (.answered .makeCredential result)) :=
    (run_registered r).invariant (fun _ _ _ h hs => sound_step h hs.1.1 hs.1.2 hs.2)
      (sound_start start.os loaded)
  refine ⟨⟨trivial, ?_⟩, ?_⟩
  · intro _ operation result' fields' vault' dispatching new' taken
    obtain ⟨rfl, rfl⟩ := Dispatch.publishing.inj dispatching
    obtain rfl := Option.some.inj (r.new.symm.trans new')
    obtain rfl := Option.some.inj taken
    rw [r.own]
    exact vaultIds_of_has (sound.loaded r.isOpen _ r.present)
  · simp [step, perform, r.new, addCredentials, unpublished, publishing]

theorem run_removing (plugin : Plugin) (fields : AddCredentialsFields) : ∃ acts,
    Run fitting (publishing plugin fields) acts (closed plugin fields (.removing (vaultOf plugin)
      [oldId, staleId, fields.credentialId] [staleId, fields.credentialId])) := by
  have lists : Run fitting (publishing plugin fields) [.putBack, .list .done, .close]
      (closed plugin fields (.adding (vaultOf plugin) [oldId, staleId, fields.credentialId]
        (vaultOf plugin))) :=
    .cons ⟨fits_of_calm rfl, rfl⟩ <| .cons ⟨fits_of_calm rfl, rfl⟩ <|
      .single ⟨fits_of_calm rfl, rfl⟩
  have adds := fitting_replicate (adding_ends (vaultOf plugin) (closed plugin fields (.adding
    (vaultOf plugin) [oldId, staleId, fields.credentialId] (vaultOf plugin))) rfl) fun _ => rfl
  have removes := fitting_replicate (removing_reaches [oldId] [staleId, fields.credentialId]
    (closed plugin fields (.removing (vaultOf plugin) [oldId, staleId, fields.credentialId]
      [oldId, staleId, fields.credentialId])) rfl) fun _ => rfl
  exact ⟨_, lists.append (adds.append removes)⟩

theorem stale_unread (r : Registration result plugin fields) :
    staleId ∉ vaultIds base64 (vaultOf plugin) := by
  intro mem
  have kept : Has plugin.entries staleId := has_of_vaultIds (by decide) mem
  have served := congrArg final r.answered
  rw [final_ok] at served
  rw [← served] at kept
  rcases handle_has kept with old | same
  · revert old
    unfold Has
    decide +kernel
  · revert same
    decide

end

end Sample

/-- The user closes and reopens the database; a credential is registered, the task reads the vault,
the credential is published, and the database is closed again. The task then comes to an id that
is not in the vault. -/
theorem reconcile_spares_file_sample : ∃ acts t, Run Sample.fitting Sample.start acts t ∧
    .reopen ∈ acts ∧ .publish .done ∈ acts ∧ t.plugin.isVaultOpen = false ∧
    t.InFile VaultOutcomes.Sample.credentialId ∧
    Removes Sample.base64 t Sample.staleId ∧ ¬ t.InFile Sample.staleId := by
  obtain ⟨result, plugin, fields, r⟩ := Sample.registers
  obtain ⟨acts, removes⟩ := Sample.run_removing plugin fields
  have run := (Sample.run_registered r).append <| (Sample.run_read r).append <|
    .cons (Sample.publication r) removes
  have removing : Removes Sample.base64 (Sample.closed plugin fields
      (.removing (Sample.vaultOf plugin) [Sample.oldId, Sample.staleId, fields.credentialId]
        [Sample.staleId, fields.credentialId])) Sample.staleId :=
    ⟨_, _, [fields.credentialId], rfl, by decide, Sample.stale_unread r⟩
  exact ⟨_, _, run, by simp, by simp, rfl, r.present, removing,
    reconcile_spares_file _ _ _ _ _ _ _ Sample.loaded run removing⟩

/-- The database is closed once the plugin has found it open: the task reads no records, and has
Windows remove a credential that the file has. -/
theorem closed_read_removes : ∃ t : World,
    Run (step (VaultOutcomes.Sample.platform []) Sample.base64)
      (World.start Sample.vault [Sample.fields VaultOutcomes.Sample.credentialId])
      [.activate, .take, .check, .close, .read, .putBack, .list .done, .addNext .done] t ∧
    Removes Sample.base64 t VaultOutcomes.Sample.credentialId ∧
      t.InFile VaultOutcomes.Sample.credentialId :=
  ⟨_, run_foldlM rfl, ⟨[], [VaultOutcomes.Sample.credentialId], [], rfl, by decide,
    by simp [vaultIds]⟩, List.mem_cons_self ..⟩

/-- A credential is registered and published once the task has put the pipe back and before it
asks Windows for its list: the task has Windows remove it. -/
theorem late_publication_removes : ∃ t : World,
    Run (step (VaultOutcomes.Sample.platform []) Sample.base64)
      (World.start VaultOutcomes.Sample.plugin [])
      [.activate, .take, .check, .read, .putBack, .dispatch .makeCredential,
        .serve VaultOutcomes.Sample.outside (VaultOutcomes.Sample.rawParams
          VaultOutcomes.Sample.makeCbor VaultOutcomes.Sample.makeSignature) false,
        .returned, .publish .done, .list .done, .addNext .done] t ∧
    Removes Sample.base64 t VaultOutcomes.Sample.credentialId ∧
      t.InFile VaultOutcomes.Sample.credentialId := by
  obtain ⟨result, plugin, answered⟩ := RequestEffects.Sample.answers_make
    (s := Plugin.called VaultOutcomes.Sample.plugin) rfl rfl rfl rfl (by decide +kernel)
  obtain ⟨present, fields, new, own⟩ := registration_published Sample.base64 answered
  have before : Run (step (VaultOutcomes.Sample.platform []) Sample.base64)
      (World.start VaultOutcomes.Sample.plugin [])
      [.activate, .take, .check, .read, .putBack, .dispatch .makeCredential]
      ⟨Plugin.called VaultOutcomes.Sample.plugin, false, [], .calling .makeCredential,
        .enumerated []⟩ := run_foldlM rfl
  have served := serve_answered (P := VaultOutcomes.Sample.platform []) (B := Sample.base64)
    (s := ⟨Plugin.called VaultOutcomes.Sample.plugin, false, [], .calling .makeCredential,
      .enumerated []⟩) rfl answered
  have returned : step (VaultOutcomes.Sample.platform []) Sample.base64
      ⟨plugin, false, [], .answered .makeCredential result, .enumerated []⟩ .returned
      ⟨plugin, true, [], .publishing .makeCredential result, .enumerated []⟩ := rfl
  have publishing : step (VaultOutcomes.Sample.platform []) Sample.base64
      ⟨plugin, true, [], .publishing .makeCredential result, .enumerated []⟩ (.publish .done)
      ⟨plugin, true, [fields], .idle, .enumerated []⟩ := by
    simp [step, perform, new, addCredentials]
  have after : Run (step (VaultOutcomes.Sample.platform []) Sample.base64)
      ⟨plugin, true, [fields], .idle, .enumerated []⟩ [.list .done, .addNext .done]
      ⟨plugin, true, [fields], .idle,
        .removing [] [fields.credentialId] [fields.credentialId]⟩ := run_foldlM rfl
  have removed : Task.removing [] [fields.credentialId] [fields.credentialId] =
      .removing [] [fields.credentialId] [VaultOutcomes.Sample.credentialId] := by
    rw [own]
    rfl
  exact ⟨_, before.append (.cons served (.cons returned (.cons publishing after))),
    ⟨[], _, [], removed, by decide, by simp [vaultIds]⟩, present⟩

end KeePassKeyWin.Reconcile
