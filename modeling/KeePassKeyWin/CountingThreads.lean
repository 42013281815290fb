import KeePassKeyWin.DurableCounter
import KeePassKeyWin.VaultRuns

set_option autoImplicit false

/-!
# Callers of `IncrementSignCount`

Requests that run at the same time. Each selects its credential, waits for `_lock`, and then
looks its entry up, writes the counter and saves, one step at a time. Between any two steps
entries may be added or deleted, the database saved, closed or opened again.
-/
namespace KeePassKeyWin.CountingThreads
open ByteStrings JsonRpc OutcomeRules PlatformServices FirstMatch CredentialEncodings
open PasskeyStore VaultGates CtapRequests VaultHandler VaultOutcomes VaultRuns DurableCounter
open TransitionRuns

structure Caller where
  req : GetAssertionRequest
  uv : Bool
  selected : PasskeyRecord

def Caller.credentialId (caller : Caller) : String := caller.selected.credentialId

def prepare (P : Platform) (out : Outside) (params : Option JToken) : Vault Caller := do
  modify fun s => { s with vaultCalls := s.vaultCalls + 1 }
  requireVaultOpen
  let (uv, cborBytes) ← receiveRaw P out params getMethod
  let req ← lift (orMalformed getMethod (parseGetAssertionCbor cborBytes))
  if !req.optionsUp then
    throw (.rpc RpcErrorCode.invalidOption s!"{getMethod}: options.up=false is not supported.")
  let selected ← lift (selectCredential P req (← get))
  return ⟨req, uv, selected⟩

/-- How far the holder of `_lock` is. The entry it found is known by the opening of the database
it was found in; once the database is opened again, the entry is no part of it. -/
inductive Stage where
  | entered
  | found (opening next : ℕ)
  | written (opening next : ℕ)

structure Answered where
  caller : Caller
  count : ℕ
  response : Except Exn JToken

/-- `opening` counts how often the database was opened; `known` are the ids of all credentials
that the vault has ever held. -/
structure Machine where
  plugin : Plugin
  opening : ℕ
  known : List String
  waiting : List Caller
  holder : Option (Caller × Stage)
  answered : List Answered

inductive Event where
  | arrive (out : Outside) (params : Option JToken)
  | enter (i : ℕ)
  | find
  | write
  | save (out : Outside)
  | add (record : PasskeyRecord)
  | delete (credentialId : String)
  | saveOther (out : Outside)
  | close
  | reopen

def Machine.arrive (P : Platform) (out : Outside) (params : Option JToken) (s : Machine) : Machine :=
  match prepare P out params s.plugin with
  | .ok caller plugin => { s with plugin, waiting := s.waiting ++ [caller] }
  | .error _ plugin => { s with plugin }

/-- `Save`, and when it succeeds the rest of the request. -/
def Machine.save (P : Platform) (out : Outside) (caller : Caller) (next : ℕ) (s : Machine) :
    Machine :=
  match PasskeyStore.save out s.plugin with
  | .error _ plugin => { s with plugin, holder := none }
  | .ok _ plugin =>
    match answerWith P out caller.req caller.uv caller.selected next plugin with
    | .ok result plugin =>
      { s with plugin, holder := none, answered := s.answered ++ [⟨caller, next, .ok result⟩] }
    | .error e plugin =>
      { s with plugin, holder := none, answered := s.answered ++ [⟨caller, next, .error e⟩] }

def next (P : Platform) (s : Machine) : Event → Option Machine
  | .arrive out params => some (s.arrive P out params)
  | .enter i =>
    match s.holder, s.waiting[i]? with
    | none, some caller =>
      some { s with waiting := s.waiting.eraseIdx i, holder := some (caller, .entered) }
    | _, _ => none
  | .find =>
    match s.holder with
    | some (caller, .entered) =>
      match nextSignCount caller.credentialId s.plugin with
      | .ok n => some { s with holder := some (caller, .found s.opening n) }
      | .error _ => some { s with holder := none }
    | _ => none
  | .write =>
    match s.holder with
    | some (caller, .found opening n) =>
      let plugin := if opening = s.opening then s.plugin.counted caller.credentialId n else s.plugin
      some { s with plugin, holder := some (caller, .written opening n) }
    | _ => none
  | .save out =>
    match s.holder with
    | some (caller, .written _ n) => some (s.save P out caller n)
    | _ => none
  | .add record =>
    if s.plugin.isVaultOpen then
      some { s with
        plugin := s.plugin.addEntry (recordToEntry P s.plugin.culture record)
        known := s.known ++ [record.credentialId] }
    else none
  | .delete credentialId =>
    some { s with plugin := s.plugin.mapEntries (List.eraseP (hasId credentialId)) }
  | .saveOther out => some { s with plugin := final (PasskeyStore.save out s.plugin) }
  | .close => some { s with plugin := { s.plugin with database := none } }
  | .reopen =>
    if s.plugin.database.isNone then
      some { s with
        plugin := { s.plugin with database := some ⟨true, s.plugin.file⟩ }
        opening := s.opening + 1 }
    else none

def step (P : Platform) (s : Machine) (event : Event) (t : Machine) : Prop :=
  next P s event = some t

/-- The entries that opening the file brings. -/
def Plugin.fileEntries (s : Plugin) : List PwEntry :=
  match s.file.find? isPasskeys with
  | some g => g.entries
  | none => []

theorem fileEntries_saved {s : Plugin} {db : PwDatabase} (hdb : s.database = some db)
    (hopen : db.isOpen = true) : Plugin.fileEntries s.saved = s.entries := by
  rw [entries_eq s db hdb hopen]
  cases hg : db.groups.find? isPasskeys <;> simp [Plugin.fileEntries, Plugin.saved, hdb, hg]

theorem entries_reopened (s : Plugin) (opening : Option PwDatabase)
    (h : opening = some ⟨true, s.file⟩) :
    Plugin.entries { s with database := opening } = Plugin.fileEntries s := by
  subst h
  exact entries_eq _ ⟨true, s.file⟩ rfl rfl

def Machine.start (plugin : Plugin) : Machine where
  plugin := { plugin with database := none }
  opening := 0
  known := (Plugin.fileEntries plugin).filterMap PwEntry.credentialId
  waiting := []
  holder := none
  answered := []

section
variable {P : Platform} {out : Outside} {params : Option JToken}

theorem bind_congr {α β : Type} {x : Vault α} {f g : α → Vault β} (h : ∀ a, f a = g a) :
    (x >>= f) = (x >>= g) := by
  rw [funext h]

/-- `prepare` and the counting with its answer are the whole of a `getAssertionRaw`. -/
theorem handle_get : handle P out getMethod params = (do
    let caller ← prepare P out params
    let newCount ← incrementSignCount out caller.credentialId
    answerWith P out caller.req caller.uv caller.selected newCount) := by
  simp only [handle, dispatchMethod_get, handleGetAssertionRaw, prepare, bind_assoc]
  refine bind_congr fun _ => bind_congr fun _ => bind_congr fun received => bind_congr fun req => ?_
  obtain ⟨uv, cborBytes⟩ := received
  funext s
  by_cases up : req.optionsUp = true
  · simp only [up, Bool.not_true, Bool.false_eq_true, if_false, bind_assoc, pure_bind]
    rfl
  · simp only [up, Bool.not_false, if_true]
    rfl

end

end KeePassKeyWin.CountingThreads
