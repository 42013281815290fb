import KeePassKeyWin.OpSignKey
import KeePassKeyWin.SidecarResults

set_option autoImplicit false

/-!
# The registration with Windows

`cmd_register` and `cmd_unregister`, each in a process of its own. Windows keeps one registration
for the CLSID and does not replace it: a registration that finds one removes it and tries again.
-/
namespace KeePassKeyWin.WindowsRegistration
open ByteStrings CborCodec OutcomeRules EventLogs TransitionRuns SidecarResults
open UserVerification (Hresult)
open OpSignKey (Guid clsidGuid)

def keepasskeywinAaguid : Bytes :=
  [0xa9, 0x7d, 0x1e, 0x2b, 0x4c, 0x8f, 0x4a, 0x3e, 0x9b, 0xd6, 0x5f, 0x82, 0xc1, 0x47, 0x6e, 0x3d]

def algorithm (alg : ℤ) : Value :=
  .map [(.text "alg", .int alg), (.text "type", .text "public-key")]

def authenticatorGetInfo : Value := .map [
  (.uint 1, .array [.text "FIDO_2_0", .text "FIDO_2_1"]),
  (.uint 3, .bytes keepasskeywinAaguid),
  (.uint 4, .map [(.text "rk", .bool true), (.text "up", .bool true), (.text "uv", .bool true)]),
  (.uint 9, .array [.text "internal"]),
  (.uint 10, .array [algorithm (-7), algorithm (-257)])]

def authenticatorGetInfoCbor : Bytes := encode authenticatorGetInfo

structure AddAuthenticatorOptions where
  authenticatorName : List UInt16
  rclsid : Guid
  pluginRpId : List UInt16
  lightThemeLogoSvg : List UInt16
  darkThemeLogoSvg : List UInt16
  authenticatorInfo : Bytes
  supportedRpIds : List (List UInt16)

def themeLogoSvgB64 : String :=
  "PHN2ZyB4bWxucz0iaHR0cDovL3d3dy53My5vcmcvMjAwMC9zdmciIHdpZHRoPSIxNiIgaGVpZ2h0PSIxNiIvPg=="

/-- No list of relying parties stands for all of them. -/
def options : AddAuthenticatorOptions where
  authenticatorName := encodeUtf16Nul "KeePassKeyWin"
  rclsid := clsidGuid
  pluginRpId := encodeUtf16Nul "keepasskeywin.local"
  lightThemeLogoSvg := encodeUtf16Nul themeLogoSvgB64
  darkThemeLogoSvg := encodeUtf16Nul themeLogoSvgB64
  authenticatorInfo := authenticatorGetInfoCbor
  supportedRpIds := []

/-- The calls into COM and into the library, with what came back. A response is numbered. -/
inductive Entry where
  | coInitializeEx (hr : Hresult)
  | addAuthenticator (hr : Hresult) (response : Option ℕ)
  | freeAddAuthenticatorResponse (response : ℕ)
  | removeAuthenticator (hr : Hresult)
  | coUninit

/-- What Windows has registered under the CLSID, and the calls so far. -/
structure Windows where
  registered : Option AddAuthenticatorOptions
  responses : ℕ
  log : List Entry

def Windows.record (w : Windows) (entry : Entry) : Windows := { w with log := w.log ++ [entry] }

abbrev Command := EStateM String Windows

/-- A call that fails may have written a response all the same. -/
structure AddReply where
  hr : Hresult
  response : Bool

/-- What one command meets. The library is loaded once. -/
structure Replies where
  coInit : Hresult
  library : Except String Unit
  add : AddReply
  remove : Hresult
  retry : AddReply

def addAuthenticator (library : Except String Unit) (opts : AddAuthenticatorOptions)
    (reply : AddReply) : Command (Hresult × Option ℕ) := do
  lift library
  let response ← modifyGet fun w =>
    let response := if reply.response then some w.responses else none
    (response, { w.record (.addAuthenticator reply.hr response) with
      registered := if reply.hr.isErr then w.registered else some opts
      responses := if reply.response then w.responses + 1 else w.responses })
  return (reply.hr, response)

def freeAddAuthenticatorResponse (library : Except String Unit) : Option ℕ → Command Unit
  | none => pure ()
  | some response =>
    match library with
    | .error _ => pure ()
    | .ok _ => modify fun w => w.record (.freeAddAuthenticatorResponse response)

def removeAuthenticator (library : Except String Unit) (reply : Hresult) : Command Hresult := do
  lift library
  modify fun w => { w.record (.removeAuthenticator reply) with
    registered := if reply.isErr then w.registered else none }
  return reply

def ignore {α : Type} (x : Command α) : Command Unit := fun w =>
  match x w with
  | .ok _ w | .error _ w => .ok () w

def hex8 (hr : Hresult) : String :=
  let digits := Nat.toDigits 16 hr.toNat
  "0x" ++ String.ofList (List.replicate (8 - digits.length) '0' ++ digits)

/-- COM is left however the rest ends. -/
def withCom {α : Type} (hr : Hresult) (rest : Command α) : Command α := fun w =>
  let w := w.record (.coInitializeEx hr)
  if hr.isErr then .error ("CoInitializeEx(STA) failed: " ++ hex8 hr) w
  else
    match rest w with
    | .ok a w => .ok a (w.record .coUninit)
    | .error e w => .error e (w.record .coUninit)

def nteExists : Hresult := 0x8009000F
def notFound : Hresult := 0x80070490
def fileNotFound : Hresult := 0x80070002

/-- `Add`, and the response freed before the result is looked at. -/
def addAndFree (library : Except String Unit) (reply : AddReply) : Command Hresult := do
  let (hr, response) ← addAuthenticator library options reply
  freeAddAuthenticatorResponse library response
  return hr

def cmdRegister (r : Replies) : Command Unit := withCom r.coInit do
  let hr ← addAndFree r.library r.add
  if hr = nteExists then
    ignore (removeAuthenticator r.library r.remove)
    let hrRetry ← addAndFree r.library r.retry
    if hrRetry.isErr then
      throw ("WebAuthNPluginAddAuthenticator failed after remove+retry: " ++ hex8 hrRetry)
  else if hr.isErr then
    throw ("WebAuthNPluginAddAuthenticator failed: " ++ hex8 hr)

def cmdUnregister (r : Replies) : Command Unit := withCom r.coInit do
  let hr ← removeAuthenticator r.library r.remove
  if hr = 0 then pure ()
  else if hr = notFound ∨ hr = fileNotFound then pure ()
  else throw ("EXPERIMENTAL_WebAuthNPluginRemoveAuthenticator failed: " ++ hex8 hr)

inductive Subcommand where
  | register
  | unregister
  deriving DecidableEq

def Subcommand.run : Subcommand → Replies → Command Unit
  | .register => cmdRegister
  | .unregister => cmdUnregister

structure Done where
  command : Subcommand
  replies : Replies
  result : Except String Unit

structure Machine where
  windows : Windows
  done : List Done

def Machine.start (registered : Option AddAuthenticatorOptions) : Machine :=
  ⟨⟨registered, 0, []⟩, []⟩

def outcome : EStateM.Result String Windows Unit → Except String Unit
  | .ok a _ => .ok a
  | .error e _ => .error e

def next (m : Machine) (event : Subcommand × Replies) : Machine :=
  let result := event.1.run event.2 m.windows
  ⟨final result, m.done ++ [⟨event.1, event.2, outcome result⟩]⟩

/-- Windows says that there is nothing to remove only where that is so. -/
def Replies.Fits (r : Replies) (w : Windows) : Prop :=
  r.remove = notFound ∨ r.remove = fileNotFound → w.registered.isNone = true

instance (r : Replies) (w : Windows) : Decidable (r.Fits w) :=
  inferInstanceAs (Decidable (_ → _))

def step (m : Machine) (event : Subcommand × Replies) (m' : Machine) : Prop := m' = next m event

/-- Between `CoInitializeEx` and `CoUninitialize`. -/
def inside (log : List Entry) : Bool :=
  (lastOf (fun
    | .coInitializeEx hr => if hr.isErr then none else some true
    | .coUninit => some false
    | _ => none) log).getD false

def held (log : List Entry) : Option ℕ :=
  (lastOf (fun
    | .addAuthenticator _ response => some response
    | .freeAddAuthenticatorResponse _ => some none
    | _ => none) log).join

def permitted (log : List Entry) : Entry → Prop
  | .coInitializeEx _ => inside log = false ∧ held log = none
  | .addAuthenticator _ _ | .removeAuthenticator _ | .coUninit =>
    inside log = true ∧ held log = none
  | .freeAddAuthenticatorResponse response => inside log = true ∧ held log = some response

structure At (within : Bool) (response : Option ℕ) (w : Windows) : Prop where
  lawful : Lawful permitted w.log
  entered : inside w.log = within
  pending : held w.log = response

section calls
variable {w : Windows}

theorem At.started (h : At false none w) (hr : Hresult) :
    At (!hr.isErr) none (w.record (.coInitializeEx hr)) := by
  refine ⟨.snoc h.lawful ⟨h.entered, h.pending⟩, ?_, ?_⟩
  · have before := h.entered
    cases failed : hr.isErr
    · simp [inside, Windows.record, failed]
    · simpa [inside, Windows.record, failed] using before
  · simpa [held, Windows.record] using h.pending

theorem At.left (h : At true none w) : At false none (w.record .coUninit) := by
  refine ⟨.snoc h.lawful ⟨h.entered, h.pending⟩, ?_, ?_⟩
  · simp [inside, Windows.record]
  · simpa [held, Windows.record] using h.pending

theorem At.added (h : At true none w) (hr : Hresult) (response : Option ℕ) :
    At true response (w.record (.addAuthenticator hr response)) := by
  refine ⟨.snoc h.lawful ⟨h.entered, h.pending⟩, ?_, ?_⟩
  · simpa [inside, Windows.record] using h.entered
  · simp [held, Windows.record]

theorem At.freed {response : ℕ} (h : At true (some response) w) :
    At true none (w.record (.freeAddAuthenticatorResponse response)) := by
  refine ⟨.snoc h.lawful ⟨h.entered, h.pending⟩, ?_, ?_⟩
  · simpa [inside, Windows.record] using h.entered
  · simp [held, Windows.record]

theorem At.removed (h : At true none w) (hr : Hresult) :
    At true none (w.record (.removeAuthenticator hr)) := by
  refine ⟨.snoc h.lawful ⟨h.entered, h.pending⟩, ?_, ?_⟩
  · simpa [inside, Windows.record] using h.entered
  · simpa [held, Windows.record] using h.pending

theorem At.of_log {within : Bool} {response : Option ℕ} {w' : Windows} (h : At within response w)
    (same : w'.log = w.log) : At within response w' :=
  ⟨same ▸ h.lawful, same ▸ h.entered, same ▸ h.pending⟩

theorem At.add_freed (h : At true none w) (library : Except String Unit) (reply : AddReply) :
    At true none (final (addAndFree library reply w)) := by
  cases library with
  | error e => exact h
  | ok _ =>
    obtain ⟨hr, response⟩ := reply
    cases response with
    | false => exact (h.added hr none).of_log rfl
    | true => exact (h.added hr (some w.responses)).freed.of_log rfl

theorem At.remove_called (h : At true none w) (library : Except String Unit)
    (reply : Hresult) : At true none (final (removeAuthenticator library reply w)) := by
  cases library with
  | error e => exact h
  | ok _ => exact (h.removed reply).of_log rfl

theorem final_ignore {α : Type} (x : Command α) : final (ignore x w) = final (x w) := by
  cases h : x w <;> simp [ignore, h]

theorem At.with_com {α : Type} {hr : Hresult} {rest : Command α} (h : At false none w)
    (body : ∀ w, At true none w → At true none (final (rest w))) :
    At false none (final (withCom hr rest w)) := by
  have start := h.started hr
  cases failed : hr.isErr with
  | true =>
    rw [failed] at start
    simpa [withCom, failed] using start
  | false =>
    rw [failed] at start
    have left := (body _ start).left
    cases ended : rest (w.record (.coInitializeEx hr)) <;>
      simpa [withCom, failed, ended] using left

theorem At.register (h : At false none w) (r : Replies) :
    At false none (final (cmdRegister r w)) := by
  refine h.with_com fun w h => ?_
  refine final_bind_keeps (h.add_freed r.library r.add) fun hr w h => ?_
  split_ifs
  · have removed : At true none (final (ignore (removeAuthenticator r.library r.remove) w)) := by
      rw [final_ignore]
      exact h.remove_called r.library r.remove
    refine final_bind_keeps removed fun _ w h => ?_
    refine final_bind_keeps (h.add_freed r.library r.retry) fun hrRetry w h => ?_
    split_ifs <;> exact h
  all_goals exact h

theorem At.unregister (h : At false none w) (r : Replies) :
    At false none (final (cmdUnregister r w)) := by
  refine h.with_com fun w h => ?_
  refine final_bind_keeps (h.remove_called r.library r.remove) fun hr w h => ?_
  split_ifs <;> exact h

end calls

/-- A registration was taken away for the sake of the next, which then failed, or the removal
did not fail and was not `S_OK` either. -/
def Done.lost (d : Done) : Bool :=
  !d.replies.coInit.isErr && d.replies.library.isOk && !d.replies.remove.isErr &&
    (d.command == .unregister || d.replies.add.hr == nteExists)

/-- What a command makes of what was registered, told by how it ended. -/
def Done.effect (registered : Option AddAuthenticatorOptions) (d : Done) :
    Option AddAuthenticatorOptions :=
  match d.result, d.command with
  | .ok _, .register => some options
  | .ok _, .unregister => none
  | .error _, _ => if d.lost then none else registered

section effects
variable {w w' : Windows} {library : Except String Unit} {hr : Hresult} {e : String}

theorem addAndFree_ok {reply : AddReply} (h : addAndFree library reply w = .ok hr w') :
    library = .ok () ∧ hr = reply.hr ∧
      w'.registered = if reply.hr.isErr then w.registered else some options := by
  obtain ⟨replied, response⟩ := reply
  cases library with
  | error e => cases h
  | ok _ => cases response <;> cases h <;> exact ⟨rfl, rfl, rfl⟩

theorem addAndFree_error {reply : AddReply} (h : addAndFree library reply w = .error e w') :
    library = .error e ∧ w' = w := by
  obtain ⟨replied, response⟩ := reply
  cases library with
  | error e' =>
    cases h
    exact ⟨rfl, rfl⟩
  | ok _ => cases response <;> cases h

theorem removeAuthenticator_ok {reply : Hresult}
    (h : removeAuthenticator library reply w = .ok hr w') :
    library = .ok () ∧ hr = reply ∧
      w'.registered = if reply.isErr then w.registered else none := by
  cases library with
  | error e => cases h
  | ok _ =>
    cases h
    exact ⟨rfl, rfl, rfl⟩

theorem removeAuthenticator_error {reply : Hresult}
    (h : removeAuthenticator library reply w = .error e w') : library = .error e ∧ w' = w := by
  cases library with
  | error e' =>
    cases h
    exact ⟨rfl, rfl⟩
  | ok _ => cases h

theorem ignore_bind {α β : Type} (x : Command α) (f : Unit → Command β) :
    (ignore x >>= f) w = f () (final (x w)) := by
  refine bind_of_ok ?_
  cases h : x w <;> simp [ignore, h]

theorem withCom_ok {α : Type} {rest : Command α} {a : α} (h : withCom hr rest w = .ok a w') :
    hr.isErr = false ∧ ∃ u, rest (w.record (.coInitializeEx hr)) = .ok a u ∧
      w'.registered = u.registered := by
  unfold withCom at h
  split_ifs at h with failed
  cases ended : rest (w.record (.coInitializeEx hr)) with
  | ok a' u =>
    simp only [ended] at h
    cases h
    exact ⟨Bool.eq_false_iff.mpr failed, u, rfl, rfl⟩
  | error e u =>
    simp only [ended] at h
    cases h

theorem withCom_error {α : Type} {rest : Command α} (h : withCom hr rest w = .error e w') :
    (hr.isErr = true ∧ w'.registered = w.registered) ∨
    (hr.isErr = false ∧ ∃ u, rest (w.record (.coInitializeEx hr)) = .error e u ∧
      w'.registered = u.registered) := by
  unfold withCom at h
  split_ifs at h with failed
  · cases h
    exact .inl ⟨failed, rfl⟩
  cases ended : rest (w.record (.coInitializeEx hr)) with
  | ok a' u =>
    simp only [ended] at h
    cases h
  | error e u =>
    simp only [ended] at h
    cases h
    exact .inr ⟨Bool.eq_false_iff.mpr failed, u, rfl, rfl⟩

theorem cmdRegister_ok {r : Replies} (h : cmdRegister r w = .ok () w') :
    w'.registered = some options := by
  obtain ⟨_, u, body, left⟩ := withCom_ok h
  obtain ⟨hr, v, added, rest⟩ := bind_ok.mp body
  obtain ⟨_, rfl, first⟩ := addAndFree_ok added
  rw [left]
  split_ifs at rest with existed failed
  · rw [ignore_bind] at rest
    obtain ⟨hrRetry, x, retried, last⟩ := bind_ok.mp rest
    obtain ⟨_, rfl, second⟩ := addAndFree_ok retried
    split_ifs at last with failed
    · cases last
    · obtain ⟨_, rfl⟩ := pure_ok.mp last
      rw [second, if_neg failed]
  · cases rest
  · obtain ⟨_, rfl⟩ := pure_ok.mp rest
    rw [first, if_neg failed]

theorem removed_final (reply : Hresult) :
    (final (removeAuthenticator (.ok ()) reply w)).registered =
      if reply.isErr then w.registered else none := rfl

theorem cmdRegister_error {r : Replies} (h : cmdRegister r w = .error e w') :
    w'.registered = if Done.lost ⟨.register, r, .error e⟩ then none else w.registered := by
  rcases withCom_error h with ⟨failed, same⟩ | ⟨entered, u, body, left⟩
  · simp [Done.lost, failed, same]
  rw [left]
  rcases bind_error.mp body with stopped | ⟨hr, v, added, rest⟩
  · obtain ⟨missing, rfl⟩ := addAndFree_error stopped
    simp [Done.lost, missing, Except.isOk, Except.toBool, Windows.record]
  obtain ⟨loaded, rfl, first⟩ := addAndFree_ok added
  split_ifs at rest with existed failed
  · -- the removal counts, and the second attempt failed
    have refused : nteExists.isErr = true := by decide
    rw [existed, if_pos refused] at first
    rw [ignore_bind, loaded] at rest
    rcases bind_error.mp rest with stopped | ⟨hrRetry, x, retried, last⟩
    · cases (addAndFree_error stopped).1
    obtain ⟨_, rfl, second⟩ := addAndFree_ok retried
    split_ifs at last with failed
    · cases last
      rw [second, if_pos failed, removed_final, first]
      cases kept : r.remove.isErr <;>
        simp [Done.lost, entered, loaded, existed, kept, Except.isOk, Except.toBool, Windows.record]
    · cases last
  · cases rest
    rw [first, if_pos failed]
    simp [Done.lost, existed, Windows.record]
  · cases rest

theorem cmdUnregister_ok {r : Replies} (fits : r.Fits w) (h : cmdUnregister r w = .ok () w') :
    w'.registered = none := by
  obtain ⟨_, u, body, left⟩ := withCom_ok h
  obtain ⟨hr, v, removed, rest⟩ := bind_ok.mp body
  obtain ⟨_, rfl, after⟩ := removeAuthenticator_ok removed
  rw [left]
  split_ifs at rest with success missing
  · obtain ⟨_, rfl⟩ := pure_ok.mp rest
    have fine : Hresult.isErr 0 = false := by decide
    simp [after, success, fine]
  · obtain ⟨_, rfl⟩ := pure_ok.mp rest
    have gone : w.registered = none := Option.isNone_iff_eq_none.mp (fits missing)
    simp [after, gone, Windows.record]
  · cases rest

theorem cmdUnregister_error {r : Replies} (h : cmdUnregister r w = .error e w') :
    w'.registered = if Done.lost ⟨.unregister, r, .error e⟩ then none else w.registered := by
  rcases withCom_error h with ⟨failed, same⟩ | ⟨entered, u, body, left⟩
  · simp [Done.lost, failed, same]
  rw [left]
  rcases bind_error.mp body with stopped | ⟨hr, v, removed, rest⟩
  · obtain ⟨missing, rfl⟩ := removeAuthenticator_error stopped
    simp [Done.lost, missing, Except.isOk, Except.toBool, Windows.record]
  obtain ⟨loaded, rfl, after⟩ := removeAuthenticator_ok removed
  split_ifs at rest with success missing
  · cases rest
  · cases rest
  · cases rest
    cases kept : r.remove.isErr <;>
      simp [after, Done.lost, entered, loaded, kept, Except.isOk, Except.toBool, Windows.record]

end effects

structure Inv (registered : Option AddAuthenticatorOptions) (m : Machine) : Prop where
  calls : At false none m.windows
  told : m.windows.registered = m.done.foldl Done.effect registered

theorem inv_start (registered : Option AddAuthenticatorOptions) :
    Inv registered (Machine.start registered) :=
  ⟨⟨.nil, rfl, rfl⟩, rfl⟩

theorem inv_step {registered : Option AddAuthenticatorOptions} {m m' : Machine}
    {event : Subcommand × Replies} (h : Inv registered m) (fits : event.2.Fits m.windows)
    (moved : step m event m') : Inv registered m' := by
  obtain ⟨command, r⟩ := event
  obtain rfl : m' = next m (command, r) := moved
  have calls : At false none (final (command.run r m.windows)) := by
    cases command with
    | register => exact h.calls.register r
    | unregister => exact h.calls.unregister r
  refine ⟨calls, ?_⟩
  change (final (command.run r m.windows)).registered = (m.done ++ [_]).foldl Done.effect registered
  rw [List.foldl_append, ← h.told]
  cases ended : command.run r m.windows with
  | ok a w =>
    cases command with
    | register => exact cmdRegister_ok ended
    | unregister => exact cmdUnregister_ok fits ended
  | error e w =>
    cases command with
    | register => exact cmdRegister_error ended
    | unregister => exact cmdUnregister_error ended

/-- Whatever the library answers, every call is made inside of COM, every response is freed before
the next call, and what Windows has registered afterwards is what the commands reported. -/
theorem registration_told {registered : Option AddAuthenticatorOptions} {m : Machine}
    {events : List (Subcommand × Replies)}
    (run : Run (restrict (fun m event => event.2.Fits m.windows) step)
      (Machine.start registered) events m) :
    Lawful permitted m.windows.log ∧ inside m.windows.log = false ∧
      held m.windows.log = none ∧
      m.windows.registered = m.done.foldl Done.effect registered := by
  have inv : Inv registered m :=
    run.invariant (fun _ _ _ h moved => inv_step h moved.1 moved.2) (inv_start registered)
  exact ⟨inv.calls.lawful, inv.calls.entered, inv.calls.pending, inv.told⟩

def sampleReplies (add : AddReply) (retry : Hresult) : Replies :=
  ⟨0, .ok (), add, 0, ⟨retry, false⟩⟩

def sampleEvents : List (Subcommand × Replies) :=
  [(.register, sampleReplies ⟨0, true⟩ 0), (.register, sampleReplies ⟨nteExists, true⟩ 0x80004005)]

def sampleMachine : Machine := sampleEvents.foldl next (Machine.start none)

theorem registration_told_sample :
    sampleMachine.windows.log.length = 10 ∧ sampleMachine.windows.registered = none ∧
      Lawful permitted sampleMachine.windows.log := by
  have run : Run (restrict (fun m event => event.2.Fits m.windows) step)
      (Machine.start none) sampleEvents sampleMachine :=
    .cons ⟨by decide, rfl⟩ (.cons ⟨by decide, rfl⟩ (.nil _))
  obtain ⟨lawful, _, _, told⟩ := registration_told run
  exact ⟨by decide, told.trans rfl, lawful⟩

end KeePassKeyWin.WindowsRegistration
