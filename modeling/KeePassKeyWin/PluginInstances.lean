import KeePassKeyWin.NonceSafety
import KeePassKeyWin.SharedCells
import KeePassKeyWin.SidecarCalls

set_option autoImplicit false

/-!
# Several instances of KeePass

Every instance that loads the plugin writes a nonce of its own to the one registry value before
it asks for the pipe, and deletes the value when it ends. One instance gets the pipe; a sidecar
connects to it, reads the registry and says hello.
-/
namespace KeePassKeyWin.PluginInstances
open ByteStrings JsonRpc NumberFormat OutcomeRules PlatformServices CredentialEncodings
open PasskeyStore VaultHandler VaultOutcomes VaultRuns PipeServer NonceSafety SidecarCalls
open SharedCells TransitionRuns

structure WindowsVersion where
  major : ℤ
  build : ℤ
  ubr : ℤ

def minMajor : ℤ := 10
def minBuild : ℤ := 26100
def minRevision : ℤ := 6725

def requires (culture : NumberFormatInfo) : String :=
  let build := intToString culture minBuild
  let revision := intToString culture minRevision
  s!"KeePassKeyWin requires Windows 11 24H2 build {build}.{revision} or newer. "

/-- A revision below zero could not be read, and is not held against the build. -/
def checkVersion (culture : NumberFormatInfo) (v : WindowsVersion) : Bool × String :=
  let ubrFailsMinimum := 0 ≤ v.ubr ∧ v.build = minBuild ∧ v.ubr < minRevision
  if v.major < minMajor ∨ v.build < minBuild ∨ ubrFailsMinimum then
    let major := intToString culture v.major
    let build := intToString culture v.build
    let ubr := if 0 ≤ v.ubr then intToString culture v.ubr else "?"
    (false, requires culture ++ s!"Detected: {major}.0.{build}.{ubr}")
  else (true, "")

/-- What `RtlGetVersion` says, where there is Windows to ask. -/
inductive Detected where
  | otherSystem
  | unknown
  | windows (version : WindowsVersion)

def isSupportedWindows (culture : NumberFormatInfo) : Detected → Bool × String
  | .otherSystem => (false, requires culture ++ "Non-Windows OS detected.")
  | .unknown => (false, requires culture ++ "Could not determine OS version.")
  | .windows version => checkVersion culture version

/-- An instance has written its nonce, has asked for the pipe, or has stopped. -/
inductive Phase where
  | starting
  | running
  | stopped
  deriving DecidableEq

/-- `registryNonce` of the plugin is the registry as the instance last saw it. -/
structure Instance where
  plugin : Plugin
  phase : Phase

/-- A sidecar has connected, has read the registry, or has sent its hello, which alone changes
the context of the connection. -/
inductive Client where
  | connected
  | holding (nonce : String)
  | greeted (context : ConnectionContext)

/-- `owner` has the pipe, which takes one client at a time. -/
structure World where
  registry : Option String
  instances : ℕ → Option Instance
  owner : Option ℕ
  client : Option Client

inductive Event where
  | initializeCore (i : ℕ) (out : Outside) (detected : Detected) (plugin : Plugin)
  | tryStart (i : ℕ)
  | stop (i : ℕ)
  | clear (i : ℕ) (out : Outside)
  | crash (i : ℕ)
  | connect
  | readNonce
  | hello (out : Outside) (keyBytes : Bytes)
  | call (out : Outside) (request : JsonRpcRequest)
  | disconnect

def World.start (leftover : Option String) : World := ⟨leftover, fun _ => none, none, none⟩

def World.seen (w : World) (p : Plugin) : Plugin := { p with registryNonce := w.registry }

def World.leave (w : World) (i : ℕ) (phase : Phase) (p : Plugin) : World :=
  { w with
    registry := p.registryNonce
    instances := Function.update w.instances i (some ⟨p, phase⟩) }

def World.setPhase (w : World) (i : ℕ) (inst : Instance) (phase : Phase) : World :=
  { w with instances := Function.update w.instances i (some { inst with phase }) }

def World.remove (w : World) (i : ℕ) : World :=
  { w with instances := Function.update w.instances i none }

def World.release (w : World) (i : ℕ) : World :=
  if w.owner = some i then { w with owner := none, client := none } else w

/-- The instance at the other end of the pipe. -/
def World.serving (w : World) : Option (ℕ × Instance) :=
  w.owner.bind fun i => (w.instances i).map fun inst => (i, inst)

/-- The hello is the first request on its connection. -/
def helloRequest (nonce : String) (keyBytes : Bytes) : JsonRpcRequest :=
  Link.fresh.request helloMethod (.object (helloParams nonce keyBytes))

/-- The owner answers a request of the client. -/
def World.serve (P : Platform) (w : World) (out : Outside) (request : JsonRpcRequest) (i : ℕ)
    (inst : Instance) (context : ConnectionContext) : World :=
  let s := (respond P out request ⟨context, w.seen inst.plugin⟩).2
  { w.leave i inst.phase s.plugin with client := some (.greeted s.context) }

/-- `Initialize` rethrows what the nonce store throws, and its instance does not load the
plugin. An unsupported system is left with neither nonce nor pipe. -/
def perform (P : Platform) (w : World) : Event → Option World
  | .initializeCore i out detected plugin =>
    if (w.instances i).isSome then none
    else if !(isSupportedWindows plugin.culture detected).1 then some w
    else
      match initializeNonce out (w.seen plugin) with
      | .ok _ p => some (w.leave i .starting p)
      | .error _ p => some { w with registry := p.registryNonce }
  | .tryStart i =>
    match w.instances i with
    | some inst =>
      if inst.phase = .starting then
        some { w.setPhase i inst .running with owner := some (w.owner.getD i) }
      else none
    | none => none
  | .stop i =>
    match w.instances i with
    | some inst =>
      if inst.phase = .running then some ((w.setPhase i inst .stopped).release i) else none
    | none => none
  | .clear i out =>
    match w.instances i with
    | some inst =>
      if inst.phase = .stopped then
        some { w.remove i with
          registry := (final (clearNonce out (w.seen inst.plugin))).registryNonce }
      else none
    | none => none
  | .crash i => if (w.instances i).isSome then some ((w.remove i).release i) else none
  | .connect =>
    if w.owner.isSome ∧ w.client.isNone then
      some { w with client := some .connected }
    else none
  | .readNonce =>
    match w.client, w.registry with
    | some .connected, some nonce => some { w with client := some (.holding nonce) }
    | _, _ => none
  | .hello out keyBytes =>
    match w.client, w.serving with
    | some (.holding nonce), some (i, inst) =>
      some (w.serve P out (helloRequest nonce keyBytes) i inst .fresh)
    | _, _ => none
  | .call out request =>
    match w.client, w.serving with
    | some (.greeted context), some (i, inst) =>
      if request.method = helloMethod then none else some (w.serve P out request i inst context)
    | _, _ => none
  | .disconnect => if w.client.isSome then some { w with client := none } else none

def World.content (w : World) : Option (List Char) := w.registry.map lower

def World.token (w : World) (i : ℕ) : Option (List Char) :=
  (w.instances i).bind fun inst => inst.plugin.nonce.map lower

def drawnToken (out : Outside) : List Char := lower (hexString out.nonce)

/-- The hello of a sidecar that read this nonce passes the nonce check. -/
def presents (p : Plugin) (nonce : String) : Bool := nonce ≠ "" && matchesNonce p nonce

/-- What an event does to the nonces: only `Initialize` and a hello that passes draw one, which
then stands in the registry if it could be written. -/
def moveOf (w : World) : Event → Move ℕ (List Char)
  | .initializeCore i out detected plugin =>
    if (isSupportedWindows plugin.culture detected).1 ∧ out.registry = none then
      .write i (drawnToken out)
    else .idle
  | .clear i out => .drop i out.registry.isNone
  | .crash i => .drop i false
  | .hello out _ =>
    match w.client, w.serving with
    | some (.holding nonce), some (i, inst) =>
      if presents inst.plugin nonce then
        if out.registry = none then .write i (drawnToken out) else .keep i (drawnToken out)
      else .idle
    | _, _ => .idle
  | _ => .idle

/-- `writer` is the instance whose nonce was written last and not deleted or replaced since,
`seen` every nonce so far, and `source` the writer when the client read the registry. -/
structure Ledger where
  world : World
  writer : Option ℕ
  seen : List (List Char)
  source : Option ℕ

def Ledger.start (leftover : Option String) : Ledger :=
  ⟨World.start leftover, none, (leftover.map lower).toList, none⟩

def Ledger.cell (l : Ledger) : Cell ℕ (List Char) :=
  ⟨l.world.content, l.world.token, l.writer, l.seen⟩

def sourceAfter (l : Ledger) : Event → Option ℕ
  | .readNonce => l.writer
  | _ => l.source

def Ledger.after (l : Ledger) (e : Event) (w : World) : Ledger :=
  ⟨w, (l.cell.move (moveOf l.world e)).writer, (l.cell.move (moveOf l.world e)).seen,
    sourceAfter l e⟩

def operate (P : Platform) : Ledger → Event → Ledger → Prop :=
  guarded (fun l e => (perform P l.world e).isSome)
    fun l e => l.after e ((perform P l.world e).getD l.world)

def Fresh (l : Ledger) (e : Event) : Prop :=
  ∀ token ∈ (moveOf l.world e).drawn, token ∉ l.seen

instance (l : Ledger) (e : Event) : Decidable (Fresh l e) := by
  unfold Fresh
  infer_instance

def Event.writes : Event → Bool
  | .hello out _ => out.registry.isNone
  | _ => true

/-- The answer to the hello of the client. -/
def helloAnswer (P : Platform) (w : World) (out : Outside) (keyBytes : Bytes) :
    Option JsonRpcResponse :=
  match w.client, w.serving with
  | some (.holding nonce), some (_, inst) =>
    some (respond P out (helloRequest nonce keyBytes) ⟨.fresh, w.seen inst.plugin⟩).1
  | _, _ => none

/-- The transitions of `perform`, each with its guard. A nonce that cannot be written leaves the
instances as they are. -/
inductive Performs (P : Platform) (w : World) : Event → World → Prop
  | unsupported {i : ℕ} {out : Outside} {detected : Detected} {plugin : Plugin}
      (absent : w.instances i = none)
      (old : (isSupportedWindows plugin.culture detected).1 = false) :
      Performs P w (.initializeCore i out detected plugin) w
  | initializes {i : ℕ} {out : Outside} {detected : Detected} {plugin : Plugin}
      (absent : w.instances i = none)
      (supported : (isSupportedWindows plugin.culture detected).1 = true)
      (writes : out.registry = none) :
      Performs P w (.initializeCore i out detected plugin)
        (w.leave i .starting (renewed out (w.seen plugin)))
  | throws {i : ℕ} {out : Outside} {detected : Detected} {plugin : Plugin} {message : String}
      (absent : w.instances i = none) (throws : out.registry = some message) :
      Performs P w (.initializeCore i out detected plugin) w
  | tryStart {i : ℕ} {inst : Instance} (live : w.instances i = some inst)
      (starting : inst.phase = .starting) :
      Performs P w (.tryStart i)
        { w.setPhase i inst .running with owner := some (w.owner.getD i) }
  | stop {i : ℕ} {inst : Instance} (live : w.instances i = some inst)
      (running : inst.phase = .running) :
      Performs P w (.stop i) ((w.setPhase i inst .stopped).release i)
  | clear {i : ℕ} {out : Outside} {inst : Instance} (live : w.instances i = some inst)
      (stopped : inst.phase = .stopped) :
      Performs P w (.clear i out)
        { w.remove i with registry := (final (clearNonce out (w.seen inst.plugin))).registryNonce }
  | crash {i : ℕ} : Performs P w (.crash i) ((w.remove i).release i)
  | connect (owner : w.owner ≠ none) : Performs P w .connect { w with client := some .connected }
  | readNonce {nonce : String} (connected : w.client = some .connected)
      (read : w.registry = some nonce) :
      Performs P w .readNonce { w with client := some (.holding nonce) }
  | hello {out : Outside} {keyBytes : Bytes} {nonce : String} {i : ℕ} {inst : Instance}
      (holds : w.client = some (.holding nonce)) (owner : w.owner = some i)
      (live : w.instances i = some inst) :
      Performs P w (.hello out keyBytes)
        (w.serve P out (helloRequest nonce keyBytes) i inst .fresh)
  | call {out : Outside} {request : JsonRpcRequest} {context : ConnectionContext} {i : ℕ}
      {inst : Instance} (vault : request.method ≠ helloMethod) (owner : w.owner = some i)
      (live : w.instances i = some inst) :
      Performs P w (.call out request) (w.serve P out request i inst context)
  | disconnect : Performs P w .disconnect { w with client := none }

section
variable {P : Platform} {out : Outside} {w w' : World} {i : ℕ} {p : Plugin} {nonce : String}
  {keyBytes : Bytes}

theorem readHello_helloParams :
    readHello (some (.object (helloParams nonce keyBytes))) =
      match nonEmpty (some nonce) with
      | some nonce => .ok ⟨helloParams nonce keyBytes, expectedPkgFamily, nonce⟩
      | none => .error (invalidParams "clientPkgFamilyName and handshakeNonce are required.") := by
  have object : paramsObject (some (.object (helloParams nonce keyBytes))) =
      .ok (helloParams nonce keyBytes) := rfl
  have package : stringField (helloParams nonce keyBytes) "clientPkgFamilyName" =
      .ok (some keePassKeyWinPkgFamily) := rfl
  have field : stringField (helloParams nonce keyBytes) "handshakeNonce" = .ok (some nonce) := rfl
  rw [readHello, except_bind_of_ok object, except_bind_of_ok package, except_bind_of_ok field]
  cases h : nonEmpty (some nonce) with
  | none => rfl
  | some text =>
    obtain ⟨same, -⟩ := nonEmpty_eq_some.mp h
    obtain rfl := Option.some.inj same
    rfl

/-- Both copies of the nonce once another is drawn: a registry that cannot be written keeps what
it has. -/
def noncesDrawn (out : Outside) (p : Plugin) : Option String × Option String :=
  (some (hexString out.nonce),
    if out.registry = none then some (hexString out.nonce) else p.registryNonce)

theorem initializeNonce_throws {message : String} (throws : out.registry = some message)
    (p : Plugin) : initializeNonce out p =
      .error (.other message) { p with nonce := some (hexString out.nonce) } := by
  simp only [initializeNonce, modify_bind, throws]
  rfl

theorem presents_iff {p : Plugin} {nonce : String} :
    presents p nonce = true ↔ nonce ≠ "" ∧ matchesNonce p nonce = true := by
  simp [presents]

theorem hello_nonces (P : Platform) (out : Outside) (p : Plugin) (nonce : String)
    (keyBytes : Bytes) :
    nonces (respond P out (helloRequest nonce keyBytes) ⟨.fresh, p⟩).2.plugin =
      if presents p nonce then noncesDrawn out p else nonces p := by
  rw [respond_final, dispatch_hello rfl]
  change nonces (final (handleHello P out (some (.object (helloParams nonce keyBytes))) _)).plugin = _
  rw [handleHello, get_bind, ite_run, if_neg (by simp [ConnectionContext.fresh])]
  cases blank : nonEmpty (some nonce) with
  | none =>
    have empty : nonce = "" := by simpa [nonEmpty] using blank
    rw [bind_of_error (lift_error.mpr ⟨by rw [readHello_helloParams, blank], rfl⟩)]
    simp [presents, empty]
  | some text =>
    obtain ⟨same, visible⟩ := nonEmpty_eq_some.mp blank
    obtain rfl := Option.some.inj same
    rw [bind_of_ok (lift_ok.mpr ⟨by rw [readHello_helloParams, blank], rfl⟩)]
    cases matched : matchesNonce p nonce with
    | false =>
      rw [bind_of_ok (onPlugin_ok (consumeNonce_differs matched))]
      simp [presents, matched]
    | true =>
      have drawn : presents p nonce = true := presents_iff.mpr ⟨visible, matched⟩
      rw [if_pos drawn]
      cases write : out.registry with
      | none =>
        rw [bind_of_ok (onPlugin_ok (consumeNonce_matches write matched))]
        have renews : nonces (renewed out p) = noncesDrawn out p := by
          simp [renewed, nonces, noncesDrawn, write]
        exact (greet_nonces P _ ⟨.fresh, renewed out p⟩).trans renews
      | some message =>
        have failed : consumeNonce out nonce p =
            .error (.other message) { p with nonce := some (hexString out.nonce) } := by
          rw [consumeNonce, get_bind, ite_run, if_pos matched,
            bind_of_error (initializeNonce_throws write p)]
        rw [bind_of_error (onPlugin_error failed)]
        simp [nonces, noncesDrawn, write]

theorem hello_answered (hkey : keyBytes ≠ []) :
    (respond P out (helloRequest nonce keyBytes) ⟨.fresh, p⟩).1.outcome = .ok (.str "ok") ↔
      presents p nonce = true ∧ out.registry = none := by
  constructor
  · intro h
    obtain ⟨⟨-, writes, hello, read, matched⟩, -, -⟩ := respond_hello_ok rfl h
    change readHello (some (.object (helloParams nonce keyBytes))) = .ok hello at read
    rw [readHello_helloParams] at read
    cases blank : nonEmpty (some nonce) with
    | none =>
      rw [blank] at read
      cases read
    | some text =>
      obtain ⟨same, visible⟩ := nonEmpty_eq_some.mp blank
      obtain rfl := Option.some.inj same
      rw [blank] at read
      obtain rfl := Except.ok.inj read
      exact ⟨presents_iff.mpr ⟨visible, matched⟩, writes⟩
  · rintro ⟨h, writes⟩
    obtain ⟨visible, matched⟩ := presents_iff.mp h
    have read : readHello (some (.object (helloParams nonce keyBytes))) =
        .ok ⟨helloParams nonce keyBytes, expectedPkgFamily, nonce⟩ := by
      rw [readHello_helloParams, nonEmpty_eq_some.mpr ⟨rfl, visible⟩]
    have delivers : DeliversKey P (some (.object (helloParams nonce keyBytes))) keyBytes :=
      ⟨_, toBase64String keyBytes, rfl, rfl, toBase64String_ne_empty hkey,
        fromBase64String_toBase64String P keyBytes⟩
    obtain ⟨t, accepted⟩ := handleHello_accepts (s := ⟨.fresh, p⟩)
      ⟨rfl, writes, _, read, matched⟩ delivers
    have greeted : dispatch P out (helloRequest nonce keyBytes) ⟨.fresh, p⟩ = .ok (.str "ok") t := by
      rw [dispatch_hello rfl]
      exact accepted
    rw [respond_of_ok greeted]

def Moved (w w' : World) (m : Move ℕ (List Char)) : Prop :=
  ∀ writer seen, w'.content = ((Cell.mk w.content w.token writer seen).move m).content ∧
    w'.token = ((Cell.mk w.content w.token writer seen).move m).tokens

theorem Moved.of_same (content : w'.content = w.content) (token : w'.token = w.token) :
    Moved w w' .idle := fun _ _ => ⟨content, token⟩

theorem token_update (i : ℕ) (new : Option Instance) (instances : ℕ → Option Instance) :
    (fun j => (Function.update instances i new j).bind fun inst => inst.plugin.nonce.map lower) =
      Function.update (fun j => (instances j).bind fun inst => inst.plugin.nonce.map lower) i
        (new.bind fun inst => inst.plugin.nonce.map lower) := by
  funext j
  by_cases own : j = i
  · subst own
    simp only [Function.update_self]
  · simp only [Function.update_of_ne own]

theorem token_leave (w : World) (i : ℕ) (phase : Phase) (p : Plugin) :
    (w.leave i phase p).token = Function.update w.token i (p.nonce.map lower) :=
  token_update i (some ⟨p, phase⟩) w.instances

theorem token_remove (w : World) (i : ℕ) :
    (w.remove i).token = Function.update w.token i none := token_update i none w.instances

theorem token_setPhase {inst : Instance} (live : w.instances i = some inst) (phase : Phase) :
    (w.setPhase i inst phase).token = w.token := by
  have held : w.token i = inst.plugin.nonce.map lower := by simp [World.token, live]
  have same := token_update i (some { inst with phase }) w.instances
  change (w.setPhase i inst phase).token =
    Function.update w.token i (inst.plugin.nonce.map lower) at same
  rw [same, ← held, Function.update_eq_self]

theorem release_content (w : World) (i : ℕ) : (w.release i).content = w.content := by
  unfold World.release
  split_ifs <;> rfl

theorem release_token (w : World) (i : ℕ) : (w.release i).token = w.token := by
  unfold World.release
  split_ifs <;> rfl

theorem serving_iff {inst : Instance} :
    w.serving = some (i, inst) ↔ w.owner = some i ∧ w.instances i = some inst := by
  simp only [World.serving, Option.bind_eq_some_iff, Option.map_eq_some_iff, Prod.mk.injEq]
  constructor
  · rintro ⟨j, owner, x, live, rfl, rfl⟩
    exact ⟨owner, live⟩
  · rintro ⟨owner, live⟩
    exact ⟨i, owner, inst, live, rfl, rfl⟩

theorem performs_initializeCore {detected : Detected} {plugin : Plugin}
    (h : perform P w (.initializeCore i out detected plugin) = some w') :
    Performs P w (.initializeCore i out detected plugin) w' := by
  simp only [perform] at h
  split_ifs at h with live unsupported
  · obtain rfl := Option.some.inj h
    exact .unsupported (by simpa using live) (by simpa using unsupported)
  · have absent : w.instances i = none := by simpa using live
    cases write : out.registry with
    | none =>
      rw [initializeNonce_writes write] at h
      obtain rfl := Option.some.inj h
      exact .initializes absent (by simpa using unsupported) write
    | some message =>
      rw [initializeNonce_throws write] at h
      obtain rfl := Option.some.inj h
      exact .throws absent write

theorem performs_of_perform {e : Event} (h : perform P w e = some w') : Performs P w e w' := by
  cases e with
  | initializeCore i out detected plugin => exact performs_initializeCore h
  | tryStart i =>
    simp only [perform] at h
    split at h
    · split_ifs at h with starting
      obtain rfl := Option.some.inj h
      exact .tryStart ‹_› starting
    · cases h
  | stop i =>
    simp only [perform] at h
    split at h
    · split_ifs at h with running
      obtain rfl := Option.some.inj h
      exact .stop ‹_› running
    · cases h
  | clear i out =>
    simp only [perform] at h
    split at h
    · split_ifs at h with stopped
      obtain rfl := Option.some.inj h
      exact .clear ‹_› stopped
    · cases h
  | crash i =>
    simp only [perform] at h
    split_ifs at h
    obtain rfl := Option.some.inj h
    exact .crash
  | connect =>
    simp only [perform] at h
    split_ifs at h with free
    obtain rfl := Option.some.inj h
    exact .connect (Option.isSome_iff_ne_none.mp free.1)
  | readNonce =>
    simp only [perform] at h
    split at h
    · obtain rfl := Option.some.inj h
      exact .readNonce ‹_› ‹_›
    · cases h
  | hello out keyBytes =>
    simp only [perform] at h
    split at h
    · rename_i nonce i inst holds serving
      obtain rfl := Option.some.inj h
      obtain ⟨owner, live⟩ := serving_iff.mp serving
      exact .hello holds owner live
    · cases h
  | call out request =>
    simp only [perform] at h
    split at h
    · rename_i context i inst _ serving
      split_ifs at h with vault
      obtain rfl := Option.some.inj h
      obtain ⟨owner, live⟩ := serving_iff.mp serving
      exact .call vault owner live
    · cases h
  | disconnect =>
    simp only [perform] at h
    split_ifs at h
    obtain rfl := Option.some.inj h
    exact .disconnect

theorem moved_serve {inst : Instance} {request : JsonRpcRequest} {context : ConnectionContext}
    (live : w.instances i = some inst)
    {m : Move ℕ (List Char)} (h : m = .idle ∧
        nonces (respond P out request ⟨context, w.seen inst.plugin⟩).2.plugin =
          (inst.plugin.nonce, w.registry) ∨
      nonces (respond P out request ⟨context, w.seen inst.plugin⟩).2.plugin =
          noncesDrawn out (w.seen inst.plugin) ∧
        m = if out.registry = none then .write i (drawnToken out) else .keep i (drawnToken out)) :
    Moved w (w.serve P out request i inst context) m := by
  set s := (respond P out request ⟨context, w.seen inst.plugin⟩).2 with hs
  have content : (w.serve P out request i inst context).content =
      s.plugin.registryNonce.map lower := rfl
  have token : (w.serve P out request i inst context).token =
      Function.update w.token i (s.plugin.nonce.map lower) := token_leave w i inst.phase s.plugin
  have held : w.token i = inst.plugin.nonce.map lower := by simp [World.token, live]
  obtain ⟨rfl, same⟩ | ⟨drawn, rfl⟩ := h
  · obtain ⟨nonce, registry⟩ := Prod.ext_iff.mp same
    change s.plugin.nonce = _ at nonce
    change s.plugin.registryNonce = _ at registry
    refine Moved.of_same ?_ ?_
    · rw [content, registry]
      rfl
    · rw [token, nonce, ← held, Function.update_eq_self]
  · obtain ⟨nonce, registry⟩ := Prod.ext_iff.mp drawn
    change s.plugin.nonce = some (hexString out.nonce) at nonce
    change s.plugin.registryNonce = if out.registry = none then _ else w.registry at registry
    intro writer seen
    rw [content, token, nonce, registry]
    split_ifs with writes
    · exact ⟨rfl, rfl⟩
    · exact ⟨rfl, rfl⟩

theorem clearNonce_registry (out : Outside) (p : Plugin) :
    (final (clearNonce out p)).registryNonce =
      if out.registry.isNone then none else p.registryNonce := by
  cases h : out.registry <;> simp [clearNonce, h]
  all_goals rfl

theorem moved_hello {inst : Instance} (holds : w.client = some (.holding nonce))
    (owner : w.owner = some i) (live : w.instances i = some inst) :
    Moved w (w.serve P out (helloRequest nonce keyBytes) i inst .fresh)
      (moveOf w (.hello out keyBytes)) := by
  have after := hello_nonces P out (w.seen inst.plugin) nonce keyBytes
  refine moved_serve live ?_
  simp only [moveOf, holds, serving_iff.mpr ⟨owner, live⟩]
  change nonces _ = if presents inst.plugin nonce then _ else (inst.plugin.nonce, w.registry)
    at after
  split_ifs at after with presented
  · exact .inr ⟨after, by rw [if_pos presented]⟩
  · exact .inl ⟨by rw [if_neg presented], after⟩

theorem moved_perform {e : Event} (h : perform P w e = some w') : Moved w w' (moveOf w e) := by
  cases performs_of_perform h with
  | unsupported absent old =>
    rw [moveOf, if_neg (by simp [old])]
    exact .of_same rfl rfl
  | initializes absent supported writes =>
    rw [moveOf, if_pos ⟨supported, writes⟩]
    exact fun _ _ => ⟨rfl, token_leave w _ .starting _⟩
  | throws absent throws =>
    rw [moveOf, if_neg (by simp [throws])]
    exact .of_same rfl rfl
  | tryStart live starting => exact .of_same rfl (token_setPhase live .running)
  | stop live running =>
    exact .of_same (release_content _ _)
      ((release_token _ _).trans (token_setPhase live .stopped))
  | @clear i out inst live stopped =>
    intro writer seen
    refine ⟨?_, token_remove w i⟩
    change (final (clearNonce out (w.seen inst.plugin))).registryNonce.map lower = _
    rw [clearNonce_registry, moveOf]
    cases out.registry.isNone <;> rfl
  | @crash i =>
    exact fun _ _ => ⟨release_content _ i, (release_token _ i).trans (token_remove w i)⟩
  | hello holds owner live => exact moved_hello holds owner live
  | @call out request context i inst vault owner live =>
    have same : nonces (final (dispatch P out request ⟨context, w.seen inst.plugin⟩)).plugin =
        nonces (w.seen inst.plugin) := dispatch_nonces vault _
    rw [← respond_final] at same
    exact moved_serve live (.inl ⟨rfl, same⟩)
  | connect owner | readNonce connected read | disconnect => exact .of_same rfl rfl

theorem operate_cases {l l' : Ledger} {e : Event} (h : operate P l e l') :
    ∃ w, perform P l.world e = some w ∧ l' = l.after e w := by
  obtain ⟨enabled, rfl⟩ := h
  obtain ⟨w, hw⟩ := Option.isSome_iff_exists.mp enabled
  exact ⟨w, hw, by simp only [hw, Option.getD_some]⟩

theorem after_source {l : Ledger} {e : Event} (w : World) (other : e ≠ .readNonce) :
    (l.after e w).source = l.source := by
  cases e <;> first | rfl | exact absurd rfl other

/-- A step of the instances is a move of the cell. -/
theorem cell_operate {l l' : Ledger} {e : Event} (h : operate P l e l') :
    l'.cell = l.cell.move (moveOf l.world e) := by
  obtain ⟨w, hw, rfl⟩ := operate_cases h
  obtain ⟨content, token⟩ := moved_perform hw l.writer l.seen
  change Cell.mk w.content w.token _ _ = _
  rw [content, token]
  rfl

end

end KeePassKeyWin.PluginInstances
