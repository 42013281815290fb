import KeePassKeyWin.VaultRuns

set_option autoImplicit false

/-!
# The pipe server

The handshake, the dispatcher and the loop that answers the lines of one connection after
another. A connection has a context of its own; the plugin, with its nonce and its cached
key, outlives it.
-/
namespace KeePassKeyWin.PipeServer
open ByteStrings JsonRpc OutcomeRules PlatformServices CredentialEncodings PasskeyStore
open VaultGates CtapRequests VaultHandler VaultOutcomes VaultRuns TransitionRuns

structure Session where
  context : ConnectionContext
  plugin : Plugin

abbrev Serving := EStateM Exn Session

def onPlugin {α : Type} (x : Vault α) : Serving α := fun s =>
  match x s.plugin with
  | .ok a plugin => .ok a { s with plugin }
  | .error e plugin => .error e { s with plugin }

def hexString (bytes : Bytes) : String :=
  String.ofList (bytes.flatMap fun b => [Nat.digitChar (b.toNat / 16), Nat.digitChar (b.toNat % 16)])

/-- `Initialize`: the field is set before the registry is written. -/
def initializeNonce (out : Outside) : Vault Unit := do
  let nonce := hexString out.nonce
  modify fun s => { s with nonce := some nonce }
  match out.registry with
  | some message => throw (.other message)
  | none => modify fun s => { s with registryNonce := some nonce }

def matchesNonce (s : Plugin) (nonce : String) : Bool :=
  match s.nonce with
  | none => false
  | some expected => equalsIgnoreCase nonce expected

def consumeNonce (out : Outside) (nonce : String) : Vault Bool := do
  if matchesNonce (← get) nonce then
    initializeNonce out
    return true
  return false

def helloMethod : String := "keepasskeywin.hello"

def expectedPkgFamily : String := "KeePassKeyWin.Provider_4fv17arhjxxvg"

def paramsObject (params : Option JToken) : Except Exn JObject :=
  match params with
  | some (.object fields) => .ok fields
  | _ => .error (invalidParams "params must be an object.")

structure Hello where
  obj : JObject
  clientPkg : String
  nonce : String

/-- The parameters of a hello, as checked before the nonce. -/
def readHello (params : Option JToken) : Except Exn Hello := do
  let obj ← paramsObject params
  let clientPkg ← stringField obj "clientPkgFamilyName"
  let nonce ← stringField obj "handshakeNonce"
  match nonEmpty clientPkg, nonEmpty nonce with
  | some clientPkg, some nonce =>
    if clientPkg ≠ expectedPkgFamily then
      throw (.rpc RpcErrorCode.handshakeInvalid "Unrecognised client package family.")
    return ⟨obj, clientPkg, nonce⟩
  | _, _ => throw (invalidParams "clientPkgFamilyName and handshakeNonce are required.")

def helloKey (P : Platform) (obj : JObject) : Except Exn Bytes := do
  match nonEmpty (← stringField obj "opSignPublicKeyB64") with
  | none => throw (invalidParams "opSignPublicKeyB64 is required in keepasskeywin.hello params.")
  | some opSignKeyB64 => fromBase64OrInvalid P opSignKeyB64 fun message =>
      s!"opSignPublicKeyB64 is not valid base64: {message}"

/-- What follows the nonce check. The connection counts as greeted before the key is read. -/
def greet (P : Platform) (hello : Hello) : Serving JToken := do
  modify fun s => { s with context := ⟨true, hello.clientPkg⟩ }
  let keyBytes ← lift (helloKey P hello.obj)
  modify fun s => { s with plugin := { s.plugin with opSignPubKey := some keyBytes } }
  return .str "ok"

def handleHello (P : Platform) (out : Outside) (params : Option JToken) : Serving JToken := do
  if (← get).context.handshakeComplete then
    throw (.rpc RpcErrorCode.handshakeInvalid "Handshake already completed.")
  else
    let hello ← lift (readHello params)
    if ← onPlugin (consumeNonce out hello.nonce) then greet P hello
    else throw (.rpc RpcErrorCode.handshakeInvalid "Invalid or already-used nonce.")

def dispatch (P : Platform) (out : Outside) (request : JsonRpcRequest) : Serving JToken := do
  if request.method = helloMethod then handleHello P out request.params
  else if !(← get).context.handshakeComplete then
    throw (.rpc RpcErrorCode.handshakeRequired "Handshake not completed.")
  else onPlugin (handle P out request.method request.params)

def parseLine (P : Platform) (line : String) : Except JsonRpcResponse JsonRpcRequest :=
  match P.deserializeRequest line with
  | .error message => .error ⟨none, .error (RpcErrorCode.parseError, "Parse error: " ++ message)⟩
  | .ok none => .error ⟨none, .error (RpcErrorCode.invalidRequest, "Invalid Request")⟩
  | .ok (some request) =>
    if request.method = "" then
      .error ⟨none, .error (RpcErrorCode.invalidRequest, "Invalid Request")⟩
    else .ok request

def Exn.toError : Exn → ℤ × String
  | .rpc code message => (code, message)
  | e => (RpcErrorCode.internalError, "Internal error: " ++ e.message)

def respond (P : Platform) (out : Outside) (request : JsonRpcRequest) (s : Session) :
    JsonRpcResponse × Session :=
  match dispatch P out request s with
  | .ok result s => (⟨request.id, .ok result⟩, s)
  | .error e s => (⟨request.id, .error (Exn.toError e)⟩, s)

structure Exchange where
  request : JsonRpcRequest
  response : JsonRpcResponse

/-- `exchanges` are those of the present connection. -/
structure Server where
  session : Session
  exchanges : List Exchange

/-- A client connects, once the one before is gone; a line arrives; or the user changes the
database or the settings behind the server's back. -/
inductive Event where
  | connect
  | line (out : Outside) (text : String)
  | environment

def isBlank (text : String) : Bool := text.toList.all isWhiteSpace

def Server.connect (s : Server) : Server := ⟨⟨.fresh, s.session.plugin⟩, []⟩

def Server.answer (P : Platform) (out : Outside) (request : JsonRpcRequest) (s : Server) : Server :=
  let (response, session) := respond P out request s.session
  ⟨session, s.exchanges ++ [⟨request, response⟩]⟩

def Server.receive (P : Platform) (out : Outside) (text : String) (s : Server) : Server :=
  if isBlank text then s
  else
    match parseLine P text with
    | .error _ => s
    | .ok request => s.answer P out request

theorem isBlank_append {s : String} (visible : isBlank s = false) (t : String) :
    isBlank (s ++ t) = false := by
  rw [isBlank] at visible
  simp [isBlank, visible]

theorem Server.receive_request {P : Platform} {out : Outside} {text : String}
    {request : JsonRpcRequest} (s : Server) (visible : isBlank text = false)
    (parsed : parseLine P text = .ok request) : s.receive P out text = s.answer P out request := by
  simp [Server.receive, visible, parsed]

/-- What the environment leaves alone: the handshake's nonce and key, and what has happened. -/
structure Owned (s t : Plugin) : Prop where
  opSignPubKey : t.opSignPubKey = s.opSignPubKey
  nonce : t.nonce = s.nonce
  vaultCalls : t.vaultCalls = s.vaultCalls
  keyUses : t.keyUses = s.keyUses

def step (P : Platform) (s : Server) (event : Event) (t : Server) : Prop :=
  match event with
  | .connect => t = s.connect
  | .line out text => t = s.receive P out text
  | .environment => t.session.context = s.session.context ∧ t.exchanges = s.exchanges ∧
      Owned s.session.plugin t.session.plugin

def Server.start (plugin : Plugin) : Server := ⟨⟨.fresh, plugin⟩, []⟩

/-- The hello passes every check up to and including the nonce, and the fresh nonce is
written. -/
def AcceptsNonce (out : Outside) (s : Session) (params : Option JToken) : Prop :=
  s.context.handshakeComplete = false ∧ out.registry = none ∧ ∃ hello,
    readHello params = .ok hello ∧ matchesNonce s.plugin hello.nonce = true

def DeliversKey (P : Platform) (params : Option JToken) (key : Bytes) : Prop :=
  ∃ obj opSignKeyB64, params = some (.object obj) ∧
    stringField obj "opSignPublicKeyB64" = .ok (some opSignKeyB64) ∧ opSignKeyB64 ≠ "" ∧
      fromBase64String P opSignKeyB64 = .ok key

structure HelloFrame (s t : Plugin) : Prop where
  database : t.database = s.database
  file : t.file = s.file
  culture : t.culture = s.culture
  uvFallbackPrompt : t.uvFallbackPrompt = s.uvFallbackPrompt
  skipPluginSigVerify : t.skipPluginSigVerify = s.skipPluginSigVerify
  vaultCalls : t.vaultCalls = s.vaultCalls
  keyUses : t.keyUses = s.keyUses

/-- How a hello ends: turned down with the connection as it was, accepted with its key, or
turned down for its key once the connection already counts as greeted. -/
inductive HelloOutcome (P : Platform) (out : Outside) (params : Option JToken) (s : Session) :
    EStateM.Result Exn Session JToken → Prop
  | refused (e : Exn) (t : Session) (context : t.context = s.context)
      (key : t.plugin.opSignPubKey = s.plugin.opSignPubKey) (frame : HelloFrame s.plugin t.plugin) :
      HelloOutcome P out params s (.error e t)
  | accepted (t : Session) (key : Bytes) (fresh : AcceptsNonce out s params)
      (delivers : DeliversKey P params key) (cached : t.plugin.opSignPubKey = some key)
      (greeted : t.context.handshakeComplete = true) (frame : HelloFrame s.plugin t.plugin) :
      HelloOutcome P out params s (.ok (.str "ok") t)
  | keyRefused (e : Exn) (t : Session) (fresh : AcceptsNonce out s params)
      (missing : ∀ key, ¬ DeliversKey P params key)
      (key : t.plugin.opSignPubKey = s.plugin.opSignPubKey)
      (greeted : t.context.handshakeComplete = true) (frame : HelloFrame s.plugin t.plugin) :
      HelloOutcome P out params s (.error e t)

theorem HelloFrame.refl (s : Plugin) : HelloFrame s s := ⟨rfl, rfl, rfl, rfl, rfl, rfl, rfl⟩

def renewed (out : Outside) (s : Plugin) : Plugin :=
  { s with nonce := some (hexString out.nonce), registryNonce := some (hexString out.nonce) }

theorem initializeNonce_writes {out : Outside} (writes : out.registry = none) (s : Plugin) :
    initializeNonce out s = .ok () (renewed out s) := by
  simp only [initializeNonce, modify_bind, writes]
  rfl

theorem consumeNonce_matches {out : Outside} (writes : out.registry = none) {s : Plugin}
    {nonce : String} (h : matchesNonce s nonce = true) :
    consumeNonce out nonce s = .ok true (renewed out s) := by
  rw [consumeNonce, get_bind, ite_run, if_pos h, bind_of_ok (initializeNonce_writes writes s)]
  rfl

theorem consumeNonce_outcome (out : Outside) (nonce : String) (s : Plugin) :
    ∃ t, HelloFrame s t ∧ t.opSignPubKey = s.opSignPubKey ∧
      (consumeNonce out nonce s = .ok false t ∨ (∃ e, consumeNonce out nonce s = .error e t) ∨
        matchesNonce s nonce = true ∧ out.registry = none ∧ consumeNonce out nonce s = .ok true t) := by
  cases hmatch : matchesNonce s nonce with
  | false =>
    refine ⟨s, .refl s, rfl, .inl ?_⟩
    simp [consumeNonce, hmatch]
  | true =>
    cases hreg : out.registry with
    | some message =>
      refine ⟨{ s with nonce := some (hexString out.nonce) }, ⟨rfl, rfl, rfl, rfl, rfl, rfl, rfl⟩,
        rfl, .inr (.inl ⟨.other message, ?_⟩)⟩
      simp only [consumeNonce, get_bind, ite_run, hmatch, if_true]
      rw [bind_of_error]
      simp [initializeNonce, hreg]
    | none =>
      exact ⟨renewed out s, ⟨rfl, rfl, rfl, rfl, rfl, rfl, rfl⟩, rfl,
        .inr (.inr ⟨rfl, rfl, consumeNonce_matches hreg hmatch⟩)⟩

theorem onPlugin_ok {α : Type} {x : Vault α} {s : Session} {a : α} {t : Plugin}
    (h : x s.plugin = .ok a t) : onPlugin x s = .ok a ⟨s.context, t⟩ := by
  simp [onPlugin, h]

theorem onPlugin_error {α : Type} {x : Vault α} {s : Session} {e : Exn} {t : Plugin}
    (h : x s.plugin = .error e t) : onPlugin x s = .error e ⟨s.context, t⟩ := by
  simp [onPlugin, h]

theorem paramsObject_ok {params : Option JToken} {obj : JObject} :
    paramsObject params = .ok obj ↔ params = some (.object obj) := by
  unfold paramsObject
  split
  · simp
  · rename_i h
    simp only [reduceCtorEq, false_iff]
    exact fun he => h _ he

theorem readHello_object {params : Option JToken} {hello : Hello}
    (h : readHello params = .ok hello) : params = some (.object hello.obj) := by
  obtain ⟨obj, hobj, h⟩ := except_bind_ok.mp h
  obtain ⟨_, _, h⟩ := except_bind_ok.mp h
  obtain ⟨_, _, h⟩ := except_bind_ok.mp h
  split at h
  · split_ifs at h
    · simp [bind, Except.bind, throw, throwThe, MonadExceptOf.throw] at h
    · obtain rfl := except_pure_ok.mp h
      exact paramsObject_ok.mp hobj
  · simp [except_throw_ok] at h

theorem helloKey_ok {P : Platform} {params : Option JToken} {obj : JObject} {key : Bytes}
    (hobj : params = some (.object obj)) :
    helloKey P obj = .ok key ↔ DeliversKey P params key := by
  subst hobj
  constructor
  · intro h
    obtain ⟨field, hfield, h⟩ := except_bind_ok.mp h
    cases hne : nonEmpty field with
    | none => simp [hne, except_throw_ok] at h
    | some b64 =>
      rw [hne] at h
      obtain ⟨rfl, ne⟩ := nonEmpty_eq_some.mp hne
      exact ⟨obj, b64, rfl, hfield, ne, fromBase64OrInvalid_ok.mp h⟩
  · rintro ⟨_, b64, ⟨⟩, hfield, ne, hkey⟩
    rw [helloKey, except_bind_of_ok hfield, nonEmpty_eq_some.mpr ⟨rfl, ne⟩]
    exact fromBase64OrInvalid_ok.mpr hkey

theorem greet_outcome {P : Platform} {out : Outside} {params : Option JToken} {s : Session}
    {hello : Hello} (fresh : AcceptsNonce out s params) (object : params = some (.object hello.obj))
    {t : Plugin} (key : t.opSignPubKey = s.plugin.opSignPubKey) (frame : HelloFrame s.plugin t) :
    HelloOutcome P out params s (greet P hello ⟨s.context, t⟩) := by
  rw [greet, modify_bind]
  cases hkey : helloKey P hello.obj with
  | error e =>
    rw [bind_of_error (lift_error.mpr ⟨rfl, rfl⟩)]
    refine .keyRefused e _ fresh (fun k hk => ?_) key rfl frame
    rw [(helloKey_ok object).mpr hk] at hkey
    cases hkey
  | ok k =>
    rw [bind_of_ok (lift_ok.mpr ⟨rfl, rfl⟩)]
    exact .accepted _ k fresh ((helloKey_ok object).mp hkey) rfl rfl
      ⟨frame.database, frame.file, frame.culture, frame.uvFallbackPrompt,
        frame.skipPluginSigVerify, frame.vaultCalls, frame.keyUses⟩

theorem handleHello_outcome (P : Platform) (out : Outside) (params : Option JToken) (s : Session) :
    HelloOutcome P out params s (handleHello P out params s) := by
  rw [handleHello, get_bind, ite_run]
  split_ifs with hdone
  · exact .refused _ s rfl rfl (.refl _)
  have first : s.context.handshakeComplete = false := by simpa using hdone
  cases hread : readHello params with
  | error e =>
    rw [bind_of_error (lift_error.mpr ⟨rfl, rfl⟩)]
    exact .refused e s rfl rfl (.refl _)
  | ok hello =>
    rw [bind_of_ok (lift_ok.mpr ⟨rfl, rfl⟩)]
    obtain ⟨t, frame, key, refused | ⟨e, failed⟩ | ⟨hmatch, hreg, accepted⟩⟩ :=
      consumeNonce_outcome out hello.nonce s.plugin
    · rw [bind_of_ok (onPlugin_ok refused)]
      exact .refused _ ⟨s.context, t⟩ rfl key frame
    · rw [bind_of_error (onPlugin_error failed)]
      exact .refused e _ rfl key frame
    · rw [bind_of_ok (onPlugin_ok accepted)]
      exact greet_outcome ⟨first, hreg, hello, hread, hmatch⟩ (readHello_object hread) key frame

/-- A hello that passes the nonce check and delivers its key succeeds. -/
theorem handleHello_accepts {P : Platform} {out : Outside} {params : Option JToken} {s : Session}
    {key : Bytes} (accepts : AcceptsNonce out s params) (delivers : DeliversKey P params key) :
    ∃ t, handleHello P out params s = .ok (.str "ok") t := by
  obtain ⟨first, writes, hello, read, hmatch⟩ := accepts
  have keyRead := (helloKey_ok (readHello_object read)).mpr delivers
  rw [handleHello, get_bind, ite_run, if_neg (by simp [first]),
    bind_of_ok (lift_ok.mpr ⟨read, rfl⟩), bind_of_ok (onPlugin_ok (consumeNonce_matches writes hmatch)),
    ite_run, if_pos rfl, greet, modify_bind, bind_of_ok (lift_ok.mpr ⟨keyRead, rfl⟩)]
  exact ⟨_, rfl⟩

section
variable {P : Platform} {out : Outside} {request : JsonRpcRequest}

theorem dispatch_hello (h : request.method = helloMethod) (session : Session) :
    dispatch P out request session = handleHello P out request.params session := by
  simp [dispatch, h]

theorem dispatch_ungreeted (h : request.method ≠ helloMethod) {session : Session}
    (ungreeted : session.context.handshakeComplete = false) :
    dispatch P out request session =
      .error (.rpc RpcErrorCode.handshakeRequired "Handshake not completed.") session := by
  simp only [dispatch, ite_run, h, if_false, get_bind, ungreeted, Bool.not_false, if_true,
    throw_apply]

theorem dispatch_vault (h : request.method ≠ helloMethod) {session : Session}
    (greeted : session.context.handshakeComplete = true) :
    dispatch P out request session =
      onPlugin (handle P out request.method request.params) session := by
  simp only [dispatch, ite_run, h, if_false, get_bind, greeted, Bool.not_true, Bool.false_eq_true]

/-- What the client is told of a run of the vault. -/
def outcomeOf : EStateM.Result Exn Plugin JToken → Except (ℤ × String) JToken
  | .ok result _ => .ok result
  | .error e _ => .error (Exn.toError e)

theorem respond_outcome (h : request.method ≠ helloMethod) {session : Session}
    (greeted : session.context.handshakeComplete = true) :
    (respond P out request session).1.outcome =
      outcomeOf (handle P out request.method request.params session.plugin) := by
  unfold respond
  rw [dispatch_vault h greeted]
  cases run : handle P out request.method request.params session.plugin with
  | ok result plugin =>
    rw [onPlugin_ok run]
    rfl
  | error e plugin =>
    rw [onPlugin_error run]
    rfl

theorem respond_greeted (h : request.method ≠ helloMethod) {session : Session}
    (greeted : session.context.handshakeComplete = true) :
    (respond P out request session).2.plugin =
      final (handle P out request.method request.params session.plugin) := by
  unfold respond
  rw [dispatch_vault h greeted]
  cases run : handle P out request.method request.params session.plugin with
  | ok result plugin => rw [onPlugin_ok run, final_ok]
  | error e plugin => rw [onPlugin_error run, final_error]

theorem respond_plugin (P : Platform) (out : Outside) (request : JsonRpcRequest) (s : Session) :
    HelloFrame s.plugin (respond P out request s).2.plugin ∨
      (respond P out request s).2.plugin =
        final (handle P out request.method request.params s.plugin) := by
  by_cases hello : request.method = helloMethod
  · left
    have outcome := handleHello_outcome P out request.params s
    unfold respond
    rw [dispatch_hello hello]
    generalize handleHello P out request.params s = r at outcome ⊢
    cases outcome with
    | refused e t _ _ frame => exact frame
    | accepted t key _ _ _ _ frame => exact frame
    | keyRefused e t _ _ _ _ frame => exact frame
  · cases greeted : s.context.handshakeComplete with
    | false =>
      left
      unfold respond
      rw [dispatch_ungreeted hello greeted]
      exact .refl s.plugin
    | true => exact .inr (respond_greeted hello greeted)

end

end KeePassKeyWin.PipeServer
