import KeePassKeyWin.PipeServer

set_option autoImplicit false

/-!
# The calls of the sidecar

`PipeClient::call`, `connect_and_handshake` and `take_call_with_retry`, together with the
plugin's end of the pipe. What the user, KeePass and the pipe do meanwhile is a parameter: each
call meets a plugin in the state it is in by then.
-/
namespace KeePassKeyWin.SidecarCalls
open ByteStrings JsonRpc OutcomeRules PlatformServices CredentialEncodings PasskeyStore
open VaultGates PipeServer

inductive ErrorKind where
  | brokenPipe
  | connectionAborted
  | other
  deriving DecidableEq

inductive ClientError where
  | timeout
  | io (kind : ErrorKind)
  | json
  | vaultLocked
  | noCredentials
  | clientUnauthorized
  | unsupportedAlgorithm
  | credentialExcluded
  | invalidOption
  | invalidRequest (message : String)
  | internal (message : String)
  | rpcError (code : ℤ) (message : String)
  deriving DecidableEq

def ClientError.fromRpc (code : ℤ) (message : String) : ClientError :=
  if code = -32010 then .vaultLocked
  else if code = -32020 then .noCredentials
  else if code = -32030 then .unsupportedAlgorithm
  else if code = -32031 then .credentialExcluded
  else if code = -32041 then .invalidOption
  else if code = -32000 ∨ code = -32001 then .clientUnauthorized
  else if code = -32600 ∨ code = -32602 then .invalidRequest message
  else if code = -32603 then .internal message
  else .rpcError code message

inductive RpcErrorClass where
  | stale
  | other
  deriving DecidableEq

def classifyRpcError : ClientError → RpcErrorClass
  | .io .brokenPipe | .io .connectionAborted => .stale
  | _ => .other

/-- What a response that was read in full says. The code of an error is an `i32`. -/
def readResponse (response : JsonRpcResponse) : Except ClientError JToken :=
  match response.outcome with
  | .ok result => .ok result
  | .error (code, message) =>
    if -2 ^ 31 ≤ code ∧ code < 2 ^ 31 then .error (.fromRpc code message) else .error .json

inductive Dialog where
  | noMainWindow
  | invokeThrows (message : String)
  | result (yes : Bool)

def Dialog.ask : Dialog → AskOutcome
  | .noMainWindow => .throws (.other
      "KeePassKeyWin: main window unavailable; cannot present UV-fallback prompt.")
  | .invokeThrows message => .throws (.other message)
  | .result true => .yes
  | .result false => .no

/-- How far a call gets: the request does not reach the plugin; or the plugin handles it, and
its response is read, or cannot be read, or is not JSON. -/
inductive Passage where
  | unsent (kind : ErrorKind)
  | answered
  | unread (kind : ErrorKind)
  | undecodable

/-- What a call meets: a pipe, and a plugin that may have been locked, unlocked or restarted
since the last one. -/
structure Meeting where
  passage : Passage
  outside : Outside
  dialog : Dialog
  plugin : Plugin

def Meeting.out (w : Meeting) : Outside := { w.outside with ask := w.dialog.ask }

/-- A request in the state in which the plugin handles it. -/
structure Handled where
  request : JsonRpcRequest
  out : Outside
  session : Session

def Handled.response (P : Platform) (h : Handled) : JsonRpcResponse :=
  (respond P h.out h.request h.session).1

def Handled.after (P : Platform) (h : Handled) : Session :=
  (respond P h.out h.request h.session).2

structure Link where
  nextId : ℕ
  context : ConnectionContext

def Link.fresh : Link := ⟨1, .fresh⟩

/-- The result of a call, the connection after it, what the plugin handled, and which of it was
answered. -/
structure Returned where
  result : Except ClientError JToken
  link : Link
  handled : List Handled
  answered : Option Handled

def Link.request (link : Link) (method : String) (params : JToken) : JsonRpcRequest :=
  ⟨some (.integer link.nextId), method, some params⟩

def Link.handled (link : Link) (w : Meeting) (method : String) (params : JToken) : Handled :=
  ⟨link.request method params, w.out, ⟨link.context, w.plugin⟩⟩

/-- `next_id` is a `u32`. -/
def Link.call (P : Platform) (w : Meeting) (link : Link) (method : String) (params : JToken) :
    Returned :=
  let nextId := (link.nextId + 1) % 2 ^ 32
  let h := link.handled w method params
  match w.passage with
  | .unsent kind => ⟨.error (.io kind), ⟨nextId, link.context⟩, [], none⟩
  | .answered => ⟨readResponse (h.response P), ⟨nextId, (h.after P).context⟩, [h], some h⟩
  | .unread kind => ⟨.error (.io kind), ⟨nextId, (h.after P).context⟩, [h], none⟩
  | .undecodable => ⟨.error .json, ⟨nextId, (h.after P).context⟩, [h], none⟩

structure Connecting where
  connect : Option ClientError
  nonce : Except String String
  pubKey : Option Bytes
  hello : Meeting

def keePassKeyWinPkgFamily : String := "KeePassKeyWin.Provider_4fv17arhjxxvg"

def helloParams (nonce : String) (keyBytes : Bytes) : JObject := [
  ("clientPkgFamilyName", .str keePassKeyWinPkgFamily),
  ("handshakeNonce", .str nonce),
  ("opSignPublicKeyB64", .str (toBase64String keyBytes))]

structure Connected where
  link : Except ClientError Link
  handled : List Handled

def handshake (P : Platform) (w : Meeting) (nonce : String) (pubKey : Option Bytes) (link : Link) :
    Connected :=
  match pubKey with
  | none => ⟨.error (.invalidRequest
      "op-sign public key unavailable — cannot complete handshake without it"), []⟩
  | some keyBytes =>
    let r := link.call P w helloMethod (.object (helloParams nonce keyBytes))
    match r.result with
    | .error e => ⟨.error e, r.handled⟩
    | .ok _ => ⟨.ok r.link, r.handled⟩

def connectAndHandshake (P : Platform) (w : Connecting) : Connected :=
  match w.connect with
  | some e => ⟨.error e, []⟩
  | none =>
    match w.nonce with
    | .error reason => ⟨.error (.invalidRequest reason), []⟩
    | .ok nonce => handshake P w.hello nonce w.pubKey .fresh

/-- What a call and its retry meet. -/
structure World where
  first : Meeting
  reconnect : Connecting
  second : Meeting

/-- No result where the pipe was missing. -/
structure Dispatched where
  result : Option (Except ClientError JToken)
  pipe : Option Link
  clearsSharedState : Bool
  handled : List Handled
  answered : Option Handled

def isStale (result : Except ClientError JToken) : Bool :=
  match result with
  | .ok _ => false
  | .error e => classifyRpcError e == .stale

def takeCallWithRetry (P : Platform) (w : World) (pipe : Option Link) (method : String)
    (params : JToken) : Dispatched :=
  match pipe with
  | none => ⟨none, none, false, [], none⟩
  | some link =>
    let r1 := link.call P w.first method params
    if isStale r1.result then
      let connected := connectAndHandshake P w.reconnect
      match connected.link with
      | .ok fresh =>
        let r2 := fresh.call P w.second method params
        ⟨some r2.result, some r2.link, false, r1.handled ++ connected.handled ++ r2.handled,
          r2.answered⟩
      | .error e => ⟨some (.error e), none, true, r1.handled ++ connected.handled, none⟩
    else ⟨some r1.result, some r1.link, false, r1.handled, r1.answered⟩

section
variable {P : Platform}

def Link.Greeted (link : Link) : Prop := link.context.handshakeComplete = true

theorem fromRpc_not_stale (code : ℤ) (message : String) :
    classifyRpcError (.fromRpc code message) = .other := by
  unfold ClientError.fromRpc
  split_ifs <;> rfl

theorem readResponse_not_stale (response : JsonRpcResponse) :
    isStale (readResponse response) = false := by
  unfold readResponse
  split
  · rfl
  · rename_i code message _
    split_ifs
    · simp [isStale, fromRpc_not_stale]
    · rfl

theorem respond_context_of_greeted (out : Outside) (request : JsonRpcRequest) {s : Session}
    (greeted : s.context.handshakeComplete = true) : (respond P out request s).2.context = s.context := by
  unfold respond
  by_cases hello : request.method = helloMethod
  · have outcome := handleHello_outcome P out request.params s
    rw [dispatch_hello hello]
    generalize handleHello P out request.params s = r at outcome ⊢
    cases outcome with
    | refused e t context _ _ => exact context
    | accepted t key fresh _ _ _ _ => simp [fresh.1] at greeted
    | keyRefused e t fresh _ _ _ _ => simp [fresh.1] at greeted
  · rw [dispatch_vault hello greeted]
    cases run : VaultHandler.handle P out request.method request.params s.plugin with
    | ok result plugin => rw [onPlugin_ok run]
    | error e plugin => rw [onPlugin_error run]

theorem Link.Greeted.call {link : Link} (greeted : link.Greeted) (w : Meeting) (method : String)
    (params : JToken) : (link.call P w method params).link.Greeted := by
  have kept : ((link.handled w method params).after P).context = link.context :=
    respond_context_of_greeted _ _ greeted
  have after : ((link.handled w method params).after P).context.handshakeComplete = true := by
    rw [kept]
    exact greeted
  unfold Link.call
  cases w.passage with
  | unsent kind => exact greeted
  | answered => exact after
  | unread kind => exact after
  | undecodable => exact after

theorem readResponse_ok {response : JsonRpcResponse} {result : JToken}
    (h : readResponse response = .ok result) : response.outcome = .ok result := by
  unfold readResponse at h
  split at h
  · rename_i outcome
    rw [outcome, Except.ok.inj h]
  · split_ifs at h

theorem call_ok {link : Link} {w : Meeting} {method : String} {params : JToken} {result : JToken}
    (h : (link.call P w method params).result = .ok result) :
    w.passage = .answered ∧
      ((link.handled w method params).response P).outcome = .ok result ∧
      (link.call P w method params).link.context =
        ((link.handled w method params).after P).context := by
  unfold Link.call at h ⊢
  cases hp : w.passage with
  | unsent kind => simp [hp] at h
  | unread kind => simp [hp] at h
  | undecodable => simp [hp] at h
  | answered =>
    rw [hp] at h
    exact ⟨rfl, readResponse_ok h, rfl⟩

theorem respond_of_ok {out : Outside} {request : JsonRpcRequest} {s t : Session} {result : JToken}
    (h : dispatch P out request s = .ok result t) :
    respond P out request s = (⟨request.id, .ok result⟩, t) := by
  simp [respond, h]

theorem respond_hello_ok {out : Outside} {request : JsonRpcRequest} {s : Session} {result : JToken}
    (hello : request.method = helloMethod)
    (h : (respond P out request s).1.outcome = .ok result) :
    AcceptsNonce out s request.params ∧ (∃ key, DeliversKey P request.params key) ∧
      (respond P out request s).2.context.handshakeComplete = true := by
  have outcome := handleHello_outcome P out request.params s
  unfold respond at h ⊢
  rw [dispatch_hello hello] at h ⊢
  generalize handleHello P out request.params s = r at outcome h ⊢
  cases outcome with
  | refused e t _ _ _ => simp at h
  | accepted t key fresh delivers _ greeted _ => exact ⟨fresh, ⟨key, delivers⟩, greeted⟩
  | keyRefused e t _ _ _ _ _ => simp at h

theorem respond_hello {out : Outside} {request : JsonRpcRequest} {s : Session} {key : Bytes}
    (hello : request.method = helloMethod) (accepts : AcceptsNonce out s request.params)
    (delivers : DeliversKey P request.params key) :
    (respond P out request s).1 = ⟨request.id, .ok (.str "ok")⟩ ∧
      (respond P out request s).2.context.handshakeComplete = true ∧
      HelloFrame s.plugin (respond P out request s).2.plugin := by
  obtain ⟨t, ok⟩ := handleHello_accepts accepts delivers
  have outcome := handleHello_outcome P out request.params s
  rw [ok] at outcome
  rw [respond_of_ok ((dispatch_hello hello s).trans ok)]
  cases outcome with
  | accepted _ _ _ _ _ greeted frame => exact ⟨rfl, greeted, frame⟩

/-- What a reconnection needs: the pipe, the nonce and the key, and a plugin that accepts them
over a connection that lasts until it has answered. -/
def Reconnects (P : Platform) (w : Connecting) : Prop :=
  ∃ nonce keyBytes, w.connect = none ∧ w.nonce = .ok nonce ∧ w.pubKey = some keyBytes ∧
    w.hello.passage = .answered ∧
    AcceptsNonce w.hello.out ⟨.fresh, w.hello.plugin⟩ (some (.object (helloParams nonce keyBytes))) ∧
    ∃ key, DeliversKey P (some (.object (helloParams nonce keyBytes))) key

theorem acceptsNonce_helloParams {out : Outside} {s : Session} {nonce : String} {keyBytes : Bytes}
    (first : s.context.handshakeComplete = false) (writes : out.registry = none)
    (held : s.plugin.nonce = some nonce) (hnonce : nonce ≠ "") :
    AcceptsNonce out s (some (.object (helloParams nonce keyBytes))) := by
  have nonempty : nonEmpty (some nonce) = some nonce := nonEmpty_eq_some.mpr ⟨rfl, hnonce⟩
  have read : readHello (some (.object (helloParams nonce keyBytes))) =
      .ok ⟨helloParams nonce keyBytes, expectedPkgFamily, nonce⟩ := by
    have object : paramsObject (some (.object (helloParams nonce keyBytes))) =
        .ok (helloParams nonce keyBytes) := rfl
    have package : stringField (helloParams nonce keyBytes) "clientPkgFamilyName" =
        .ok (some keePassKeyWinPkgFamily) := rfl
    have field : stringField (helloParams nonce keyBytes) "handshakeNonce" = .ok (some nonce) := rfl
    rw [readHello, except_bind_of_ok object, except_bind_of_ok package, except_bind_of_ok field,
      nonempty]
    rfl
  have agreed : matchesNonce s.plugin nonce = true := by
    rw [matchesNonce, held]
    exact equalsIgnoreCase_refl nonce
  exact ⟨first, writes, _, read, agreed⟩

theorem delivers_helloParams (P : Platform) (nonce : String) {keyBytes : Bytes}
    (hkey : keyBytes ≠ []) : DeliversKey P (some (.object (helloParams nonce keyBytes))) keyBytes :=
  ⟨_, toBase64String keyBytes, rfl, rfl, toBase64String_ne_empty hkey,
    fromBase64String_toBase64String P keyBytes⟩

/-- A plugin that still holds the nonce in the registry accepts a reconnection. -/
theorem reconnects_of_nonce {w : Connecting} {nonce : String} {keyBytes : Bytes}
    (connect : w.connect = none) (issued : w.nonce = .ok nonce) (pubKey : w.pubKey = some keyBytes)
    (passage : w.hello.passage = .answered) (writes : w.hello.out.registry = none)
    (held : w.hello.plugin.nonce = some nonce) (hnonce : nonce ≠ "") (hkey : keyBytes ≠ []) :
    Reconnects P w :=
  ⟨nonce, keyBytes, connect, issued, pubKey, passage,
    acceptsNonce_helloParams rfl writes held hnonce, keyBytes, delivers_helloParams P nonce hkey⟩

theorem connectAndHandshake_ok {w : Connecting} {link : Link}
    (h : (connectAndHandshake P w).link = .ok link) : Reconnects P w ∧ link.Greeted := by
  unfold connectAndHandshake at h
  split at h
  · simp at h
  · rename_i connect
    split at h
    · simp at h
    · rename_i nonce hnonce
      unfold handshake at h
      split at h
      · simp at h
      · rename_i keyBytes hkey
        dsimp only at h
        split at h
        · simp at h
        · rename_i result hresult
          obtain ⟨passage, outcome, context⟩ := call_ok hresult
          obtain ⟨accepts, delivers, greeted⟩ := respond_hello_ok rfl outcome
          obtain rfl := Except.ok.inj h
          refine ⟨⟨nonce, keyBytes, connect, hnonce, hkey, passage, accepts, delivers⟩, ?_⟩
          unfold Link.Greeted
          rw [context]
          exact greeted

theorem reconnects_iff {w : Connecting} :
    Reconnects P w ↔ ∃ link, (connectAndHandshake P w).link = .ok link := by
  refine ⟨?_, fun ⟨link, h⟩ => (connectAndHandshake_ok h).1⟩
  rintro ⟨nonce, keyBytes, connect, hnonce, hkey, passage, accepts, key, delivers⟩
  have answer : ((Link.fresh.handled w.hello helloMethod
      (.object (helloParams nonce keyBytes))).response P).outcome = .ok (.str "ok") :=
    congrArg JsonRpcResponse.outcome (respond_hello rfl accepts delivers).1
  have read : (Link.fresh.call P w.hello helloMethod
      (.object (helloParams nonce keyBytes))).result = .ok (.str "ok") := by
    simp only [Link.call, passage, readResponse, answer]
  unfold connectAndHandshake
  simp only [connect, hnonce, hkey, handshake, read]
  exact ⟨_, rfl⟩

/-- A result is the answer to a request over a connection that has passed the handshake. -/
theorem takeCallWithRetry_ok {w : World} {pipe : Option Link} {method : String}
    {params : JToken} {result : JToken} (greeted : ∀ link, pipe = some link → link.Greeted)
    (h : (takeCallWithRetry P w pipe method params).result = some (.ok result)) :
    ∃ link w', link.Greeted ∧
      ((Link.handled link w' method params).response P).outcome = .ok result := by
  unfold takeCallWithRetry at h
  split at h
  · cases h
  · rename_i link
    dsimp only at h
    split_ifs at h with stale
    · split at h
      · rename_i fresh connected
        exact ⟨fresh, w.second, (connectAndHandshake_ok connected).2,
          (call_ok (Option.some.inj h)).2.1⟩
      · cases h
    · exact ⟨link, w.first, greeted link rfl, (call_ok (Option.some.inj h)).2.1⟩

theorem takeCallWithRetry_greeted {w : World} {pipe : Option Link} {method : String}
    {params : JToken} (greeted : ∀ link, pipe = some link → link.Greeted) (link : Link)
    (h : (takeCallWithRetry P w pipe method params).pipe = some link) : link.Greeted := by
  unfold takeCallWithRetry at h
  split at h
  · cases h
  · rename_i old
    have first := (greeted old rfl).call (P := P) w.first method params
    dsimp only at h
    split_ifs at h with stale
    · split at h
      · rename_i fresh hfresh
        obtain rfl := Option.some.inj h
        exact (connectAndHandshake_ok hfresh).2.call w.second method params
      · cases h
    · obtain rfl := Option.some.inj h
      exact first

end

end KeePassKeyWin.SidecarCalls
