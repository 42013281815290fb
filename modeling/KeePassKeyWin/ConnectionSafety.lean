import KeePassKeyWin.PipeServer

set_option autoImplicit false

/-!
# What a connection must have said before

As long as every hello whose nonce is accepted delivers its key, a connection that counts as
greeted has a hello that was answered with "ok", and the cached key is the one it delivered.
-/
namespace KeePassKeyWin.ConnectionSafety
open ByteStrings JsonRpc OutcomeRules PlatformServices CredentialEncodings PasskeyStore VaultGates
open CtapRequests VaultHandler VaultOutcomes VaultRuns PipeServer TransitionRuns

/-- A hello that was answered with "ok", and the key it delivered. -/
structure AcceptedHello (P : Platform) (x : Exchange) (key : Bytes) : Prop where
  method : x.request.method = helloMethod
  ok : x.response.outcome = .ok (.str "ok")
  key : DeliversKey P x.request.params key

/-- A hello whose nonce is accepted carries a public key in valid base64 that is not empty. -/
def KeyWithHello (P : Platform) (s : Server) (event : Event) : Prop :=
  match event with
  | .line out text => ∀ request, parseLine P text = .ok request → request.method = helloMethod →
      AcceptsNonce out s.session request.params → ∃ key, DeliversKey P request.params key
  | _ => True

def Greeted (P : Platform) (s : Server) : Prop :=
  s.session.context.handshakeComplete = true → ∃ x ∈ s.exchanges, ∃ key, AcceptedHello P x key ∧
    s.session.plugin.opSignPubKey = some key

section
variable {P : Platform} {out : Outside} {s t : Server} {request : JsonRpcRequest}

theorem respond_vault (P : Platform) (out : Outside) (h : request.method ≠ helloMethod)
    (session : Session) :
    (respond P out request session).2.context = session.context ∧
      (respond P out request session).2.plugin.opSignPubKey = session.plugin.opSignPubKey := by
  cases greeted : session.context.handshakeComplete with
  | false => simp [respond, dispatch_ungreeted h greeted]
  | true =>
    have held := handle_held P out request.method request.params session.plugin
    unfold respond
    rw [dispatch_vault h greeted]
    cases run : handle P out request.method request.params session.plugin with
    | ok result plugin =>
      rw [onPlugin_ok run]
      rw [run] at held
      exact ⟨rfl, held.opSignPubKey⟩
    | error e plugin =>
      rw [onPlugin_error run]
      rw [run] at held
      exact ⟨rfl, held.opSignPubKey⟩

theorem greeted_answer (hs : Greeted P s) (h : request.method = helloMethod →
    AcceptsNonce out s.session request.params → ∃ key, DeliversKey P request.params key) :
    Greeted P (s.answer P out request) := by
  have append : ∀ session : Session, session.context = s.session.context →
      session.plugin.opSignPubKey = s.session.plugin.opSignPubKey → ∀ response,
      Greeted P ⟨session, s.exchanges ++ [⟨request, response⟩]⟩ := by
    intro session context key response complete
    obtain ⟨x, hx, k, accepted, cached⟩ := hs (context ▸ complete)
    exact ⟨x, List.mem_append_left _ hx, k, accepted, key.trans cached⟩
  by_cases hello : request.method = helloMethod
  · have outcome := handleHello_outcome P out request.params s.session
    unfold Server.answer respond
    rw [dispatch_hello hello]
    generalize handleHello P out request.params s.session = r at outcome ⊢
    cases outcome with
    | refused e t context key _ => exact append t context key _
    | accepted t key _ delivers cached _ _ =>
      exact fun _ => ⟨_, List.mem_append_right _ (List.mem_singleton.mpr rfl), key,
        ⟨hello, rfl, delivers⟩, cached⟩
    | keyRefused e t fresh missing _ _ _ =>
      obtain ⟨key, delivers⟩ := h hello fresh
      exact absurd delivers (missing key)
  · obtain ⟨context, key⟩ := respond_vault P out hello s.session
    exact append _ context key _

theorem greeted_step {event : Event} (hs : Greeted P s)
    (h : restrict (KeyWithHello P) (step P) s event t) : Greeted P t := by
  obtain ⟨delivers, h⟩ := h
  cases event with
  | connect =>
    obtain rfl : t = s.connect := h
    exact fun complete => absurd complete (by simp [Server.connect, ConnectionContext.fresh])
  | environment =>
    obtain ⟨context, exchanges, owned⟩ := h
    intro complete
    obtain ⟨x, hx, key, accepted, cached⟩ := hs (context ▸ complete)
    exact ⟨x, exchanges ▸ hx, key, accepted, owned.opSignPubKey.trans cached⟩
  | line out text =>
    obtain rfl : t = s.receive P out text := h
    unfold Server.receive
    split_ifs
    · exact hs
    · cases hparse : parseLine P text with
      | error response => exact hs
      | ok request => exact greeted_answer hs (delivers request hparse)

theorem greeted_run {plugin : Plugin} {events : List Event}
    (run : Run (restrict (KeyWithHello P) (step P)) (Server.start plugin) events s) :
    Greeted P s :=
  run.invariant (fun _ _ _ hs h => greeted_step hs h) fun complete => by
    simp [Server.start, ConnectionContext.fresh] at complete

theorem respond_calls (h : request.method ≠ helloMethod) {session : Session}
    (ungreeted : session.context.handshakeComplete = false) :
    (respond P out request session).2 = session := by
  simp [respond, dispatch_ungreeted h ungreeted]

theorem respond_raw_ok {session : Session}
    (raw : request.method = makeMethod ∨ request.method = getMethod)
    (unset : isBypassEnabled session.plugin.skipPluginSigVerify = false)
    (succeeded : (respond P out request session).1.succeeded = true) :
    session.context.handshakeComplete = true ∧ ∃ obj cborBytes,
      Carries P request.params obj cborBytes ∧
        RequestSignatureVerifies P session.plugin.opSignPubKey obj cborBytes := by
  have vault : request.method ≠ helloMethod := by
    rcases raw with h | h <;> rw [h] <;> decide
  cases greeted : session.context.handshakeComplete with
  | false => simp [respond, dispatch_ungreeted vault greeted, JsonRpcResponse.succeeded] at succeeded
  | true =>
    refine ⟨rfl, ?_⟩
    unfold respond at succeeded
    rw [dispatch_vault vault greeted] at succeeded
    cases run : handle P out request.method request.params session.plugin with
    | error e plugin =>
      rw [onPlugin_error run] at succeeded
      simp [JsonRpcResponse.succeeded] at succeeded
    | ok result plugin =>
      have hopen := handle_ok_open run
      rw [handle_of_open hopen] at run
      rcases raw with h | h
      · rw [h, dispatchMethod_make] at run
        obtain ⟨_, cborBytes, _, _, _, _, _, _, hgates, _⟩ := handleMakeCredentialRaw_ok run
        obtain ⟨obj, carries, _, _, verifies⟩ := gates_ok hgates
        exact ⟨obj, cborBytes, carries, verifies unset⟩
      · rw [h, dispatchMethod_get] at run
        obtain ⟨_, cborBytes, _, _, _, hgates, _⟩ := handleGetAssertionRaw_ok.mp run
        obtain ⟨obj, carries, _, _, verifies⟩ := gates_ok hgates
        exact ⟨obj, cborBytes, carries, verifies unset⟩

end

/-- In every run whose hellos deliver their keys: a request other than a hello reaches the
vault handler only after a hello of its connection was answered with "ok", and a raw request
that succeeds with the bypass unset carried a signature over its bytes under the key of such
a hello. -/
theorem connection_authenticated (P : Platform) (plugin : Plugin) (events : List Event)
    (s t : Server) (out : Outside) (text : String) (request : JsonRpcRequest)
    (run : Run (restrict (KeyWithHello P) (step P)) (Server.start plugin) events s)
    (next : step P s (.line out text) t) (parsed : parseLine P text = .ok request)
    (vault : request.method ≠ helloMethod) :
    (t.session.plugin.vaultCalls ≠ s.session.plugin.vaultCalls →
      ∃ x ∈ s.exchanges, ∃ key, AcceptedHello P x key) ∧
    (∀ response, t.exchanges = s.exchanges ++ [⟨request, response⟩] →
      response.succeeded = true → request.method = makeMethod ∨ request.method = getMethod →
      isBypassEnabled s.session.plugin.skipPluginSigVerify = false →
      ∃ x ∈ s.exchanges, ∃ key obj cborBytes, AcceptedHello P x key ∧
        Carries P request.params obj cborBytes ∧
        RequestSignatureVerifies P (some key) obj cborBytes) := by
  have greeted := greeted_run run
  have after : t = s ∨ t = s.answer P out request := by
    obtain rfl : t = s.receive P out text := next
    unfold Server.receive
    rw [parsed]
    split_ifs
    · exact .inl rfl
    · exact .inr rfl
  constructor
  · intro called
    rcases after with rfl | rfl
    · exact absurd rfl called
    · cases complete : s.session.context.handshakeComplete with
      | false =>
        refine absurd ?_ called
        change (respond P out request s.session).2.plugin.vaultCalls = _
        rw [respond_calls vault complete]
      | true =>
        obtain ⟨x, hx, key, accepted, _⟩ := greeted complete
        exact ⟨x, hx, key, accepted⟩
  · intro response answered succeeded raw unset
    rcases after with rfl | rfl
    · simp at answered
    · have same : (respond P out request s.session).1 = response := by
        simpa [Server.answer] using answered
      rw [← same] at succeeded
      obtain ⟨complete, obj, cborBytes, carries, verifies⟩ := respond_raw_ok raw unset succeeded
      obtain ⟨x, hx, key, accepted, cached⟩ := greeted complete
      exact ⟨x, hx, key, obj, cborBytes, accepted, carries, cached ▸ verifies⟩

def helloLine (opSignPublicKeyB64 : String) : String :=
  "\x7b\"jsonrpc\":\"2.0\",\"id\":1,\"method\":\"keepasskeywin.hello\",\"params\":\x7b" ++
  "\"clientPkgFamilyName\":\"KeePassKeyWin.Provider_4fv17arhjxxvg\"," ++
  "\"handshakeNonce\":\"5f0c8e5f3b7d4a1e92c64dd0b18f7a3625e9c0d7481bf6a3e05d92c7b6f41a08\"," ++
  "\"opSignPublicKeyB64\":\"" ++ opSignPublicKeyB64 ++ "\"\x7d\x7d"

def helloRequest (opSignPublicKeyB64 : String) : JsonRpcRequest where
  id := some (.integer 1)
  method := helloMethod
  params := some (.object [("clientPkgFamilyName", .str expectedPkgFamily),
    ("handshakeNonce", .str "5f0c8e5f3b7d4a1e92c64dd0b18f7a3625e9c0d7481bf6a3e05d92c7b6f41a08"),
    ("opSignPublicKeyB64", .str opSignPublicKeyB64)])

def enumerateLine : String :=
  "\x7b\"jsonrpc\":\"2.0\",\"id\":2,\"method\":\"keepasskeywin.enumerateForSync\"\x7d"

def enumerateRequest : JsonRpcRequest := ⟨some (.integer 2), "keepasskeywin.enumerateForSync", none⟩

def samplePlatform (opSignPublicKeyB64 : String) : Platform :=
  Sample.platform [(helloLine opSignPublicKeyB64, helloRequest opSignPublicKeyB64),
    (enumerateLine, enumerateRequest)]

def afterHello (opSignPublicKeyB64 : String) : Server :=
  (Server.start Sample.plugin).connect.receive (samplePlatform opSignPublicKeyB64) Sample.outside
    (helloLine opSignPublicKeyB64)

def enumerated (opSignPublicKeyB64 : String) : Server :=
  (afterHello opSignPublicKeyB64).receive (samplePlatform opSignPublicKeyB64) Sample.outside
    enumerateLine

theorem parse_hello (b64 : String) :
    parseLine (samplePlatform b64) (helloLine b64) = .ok (helloRequest b64) := by
  simp [parseLine, samplePlatform, Sample.platform, List.lookup_cons, helloRequest, helloMethod]

theorem parse_enumerate {b64 : String} (h : (enumerateLine == helloLine b64) = false) :
    parseLine (samplePlatform b64) enumerateLine = .ok enumerateRequest := by
  simp [parseLine, samplePlatform, Sample.platform, List.lookup_cons, h, enumerateRequest]

theorem visible_hello (b64 : String) : isBlank (helloLine b64) = false := by
  unfold helloLine
  refine isBlank_append (isBlank_append (isBlank_append (isBlank_append (isBlank_append ?_ _) _) _)
    _) _
  decide +kernel

theorem afterHello_eq (b64 : String) : afterHello b64 = (Server.start Sample.plugin).connect.answer
    (samplePlatform b64) Sample.outside (helloRequest b64) := by
  unfold afterHello
  exact Server.receive_request _ (visible_hello b64) (parse_hello b64)

theorem enumerated_eq {b64 : String} (h : (enumerateLine == helloLine b64) = false) :
    enumerated b64 = (afterHello b64).answer (samplePlatform b64) Sample.outside enumerateRequest := by
  unfold enumerated
  exact Server.receive_request _ (by decide +kernel) (parse_enumerate h)

def keyB64 : String := "RUNTMQ=="

theorem connection_authenticated_sample :
    ∃ x ∈ (afterHello keyB64).exchanges, ∃ key, AcceptedHello (samplePlatform keyB64) x key := by
  have delivers : DeliversKey (samplePlatform keyB64) (helloRequest keyB64).params
      [0x45, 0x43, 0x53, 0x31] := ⟨_, keyB64, rfl, rfl, by decide, rfl⟩
  have run : Run (restrict (KeyWithHello (samplePlatform keyB64)) (step (samplePlatform keyB64)))
      (Server.start Sample.plugin) [.connect, .line Sample.outside (helloLine keyB64)]
      (afterHello keyB64) := by
    refine .cons ⟨trivial, rfl⟩ (.cons ⟨?_, rfl⟩ (.nil _))
    intro request parsed _ _
    obtain rfl := Except.ok.inj ((parse_hello keyB64).symm.trans parsed)
    exact ⟨_, delivers⟩
  have other : (enumerateLine == helloLine keyB64) = false := by decide +kernel
  have reached : (enumerated keyB64).session.plugin.vaultCalls ≠
      (afterHello keyB64).session.plugin.vaultCalls := by
    rw [enumerated_eq other, afterHello_eq]
    decide +kernel
  exact (connection_authenticated (samplePlatform keyB64) Sample.plugin _ _ (enumerated keyB64)
    Sample.outside enumerateLine enumerateRequest run rfl (parse_enumerate other)
    (by decide)).1 reached

/-- A hello without a key is refused, and the next request reaches the vault all the same. -/
theorem refused_hello_greets :
    ∃ s t events request, Run (step (samplePlatform "")) (Server.start Sample.plugin) events s ∧
      step (samplePlatform "") s (.line Sample.outside enumerateLine) t ∧
      parseLine (samplePlatform "") enumerateLine = .ok request ∧ request.method ≠ helloMethod ∧
      t.session.plugin.vaultCalls ≠ s.session.plugin.vaultCalls ∧
      ¬ ∃ x ∈ s.exchanges, ∃ key, AcceptedHello (samplePlatform "") x key := by
  have other : (enumerateLine == helloLine "") = false := by decide +kernel
  have reached : (enumerated "").session.plugin.vaultCalls ≠
      (afterHello "").session.plugin.vaultCalls := by
    rw [enumerated_eq other, afterHello_eq]
    decide +kernel
  refine ⟨afterHello "", enumerated "", [.connect, .line Sample.outside (helloLine "")],
    enumerateRequest, .cons rfl (.cons rfl (.nil _)), rfl, parse_enumerate other, by decide,
    reached, ?_⟩
  rintro ⟨x, hx, key, accepted⟩
  have refused : (afterHello "").exchanges.all (fun x => !x.response.succeeded) = true := by
    rw [afterHello_eq]
    decide +kernel
  have failed := List.all_eq_true.mp refused x hx
  simp [JsonRpcResponse.succeeded, accepted.ok] at failed

end KeePassKeyWin.ConnectionSafety
