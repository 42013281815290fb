import KeePassKeyWin.Reconcile
import KeePassKeyWin.SidecarCalls
import KeePassKeyWin.UserVerification

set_option autoImplicit false

/-!
# What a dispatch returns

`dispatch_operation` from the end of the user verification on, with `try_add_credentials`. What
the verification, the RPC, the allocator and Windows come to are parameters.
-/
namespace KeePassKeyWin.DispatchOutcome
open ByteStrings JsonRpc CredentialEncodings SidecarServices SidecarResults SidecarCalls
open UserVerification

def eInvalidarg : Hresult := 0x80070057
def eCredentialExcluded : Hresult := 0x80070216
def eAccessdenied : Hresult := 0x80070005
def eOutofmemory : Hresult := 0x8007000E
def nteNotFound : Hresult := 0x80090011

/-- The part of the request that reaches the plugin: a buffer may be null. -/
structure OperationRequest where
  encodedRequest : Bytes
  cbRequestSignature : ℕ
  pbRequestSignature : Option Bytes

structure OperationResponse where
  cbEncodedResponse : ℕ
  pbEncodedResponse : Option Bytes

structure Verification where
  hr : Hresult
  tier : UvTier
  cbResponse : ℕ
  pbResponse : Option Bytes

def slice (pb : Option Bytes) (cb : ℕ) : Bytes :=
  match pb with
  | some bytes => if 0 < cb then bytes.take cb else []
  | none => []

theorem slice_some (bytes : Bytes) (cb : ℕ) : slice (some bytes) cb = bytes.take cb := by
  cases cb <;> simp [slice]

def rpcParams (req : OperationRequest) (uv : Verification) : JToken := .object [
  ("cbor", .str (toBase64String req.encodedRequest)),
  ("uv", .boolean true),
  ("pbRequestSignatureB64",
    .str (toBase64String (slice req.pbRequestSignature req.cbRequestSignature))),
  ("uvSignatureB64", .str (toBase64String (slice uv.pbResponse uv.cbResponse))),
  ("uvBindingTier", .str uv.tier.ipcStr)]

/-- The table at the end of `dispatch_operation`. -/
def errorHresult : ClientError → Hresult
  | .vaultLocked => eAccessdenied
  | .unsupportedAlgorithm => eInvalidarg
  | .credentialExcluded => eCredentialExcluded
  | .invalidOption => eInvalidarg
  | .noCredentials => nteNotFound
  | _ => eFail

abbrev AddCredentials := AddCredentialsFields → Except String Hresult

abbrev Publication := AddCredentialsFields × Except String Hresult

def tryAddCredentials (B : SidecarBase64) (add : AddCredentials) (method : String) (v : JToken) :
    Option Publication :=
  if method ≠ CtapRequests.makeMethod then none
  else
    match parseAddCredentialsFields B v with
    | .error _ => none
    | .ok fields => some (fields, add fields)

structure Outcome where
  hresult : Hresult
  response : OperationResponse
  publication : Option Publication

/-- `call` is `take_call_with_retry`, and `alloc` says what sizes `CoTaskMemAlloc` has room for. -/
structure Surroundings where
  uv : Except String Verification
  call : String → JToken → Option (Except ClientError JToken)
  alloc : ℕ → Bool

/-- The branch of a result: what does not decode counts as no bytes. -/
def deliver (B : SidecarBase64) (alloc : ℕ → Bool) (add : AddCredentials) (method : String)
    (v : JToken) (response : OperationResponse) : Outcome :=
  match responseBytes B v with
  | none => ⟨eFail, response, none⟩
  | some respBytes =>
    let publication := tryAddCredentials B add method v
    if alloc respBytes.length then
      ⟨0, ⟨respBytes.length % 2 ^ 32, some respBytes⟩, publication⟩
    else ⟨eOutofmemory, response, publication⟩

def dispatchOperation (B : SidecarBase64) (S : Surroundings) (add : AddCredentials)
    (req : OperationRequest) (method : String) (response : OperationResponse) : Outcome :=
  match S.uv with
  | .error _ => ⟨eFail, response, none⟩
  | .ok uv =>
    if uv.hr = eAbort then ⟨uv.hr, response, none⟩
    else if uv.hr.isErr then ⟨uv.hr, response, none⟩
    else
      match S.call method (rpcParams req uv) with
      | none => ⟨eFail, response, none⟩
      | some (.ok v) => deliver B S.alloc add method v response
      | some (.error e) => ⟨errorHresult e, response, none⟩

def OperationResponse.handed (response : OperationResponse) : Option Bytes :=
  response.pbEncodedResponse.map (·.take response.cbEncodedResponse)

def Surroundings.Answers (S : Surroundings) (req : OperationRequest) (method : String)
    (v : JToken) : Prop :=
  ∃ uv, S.uv = .ok uv ∧ uv.hr.isErr = false ∧ S.call method (rpcParams req uv) = some (.ok v)

def Surroundings.Due (S : Surroundings) (B : SidecarBase64) (req : OperationRequest)
    (method : String) (data : Bytes) : Prop :=
  ∃ v text, S.Answers req method v ∧ asStr (index v "cbor") = some text ∧
    B.standard text = some data ∧ S.alloc data.length = true

/-- Success says that the bytes were due and hands them on; failure leaves the response alone;
and neither depends on what Windows makes of the credential. -/
structure Faithful (B : SidecarBase64) (S : Surroundings) (req : OperationRequest)
    (method : String) (response : OperationResponse) : Prop where
  success : ∀ add, (dispatchOperation B S add req method response).hresult = 0 ↔
    ∃ data, S.Due B req method data
  bytes : ∀ add data, S.Due B req method data →
    (dispatchOperation B S add req method response).response.handed = some data
  failure : ∀ add, (∀ data, ¬ S.Due B req method data) →
    (dispatchOperation B S add req method response).hresult.isErr = true ∧
      (dispatchOperation B S add req method response).response = response
  unpublished : ∀ add add',
    (dispatchOperation B S add req method response).hresult =
        (dispatchOperation B S add' req method response).hresult ∧
      (dispatchOperation B S add req method response).response =
        (dispatchOperation B S add' req method response).response

/-- The text of a result decodes, to bytes that a `u32` counts; or there is no room. -/
def Deliverable (B : SidecarBase64) (alloc : ℕ → Bool) (text : String) : Prop :=
  match B.standard text with
  | some data => data.length < 2 ^ 32 ∨ alloc data.length = false
  | none => alloc 0 = false

theorem errorHresult_isErr (e : ClientError) : (errorHresult e).isErr = true := by
  cases e <;> rfl

theorem ne_zero_of_isErr {hr : Hresult} (h : hr.isErr = true) : hr ≠ 0 := by
  rintro rfl
  cases h

section
variable {B : SidecarBase64} {S : Surroundings} {req : OperationRequest} {method : String}
  {v : JToken} {text : String}

theorem Surroundings.Answers.unique {v' : JToken} (h : S.Answers req method v)
    (h' : S.Answers req method v') : v = v' := by
  obtain ⟨uv, verified, _, result⟩ := h
  obtain ⟨uv', verified', _, result'⟩ := h'
  obtain rfl := Except.ok.inj (verified.symm.trans verified')
  exact Except.ok.inj (Option.some.inj (result.symm.trans result'))

theorem due_iff (answers : S.Answers req method v) (cbor : asStr (index v "cbor") = some text)
    (data : Bytes) : S.Due B req method data ↔
      B.standard text = some data ∧ S.alloc data.length = true := by
  constructor
  · rintro ⟨v', text', answers', cbor', decodes, room⟩
    obtain rfl := answers.unique answers'
    obtain rfl := Option.some.inj (cbor.symm.trans cbor')
    exact ⟨decodes, room⟩
  · rintro ⟨decodes, room⟩
    exact ⟨v, text, answers, cbor, decodes, room⟩

variable (add : AddCredentials) (response : OperationResponse)

theorem dispatchOperation_answered (answers : S.Answers req method v) :
    dispatchOperation B S add req method response =
      deliver B S.alloc add method v response := by
  obtain ⟨uv, verified, succeeded, result⟩ := answers
  have going : uv.hr ≠ eAbort := by
    intro aborted
    rw [aborted] at succeeded
    cases succeeded
  simp [dispatchOperation, verified, going, succeeded, result]

theorem dispatchOperation_unanswered (silent : ∀ v, ¬ S.Answers req method v) :
    (dispatchOperation B S add req method response).hresult.isErr = true ∧
      (dispatchOperation B S add req method response).response = response := by
  unfold dispatchOperation
  split
  · exact ⟨rfl, rfl⟩
  · rename_i uv verified
    split_ifs with aborted failed
    · exact ⟨by rw [aborted]; rfl, rfl⟩
    · exact ⟨failed, rfl⟩
    · split
      · exact ⟨rfl, rfl⟩
      · rename_i v result
        exact absurd ⟨uv, verified, Bool.eq_false_iff.mpr failed, result⟩ (silent v)
      · rename_i e result
        exact ⟨errorHresult_isErr e, rfl⟩

theorem deliver_textless (cbor : asStr (index v "cbor") = none) :
    deliver B S.alloc add method v response = ⟨eFail, response, none⟩ := by
  simp [deliver, responseBytes, cbor]

theorem deliver_text (cbor : asStr (index v "cbor") = some text) :
    deliver B S.alloc add method v response =
      if S.alloc ((B.standard text).getD []).length then
        ⟨0, ⟨((B.standard text).getD []).length % 2 ^ 32, some ((B.standard text).getD [])⟩,
          tryAddCredentials B add method v⟩
      else ⟨eOutofmemory, response, tryAddCredentials B add method v⟩ := by
  simp [deliver, responseBytes, cbor]

theorem handed_eq_iff (data : Bytes) :
    OperationResponse.handed ⟨data.length % 2 ^ 32, some data⟩ = some data ↔
      data.length < 2 ^ 32 := by
  constructor
  · intro handed
    have lengths := congrArg List.length (Option.some.inj handed)
    simp only [List.length_take] at lengths
    have := Nat.mod_lt data.length (show 0 < 2 ^ 32 by omega)
    omega
  · intro short
    rw [OperationResponse.handed, Option.map_some, Nat.mod_eq_of_lt short, List.take_length]

theorem dispatchOperation_unpublished (add' : AddCredentials) :
    (dispatchOperation B S add req method response).hresult =
        (dispatchOperation B S add' req method response).hresult ∧
      (dispatchOperation B S add req method response).response =
        (dispatchOperation B S add' req method response).response := by
  by_cases answered : ∃ v, S.Answers req method v
  · obtain ⟨v, answers⟩ := answered
    rw [dispatchOperation_answered add response answers,
      dispatchOperation_answered add' response answers]
    cases cbor : asStr (index v "cbor") with
    | none =>
      rw [deliver_textless add response cbor, deliver_textless add' response cbor]
      exact ⟨rfl, rfl⟩
    | some text =>
      rw [deliver_text add response cbor, deliver_text add' response cbor]
      split_ifs <;> exact ⟨rfl, rfl⟩
  · have silent := not_exists.mp answered
    unfold dispatchOperation
    split
    · exact ⟨rfl, rfl⟩
    · rename_i uv verified
      split_ifs with aborted failed
      · exact ⟨rfl, rfl⟩
      · exact ⟨rfl, rfl⟩
      · split
        · exact ⟨rfl, rfl⟩
        · rename_i v result
          exact absurd ⟨uv, verified, Bool.eq_false_iff.mpr failed, result⟩ (silent v)
        · exact ⟨rfl, rfl⟩

theorem faithful_of_failed
    (failed : ∀ add, (dispatchOperation B S add req method response).hresult.isErr = true ∧
      (dispatchOperation B S add req method response).response = response)
    (undue : ∀ data, ¬ S.Due B req method data) : Faithful B S req method response where
  success add := ⟨fun ok => absurd ok (ne_zero_of_isErr (failed add).1),
    fun ⟨data, due⟩ => absurd due (undue data)⟩
  bytes _ data due := absurd due (undue data)
  failure add _ := failed add
  unpublished add add' := dispatchOperation_unpublished add response add'

theorem faithful_of_textless (answers : S.Answers req method v)
    (cbor : asStr (index v "cbor") = none) : Faithful B S req method response := by
  apply faithful_of_failed
  · intro add
    rw [dispatchOperation_answered add response answers, deliver_textless add response cbor]
    exact ⟨rfl, rfl⟩
  · rintro data ⟨v', text, answers', cbor', _⟩
    obtain rfl := answers.unique answers'
    rw [cbor] at cbor'
    cases cbor'

theorem dispatchOperation_full (answers : S.Answers req method v)
    (cbor : asStr (index v "cbor") = some text)
    (full : S.alloc ((B.standard text).getD []).length = false) :
    (dispatchOperation B S add req method response).hresult.isErr = true ∧
      (dispatchOperation B S add req method response).response = response := by
  rw [dispatchOperation_answered add response answers, deliver_text add response cbor,
    if_neg (Bool.eq_false_iff.mp full)]
  exact ⟨rfl, rfl⟩

theorem dispatchOperation_roomy (answers : S.Answers req method v)
    (cbor : asStr (index v "cbor") = some text)
    (room : S.alloc ((B.standard text).getD []).length = true) :
    (dispatchOperation B S add req method response).hresult = 0 ∧
      (dispatchOperation B S add req method response).response =
        ⟨((B.standard text).getD []).length % 2 ^ 32, some ((B.standard text).getD [])⟩ := by
  rw [dispatchOperation_answered add response answers, deliver_text add response cbor,
    if_pos room]
  exact ⟨rfl, rfl⟩

theorem faithful_of_full (answers : S.Answers req method v)
    (cbor : asStr (index v "cbor") = some text)
    (full : S.alloc ((B.standard text).getD []).length = false) :
    Faithful B S req method response := by
  apply faithful_of_failed
  · exact fun add => dispatchOperation_full add response answers cbor full
  · intro data isDue
    obtain ⟨decodes, room⟩ := (due_iff answers cbor data).mp isDue
    rw [decodes, Option.getD_some, room] at full
    cases full

theorem faithful_of_decoded (answers : S.Answers req method v)
    (cbor : asStr (index v "cbor") = some text) {data : Bytes}
    (decodes : B.standard text = some data) (room : S.alloc data.length = true)
    (short : data.length < 2 ^ 32) : Faithful B S req method response := by
  have sized : S.alloc ((B.standard text).getD []).length = true := by
    rw [decodes]
    exact room
  have isDue : S.Due B req method data := (due_iff answers cbor data).mpr ⟨decodes, room⟩
  constructor
  · intro add
    exact ⟨fun _ => ⟨data, isDue⟩, fun _ => (dispatchOperation_roomy add response answers cbor sized).1⟩
  · intro add data' isDue'
    have same := ((due_iff answers cbor data').mp isDue').1
    rw [(dispatchOperation_roomy add response answers cbor sized).2, same, Option.getD_some, handed_eq_iff]
    obtain rfl := Option.some.inj (decodes.symm.trans same)
    exact short
  · intro add undue
    exact absurd isDue (undue data)
  · exact fun add add' => dispatchOperation_unpublished add response add'

theorem deliverable_of_faithful (faithful : Faithful B S req method response)
    (answers : S.Answers req method v) (cbor : asStr (index v "cbor") = some text) :
    Deliverable B S.alloc text := by
  let add : AddCredentials := fun _ => .ok 0
  have roomy := dispatchOperation_roomy (B := B) add response answers cbor
  unfold Deliverable
  cases decodes : B.standard text with
  | some data =>
    rw [decodes, Option.getD_some] at roomy
    by_cases room : S.alloc data.length = true
    · have isDue : S.Due B req method data := (due_iff answers cbor data).mpr ⟨decodes, room⟩
      have handed := faithful.bytes add data isDue
      rw [(roomy room).2, handed_eq_iff] at handed
      exact .inl handed
    · exact .inr (Bool.eq_false_iff.mpr room)
  | none =>
    rw [decodes, Option.getD_none] at roomy
    -- the dispatch would succeed with no bytes, and none are due
    by_contra room
    have succeeded := (roomy (Bool.eq_true_of_not_eq_false room)).1
    obtain ⟨data, isDue⟩ := (faithful.success add).mp succeeded
    have decoded := ((due_iff answers cbor data).mp isDue).1
    rw [decodes] at decoded
    cases decoded

end

/-- A dispatch is faithful exactly if the text that the plugin answers with decodes, to fewer
than 2^32 bytes, or there is no room for the response. -/
theorem dispatchOperation_faithful_iff (B : SidecarBase64) (S : Surroundings)
    (req : OperationRequest) (method : String) (response : OperationResponse) :
    Faithful B S req method response ↔
      ∀ v text, S.Answers req method v → asStr (index v "cbor") = some text →
        Deliverable B S.alloc text := by
  constructor
  · intro faithful v text answers cbor
    exact deliverable_of_faithful _ faithful answers cbor
  · intro deliverable
    by_cases answered : ∃ v, S.Answers req method v
    · obtain ⟨v, answers⟩ := answered
      cases cbor : asStr (index v "cbor") with
      | none => exact faithful_of_textless _ answers cbor
      | some text =>
        have fits := deliverable v text answers cbor
        unfold Deliverable at fits
        cases decodes : B.standard text with
        | none =>
          rw [decodes] at fits
          exact faithful_of_full _ answers cbor (by rw [decodes]; exact fits)
        | some data =>
          rw [decodes] at fits
          by_cases room : S.alloc data.length = true
          · have short : data.length < 2 ^ 32 := fits.resolve_right (by simp [room])
            exact faithful_of_decoded _ answers cbor decodes room short
          · exact faithful_of_full _ answers cbor
              (by rw [decodes]; exact Bool.eq_false_iff.mpr room)
    · apply faithful_of_failed
      · exact fun add => dispatchOperation_unanswered add response (not_exists.mp answered)
      · rintro data ⟨v, _, answers, _⟩
        exact answered ⟨v, answers⟩

/-- What a dispatch has Windows add is what the model of the reconcile task publishes. -/
theorem publication_eq {B : SidecarBase64} {S : Surroundings} {req : OperationRequest}
    {operation : Reconcile.Operation} {v : JToken} (add : AddCredentials)
    (response : OperationResponse) (answers : S.Answers req operation.method v) :
    (dispatchOperation B S add req operation.method response).publication.map Prod.fst =
      Reconcile.published B operation v := by
  rw [dispatchOperation_answered add response answers]
  cases cbor : responseBytes B v with
  | none => simp [deliver, Reconcile.published, cbor]
  | some respBytes =>
    have offered : (tryAddCredentials B add operation.method v).map Prod.fst =
        Reconcile.published B operation v := by
      cases operation with
      | getAssertion => rfl
      | makeCredential =>
        cases parsed : parseAddCredentialsFields B v <;>
          simp [tryAddCredentials, Reconcile.published, Reconcile.Operation.method, cbor, parsed,
            Except.toOption]
    rw [← offered]
    simp only [deliver, cbor]
    split_ifs <;> rfl

theorem answered_cbor {P : PlatformServices.Platform} {operation : Reconcile.Operation}
    {link : Link} {w : Meeting} {params v : JToken} (greeted : link.Greeted)
    (answered : ((link.handled w operation.method params).response P).outcome = .ok v) :
    ∃ data, asStr (index v "cbor") = some (toBase64String data) := by
  have vault : operation.method ≠ PipeServer.helloMethod := by cases operation <;> decide
  have passed : (⟨link.context, w.plugin⟩ : PipeServer.Session).context.handshakeComplete = true :=
    greeted
  have run : (PipeServer.respond P w.out (link.request operation.method params)
    ⟨link.context, w.plugin⟩).1.outcome = .ok v := answered
  unfold PipeServer.respond at run
  have dispatched : PipeServer.dispatch P w.out (link.request operation.method params)
      ⟨link.context, w.plugin⟩ = PipeServer.onPlugin (VaultHandler.handle P w.out operation.method
        (some params)) ⟨link.context, w.plugin⟩ := PipeServer.dispatch_vault vault passed
  rw [dispatched] at run
  cases handled : VaultHandler.handle P w.out operation.method (some params) w.plugin with
  | error e plugin =>
    rw [PipeServer.onPlugin_error handled] at run
    cases run
  | ok result plugin =>
    rw [PipeServer.onPlugin_ok handled] at run
    obtain rfl := Except.ok.inj run
    rw [VaultOutcomes.handle_of_open (VaultOutcomes.handle_ok_open handled)] at handled
    cases operation with
    | makeCredential =>
      obtain ⟨_, _, _, _, _, _, _, authData, _, _, _, _, _, _, _, rfl⟩ :=
        VaultOutcomes.handleMakeCredentialRaw_ok handled
      exact ⟨_, rfl⟩
    | getAssertion =>
      obtain ⟨_, _, _, _, _, _, _, _, _, asserted⟩ := VaultOutcomes.handleGetAssertionRaw_ok.mp handled
      obtain ⟨_, _, _, _, bytes, _, _, _, _, _, _, _, _, rfl, _⟩ :=
        VaultOutcomes.assertWith_ok.mp asserted
      exact ⟨bytes, rfl⟩

/-- Over its pipe the plugin gives every dispatch a faithful outcome, if nothing of 4 GiB is
allocated. -/
theorem dispatchOperation_faithful {P : PlatformServices.Platform} (B : SidecarBase64)
    {w : SidecarCalls.World} {pipe : Option Link} (greeted : ∀ link, pipe = some link → link.Greeted)
    (uv : Except String Verification) {alloc : ℕ → Bool}
    (bounded : ∀ n, alloc n = true → n < 2 ^ 32) (req : OperationRequest)
    (operation : Reconcile.Operation) (response : OperationResponse) :
    Faithful B ⟨uv, fun method params => (takeCallWithRetry P w pipe method params).result, alloc⟩
      req operation.method response := by
  rw [dispatchOperation_faithful_iff]
  rintro v text ⟨_, _, _, result⟩ cbor
  obtain ⟨link, w', greeted', answered⟩ := takeCallWithRetry_ok greeted result
  obtain ⟨data, plain⟩ := answered_cbor greeted' answered
  obtain rfl := Option.some.inj (cbor.symm.trans plain)
  unfold Deliverable
  rw [B.standard_iff.mpr rfl]
  by_cases room : alloc data.length = true
  · exact .inl (bounded _ room)
  · exact .inr (Bool.eq_false_iff.mpr room)

namespace Sample

def surroundings : Surroundings where
  uv := .ok ⟨0, .v2Stable, 0, none⟩
  call _ _ := some (.ok (.object [("cbor", .str "!")]))
  alloc _ := true

end Sample

/-- Success with no bytes. -/
theorem undecodable_succeeds :
    (dispatchOperation Reconcile.Sample.base64 Sample.surroundings (fun _ => .ok 0)
      ⟨[], 0, none⟩ CtapRequests.getMethod ⟨7, none⟩).hresult = 0 ∧
    (dispatchOperation Reconcile.Sample.base64 Sample.surroundings (fun _ => .ok 0)
      ⟨[], 0, none⟩ CtapRequests.getMethod ⟨7, none⟩).response = ⟨0, some []⟩ ∧
    ¬ Faithful Reconcile.Sample.base64 Sample.surroundings ⟨[], 0, none⟩
      CtapRequests.getMethod ⟨7, none⟩ := by
  have answers : Sample.surroundings.Answers ⟨[], 0, none⟩ CtapRequests.getMethod
      (.object [("cbor", .str "!")]) := ⟨_, rfl, rfl, rfl⟩
  have decodes : Reconcile.Sample.base64.standard "!" = none := by decide +kernel
  have roomy := dispatchOperation_roomy (B := Reconcile.Sample.base64) (fun _ => .ok 0) ⟨7, none⟩
    answers rfl rfl
  rw [decodes] at roomy
  refine ⟨roomy.1, roomy.2, fun faithful => ?_⟩
  have deliverable := deliverable_of_faithful _ faithful answers rfl
  unfold Deliverable at deliverable
  rw [decodes] at deliverable
  cases deliverable

end KeePassKeyWin.DispatchOutcome
