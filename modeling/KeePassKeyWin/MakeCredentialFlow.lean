import KeePassKeyWin.ResultFormats
import KeePassKeyWin.SidecarCalls
import KeePassKeyWin.TextStrings

set_option autoImplicit false

/-!
# The registration that the command line tries

`make-credential` makes a credential, lists those of its relying party, signs with it and deletes
it again, over one connection. The list is never empty then, and the sidecar cannot read any but
an empty one.
-/
namespace KeePassKeyWin.MakeCredentialFlow
open ByteStrings JsonRpc OutcomeRules PlatformServices CredentialEncodings PasskeyStore PipeServer
open VaultHandler VaultOutcomes RequestEffects SidecarCalls SidecarServices SidecarResults
open ResultFormats (Added addAndAnswer_ok standard_toBase64String listed_refused)

def flag (name : String) : List String → Option String
  | a :: b :: rest => if a = name then some b else flag name (b :: rest)
  | _ => none

inductive Report where
  | handshakeOk
  | created (credentialId : String)
  | rpIdHash (matched : Bool)
  | listed (count : ℕ)
  | signed (length : ℕ)
  | deleted (deleted : Bool)
  | passed
  deriving DecidableEq

inductive Failure where
  | nonceRequired
  | connect (e : ClientError)
  | handshake (e : ClientError)
  | call (method : String) (e : ClientError)

/-- What one run meets: the registry, the pipe, the key store, and the plugin at each call. -/
structure Surroundings where
  registryNonce : Option String
  connect : Option ClientError
  pubKey : Option Bytes
  hello : Meeting
  create : Meeting
  list : Meeting
  sign : Meeting
  delete : Meeting

structure Progress where
  link : Link
  report : List Report
  handled : List Handled

def Progress.start : Progress := ⟨.fresh, [], []⟩

abbrev Cmd := EStateM Failure Progress

def say (line : Report) : Cmd Unit := modify fun p => { p with report := p.report ++ [line] }

/-- `call::<R>`: a result that is no `R` is a JSON error. -/
def callAs {α : Type} (P : Platform) (fromValue : JToken → Option α) (w : Meeting)
    (method : String) (params : JToken) : Cmd α := fun p =>
  let r := p.link.call P w method params
  let p := { p with link := r.link, handled := p.handled ++ r.handled }
  match r.result with
  | .error e => .error (.call method e) p
  | .ok v =>
    match fromValue v with
    | some a => .ok a p
    | none => .error (.call method .json) p

def shakeHands (P : Platform) (w : Surroundings) (nonce : String) : Cmd Unit := fun p =>
  let r := SidecarCalls.handshake P w.hello nonce w.pubKey p.link
  match r.link with
  | .error e => .error (.handshake e) { p with handled := p.handled ++ r.handled }
  | .ok link => .ok () { p with link, handled := p.handled ++ r.handled }

def rpIdOf (args : List String) : String := (flag "--rp-id" args).getD "example.com"

def createParams (args : List String) : JObject :=
  let rpId := rpIdOf args
  let user := (flag "--user" args).getD "user@example.com"
  [("rpId", .str rpId), ("rpName", .str rpId),
    ("userHandle", .str (toBase64String (utf8 "test-user-handle"))), ("userName", .str user),
    ("userDisplayName", .str user)]

def nonceOf (args : List String) (w : Surroundings) : Except Failure String :=
  match (flag "--nonce" args).or w.registryNonce with
  | some nonce => .ok nonce
  | none => .error .nonceRequired

def connected (w : Surroundings) : Except Failure Unit :=
  match w.connect with
  | some e => .error (.connect e)
  | none => .ok ()

/-- The command up to the handshake. -/
def greet (P : Platform) (args : List String) (w : Surroundings) : Cmd Unit := do
  let nonce ← lift (nonceOf args w)
  lift (connected w)
  shakeHands P w nonce
  say .handshakeOk

def makeOne (P : Platform) (B : SidecarBase64) (args : List String) (w : Surroundings) :
    Cmd CreatePasskeyResult := do
  let result ← callAs P CreatePasskeyResult.fromValue w.create "keepasskeywin.createPasskey"
    (.object (createParams args))
  say (.created result.credentialId)
  let authData := (B.standard result.authData).getD []
  if 32 ≤ authData.length then
    say (.rpIdHash (authData.take 32 == P.sha256 (utf8 (rpIdOf args))))
  return result

def tryOut (P : Platform) (B : SidecarBase64) (args : List String) (w : Surroundings)
    (result : CreatePasskeyResult) : Cmd Unit := do
  let creds ← callAs P (vecFromValue CredentialInfo.fromValue) w.list
    "keepasskeywin.listCredentials" (.object [("rpId", .str (rpIdOf args))])
  say (.listed creds.length)
  let clientDataHash := P.sha256
    (utf8 "\x7b\"type\":\"webauthn.get\",\"challenge\":\"dGVzdA\"\x7d")
  let sig ← callAs P SignAssertionResult.fromValue w.sign "keepasskeywin.signAssertion"
    (.object [("credentialId", .str result.credentialId),
      ("authData", .str (toBase64String (List.replicate 37 0))),
      ("clientDataHash", .str (toBase64String clientDataHash))])
  say (.signed ((B.standard sig.signature).getD []).length)
  let del ← callAs P DeleteCredentialResult.fromValue w.delete "keepasskeywin.deleteCredential"
    (.object [("credentialId", .str result.credentialId)])
  say (.deleted del.deleted)
  say .passed

def cmdMakeCredential (P : Platform) (B : SidecarBase64) (args : List String) (w : Surroundings) :
    Cmd Unit := do
  greet P args w
  let result ← makeOne P B args w
  tryOut P B args w result

section
variable {P : Platform} {B : SidecarBase64} {args : List String} {w : Surroundings}
variable {m : Meeting} {method : String} {params : JToken} {p p' : Progress}

theorem vault_of_call {link : Link} {v : JToken} (greeted : link.Greeted)
    (other : method ≠ helloMethod) (answered : (link.call P m method params).result = .ok v) :
    ∃ s, handle P m.out method (some params) m.plugin = .ok v s := by
  have outcome := (call_ok answered).2.1
  change (respond P m.out (link.request method params) ⟨link.context, m.plugin⟩).1.outcome = _
    at outcome
  rw [respond_outcome other (show (Session.mk link.context m.plugin).context.handshakeComplete = true
    from greeted)] at outcome
  change outcomeOf (handle P m.out method (some params) m.plugin) = .ok v at outcome
  cases run : handle P m.out method (some params) m.plugin with
  | ok v' s =>
    rw [run] at outcome
    exact ⟨s, congrArg (fun v => EStateM.Result.ok v s) (Except.ok.inj outcome)⟩
  | error e s =>
    rw [run] at outcome
    cases outcome

theorem say_bind {α : Type} (line : Report) (f : Unit → Cmd α) (p : Progress) :
    (say line >>= f) p = f () { p with report := p.report ++ [line] } := rfl

def Progress.called (P : Platform) (m : Meeting) (method : String) (params : JToken)
    (p : Progress) : Progress :=
  { p with
    link := (p.link.call P m method params).link
    handled := p.handled ++ (p.link.call P m method params).handled }

theorem callAs_of_ok {α : Type} {fromValue : JToken → Option α} {v : JToken} {a : α}
    (answered : (p.link.call P m method params).result = .ok v) (read : fromValue v = some a) :
    callAs P fromValue m method params p = .ok a (p.called P m method params) := by
  simp only [callAs, answered, read]
  rfl

theorem callAs_of_error {α : Type} (fromValue : JToken → Option α) {e : ClientError}
    (refused : (p.link.call P m method params).result = .error e) :
    callAs P fromValue m method params p =
      .error (.call method e) (p.called P m method params) := by
  simp only [callAs, refused]
  rfl

theorem callAs_report {α : Type} (P : Platform) (fromValue : JToken → Option α) (m : Meeting)
    (method : String) (params : JToken) (p : Progress) :
    (final (callAs P fromValue m method params p)).report = p.report := by
  dsimp only [callAs]
  cases (p.link.call P m method params).result with
  | error e => rfl
  | ok v =>
    dsimp only
    cases fromValue v <;> rfl

def Only (methods : List String) (p : Progress) : Prop :=
  ∀ h ∈ p.handled, h.request.method ∈ methods

theorem call_methods {link : Link} {h : Handled} (here : h ∈ (link.call P m method params).handled) :
    h.request.method = method := by
  unfold Link.call at here
  cases passage : m.passage <;> simp only [passage] at here
  · cases here
  all_goals
    rw [List.mem_singleton.mp here]
    rfl

theorem only_callAs {α : Type} {methods : List String} (fromValue : JToken → Option α)
    (h : Only methods p) (known : method ∈ methods) :
    Only methods (final (callAs P fromValue m method params p)) := by
  have grown : ∀ h' ∈ p.handled ++ (p.link.call P m method params).handled,
      h'.request.method ∈ methods := by
    intro h' here
    rcases List.mem_append.mp here with old | new
    · exact h h' old
    · exact (call_methods new).symm ▸ known
  dsimp only [callAs]
  cases (p.link.call P m method params).result with
  | error e => exact grown
  | ok v =>
    dsimp only
    cases fromValue v <;> exact grown

theorem greeted_of_shakeHands {nonce : String} {u : Unit}
    (h : shakeHands P w nonce p = .ok u p') : p'.link.Greeted ∧ p'.report = p.report := by
  dsimp only [shakeHands, SidecarCalls.handshake] at h
  cases key : w.pubKey with
  | none =>
    simp only [key] at h
    cases h
  | some keyBytes =>
    simp only [key] at h
    cases result : (p.link.call P w.hello helloMethod (.object (helloParams nonce keyBytes))).result with
    | error e =>
      simp only [result] at h
      cases h
    | ok v =>
      simp only [result] at h
      cases h
      obtain ⟨_, answered, context⟩ := call_ok result
      refine ⟨?_, rfl⟩
      rw [Link.Greeted, context]
      exact (respond_hello_ok rfl answered).2.2

theorem only_shakeHands {nonce : String} {methods : List String} (h : Only methods p)
    (known : helloMethod ∈ methods) : Only methods (final (shakeHands P w nonce p)) := by
  dsimp only [shakeHands, SidecarCalls.handshake]
  cases w.pubKey with
  | none =>
    intro h' here
    exact h h' (by simpa using here)
  | some keyBytes =>
    have grown : ∀ h' ∈ p.handled ++
        (p.link.call P w.hello helloMethod (.object (helloParams nonce keyBytes))).handled,
        h'.request.method ∈ methods := by
      intro h' here
      rcases List.mem_append.mp here with old | new
      · exact h h' old
      · exact (call_methods new).symm ▸ known
    dsimp only
    cases (p.link.call P w.hello helloMethod (.object (helloParams nonce keyBytes))).result with
    | error e => exact grown
    | ok v => exact grown

def Stands (id rpId : String) (entries : List PwEntry) : Prop :=
  ∃ e ∈ entries, e.credentialId = some id ∧ hasRpId rpId e = true

theorem hasRpId_recordToEntry (P : Platform) (culture : NumberFormat.NumberFormatInfo)
    (r : PasskeyRecord) : hasRpId r.rpId (recordToEntry P culture r) = true := by
  have other : (keyRpId == keyCredId) = false := by decide
  simp [hasRpId, recordToEntry, List.lookup_cons, other]

theorem creates_of_handle {v : JToken} {s : Plugin} {params : Option JToken}
    (h : handle P m.out "keepasskeywin.createPasskey" params m.plugin = .ok v s) : ∃ record,
    Creates P m.out params m.plugin.culture record v ∧ Added P m.plugin s record := by
  have hopen := handle_ok_open h
  rw [handle_of_open hopen] at h
  change createPasskey P m.out params (Plugin.called m.plugin) = _ at h
  rw [createPasskey_eq] at h
  obtain ⟨⟨record, answer⟩, _, run, h⟩ := bind_ok.mp h
  obtain ⟨ready, rfl⟩ := lift_ok.mp run
  obtain ⟨added, rfl⟩ := addAndAnswer_ok (s := Plugin.called m.plugin) hopen h
  exact ⟨record, creates_of_prepareCreate ready, added⟩

theorem gives_createParams {rpId : String}
    (h : Gives (some (.object (createParams args))) "rpId" rpId) : rpId = rpIdOf args := by
  obtain ⟨obj, object, field⟩ := h
  obtain rfl := JToken.object.inj (Option.some.inj object)
  exact (Option.some.inj (Except.ok.inj field)).symm

theorem rpIdHash_of_build {rpId : String} {id coseKey authData : Bytes} {uv : Bool}
    (built : AuthDataBuilder.build P rpId id coseKey uv = .ok authData) :
    32 ≤ authData.length ∧ authData.take 32 = P.sha256 (utf8 rpId) := by
  have hash := TextStrings.build_take built
  have length := congrArg List.length hash
  rw [List.length_take, P.sha256_length] at length
  exact ⟨by omega, hash⟩

/-- An answer is one that the sidecar reads, the credential stands in the vault, and its
authenticator data begins with the hash of its relying party. -/
theorem made_of_handle {v : JToken} {s : Plugin}
    (h : handle P m.out "keepasskeywin.createPasskey" (some (.object (createParams args))) m.plugin =
      .ok v s) : ∃ result, CreatePasskeyResult.fromValue v = some result ∧
      Stands result.credentialId (rpIdOf args) s.entries ∧
      ∃ authData, B.standard result.authData = some authData ∧ 32 ≤ authData.length ∧
        authData.take 32 = P.sha256 (utf8 (rpIdOf args)) := by
  obtain ⟨record, creates, added⟩ := creates_of_handle h
  have party := gives_createParams creates.rpId
  obtain ⟨authData, built, rfl⟩ := creates.answer
  rw [party] at built
  refine ⟨_, rfl, ⟨recordToEntry P m.plugin.culture record, ?_, rfl, ?_⟩, authData,
    standard_toBase64String authData, rpIdHash_of_build built⟩
  · rw [added]
    exact List.mem_append_right _ List.mem_cons_self
  · rw [← party]
    exact hasRpId_recordToEntry P _ record

theorem list_unread {v : JToken} {s : Plugin} {id : String}
    (h : handle P m.out "keepasskeywin.listCredentials"
      (some (.object [("rpId", .str (rpIdOf args))])) m.plugin = .ok v s)
    (stands : Stands id (rpIdOf args) m.plugin.entries) :
    vecFromValue CredentialInfo.fromValue v = none := by
  rw [handle_of_open (handle_ok_open h)] at h
  change listCredentials P _ (Plugin.called m.plugin) = _ at h
  obtain ⟨obj, _, run, h⟩ := bind_ok.mp h
  obtain ⟨object, rfl⟩ := lift_ok.mp run
  obtain rfl := JToken.object.inj (Option.some.inj (requireObject_ok.mp object))
  obtain ⟨rpId, _, run, h⟩ := bind_ok.mp h
  obtain ⟨rp, rfl⟩ := lift_ok.mp run
  obtain rfl : rpIdOf args = rpId :=
    Option.some.inj (Except.ok.inj (requireString_ok.mp rp).1)
  rw [get_bind] at h
  obtain ⟨rfl, rfl⟩ := pure_ok.mp h
  obtain ⟨e, here, _, own⟩ := stands
  have some : (Plugin.called m.plugin).findByRpId P (rpIdOf args) ≠ [] := by
    intro none
    have mem : entryToRecord P (Plugin.called m.plugin).culture e ∈
        (Plugin.called m.plugin).findByRpId P (rpIdOf args) :=
      List.mem_map.mpr ⟨e, List.mem_filter.mpr ⟨here, own⟩, rfl⟩
    rw [none] at mem
    cases mem
  obtain ⟨record, rest, found⟩ := List.exists_cons_of_ne_nil some
  simp [found, vecFromValue, listed_refused]

theorem greet_ok {u : Unit} (h : greet P args w .start = .ok u p) :
    p.link.Greeted ∧ p.report = [.handshakeOk] := by
  obtain ⟨nonce, _, run, h⟩ := bind_ok.mp h
  obtain ⟨_, rfl⟩ := lift_ok.mp run
  obtain ⟨_, _, run, h⟩ := bind_ok.mp h
  obtain ⟨_, rfl⟩ := lift_ok.mp run
  obtain ⟨_, p₁, shaken, h⟩ := bind_ok.mp h
  obtain ⟨greeted, silent⟩ := greeted_of_shakeHands shaken
  cases h
  exact ⟨greeted, congrArg (· ++ [.handshakeOk]) silent⟩

theorem shakeHands_report (nonce : String) : (final (shakeHands P w nonce p)).report = p.report := by
  dsimp only [shakeHands]
  cases (SidecarCalls.handshake P w.hello nonce w.pubKey p.link).link <;> rfl

theorem greet_error {e : Failure} (h : greet P args w .start = .error e p) : p.report = [] := by
  rcases bind_error.mp h with stopped | ⟨nonce, _, run, h⟩
  · exact congrArg Progress.report (lift_error.mp stopped).2.symm
  obtain ⟨_, rfl⟩ := lift_ok.mp run
  rcases bind_error.mp h with stopped | ⟨_, _, run, h⟩
  · exact congrArg Progress.report (lift_error.mp stopped).2.symm
  obtain ⟨_, rfl⟩ := lift_ok.mp run
  rcases bind_error.mp h with stopped | ⟨_, p₁, shaken, h⟩
  · have silent := shakeHands_report (P := P) (w := w) (p := .start) nonce
    rw [stopped] at silent
    exact silent
  · cases h

theorem only_start (methods : List String) : Only methods .start :=
  fun _ here => absurd here List.not_mem_nil

theorem only_greet (methods : List String) (hello : helloMethod ∈ methods) :
    Only methods (final (greet P args w .start)) := by
  have start := only_start methods
  refine final_lift_bind (Q := Only methods) start fun nonce _ => ?_
  refine final_lift_bind (Q := Only methods) start fun _ _ => ?_
  exact final_bind_keeps (Q := Only methods) (only_shakeHands start hello) fun _ p h => h

theorem only_makeOne {methods : List String} (h : Only methods p)
    (create : "keepasskeywin.createPasskey" ∈ methods) :
    Only methods (final (makeOne P B args w p)) := by
  refine final_bind_keeps (Q := Only methods) (only_callAs _ h create) fun made p h => ?_
  refine final_bind_keeps (Q := Only methods) h fun _ p h => ?_
  simp only
  split_ifs
  · exact final_bind_keeps (Q := Only methods) h fun _ p h => h
  · exact h

theorem makeOne_of_answered {v : JToken} (greeted : p.link.Greeted)
    (answered : (p.link.call P w.create "keepasskeywin.createPasskey"
      (.object (createParams args))).result = .ok v) :
    ∃ result p', makeOne P B args w p = .ok result p' ∧ p'.link.Greeted ∧
      p'.report = p.report ++ [.created result.credentialId, .rpIdHash true] ∧
      Stands result.credentialId (rpIdOf args) (final (handle P w.create.out
        "keepasskeywin.createPasskey" (some (.object (createParams args))) w.create.plugin)).entries := by
  obtain ⟨s, handled⟩ := vault_of_call greeted (by decide) answered
  obtain ⟨result, read, stands, authData, decoded, long, hash⟩ := made_of_handle (B := B) handled
  let p' := p.called P w.create "keepasskeywin.createPasskey" (.object (createParams args))
  refine ⟨result, { p' with report := p'.report ++ [.created result.credentialId] ++
    [.rpIdHash true] }, ?_, Link.Greeted.call greeted _ _ _, List.append_assoc _ _ _, ?_⟩
  · rw [makeOne, bind_of_ok (callAs_of_ok answered read), say_bind]
    simp only [decoded, Option.getD_some, long, if_true, hash, beq_self_eq_true]
    rfl
  · rw [handled]
    exact stands

/-- While the credential stands, the list ends the run. -/
theorem tryOut_stuck (P : Platform) (B : SidecarBase64) (args : List String) (w : Surroundings)
    (result : CreatePasskeyResult) {id : String} (greeted : p.link.Greeted)
    (stands : w.list.plugin.isVaultOpen = true → Stands id (rpIdOf args) w.list.plugin.entries) :
    ∃ e p', tryOut P B args w result p = .error (.call "keepasskeywin.listCredentials" e) p' ∧
      p'.report = p.report ∧
      ∀ methods, Only methods p → "keepasskeywin.listCredentials" ∈ methods → Only methods p' := by
  let params : JToken := .object [("rpId", .str (rpIdOf args))]
  have silent := callAs_report P (vecFromValue CredentialInfo.fromValue) w.list
    "keepasskeywin.listCredentials" params p
  have only : ∀ methods, Only methods p → "keepasskeywin.listCredentials" ∈ methods →
      Only methods (final (callAs P (vecFromValue CredentialInfo.fromValue) w.list
        "keepasskeywin.listCredentials" params p)) :=
    fun _ h known => only_callAs _ h known
  have failed : ∃ e p', callAs P (vecFromValue CredentialInfo.fromValue) w.list
      "keepasskeywin.listCredentials" params p =
        .error (.call "keepasskeywin.listCredentials" e) p' := by
    cases result : (p.link.call P w.list "keepasskeywin.listCredentials" params).result with
    | error e => exact ⟨_, _, callAs_of_error _ result⟩
    | ok v =>
      obtain ⟨s, handled⟩ := vault_of_call greeted (by decide) result
      have unread := list_unread handled (stands (handle_ok_open handled))
      simp only [callAs, result, unread]
      exact ⟨_, _, rfl⟩
  obtain ⟨e, p', stopped⟩ := failed
  rw [stopped] at silent only
  exact ⟨e, p', bind_of_error stopped, silent, only⟩

/-- KeePass may lock and unlock the vault before the list is asked for, no more. -/
def Undisturbed (P : Platform) (args : List String) (w : Surroundings) : Prop :=
  w.list.plugin.isVaultOpen = true → w.list.plugin.entries =
    (final (handle P w.create.out "keepasskeywin.createPasskey" (some (.object (createParams args)))
      w.create.plugin)).entries

/-- What a run that made a credential has printed, and where the credential is. -/
structure LeftBehind (P : Platform) (args : List String) (w : Surroundings) (id : String)
    (e : Failure) (p : Progress) : Prop where
  failure : ∃ cause, e = .call "keepasskeywin.listCredentials" cause
  report : p.report = [.handshakeOk, .created id, .rpIdHash true]
  stands : Stands id (rpIdOf args) (final (handle P w.create.out "keepasskeywin.createPasskey"
    (some (.object (createParams args))) w.create.plugin)).entries

/-- The vault has no answer to the request for a credential. -/
def Unanswered (P : Platform) (args : List String) (w : Surroundings) (e : Failure) : Prop :=
  ∃ link cause, Link.Greeted link ∧ (link.call P w.create "keepasskeywin.createPasskey"
    (.object (createParams args))).result = .error cause ∧
    e = .call "keepasskeywin.createPasskey" cause

end

/-- The subcommand never passes. It asks neither for a signature nor for the deletion, and what it
made is left in the vault: once the vault has answered, only the list can stop it. -/
theorem make_credential_stuck (P : Platform) (B : SidecarBase64) (args : List String)
    (w : Surroundings) (undisturbed : Undisturbed P args w) :
    ∃ e p, cmdMakeCredential P B args w .start = .error e p ∧
      Only [helloMethod, "keepasskeywin.createPasskey", "keepasskeywin.listCredentials"] p ∧
      (p.report = [] ∧ Only [helloMethod] p ∨
        p.report = [.handshakeOk] ∧ Unanswered P args w e ∨
        ∃ id, LeftBehind P args w id e p) := by
  have hello : Only [helloMethod] (final (greet P args w .start)) := only_greet _ (by simp)
  have first : Only [helloMethod, "keepasskeywin.createPasskey", "keepasskeywin.listCredentials"]
      (final (greet P args w .start)) := only_greet _ (by simp)
  cases shaken : greet P args w .start with
  | error e p =>
    rw [shaken] at hello first
    exact ⟨e, p, bind_of_error shaken, first, .inl ⟨greet_error shaken, hello⟩⟩
  | ok u p =>
    rw [shaken, final_ok] at first
    obtain ⟨greeted, report⟩ := greet_ok shaken
    have second : Only [helloMethod, "keepasskeywin.createPasskey", "keepasskeywin.listCredentials"]
        (final (makeOne P B args w p)) := only_makeOne first (by simp)
    rw [cmdMakeCredential, bind_of_ok shaken]
    cases result : (p.link.call P w.create "keepasskeywin.createPasskey"
        (.object (createParams args))).result with
    | error cause =>
      have stopped : makeOne P B args w p = .error (.call "keepasskeywin.createPasskey" cause) _ :=
        bind_of_error (callAs_of_error _ result)
      rw [stopped] at second
      exact ⟨_, _, bind_of_error stopped, second,
        .inr (.inl ⟨report, p.link, cause, greeted, result, rfl⟩)⟩
    | ok v =>
      obtain ⟨made, p₁, run, greeted', report', stands⟩ :=
        makeOne_of_answered (B := B) greeted result
      rw [run] at second
      obtain ⟨cause, p₂, stuck, silent, only⟩ := tryOut_stuck P B args w made
        greeted' fun hopen => (undisturbed hopen).symm ▸ stands
      refine ⟨_, p₂, (bind_of_ok run).trans stuck, only _ second (by simp),
        .inr (.inr ⟨made.credentialId, ⟨cause, rfl⟩, ?_, stands⟩)⟩
      rw [silent, report', report]
      rfl

namespace Sample

def platform : Platform := VaultOutcomes.Sample.platform []

def base64 : SidecarBase64 := exactBase64 platform

def plugin : Plugin := { VaultOutcomes.Sample.plugin with nonce := some "a", registryNonce := some "a" }

def meeting (plugin : Plugin) : Meeting :=
  ⟨.answered, VaultOutcomes.Sample.outside, .noMainWindow, plugin⟩

def made : Plugin :=
  final (handle platform (meeting plugin).out "keepasskeywin.createPasskey"
    (some (.object (createParams []))) plugin)

def surroundings : Surroundings where
  registryNonce := some "a"
  connect := none
  pubKey := some [0x45]
  hello := meeting plugin
  create := meeting plugin
  list := meeting made
  sign := meeting made
  delete := meeting made

theorem answers : ∃ p v, greet platform [] surroundings .start = .ok () p ∧
    (p.link.call platform surroundings.create "keepasskeywin.createPasskey"
      (.object (createParams []))).result = .ok v := by
  have succeeds : (match greet platform [] surroundings .start with
      | .ok _ p => (p.link.call platform surroundings.create "keepasskeywin.createPasskey"
          (.object (createParams []))).result.isOk
      | .error _ _ => false) = true := by decide +kernel
  cases shaken : greet platform [] surroundings .start with
  | error e p =>
    rw [shaken] at succeeds
    cases succeeds
  | ok u p =>
    simp only [shaken] at succeeds
    cases result : (p.link.call platform surroundings.create "keepasskeywin.createPasskey"
        (.object (createParams []))).result with
    | error e =>
      rw [result] at succeeds
      cases succeeds
    | ok v => exact ⟨p, v, rfl, result⟩

end Sample

/-- With every call answered, the run gets as far as the list. -/
theorem make_credential_stuck_sample : ∃ e p id,
    cmdMakeCredential Sample.platform Sample.base64 [] Sample.surroundings .start = .error e p ∧
    LeftBehind Sample.platform [] Sample.surroundings id e p := by
  obtain ⟨e, p, run, _, outcome⟩ := make_credential_stuck Sample.platform Sample.base64 []
    Sample.surroundings fun _ => rfl
  obtain ⟨p₁, v, shaken, answered⟩ := Sample.answers
  obtain ⟨greeted, report⟩ := greet_ok shaken
  obtain ⟨made, p₂, makes, greeted', report', stands⟩ :=
    makeOne_of_answered (B := Sample.base64) greeted answered
  obtain ⟨cause, p₃, stuck, silent, _⟩ := tryOut_stuck Sample.platform Sample.base64 []
    Sample.surroundings made greeted' fun _ => stands
  have whole : cmdMakeCredential Sample.platform Sample.base64 [] Sample.surroundings .start =
      .error (.call "keepasskeywin.listCredentials" cause) p₃ := by
    rw [cmdMakeCredential, bind_of_ok shaken, bind_of_ok makes]
    exact stuck
  rw [whole] at run
  cases run
  rcases outcome with ⟨nothing, _⟩ | ⟨hello, _⟩ | ⟨id, left⟩
  · rw [silent, report', report] at nothing
    cases nothing
  · rw [silent, report', report] at hello
    cases hello
  · exact ⟨_, _, id, whole, left⟩

end KeePassKeyWin.MakeCredentialFlow
