import KeePassKeyWin.MemoCells
import KeePassKeyWin.SidecarCalls
import KeePassKeyWin.UserVerification

set_option autoImplicit false

/-!
# The key that the sidecar sends with its hellos

A process fetches the operation-signing key from the library when a handshake first needs it, and
keeps what that came to. Whatever the threads do, the plugin is told the bytes of that one fetch,
or is not greeted at all.
-/
namespace KeePassKeyWin.OpSignKey
open ByteStrings JsonRpc OutcomeRules PlatformServices CredentialEncodings PasskeyStore
open PipeServer SidecarCalls MemoCells TransitionRuns
open UserVerification (Hresult)

structure Guid where
  data1 : UInt32
  data2 : UInt16
  data3 : UInt16
  data4 : List UInt8

def clsidGuid : Guid :=
  ⟨0x5c6840dc, 0x8bed, 0x4951, [0x95, 0x76, 0xb0, 0x45, 0x7f, 0xc3, 0x4e, 0x71]⟩

def upperHex (width n : ℕ) : List Char :=
  let digits := (Nat.toDigits 16 n).map Char.toUpper
  List.replicate (width - digits.length) '0' ++ digits

def Guid.text (g : Guid) : String :=
  let (clock, node) := g.data4.splitAt 2
  let octets := fun bytes : List UInt8 => bytes.flatMap fun b => upperHex 2 b.toNat
  String.ofList (['\x7b'] ++ upperHex 8 g.data1.toNat ++ ['-'] ++ upperHex 4 g.data2.toNat ++ ['-'] ++
    upperHex 4 g.data3.toNat ++ ['-'] ++ octets clock ++ ['-'] ++ octets node ++ ['\x7d'])

theorem clsidGuid_text : clsidGuid.text = "\x7b5C6840DC-8BED-4951-9576-B0457FC34E71\x7d" := by decide

/-- The symbols that the library has. -/
structure KeyExports where
  stable : Bool
  experimental2 : Bool
  experimental : Bool
  freePublicKeyResponse : Bool

/-- The oldest symbol takes the CLSID as a text. -/
inductive GetKeyVariant where
  | refClsid (symbol : String)
  | pwstr
  deriving DecidableEq

structure KeyBindings where
  getKey : GetKeyVariant
  freeKey : Bool

def resolveGetKey (e : KeyExports) : Except String GetKeyVariant :=
  if e.stable then .ok (.refClsid "WebAuthNPluginGetOperationSigningPublicKey")
  else if e.experimental2 then
    .ok (.refClsid "EXPERIMENTAL2_WebAuthNPluginGetOperationSigningPublicKey")
  else if e.experimental then .ok .pwstr
  else .error ("GetProcAddress failed for WebAuthNPluginGetOperationSigningPublicKey, " ++
    "EXPERIMENTAL2_… and EXPERIMENTAL_… — " ++
    "webauthn.dll on this build does not export any of them. " ++
    "Requires Win11 24H2 26100.6725+ (KB5068861, Nov 2025).")

def loadKeyBindings (library : Except String KeyExports) : Except String KeyBindings := do
  let e ← library
  let getKey ← resolveGetKey e
  return ⟨getKey, e.freePublicKeyResponse⟩

/-- How the library is told whose key is wanted. -/
inductive KeyCall where
  | refClsid (symbol : String) (clsid : Guid)
  | pwstr (clsid : String)

def GetKeyVariant.call : GetKeyVariant → KeyCall
  | .refClsid symbol => .refClsid symbol clsidGuid
  | .pwstr => .pwstr clsidGuid.text

/-- What the library returns and writes: a buffer that is not null, and a length. -/
structure KeyReply where
  hr : Hresult
  pbKey : Option Bytes
  cbKey : ℕ
  length_written : ∀ bytes, pbKey = some bytes → cbKey = bytes.length

def nteBadSignature : Hresult := 0x80090006

/-- `freed` is the buffer given back to the library. -/
structure Fetched where
  result : Except Hresult Bytes
  called : Option KeyCall
  freed : Option Bytes

/-- A buffer that is not null but empty is not given back. -/
def fetchKeyFromDll (library : Except String KeyExports) (reply : KeyReply) : Fetched :=
  match loadKeyBindings library with
  | .error _ => ⟨.error nteBadSignature, none, none⟩
  | .ok b =>
    let called := some b.getKey.call
    let free := if b.freeKey then reply.pbKey else none
    if reply.hr.isErr then ⟨.error nteBadSignature, called, free⟩
    else
      match reply.pbKey with
      | none => ⟨.error nteBadSignature, called, none⟩
      | some buffer =>
        if reply.cbKey = 0 then ⟨.error nteBadSignature, called, none⟩
        else ⟨.ok (buffer.take reply.cbKey), called, free⟩

def getOpSignPubKeyBytesForHello : Except Hresult Bytes → Option Bytes
  | .ok bytes => some bytes
  | .error _ => none

structure Attempt where
  nonce : String
  connected : Connected

/-- The library as it was found, what it replied, and what that came to. -/
structure Fetch where
  library : Except String KeyExports
  reply : KeyReply
  fetched : Fetched

structure World where
  cache : Memo ℕ Empty (Except Hresult Bytes)
  fetches : List Fetch
  attempts : List Attempt

inductive Event where
  | getSigningKeyBytes (thread : ℕ)
  | enter (thread : ℕ)
  | fetched (thread : ℕ) (library : Except String KeyExports) (reply : KeyReply)
  | handshake (thread : ℕ) (w : Meeting) (nonce : String)

def World.start : World := ⟨Memo.start none, [], []⟩

def keyOf (r : Return ℕ Empty (Except Hresult Bytes)) : Option Bytes :=
  match r.result with
  | .ok cached => getOpSignPubKeyBytesForHello cached

/-- What the thread was given last. -/
def World.pubKey (w : World) (thread : ℕ) : Option (Option Bytes) :=
  ((w.cache.returns.filter fun r => r.caller == thread).getLast?).map keyOf

def perform (P : Platform) (w : World) : Event → Option World
  | .getSigningKeyBytes thread =>
    (MemoCells.perform w.cache (.call thread)).map fun cache => { w with cache }
  | .enter thread => (MemoCells.perform w.cache (.enter thread)).map fun cache => { w with cache }
  | .fetched thread library reply =>
    let f := fetchKeyFromDll library reply
    (MemoCells.perform w.cache (.settle thread (.ok f.result))).map fun cache =>
      { w with cache, fetches := w.fetches ++ [⟨library, reply, f⟩] }
  | .handshake thread meeting nonce =>
    (w.pubKey thread).map fun pubKey =>
      { w with attempts := w.attempts ++ [⟨nonce, handshake P meeting nonce pubKey .fresh⟩] }

def step (P : Platform) (w : World) (e : Event) (w' : World) : Prop := perform P w e = some w'

def Genuine (p : Fetch) : Prop :=
  ∀ bytes, p.fetched.result = .ok bytes →
    p.reply.hr.isErr = false ∧ p.reply.pbKey = some bytes ∧ bytes ≠ []

/-- The call that a library with these symbols is asked by: the newest that it has. -/
inductive Takes (e : KeyExports) : KeyCall → Prop
  | stable (has : e.stable = true) :
      Takes e (.refClsid "WebAuthNPluginGetOperationSigningPublicKey" clsidGuid)
  | experimental2 (older : e.stable = false) (has : e.experimental2 = true) :
      Takes e (.refClsid "EXPERIMENTAL2_WebAuthNPluginGetOperationSigningPublicKey" clsidGuid)
  | experimental (older : e.stable = false) (oldest : e.experimental2 = false)
      (has : e.experimental = true) : Takes e (.pwstr "\x7b5C6840DC-8BED-4951-9576-B0457FC34E71\x7d")

/-- The library gets its buffer back if it has a function for that, unless it reports success with
a buffer of no bytes. -/
structure Returns (e : KeyExports) (reply : KeyReply) (buffer : Bytes) : Prop where
  exported : e.freePublicKeyResponse = true
  written : reply.pbKey = some buffer
  due : reply.hr.isErr = true ∨ buffer ≠ []

/-- The library is asked by the one call that fits its symbols, or not at all, and gets back what it
wrote for that call. -/
structure Orderly (p : Fetch) : Prop where
  called : ∀ call, p.fetched.called = some call ↔ ∃ e, p.library = .ok e ∧ Takes e call
  freed : ∀ buffer, p.fetched.freed = some buffer ↔
    ∃ e, p.library = .ok e ∧ (∃ call, Takes e call) ∧ Returns e p.reply buffer

theorem takes_iff {e : KeyExports} {call : KeyCall} :
    Takes e call ↔ ∃ variant, resolveGetKey e = .ok variant ∧ variant.call = call := by
  constructor
  · intro takes
    cases takes with
    | stable has =>
      refine ⟨.refClsid "WebAuthNPluginGetOperationSigningPublicKey", ?_, rfl⟩
      rw [resolveGetKey, if_pos has]
    | experimental2 older has =>
      refine ⟨.refClsid "EXPERIMENTAL2_WebAuthNPluginGetOperationSigningPublicKey", ?_, rfl⟩
      simp [resolveGetKey, older, has]
    | experimental older oldest has =>
      refine ⟨.pwstr, ?_, congrArg KeyCall.pwstr clsidGuid_text⟩
      simp [resolveGetKey, older, oldest, has]
  · rintro ⟨variant, resolved, rfl⟩
    unfold resolveGetKey at resolved
    split_ifs at resolved with stable experimental2 experimental
    · obtain rfl := Except.ok.inj resolved
      exact .stable stable
    · obtain rfl := Except.ok.inj resolved
      exact .experimental2 (Bool.eq_false_iff.mpr stable) experimental2
    · obtain rfl := Except.ok.inj resolved
      rw [GetKeyVariant.call, clsidGuid_text]
      exact .experimental (Bool.eq_false_iff.mpr stable) (Bool.eq_false_iff.mpr experimental2)
        experimental

theorem loadKeyBindings_ok {library : Except String KeyExports} {b : KeyBindings} :
    loadKeyBindings library = .ok b ↔ ∃ e, library = .ok e ∧ resolveGetKey e = .ok b.getKey ∧
      e.freePublicKeyResponse = b.freeKey := by
  constructor
  · intro bound
    obtain ⟨e, found, bound⟩ := except_bind_ok.mp bound
    obtain ⟨variant, resolved, bound⟩ := except_bind_ok.mp bound
    obtain rfl := except_pure_ok.mp bound
    exact ⟨e, found, resolved, rfl⟩
  · rintro ⟨e, rfl, resolved, free⟩
    rw [loadKeyBindings, except_bind_of_ok rfl, except_bind_of_ok resolved, free]
    rfl

theorem fetch_bound {library : Except String KeyExports} {b : KeyBindings}
    (bound : loadKeyBindings library = .ok b) (reply : KeyReply) :
    (fetchKeyFromDll library reply).called = some b.getKey.call ∧
    ∀ buffer, (fetchKeyFromDll library reply).freed = some buffer ↔
      b.freeKey = true ∧ reply.pbKey = some buffer ∧ (reply.hr.isErr = true ∨ buffer ≠ []) := by
  unfold fetchKeyFromDll
  rw [bound]
  dsimp only
  by_cases failed : reply.hr.isErr = true
  · simp [failed]
  · cases written : reply.pbKey with
    | none => simp [failed]
    | some buffer =>
      have length := reply.length_written buffer written
      by_cases empty : buffer = []
      · subst empty
        have zero : reply.cbKey = 0 := length
        simp [failed, zero]
      · have bytes : reply.cbKey ≠ 0 := fun zero =>
          empty (List.eq_nil_of_length_eq_zero (length ▸ zero))
        simp [failed, bytes, empty]

theorem orderly_fetch (library : Except String KeyExports) (reply : KeyReply) :
    Orderly ⟨library, reply, fetchKeyFromDll library reply⟩ := by
  cases bound : loadKeyBindings library with
  | error e =>
    have unasked : ∀ e call, library = .ok e → ¬ Takes e call := by
      rintro e call rfl takes
      obtain ⟨variant, resolved, _⟩ := takes_iff.mp takes
      have bindings := loadKeyBindings_ok (b := ⟨variant, e.freePublicKeyResponse⟩) |>.mpr
        ⟨e, rfl, resolved, rfl⟩
      rw [bindings] at bound
      cases bound
    refine ⟨fun call => ?_, fun buffer => ?_⟩
    · simp only [fetchKeyFromDll, bound, reduceCtorEq, false_iff]
      rintro ⟨e, found, takes⟩
      exact unasked e call found takes
    · simp only [fetchKeyFromDll, bound, reduceCtorEq, false_iff]
      rintro ⟨e, found, ⟨call, takes⟩, _⟩
      exact unasked e call found takes
  | ok b =>
    obtain ⟨called, freed⟩ := fetch_bound bound reply
    obtain ⟨e, rfl, resolved, free⟩ := loadKeyBindings_ok.mp bound
    have own : ∀ {call}, Takes e call ↔ b.getKey.call = call := by
      intro call
      rw [takes_iff, resolved]
      exact ⟨fun ⟨_, same, known⟩ => Except.ok.inj same ▸ known, fun known => ⟨_, rfl, known⟩⟩
    refine ⟨fun call => ?_, fun buffer => ?_⟩
    · rw [called, Option.some_inj, ← own]
      exact ⟨fun takes => ⟨e, rfl, takes⟩, fun ⟨_, same, takes⟩ => Except.ok.inj same ▸ takes⟩
    · rw [freed, ← free]
      constructor
      · rintro ⟨exported, written, due⟩
        exact ⟨e, rfl, ⟨_, own.mpr rfl⟩, exported, written, due⟩
      · rintro ⟨_, same, _, given⟩
        obtain rfl := Except.ok.inj same
        exact ⟨given.exported, given.written, given.due⟩

theorem genuine_fetch (library : Except String KeyExports) (reply : KeyReply) :
    Genuine ⟨library, reply, fetchKeyFromDll library reply⟩ := by
  intro bytes result
  change (fetchKeyFromDll library reply).result = .ok bytes at result
  cases bound : loadKeyBindings library with
  | error e =>
    simp only [fetchKeyFromDll, bound] at result
    cases result
  | ok b =>
    cases written : reply.pbKey with
    | none =>
      simp only [fetchKeyFromDll, bound, written] at result
      split_ifs at result
    | some buffer =>
      have length := reply.length_written buffer written
      by_cases failed : reply.hr.isErr = true
      · simp only [fetchKeyFromDll, bound, failed, if_true] at result
        cases result
      by_cases empty : reply.cbKey = 0
      · simp only [fetchKeyFromDll, bound, failed, written, empty, if_true] at result
        cases result
      simp only [fetchKeyFromDll, bound, failed, written, empty, if_false] at result
      have taken : buffer.take reply.cbKey = bytes := Except.ok.inj result
      rw [length, List.take_length] at taken
      subst taken
      refine ⟨Bool.eq_false_iff.mpr failed, rfl, ?_⟩
      rintro rfl
      exact empty length

/-- The fetches are the computations of the cell, and every handshake used what the cell gave. -/
structure Inv (P : Platform) (w : World) : Prop where
  cache : MemoCells.Inv none w.cache
  fetches : w.fetches.map (fun p => (.ok p.fetched.result : Except Empty _)) =
    (w.cache.returns.filter Return.computed).map Return.result
  genuine : ∀ p ∈ w.fetches, Genuine p ∧ Orderly p
  attempts : ∀ a ∈ w.attempts, ∃ r ∈ w.cache.returns, ∃ meeting,
    a.connected = handshake P meeting a.nonce (keyOf r) .fresh

section
variable {P : Platform} {w w' : World} {cache : Memo ℕ Empty (Except Hresult Bytes)}

theorem inv_start : Inv P World.start where
  cache := MemoCells.inv_start none
  fetches := rfl
  genuine _ here := absurd here List.not_mem_nil
  attempts _ here := absurd here List.not_mem_nil

theorem attempts_mono (h : Inv P w) {new : List (Return ℕ Empty (Except Hresult Bytes))}
    (returns : cache.returns = w.cache.returns ++ new) :
    ∀ a ∈ w.attempts, ∃ r ∈ cache.returns, ∃ meeting,
      a.connected = handshake P meeting a.nonce (keyOf r) .fresh := by
  intro a here
  obtain ⟨r, old, meeting, same⟩ := h.attempts a here
  exact ⟨r, by rw [returns]; exact List.mem_append_left _ old, meeting, same⟩

theorem inv_quiet (h : Inv P w) {e : MemoCells.Event ℕ Empty (Except Hresult Bytes)}
    (performed : MemoCells.perform w.cache e = some cache) (quiet : e.outcomes = []) :
    Inv P { w with cache } := by
  obtain ⟨new, returns, computed⟩ := returns_perform performed
  refine ⟨MemoCells.inv_perform h.cache performed, ?_, h.genuine,
    @attempts_mono P w cache h _ returns⟩
  change w.fetches.map _ = (cache.returns.filter _).map _
  rw [returns, List.filter_append, List.map_append, computed, quiet, List.append_nil]
  exact h.fetches

theorem inv_fetched (h : Inv P w) {thread : ℕ} (library : Except String KeyExports)
    (reply : KeyReply) (performed : MemoCells.perform w.cache
      (.settle thread (.ok (fetchKeyFromDll library reply).result)) = some cache) :
    Inv P { w with cache, fetches := w.fetches ++ [⟨library, reply, fetchKeyFromDll library reply⟩] } := by
  obtain ⟨new, returns, computed⟩ := returns_perform performed
  refine ⟨MemoCells.inv_perform h.cache performed, ?_, ?_,
    @attempts_mono P w cache h _ returns⟩
  · change (w.fetches ++ [_]).map _ = (cache.returns.filter _).map _
    rw [List.map_append, h.fetches, returns, List.filter_append, List.map_append, computed]
    rfl
  · intro p here
    rcases List.mem_append.mp here with old | new
    · exact h.genuine p old
    · obtain rfl := List.mem_singleton.mp new
      exact ⟨genuine_fetch library reply, orderly_fetch library reply⟩

theorem inv_step (h : Inv P w) {e : Event} (performed : step P w e w') : Inv P w' := by
  cases e with
  | getSigningKeyBytes thread =>
    obtain ⟨cache, ran, rfl⟩ := Option.map_eq_some_iff.mp performed
    exact inv_quiet h ran rfl
  | enter thread =>
    obtain ⟨cache, ran, rfl⟩ := Option.map_eq_some_iff.mp performed
    exact inv_quiet h ran rfl
  | fetched thread library reply =>
    obtain ⟨cache, ran, rfl⟩ := Option.map_eq_some_iff.mp performed
    exact inv_fetched h library reply ran
  | handshake thread meeting nonce =>
    obtain ⟨pubKey, given, rfl⟩ := Option.map_eq_some_iff.mp performed
    obtain ⟨r, last, rfl⟩ := Option.map_eq_some_iff.mp given
    refine ⟨h.cache, h.fetches, h.genuine, fun a here => ?_⟩
    rcases List.mem_append.mp here with old | new
    · exact h.attempts a old
    · obtain rfl := List.mem_singleton.mp new
      exact ⟨r, (List.mem_filter.mp (List.mem_of_getLast? last)).1, meeting, rfl⟩

theorem fetched_of_returned (h : Inv P w) {r : Return ℕ Empty (Except Hresult Bytes)}
    (here : r ∈ w.cache.returns) :
    ∃ p, w.fetches = [p] ∧ r.result = .ok p.fetched.result := by
  cases result : r.result with
  | error e => exact e.elim
  | ok cached =>
    have settled := h.cache.sequential.agree here result
    have sequential := h.cache.sequential
    rw [settled] at sequential
    obtain ⟨r', computed⟩ := sequential.exists_computed
    have member : r' ∈ w.cache.returns.filter Return.computed :=
      List.mem_filter.mpr ⟨computed.1, computed.2.1⟩
    have once := h.cache.sequential.computed_once
    obtain ⟨only, same⟩ := List.length_eq_one_iff.mp
      (Nat.le_antisymm once (List.length_pos_of_mem member))
    rw [same, List.mem_singleton] at member
    subst member
    have fetches := h.fetches
    rw [same, List.map_singleton, computed.2.2] at fetches
    obtain ⟨p, one, found⟩ := List.map_eq_singleton_iff.mp fetches
    exact ⟨p, one, congrArg _ (Except.ok.inj found).symm⟩

end

structure Distributed (P : Platform) (w : World) : Prop where
  once : w.fetches.length ≤ 1
  genuine : ∀ p ∈ w.fetches, Genuine p
  orderly : ∀ p ∈ w.fetches, Orderly p
  sent : ∀ a ∈ w.attempts, ∀ h ∈ a.connected.handled, ∃ p bytes, w.fetches = [p] ∧
    p.fetched.result = .ok bytes ∧
    h.request = Link.fresh.request helloMethod (.object (helloParams a.nonce bytes)) ∧
    ((h.after P).plugin.opSignPubKey = h.session.plugin.opSignPubKey ∨
      (h.after P).plugin.opSignPubKey = some bytes)
  accepted : ∀ a ∈ w.attempts, ∀ link, a.connected.link = .ok link → ∃ p bytes h,
    w.fetches = [p] ∧ p.fetched.result = .ok bytes ∧ h ∈ a.connected.handled ∧
    (h.after P).plugin.opSignPubKey = some bytes
  closed : ∀ p ∈ w.fetches, (∀ bytes, p.fetched.result ≠ .ok bytes) → ∀ a ∈ w.attempts,
    a.connected.handled = [] ∧ a.connected.link = .error (.invalidRequest
      "op-sign public key unavailable — cannot complete handshake without it")

section
variable {P : Platform} {m : Meeting} {nonce : String} {bytes : Bytes} {h : Handled}

/-- The hello carries these bytes. -/
def Carries (nonce : String) (bytes : Bytes) (h : Handled) : Prop :=
  h.request = Link.fresh.request helloMethod (.object (helloParams nonce bytes))

theorem deliversKey_helloParams {key : Bytes}
    (delivers : DeliversKey P (some (.object (helloParams nonce bytes))) key) : key = bytes := by
  obtain ⟨obj, opSignKeyB64, object, field, _, decoded⟩ := delivers
  obtain rfl := JToken.object.inj (Option.some.inj object)
  have text : stringField (helloParams nonce bytes) "opSignPublicKeyB64" =
      .ok (some (toBase64String bytes)) := rfl
  rw [text] at field
  obtain rfl := Option.some.inj (Except.ok.inj field)
  rw [fromBase64String_toBase64String] at decoded
  exact (Except.ok.inj decoded).symm

/-- A hello leaves the key of the plugin, or replaces it by the one it carries; an accepted one
replaces it. -/
theorem hello_key (carries : Carries nonce bytes h) :
    ((h.after P).plugin.opSignPubKey = h.session.plugin.opSignPubKey ∨
      (h.after P).plugin.opSignPubKey = some bytes) ∧
    ∀ result, (h.response P).outcome = .ok result →
      (h.after P).plugin.opSignPubKey = some bytes := by
  have method : h.request.method = helloMethod := by rw [carries]; rfl
  have params : h.request.params = some (.object (helloParams nonce bytes)) := by rw [carries]; rfl
  have outcome := handleHello_outcome P h.out h.request.params h.session
  unfold Handled.after Handled.response respond
  rw [dispatch_hello method]
  generalize handleHello P h.out h.request.params h.session = r at outcome ⊢
  cases outcome with
  | refused e t _ key _ => exact ⟨.inl key, fun _ answered => by cases answered⟩
  | accepted t key _ delivers cached _ _ =>
    rw [params] at delivers
    obtain rfl := deliversKey_helloParams delivers
    exact ⟨.inr cached, fun _ _ => cached⟩
  | keyRefused e t _ _ key _ _ => exact ⟨.inl key, fun _ answered => by cases answered⟩

theorem handshake_handled (here : h ∈ (handshake P m nonce (some bytes) .fresh).handled) :
    Carries nonce bytes h := by
  have sent : (handshake P m nonce (some bytes) .fresh).handled =
      (Link.fresh.call P m helloMethod (.object (helloParams nonce bytes))).handled := by
    rw [handshake]
    cases (Link.fresh.call P m helloMethod (.object (helloParams nonce bytes))).result <;> rfl
  rw [sent, Link.call] at here
  cases passage : m.passage with
  | unsent kind =>
    rw [passage] at here
    exact absurd here List.not_mem_nil
  | answered =>
    rw [passage] at here
    obtain rfl := List.mem_singleton.mp here
    rfl
  | unread kind =>
    rw [passage] at here
    obtain rfl := List.mem_singleton.mp here
    rfl
  | undecodable =>
    rw [passage] at here
    obtain rfl := List.mem_singleton.mp here
    rfl

theorem handshake_accepted {link : Link}
    (accepted : (handshake P m nonce (some bytes) .fresh).link = .ok link) :
    ∃ h ∈ (handshake P m nonce (some bytes) .fresh).handled,
      ∃ result, (h.response P).outcome = .ok result := by
  unfold handshake at accepted ⊢
  simp only at accepted ⊢
  cases returned : (Link.fresh.call P m helloMethod (.object (helloParams nonce bytes))).result with
  | error e =>
    rw [returned] at accepted
    cases accepted
  | ok result =>
    obtain ⟨passage, outcome, _⟩ := call_ok returned
    refine ⟨_, ?_, result, outcome⟩
    rw [Link.call, passage]
    exact List.mem_singleton_self _

theorem distributed_of_inv {w : World} (inv : Inv P w) : Distributed P w := by
  have once : w.fetches.length ≤ 1 := by
    have lengths := congrArg List.length inv.fetches
    rw [List.length_map, List.length_map] at lengths
    rw [lengths]
    exact inv.cache.sequential.computed_once
  -- An attempt used the one fetch there is.
  have used : ∀ a ∈ w.attempts, ∃ p meeting, w.fetches = [p] ∧
      a.connected = handshake P meeting a.nonce (getOpSignPubKeyBytesForHello p.fetched.result) .fresh := by
    intro a here
    obtain ⟨r, member, meeting, same⟩ := inv.attempts a here
    obtain ⟨p, one, result⟩ := fetched_of_returned inv member
    refine ⟨p, meeting, one, ?_⟩
    rw [same, keyOf, result]
  refine ⟨once, fun p here => (inv.genuine p here).1, fun p here => (inv.genuine p here).2, ?_, ?_,
    ?_⟩
  · intro a here h handled
    obtain ⟨p, meeting, one, same⟩ := used a here
    rw [same] at handled
    cases result : p.fetched.result with
    | error e =>
      rw [result] at handled
      exact absurd handled List.not_mem_nil
    | ok bytes =>
      rw [result] at handled
      have carries := handshake_handled handled
      exact ⟨p, bytes, one, result, carries, (hello_key carries).1⟩
  · intro a here link accepted
    obtain ⟨p, meeting, one, same⟩ := used a here
    rw [same] at accepted ⊢
    cases result : p.fetched.result with
    | error e =>
      rw [result] at accepted
      cases accepted
    | ok bytes =>
      rw [result] at accepted
      obtain ⟨h, handled, answer, answered⟩ := handshake_accepted accepted
      exact ⟨p, bytes, h, one, result, handled,
        (hello_key (handshake_handled handled)).2 answer answered⟩
  · intro p member failed a here
    obtain ⟨p', meeting, one, same⟩ := used a here
    rw [one] at member
    obtain rfl := List.mem_singleton.mp member
    rw [same]
    cases result : p.fetched.result with
    | ok bytes => exact absurd result (failed bytes)
    | error e => exact ⟨rfl, rfl⟩

end

/-- In every run of a process, whatever its threads do: the library is asked once at most, every
hello carries the bytes of its one buffer, an accepted hello leaves them with the plugin, and a
fetch that failed lets no hello out. -/
theorem op_sign_key_distributed (P : Platform) (es : List Event) (w : World)
    (run : Run (step P) World.start es w) : Distributed P w :=
  distributed_of_inv (run.invariant (fun _ _ _ h performed => inv_step h performed) inv_start)

namespace Sample

def reply : KeyReply where
  hr := 0
  pbKey := some VaultOutcomes.Sample.opSignPubKey
  cbKey := 72
  length_written bytes h := by
    obtain rfl := Option.some.inj h
    exact (bigEndian_length _ _).symm

def exports : KeyExports := ⟨false, true, true, true⟩

def meeting : Meeting := ⟨.answered, VaultOutcomes.Sample.outside, .noMainWindow,
  VaultOutcomes.Sample.plugin⟩

def nonce : String := "5f0c8e5f3b7d4a1e92c64dd0b18f7a3625e9c0d7481bf6a3e05d92c7b6f41a08"

/-- Two threads ask for the key, and both shake hands with what the first has fetched. -/
def events : List Event :=
  [.getSigningKeyBytes 0, .getSigningKeyBytes 1, .enter 0, .fetched 0 (.ok exports) reply, .enter 1,
    .handshake 1 meeting nonce, .handshake 0 meeting nonce]

end Sample

theorem op_sign_key_distributed_sample : ∃ w,
    Run (step (VaultOutcomes.Sample.platform [])) World.start Sample.events w ∧
      w.fetches.map (fun p => (p.fetched.result, p.fetched.freed)) =
        [(.ok VaultOutcomes.Sample.opSignPubKey, some VaultOutcomes.Sample.opSignPubKey)] ∧
      w.attempts.length = 2 ∧ Distributed (VaultOutcomes.Sample.platform []) w := by
  have run : Run (step (VaultOutcomes.Sample.platform [])) World.start Sample.events _ :=
    run_foldlM rfl
  exact ⟨_, run, rfl, rfl, op_sign_key_distributed _ _ _ run⟩

end KeePassKeyWin.OpSignKey
