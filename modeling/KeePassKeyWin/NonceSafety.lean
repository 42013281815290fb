import KeePassKeyWin.PipeServer
import KeePassKeyWin.SingleUseTokens

set_option autoImplicit false

/-!
# The handshake nonce

Every run of the nonce store is one of a register of single-use tokens, whose current token
both the store and the registry hold.
-/
namespace KeePassKeyWin.NonceSafety
open ByteStrings JsonRpc OutcomeRules PlatformServices PasskeyStore VaultHandler VaultRuns
open VaultOutcomes PipeServer SingleUseTokens TransitionRuns

def lower (text : String) : List Char := text.toList.map Char.toLower

theorem equalsIgnoreCase_iff {a b : String} : equalsIgnoreCase a b = true ↔ lower a = lower b := by
  simp [equalsIgnoreCase, lower]

def hexDigits (b : UInt8) : List Char :=
  [Nat.digitChar (b.toNat / 16), Nat.digitChar (b.toNat % 16)]

theorem digitChar_lower {n : ℕ} (h : n < 16) : (Nat.digitChar n).toLower = Nat.digitChar n := by
  decide +revert

theorem digitChar_injective {m n : ℕ} (hm : m < 16) (hn : n < 16)
    (h : Nat.digitChar m = Nat.digitChar n) : m = n := by
  have injective : ∀ m < 16, ∀ n < 16, Nat.digitChar m = Nat.digitChar n → m = n := by decide
  exact injective m hm n hn h

theorem digits_lt (b : UInt8) : b.toNat / 16 < 16 ∧ b.toNat % 16 < 16 := by
  have := b.toNat_lt
  omega

theorem lower_hexString (bytes : Bytes) : lower (hexString bytes) = bytes.flatMap hexDigits := by
  rw [lower, hexString, String.toList_ofList, List.map_flatMap]
  refine List.flatMap_congr fun b _ => ?_
  have small := digits_lt b
  simp [hexDigits, digitChar_lower small.1, digitChar_lower small.2]

theorem hexDigits_injective {b c : UInt8} (h : hexDigits b = hexDigits c) : b = c := by
  simp only [hexDigits, List.cons.injEq, and_true] at h
  have high := digitChar_injective (digits_lt b).1 (digits_lt c).1 h.1
  have low := digitChar_injective (digits_lt b).2 (digits_lt c).2 h.2
  exact UInt8.toNat_inj.mp (by omega)

/-- Two nonces that differ, differ in more than letter case. -/
theorem hexString_differs {as bs : Bytes}
    (h : equalsIgnoreCase (hexString as) (hexString bs) = true) : as = bs := by
  rw [equalsIgnoreCase_iff, lower_hexString, lower_hexString] at h
  induction as generalizing bs with
  | nil =>
    cases bs with
    | nil => rfl
    | cons b bs => simp [hexDigits] at h
  | cons a as ih =>
    cases bs with
    | nil => simp [hexDigits] at h
    | cons b bs =>
      rw [List.flatMap_cons, List.flatMap_cons] at h
      obtain ⟨first, rest⟩ := List.append_inj h (by simp [hexDigits])
      rw [hexDigits_injective first, ih rest]

/-- `Clear`: an error from the registry is swallowed. -/
def clearNonce (out : Outside) : Vault Unit := do
  modify fun s => { s with nonce := none }
  match out.registry with
  | some _ => return
  | none => modify fun s => { s with registryNonce := none }

inductive Op where
  | initializeNonce (out : Outside)
  | clearNonce (out : Outside)
  | connect
  | line (out : Outside) (text : String)

def Server.mapPlugin (f : Plugin → Plugin) (s : Server) : Server :=
  { s with session := { s.session with plugin := f s.session.plugin } }

def perform (P : Platform) (s : Server) : Op → Server
  | .initializeNonce out => Server.mapPlugin (fun p => final (initializeNonce out p)) s
  | .clearNonce out => Server.mapPlugin (fun p => final (clearNonce out p)) s
  | .connect => s.connect
  | .line out text => s.receive P out text

/-- The nonce that `ConsumeNonce` accepts in a hello, whatever becomes of the hello. -/
def acceptedByHello (out : Outside) (params : Option JToken) (s : Session) : Option String :=
  if s.context.handshakeComplete then none
  else
    match readHello params with
    | .error _ => none
    | .ok hello =>
      match consumeNonce out hello.nonce s.plugin with
      | .ok true _ => some hello.nonce
      | _ => none

def acceptedNonce (P : Platform) (s : Server) : Op → Option String
  | .line out text =>
    if isBlank text then none
    else
      match parseLine P text with
      | .error _ => none
      | .ok request =>
        if request.method = helloMethod then acceptedByHello out request.params s.session else none
  | _ => none

theorem acceptedNonce_hello {P : Platform} {out : Outside} {text : String}
    {request : JsonRpcRequest} (s : Server) (visible : isBlank text = false)
    (parsed : parseLine P text = .ok request) (hello : request.method = helloMethod) :
    acceptedNonce P s (.line out text) = acceptedByHello out request.params s.session := by
  simp [acceptedNonce, visible, parsed, hello]

/-- The nonce that the operation generates, as bytes. -/
def issuedNonce (P : Platform) (s : Server) : Op → Option Bytes
  | .initializeNonce out => some out.nonce
  | .line out text => (acceptedNonce P s (.line out text)).map fun _ => out.nonce
  | _ => none

/-- The server, the nonces that were generated and those that were accepted, oldest first. -/
structure Ledger where
  server : Server
  issued : List Bytes
  accepted : List String

def Ledger.start (plugin : Plugin) : Ledger := ⟨Server.start plugin, [], []⟩

def operate (P : Platform) (l : Ledger) (op : Op) (l' : Ledger) : Prop :=
  l' = ⟨perform P l.server op, l.issued ++ (issuedNonce P l.server op).toList,
    l.accepted ++ (acceptedNonce P l.server op).toList⟩

def Op.writes : Op → Bool
  | .initializeNonce out => out.registry.isNone
  | .clearNonce out => out.registry.isNone
  | .connect => true
  | .line out _ => out.registry.isNone

def Op.isInitialize : Op → Bool
  | .initializeNonce _ => true
  | _ => false

def nonces (s : Plugin) : Option String × Option String := (s.nonce, s.registryNonce)

def both (bytes : Bytes) : Option String × Option String :=
  (some (hexString bytes), some (hexString bytes))

section
variable {P : Platform} {out : Outside}

theorem initializeNonce_ok (writes : out.registry = none) (s : Plugin) :
    ∃ t, initializeNonce out s = .ok () t ∧ nonces t = both out.nonce :=
  ⟨renewed out s, initializeNonce_writes writes s, rfl⟩

theorem clearNonce_final (writes : out.registry = none) (s : Plugin) :
    nonces (final (clearNonce out s)) = (none, none) := by
  simp only [clearNonce, modify_bind, writes]
  rfl

theorem consumeNonce_differs {s : Plugin} {nonce : String} (h : matchesNonce s nonce = false) :
    consumeNonce out nonce s = .ok false s := by
  simp [consumeNonce, h]

theorem greet_nonces (P : Platform) (hello : Hello) (s : Session) :
    nonces (final (greet P hello s)).plugin = nonces s.plugin := by
  rw [greet, modify_bind]
  cases h : helloKey P hello.obj with
  | error e =>
    rw [bind_of_error (lift_error.mpr ⟨rfl, rfl⟩)]
    rfl
  | ok key =>
    rw [bind_of_ok (lift_ok.mpr ⟨rfl, rfl⟩)]
    rfl

def noncesAfter (out : Outside) (accepted : Option String) (s : Plugin) :
    Option String × Option String :=
  match accepted with
  | some _ => both out.nonce
  | none => nonces s

theorem handleHello_nonces (writes : out.registry = none) (params : Option JToken) (s : Session) :
    nonces (final (handleHello P out params s)).plugin =
      noncesAfter out (acceptedByHello out params s) s.plugin := by
  rw [handleHello, get_bind, ite_run, acceptedByHello]
  split_ifs with complete
  · rfl
  cases read : readHello params with
  | error e =>
    rw [bind_of_error (lift_error.mpr ⟨rfl, rfl⟩)]
    rfl
  | ok hello =>
    rw [bind_of_ok (lift_ok.mpr ⟨rfl, rfl⟩)]
    cases matched : matchesNonce s.plugin hello.nonce with
    | false =>
      have differs : consumeNonce out hello.nonce s.plugin = .ok false s.plugin :=
        consumeNonce_differs matched
      rw [bind_of_ok (onPlugin_ok differs)]
      simp only [differs]
      rfl
    | true =>
      have accepted := consumeNonce_matches writes matched
      rw [bind_of_ok (onPlugin_ok accepted)]
      simp only [accepted]
      exact greet_nonces P hello ⟨s.context, renewed out s.plugin⟩

theorem respond_final (P : Platform) (out : Outside) (request : JsonRpcRequest) (s : Session) :
    (respond P out request s).2 = final (dispatch P out request s) := by
  unfold respond
  cases dispatch P out request s <;> rfl

/-- A request for the vault leaves the nonces alone. -/
theorem dispatch_nonces {request : JsonRpcRequest} (h : request.method ≠ helloMethod)
    (s : Session) : nonces (final (dispatch P out request s)).plugin = nonces s.plugin := by
  cases greeted : s.context.handshakeComplete with
  | false =>
    rw [dispatch_ungreeted h greeted]
    rfl
  | true =>
    have held := handle_held P out request.method request.params s.plugin
    have same : nonces (final (handle P out request.method request.params s.plugin)) =
        nonces s.plugin := Prod.ext held.nonce held.registryNonce
    rw [dispatch_vault h greeted]
    cases run : handle P out request.method request.params s.plugin with
    | ok result plugin =>
      rw [run] at same
      rw [onPlugin_ok run]
      exact same
    | error e plugin =>
      rw [run] at same
      rw [onPlugin_error run]
      exact same

theorem line_nonces (writes : out.registry = none) (text : String) (s : Server) :
    nonces (perform P s (.line out text)).session.plugin =
      noncesAfter out (acceptedNonce P s (.line out text)) s.session.plugin := by
  simp only [perform, Server.receive, acceptedNonce]
  split_ifs with blank
  · rfl
  cases parsed : parseLine P text with
  | error response => rfl
  | ok request =>
    have run : ((s.answer P out request).session) =
        final (dispatch P out request s.session) := respond_final P out request s.session
    by_cases hello : request.method = helloMethod
    · simp only [run, dispatch_hello hello, hello, if_true]
      exact handleHello_nonces writes request.params s.session
    · simp only [run, hello, if_false]
      exact dispatch_nonces hello s.session

end

def moveOf (P : Platform) (s : Server) : Op → Move Bytes
  | .initializeNonce out => .issue out.nonce
  | .clearNonce _ => .clear
  | .connect => .idle
  | .line out text =>
    match acceptedNonce P s (.line out text) with
    | some _ => .accept out.nonce
    | none => .idle

/-- The nonce is this token, in upper or lower case. -/
def Spells (nonce : String) (token : Bytes) : Prop :=
  equalsIgnoreCase nonce (hexString token) = true

/-- Both copies of the nonce are the current token, and the history is that of the register. -/
structure Tracks (l : Ledger) (r : Register Bytes) : Prop where
  valid : Valid r
  current : nonces l.server.session.plugin =
    (r.current.map hexString, r.current.map hexString)
  issued : r.issued = l.issued
  accepted : List.Forall₂ Spells l.accepted r.accepted

section
variable {P : Platform} {l l' : Ledger} {r : Register Bytes}

theorem acceptedByHello_matches {out : Outside} {params : Option JToken} {s : Session}
    {nonce : String} (h : acceptedByHello out params s = some nonce) :
    matchesNonce s.plugin nonce = true := by
  unfold acceptedByHello at h
  split_ifs at h
  split at h
  · cases h
  · rename_i hello _
    cases matched : matchesNonce s.plugin hello.nonce with
    | false =>
      rw [consumeNonce_differs matched] at h
      cases h
    | true =>
      split at h
      · exact Option.some.inj h ▸ matched
      · cases h

theorem acceptedNonce_matches {op : Op} {nonce : String}
    (h : acceptedNonce P l.server op = some nonce) :
    matchesNonce l.server.session.plugin nonce = true := by
  cases op with
  | line out text =>
    unfold acceptedNonce at h
    dsimp only at h
    split_ifs at h
    split at h
    · cases h
    · split_ifs at h
      exact acceptedByHello_matches h
  | _ => cases h

theorem Tracks.matches_iff (h : Tracks l r) {nonce : String} :
    matchesNonce l.server.session.plugin nonce = true ↔
      ∃ token, r.current = some token ∧ Spells nonce token := by
  have copy : l.server.session.plugin.nonce = r.current.map hexString :=
    congrArg Prod.fst h.current
  rw [matchesNonce, copy]
  cases r.current with
  | none => simp
  | some token => simp [Spells]

theorem tracks_line (h : Tracks l r) {out : Outside} {text : String}
    (writes : out.registry = none) (step : operate P l (.line out text) l') :
    Tracks l' (r.move (moveOf P l.server (.line out text))) := by
  obtain rfl := step
  have after := line_nonces (P := P) writes text l.server
  cases accepted : acceptedNonce P l.server (.line out text) with
  | none =>
    have move : moveOf P l.server (.line out text) = .idle := by simp [moveOf, accepted]
    rw [accepted] at after
    rw [move]
    refine ⟨h.valid, after.trans h.current, ?_, ?_⟩
    · simp [issuedNonce, accepted, Register.move, h.issued]
    · simpa [accepted, Register.move] using h.accepted
  | some nonce =>
    have move : moveOf P l.server (.line out text) = .accept out.nonce := by
      simp [moveOf, accepted]
    rw [accepted] at after
    rw [move]
    obtain ⟨token, current, spells⟩ := h.matches_iff.mp (acceptedNonce_matches accepted)
    refine ⟨valid_accept h.valid out.nonce, ?_, ?_, ?_⟩ <;>
      simp only [Register.move, current, issuedNonce, accepted, Option.map_some, Option.toList_some]
    · exact after
    · rw [h.issued]
    · exact List.rel_append h.accepted (.cons spells .nil)

theorem tracks_step (h : Tracks l r) {op : Op} (writes : op.writes = true)
    (step : operate P l op l') : Tracks l' (r.move (moveOf P l.server op)) := by
  cases op with
  | initializeNonce out =>
    obtain rfl := step
    have written : out.registry = none := by simpa [Op.writes] using writes
    obtain ⟨t, run, both⟩ := initializeNonce_ok written l.server.session.plugin
    refine ⟨valid_issue h.valid out.nonce, ?_, ?_, ?_⟩
    · simp only [perform, Server.mapPlugin, run]
      exact both
    · simp [issuedNonce, moveOf, Register.move, h.issued]
    · simpa [acceptedNonce, moveOf, Register.move] using h.accepted
  | clearNonce out =>
    obtain rfl := step
    have written : out.registry = none := by simpa [Op.writes] using writes
    refine ⟨valid_move h.valid .clear, clearNonce_final written _, ?_, ?_⟩
    · simp [issuedNonce, moveOf, Register.move, h.issued]
    · simpa [acceptedNonce, moveOf, Register.move] using h.accepted
  | connect =>
    obtain rfl := step
    refine ⟨h.valid, h.current, ?_, ?_⟩
    · simp [issuedNonce, moveOf, Register.move, h.issued]
    · simpa [acceptedNonce, moveOf, Register.move] using h.accepted
  | line out text => exact tracks_line h (by simpa [Op.writes] using writes) step

theorem tracks_first {plugin : Plugin} {out : Outside} (writes : out.registry = none)
    (step : operate P (Ledger.start plugin) (.initializeNonce out) l) :
    Tracks l (Register.fresh.move (.issue out.nonce)) := by
  obtain rfl := step
  obtain ⟨t, run, both⟩ := initializeNonce_ok writes plugin
  refine ⟨valid_issue valid_fresh out.nonce, ?_, rfl, .nil⟩
  simp only [perform, Server.mapPlugin, Ledger.start, Server.start, run]
  exact both

theorem tracks_run {ops : List Op} (run : Run (operate P) l ops l')
    (writes : ∀ op ∈ ops, op.writes = true) (h : Tracks l r) : ∃ r', Tracks l' r' := by
  induction run generalizing r with
  | nil l => exact ⟨r, h⟩
  | cons head _ ih =>
    exact ih (fun op hop => writes op (List.mem_cons_of_mem _ hop))
      (tracks_step h (writes _ (List.mem_cons_self ..)) head)

/-- After `Clear`, both copies stay absent until the next `Initialize`. -/
theorem cleared_run {ops : List Op} (run : Run (operate P) l ops l')
    (writes : ∀ op ∈ ops, op.writes = true) (quiet : ∀ op ∈ ops, op.isInitialize = false)
    (h : Tracks l r) (cleared : r.current = none) :
    ∃ r', Tracks l' r' ∧ r'.current = none := by
  induction run generalizing r with
  | nil l => exact ⟨r, h, cleared⟩
  | @cons l m l' op ops head _ ih =>
    refine ih (fun op hop => writes op (List.mem_cons_of_mem _ hop))
      (fun op hop => quiet op (List.mem_cons_of_mem _ hop))
      (tracks_step h (writes op (List.mem_cons_self ..)) head) (move_cleared cleared ?_)
    have other := quiet op (List.mem_cons_self ..)
    intro token issue
    cases op with
    | initializeNonce out => cases other
    | clearNonce out => cases issue
    | connect => cases issue
    | line out text =>
      simp only [moveOf] at issue
      split at issue <;> cases issue

end

theorem Spells.eq {nonce : String} {token token' : Bytes} (h : Spells nonce token)
    (h' : Spells nonce token') : token = token' := by
  unfold Spells at h h'
  rw [equalsIgnoreCase_iff] at h h'
  exact hexString_differs (equalsIgnoreCase_iff.mpr (h.symm.trans h'))

theorem unused_differs {accepted : List String} {tokens : List Bytes}
    (h : List.Forall₂ Spells accepted tokens) {nonce : String} {token : Bytes}
    (spells : Spells nonce token) (unused : token ∉ tokens) :
    ∀ used ∈ accepted, equalsIgnoreCase nonce used = false := by
  induction h with
  | nil => simp
  | @cons used token' accepted tokens first _ ih =>
    simp only [List.mem_cons, not_or] at unused
    intro other mem
    rcases List.mem_cons.mp mem with rfl | mem
    · rw [Bool.eq_false_iff]
      intro same
      have both : Spells nonce token' := by
        unfold Spells at first ⊢
        rw [equalsIgnoreCase_iff] at first same ⊢
        exact same.trans first
      exact unused.1 (spells.eq both)
    · exact ih unused.2 other mem

theorem accepted_apart {accepted : List String} {tokens : List Bytes}
    (h : List.Forall₂ Spells accepted tokens) (distinct : tokens.Nodup) :
    accepted.Pairwise fun a b => equalsIgnoreCase a b = false := by
  induction h with
  | nil => exact .nil
  | cons first rest ih =>
    rw [List.nodup_cons] at distinct
    exact .cons (unused_differs rest first distinct.1) (ih distinct.2)

theorem tracks_started {P : Platform} {plugin : Plugin} {out : Outside} {ops : List Op} {l : Ledger}
    (run : Run (operate P) (Ledger.start plugin) (.initializeNonce out :: ops) l)
    (writes : ∀ op ∈ Op.initializeNonce out :: ops, op.writes = true) : ∃ r, Tracks l r := by
  cases run with
  | cons head tail =>
    have written : out.registry = none := by
      simpa [Op.writes] using writes _ (List.mem_cons_self ..)
    exact tracks_run tail (fun op hop => writes op (List.mem_cons_of_mem _ hop))
      (tracks_first written head)

theorem Tracks.consumes_iff {l : Ledger} {r : Register Bytes} (h : Tracks l r) {out : Outside}
    (writes : out.registry = none) {nonce : String} :
    (∃ t, consumeNonce out nonce l.server.session.plugin = .ok true t) ↔
      ∃ value, l.server.session.plugin.registryNonce = some value ∧
        equalsIgnoreCase nonce value = true := by
  have copies : l.server.session.plugin.nonce = l.server.session.plugin.registryNonce :=
    (congrArg Prod.fst h.current).trans (congrArg Prod.snd h.current).symm
  have accepts : (∃ t, consumeNonce out nonce l.server.session.plugin = .ok true t) ↔
      matchesNonce l.server.session.plugin nonce = true := by
    cases matched : matchesNonce l.server.session.plugin nonce with
    | false => simp [consumeNonce_differs matched]
    | true => exact ⟨fun _ => rfl, fun _ => ⟨_, consumeNonce_matches writes matched⟩⟩
  rw [accepts, matchesNonce, copies]
  cases l.server.session.plugin.registryNonce <;> simp

theorem acceptedNonce_of_none {P : Platform} {s : Server} (absent : s.session.plugin.nonce = none)
    (op : Op) : acceptedNonce P s op = none := by
  cases accepted : acceptedNonce P s op with
  | none => rfl
  | some nonce =>
    have matched := acceptedNonce_matches (l := ⟨s, [], []⟩) accepted
    rw [matchesNonce, absent] at matched
    cases matched

/-- In every run that starts with `Initialize`, whose registry writes succeed and whose fresh
nonces differ: no nonce is accepted twice, not even in other letters; one that is accepted is
the last one issued; the registry holds the value that `ConsumeNonce` compares with; and after
`Clear` nothing is accepted before the next `Initialize`. -/
theorem nonce_single_use (P : Platform) (plugin : Plugin) (out : Outside) (ops : List Op)
    (l : Ledger) (run : Run (operate P) (Ledger.start plugin) (.initializeNonce out :: ops) l)
    (writes : ∀ op ∈ Op.initializeNonce out :: ops, op.writes = true) (fresh : l.issued.Nodup) :
    (l.accepted.Pairwise fun a b => equalsIgnoreCase a b = false) ∧
    (∀ op nonce, acceptedNonce P l.server op = some nonce → ∃ token,
      l.issued.getLast? = some token ∧ equalsIgnoreCase nonce (hexString token) = true ∧
        ∀ used ∈ l.accepted, equalsIgnoreCase nonce used = false) ∧
    l.server.session.plugin.registryNonce = l.server.session.plugin.nonce ∧
    (∀ out nonce, out.registry = none →
      ((∃ t, consumeNonce out nonce l.server.session.plugin = .ok true t) ↔
        ∃ value, l.server.session.plugin.registryNonce = some value ∧
          equalsIgnoreCase nonce value = true)) ∧
    ∀ before out after, ops = before ++ .clearNonce out :: after →
      (∀ op ∈ after, op.isInitialize = false) →
        l.server.session.plugin.registryNonce = none ∧
          ∀ op, acceptedNonce P l.server op = none := by
  obtain ⟨r, tracks⟩ := tracks_started run writes
  have distinct : r.issued.Nodup := tracks.issued ▸ fresh
  refine ⟨accepted_apart tracks.accepted (tracks.valid.accepted_nodup distinct), ?_, ?_,
    fun out nonce written => tracks.consumes_iff written, ?_⟩
  · intro op nonce accepted
    obtain ⟨token, current, spells⟩ := tracks.matches_iff.mp (acceptedNonce_matches accepted)
    obtain ⟨last, unused⟩ := tracks.valid.current_unused distinct current
    exact ⟨token, tracks.issued ▸ last, spells, unused_differs tracks.accepted spells unused⟩
  · exact (congrArg Prod.snd tracks.current).trans (congrArg Prod.fst tracks.current).symm
  · rintro before cleared after rfl quiet
    have whole : Run (operate P) (Ledger.start plugin)
        ((.initializeNonce out :: before) ++ (.clearNonce cleared :: after)) l := run
    obtain ⟨u, first, second⟩ := whole.split
    have writesFirst : ∀ op ∈ Op.initializeNonce out :: before, op.writes = true :=
      fun op hop => writes op (List.mem_append_left _ hop)
    have writesSecond : ∀ op ∈ Op.clearNonce cleared :: after, op.writes = true :=
      fun op hop => writes op (List.mem_append_right (Op.initializeNonce out :: before) hop)
    obtain ⟨r, tracks⟩ := tracks_started first writesFirst
    cases second with
    | cons head tail =>
      have step := tracks_step tracks (writesSecond _ (List.mem_cons_self ..)) head
      obtain ⟨r', tracks', none⟩ := cleared_run tail
        (fun op hop => writesSecond op (List.mem_cons_of_mem _ hop)) quiet step rfl
      have absent := tracks'.current
      rw [none] at absent
      exact ⟨congrArg Prod.snd absent, acceptedNonce_of_none (congrArg Prod.fst absent)⟩

namespace Sample

def initialOutside : Outside :=
  { VaultOutcomes.Sample.outside with
    nonce := List.replicate 32 0xAB
    nonce_length := by simp }

def upperNonce : String := String.ofList (List.replicate 32 ['A', 'B']).flatten

def helloLine : String :=
  "\x7b\"jsonrpc\":\"2.0\",\"id\":1,\"method\":\"keepasskeywin.hello\",\"params\":\x7b" ++
  "\"clientPkgFamilyName\":\"KeePassKeyWin.Provider_4fv17arhjxxvg\"," ++
  "\"handshakeNonce\":\"" ++ upperNonce ++ "\",\"opSignPublicKeyB64\":\"RUNTMQ==\"\x7d\x7d"

def helloRequest : JsonRpcRequest where
  id := some (.integer 1)
  method := helloMethod
  params := some (.object [("clientPkgFamilyName", .str expectedPkgFamily),
    ("handshakeNonce", .str upperNonce), ("opSignPublicKeyB64", .str "RUNTMQ==")])

def platform : Platform := VaultOutcomes.Sample.platform [(helloLine, helloRequest)]

def ops : List Op := [.connect, .line VaultOutcomes.Sample.outside helloLine]

def ledger (ops : List Op) : Ledger :=
  ops.foldl (fun l op => ⟨perform platform l.server op,
    l.issued ++ (issuedNonce platform l.server op).toList,
    l.accepted ++ (acceptedNonce platform l.server op).toList⟩)
    (Ledger.start VaultOutcomes.Sample.plugin)

theorem visible_helloLine : isBlank helloLine = false := by
  unfold helloLine
  refine isBlank_append (isBlank_append (isBlank_append (isBlank_append ?_ _) _) _) _
  decide +kernel

theorem parse_helloLine : parseLine platform helloLine = .ok helloRequest := by
  simp [parseLine, platform, VaultOutcomes.Sample.platform, helloRequest, helloMethod]

theorem accepts : acceptedNonce platform (perform platform (perform platform (Server.start
    VaultOutcomes.Sample.plugin) (.initializeNonce initialOutside)) .connect)
      (.line VaultOutcomes.Sample.outside helloLine) = some upperNonce := by
  rw [acceptedNonce_hello _ visible_helloLine parse_helloLine rfl]
  decide +kernel

theorem ledger_accepted :
    (ledger (.initializeNonce initialOutside :: ops)).accepted = [upperNonce] := by
  simp only [ledger, ops, List.foldl_cons, List.foldl_nil, Ledger.start, accepts]
  rfl

theorem ledger_issued : (ledger (.initializeNonce initialOutside :: ops)).issued =
    [initialOutside.nonce, VaultOutcomes.Sample.outside.nonce] := by
  simp only [ledger, ops, List.foldl_cons, List.foldl_nil, Ledger.start, issuedNonce, accepts]
  rfl

end Sample

theorem nonce_single_use_sample :
    (Sample.ledger (.initializeNonce Sample.initialOutside :: Sample.ops)).accepted =
        [Sample.upperNonce] ∧
      ((Sample.ledger (.initializeNonce Sample.initialOutside :: Sample.ops)).accepted.Pairwise
        fun a b => equalsIgnoreCase a b = false) := by
  have fresh : (Sample.ledger (.initializeNonce Sample.initialOutside :: Sample.ops)).issued.Nodup := by
    rw [Sample.ledger_issued]
    decide +kernel
  exact ⟨Sample.ledger_accepted, (nonce_single_use Sample.platform VaultOutcomes.Sample.plugin
    Sample.initialOutside Sample.ops _ (.cons rfl (.cons rfl (.cons rfl (.nil _)))) (by decide)
    fresh).1⟩

end KeePassKeyWin.NonceSafety
