import KeePassKeyWin.ConnectionSafety
import KeePassKeyWin.ResponsePairing

set_option autoImplicit false

/-!
# Calls and exchanges over one pipe

The bytes between the two ends, with the server that answers their lines and the requests that
they carry. Neither end compares an id; that a call is served once at most, and returns the answer
to its own request, comes from the lines alone.
-/
namespace KeePassKeyWin.WiredCalls
open ByteStrings JsonRpc PlatformServices CredentialEncodings PasskeyStore VaultHandler PipeServer
open VaultOutcomes VaultRuns SidecarCalls TransitionRuns
open ConnectionSafety ResponsePairing

/-- `read_line`, which fails on a text that is cut within a character, and then
`serde_json::from_str`. -/
structure JsonReader where
  fromStr : Bytes → Except ClientError JsonRpcResponse
  empty : fromStr [] = .error .json
  errors : ∀ {bytes e}, fromStr bytes = .error e → e = .json ∨ e = .io .other

def JsonReader.result (R : JsonReader) (bytes : Bytes) : Except ClientError JToken :=
  R.fromStr bytes >>= readResponse

/-- A text of the response, as `JsonConvert` writes it: an object, of which no part is one. -/
structure Prints (R : JsonReader) (bytes : Bytes) (response : JsonRpcResponse) : Prop where
  reads : R.fromStr bytes = .ok response
  parts : ∀ part, part <+: bytes → part ≠ bytes → ∃ e, R.fromStr part = .error e

/-- A text of the request, as `serde_json` writes it: an object, of which no part is one. `ReadLine`
would also stop at a carriage return. -/
structure Sends (P : Platform) (line : Bytes) (request : JsonRpcRequest) : Prop where
  parses : parseLine P (getString line) = .ok request
  parts : ∀ part, part <+: line → part ≠ line → ∃ response, parseLine P (getString part) =
    .error response
  visible : isBlank (getString line) = false
  feed : newline ∉ line
  carriageReturn : (13 : UInt8) ∉ line

def processLine (P : Platform) (out : Outside) (text : String) (s : Session) : JsonRpcResponse :=
  match parseLine P text with
  | .error response => response
  | .ok request => (respond P out request s).1

def textOf (line : List Tagged) : String := getString (line.map Tagged.byte)

/-- The requests of the calls, and the calls whose requests the server has answered. -/
structure Conversation where
  wire : Connection
  server : Server
  requests : List JsonRpcRequest
  served : List ℕ

def Conversation.opened (plugin : Plugin) : Conversation := ⟨.opened, Server.start plugin, [], []⟩

def Conversation.request (s : Conversation) (method : String) (params : JToken) : JsonRpcRequest :=
  Link.request ⟨(s.wire.calls + 1) % 2 ^ 32, s.server.session.context⟩ method params

/-- The exchanges, with the calls they are for. -/
def Conversation.answers (s : Conversation) : List (ℕ × Exchange) :=
  s.served.zip s.server.exchanges

inductive Act where
  | call (method : String) (params : JToken) (line : Bytes)
  | serve (out : Outside) (response : Bytes)
  | environment (plugin : Plugin)
  | pipe (act : ResponsePairing.Act)

/-- What happens on the pipe apart from a call and an answer. -/
def aside : ResponsePairing.Act → Bool
  | .call _ | .serve _ => false
  | _ => true

def servedBy (P : Platform) (text : String) (call : ℕ) (served : List ℕ) : List ℕ :=
  match parseLine P text with
  | .error _ => served
  | .ok _ => served ++ [call]

def step (P : Platform) (R : JsonReader) (s : Conversation) (act : Act) (t : Conversation) : Prop :=
  match act with
  | .call method params line => Sends P line (s.request method params) ∧
      ∃ wire, perform s.wire (.call line) = some wire ∧
        t = { s with wire, requests := s.requests ++ [s.request method params] }
  | .serve out response => ∃ line call rest,
      nextLine s.wire.ended s.wire.wire.up = some (line, call, rest) ∧
      Prints R response (processLine P out (textOf line) s.server.session) ∧
      ∃ wire, perform s.wire (.serve response) = some wire ∧
        t = { s with
          wire
          server := s.server.receive P out (textOf line)
          served := servedBy P (textOf line) call s.served }
  | .environment plugin => Owned s.server.session.plugin plugin ∧
      t = { s with server := ⟨⟨s.server.session.context, plugin⟩, s.server.exchanges⟩ }
  | .pipe act => aside act = true ∧ ∃ wire, perform s.wire act = some wire ∧ t = { s with wire }

/-- An error that keeps the pipe in use strikes before a byte is written, or when the server is
gone and all it wrote is read. -/
def Clean (s : Conversation) (act : Act) : Prop :=
  ∀ kind, act = .pipe (.ioError kind) → classifyRpcError (.io kind) = .other →
    (s.wire.phase.sent = false ∧ s.wire.wire.up = []) ∨ s.wire.wire.dry = true

def lineOf (call : ℕ) (bytes : Bytes) : List Tagged := tagged call bytes ++ [lineEnd call]

/-- The line of the present call, which the server has not answered. -/
structure Pending (P : Platform) (s : Conversation) (line : Bytes) : Prop where
  sends : ∃ request, s.requests.getLast? = some request ∧ Sends P line request
  unserved : ∀ call ∈ s.served, call < s.wire.calls

theorem Pending.feed {P : Platform} {s : Conversation} {line : Bytes} (h : Pending P s line) :
    newline ∉ line :=
  let ⟨_, _, sends⟩ := h.sends
  sends.feed

def Answering (R : JsonReader) (s : Conversation) (bytes : Bytes) : Prop :=
  newline ∉ bytes ∧ ∃ x, (s.wire.calls, x) ∈ s.answers ∧ Prints R bytes x.response

/-- Once its line is written, a call waits for the server to answer, or for the rest of the answer,
or for as much of it as a server that is gone has left. -/
inductive Awaiting (P : Platform) (R : JsonReader) (s : Conversation) (buf : List Tagged) : Prop
  | request (line : Bytes) (pending : Pending P s line)
      (up : s.wire.wire.up = lineOf s.wire.calls line) (down : s.wire.wire.down = []) (read : buf = [])
  | response (bytes : Bytes) (answering : Answering R s bytes) (up : s.wire.wire.up = [])
      (rest : buf ++ s.wire.wire.down = lineOf s.wire.calls bytes)
  | cut (closed : s.wire.wire.closed = true)
      (rest : buf ++ s.wire.wire.down = [] ∨ ∃ bytes, Answering R s bytes ∧
        buf ++ s.wire.wire.down <+: lineOf s.wire.calls bytes)

/-- At most a part of the line of the present call goes up, unless the server is gone. -/
def Upward (P : Platform) (s : Conversation) : Prop :=
  s.wire.wire.closed = true ∨ s.wire.wire.up = [] ∨
    ∃ line, Pending P s line ∧ s.wire.wire.up <+: lineOf s.wire.calls line

def PhaseOk (P : Platform) (R : JsonReader) (s : Conversation) : Phase → Prop
  | .idle => s.wire.wire.down = [] ∧ (s.wire.wire.closed = true ∨ s.wire.wire.up = [])
  | .writing call rest => call = s.wire.calls ∧ s.wire.wire.down = [] ∧ rest ≠ [] ∧
      ∃ line, Pending P s line ∧
        (s.wire.wire.closed = true ∨ s.wire.wire.up ++ rest = lineOf s.wire.calls line)
  | .flushing call => call = s.wire.calls ∧ Awaiting P R s []
  | .reading call buf => call = s.wire.calls ∧ NoLine buf ∧ Awaiting P R s buf
  | .dropped => Upward P s

/-- The result of a call is what the server answered to its request, or an error that says that the
server was gone before the answer was read. -/
def Settled (R : JsonReader) (s : Conversation) (r : ResponsePairing.Returned) : Prop :=
  (∃ x, (r.call, x) ∈ s.answers ∧
    R.result (r.line.map Tagged.byte) = readResponse x.response) ∨
  s.wire.wire.closed = true ∧
    (R.result (r.line.map Tagged.byte) = .error .json ∨
      R.result (r.line.map Tagged.byte) = .error (.io .other))

/-- What the server has answered: the requests of the calls, in order, and none twice. -/
structure AtMostOnce (P : Platform) (plugin : Plugin) (s : Conversation) : Prop where
  server : ∃ events, Run (PipeServer.step P) (Server.start plugin) events s.server
  length : s.served.length = s.server.exchanges.length
  increasing : s.served.Pairwise (· < ·)
  own : ∀ call x, (call, x) ∈ s.answers →
    ∃ i, call = i + 1 ∧ s.requests[i]? = some x.request ∧ x.response.id = x.request.id

structure Inv (P : Platform) (R : JsonReader) (plugin : Plugin) (s : Conversation) : Prop extends
    AtMostOnce P plugin s where
  requests : s.requests.length = s.wire.calls
  bounded : ∀ call ∈ s.served, call ≤ s.wire.calls
  phase : PhaseOk P R s s.wire.phase
  returned : ∀ r ∈ s.wire.returned, Settled R s r

theorem map_byte_tagged (call : ℕ) (bytes : Bytes) : (tagged call bytes).map Tagged.byte = bytes := by
  rw [tagged, List.map_map]
  exact List.map_id bytes

theorem lineOf_ne_nil (call : ℕ) (bytes : Bytes) : lineOf call bytes ≠ [] :=
  List.append_ne_nil_of_right_ne_nil _ (List.cons_ne_nil _ _)

theorem nextLine_append {before : List Tagged} (h : NoLine before) {ending : Tagged}
    (ends : ending.byte = newline) (ended : Bool) (rest : List Tagged) :
    nextLine ended (before ++ ending :: rest) = some (before, ending.call, rest) := by
  have keeps : ∀ b ∈ before, within b = true := fun b hb => by simpa [within] using h b hb
  have stops : within ending = false := by simp [within, ends]
  have dropped : (before ++ ending :: rest).dropWhile within = ending :: rest := by
    rw [List.dropWhile_append_of_pos keeps]
    simp [stops]
  have taken : (before ++ ending :: rest).takeWhile within = before := by
    rw [List.takeWhile_append_of_pos keeps]
    simp [stops]
  simp only [nextLine, dropped, taken]

theorem tagged_of_part {call : ℕ} {bytes : Bytes} {up : List Tagged}
    (part : up <+: tagged call bytes) : ∃ text, text <+: bytes ∧ up = tagged call text := by
  obtain ⟨text, cut, same⟩ := List.prefix_map_iff.mp part
  exact ⟨text, cut, same⟩

theorem lineOf_append_ne {call : ℕ} {bytes line : Bytes} (feed : newline ∉ bytes)
    {rest : List Tagged} (more : rest ≠ []) : lineOf call line ++ rest ≠ lineOf call bytes := by
  intro same
  have part : lineOf call line <+: lineOf call bytes := ⟨rest, same⟩
  rcases List.prefix_concat_iff.mp part with whole | within
  · change lineOf call line = lineOf call bytes at whole
    rw [whole] at same
    exact more (List.append_right_eq_self.mp same)
  · have mem : lineEnd call ∈ tagged call bytes :=
      within.subset (List.mem_append_right _ (List.mem_singleton_self _))
    exact noLine_tagged feed _ mem rfl

theorem nextLine_part {call : ℕ} {bytes : Bytes} (feed : newline ∉ bytes) {up : List Tagged}
    (part : up <+: lineOf call bytes) {ended : Bool} {found : List Tagged × ℕ × List Tagged}
    (next : nextLine ended up = some found) :
    up = lineOf call bytes ∧ found = (tagged call bytes, call, []) ∨
      ended = true ∧ ∃ text, text <+: bytes ∧ found = (tagged call text, call, []) := by
  rcases List.prefix_concat_iff.mp part with rfl | within
  · rw [nextLine_of_line (noLine_tagged feed)] at next
    exact .inl ⟨rfl, (Option.some.inj next).symm⟩
  · right
    obtain ⟨text, cut, rfl⟩ := tagged_of_part within
    have clear : NoLine (tagged call text) := noLine_tagged fun mem => feed (cut.subset mem)
    cases ended with
    | false =>
      rw [nextLine_of_noLine clear] at next
      cases next
    | true =>
      rw [nextLine, dropWhile_of_noLine clear] at next
      obtain ⟨last, mem, rfl⟩ := Option.map_eq_some_iff.mp next
      rw [of_tagged call text last (List.mem_of_getLast? mem)]
      exact ⟨rfl, text, cut, rfl⟩

theorem part_of_noLine {call : ℕ} {bytes : Bytes} {buf : List Tagged} (noLine : NoLine buf)
    (part : buf <+: lineOf call bytes) : buf.map Tagged.byte <+: bytes := by
  rcases List.prefix_concat_iff.mp part with rfl | within
  · exact absurd rfl (noLine (lineEnd call) (List.mem_append_right _ (List.mem_singleton_self _)))
  · have mapped := within.map Tagged.byte
    rwa [map_byte_tagged] at mapped

section
variable {P : Platform} {R : JsonReader} {plugin : Plugin} {s t : Conversation}

theorem Upward.of_phase (h : PhaseOk P R s s.wire.phase) : Upward P s := by
  cases phase : s.wire.phase with
  | idle =>
    rw [phase] at h
    exact h.2.imp_right .inl
  | writing call rest =>
    rw [phase] at h
    obtain ⟨_, _, _, line, pending, whole⟩ := h
    exact whole.imp_right fun same => .inr ⟨line, pending, rest, same⟩
  | flushing call =>
    rw [phase] at h
    cases h.2 with
    | request line pending up _ _ => exact .inr (.inr ⟨line, pending, up ▸ List.prefix_rfl⟩)
    | response _ _ up _ => exact .inr (.inl up)
    | cut closed _ => exact .inl closed
  | reading call buf =>
    rw [phase] at h
    cases h.2.2 with
    | request line pending up _ _ => exact .inr (.inr ⟨line, pending, up ▸ List.prefix_rfl⟩)
    | response _ _ up _ => exact .inr (.inl up)
    | cut closed _ => exact .inl closed
  | dropped =>
    rw [phase] at h
    exact h

theorem Settled.mono {r : ResponsePairing.Returned} (h : Settled R s r)
    (answers : s.answers ⊆ t.answers)
    (closed : s.wire.wire.closed = true → t.wire.wire.closed = true) : Settled R t r := by
  rcases h with ⟨x, mem, same⟩ | ⟨gone, e⟩
  · exact .inl ⟨x, answers mem, same⟩
  · exact .inr ⟨closed gone, e⟩

theorem inv_aside (h : Inv P R plugin s) {wire : Connection} (calls : wire.calls = s.wire.calls)
    (closed : s.wire.wire.closed = true → wire.wire.closed = true)
    (phase : PhaseOk P R { s with wire } wire.phase)
    (returned : ∀ r ∈ wire.returned, r ∈ s.wire.returned ∨ Settled R { s with wire } r) :
    Inv P R plugin { s with wire } where
  server := h.server
  length := h.length
  increasing := h.increasing
  own := h.own
  requests := h.requests.trans calls.symm
  bounded call mem := calls.symm ▸ h.bounded call mem
  phase := phase
  returned r mem := (returned r mem).elim
    (fun old => (h.returned r old).mono (List.Subset.refl _) closed) id

theorem inv_call (h : Inv P R plugin s) {method : String} {params : JToken} {line : Bytes}
    (hs : step P R s (.call method params line) t) : Inv P R plugin t := by
  obtain ⟨sends, wire, performed, rfl⟩ := hs
  simp only [perform] at performed
  split_ifs at performed with enabled
  obtain rfl := Option.some.inj performed
  have ok := h.phase
  rw [enabled.1] at ok
  obtain ⟨down, up⟩ := ok
  have unserved : ∀ call ∈ s.served, call < s.wire.calls + 1 := fun call mem =>
    Nat.lt_succ_of_le (h.bounded call mem)
  refine ⟨⟨h.server, h.length, h.increasing, ?_⟩, ?_, fun call mem => (unserved call mem).le, ?_,
    h.returned⟩
  · intro call x mem
    obtain ⟨i, same, own, ids⟩ := h.own call x mem
    refine ⟨i, same, ?_, ids⟩
    change (s.requests ++ [_])[i]? = _
    rw [List.getElem?_append_left (List.getElem?_eq_some_iff.mp own).1, own]
  · change (s.requests ++ [_]).length = s.wire.calls + 1
    rw [List.length_append, h.requests, List.length_singleton]
  · refine ⟨rfl, down, lineOf_ne_nil _ line, line,
      ⟨⟨_, List.getLast?_concat, sends⟩, unserved⟩, up.imp_right fun empty => ?_⟩
    change s.wire.wire.up ++ _ = _
    rw [empty, List.nil_append]
    rfl

theorem inv_write (h : Inv P R plugin s) {count : ℕ}
    (hs : step P R s (.pipe (.write count)) t) : Inv P R plugin t := by
  obtain ⟨_, wire, performed, rfl⟩ := hs
  simp only [perform] at performed
  split at performed
  · rename_i call rest writing
    obtain rfl := Option.some.inj performed
    have ok := h.phase
    rw [writing] at ok
    obtain ⟨rfl, down, ne, line, pending, whole⟩ := ok
    refine inv_aside h rfl id ?_ fun r mem => .inl mem
    by_cases short : count < rest.length
    · simp only [if_pos short]
      refine ⟨rfl, down, ?_, line, ⟨pending.sends, pending.unserved⟩,
        whole.imp_right fun same => ?_⟩
      · intro none
        exact absurd (List.drop_eq_nil_iff.mp none) (Nat.not_le.mpr short)
      · change s.wire.wire.up ++ rest.take count ++ rest.drop count = _
        rw [List.append_assoc, List.take_append_drop, same]
    · simp only [if_neg short]
      refine ⟨rfl, ?_⟩
      rcases whole with closed | same
      · exact .cut closed (.inl down)
      · refine .request line ⟨pending.sends, pending.unserved⟩ ?_ down rfl
        change s.wire.wire.up ++ rest.take count = _
        rw [List.take_of_length_le (Nat.not_lt.mp short), same]
  · cases performed

theorem Awaiting.congr {phase : Phase} {returned : List ResponsePairing.Returned}
    {buf : List Tagged} (h : Awaiting P R s buf) :
    Awaiting P R { s with wire := { s.wire with phase, returned } } buf := by
  cases h with
  | request line pending up down read =>
    exact .request line ⟨pending.sends, pending.unserved⟩ up down read
  | response bytes answering up rest => exact .response bytes answering up rest
  | cut closed rest => exact .cut closed rest

theorem inv_flush (h : Inv P R plugin s) (hs : step P R s (.pipe .flush) t) : Inv P R plugin t := by
  obtain ⟨_, wire, performed, rfl⟩ := hs
  simp only [perform] at performed
  split at performed
  · rename_i call flushing
    obtain rfl := Option.some.inj performed
    have ok := h.phase
    rw [flushing] at ok
    exact inv_aside h rfl id ⟨ok.1, noLine_nil, ok.2.congr⟩ fun r mem => .inl mem
  · cases performed

theorem settled_of_answering {call : ℕ} {bytes : Bytes} (answering : Answering R s bytes)
    (present : call = s.wire.calls) : Settled R s ⟨call, tagged call bytes⟩ := by
  obtain ⟨_, x, mem, prints⟩ := answering
  refine .inl ⟨x, present ▸ mem, ?_⟩
  change R.result ((tagged call bytes).map Tagged.byte) = _
  rw [map_byte_tagged, JsonReader.result, prints.reads]
  rfl

theorem settled_read {buf rest : List Tagged} {b : Tagged} (noLine : NoLine buf)
    (awaiting : Awaiting P R s buf) (down : s.wire.wire.down = b :: rest) :
    (b.byte = newline → rest = [] ∧ (s.wire.wire.closed = true ∨ s.wire.wire.up = []) ∧
      Settled R s ⟨s.wire.calls, buf⟩) ∧
    (b.byte ≠ newline → Awaiting P R { s with wire := { s.wire with
      wire := { s.wire.wire with down := rest }, phase := .reading s.wire.calls (buf ++ [b]) } }
        (buf ++ [b])) := by
  have ends : ∀ bytes, Answering R s bytes → buf ++ b :: rest <+: lineOf s.wire.calls bytes →
      b.byte = newline → rest = [] ∧ Settled R s ⟨s.wire.calls, buf⟩ := by
    intro bytes answering part feed
    rcases nextLine_part answering.1 part (nextLine_append noLine feed false rest) with
      ⟨_, found⟩ | ⟨ended, _⟩
    · obtain ⟨rfl, tail⟩ := Prod.mk.inj found
      obtain ⟨_, rfl⟩ := Prod.mk.inj tail
      exact ⟨rfl, settled_of_answering answering rfl⟩
    · cases ended
  have shifted : buf ++ b :: rest = buf ++ [b] ++ rest := by simp
  cases awaiting with
  | request line pending up empty read =>
    rw [down] at empty
    cases empty
  | response bytes answering up same =>
    rw [down] at same
    constructor
    · intro feed
      obtain ⟨none, settled⟩ := ends bytes answering (same ▸ List.prefix_rfl) feed
      exact ⟨none, .inr up, settled⟩
    · intro other
      refine .response bytes answering up ?_
      rw [← same, shifted]
  | cut closed part =>
    rw [down] at part
    rcases part with none | ⟨bytes, answering, part⟩
    · exact absurd none (List.append_ne_nil_of_right_ne_nil _ (List.cons_ne_nil _ _))
    · constructor
      · intro feed
        obtain ⟨none, settled⟩ := ends bytes answering part feed
        exact ⟨none, .inl closed, settled⟩
      · intro other
        refine .cut closed (.inr ⟨bytes, answering, ?_⟩)
        rw [← shifted]
        exact part

theorem inv_read (h : Inv P R plugin s) (hs : step P R s (.pipe .read) t) : Inv P R plugin t := by
  obtain ⟨_, wire, performed, rfl⟩ := hs
  simp only [perform] at performed
  split at performed
  · rename_i call buf b rest reading down
    have ok := h.phase
    rw [reading] at ok
    obtain ⟨rfl, noLine, awaiting⟩ := ok
    obtain ⟨ended, more⟩ := settled_read noLine awaiting down
    split_ifs at performed with feed
    · obtain rfl := Option.some.inj performed
      obtain ⟨rfl, up, settled⟩ := ended feed
      refine inv_aside h rfl id ⟨rfl, up⟩ fun r mem => ?_
      rcases List.mem_append.mp mem with old | new
      · exact .inl old
      · rw [List.mem_singleton.mp new]
        exact .inr settled
    · obtain rfl := Option.some.inj performed
      refine inv_aside h rfl id ⟨rfl, noLine_append noLine ?_, more feed⟩ fun r mem => .inl mem
      intro y mem
      rw [List.mem_singleton.mp mem]
      exact feed
  · cases performed

theorem settled_eof {buf : List Tagged} (noLine : NoLine buf) (awaiting : Awaiting P R s buf)
    (down : s.wire.wire.down = []) (closed : s.wire.wire.closed = true) :
    Settled R s ⟨s.wire.calls, buf⟩ := by
  have nothing : buf = [] → Settled R s ⟨s.wire.calls, buf⟩ := by
    rintro rfl
    refine .inr ⟨closed, .inl ?_⟩
    change R.fromStr [] >>= readResponse = _
    rw [R.empty]
    rfl
  have some : ∀ bytes, Answering R s bytes → buf <+: lineOf s.wire.calls bytes →
      Settled R s ⟨s.wire.calls, buf⟩ := by
    intro bytes answering part
    have read := part_of_noLine noLine part
    obtain ⟨_, x, mem, prints⟩ := answering
    by_cases whole : buf.map Tagged.byte = bytes
    · refine .inl ⟨x, mem, ?_⟩
      change R.result (buf.map Tagged.byte) = _
      rw [whole, JsonReader.result, prints.reads]
      rfl
    · obtain ⟨e, fails⟩ := prints.parts _ read whole
      refine .inr ⟨closed, ?_⟩
      change R.fromStr (buf.map Tagged.byte) >>= readResponse = _ ∨ _
      rw [JsonReader.result, fails]
      rcases R.errors fails with rfl | rfl
      · exact .inl rfl
      · exact .inr rfl
  cases awaiting with
  | request line pending up empty read => exact nothing read
  | response bytes answering up same =>
    rw [down, List.append_nil] at same
    exact some bytes answering (same ▸ List.prefix_rfl)
  | cut _ part =>
    rw [down, List.append_nil] at part
    rcases part with none | ⟨bytes, answering, part⟩
    · exact nothing none
    · exact some bytes answering part

theorem inv_eof (h : Inv P R plugin s) (hs : step P R s (.pipe .eof) t) : Inv P R plugin t := by
  obtain ⟨_, wire, performed, rfl⟩ := hs
  simp only [perform] at performed
  split at performed
  · rename_i call buf reading down closed
    obtain rfl := Option.some.inj performed
    have ok := h.phase
    rw [reading] at ok
    obtain ⟨rfl, noLine, awaiting⟩ := ok
    have settled := settled_eof noLine awaiting down closed
    refine inv_aside h rfl id ⟨down, .inl closed⟩ fun r mem => ?_
    rcases List.mem_append.mp mem with old | new
    · exact .inl old
    · rw [List.mem_singleton.mp new]
      exact .inr settled
  · cases performed

theorem inv_ioError (h : Inv P R plugin s) {kind : ErrorKind}
    (clean : Clean s (.pipe (.ioError kind)))
    (hs : step P R s (.pipe (.ioError kind)) t) : Inv P R plugin t := by
  obtain ⟨_, wire, performed, rfl⟩ := hs
  have busy : s.wire.phase ≠ .idle ∧ s.wire.phase ≠ .dropped ∧
      wire = { s.wire with phase := afterError kind } := by
    simp only [perform] at performed
    split at performed
    · cases performed
    · cases performed
    · rename_i idle dropped
      exact ⟨idle, dropped, (Option.some.inj performed).symm⟩
  obtain ⟨idle, dropped, rfl⟩ := busy
  refine inv_aside h rfl id ?_ fun r mem => .inl mem
  have ok := h.phase
  cases class_ : classifyRpcError (.io kind) with
  | stale =>
    have up : Upward P s := .of_phase ok
    simp only [afterError, class_]
    refine up.imp_right (Or.imp_right ?_)
    rintro ⟨line, pending, part⟩
    exact ⟨line, ⟨pending.sends, pending.unserved⟩, part⟩
  | other =>
    simp only [afterError, class_]
    rcases clean kind rfl class_ with ⟨unsent, up⟩ | dry
    · cases phase : s.wire.phase with
      | idle => exact absurd phase idle
      | dropped => exact absurd phase dropped
      | flushing call => simp [phase, Phase.sent] at unsent
      | reading call buf => simp [phase, Phase.sent] at unsent
      | writing call rest =>
        rw [phase] at ok
        exact ⟨ok.2.1, .inr up⟩
    · obtain ⟨closed, down⟩ := Bool.and_eq_true_iff.mp dry
      exact ⟨of_decide_eq_true down, .inl closed⟩

theorem Awaiting.close {buf : List Tagged} (h : Awaiting P R s buf) (kept : ℕ) :
    Awaiting P R { s with wire := { s.wire with
      wire := { s.wire.wire with closed := true, down := s.wire.wire.down.take kept } } } buf := by
  have shorter : buf ++ s.wire.wire.down.take kept <+: buf ++ s.wire.wire.down :=
    (List.prefix_append_right_inj buf).mpr (List.take_prefix _ _)
  cases h with
  | request line pending up down read =>
    refine .cut rfl (.inl ?_)
    change buf ++ s.wire.wire.down.take kept = []
    rw [read, down, List.take_nil, List.append_nil]
  | response bytes answering up rest =>
    exact .cut rfl (.inr ⟨bytes, answering, shorter.trans (rest ▸ List.prefix_rfl)⟩)
  | cut closed rest =>
    refine .cut rfl (rest.imp (fun none => ?_) fun ⟨bytes, answering, part⟩ =>
      ⟨bytes, answering, shorter.trans part⟩)
    exact List.prefix_nil.mp (none ▸ shorter)

theorem inv_close (h : Inv P R plugin s) {kept : ℕ} (hs : step P R s (.pipe (.close kept)) t) :
    Inv P R plugin t := by
  obtain ⟨_, wire, performed, rfl⟩ := hs
  obtain rfl := Option.some.inj performed
  refine inv_aside h rfl (fun _ => rfl) ?_ fun r mem => .inl mem
  have ok := h.phase
  have taken : s.wire.wire.down = [] → s.wire.wire.down.take kept = [] := fun none => by
    rw [none, List.take_nil]
  change PhaseOk P R _ s.wire.phase
  cases phase : s.wire.phase with
  | idle =>
    rw [phase] at ok
    exact ⟨taken ok.1, .inl rfl⟩
  | writing call rest =>
    rw [phase] at ok
    obtain ⟨present, down, ne, line, pending, _⟩ := ok
    exact ⟨present, taken down, ne, line, ⟨pending.sends, pending.unserved⟩, .inl rfl⟩
  | flushing call =>
    rw [phase] at ok
    exact ⟨ok.1, (ok.2.close kept).congr⟩
  | reading call buf =>
    rw [phase] at ok
    exact ⟨ok.1, ok.2.1, (ok.2.2.close kept).congr⟩
  | dropped => exact .inl rfl

theorem line_of_next (h : Inv P R plugin s) (serving : s.wire.wire.closed = false)
    {found : List Tagged × ℕ × List Tagged}
    (next : nextLine s.wire.ended s.wire.wire.up = some found) :
    ∃ line text, Pending P s line ∧ text <+: line ∧ found = (tagged s.wire.calls text, s.wire.calls, []) ∧
      (s.wire.phase = .dropped ∨ text = line ∧ s.wire.wire.up = lineOf s.wire.calls line) := by
  rcases Upward.of_phase h.phase with closed | none | ⟨line, pending, part⟩
  · rw [serving] at closed
    cases closed
  · rw [none] at next
    cases ended : s.wire.ended <;> simp [nextLine, ended] at next
  · obtain ⟨_, _, sends⟩ := pending.sends
    rcases nextLine_part sends.feed part next with ⟨whole, found⟩ | ⟨gone, text, cut, found⟩
    · exact ⟨line, line, pending, List.prefix_rfl, found, .inr ⟨rfl, whole⟩⟩
    · exact ⟨line, text, pending, cut, found, .inl (of_decide_eq_true gone)⟩

theorem inv_drop (h : Inv P R plugin s) (hs : step P R s (.pipe .drop) t) : Inv P R plugin t := by
  obtain ⟨_, wire, performed, rfl⟩ := hs
  obtain rfl := Option.some.inj performed
  refine inv_aside h rfl id ?_ fun r mem => .inl mem
  refine (Upward.of_phase h.phase).imp_right (Or.imp_right ?_)
  rintro ⟨line, pending, part⟩
  exact ⟨line, ⟨pending.sends, pending.unserved⟩, part⟩

theorem inv_skip (h : Inv P R plugin s) (hs : step P R s (.pipe .skip) t) : Inv P R plugin t := by
  obtain ⟨_, wire, performed, rfl⟩ := hs
  simp only [perform] at performed
  split at performed
  · rename_i line call rest next
    split_ifs at performed with enabled
    obtain rfl := Option.some.inj performed
    obtain ⟨bytes, text, pending, _, found, gone | ⟨rfl, _⟩⟩ := line_of_next h enabled.1 next
    · obtain ⟨rfl, tail⟩ := Prod.mk.inj found
      obtain ⟨rfl, rfl⟩ := Prod.mk.inj tail
      refine inv_aside h rfl id ?_ fun r mem => .inl mem
      change PhaseOk P R _ s.wire.phase
      rw [gone]
      exact .inr (.inl rfl)
    · obtain ⟨_, _, sends⟩ := pending.sends
      obtain ⟨rfl, _⟩ := Prod.mk.inj found
      have blank := enabled.2
      rw [isBlankLine, map_byte_tagged, sends.visible] at blank
      cases blank
  · cases performed

theorem respond_id (out : Outside) (request : JsonRpcRequest) (session : Session) :
    (respond P out request session).1.id = request.id := by
  unfold respond
  cases dispatch P out request session <;> rfl

theorem waits_of_line (h : Inv P R plugin s) (serving : s.wire.wire.closed = false) {line : Bytes}
    (up : s.wire.wire.up = lineOf s.wire.calls line) :
    s.wire.phase = .dropped ∨ s.wire.wire.down = [] ∧
      (s.wire.phase = .flushing s.wire.calls ∨ s.wire.phase = .reading s.wire.calls []) := by
  have some : s.wire.wire.up ≠ [] := up ▸ lineOf_ne_nil _ line
  have ok := h.phase
  have awaiting : ∀ {buf}, Awaiting P R s buf → s.wire.wire.down = [] ∧ buf = [] := by
    intro buf awaiting
    cases awaiting with
    | request _ _ _ down read => exact ⟨down, read⟩
    | response _ _ up _ => exact absurd up some
    | cut closed _ =>
      rw [serving] at closed
      cases closed
  cases phase : s.wire.phase with
  | dropped => exact .inl rfl
  | idle =>
    rw [phase] at ok
    rcases ok.2 with closed | none
    · rw [serving] at closed
      cases closed
    · exact absurd none some
  | writing call rest =>
    rw [phase] at ok
    obtain ⟨_, _, ne, line', pending, closed | same⟩ := ok
    · rw [serving] at closed
      cases closed
    · exact absurd (up ▸ same) (lineOf_append_ne pending.feed ne)
  | flushing call =>
    rw [phase] at ok
    obtain ⟨rfl, ok⟩ := ok
    exact .inr ⟨(awaiting ok).1, .inl rfl⟩
  | reading call buf =>
    rw [phase] at ok
    obtain ⟨rfl, _, ok⟩ := ok
    obtain ⟨down, rfl⟩ := awaiting ok
    exact .inr ⟨down, .inr rfl⟩

/-- A part of a line that a client leaves behind is no request, and only a client that has gone
leaves one. -/
theorem unread_part {line text : Bytes} {request : JsonRpcRequest} (sends : Sends P line request)
    (cut : text <+: line) (part : text ≠ line) (out : Outside) (server : Server) (call : ℕ)
    (served : List ℕ) : server.receive P out (textOf (tagged call text)) = server ∧
      servedBy P (textOf (tagged call text)) call served = served := by
  obtain ⟨response, failed⟩ := sends.parts text cut part
  rw [textOf, map_byte_tagged]
  constructor
  · unfold Server.receive
    rw [failed]
    split_ifs <;> rfl
  · rw [servedBy, failed]

theorem answers_answer (h : Inv P R plugin s) (x : Exchange) :
    (s.served ++ [s.wire.calls]).zip (s.server.exchanges ++ [x]) =
      s.answers ++ [(s.wire.calls, x)] := List.zip_append h.length

theorem atMostOnce_answer (h : Inv P R plugin s) (out : Outside) {line : Bytes}
    {request : JsonRpcRequest} (pending : Pending P s line)
    (last : s.requests.getLast? = some request) (sends : Sends P line request) (wire : Connection) :
    AtMostOnce P plugin { s with
      wire, server := s.server.answer P out request, served := s.served ++ [s.wire.calls] } := by
  obtain ⟨events, run⟩ := h.server
  refine ⟨⟨events ++ [.line out (getString line)], run.append (.single ?_)⟩, ?_, ?_, ?_⟩
  · exact (Server.receive_request s.server sends.visible sends.parses).symm
  · change (s.served ++ [_]).length = (s.server.exchanges ++ [_]).length
    rw [List.length_append, List.length_append, h.length, List.length_singleton,
      List.length_singleton]
  · refine List.pairwise_append.mpr ⟨h.increasing, List.pairwise_singleton _ _, ?_⟩
    intro call mem present here
    rw [List.mem_singleton.mp here]
    exact pending.unserved call mem
  · intro call y mem
    change (call, y) ∈ (s.served ++ [_]).zip (s.server.exchanges ++ [_]) at mem
    rw [answers_answer h] at mem
    rcases List.mem_append.mp mem with old | new
    · exact h.own call y old
    · obtain ⟨rfl, rfl⟩ := Prod.mk.inj (List.mem_singleton.mp new)
      rw [List.getLast?_eq_getElem?, h.requests] at last
      have some : 0 < s.wire.calls := by
        rw [← h.requests]
        exact Nat.zero_lt_of_lt (List.getElem?_eq_some_iff.mp (h.requests.symm ▸ last)).1
      exact ⟨s.wire.calls - 1, by omega, last, respond_id out request _⟩

theorem phaseOk_answering {bytes : Bytes} (answering : Answering R t bytes)
    (up : t.wire.wire.up = []) {phase : Phase} (waits : phase = .dropped ∨
      t.wire.wire.down = lineOf t.wire.calls bytes ∧
        (phase = .flushing t.wire.calls ∨ phase = .reading t.wire.calls [])) :
    PhaseOk P R t phase := by
  rcases waits with rfl | ⟨down, rfl | rfl⟩
  · exact .inr (.inl up)
  · exact ⟨rfl, .response bytes answering up down⟩
  · exact ⟨rfl, noLine_nil, .response bytes answering up down⟩

theorem inv_answer (h : Inv P R plugin s) {out : Outside} {line response : Bytes}
    {request : JsonRpcRequest} (pending : Pending P s line)
    (last : s.requests.getLast? = some request) (sends : Sends P line request)
    (prints : Prints R response (respond P out request s.server.session).1)
    (feed : newline ∉ response)
    (waits : s.wire.phase = .dropped ∨ s.wire.wire.down = [] ∧
      (s.wire.phase = .flushing s.wire.calls ∨ s.wire.phase = .reading s.wire.calls [])) :
    Inv P R plugin { s with
      wire := { s.wire with wire := { s.wire.wire with
        up := []
        down := s.wire.wire.down ++ tagged s.wire.calls response ++ [lineEnd s.wire.calls] } }
      server := s.server.answer P out request
      served := s.served ++ [s.wire.calls] } := by
  let x : Exchange := ⟨request, (respond P out request s.server.session).1⟩
  refine ⟨atMostOnce_answer h out pending last sends _, h.requests, ?_, ?_, ?_⟩
  · intro call mem
    rcases List.mem_append.mp mem with old | new
    · exact h.bounded call old
    · exact (List.mem_singleton.mp new).le
  · have mine : (s.wire.calls, x) ∈ (s.served ++ [s.wire.calls]).zip (s.server.exchanges ++ [x]) := by
      rw [answers_answer h]
      exact List.mem_append_right _ (List.mem_singleton_self _)
    refine phaseOk_answering ⟨feed, x, mine, prints⟩ rfl (waits.imp_right (And.imp_left fun none => ?_))
    change s.wire.wire.down ++ tagged s.wire.calls response ++ [lineEnd s.wire.calls] = _
    rw [none, List.nil_append]
    rfl
  · intro r mem
    refine (h.returned r mem).mono (fun p here => ?_) id
    change p ∈ (s.served ++ [_]).zip (s.server.exchanges ++ [x])
    rw [answers_answer h]
    exact List.mem_append_left _ here

theorem inv_serve (h : Inv P R plugin s) {out : Outside} {response : Bytes}
    (hs : step P R s (.serve out response) t) : Inv P R plugin t := by
  obtain ⟨found, ending, rest, next, prints, wire, performed, rfl⟩ := hs
  simp only [perform, next] at performed
  split_ifs at performed with enabled
  obtain rfl := Option.some.inj performed
  obtain ⟨line, text, pending, cut, read, waits⟩ := line_of_next h enabled.1 next
  obtain ⟨rfl, tail⟩ := Prod.mk.inj read
  obtain ⟨rfl, rfl⟩ := Prod.mk.inj tail
  obtain ⟨request, last, sends⟩ := pending.sends
  by_cases whole : text = line
  · subst whole
    have same : textOf (tagged s.wire.calls text) = getString text := by
      rw [textOf, map_byte_tagged]
    rw [processLine, same, sends.parses] at prints
    have received : s.server.receive P out (textOf (tagged s.wire.calls text)) =
        s.server.answer P out request := by
      rw [same, Server.receive_request _ sends.visible sends.parses]
    have served : servedBy P (textOf (tagged s.wire.calls text)) s.wire.calls s.served =
        s.served ++ [s.wire.calls] := by
      rw [same, servedBy, sends.parses]
    rw [received, served]
    exact inv_answer h pending last sends prints enabled.2.2 <|
      waits.elim .inl fun up => waits_of_line h enabled.1 up.2
  · have gone : s.wire.phase = .dropped := waits.resolve_right fun up => whole up.1
    obtain ⟨received, served⟩ := unread_part sends cut whole out s.server s.wire.calls s.served
    rw [received, served]
    refine inv_aside h rfl id ?_ fun r mem => .inl mem
    change PhaseOk P R _ s.wire.phase
    rw [gone]
    exact .inr (.inl rfl)

theorem inv_environment (h : Inv P R plugin s) {next : Plugin}
    (hs : step P R s (.environment next) t) : Inv P R plugin t := by
  obtain ⟨owned, rfl⟩ := hs
  obtain ⟨events, run⟩ := h.server
  have stepped : PipeServer.step P s.server .environment
      ⟨⟨s.server.session.context, next⟩, s.server.exchanges⟩ := ⟨rfl, rfl, owned⟩
  refine ⟨⟨⟨events ++ [.environment], run.append (.single stepped)⟩, h.length, h.increasing,
    h.own⟩, h.requests, h.bounded, ?_, h.returned⟩
  have ok := h.phase
  change PhaseOk P R _ s.wire.phase
  have kept : ∀ {buf}, Awaiting P R s buf → Awaiting P R { s with
      server := ⟨⟨s.server.session.context, next⟩, s.server.exchanges⟩ } buf := by
    intro buf awaiting
    cases awaiting with
    | request line pending up down read =>
      exact .request line ⟨pending.sends, pending.unserved⟩ up down read
    | response bytes answering up rest => exact .response bytes answering up rest
    | cut closed rest => exact .cut closed rest
  cases phase : s.wire.phase with
  | idle =>
    rw [phase] at ok
    exact ok
  | writing call rest =>
    rw [phase] at ok
    obtain ⟨present, down, ne, line, pending, rest⟩ := ok
    exact ⟨present, down, ne, line, ⟨pending.sends, pending.unserved⟩, rest⟩
  | flushing call =>
    rw [phase] at ok
    exact ⟨ok.1, kept ok.2⟩
  | reading call buf =>
    rw [phase] at ok
    exact ⟨ok.1, ok.2.1, kept ok.2.2⟩
  | dropped =>
    rw [phase] at ok
    exact ok.imp_right (Or.imp_right fun ⟨line, pending, part⟩ =>
      ⟨line, ⟨pending.sends, pending.unserved⟩, part⟩)

theorem inv_step {act : Act} (h : Inv P R plugin s) (clean : Clean s act)
    (hs : step P R s act t) : Inv P R plugin t := by
  cases act with
  | call method params line => exact inv_call h hs
  | serve out response => exact inv_serve h hs
  | environment next => exact inv_environment h hs
  | pipe act =>
    cases act with
    | call line => cases hs.1
    | write count => exact inv_write h hs
    | flush => exact inv_flush h hs
    | read => exact inv_read h hs
    | eof => exact inv_eof h hs
    | ioError kind => exact inv_ioError h clean hs
    | skip => exact inv_skip h hs
    | serve response => cases hs.1
    | close kept => exact inv_close h hs
    | drop => exact inv_drop h hs

theorem inv_opened (P : Platform) (R : JsonReader) (plugin : Plugin) :
    Inv P R plugin (.opened plugin) where
  server := ⟨[], .nil _⟩
  length := rfl
  increasing := .nil
  own _ _ mem := absurd mem List.not_mem_nil
  requests := rfl
  bounded _ mem := absurd mem List.not_mem_nil
  phase := ⟨rfl, .inr rfl⟩
  returned _ mem := absurd mem List.not_mem_nil

end

/-- Over every run of a connection, byte by byte: what the server does is a run of the server over
whole requests, it answers the requests of the calls in order and none twice, and a call returns
the answer to its own request, or an error that only a server that is gone can be the cause of. -/
theorem calls_at_most_once (P : Platform) (R : JsonReader) (plugin : Plugin) (acts : List Act)
    (s : Conversation) (run : Run (restrict Clean (step P R)) (.opened plugin) acts s) :
    AtMostOnce P plugin s ∧ ∀ r ∈ s.wire.returned, Settled R s r := by
  have h : Inv P R plugin s := run.invariant (fun _ _ _ h hs => inv_step h hs.1 hs.2)
    (inv_opened P R plugin)
  exact ⟨h.toAtMostOnce, h.returned⟩

section
variable {P : Platform} {R : JsonReader}

theorem run_reads {call : ℕ} {bytes : Bytes} (feed : newline ∉ bytes) {buf : List Tagged}
    {s : Conversation} (phase : s.wire.phase = .reading call buf)
    (down : s.wire.wire.down = lineOf call bytes) :
    Run (restrict Clean (step P R)) s (List.replicate (bytes.length + 1) (.pipe .read))
      { s with wire := { s.wire with
        phase := .idle
        wire := { s.wire.wire with down := [] }
        returned := s.wire.returned ++ [⟨call, buf ++ tagged call bytes⟩] } } := by
  have clean : ∀ u, Clean u (.pipe .read) := fun u kind same => by cases same
  induction bytes generalizing buf s with
  | nil =>
    refine .single ⟨clean _, rfl, _, ?_, rfl⟩
    simp [perform, phase, down, lineOf, tagged, lineEnd]
  | cons b bytes ih =>
    obtain ⟨other, feed⟩ := not_or.mp (mt List.mem_cons.mpr feed)
    let t : Conversation := { s with wire := { s.wire with
      phase := .reading call (buf ++ [⟨call, b⟩])
      wire := { s.wire.wire with down := lineOf call bytes } } }
    have reads : perform s.wire .read = some t.wire := by
      simp [perform, phase, down, lineOf, tagged, Ne.symm other, t]
    have tail := ih feed (s := t) rfl rfl
    rw [List.append_assoc] at tail
    exact .cons ⟨clean _, rfl, _, reads, rfl⟩ tail

theorem clean_of_ne {u : Conversation} {act : Act} (other : ∀ kind, act ≠ .pipe (.ioError kind)) :
    Clean u act := fun kind same => absurd same (other kind)

theorem call_sent {s : Conversation} (idle : s.wire.phase = .idle)
    (quiet : s.wire.wire = ⟨[], [], false⟩) (method : String) (params : JToken)
    {request : JsonRpcRequest} (same : s.request method params = request) {line : Bytes}
    (sends : Sends P line request) : Run (restrict Clean (step P R)) s
      [.call method params line, .pipe (.write (line.length + 1)), .pipe .flush]
      { s with
        wire := ⟨s.wire.calls + 1, .reading (s.wire.calls + 1) [],
          ⟨lineOf (s.wire.calls + 1) line, [], false⟩, s.wire.returned⟩
        requests := s.requests ++ [request] } := by
  obtain ⟨⟨calls, phase, wire, returned⟩, server, requests, served⟩ := s
  obtain rfl : phase = .idle := idle
  obtain rfl : wire = ⟨[], [], false⟩ := quiet
  have whole : (lineOf (calls + 1) line).length = line.length + 1 := by
    simp [lineOf, tagged]
  have written : (lineOf (calls + 1) line).take (line.length + 1) = lineOf (calls + 1) line :=
    List.take_of_length_le whole.le
  let during (phase : Phase) (up : List Tagged) : Conversation :=
    ⟨⟨calls + 1, phase, ⟨up, [], false⟩, returned⟩, server, requests ++ [request], served⟩
  have calling : step P R ⟨⟨calls, .idle, ⟨[], [], false⟩, returned⟩, server, requests, served⟩
      (.call method params line) (during (.writing (calls + 1) (lineOf (calls + 1) line)) []) := by
    refine ⟨same.symm ▸ sends, (during (.writing (calls + 1) (lineOf (calls + 1) line)) []).wire,
      ?_, ?_⟩
    · simp [perform, sends.feed, lineOf, during]
    · rw [same]
  have writing : step P R (during (.writing (calls + 1) (lineOf (calls + 1) line)) [])
      (.pipe (.write (line.length + 1)))
      (during (.flushing (calls + 1)) (lineOf (calls + 1) line)) := by
    refine ⟨rfl, (during (.flushing (calls + 1)) (lineOf (calls + 1) line)).wire, ?_, rfl⟩
    simp [perform, whole, written, during]
  have flushing : step P R (during (.flushing (calls + 1)) (lineOf (calls + 1) line))
      (.pipe .flush) (during (.reading (calls + 1) []) (lineOf (calls + 1) line)) :=
    ⟨rfl, _, rfl, rfl⟩
  exact .cons ⟨clean_of_ne (by simp), calling⟩ <| .cons ⟨clean_of_ne (by simp), writing⟩ <|
    .single ⟨clean_of_ne (by simp), flushing⟩

theorem call_lost {s : Conversation} (idle : s.wire.phase = .idle)
    (quiet : s.wire.wire = ⟨[], [], false⟩) (method : String) (params : JToken)
    {request : JsonRpcRequest} (same : s.request method params = request) {line : Bytes}
    (sends : Sends P line request) : Run (restrict Clean (step P R)) s
      ([.call method params line, .pipe (.write (line.length + 1)), .pipe .flush] ++
        [.pipe (.close 0), .pipe .eof])
      { s with
        wire := ⟨s.wire.calls + 1, .idle, ⟨lineOf (s.wire.calls + 1) line, [], true⟩,
          s.wire.returned ++ [⟨s.wire.calls + 1, []⟩]⟩
        requests := s.requests ++ [request] } := by
  let gone : Conversation := { s with
    wire := ⟨s.wire.calls + 1, .reading (s.wire.calls + 1) [],
      ⟨lineOf (s.wire.calls + 1) line, [], true⟩, s.wire.returned⟩
    requests := s.requests ++ [request] }
  refine (call_sent idle quiet method params same sends).append
    (.cons (t := gone) ⟨clean_of_ne (by simp), ?_⟩ (.single ⟨clean_of_ne (by simp), ?_⟩))
  · exact ⟨rfl, gone.wire, rfl, rfl⟩
  · exact ⟨rfl, _, rfl, rfl⟩

/-- After an error that is not taken for a stale pipe, the next call takes the same pipe. -/
theorem call_failed {s : Conversation} (idle : s.wire.phase = .idle)
    (quiet : s.wire.wire = ⟨[], [], false⟩) (method : String) (params : JToken)
    {request : JsonRpcRequest} (same : s.request method params = request) {line : Bytes}
    (sends : Sends P line request) (kind : ErrorKind) (other : classifyRpcError (.io kind) = .other) :
    Run (restrict Clean (step P R)) s [.call method params line, .pipe (.ioError kind)]
      { s with
        wire := ⟨s.wire.calls + 1, .idle, ⟨[], [], false⟩, s.wire.returned⟩
        requests := s.requests ++ [request] } := by
  obtain ⟨⟨calls, phase, wire, returned⟩, server, requests, served⟩ := s
  obtain rfl : phase = .idle := idle
  obtain rfl : wire = ⟨[], [], false⟩ := quiet
  let writing : Conversation := ⟨⟨calls + 1, .writing (calls + 1) (lineOf (calls + 1) line),
    ⟨[], [], false⟩, returned⟩, server, requests ++ [request], served⟩
  have calling : step P R ⟨⟨calls, .idle, ⟨[], [], false⟩, returned⟩, server, requests, served⟩
      (.call method params line) writing := by
    refine ⟨same.symm ▸ sends, writing.wire, ?_, ?_⟩
    · simp [perform, sends.feed, lineOf, writing]
    · rw [same]
  refine .cons ⟨clean_of_ne (by simp), calling⟩ (.single ⟨?_, rfl, _, ?_, rfl⟩)
  · exact fun kind same class_ => .inl ⟨rfl, rfl⟩
  · simp [perform, writing, afterError, other]

theorem call_answered {s : Conversation} (idle : s.wire.phase = .idle)
    (quiet : s.wire.wire = ⟨[], [], false⟩) (method : String) (params : JToken)
    {request : JsonRpcRequest} (same : s.request method params = request) {line response : Bytes}
    {out : Outside} (sends : Sends P line request)
    (prints : Prints R response (respond P out request s.server.session).1)
    (feed : newline ∉ response) : ∃ acts, Run (restrict Clean (step P R)) s acts
      { wire := ⟨s.wire.calls + 1, .idle, ⟨[], [], false⟩,
          s.wire.returned ++ [⟨s.wire.calls + 1, tagged (s.wire.calls + 1) response⟩]⟩
        server := s.server.answer P out request
        requests := s.requests ++ [request]
        served := s.served ++ [s.wire.calls + 1] } := by
  let call := s.wire.calls + 1
  have next : nextLine false (lineOf call line) = some (tagged call line, call, []) :=
    nextLine_of_line (noLine_tagged sends.feed) _ _
  have text : textOf (tagged call line) = getString line := by
    rw [textOf, map_byte_tagged]
  have visible : isBlankLine (tagged call line) = false := by
    rw [isBlankLine, map_byte_tagged]
    exact sends.visible
  let sent : Conversation := { s with
    wire := ⟨call, .reading call [], ⟨lineOf call line, [], false⟩, s.wire.returned⟩
    requests := s.requests ++ [request] }
  let answered : Conversation :=
    ⟨⟨call, .reading call [], ⟨[], lineOf call response, false⟩, s.wire.returned⟩,
      s.server.answer P out request, s.requests ++ [request], s.served ++ [call]⟩
  have serving : step P R sent (.serve out response) answered := by
    refine ⟨_, _, _, next, ?_, answered.wire, ?_, ?_⟩
    · rw [text, processLine, sends.parses]
      exact prints
    · change perform ⟨_, _, _, _⟩ (.serve response) = _
      simp only [perform, Connection.ended, reduceCtorEq, decide_false]
      rw [next]
      simp [visible, feed, lineOf, answered]
    · rw [text, Server.receive_request _ sends.visible sends.parses, servedBy, sends.parses]
  exact ⟨_, (call_sent idle quiet method params same sends).append <|
    .cons ⟨clean_of_ne (by simp), serving⟩ (run_reads feed (s := answered) rfl rfl)⟩

end

theorem part_of_ascii {cs : List Char} (ascii : ∀ c ∈ cs, c.toNat < 128) {part : Bytes}
    (cut : part <+: cs.flatMap String.utf8EncodeChar) :
    ∃ ds, ds <+: cs ∧ part = ds.flatMap String.utf8EncodeChar := by
  induction cs generalizing part with
  | nil => exact ⟨[], List.prefix_rfl, List.prefix_nil.mp cut⟩
  | cons c cs ih =>
    have single : String.utf8EncodeChar c = [c.val.toUInt8] := by
      have small : c.toNat ≤ 127 := Nat.le_of_lt_succ (ascii c (List.mem_cons_self ..))
      simp [String.utf8EncodeChar, small]
      rfl
    cases part with
    | nil => exact ⟨[], List.nil_prefix, rfl⟩
    | cons b part =>
      rw [List.flatMap_cons, single, List.singleton_append, List.cons_prefix_cons] at cut
      obtain ⟨rfl, rest⟩ := cut
      obtain ⟨ds, shorter, rfl⟩ := ih (fun c mem => ascii c (List.mem_cons_of_mem _ mem)) rest
      refine ⟨c :: ds, List.cons_prefix_cons.mpr ⟨rfl, shorter⟩, ?_⟩
      rw [List.flatMap_cons, single, List.singleton_append]

namespace Sample

/-- The characters of a line, of which no other line is a part. -/
def Plain (lines : List (List Char)) (cs : List Char) : Prop :=
  (cs.all fun c => c.toNat < 128) = true ∧ ∀ other ∈ lines, other <+: cs → other = cs

instance (lines : List (List Char)) (cs : List Char) : Decidable (Plain lines cs) :=
  inferInstanceAs (Decidable (_ ∧ _))

theorem sends {lines : List (String × JsonRpcRequest)} {text : String} {request : JsonRpcRequest}
    (listed : lines.lookup text = some request) (named : request.method ≠ "")
    (plain : Plain (lines.map fun line => line.1.toList) text.toList) (visible : isBlank text = false)
    (ends : newline ∉ utf8 text ∧ (13 : UInt8) ∉ utf8 text) :
    Sends (VaultOutcomes.Sample.platform lines) (utf8 text) request where
  parses := by
    rw [getString_utf8]
    simp [parseLine, VaultOutcomes.Sample.platform, listed, named]
  parts part cut other := by
    have chars := utf8_ofList text.toList
    rw [String.ofList_toList] at chars
    have ascii : ∀ c ∈ text.toList, c.toNat < 128 := by simpa using plain.1
    obtain ⟨cs, shorter, rfl⟩ := part_of_ascii ascii (chars ▸ cut)
    rw [← utf8_ofList, getString_utf8]
    have absent : lines.lookup (String.ofList cs) = none := by
      rw [List.lookup_eq_none_iff]
      intro line mem
      refine bne_iff_ne.mpr fun same => other ?_
      have own := plain.2 line.1.toList (List.mem_map_of_mem mem) (by
        rw [← same, String.toList_ofList]
        exact shorter)
      rw [← utf8_ofList, same, String.toList_inj.mp own]
    simp [parseLine, VaultOutcomes.Sample.platform, absent]
  visible := by
    rw [getString_utf8]
    exact visible
  feed := ends.1
  carriageReturn := ends.2

def reader (responses : List (Bytes × JsonRpcResponse)) (h : responses.lookup [] = none) :
    JsonReader where
  fromStr bytes := (responses.lookup bytes).elim (.error .json) .ok
  empty := by rw [h, Option.elim_none]
  errors := by
    intro bytes e failed
    cases found : responses.lookup bytes with
    | none =>
      rw [found, Option.elim_none] at failed
      exact .inl (Except.error.inj failed).symm
    | some response =>
      rw [found, Option.elim_some] at failed
      cases failed

theorem prints {responses : List (Bytes × JsonRpcResponse)} {h : responses.lookup [] = none}
    {bytes : Bytes} {response : JsonRpcResponse} (listed : responses.lookup bytes = some response)
    (alone : ∀ other ∈ responses.map Prod.fst, other <+: bytes → other = bytes) :
    Prints (reader responses h) bytes response where
  reads := by simp only [reader, listed, Option.elim_some]
  parts part cut other := by
    have absent : responses.lookup part = none := by
      rw [List.lookup_eq_none_iff]
      intro line mem
      refine bne_iff_ne.mpr fun same => other ?_
      rw [same]
      exact alone line.1 (List.mem_map_of_mem mem) (same ▸ cut)
    exact ⟨.json, by simp only [reader, absent, Option.elim_none]⟩

def nonce : String := "5f0c8e5f3b7d4a1e92c64dd0b18f7a3625e9c0d7481bf6a3e05d92c7b6f41a08"

def keyB64 : String := toBase64String VaultOutcomes.Sample.opSignPubKey

def enumerateText (id : String) : String :=
  "\x7b\"jsonrpc\":\"2.0\",\"id\":" ++ id ++
    ",\"method\":\"keepasskeywin.enumerateForSync\",\"params\":\x7b\x7d\x7d"

def enumerateRequest (id : ℕ) : JsonRpcRequest :=
  ⟨some (.integer id), "keepasskeywin.enumerateForSync", some (.object [])⟩

def lines : List (String × JsonRpcRequest) := [(helloLine keyB64, helloRequest keyB64),
  (enumerateText "2", enumerateRequest 2), (enumerateText "3", enumerateRequest 3),
  (enumerateText "4", enumerateRequest 4)]

def helloChars : List Char :=
  "\x7b\"jsonrpc\":\"2.0\",\"id\":1,\"method\":\"keepasskeywin.hello\",\"params\":\x7b".toList ++
  "\"clientPkgFamilyName\":\"KeePassKeyWin.Provider_4fv17arhjxxvg\",".toList ++
  "\"handshakeNonce\":\"5f0c8e5f3b7d4a1e92c64dd0b18f7a3625e9c0d7481bf6a3e05d92c7b6f41a08\",".toList ++
  "\"opSignPublicKeyB64\":\"".toList ++ keyB64.toList ++ "\"\x7d\x7d".toList

theorem toList_parts (a b c d e f : String) : (a ++ b ++ c ++ d ++ e ++ f).toList =
    a.toList ++ b.toList ++ c.toList ++ d.toList ++ e.toList ++ f.toList := by
  simp only [String.toList_append]

theorem helloLine_toList : (helloLine keyB64).toList = helloChars := toList_parts _ _ _ _ _ _

theorem lines_toList : lines.map (fun line => line.1.toList) = [helloChars,
    (enumerateText "2").toList, (enumerateText "3").toList, (enumerateText "4").toList] := by
  simp only [lines, List.map_cons, List.map_nil, helloLine_toList]

def platform : Platform := VaultOutcomes.Sample.platform lines

def greetingText : Bytes := utf8 "\x7b\"jsonrpc\":\"2.0\",\"id\":1,\"result\":\"ok\"\x7d"

def listText : Bytes := utf8 "\x7b\"jsonrpc\":\"2.0\",\"id\":3,\"result\":[]\x7d"

def responses : List (Bytes × JsonRpcResponse) :=
  [(greetingText, ⟨some (.integer 1), .ok (.str "ok")⟩),
    (listText, ⟨some (.integer 3), .ok (.array [])⟩)]

def client : JsonReader :=
  reader responses (List.lookup_eq_none_iff.mpr (by decide +kernel))

theorem sends_hello : Sends platform (utf8 (helloLine keyB64)) (helloRequest keyB64) :=
  sends (List.lookup_eq_some_iff.mpr ⟨[], lines.drop 1, rfl, by simp⟩) (by decide)
    (by rw [lines_toList, helloLine_toList]; decide +kernel) (visible_hello _) (by decide +kernel)

theorem sends_two : Sends platform (utf8 (enumerateText "2")) (enumerateRequest 2) :=
  sends (List.lookup_eq_some_iff.mpr ⟨lines.take 1, lines.drop 2, rfl, by decide +kernel⟩)
    (by decide) (by rw [lines_toList]; decide +kernel) (by decide +kernel) (by decide +kernel)

theorem sends_three : Sends platform (utf8 (enumerateText "3")) (enumerateRequest 3) :=
  sends (List.lookup_eq_some_iff.mpr ⟨lines.take 2, lines.drop 3, rfl, by decide +kernel⟩)
    (by decide) (by rw [lines_toList]; decide +kernel) (by decide +kernel) (by decide +kernel)

theorem sends_four : Sends platform (utf8 (enumerateText "4")) (enumerateRequest 4) :=
  sends (List.lookup_eq_some_iff.mpr ⟨lines.take 3, lines.drop 4, rfl, by decide +kernel⟩)
    (by decide) (by rw [lines_toList]; decide +kernel) (by decide +kernel) (by decide +kernel)

theorem prints_greeting : Prints client greetingText ⟨some (.integer 1), .ok (.str "ok")⟩ :=
  prints (List.lookup_eq_some_iff.mpr ⟨[], responses.drop 1, rfl, by simp⟩) (by decide +kernel)

theorem prints_list : Prints client listText ⟨some (.integer 3), .ok (.array [])⟩ :=
  prints (List.lookup_eq_some_iff.mpr ⟨responses.take 1, [], rfl, by decide +kernel⟩)
    (by decide +kernel)

theorem respond_enumerate {s : Session} (greeted : s.context.handshakeComplete = true)
    (empty : s.plugin.database = some ⟨true, []⟩) (id : ℕ) :
    (respond platform VaultOutcomes.Sample.outside (enumerateRequest id) s).1 =
      ⟨some (.integer id), .ok (.array [])⟩ := by
  have other : (enumerateRequest id).method ≠ helloMethod :=
    show "keepasskeywin.enumerateForSync" ≠ helloMethod by decide
  have opened : s.plugin.isVaultOpen = true := by
    rw [Plugin.isVaultOpen, empty]
  have run : handle platform VaultOutcomes.Sample.outside (enumerateRequest id).method
      (enumerateRequest id).params s.plugin = .ok (.array []) (Plugin.called s.plugin) := by
    have none : (Plugin.called s.plugin).getAll platform = [] := by
      simp [Plugin.getAll, Plugin.entries, Plugin.findPasskeysGroup, Plugin.called, empty]
    rw [handle_of_open opened]
    change enumerateForSync platform (Plugin.called s.plugin) = _
    simp [enumerateForSync, none]
  rw [respond_of_ok ((dispatch_vault other greeted).trans (onPlugin_ok run))]
  rfl

/-- A hello; a call that fails before a byte of it is written, and leaves the pipe in use; a call
over that pipe; and a call whose server is gone before it answers. -/
theorem run : ∃ acts s, Run (restrict Clean (step platform client))
    (.opened VaultOutcomes.Sample.plugin) acts s ∧
    (.pipe (.ioError .other)) ∈ acts ∧ s.wire.calls = 4 ∧ s.served = [1, 3] ∧
    s.wire.returned = [⟨1, tagged 1 greetingText⟩, ⟨3, tagged 3 listText⟩, ⟨4, []⟩] := by
  let opened : Conversation := .opened VaultOutcomes.Sample.plugin
  have accepts : AcceptsNonce VaultOutcomes.Sample.outside opened.server.session
      (some (.object (helloParams nonce VaultOutcomes.Sample.opSignPubKey))) :=
    acceptsNonce_helloParams rfl rfl rfl (by decide)
  have delivers : DeliversKey platform (helloRequest keyB64).params
      VaultOutcomes.Sample.opSignPubKey := delivers_helloParams _ _ (by decide)
  obtain ⟨greeting, greeted, frame⟩ := respond_hello (P := platform) rfl accepts delivers
  obtain ⟨helloActs, hello⟩ := call_answered (s := opened) rfl rfl helloMethod
    (.object (helloParams nonce VaultOutcomes.Sample.opSignPubKey)) rfl sends_hello
    (greeting ▸ prints_greeting) (by decide +kernel)
  let server := opened.server.answer platform VaultOutcomes.Sample.outside (helloRequest keyB64)
  have failed := call_failed (P := platform) (R := client)
    (s := ⟨⟨1, .idle, ⟨[], [], false⟩, [⟨1, tagged 1 greetingText⟩]⟩, server,
      [helloRequest keyB64], [1]⟩) rfl rfl "keepasskeywin.enumerateForSync"
    (.object []) rfl sends_two .other rfl
  have listed := respond_enumerate (s := server.session) greeted (frame.database.trans rfl) 3
  obtain ⟨listActs, list⟩ := call_answered (R := client)
    (s := ⟨⟨2, .idle, ⟨[], [], false⟩, [⟨1, tagged 1 greetingText⟩]⟩, server,
      [helloRequest keyB64, enumerateRequest 2], [1]⟩) rfl rfl
    "keepasskeywin.enumerateForSync" (.object []) rfl sends_three
    (listed ▸ prints_list) (by decide +kernel)
  have lost := call_lost (P := platform) (R := client)
    (s := ⟨⟨3, .idle, ⟨[], [], false⟩, [⟨1, tagged 1 greetingText⟩, ⟨3, tagged 3 listText⟩]⟩,
      server.answer platform VaultOutcomes.Sample.outside (enumerateRequest 3),
      [helloRequest keyB64, enumerateRequest 2, enumerateRequest 3], [1, 3]⟩) rfl rfl
    "keepasskeywin.enumerateForSync" (.object []) rfl sends_four
  refine ⟨_, _, hello.append (failed.append (list.append lost)), ?_, rfl, rfl, rfl⟩
  simp

end Sample

theorem calls_at_most_once_sample : ∃ acts s,
    Run (restrict Clean (step Sample.platform Sample.client)) (.opened VaultOutcomes.Sample.plugin)
      acts s ∧
    (.pipe (.ioError .other)) ∈ acts ∧ s.wire.calls = 4 ∧ s.served = [1, 3] ∧
    s.wire.returned =
      [⟨1, tagged 1 Sample.greetingText⟩, ⟨3, tagged 3 Sample.listText⟩, ⟨4, []⟩] ∧
    AtMostOnce Sample.platform VaultOutcomes.Sample.plugin s ∧
    ∀ r ∈ s.wire.returned, Settled Sample.client s r := by
  obtain ⟨acts, s, run, failed, calls, served, returned⟩ := Sample.run
  exact ⟨acts, s, run, failed, calls, served, returned, calls_at_most_once _ _ _ acts s run⟩

end KeePassKeyWin.WiredCalls
