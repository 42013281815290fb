import KeePassKeyWin.SidecarCalls

set_option autoImplicit false

/-!
# Requests and responses on one connection

The bytes between `PipeClient::call` and `ServeConnection`. Nothing compares the id of a
response with that of the request: a call takes the next line there is. Every byte here
carries the number of the call whose line it is, or whose line it answers, which neither side sees.
-/
namespace KeePassKeyWin.ResponsePairing
open ByteStrings PipeServer SidecarCalls TransitionRuns

def newline : UInt8 := 10

/-- A byte and the call it belongs to. -/
structure Tagged where
  call : ℕ
  byte : UInt8
  deriving DecidableEq

def tagged (call : ℕ) (bytes : Bytes) : List Tagged := bytes.map (Tagged.mk call)

def lineEnd (call : ℕ) : Tagged := ⟨call, newline⟩

/-- Where the client is: between calls, in `write_all` with the rest of its line, in `flush`, in
`read_line` with what it has read, or done with this connection. -/
inductive Phase where
  | idle
  | writing (call : ℕ) (rest : List Tagged)
  | flushing (call : ℕ)
  | reading (call : ℕ) (buf : List Tagged)
  | dropped
  deriving DecidableEq

structure Returned where
  call : ℕ
  line : List Tagged
  deriving DecidableEq

/-- The bytes under way to the server and to the client, and whether the server has closed. -/
structure Wire where
  up : List Tagged
  down : List Tagged
  closed : Bool
  deriving DecidableEq

structure Connection where
  calls : ℕ
  phase : Phase
  wire : Wire
  returned : List Returned
  deriving DecidableEq

def Connection.opened : Connection := ⟨0, .idle, ⟨[], [], false⟩, []⟩

/-- A call begins; bytes are written, the pipe is flushed, a byte is read, or there are no more;
an I/O error ends the call; or the client goes away. The server skips a blank line, answers
another, or closes, and loses all but some of what it wrote. -/
inductive Act where
  | call (line : Bytes)
  | write (count : ℕ)
  | flush
  | read
  | eof
  | ioError (kind : ErrorKind)
  | drop
  | skip
  | serve (response : Bytes)
  | close (kept : ℕ)

def within (b : Tagged) : Bool := b.byte != newline

/-- `ReadLine`: the first line that is complete, the call of its end, and what follows. Once the
stream has ended, what is left of it is a line too. -/
def nextLine (ended : Bool) (up : List Tagged) : Option (List Tagged × ℕ × List Tagged) :=
  match up.dropWhile within with
  | ending :: rest => some (up.takeWhile within, ending.call, rest)
  | [] => if ended then up.getLast?.map fun last => (up, last.call, []) else none

/-- The client has gone, and nothing follows what it wrote. -/
def Connection.ended (s : Connection) : Bool := decide (s.phase = .dropped)

def isBlankLine (line : List Tagged) : Bool := isBlank (getString (line.map Tagged.byte))

/-- An error that `take_call_with_retry` takes for a stale pipe drops the connection; after any
other the pipe is put back and used for the next call. -/
def afterError (kind : ErrorKind) : Phase :=
  match classifyRpcError (.io kind) with
  | .stale => .dropped
  | .other => .idle

/-- No line feed stands within a request or a response. -/
def perform (s : Connection) : Act → Option Connection
  | .call line =>
    if s.phase = .idle ∧ newline ∉ line then
      some { s with
        calls := s.calls + 1
        phase := .writing (s.calls + 1) (tagged (s.calls + 1) line ++ [lineEnd (s.calls + 1)]) }
    else none
  | .write count =>
    match s.phase with
    | .writing call rest => some { s with
        wire := { s.wire with up := s.wire.up ++ rest.take count }
        phase := if count < rest.length then .writing call (rest.drop count) else .flushing call }
    | _ => none
  | .flush =>
    match s.phase with
    | .flushing call => some { s with phase := .reading call [] }
    | _ => none
  | .read =>
    match s.phase, s.wire.down with
    | .reading call buf, b :: down =>
      if b.byte = newline then
        some { s with
          wire := { s.wire with down }
          phase := .idle
          returned := s.returned ++ [⟨call, buf⟩] }
      else some { s with wire := { s.wire with down }, phase := .reading call (buf ++ [b]) }
    | _, _ => none
  | .eof =>
    match s.phase, s.wire.down, s.wire.closed with
    | .reading call buf, [], true =>
      some { s with phase := .idle, returned := s.returned ++ [⟨call, buf⟩] }
    | _, _, _ => none
  | .ioError kind =>
    match s.phase with
    | .idle | .dropped => none
    | _ => some { s with phase := afterError kind }
  | .drop => some { s with phase := .dropped }
  | .skip =>
    match nextLine s.ended s.wire.up with
    | some (line, _, rest) =>
      if s.wire.closed = false ∧ isBlankLine line = true then
        some { s with wire := { s.wire with up := rest } }
      else none
    | none => none
  | .serve response =>
    match nextLine s.ended s.wire.up with
    | some (line, call, rest) =>
      if s.wire.closed = false ∧ isBlankLine line = false ∧ newline ∉ response then
        some { s with wire := { s.wire with
          up := rest
          down := s.wire.down ++ tagged call response ++ [lineEnd call] } }
      else none
    | none => none
  | .close kept =>
    some { s with wire := { s.wire with closed := true, down := s.wire.down.take kept } }

def step (s : Connection) (act : Act) (t : Connection) : Prop := perform s act = some t

/-- The calls whose line was written in full, and which still wait for a response. -/
def Phase.sent : Phase → Bool
  | .flushing _ | .reading _ _ => true
  | _ => false

/-- No answer can come any more: the server is gone, and nothing of it is left to read. -/
def Wire.dry (w : Wire) : Bool := w.closed && w.down = []

/-- An error that keeps the pipe in use strikes before the end of the line is written, or when no
answer can come. -/
def Fits (s : Connection) (act : Act) : Prop :=
  ∀ kind, act = .ioError kind → classifyRpcError (.io kind) = .other →
    s.phase.sent = false ∨ s.wire.dry = true

def NoLine (bytes : List Tagged) : Prop := ∀ b ∈ bytes, b.byte ≠ newline

def Of (call : ℕ) (bytes : List Tagged) : Prop := ∀ b ∈ bytes, b.call = call

/-- No line is under way in either direction, unless the server is gone. -/
structure Quiet (w : Wire) : Prop where
  down : w.down = []
  up : w.closed = true ∨ NoLine w.up

/-- What is under way once a call has written its line: the line itself, the response to it, or,
if the line was blank or the server is gone, at most a part of it. -/
inductive Awaiting (call : ℕ) (w : Wire) : Prop
  | request (before : List Tagged) (up : w.up = before ++ [lineEnd call]) (noLine : NoLine before)
      (down : w.down = [])
  | response (body : List Tagged) (up : NoLine w.up) (down : w.down = body ++ [lineEnd call])
      (noLine : NoLine body) (own : Of call body)
  | none (up : w.closed = true ∨ NoLine w.up) (noLine : NoLine w.down) (own : Of call w.down)

def PhaseOk (w : Wire) : Phase → Prop
  | .idle => Quiet w
  | .writing call rest => Quiet w ∧ ∃ body, rest = body ++ [lineEnd call] ∧ NoLine body
  | .flushing call => Awaiting call w
  | .reading call buf => Awaiting call w ∧ Of call buf
  | .dropped => True

/-- Every call that returned has read bytes of its own response only. -/
def OwnLines (returned : List Returned) : Prop := ∀ r ∈ returned, Of r.call r.line

structure Paired (s : Connection) : Prop where
  phase : PhaseOk s.wire s.phase
  returned : OwnLines s.returned

theorem noLine_nil : NoLine [] := fun b h => by simp at h

theorem noLine_append {xs ys : List Tagged} (hx : NoLine xs) (hy : NoLine ys) :
    NoLine (xs ++ ys) := by
  intro b hb
  rcases List.mem_append.mp hb with h | h
  · exact hx b h
  · exact hy b h

theorem noLine_tagged {call : ℕ} {bytes : Bytes} (h : newline ∉ bytes) :
    NoLine (tagged call bytes) := by
  intro b hb same
  obtain ⟨byte, hbyte, rfl⟩ := List.mem_map.mp hb
  exact h (same ▸ hbyte)

theorem of_tagged (call : ℕ) (bytes : Bytes) : Of call (tagged call bytes) := by
  intro b hb
  obtain ⟨byte, _, rfl⟩ := List.mem_map.mp hb
  rfl

theorem of_nil (call : ℕ) : Of call [] := fun b h => by simp at h

theorem of_append {call : ℕ} {xs ys : List Tagged} (hx : Of call xs) (hy : Of call ys) :
    Of call (xs ++ ys) := by
  intro b hb
  rcases List.mem_append.mp hb with h | h
  · exact hx b h
  · exact hy b h

theorem dropWhile_of_noLine {up : List Tagged} (h : NoLine up) : up.dropWhile within = [] :=
  List.dropWhile_eq_nil_iff.mpr fun b hb => by simpa [within] using h b hb

theorem nextLine_of_noLine {up : List Tagged} (h : NoLine up) : nextLine false up = none := by
  simp [nextLine, dropWhile_of_noLine h]

theorem nextLine_of_line {before : List Tagged} (h : NoLine before) (ended : Bool) (call : ℕ) :
    nextLine ended (before ++ [lineEnd call]) = some (before, call, []) := by
  have keeps : ∀ b ∈ before, within b = true := fun b hb => by simpa [within] using h b hb
  have ends : within (lineEnd call) = false := by simp [within, lineEnd]
  have dropped : (before ++ [lineEnd call]).dropWhile within = [lineEnd call] := by
    rw [List.dropWhile_append_of_pos keeps]
    simp [ends]
  have taken : (before ++ [lineEnd call]).takeWhile within = before := by
    rw [List.takeWhile_append_of_pos keeps]
    simp [ends]
  simp only [nextLine, dropped, taken]
  rfl

theorem take_line (body : List Tagged) (ending : Tagged) (count : ℕ) :
    count < (body ++ [ending]).length ∧ (body ++ [ending]).take count = body.take count ∧
        (body ++ [ending]).drop count = body.drop count ++ [ending] ∨
      (body ++ [ending]).length ≤ count ∧ (body ++ [ending]).take count = body ++ [ending] := by
  by_cases h : count ≤ body.length
  · left
    refine ⟨?_, List.take_append_of_le_length h, List.drop_append_of_le_length h⟩
    simp only [List.length_append, List.length_singleton]
    omega
  · right
    have whole : (body ++ [ending]).length ≤ count := by
      simp only [List.length_append, List.length_singleton]
      omega
    exact ⟨whole, List.take_of_length_le whole⟩

section
variable {s t : Connection}

theorem paired_call (hs : Paired s) {line : Bytes} (h : step s (.call line) t) : Paired t := by
  simp only [step, perform] at h
  split_ifs at h with enabled
  obtain rfl := Option.some.inj h
  have quiet : PhaseOk s.wire .idle := enabled.1 ▸ hs.phase
  exact ⟨⟨quiet, _, rfl, noLine_tagged enabled.2⟩, hs.returned⟩

theorem awaiting_written {call : ℕ} {body : List Tagged} {w : Wire} (quiet : Quiet w)
    (noLine : NoLine body) : Awaiting call { w with up := w.up ++ (body ++ [lineEnd call]) } := by
  rcases quiet.up with closed | clear
  · exact .none (.inl closed) (quiet.down ▸ noLine_nil) (quiet.down ▸ of_nil call)
  · exact .request (w.up ++ body) (List.append_assoc _ _ _).symm (noLine_append clear noLine)
      quiet.down

theorem paired_write (hs : Paired s) {count : ℕ} (h : step s (.write count) t) : Paired t := by
  simp only [step, perform] at h
  split at h
  · rename_i call rest writing
    obtain rfl := Option.some.inj h
    have ok : PhaseOk s.wire (.writing call rest) := writing ▸ hs.phase
    obtain ⟨quiet, body, rfl, noLine⟩ := ok
    refine ⟨?_, hs.returned⟩
    rcases take_line body (lineEnd call) count with ⟨short, taken, dropped⟩ | ⟨whole, taken⟩
    · simp only [if_pos short, taken, dropped]
      have part : ∀ b ∈ body.take count, b.byte ≠ newline := fun b hb =>
        noLine b (List.mem_of_mem_take hb)
      refine ⟨⟨quiet.down, ?_⟩, _, rfl, fun b hb => noLine b (List.mem_of_mem_drop hb)⟩
      exact quiet.up.imp_right fun clear => noLine_append clear part
    · simp only [if_neg (Nat.not_lt.mpr whole), taken]
      exact awaiting_written quiet noLine
  · cases h

theorem paired_flush (hs : Paired s) (h : step s .flush t) : Paired t := by
  simp only [step, perform] at h
  split at h
  · rename_i call flushing
    obtain rfl := Option.some.inj h
    have awaiting : PhaseOk s.wire (.flushing call) := flushing ▸ hs.phase
    exact ⟨⟨awaiting, of_nil call⟩, hs.returned⟩
  · cases h

theorem ownLines_append {returned : List Returned} (hr : OwnLines returned) {call : ℕ}
    {line : List Tagged} (own : Of call line) : OwnLines (returned ++ [⟨call, line⟩]) := by
  intro r h
  rcases List.mem_append.mp h with old | new
  · exact hr r old
  · obtain rfl := List.mem_singleton.mp new
    exact own

theorem paired_read (hs : Paired s) (h : step s .read t) : Paired t := by
  simp only [step, perform] at h
  split at h
  · rename_i call buf b rest reading under
    have ok : PhaseOk s.wire (.reading call buf) := reading ▸ hs.phase
    obtain ⟨awaiting, own⟩ := ok
    cases awaiting with
    | request before up noLine down => simp [down] at under
    | response body up down noLine ownBody =>
      cases body with
      | nil =>
        obtain ⟨rfl, rfl⟩ : lineEnd call = b ∧ [] = rest := by simpa [down] using under
        rw [if_pos (by rfl)] at h
        obtain rfl := Option.some.inj h
        exact ⟨⟨rfl, .inr up⟩, ownLines_append hs.returned own⟩
      | cons x body =>
        obtain ⟨rfl, rfl⟩ : x = b ∧ body ++ [lineEnd call] = rest := by simpa [down] using under
        rw [if_neg (noLine x (List.mem_cons_self ..))] at h
        obtain rfl := Option.some.inj h
        refine ⟨⟨.response body up rfl (fun y hy => noLine y (List.mem_cons_of_mem _ hy))
          fun y hy => ownBody y (List.mem_cons_of_mem _ hy), of_append own ?_⟩, hs.returned⟩
        intro y hy
        obtain rfl := List.mem_singleton.mp hy
        exact ownBody y (List.mem_cons_self ..)
    | none up noLine ownDown =>
      rw [under] at noLine ownDown
      rw [if_neg (noLine b (List.mem_cons_self ..))] at h
      obtain rfl := Option.some.inj h
      refine ⟨⟨.none up (fun y hy => noLine y (List.mem_cons_of_mem _ hy))
        fun y hy => ownDown y (List.mem_cons_of_mem _ hy), of_append own ?_⟩, hs.returned⟩
      intro y hy
      obtain rfl := List.mem_singleton.mp hy
      exact ownDown y (List.mem_cons_self ..)
  · cases h

theorem paired_eof (hs : Paired s) (h : step s .eof t) : Paired t := by
  simp only [step, perform] at h
  split at h
  · rename_i call buf reading under closed
    obtain rfl := Option.some.inj h
    have ok : PhaseOk s.wire (.reading call buf) := reading ▸ hs.phase
    exact ⟨⟨under, .inl closed⟩, ownLines_append hs.returned ok.2⟩
  · cases h

theorem paired_ioError (hs : Paired s) {kind : ErrorKind} (fits : Fits s (.ioError kind))
    (h : step s (.ioError kind) t) : Paired t := by
  have kept : ∀ phase, s.phase = phase → PhaseOk s.wire phase := fun phase same => same ▸ hs.phase
  have moved : t = { s with phase := afterError kind } := by
    simp only [step, perform] at h
    split at h
    · cases h
    · cases h
    · exact (Option.some.inj h).symm
  subst moved
  refine ⟨?_, hs.returned⟩
  cases class_ : classifyRpcError (.io kind) with
  | stale => simp [afterError, class_, PhaseOk]
  | other =>
    simp only [afterError, class_]
    rcases fits kind rfl class_ with unsent | dry
    · cases phase : s.phase with
      | idle => simp [step, perform, phase] at h
      | dropped => simp [step, perform, phase] at h
      | flushing call => simp [phase, Phase.sent] at unsent
      | reading call buf => simp [phase, Phase.sent] at unsent
      | writing call rest => exact (kept _ phase).1
    · obtain ⟨closed, down⟩ := Bool.and_eq_true_iff.mp dry
      exact ⟨of_decide_eq_true down, .inl closed⟩

theorem served_line (hs : Paired s) (serving : s.wire.closed = false) {line rest : List Tagged}
    {call : ℕ} (next : nextLine s.ended s.wire.up = some (line, call, rest)) :
    s.phase = .dropped ∨ rest = [] ∧ s.wire.down = [] ∧
      (s.phase = .flushing call ∨ ∃ buf, s.phase = .reading call buf ∧ Of call buf) := by
  by_cases gone : s.phase = .dropped
  · exact .inl gone
  right
  have present : s.ended = false := decide_eq_false gone
  rw [present] at next
  have busy : ¬ NoLine s.wire.up := fun clear => by simp [nextLine_of_noLine clear] at next
  have alive : ¬ (s.wire.closed = true ∨ NoLine s.wire.up) := by simp [serving, busy]
  have sent : ∀ owner, Awaiting owner s.wire → call = owner ∧ rest = [] ∧ s.wire.down = [] := by
    intro owner awaiting
    cases awaiting with
    | request before up noLine down =>
      rw [up, nextLine_of_line noLine] at next
      obtain ⟨_, same⟩ := Prod.mk.inj (Option.some.inj next)
      obtain ⟨rfl, rfl⟩ := Prod.mk.inj same
      exact ⟨rfl, rfl, down⟩
    | response body up _ _ _ => exact absurd up busy
    | none up _ _ => exact absurd up alive
  have ok := hs.phase
  cases phase : s.phase with
  | dropped => exact absurd phase gone
  | idle =>
    rw [phase] at ok
    exact absurd (Quiet.up ok) alive
  | writing owner rest =>
    rw [phase] at ok
    exact absurd ok.1.up alive
  | flushing owner =>
    rw [phase] at ok
    obtain ⟨rfl, hrest, down⟩ := sent owner ok
    exact ⟨hrest, down, .inl rfl⟩
  | reading owner buf =>
    rw [phase] at ok
    obtain ⟨rfl, hrest, down⟩ := sent owner ok.1
    exact ⟨hrest, down, .inr ⟨buf, rfl, ok.2⟩⟩

/-- What the server makes of a line is for the call that waits. -/
theorem paired_served (hs : Paired s) (serving : s.wire.closed = false) {line rest : List Tagged}
    {call : ℕ} (next : nextLine s.ended s.wire.up = some (line, call, rest)) {down : List Tagged}
    (answer : s.wire.down = [] → Awaiting call { s.wire with up := [], down }) :
    Paired { s with wire := { s.wire with up := rest, down } } := by
  rcases served_line hs serving next with dropped | ⟨rfl, hdown, waits⟩
  · refine ⟨?_, hs.returned⟩
    change PhaseOk _ s.phase
    rw [dropped]
    trivial
  · have awaiting := answer hdown
    refine ⟨?_, hs.returned⟩
    change PhaseOk _ s.phase
    rcases waits with flushing | ⟨buf, reading, own⟩
    · rw [flushing]
      exact awaiting
    · rw [reading]
      exact ⟨awaiting, own⟩

theorem paired_skip (hs : Paired s) (h : step s .skip t) : Paired t := by
  simp only [step, perform] at h
  split at h
  · rename_i line call rest next
    split_ifs at h with enabled
    obtain rfl := Option.some.inj h
    refine paired_served hs enabled.1 next fun down => ?_
    exact .none (.inr noLine_nil) (down ▸ noLine_nil) (down ▸ of_nil call)
  · cases h

theorem paired_serve (hs : Paired s) {response : Bytes} (h : step s (.serve response) t) :
    Paired t := by
  simp only [step, perform] at h
  split at h
  · rename_i line call rest next
    split_ifs at h with enabled
    obtain rfl := Option.some.inj h
    refine paired_served hs enabled.1 next fun down => ?_
    refine .response (tagged call response) noLine_nil ?_ (noLine_tagged enabled.2.2)
      (of_tagged call response)
    simp [down]
  · cases h

theorem awaiting_close {call : ℕ} {w : Wire} (h : Awaiting call w) (kept : ℕ) :
    Awaiting call { w with closed := true, down := w.down.take kept } := by
  have part : ∀ bytes : List Tagged, NoLine bytes → Of call bytes → w.down.take kept = bytes →
      Awaiting call { w with closed := true, down := w.down.take kept } := fun bytes noLine own same =>
    .none (.inl rfl) (same ▸ noLine) (same ▸ own)
  cases h with
  | request before up noLine down => exact part [] noLine_nil (of_nil call) (by simp [down])
  | response body up down noLine own =>
    rcases take_line body (lineEnd call) kept with ⟨_, taken, _⟩ | ⟨_, taken⟩
    · exact part (body.take kept) (fun b hb => noLine b (List.mem_of_mem_take hb))
        (fun b hb => own b (List.mem_of_mem_take hb)) (by rw [down, taken])
    · exact .response body up (by rw [down, taken]) noLine own
  | none up noLine own =>
    exact part _ (fun b hb => noLine b (List.mem_of_mem_take hb))
      (fun b hb => own b (List.mem_of_mem_take hb)) rfl

theorem paired_close (hs : Paired s) {kept : ℕ} (h : step s (.close kept) t) : Paired t := by
  obtain rfl := Option.some.inj h
  have ok := hs.phase
  refine ⟨?_, hs.returned⟩
  have quiet : Quiet s.wire →
      Quiet { s.wire with closed := true, down := s.wire.down.take kept } := fun q =>
    ⟨by simp [q.down], .inl rfl⟩
  change PhaseOk _ s.phase
  cases phase : s.phase with
  | dropped => trivial
  | idle =>
    rw [phase] at ok
    exact quiet ok
  | writing call rest =>
    rw [phase] at ok
    exact ⟨quiet ok.1, ok.2⟩
  | flushing call =>
    rw [phase] at ok
    exact awaiting_close ok kept
  | reading call buf =>
    rw [phase] at ok
    exact ⟨awaiting_close ok.1 kept, ok.2⟩

theorem paired_step {act : Act} (hs : Paired s) (fits : Fits s act) (h : step s act t) :
    Paired t := by
  cases act with
  | call line => exact paired_call hs h
  | write count => exact paired_write hs h
  | flush => exact paired_flush hs h
  | read => exact paired_read hs h
  | eof => exact paired_eof hs h
  | ioError kind => exact paired_ioError hs fits h
  | drop =>
    obtain rfl := Option.some.inj h
    exact ⟨trivial, hs.returned⟩
  | skip => exact paired_skip hs h
  | serve response => exact paired_serve hs h
  | close kept => exact paired_close hs h

end

theorem paired_opened : Paired .opened :=
  ⟨⟨rfl, .inr noLine_nil⟩, fun r h => by simp [Connection.opened] at h⟩

/-- A call returns bytes of the response to its own request only, in every run in which no error
that keeps the pipe strikes while an answer may still come. -/
theorem responses_paired (acts : List Act) (s : Connection)
    (run : Run (restrict Fits step) .opened acts s) :
    ∀ r ∈ s.returned, ∀ b ∈ r.line, b.call = r.call := by
  have paired : Paired s := run.invariant
    (fun s act t hs h => paired_step hs h.1 h.2) paired_opened
  exact paired.returned

instance (s : Connection) (act : Act) : Decidable (Fits s act) :=
  match act with
  | .ioError kind => decidable_of_iff
      (classifyRpcError (.io kind) = .other → s.phase.sent = false ∨ s.wire.dry = true)
      ⟨fun h _ same class_ => by cases same; exact h class_, fun h class_ => h kind rfl class_⟩
  | .call _ | .write _ | .flush | .read | .eof | .drop | .skip | .serve _ | .close _ =>
    .isTrue fun _ same _ => by cases same

namespace Sample

def exchange (line response : Bytes) : List Act :=
  [.call line, .write (line.length + 1), .flush, .serve response] ++
    List.replicate (response.length + 1) .read

def cut (line : Bytes) (written : ℕ) : List Act :=
  [.call line, .write written, .ioError .other]

def ids (n : UInt8) : Bytes := utf8 "\x7b\"jsonrpc\":\"2.0\",\"id\":" ++ [n + 48]

def request (n : UInt8) : Bytes :=
  ids n ++ utf8 ",\"method\":\"keepasskeywin.enumerateForSync\",\"params\":null\x7d"

def result (n : UInt8) : Bytes := ids n ++ utf8 ",\"result\":\x7b\"credentials\":[]\x7d\x7d"

def refused : Bytes :=
  utf8 "\x7b\"jsonrpc\":\"2.0\",\"id\":null,\"error\":" ++
    utf8 "\x7b\"code\":-32700,\"message\":\"Parse error\"\x7d\x7d"

/-- A call that is answered; one that is cut off; one whose line follows the rest of that, and is
answered with an error; and one that is answered by a server that has closed since. -/
def calls : List Act :=
  exchange (request 1) (result 1) ++ cut (request 2) 20 ++ exchange (request 3) refused ++
    [.call (request 4), .write 200, .flush, .serve (result 4), .close 30] ++
    List.replicate 30 .read ++ [.eof]

def afterCalls : Connection :=
  ⟨4, .idle, ⟨[], [], true⟩, [⟨1, tagged 1 (result 1)⟩, ⟨3, tagged 3 refused⟩,
    ⟨4, tagged 4 ((result 4).take 30)⟩]⟩

/-- The first call ends with an error of another kind before its answer is read, and the second
call reads that answer. -/
def late : List Act :=
  [.call (request 1), .write 200, .ioError .other, .serve (result 1), .call (request 2), .write 200,
    .flush] ++ List.replicate ((result 1).length + 1) .read

def afterLate : Connection :=
  ⟨2, .idle, ⟨tagged 2 (request 2) ++ [lineEnd 2], [], false⟩, [⟨2, tagged 1 (result 1)⟩]⟩

end Sample

theorem responses_paired_sample :
    Run (restrict Fits step) .opened Sample.calls Sample.afterCalls ∧
    ∀ r ∈ Sample.afterCalls.returned, ∀ b ∈ r.line, b.call = r.call := by
  have run : Run (restrict Fits step) .opened Sample.calls Sample.afterCalls :=
    run_restricted_foldlM (by decide +kernel)
  exact ⟨run, responses_paired _ _ run⟩

/-- An I/O error that is not taken for a stale pipe ends the first call once its request is
written; the second call, over the same pipe, returns the response to the first. -/
theorem late_answer_misread : ∃ acts s, Run step .opened acts s ∧
    ∃ r ∈ s.returned, r.call = 2 ∧ r.line = tagged 1 (Sample.result 1) :=
  ⟨Sample.late, Sample.afterLate, run_foldlM (by decide +kernel), _, List.mem_singleton_self _,
    rfl, rfl⟩

end KeePassKeyWin.ResponsePairing
