import KeePassKeyWin.TransitionRuns
import KeePassKeyWin.UserVerification

set_option autoImplicit false

/-!
# What user verification calls, frees and sends

Every entry of the log of a run is permitted by those before it: the tier is that of the
entrypoint, the fallback happens only after `E_NOTIMPL` and for good, a buffer is freed once,
and what is sent is what the entrypoint of that tier wrote.
-/
namespace KeePassKeyWin.UvSafety
open ByteStrings CredentialEncodings EventLogs UserVerification TransitionRuns

def Entry.calledBy (dispatch : ℕ) : Entry → Option Entrypoint
  | .called d entrypoint => if d = dispatch then some entrypoint else none
  | _ => none

def Entry.returnedBy (dispatch : ℕ) : Entry → Option Return
  | .returned d r => if d = dispatch then some r else none
  | _ => none

def lastCalled (dispatch : ℕ) : List Entry → Option Entrypoint := lastOf (Entry.calledBy dispatch)

def lastReturned (dispatch : ℕ) : List Entry → Option Return := lastOf (Entry.returnedBy dispatch)

def HasV2 (library : Except String Exports) : Prop :=
  ∃ b, bindings library = .ok b ∧ b.performUvV2 = true

def Unimplemented (log : List Entry) : Prop :=
  ∃ d r, .returned d r ∈ log ∧ r.entrypoint = .v2 ∧ r.hr = eNotimpl

def Wrote (log : List Entry) (d buffer : ℕ) (bytes : Bytes) : Prop :=
  ∃ r, .returned d r ∈ log ∧ r.buffer = some (buffer, bytes)

def Permitted (library : Except String Exports) (log : List Entry) : Entry → Prop
  | .called _ .v2 => HasV2 library ∧ ¬ Unimplemented log
  | .called _ .v1 => ¬ HasV2 library ∨ Unimplemented log
  | .returned d r => lastCalled d log = some r.entrypoint
  | .performed d hr tier => ∃ r, lastReturned d log = some r ∧
      lastCalled d log = some r.entrypoint ∧ hr = r.hr ∧ (tier = .v1 ↔ r.entrypoint = .v1) ∧
      (r.entrypoint = .v2 → ∃ b, bindings library = .ok b ∧ tier = b.performUvTier)
  | .freed buffer => (∃ d bytes, Wrote log d buffer bytes) ∧ .freed buffer ∉ log
  | .sent d uvSignatureB64 uvBindingTier => ∃ r, lastReturned d log = some r ∧
      (uvBindingTier = "v1" ↔ r.entrypoint = .v1) ∧
      uvSignatureB64 = toBase64String ((r.buffer.map Prod.snd).getD [])
  | .ended d _ => ∀ buffer bytes, Wrote log d buffer bytes → .freed buffer ∈ log

/-- A dispatch inside an entrypoint has called it last, and holds no buffer. -/
def FrameInv (w : World) (f : Frame) : Prop :=
  ∀ entrypoint, f.place = .calling entrypoint → f.pbUvResponse = none ∧
    lastCalled f.dispatch w.log = some entrypoint ∧ (entrypoint = .v2 → HasV2 w.library)

/-- `pending` is the buffer written and not yet freed. -/
structure Inv (pending : Option ℕ) (w : World) : Prop where
  lawful : Lawful (Permitted w.library) w.log
  latch : w.v2Unimplemented = true ↔ Unimplemented w.log
  begun : ∀ f ∈ w.stack, f.dispatch < w.begun
  distinct : (w.stack.map Frame.dispatch).Nodup
  frames : ∀ f ∈ w.stack, FrameInv w f
  memory : ∀ d buffer bytes, Wrote w.log d buffer bytes →
    w.memory[buffer]? = some bytes ∧ (.freed buffer ∈ w.log ∨ pending = some buffer)
  unfreed : ∀ buffer, .freed buffer ∈ w.log → buffer < w.memory.length ∧ pending ≠ some buffer
  pending : ∀ buffer, pending = some buffer → ∃ d bytes, Wrote w.log d buffer bytes

theorem inv_start (library : Except String Exports) : Inv none (World.start library) where
  lawful := .nil
  latch := by simp [World.start, Unimplemented]
  begun := by simp [World.start]
  distinct := by simp [World.start]
  frames := by simp [World.start]
  memory := by simp [World.start, Wrote]
  unfreed := by simp [World.start]
  pending := by simp

structure Running (w : World) (f : Frame) : Prop where
  begun : f.dispatch < w.begun
  off : f.dispatch ∉ w.stack.map Frame.dispatch

section
variable {w : World} {p : Option ℕ} {f : Frame}

theorem frameInv_append {g : Frame} (h : FrameInv w g) {w' : World} (library : w'.library = w.library)
    {entry : Entry} (log : w'.log = w.log ++ [entry])
    (other : Entry.calledBy g.dispatch entry = none) : FrameInv w' g := by
  intro entrypoint place
  obtain ⟨empty, called, hasV2⟩ := h entrypoint place
  refine ⟨empty, ?_, library ▸ hasV2⟩
  rw [lastCalled, log, lastOf_snoc, other]
  exact called

theorem wrote_append {log : List Entry} {entry : Entry} {d buffer : ℕ} {bytes : Bytes}
    (h : ∀ r, entry ≠ .returned d r) :
    Wrote (log ++ [entry]) d buffer bytes ↔ Wrote log d buffer bytes := by
  constructor
  · rintro ⟨r, mem, written⟩
    rcases List.mem_append.mp mem with old | new
    · exact ⟨r, old, written⟩
    · exact absurd (List.mem_singleton.mp new).symm (h r)
  · rintro ⟨r, mem, written⟩
    exact ⟨r, List.mem_append_left _ mem, written⟩

theorem unimplemented_append {log : List Entry} {entry : Entry}
    (h : ∀ d r, entry ≠ .returned d r) : Unimplemented (log ++ [entry]) ↔ Unimplemented log := by
  constructor
  · rintro ⟨d, r, mem, rest⟩
    rcases List.mem_append.mp mem with old | new
    · exact ⟨d, r, old, rest⟩
    · exact absurd (List.mem_singleton.mp new).symm (h d r)
  · rintro ⟨d, r, mem, rest⟩
    exact ⟨d, r, List.mem_append_left _ mem, rest⟩

/-- An entry that is no call, no return and no free. -/
def Plain : Entry → Prop
  | .performed .. | .sent .. | .ended .. => True
  | _ => False

theorem inv_record (h : Inv p w) {entry : Entry} (plain : Plain entry)
    (permitted : Permitted w.library w.log entry) : Inv p (w.record entry) := by
  have unreturned : ∀ d r, entry ≠ .returned d r := by
    rintro d r rfl
    exact plain
  have uncalled : ∀ d, Entry.calledBy d entry = none := by
    intro d
    cases entry <;> first | rfl | exact plain.elim
  have kept : ∀ buffer, .freed buffer ∈ (w.record entry).log ↔ .freed buffer ∈ w.log := by
    intro buffer
    refine ⟨fun mem => (List.mem_append.mp mem).resolve_right ?_, List.mem_append_left _⟩
    intro new
    rw [← List.mem_singleton.mp new] at plain
    exact plain
  refine ⟨h.lawful.snoc permitted, h.latch.trans (unimplemented_append unreturned).symm, h.begun,
    h.distinct, fun g hg => frameInv_append (h.frames g hg) rfl rfl (uncalled _), ?_, ?_, ?_⟩
  · intro d buffer bytes wrote
    obtain ⟨content, freed⟩ := h.memory d buffer bytes ((wrote_append (unreturned d)).mp wrote)
    exact ⟨content, freed.imp_left (kept buffer).mpr⟩
  · intro buffer freed
    exact h.unfreed buffer ((kept buffer).mp freed)
  · intro buffer pending
    obtain ⟨d, bytes, wrote⟩ := h.pending buffer pending
    exact ⟨d, bytes, (wrote_append (unreturned d)).mpr wrote⟩

theorem inv_free (h : Inv p w) : Inv none (freeUserVerificationResponse w p) := by
  cases p with
  | none => exact h
  | some buffer =>
    have unfreed : .freed buffer ∉ w.log := fun mem => (h.unfreed buffer mem).2 rfl
    have unreturned : ∀ d r, Entry.freed buffer ≠ .returned d r := fun d r => by simp
    obtain ⟨d, bytes, wrote⟩ := h.pending buffer rfl
    refine ⟨h.lawful.snoc ⟨⟨d, bytes, wrote⟩, unfreed⟩,
      h.latch.trans (unimplemented_append unreturned).symm, h.begun, h.distinct,
      fun g hg => frameInv_append (h.frames g hg) rfl rfl rfl, ?_, ?_, by simp⟩
    · intro d other bytes wrote
      obtain ⟨content, freed | pending⟩ :=
        h.memory d other bytes ((wrote_append (unreturned d)).mp wrote)
      · exact ⟨content, .inl (List.mem_append_left _ freed)⟩
      · obtain rfl := Option.some.inj pending
        exact ⟨content, .inl (List.mem_append_right _ (List.mem_singleton_self _))⟩
    · intro other freed
      refine ⟨?_, by simp⟩
      rcases List.mem_append.mp freed with old | new
      · exact (h.unfreed other old).1
      · obtain rfl := Entry.freed.inj (List.mem_singleton.mp new)
        exact List.getElem?_eq_some_iff.mp (h.memory d other bytes wrote).1 |>.1

theorem inv_push (h : Inv none w) (running : Running w f) (frame : FrameInv w f) :
    Inv none { w with stack := f :: w.stack } where
  lawful := h.lawful
  latch := h.latch
  begun := by
    intro g hg
    rcases List.mem_cons.mp hg with rfl | hg
    · exact running.begun
    · exact h.begun g hg
  distinct := List.nodup_cons.mpr ⟨running.off, h.distinct⟩
  frames := by
    intro g hg
    rcases List.mem_cons.mp hg with rfl | hg
    · exact frame
    · exact h.frames g hg
  memory := h.memory
  unfreed := h.unfreed
  pending := h.pending

theorem calledBy_other {entrypoint : Entrypoint} (running : Running w f) {g : Frame}
    (hg : g ∈ w.stack) : Entry.calledBy g.dispatch (.called f.dispatch entrypoint) = none := by
  refine if_neg fun same => running.off ?_
  exact same ▸ List.mem_map_of_mem hg

theorem inv_call (h : Inv none w) (running : Running w f) (empty : f.pbUvResponse = none)
    {entrypoint : Entrypoint} (permitted : Permitted w.library w.log (.called f.dispatch entrypoint)) :
    Inv none (w.call f entrypoint) := by
  have unreturned : ∀ d r, Entry.called f.dispatch entrypoint ≠ .returned d r := fun d r => by simp
  have logged : Inv none { w with log := w.log ++ [.called f.dispatch entrypoint] } := by
    refine ⟨h.lawful.snoc permitted, h.latch.trans (unimplemented_append unreturned).symm, h.begun,
      h.distinct, fun g hg => frameInv_append (h.frames g hg) rfl rfl (calledBy_other running hg),
      ?_, ?_, by simp⟩
    · intro d buffer bytes wrote
      obtain ⟨content, freed⟩ := h.memory d buffer bytes ((wrote_append (unreturned d)).mp wrote)
      exact ⟨content, freed.imp_left (List.mem_append_left _)⟩
    · intro buffer freed
      exact h.unfreed buffer ((List.mem_append.mp freed).resolve_right (by simp))
  refine inv_push (f := { f with place := .calling entrypoint }) logged ⟨running.begun, running.off⟩ ?_
  rintro _ ⟨⟩
  refine ⟨empty, ?_, ?_⟩
  · simp [lastCalled, Entry.calledBy]
  · rintro rfl
    exact permitted.1

theorem inv_receive (h : Inv none w) {entrypoint : Entrypoint} (o : Outcome) {latch : Bool}
    (called : lastCalled f.dispatch w.log = some entrypoint)
    (observed : latch = true ↔
      w.v2Unimplemented = true ∨ entrypoint = .v2 ∧ o.hr = eNotimpl) :
    Inv (o.buffer.map fun _ => w.memory.length)
      { w.receive f entrypoint o with v2Unimplemented := latch } := by
  have old : ∀ buffer bytes, w.memory[buffer]? = some bytes →
      (w.memory ++ o.buffer.toList)[buffer]? = some bytes := fun buffer bytes content =>
    List.getElem?_append_left (List.getElem?_eq_some_iff.mp content).1 ▸ content
  refine ⟨h.lawful.snoc called, ?_, h.begun, h.distinct,
    fun g hg => frameInv_append (h.frames g hg) rfl rfl rfl, ?_, ?_, ?_⟩
  · rw [observed, h.latch]
    constructor
    · rintro (⟨d, r, mem, rest⟩ | ⟨v2, notimpl⟩)
      · exact ⟨d, r, List.mem_append_left _ mem, rest⟩
      · exact ⟨f.dispatch, _, List.mem_append_right _ (List.mem_singleton_self _), v2, notimpl⟩
    · rintro ⟨d, r, mem, v2, notimpl⟩
      rcases List.mem_append.mp mem with before | new
      · exact .inl ⟨d, r, before, v2, notimpl⟩
      · obtain ⟨_, rfl⟩ := Entry.returned.inj (List.mem_singleton.mp new)
        exact .inr ⟨v2, notimpl⟩
  · rintro d buffer bytes ⟨r, mem, written⟩
    rcases List.mem_append.mp mem with before | new
    · obtain ⟨content, freed⟩ := h.memory d buffer bytes ⟨r, before, written⟩
      exact ⟨old buffer bytes content, freed.imp (List.mem_append_left _) (by simp)⟩
    · obtain ⟨_, rfl⟩ := Entry.returned.inj (List.mem_singleton.mp new)
      obtain ⟨content, hbuffer, same⟩ := Option.map_eq_some_iff.mp written
      obtain ⟨rfl, rfl⟩ := Prod.mk.inj same
      exact ⟨by simp [World.receive, hbuffer], .inr (by simp [hbuffer])⟩
  · intro buffer freed
    have before : .freed buffer ∈ w.log := (List.mem_append.mp freed).resolve_right (by simp)
    have small := (h.unfreed buffer before).1
    refine ⟨?_, ?_⟩
    · simp only [World.receive, List.length_append]
      omega
    · intro pending
      obtain ⟨_, _, rfl⟩ := Option.map_eq_some_iff.mp pending
      omega
  · intro buffer pending
    obtain ⟨bytes, hbuffer, rfl⟩ := Option.map_eq_some_iff.mp pending
    exact ⟨f.dispatch, bytes, _, List.mem_append_right _ (List.mem_singleton_self _),
      by simp [hbuffer]⟩

structure Received (w : World) (f : Frame) (r : Return) : Prop where
  returned : lastReturned f.dispatch w.log = some r
  called : lastCalled f.dispatch w.log = some r.entrypoint
  pbUvResponse : f.pbUvResponse = r.buffer.map Prod.fst
  copied : w.uvSigBytes f = (r.buffer.map Prod.snd).getD []

theorem received_receive {entrypoint : Entrypoint} (o : Outcome) (latch : Bool)
    (called : lastCalled f.dispatch w.log = some entrypoint) (empty : f.pbUvResponse = none) :
    Received { w.receive f entrypoint o with v2Unimplemented := latch }
      (f.receive w.memory.length o)
      ⟨entrypoint, o.hr, o.buffer.map (w.memory.length, ·)⟩ where
  returned := by simp [lastReturned, World.receive, Frame.receive, Entry.returnedBy]
  called := by
    simp only [lastCalled, World.receive, Frame.receive, lastOf_snoc]
    exact called
  pbUvResponse := by cases h : o.buffer <;> simp [Frame.receive, h, empty]
  copied := by
    cases h : o.buffer with
    | none => simp [World.uvSigBytes, Frame.receive, h, empty]
    | some bytes =>
      have length := o.length_written bytes h
      cases bytes with
      | nil => simp [World.uvSigBytes, Frame.receive, h, length]
      | cons b bytes => simp [World.uvSigBytes, Frame.receive, World.receive, h, length]

theorem Received.record {r : Return} (h : Received w f r) {entry : Entry}
    (unreturned : Entry.returnedBy f.dispatch entry = none)
    (uncalled : Entry.calledBy f.dispatch entry = none) : Received (w.record entry) f r where
  returned := by
    simp only [lastReturned, World.record, lastOf_snoc, unreturned]
    exact h.returned
  called := by
    simp only [lastCalled, World.record, lastOf_snoc, uncalled]
    exact h.called
  pbUvResponse := h.pbUvResponse
  copied := h.copied

theorem Received.free {r : Return} (h : Received w f r) (p : Option ℕ) :
    Received (freeUserVerificationResponse w p) f r := by
  cases p with
  | none => exact h
  | some buffer => exact h.record rfl rfl

theorem running_free (running : Running w f) (p : Option ℕ) :
    Running (freeUserVerificationResponse w p) f := by
  cases p <;> exact ⟨running.begun, running.off⟩

theorem ipcStr_v1 {tier : UvTier} : tier.ipcStr = "v1" ↔ tier = .v1 := by
  cases tier <;> decide

def TierOf (library : Except String Exports) (tier : UvTier) (entrypoint : Entrypoint) : Prop :=
  (tier = .v1 ↔ entrypoint = .v1) ∧
    (entrypoint = .v2 → ∃ b, bindings library = .ok b ∧ tier = b.performUvTier)

theorem inv_complete (h : Inv f.pbUvResponse w) (running : Running w f) {r : Return}
    (received : Received w f r) {tier : UvTier} (tierOf : TierOf w.library tier r.entrypoint) :
    Inv none (w.complete f r.hr tier) := by
  have performed : Inv f.pbUvResponse (w.record (.performed f.dispatch r.hr tier)) :=
    inv_record h trivial ⟨r, received.returned, received.called, rfl, tierOf.1, tierOf.2⟩
  have freed := inv_free performed
  have marked : Received (w.record (.performed f.dispatch r.hr tier)) f r := received.record rfl rfl
  have after := marked.free f.pbUvResponse
  have off : Running (w.record (.performed f.dispatch r.hr tier)) f := ⟨running.begun, running.off⟩
  have runs := running_free off f.pbUvResponse
  unfold World.complete
  dsimp only
  generalize freeUserVerificationResponse (w.record (.performed f.dispatch r.hr tier))
    f.pbUvResponse = u at freed after runs ⊢
  have ended : Inv none (u.record (.ended f.dispatch r.hr)) := by
    refine inv_record freed trivial fun buffer bytes wrote => ?_
    exact (freed.memory f.dispatch buffer bytes wrote).2.resolve_right (by simp)
  split_ifs
  · exact ended
  · exact ended
  · have copied : (w.record (.performed f.dispatch r.hr tier)).uvSigBytes f =
        (r.buffer.map Prod.snd).getD [] := received.copied
    have sent : Inv none (u.record (.sent f.dispatch (toBase64String
        ((w.record (.performed f.dispatch r.hr tier)).uvSigBytes f)) tier.ipcStr)) := by
      refine inv_record freed trivial ⟨r, after.returned, ipcStr_v1.trans tierOf.1, ?_⟩
      rw [copied]
    exact inv_push (f := { f with place := .rpc }) sent ⟨runs.begun, runs.off⟩ fun _ hf => by cases hf

theorem hasV2_tier {b : WebauthnBindings} {library : Except String Exports}
    (hb : bindings library = .ok b) : b.performUvV2 = true ↔ b.performUvTier ≠ .v1 := by
  cases library with
  | error e => cases hb
  | ok e =>
    obtain ⟨forceV1, stable, experimental⟩ := e
    obtain rfl := Except.ok.inj hb
    cases forceV1 <;> cases stable <;> cases experimental <;> decide

theorem inv_fallback (h : Inv f.pbUvResponse w) (running : Running w f)
    (unimplemented : Unimplemented w.log) : Inv none (w.fallback f) := by
  unfold World.fallback
  cases empty : f.pbUvResponse with
  | none =>
    rw [empty] at h
    exact inv_call h running empty (.inr unimplemented)
  | some buffer =>
    rw [empty] at h
    have still : Unimplemented (w.log ++ [.freed buffer]) :=
      (unimplemented_append fun d r => by simp).mpr unimplemented
    exact inv_call (f := { f with pbUvResponse := none, cbUvResponse := 0 }) (inv_free h)
      ⟨running.begun, running.off⟩ rfl (.inr still)

theorem inv_begin (h : Inv none w) : Inv none w.beginDispatch := by
  have fresh : Running { w with begun := w.begun + 1 } ⟨w.begun, .rpc, 0, none⟩ := by
    refine ⟨Nat.lt_succ_self _, fun mem => ?_⟩
    obtain ⟨g, hg, same⟩ := List.mem_map.mp mem
    exact absurd (h.begun g hg) (by simp [same])
  have next : Inv none { w with begun := w.begun + 1 } :=
    ⟨h.lawful, h.latch, fun g hg => (h.begun g hg).trans (Nat.lt_succ_self _), h.distinct, h.frames,
      h.memory, h.unfreed, h.pending⟩
  unfold World.beginDispatch
  dsimp only
  cases hb : bindings w.library with
  | error e =>
    refine inv_record next trivial fun buffer bytes wrote => ?_
    exact (next.memory _ buffer bytes wrote).2.resolve_right (by simp)
  | ok b =>
    dsimp only
    split_ifs with missing latched
    · refine inv_call next fresh rfl (.inl ?_)
      rintro ⟨b', hb', resolved⟩
      obtain rfl := Except.ok.inj (hb.symm.trans hb')
      exact absurd resolved (by simp [missing])
    · exact inv_call next fresh rfl (.inr (h.latch.mp latched))
    · have resolved : b.performUvV2 = true := by simpa using missing
      exact inv_call next fresh rfl ⟨⟨b, hb, resolved⟩, fun notimpl => latched (h.latch.mpr notimpl)⟩

end

theorem inv_pop {w : World} {f : Frame} {rest : List Frame} (h : Inv none w)
    (top : w.stack = f :: rest) :
    Inv none { w with stack := rest } ∧ Running { w with stack := rest } f := by
  have distinct := h.distinct
  rw [top, List.map_cons, List.nodup_cons] at distinct
  exact ⟨⟨h.lawful, h.latch, fun g hg => h.begun g (by simp [top, hg]), distinct.2,
    fun g hg => h.frames g (by simp [top, hg]), h.memory, h.unfreed, h.pending⟩,
    h.begun f (by simp [top]), distinct.1⟩

theorem inv_returns {w : World} {f : Frame} {rest : List Frame} (h : Inv none w)
    (top : w.stack = f :: rest) {entrypoint : Entrypoint} (place : f.place = .calling entrypoint)
    {b : WebauthnBindings} (hb : bindings w.library = .ok b) (o : Outcome) :
    Inv none ({ w with stack := rest }.entrypointReturns b f o entrypoint) := by
  have mem : f ∈ w.stack := by simp [top]
  obtain ⟨empty, called, hasV2⟩ := h.frames f mem entrypoint place
  obtain ⟨popped, running⟩ := inv_pop h top
  have pending : ∀ buffers, (f.receive buffers o).pbUvResponse = o.buffer.map fun _ => buffers := by
    intro buffers
    cases hbuffer : o.buffer <;> simp [Frame.receive, hbuffer, empty]
  cases entrypoint with
  | v1 =>
    have kept : w.v2Unimplemented = true ↔
        w.v2Unimplemented = true ∨ Entrypoint.v1 = .v2 ∧ o.hr = eNotimpl := by simp
    have received := inv_receive popped o called kept
    rw [← pending] at received
    exact inv_complete received ⟨running.begun, running.off⟩
      (received_receive o w.v2Unimplemented called empty) ⟨by simp, by simp⟩
  | v2 =>
    have observed : observeV2Result w.v2Unimplemented o.hr = true ↔
        w.v2Unimplemented = true ∨ Entrypoint.v2 = .v2 ∧ o.hr = eNotimpl := by
      simp [observeV2Result, shouldFallbackToV1, or_comm]
    have received := inv_receive popped o called observed
    rw [← pending] at received
    simp only [World.entrypointReturns]
    split_ifs with fallback
    · refine inv_fallback received ⟨running.begun, running.off⟩
        ⟨f.dispatch, _, List.mem_append_right _ (List.mem_singleton_self _), rfl, ?_⟩
      simpa [shouldFallbackToV1] using fallback
    · have resolved : b.performUvV2 = true := by
        obtain ⟨b', hb', resolved⟩ := hasV2 rfl
        obtain rfl := Except.ok.inj (hb.symm.trans hb')
        exact resolved
      exact inv_complete received ⟨running.begun, running.off⟩
        (received_receive o _ called empty)
        ⟨by simpa using (hasV2_tier hb).mp resolved, fun _ => ⟨b, hb, rfl⟩⟩

theorem inv_step {w w' : World} {event : Event} (h : Inv none w) (hs : step w event w') :
    Inv none w' := by
  cases event with
  | beginDispatch =>
    obtain rfl := Option.some.inj hs
    exact inv_begin h
  | entrypointReturns o =>
    simp only [step, World.perform] at hs
    split at hs
    · rename_i f rest b top hb
      split at hs
      · rename_i entrypoint place
        obtain rfl := Option.some.inj hs
        exact inv_returns h top place hb o
      · cases hs
    · cases hs
  | rpcReturns hr =>
    simp only [step, World.perform] at hs
    split at hs
    · rename_i f rest top
      split_ifs at hs
      obtain rfl := Option.some.inj hs
      refine inv_record (inv_pop h top).1 trivial fun buffer bytes wrote => ?_
      exact (h.memory _ buffer bytes wrote).2.resolve_right (by simp)
    · cases hs

def sampleEvents : List Event :=
  let none : Outcome := ⟨0, none, none, by simp⟩
  let notimpl : Outcome := ⟨eNotimpl, some [1, 2], some 2, by simp⟩
  let signed : Outcome := ⟨0, some [3, 4, 5], some 3, by simp⟩
  [.beginDispatch, .entrypointReturns notimpl, .beginDispatch, .entrypointReturns none,
    .rpcReturns eFail, .entrypointReturns signed, .rpcReturns 0]

end KeePassKeyWin.UvSafety
