import KeePassKeyWin.TransitionRuns
import Mathlib.Data.BitVec

set_option autoImplicit false

/-!
# The lifetime of the authenticator objects

The class factory and the reference counts of `com::exe_server` and `com::server`, with clients
that give back only what they were handed. The constructor's own reference is never released.
-/
namespace KeePassKeyWin.ComLifetime
open TransitionRuns

abbrev Guid := BitVec 128

def iidIUnknown : Guid := 0x0000000000000000C000000000000046#128

def iidIPluginAuthenticator : Guid := 0xd26bcf6fb54c43ff9f06d5bf148625f7#128

def Supported (riid : Guid) : Prop := riid = iidIUnknown ∨ riid = iidIPluginAuthenticator

instance (riid : Guid) : Decidable (Supported riid) :=
  inferInstanceAs (Decidable (_ ∨ _))

abbrev HResult := BitVec 32

def sOk : HResult := 0#32

def eNoInterface : HResult := 0x80004002#32

def isErr (hr : HResult) : Bool := hr.msb

inductive Cell where
  | live (refCount : UInt32)
  | freed
  deriving DecidableEq, Repr

/-- The sidecar's heap, what `CoAddRefServerProcess` and `CoReleaseServerProcess` have counted,
and the objects freed so far, each with one `CoReleaseServerProcess`. -/
structure Process where
  heap : List Cell
  serverCount : ℤ
  frees : List ℕ
  deriving DecidableEq, Repr

namespace Process

def coAddRefServerProcess (p : Process) : Process := { p with serverCount := p.serverCount + 1 }

def coReleaseServerProcess (p : Process) : Process := { p with serverCount := p.serverCount - 1 }

def store (this : ℕ) (cell : Cell) (p : Process) : Process :=
  { p with heap := p.heap.set this cell }

def free (this : ℕ) (p : Process) : Process :=
  coReleaseServerProcess { p.store this .freed with frees := p.frees ++ [this] }

/-- There is no result for an object that has been freed. -/
def addRef (this : ℕ) (p : Process) : Option (UInt32 × Process) :=
  match p.heap[this]? with
  | some (.live prev) => some (prev + 1, p.store this (.live (prev + 1)))
  | _ => none

def release (this : ℕ) (p : Process) : Option (UInt32 × Process) :=
  match p.heap[this]? with
  | some (.live prev) =>
    if prev = 1 then some (0, p.free this) else some (prev - 1, p.store this (.live (prev - 1)))
  | _ => none

def queryInterface (this : ℕ) (riid : Guid) (p : Process) : Option (HResult × Process) :=
  if Supported riid then
    (p.addRef this).map fun (_, p) => (sOk, p)
  else some (eNoInterface, p)

def new (p : Process) : Process := { p with heap := p.heap ++ [.live 1] }

def createInstance (riid : Guid) (p : Process) : Option (HResult × Process) :=
  let raw := p.heap.length
  match p.new.coAddRefServerProcess.queryInterface raw riid with
  | some (hr, p) => if isErr hr then some (hr, p.free raw) else some (hr, p)
  | none => none

def lockServer (lock : ℤ) (p : Process) : Process :=
  if lock ≠ 0 then p.coAddRefServerProcess else p.coReleaseServerProcess

end Process

inductive Call where
  | createInstance (riid : Guid)
  | lockServer (lock : ℤ)
  | queryInterface (this : ℕ) (riid : Guid)
  | addRef (this : ℕ)
  | release (this : ℕ)
  deriving DecidableEq, Repr

structure System where
  process : Process
  held : List ℕ
  locks : ℤ
  deriving DecidableEq, Repr

def System.start : System := ⟨⟨[], 0, []⟩, [], 0⟩

def System.holds (s : System) (this : ℕ) : ℕ := s.held[this]?.getD 0

/-- A client calls an object, and releases it, only through a reference it holds. -/
def Legal (s : System) : Call → Prop
  | .createInstance _ | .lockServer _ => True
  | .queryInterface this _ | .addRef this | .release this => 0 < s.holds this

instance (s : System) (call : Call) : Decidable (Legal s call) := by
  cases call <;> unfold Legal <;> infer_instance

def handedOut (hr : HResult) : ℕ := if isErr hr then 0 else 1

def perform (s : System) : Call → Option System
  | .createInstance riid =>
    (s.process.createInstance riid).map fun (hr, p) => ⟨p, s.held ++ [handedOut hr], s.locks⟩
  | .lockServer lock =>
    some { s with
      process := s.process.lockServer lock
      locks := if lock ≠ 0 then s.locks + 1 else s.locks - 1 }
  | .queryInterface this riid =>
    (s.process.queryInterface this riid).map fun (hr, p) =>
      { s with process := p, held := s.held.set this (s.holds this + handedOut hr) }
  | .addRef this =>
    (s.process.addRef this).map fun (_, p) =>
      { s with process := p, held := s.held.set this (s.holds this + 1) }
  | .release this =>
    (s.process.release this).map fun (_, p) =>
      { s with process := p, held := s.held.set this (s.holds this - 1) }

def step : System → Call → System → Prop := restrict Legal fun s call t => perform s call = some t

/-- What the reference counts are for. -/
structure Balanced (s : System) : Prop where
  refCount : ∀ this n, s.process.heap[this]? = some (.live n) → n.toNat = s.holds this
  freed : ∀ this, this < s.process.heap.length →
    (s.process.heap[this]? = some .freed ↔ s.holds this = 0) ∧
      s.process.frees.count this = if s.holds this = 0 then 1 else 0
  serverCount : s.process.serverCount = (s.held.countP (0 < ·) : ℕ) + s.locks
  returns : (∀ this, s.holds this = 0) → s.locks = 0 → s.process.serverCount = 0

def Creates : Call → Prop
  | .createInstance riid => Supported riid
  | _ => False

instance (call : Call) : Decidable (Creates call) := by
  cases call <;> unfold Creates <;> infer_instance

theorem getElem?_new (p : Process) : p.new.heap[p.heap.length]? = some (.live 1) := by
  simp [Process.new]

theorem createInstance_supported {riid : Guid} (h : Supported riid) (p : Process) :
    p.createInstance riid =
      some (sOk, { p with heap := p.heap ++ [.live 2], serverCount := p.serverCount + 1 }) := by
  have found : p.new.coAddRefServerProcess.heap[p.heap.length]? = some (.live 1) := getElem?_new p
  have queried : p.new.coAddRefServerProcess.queryInterface p.heap.length riid =
      some (sOk, p.new.coAddRefServerProcess.store p.heap.length (.live 2)) := by
    rw [Process.queryInterface, if_pos h, Process.addRef, found]
    rfl
  have fine : isErr sOk = false := by decide
  simp only [Process.createInstance, queried, fine, Bool.false_eq_true, if_false]
  simp [Process.store, Process.new, Process.coAddRefServerProcess]

theorem createInstance_unsupported {riid : Guid} (h : ¬ Supported riid) (p : Process) :
    p.createInstance riid =
      some (eNoInterface, { p with
        heap := p.heap ++ [.freed], frees := p.frees ++ [p.heap.length] }) := by
  have queried : p.new.coAddRefServerProcess.queryInterface p.heap.length riid =
      some (eNoInterface, p.new.coAddRefServerProcess) := if_neg h
  have failed : isErr eNoInterface = true := by decide
  simp only [Process.createInstance, queried, failed, if_true]
  simp [Process.free, Process.store, Process.new, Process.coAddRefServerProcess,
    Process.coReleaseServerProcess]

def Cell.isLive : Cell → Bool
  | .live _ => true
  | .freed => false

def System.grown (s : System) (cell : Cell) (k : ℕ) (frees : List ℕ) : System where
  process := ⟨s.process.heap ++ [cell], s.process.serverCount + if cell.isLive then 1 else 0, frees⟩
  held := s.held ++ [k]
  locks := s.locks

theorem perform_createInstance_supported {riid : Guid} (h : Supported riid) (s : System) :
    perform s (.createInstance riid) = some (s.grown (.live 2) 1 s.process.frees) := by
  rw [perform, createInstance_supported h]
  rfl

theorem perform_createInstance_unsupported {riid : Guid} (h : ¬ Supported riid) (s : System) :
    perform s (.createInstance riid) =
      some (s.grown .freed 0 (s.process.frees ++ [s.process.heap.length])) := by
  have none : handedOut eNoInterface = 0 := by decide
  rw [perform, createInstance_unsupported h]
  simp [System.grown, Cell.isLive, none]

section
variable {s : System} (aligned : s.held.length = s.process.heap.length) (cell : Cell) (k : ℕ)
variable (frees : List ℕ)
include aligned

theorem holds_grown_last : (s.grown cell k frees).holds s.process.heap.length = k := by
  simp [System.holds, System.grown, ← aligned]

theorem holds_grown {this : ℕ} (bound : this < s.process.heap.length) :
    (s.grown cell k frees).holds this = s.holds this := by
  rw [← aligned] at bound
  simp [System.holds, System.grown, List.getElem?_append_left bound]

end

theorem set_holds_self (s : System) (this : ℕ) : s.held.set this (s.holds this) = s.held := by
  apply List.ext_getElem?
  intro i
  by_cases same : this = i
  · subst same
    cases held : s.held[this]? with
    | none => simp [List.getElem?_eq_none_iff.mp held]
    | some n =>
      obtain ⟨bound, own⟩ := List.getElem?_eq_some_iff.mp held
      simp [System.holds, bound, own]
  · simp [same]

structure Unused (s : System) : Prop where
  heap : ∀ cell ∈ s.process.heap, cell = .freed
  frees : s.process.frees = List.range s.process.heap.length
  held : ∀ n ∈ s.held, n = 0
  serverCount : s.process.serverCount = s.locks

theorem Unused.holds {s : System} (h : Unused s) (this : ℕ) : s.holds this = 0 := by
  cases found : s.held[this]? with
  | none => simp [System.holds, found]
  | some n => simp [System.holds, found, h.held n (List.mem_of_getElem? found)]

theorem unused_start : Unused System.start := ⟨by simp [System.start], rfl, by simp [System.start], rfl⟩

theorem unused_step {s t : System} {call : Call} (h : Unused s) (other : ¬ Creates call)
    (hs : step s call t) : Unused t := by
  obtain ⟨legal, run⟩ := hs
  cases call with
  | createInstance riid =>
    rw [perform_createInstance_unsupported other] at run
    obtain rfl := Option.some.inj run
    refine ⟨?_, ?_, ?_, (add_zero _).trans h.serverCount⟩
    · intro cell mem
      rcases List.mem_append.mp mem with old | new
      · exact h.heap cell old
      · exact List.mem_singleton.mp new
    · simp [System.grown, h.frees, List.range_succ]
    · intro n mem
      rcases List.mem_append.mp mem with old | new
      · exact h.held n old
      · exact List.mem_singleton.mp new
  | lockServer lock =>
    obtain rfl := Option.some.inj run
    have count := h.serverCount
    by_cases on : lock ≠ 0
    · simp only [Process.lockServer, if_pos on]
      exact ⟨h.heap, h.frees, h.held, congrArg (· + 1) count⟩
    · simp only [Process.lockServer, if_neg on]
      exact ⟨h.heap, h.frees, h.held, congrArg (· - 1) count⟩
  | queryInterface this riid => exact absurd legal (by simp [Legal, h.holds])
  | addRef this => exact absurd legal (by simp [Legal, h.holds])
  | release this => exact absurd legal (by simp [Legal, h.holds])

theorem balanced_of_unused {s : System} (h : Unused s) : Balanced s where
  refCount this n found := by cases h.heap _ (List.mem_of_getElem? found)
  freed this bound := by
    have found := List.getElem?_eq_getElem bound
    rw [h.heap _ (List.getElem_mem bound)] at found
    have once : s.process.frees.count this = 1 := by
      rw [h.frees]
      exact List.count_eq_one_of_mem List.nodup_range (List.mem_range.mpr bound)
    simp [found, once, h.holds]
  serverCount := by
    have none : s.held.countP (0 < ·) = 0 :=
      List.countP_eq_zero.mpr fun n mem => by simp [h.held n mem]
    rw [h.serverCount, none]
    simp
  returns _ unlocked := h.serverCount.trans unlocked

theorem addRef_length {this : ℕ} {p q : Process} {n : UInt32}
    (h : p.addRef this = some (n, q)) : q.heap.length = p.heap.length := by
  unfold Process.addRef at h
  split at h
  · obtain ⟨_, rfl⟩ := Prod.mk.inj (Option.some.inj h)
    exact List.length_set
  · cases h

theorem release_length {this : ℕ} {p q : Process} {n : UInt32}
    (h : p.release this = some (n, q)) : q.heap.length = p.heap.length := by
  unfold Process.release at h
  split at h
  · split_ifs at h <;>
      (obtain ⟨_, rfl⟩ := Prod.mk.inj (Option.some.inj h)
       exact List.length_set)
  · cases h

theorem queryInterface_length {this : ℕ} {riid : Guid} {p q : Process} {hr : HResult}
    (h : p.queryInterface this riid = some (hr, q)) : q.heap.length = p.heap.length := by
  unfold Process.queryInterface at h
  split_ifs at h
  · obtain ⟨⟨n, q'⟩, raised, same⟩ := Option.map_eq_some_iff.mp h
    obtain ⟨_, rfl⟩ := Prod.mk.inj same
    exact addRef_length raised
  · obtain ⟨_, rfl⟩ := Prod.mk.inj (Option.some.inj h)
    rfl

theorem perform_aligned {s t : System} {call : Call}
    (h : s.held.length = s.process.heap.length) (run : perform s call = some t) :
    t.held.length = t.process.heap.length := by
  cases call with
  | createInstance riid =>
    by_cases supported : Supported riid
    · rw [perform_createInstance_supported supported] at run
      obtain rfl := Option.some.inj run
      simp [System.grown, h]
    · rw [perform_createInstance_unsupported supported] at run
      obtain rfl := Option.some.inj run
      simp [System.grown, h]
  | lockServer lock =>
    obtain rfl := Option.some.inj run
    by_cases on : lock ≠ 0
    · simpa [Process.lockServer, on, Process.coAddRefServerProcess] using h
    · simpa [Process.lockServer, on, Process.coReleaseServerProcess] using h
  | queryInterface this riid =>
    obtain ⟨⟨hr, q⟩, queried, rfl⟩ := Option.map_eq_some_iff.mp run
    exact List.length_set.trans (h.trans (queryInterface_length queried).symm)
  | addRef this =>
    obtain ⟨⟨n, q⟩, raised, rfl⟩ := Option.map_eq_some_iff.mp run
    exact List.length_set.trans (h.trans (addRef_length raised).symm)
  | release this =>
    obtain ⟨⟨n, q⟩, lowered, rfl⟩ := Option.map_eq_some_iff.mp run
    exact List.length_set.trans (h.trans (release_length lowered).symm)

theorem unbalanced_created {s t : System} {call : Call}
    (aligned : s.held.length = s.process.heap.length) (creates : Creates call)
    (run : perform s call = some t) : ¬ Balanced t := by
  cases call with
  | createInstance riid =>
    rw [perform_createInstance_supported creates] at run
    obtain rfl := Option.some.inj run
    intro balanced
    have count := balanced.refCount s.process.heap.length 2 (by simp [System.grown])
    rw [holds_grown_last aligned] at count
    exact absurd count (by decide)
  | lockServer _ => cases creates
  | queryInterface _ _ => cases creates
  | addRef _ => cases creates
  | release _ => cases creates

/-- Every object that was handed out is live and counts one reference more than its clients hold. -/
structure Offset (s : System) : Prop where
  aligned : s.held.length = s.process.heap.length
  live : ∀ this n, s.process.heap[this]? = some (.live n) → n.toNat = s.holds this + 1
  freed : ∀ this, s.process.heap[this]? = some .freed → s.holds this = 0
  serverCount : s.process.serverCount = (s.process.heap.countP Cell.isLive : ℕ) + s.locks

def Room (s : System) : Call → Prop
  | .queryInterface this _ | .addRef this => s.holds this + 2 < 2 ^ 32
  | _ => True

theorem offset_start : Offset System.start := ⟨rfl, by simp [System.start], by simp [System.start], rfl⟩

theorem countP_set_live {heap : List Cell} {this : ℕ} {n : UInt32} (m : UInt32)
    (found : heap[this]? = some (.live n)) :
    (heap.set this (.live m)).countP Cell.isLive = heap.countP Cell.isLive := by
  obtain ⟨bound, cell⟩ := List.getElem?_eq_some_iff.mp found
  have counted : 0 < heap.countP Cell.isLive :=
    List.countP_pos_iff.mpr ⟨_, List.getElem_mem bound, by simp [cell, Cell.isLive]⟩
  rw [List.countP_set bound, cell]
  simp only [Cell.isLive, if_true]
  omega

section
variable {s : System} {this : ℕ} {n : UInt32}

theorem Offset.found (h : Offset s) (held : 0 < s.holds this) :
    ∃ n, s.process.heap[this]? = some (.live n) ∧ n.toNat = s.holds this + 1 := by
  cases cell : s.process.heap[this]? with
  | none =>
    have outside := List.getElem?_eq_none_iff.mp cell
    rw [← h.aligned] at outside
    simp [System.holds, List.getElem?_eq_none outside] at held
  | some c =>
    cases c with
    | live n => exact ⟨n, rfl, h.live this n cell⟩
    | freed => exact absurd (h.freed this cell) (by omega)

theorem Offset.store (h : Offset s) (found : s.process.heap[this]? = some (.live n)) {m : UInt32}
    {k : ℕ} (fits : m.toNat = k + 1) :
    Offset { s with process := s.process.store this (.live m), held := s.held.set this k } where
  aligned := by simpa [Process.store] using h.aligned
  live that c := by
    have bound : this < s.held.length := h.aligned ▸ (List.getElem?_eq_some_iff.mp found).1
    by_cases same : this = that
    · subst same
      intro stored
      have own : Cell.live m = .live c := by
        simpa [Process.store, h.aligned ▸ bound] using stored
      obtain rfl := Cell.live.inj own
      simp [System.holds, bound, fits]
    · intro stored
      have old : s.process.heap[that]? = some (.live c) := by
        simpa [Process.store, same] using stored
      simpa [System.holds, same] using h.live that c old
  freed that stored := by
    by_cases same : this = that
    · subst same
      have bound := (List.getElem?_eq_some_iff.mp found).1
      simp [Process.store, bound] at stored
    · have old : s.process.heap[that]? = some .freed := by
        simpa [Process.store, same] using stored
      simpa [System.holds, same] using h.freed that old
  serverCount := by
    have same := countP_set_live m found
    simpa [Process.store, same] using h.serverCount

theorem toNat_succ {k : ℕ} (h : n.toNat = k + 1) (room : k + 2 < 2 ^ 32) :
    (n + 1).toNat = k + 1 + 1 := by
  rw [UInt32.toNat_add, h]
  exact Nat.mod_eq_of_lt (by simpa using room)

theorem toNat_pred {k : ℕ} (h : n.toNat = k + 1) : (n - 1).toNat = k := by
  have one : (1 : UInt32) ≤ n := by
    rw [UInt32.le_iff_toNat_le, h]
    simp
  rw [UInt32.toNat_sub_of_le _ _ one, h]
  simp

theorem addRef_of_live {p : Process} (found : p.heap[this]? = some (.live n)) :
    p.addRef this = some (n + 1, p.store this (.live (n + 1))) := by
  rw [Process.addRef, found]

theorem Offset.addRef (h : Offset s) (held : 0 < s.holds this) (room : s.holds this + 2 < 2 ^ 32) :
    ∃ n, s.process.addRef this = some (n + 1, s.process.store this (.live (n + 1))) ∧
      Offset { s with
        process := s.process.store this (.live (n + 1))
        held := s.held.set this (s.holds this + 1) } ∧
      s.process.heap[this]? = some (.live n) := by
  obtain ⟨n, found, count⟩ := h.found held
  exact ⟨n, addRef_of_live found, h.store found (toNat_succ count room), found⟩

theorem Offset.release (h : Offset s) (held : 0 < s.holds this) :
    ∃ n, s.process.release this = some (n - 1, s.process.store this (.live (n - 1))) ∧
      Offset { s with
        process := s.process.store this (.live (n - 1))
        held := s.held.set this (s.holds this - 1) } ∧
      s.process.heap[this]? = some (.live n) := by
  obtain ⟨n, found, count⟩ := h.found held
  have more : n ≠ 1 := by
    rintro rfl
    simp at count
    omega
  have pred := toNat_pred count
  refine ⟨n, ?_, h.store found (by omega), found⟩
  rw [Process.release, found]
  exact if_neg more

end

theorem getElem?_append_last {α : Type} {l : List α} {a b : α} {i : ℕ}
    (h : (l ++ [a])[i]? = some b) : l[i]? = some b ∨ i = l.length ∧ b = a := by
  rcases lt_trichotomy i l.length with inside | same | outside
  · exact .inl (by rwa [List.getElem?_append_left inside] at h)
  · subst same
    exact .inr ⟨rfl, by simpa using h.symm⟩
  · rw [List.getElem?_eq_none (by simp; omega)] at h
    cases h

theorem Offset.grown {s : System} (h : Offset s) (cell : Cell) (k : ℕ) (frees : List ℕ)
    (live : ∀ n, cell = .live n → n.toNat = k + 1) (freed : cell = .freed → k = 0) :
    Offset (s.grown cell k frees) where
  aligned := by simp [System.grown, h.aligned]
  live i n found := by
    rcases getElem?_append_last found with old | ⟨rfl, same⟩
    · rw [holds_grown h.aligned cell k frees (List.getElem?_eq_some_iff.mp old).1]
      exact h.live i n old
    · rw [holds_grown_last h.aligned]
      exact live n same.symm
  freed i found := by
    rcases getElem?_append_last found with old | ⟨rfl, same⟩
    · rw [holds_grown h.aligned cell k frees (List.getElem?_eq_some_iff.mp old).1]
      exact h.freed i old
    · rw [holds_grown_last h.aligned]
      exact freed same.symm
  serverCount := by
    have count := h.serverCount
    cases cell with
    | live n =>
      simp only [System.grown, List.countP_append, Cell.isLive, if_true, count]
      simp [Cell.isLive]
      omega
    | freed => simp [System.grown, List.countP_append, Cell.isLive, count]

def liveObjects (s : System) : ℕ := s.process.heap.countP Cell.isLive

/-- A call that a client may make is served, frees nothing that was handed out, and keeps the
count of every object one above what its clients hold. -/
theorem offset_step {s : System} {call : Call} (h : Offset s) (room : Room s call)
    (legal : Legal s call) : ∃ t, perform s call = some t ∧ Offset t ∧
      liveObjects t = liveObjects s + if Creates call then 1 else 0 := by
  cases call with
  | createInstance riid =>
    by_cases supported : Supported riid
    · refine ⟨_, perform_createInstance_supported supported s, h.grown _ _ _ ?_ (by simp), ?_⟩
      · intro n same
        obtain rfl := Cell.live.inj same
        rfl
      · simp [liveObjects, System.grown, List.countP_append, Cell.isLive, Creates, supported]
    · refine ⟨_, perform_createInstance_unsupported supported s, h.grown _ _ _ (by simp) (by simp), ?_⟩
      simp [liveObjects, System.grown, List.countP_append, Cell.isLive, Creates, supported]
  | lockServer lock =>
    refine ⟨_, rfl, ?_, ?_⟩
    · have count := h.serverCount
      by_cases on : lock ≠ 0
      · simp only [Process.lockServer, if_pos on]
        exact ⟨h.aligned, h.live, h.freed, by
          simp only [Process.coAddRefServerProcess, count]
          omega⟩
      · simp only [Process.lockServer, if_neg on]
        exact ⟨h.aligned, h.live, h.freed, by
          simp only [Process.coReleaseServerProcess, count]
          omega⟩
    · by_cases on : lock ≠ 0
      · simp [liveObjects, Process.lockServer, on, Process.coAddRefServerProcess, Creates]
      · simp [liveObjects, Process.lockServer, on, Process.coReleaseServerProcess, Creates]
  | queryInterface this riid =>
    by_cases supported : Supported riid
    · obtain ⟨n, raised, kept, found⟩ := h.addRef legal room
      refine ⟨_, ?_, kept, countP_set_live _ found⟩
      rw [perform, Process.queryInterface, if_pos supported, raised]
      rfl
    · have refused : s.process.queryInterface this riid = some (eNoInterface, s.process) :=
        if_neg supported
      have none : handedOut eNoInterface = 0 := by decide
      refine ⟨s, ?_, h, rfl⟩
      rw [perform, refused, Option.map_some]
      dsimp only
      rw [none, Nat.add_zero, set_holds_self]
  | addRef this =>
    obtain ⟨n, raised, kept, found⟩ := h.addRef legal room
    refine ⟨_, ?_, kept, countP_set_live _ found⟩
    rw [perform, raised]
    rfl
  | release this =>
    obtain ⟨n, lowered, kept, found⟩ := h.release legal
    refine ⟨_, ?_, kept, countP_set_live _ found⟩
    rw [perform, lowered]
    rfl

/-- As long as the counts have room, no object that was handed out is ever freed, and each of
them keeps the process from ending. -/
theorem objects_never_freed {calls : List Call} {t : System}
    (run : Run (restrict Room step) System.start calls t) :
    Offset t ∧ t.process.serverCount = (calls.countP (Creates ·) : ℕ) + t.locks := by
  suffices general : ∀ s, Offset s → Run (restrict Room step) s calls t →
      Offset t ∧ liveObjects t = liveObjects s + calls.countP (Creates ·) by
    obtain ⟨offset, live⟩ := general _ offset_start run
    have none : liveObjects System.start = 0 := rfl
    have count := offset.serverCount
    rw [none, Nat.zero_add] at live
    rw [← live]
    exact ⟨offset, count⟩
  intro s offset reached
  clear run
  induction reached with
  | nil s => exact ⟨offset, rfl⟩
  | @cons s u t call calls head _ ih =>
    obtain ⟨room, legal, run⟩ := head
    obtain ⟨_, run', offset', live⟩ := offset_step offset room legal
    obtain rfl := Option.some.inj (run.symm.trans run')
    obtain ⟨last, total⟩ := ih offset'
    refine ⟨last, ?_⟩
    rw [total, live, List.countP_cons]
    by_cases creates : Creates call <;> simp [creates]
    omega

/-- In every run of clients that give back only what they were handed, the counts are right in
every state reached if and only if no call hands out an object. -/
theorem balanced_throughout_iff (calls : List Call) (t : System)
    (run : Run step System.start calls t) :
    (∀ before after u, calls = before ++ after → Run step System.start before u → Balanced u) ↔
      ∀ call ∈ calls, ¬ Creates call := by
  constructor
  · intro balanced call mem creates
    obtain ⟨before, after, rfl⟩ := List.append_of_mem mem
    obtain ⟨s, first, rest⟩ := run.split
    cases rest with
    | @cons _ u _ _ _ head _ =>
      have right := balanced (before ++ [call]) after u (by simp) (first.append (.single head))
      have aligned : s.held.length = s.process.heap.length :=
        first.invariant (I := fun s => s.held.length = s.process.heap.length)
          (fun _ _ _ h hs => perform_aligned h hs.2) rfl
      exact unbalanced_created aligned creates head.2 right
  · rintro none before after u rfl reached
    have fits := reached.restrict_labels fun call mem => none call (List.mem_append_left _ mem)
    exact balanced_of_unused (fits.invariant (fun _ _ _ h hs => unused_step h hs.1 hs.2) unused_start)

theorem balanced_throughout_iff_sample : ∃ t,
    Run step System.start [.createInstance 7, .lockServer 1, .lockServer 0] t ∧ Balanced t := by
  have run : Run step System.start [.createInstance 7, .lockServer 1, .lockServer 0]
      ⟨⟨[.freed], 0, [0]⟩, [0], 0⟩ := run_restricted_foldlM (by decide +kernel)
  have all := (balanced_throughout_iff _ _ run).mpr (by decide)
  exact ⟨_, run, all _ [] _ (List.append_nil _).symm run⟩

/-- A client creates an object and releases it: the object stays, and so does the process. -/
theorem released_object_stays : ∃ t, Run step System.start
      [.createInstance iidIPluginAuthenticator, .release 0] t ∧
    t = ⟨⟨[.live 1], 1, []⟩, [0], 0⟩ ∧ ¬ Balanced t := by
  refine ⟨_, run_restricted_foldlM (by decide +kernel), rfl, fun balanced => ?_⟩
  have none : ∀ this, System.holds ⟨⟨[.live 1], 1, []⟩, [0], 0⟩ this = 0 := by
    intro this
    cases this <;> rfl
  exact absurd (balanced.returns none rfl) (by decide)

end KeePassKeyWin.ComLifetime
