import KeePassKeyWin.TransitionRuns

set_option autoImplicit false

/-!
# Counters that are stored before they are handed out

One counter with its value in memory, its stored copy and the values handed out. The next
value is taken from memory, written back, and handed out when a store has succeeded. Memory may
run ahead of the copy, be lost and be loaded again.
-/
namespace KeePassKeyWin.DurableCounter
open TransitionRuns

structure Counter where
  /-- The counter has existed. -/
  born : Bool
  memory : Option ℕ
  stored : Option ℕ
  /-- The value that is being handed out. -/
  pending : Option ℕ
  issued : List ℕ

inductive Move where
  | create
  | take
  | raise
  | giveUp
  | store
  | issue
  | lose
  | load
  | stay
  deriving DecidableEq

inductive Step (limit : ℕ) : Counter → Move → Counter → Prop
  | create (c : Counter) (unborn : c.born = false) :
      Step limit c .create { c with born := true, memory := some 0 }
  | take (c : Counter) (m : ℕ) (present : c.memory = some m) (below : m < limit) :
      Step limit c .take { c with pending := some (m + 1) }
  | raise (c : Counter) (n : ℕ) (pending : c.pending = some n) :
      Step limit c .raise { c with memory := c.memory.map fun _ => n }
  | giveUp (c : Counter) : Step limit c .giveUp { c with pending := none }
  | store (c : Counter) : Step limit c .store { c with stored := c.memory }
  | issue (c : Counter) (n : ℕ) (pending : c.pending = some n)
      (raised : ∀ m, c.memory = some m → n ≤ m) :
      Step limit c .issue
        { c with stored := c.memory, pending := none, issued := c.issued ++ [n] }
  | lose (c : Counter) : Step limit c .lose { c with memory := none }
  | load (c : Counter) : Step limit c .load { c with memory := c.stored }
  | stay (c : Counter) : Step limit c .stay c

/-- No value is handed out below one that was, whatever memory, copy and holder have. -/
structure Sound (limit : ℕ) (c : Counter) : Prop where
  increasing : c.issued.Pairwise (· < ·)
  bounded : ∀ v ∈ c.issued, v ≤ limit
  memory : ∀ v ∈ c.issued, ∀ m, c.memory = some m → v ≤ m
  stored : ∀ v ∈ c.issued, ∀ m, c.stored = some m → v ≤ m
  pending : ∀ n, c.pending = some n → n ≤ limit ∧ ∀ v ∈ c.issued, v < n
  unborn : c.born = false → c.memory = none ∧ c.stored = none ∧ c.pending = none ∧ c.issued = []

/-- The counter is used up in memory and not being handed out. -/
structure Spent (limit : ℕ) (c : Counter) : Prop where
  born : c.born = true
  memory : ∀ m, c.memory = some m → m = limit
  pending : c.pending = none

def LoadsSpent (limit : ℕ) (c : Counter) (move : Move) : Prop :=
  move = .load → ∀ m, c.stored = some m → m = limit

variable {limit : ℕ} {c d : Counter} {move : Move}

theorem pairwise_concat {xs : List ℕ} {n : ℕ} (h : xs.Pairwise (· < ·)) (hn : ∀ v ∈ xs, v < n) :
    (xs ++ [n]).Pairwise (· < ·) := by
  rw [List.pairwise_append]
  refine ⟨h, List.pairwise_singleton _ _, ?_⟩
  intro v hv w hw
  rw [List.mem_singleton.mp hw]
  exact hn v hv

theorem Sound.step (h : Sound limit c) (hs : Step limit c move d) : Sound limit d := by
  cases hs with
  | create unborn =>
    obtain ⟨_, _, _, none⟩ := h.unborn unborn
    exact ⟨h.increasing, h.bounded, by simp [none], h.stored, h.pending, by simp⟩
  | take m present below =>
    refine ⟨h.increasing, h.bounded, h.memory, h.stored, ?_, ?_⟩
    · rintro n ⟨⟩
      exact ⟨below, fun v hv => Nat.lt_succ_of_le (h.memory v hv m present)⟩
    · exact fun unborn => absurd (present.symm.trans (h.unborn unborn).1) (by simp)
  | raise n pending =>
    refine ⟨h.increasing, h.bounded, ?_, h.stored, h.pending, ?_⟩
    · intro v hv m hm
      obtain ⟨_, _, rfl⟩ := Option.map_eq_some_iff.mp hm
      exact Nat.le_of_lt ((h.pending n pending).2 v hv)
    · intro unborn
      obtain ⟨memory, rest⟩ := h.unborn unborn
      exact ⟨by simp [memory], rest⟩
  | giveUp =>
    refine ⟨h.increasing, h.bounded, h.memory, h.stored, by simp, fun unborn => ?_⟩
    obtain ⟨memory, stored, _, issued⟩ := h.unborn unborn
    exact ⟨memory, stored, rfl, issued⟩
  | store =>
    refine ⟨h.increasing, h.bounded, h.memory, h.memory, h.pending, fun unborn => ?_⟩
    obtain ⟨memory, _, rest⟩ := h.unborn unborn
    exact ⟨memory, memory, rest⟩
  | issue n pending raised =>
    obtain ⟨le, above⟩ := h.pending n pending
    have inMemory : ∀ v ∈ c.issued ++ [n], ∀ m, c.memory = some m → v ≤ m := by
      intro v hv m hm
      rcases List.mem_append.mp hv with hv | hv
      · exact h.memory v hv m hm
      · rw [List.mem_singleton.mp hv]
        exact raised m hm
    refine ⟨pairwise_concat h.increasing above, ?_, inMemory, inMemory, by simp, ?_⟩
    · intro v hv
      rcases List.mem_append.mp hv with hv | hv
      · exact h.bounded v hv
      · rw [List.mem_singleton.mp hv]
        exact le
    · exact fun unborn => absurd (pending.symm.trans (h.unborn unborn).2.2.1) (by simp)
  | lose =>
    refine ⟨h.increasing, h.bounded, by simp, h.stored, h.pending, fun unborn => ?_⟩
    exact ⟨rfl, (h.unborn unborn).2⟩
  | load =>
    refine ⟨h.increasing, h.bounded, h.stored, h.stored, h.pending, fun unborn => ?_⟩
    exact ⟨(h.unborn unborn).2.1, (h.unborn unborn).2⟩
  | stay => exact h

theorem Spent.step (h : Spent limit c) (hs : restrict (LoadsSpent limit) (Step limit) c move d) :
    Spent limit d ∧ d.issued = c.issued := by
  obtain ⟨loads, hs⟩ := hs
  cases hs with
  | create unborn => simp [h.born] at unborn
  | take m present below => exact absurd (h.memory m present) (Nat.ne_of_lt below)
  | raise n pending => simp [h.pending] at pending
  | giveUp => exact ⟨⟨h.born, h.memory, rfl⟩, rfl⟩
  | store => exact ⟨⟨h.born, h.memory, h.pending⟩, rfl⟩
  | issue n pending raised => simp [h.pending] at pending
  | lose => exact ⟨⟨h.born, by simp, h.pending⟩, rfl⟩
  | load => exact ⟨⟨h.born, loads rfl, h.pending⟩, rfl⟩
  | stay => exact ⟨h, rfl⟩

end KeePassKeyWin.DurableCounter
