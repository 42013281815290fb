import KeePassKeyWin.OutcomeRules
import Mathlib.Data.List.Nodup
import Mathlib.Data.List.Perm.Basic

set_option autoImplicit false

/-!
# Readers and the grammars they read

A reader takes elements from the front of what its state has left. A grammar relates the
elements taken to the value made of them. The rules follow how a reader is put together.
-/
namespace KeePassKeyWin.GrammarReaders
open OutcomeRules EStateM

/-- What a state has left, and the state some elements on. -/
structure Cursor (σ β : Type) where
  left : σ → List β
  skip : ℕ → σ → σ
  left_skip : ∀ n s, left (skip n s) = (left s).drop n
  skip_zero : ∀ s, skip 0 s = s
  skip_skip : ∀ m n s, skip n (skip m s) = skip (m + n) s

variable {ε σ β α γ : Type} {C : Cursor σ β} {limit n : ℕ} {s t u : σ} {bs cs : List β}

def Cursor.After (C : Cursor σ β) (s : σ) (bs : List β) (t : σ) : Prop :=
  C.left s = bs ++ C.left t ∧ t = C.skip bs.length s

theorem Cursor.after_of_left {rest : List β} (h : C.left s = bs ++ rest) :
    C.After s bs (C.skip bs.length s) ∧ C.left (C.skip bs.length s) = rest := by
  have left : C.left (C.skip bs.length s) = rest := by
    rw [C.left_skip, h, List.drop_left]
  exact ⟨⟨by rw [left, h], rfl⟩, left⟩

theorem Cursor.after_nil : C.After s [] t ↔ t = s := by
  constructor
  · rintro ⟨_, rfl⟩
    exact C.skip_zero s
  · rintro rfl
    exact ⟨rfl, (C.skip_zero t).symm⟩

theorem Cursor.after_append :
    C.After s (bs ++ cs) u ↔ ∃ t, C.After s bs t ∧ C.After t cs u := by
  constructor
  · rintro ⟨left, rfl⟩
    rw [List.append_assoc] at left
    obtain ⟨first, middle⟩ := C.after_of_left left
    refine ⟨_, first, middle, ?_⟩
    rw [C.skip_skip, List.length_append]
  · rintro ⟨t, ⟨first, rfl⟩, second, rfl⟩
    refine ⟨?_, by rw [C.skip_skip, List.length_append]⟩
    rw [first, second, List.append_assoc]

theorem Cursor.After.length (h : C.After s bs t) :
    (C.left s).length = bs.length + (C.left t).length := by
  rw [h.1, List.length_append]

/-- From a state with at most `limit` elements left the reader succeeds exactly on the prefixes
of the grammar. -/
def Exact (C : Cursor σ β) (limit : ℕ) (m : EStateM ε σ α) (R : List β → α → Prop) : Prop :=
  ∀ s, (C.left s).length ≤ limit → ∀ a t, m s = .ok a t ↔ ∃ bs, C.After s bs t ∧ R bs a

def Nothing (a : α) (bs : List β) (b : α) : Prop := bs = [] ∧ a = b

def Never : List β → α → Prop := fun _ _ => False

def Then (R : List β → α → Prop) (S : α → List β → γ → Prop) (ds : List β) (c : γ) : Prop :=
  ∃ a bs cs, ds = bs ++ cs ∧ R bs a ∧ S a cs c

inductive Repeats (R : α → List β → α → Prop) : ℕ → α → List β → α → Prop
  | zero (a : α) : Repeats R 0 a [] a
  | succ {n : ℕ} {a a' a'' : α} {bs cs : List β} (first : R a bs a')
      (rest : Repeats R n a' cs a'') : Repeats R (n + 1) a (bs ++ cs) a''

theorem Repeats.mono {R S : α → List β → α → Prop} (h : ∀ a bs a', R a bs a' → S a bs a')
    {a a' : α} (run : Repeats R n a bs a') : Repeats S n a bs a' := by
  induction run with
  | zero a => exact .zero a
  | succ first _ ih => exact .succ (h _ _ _ first) ih

theorem Repeats.le_length {R : α → List β → α → Prop} (h : ∀ a bs a', R a bs a' → bs ≠ [])
    {a a' : α} (run : Repeats R n a bs a') : n ≤ bs.length := by
  induction run with
  | zero a => exact Nat.zero_le _
  | succ first _ ih =>
    have positive := List.length_pos_of_ne_nil (h _ _ _ first)
    rw [List.length_append]
    omega

inductive Listed (R : α → List β → Prop) : List α → List β → Prop
  | nil : Listed R [] []
  | cons {a : α} {as : List α} {bs cs : List β} (first : R a bs) (rest : Listed R as cs) :
      Listed R (a :: as) (bs ++ cs)

theorem repeats_foldl {R : α → List β → Prop} {apply : γ → α → γ} {c c' : γ} :
    Repeats (fun c bs c' => ∃ a, R a bs ∧ apply c a = c') n c bs c' ↔
      ∃ as, as.length = n ∧ Listed R as bs ∧ as.foldl apply c = c' := by
  constructor
  · intro run
    induction run with
    | zero c => exact ⟨[], rfl, .nil, rfl⟩
    | succ first _ ih =>
      obtain ⟨a, ha, rfl⟩ := first
      obtain ⟨as, rfl, listed, rfl⟩ := ih
      exact ⟨a :: as, rfl, .cons ha listed, rfl⟩
  · rintro ⟨as, rfl, listed, rfl⟩
    induction listed generalizing c with
    | nil => exact .zero c
    | cons first _ ih => exact .succ ⟨_, first, rfl⟩ ih

theorem listed_and {R : α → List β → Prop} {P : α → Prop} {as : List α} :
    Listed (fun a bs => R a bs ∧ P a) as bs ↔ Listed R as bs ∧ ∀ a ∈ as, P a := by
  constructor
  · intro listed
    induction listed with
    | nil => exact ⟨.nil, by simp⟩
    | cons first _ ih => exact ⟨.cons first.1 ih.1, List.forall_mem_cons.mpr ⟨first.2, ih.2⟩⟩
  · rintro ⟨listed, all⟩
    induction listed with
    | nil => exact .nil
    | cons first _ ih =>
      obtain ⟨ha, rest⟩ := List.forall_mem_cons.mp all
      exact .cons ⟨first, ha⟩ (ih rest)

theorem Listed.le_length {R : α → List β → Prop} (h : ∀ a bs, R a bs → bs ≠ []) {as : List α}
    (listed : Listed R as bs) : as.length ≤ bs.length := by
  induction listed with
  | nil => exact Nat.le_refl 0
  | cons first _ ih =>
    have positive := List.length_pos_of_ne_nil (h _ _ first)
    simp only [List.length_cons, List.length_append]
    omega

/-- The entries are the known ones and others, shuffled. -/
def Shuffled (known : List α) (other : α → Prop) (as : List α) : Prop :=
  ∃ others, (∀ a ∈ others, other a) ∧ as.Perm (known ++ others)

/-- Entries that commute when their keys differ may come in any order, each key once, with
others among them that change nothing. -/
theorem Shuffled.foldl_eq {κ : Type} {known as : List α} {other : α → Prop}
    (shuffled : Shuffled known other as) (key : α → κ) (apply : γ → α → γ)
    (once : (known.map key).Nodup)
    (comm : ∀ x y, key x ≠ key y → ∀ c, apply (apply c x) y = apply (apply c y) x)
    (idle : ∀ x, other x → ∀ c, apply c x = c) (c : γ) :
    as.foldl apply c = known.foldl apply c := by
  obtain ⟨others, hothers, perm⟩ := shuffled
  have commute : ∀ x ∈ known ++ others, ∀ y ∈ known ++ others, ∀ c,
      apply (apply c x) y = apply (apply c y) x := by
    intro x hx y hy c
    rcases List.mem_append.mp hx with hx | hx
    · rcases List.mem_append.mp hy with hy | hy
      · by_cases same : key x = key y
        · rw [List.inj_on_of_nodup_map once hx hy same]
        · exact comm x y same c
      · rw [idle y (hothers y hy), idle y (hothers y hy)]
    · rw [idle x (hothers x hx), idle x (hothers x hx)]
  have rest : ∀ c, others.foldl apply c = c := by
    intro c
    clear perm commute
    induction others with
    | nil => rfl
    | cons x others ih =>
      obtain ⟨hx, hrest⟩ := List.forall_mem_cons.mp hothers
      rw [List.foldl_cons, idle x hx, ih hrest]
  rw [perm.foldl_eq' (fun x hx y hy => commute x (perm.subset hx) y (perm.subset hy)),
    List.foldl_append, rest]

theorem foldl_comm {f : γ → α → γ} {g : γ → β → γ} (h : ∀ c a b, g (f c a) b = f (g c b) a)
    (as : List α) (bs : List β) (c : γ) :
    bs.foldl g (as.foldl f c) = as.foldl f (bs.foldl g c) := by
  have one : ∀ c b, g (as.foldl f c) b = as.foldl f (g c b) := by
    intro c b
    induction as generalizing c with
    | nil => rfl
    | cons a as ih => rw [List.foldl_cons, ih, h, List.foldl_cons]
  induction bs generalizing c with
  | nil => rfl
  | cons b bs ih => rw [List.foldl_cons, one, ih, List.foldl_cons]

section
variable {m : EStateM ε σ α} {R S : List β → α → Prop}

theorem Exact.congr (exact : Exact C limit m R) (h : ∀ bs a, R bs a ↔ S bs a) :
    Exact C limit m S := by
  intro s short a t
  simp only [exact s short a t, h]

theorem Exact.congr_short (exact : Exact C limit m R)
    (h : ∀ bs a, bs.length ≤ limit → (R bs a ↔ S bs a)) : Exact C limit m S := by
  intro s short a t
  rw [exact s short a t]
  refine exists_congr fun bs => and_congr_right fun after => h bs a ?_
  have := after.length
  omega

theorem Exact.mono {smaller : ℕ} (exact : Exact C limit m R) (h : smaller ≤ limit) :
    Exact C smaller m R := fun s short => exact s (Nat.le_trans short h)

theorem Exact.pure (a : α) : Exact C limit (pure a : EStateM ε σ α) (Nothing a) := by
  intro s _ b t
  rw [pure_ok]
  constructor
  · rintro ⟨rfl, rfl⟩
    exact ⟨[], Cursor.after_nil.mpr rfl, rfl, rfl⟩
  · rintro ⟨_, after, rfl, rfl⟩
    exact ⟨rfl, (Cursor.after_nil.mp after).symm⟩

theorem Exact.never (h : ∀ s a t, m s ≠ .ok a t) : Exact C limit m Never := by
  intro s _ a t
  exact iff_of_false (h s a t) fun ⟨_, _, never⟩ => never

theorem Exact.bind_shorter {shorter : ℕ} {f : α → EStateM ε σ γ} {S : α → List β → γ → Prop}
    (first : Exact C limit m R)
    (rest : ∀ a bs, R bs a → limit ≤ shorter + bs.length ∧ Exact C shorter (f a) (S a)) :
    Exact C limit (m >>= f) (Then R S) := by
  intro s short c u
  have second : ∀ {a bs t}, C.After s bs t → R bs a →
      (f a t = .ok c u ↔ ∃ cs, C.After t cs u ∧ S a cs c) := by
    intro a bs t after hbs
    obtain ⟨enough, exact⟩ := rest a bs hbs
    have := after.length
    exact exact t (by omega) c u
  rw [bind_ok]
  constructor
  · rintro ⟨a, t, ha, hc⟩
    obtain ⟨bs, after, hbs⟩ := (first s short a t).mp ha
    obtain ⟨cs, after', hcs⟩ := (second after hbs).mp hc
    exact ⟨bs ++ cs, Cursor.after_append.mpr ⟨t, after, after'⟩, a, bs, cs, rfl, hbs, hcs⟩
  · rintro ⟨_, after, a, bs, cs, rfl, hbs, hcs⟩
    obtain ⟨t, after, after'⟩ := Cursor.after_append.mp after
    exact ⟨a, t, (first s short a t).mpr ⟨bs, after, hbs⟩,
      (second after hbs).mpr ⟨cs, after', hcs⟩⟩

theorem Exact.bind {f : α → EStateM ε σ γ} {S : α → List β → γ → Prop}
    (first : Exact C limit m R) (rest : ∀ a bs, R bs a → Exact C limit (f a) (S a)) :
    Exact C limit (m >>= f) (Then R S) :=
  first.bind_shorter fun a bs h => ⟨Nat.le_add_right .., rest a bs h⟩

theorem Exact.map {f : α → EStateM ε σ γ} {g : α → γ} (first : Exact C limit m R)
    (h : ∀ a, f a = Pure.pure (g a)) :
    Exact C limit (m >>= f) fun bs c => ∃ a, R bs a ∧ g a = c := by
  refine (first.bind (S := fun a => Nothing (g a)) fun a _ _ => ?_).congr fun ds c => ?_
  · rw [h a]
    exact .pure (g a)
  · constructor
    · rintro ⟨a, bs, _, rfl, hbs, rfl, rfl⟩
      exact ⟨a, by rwa [List.append_nil], rfl⟩
    · rintro ⟨a, hbs, rfl⟩
      exact ⟨a, ds, [], (List.append_nil ds).symm, hbs, rfl, rfl⟩

theorem Exact.observe {f : α → EStateM ε σ γ} {S : List β → γ → Prop}
    (look : ∀ s, ∃ a, m s = .ok a s) (rest : ∀ a, Exact C limit (f a) S) :
    Exact C limit (m >>= f) S := by
  intro s short c t
  obtain ⟨a, seen⟩ := look s
  rw [bind_of_ok seen]
  exact rest a s short c t

theorem Exact.ite {c : Prop} [Decidable c] {m' : EStateM ε σ α} (hm : c → Exact C limit m R)
    (hm' : ¬ c → Exact C limit m' S) :
    Exact C limit (if c then m else m') fun bs a => if c then R bs a else S bs a := by
  by_cases h : c
  · simpa [h] using hm h
  · simpa [h] using hm' h

theorem Exact.times {body : α → EStateM ε σ α} {R : α → List β → α → Prop}
    (each : ∀ a, Exact C limit (body a) (R a)) (n : ℕ) (a : α) :
    Exact C limit (OutcomeRules.times body n a) (Repeats R n a) := by
  induction n generalizing a with
  | zero =>
    refine (Exact.pure a).congr fun bs b => ?_
    constructor
    · rintro ⟨rfl, rfl⟩
      exact .zero a
    · rintro ⟨⟩
      exact ⟨rfl, rfl⟩
  | succ n ih =>
    refine ((each a).bind fun a' _ _ => ih a').congr fun ds b => ?_
    constructor
    · rintro ⟨a', bs, cs, rfl, first, rest⟩
      exact .succ first rest
    · rintro ⟨⟩
      exact ⟨_, _, _, rfl, ‹_›, ‹_›⟩

theorem Exact.reads (exact : Exact C limit m R) {a : α} {rest : List β} (hbs : R bs a)
    (left : C.left s = bs ++ rest) (short : (C.left s).length ≤ limit) :
    m s = .ok a (C.skip bs.length s) ∧ C.left (C.skip bs.length s) = rest := by
  obtain ⟨after, left'⟩ := C.after_of_left left
  exact ⟨(exact s short a _).mpr ⟨bs, after, hbs⟩, left'⟩

theorem Exact.unique (exact : Exact C limit m R) {a b : α} {bs' rest rest' : List β}
    (hbs : R bs a) (hbs' : R bs' b) (left : C.left s = bs ++ rest)
    (left' : C.left s = bs' ++ rest') (short : (C.left s).length ≤ limit) :
    a = b ∧ bs = bs' := by
  have first := (exact.reads hbs left short).1
  have second := (exact.reads hbs' left' short).1
  rw [first] at second
  have value := (EStateM.Result.ok.inj second).1
  have place := congrArg C.left (EStateM.Result.ok.inj second).2
  rw [C.left_skip, C.left_skip, left, List.drop_left, ← left, left', List.drop_left] at place
  subst place
  exact ⟨value, List.append_cancel_right (left.symm.trans left')⟩

end

/-- From such a state both readers do the same, and stop only with an error that meets `Q`. -/
def Alike (C : Cursor σ β) (limit : ℕ) (Q : ε → Prop) (m m' : EStateM ε σ α) : Prop :=
  ∀ s, (C.left s).length ≤ limit → m s = m' s ∧ ∀ e t, m s = .error e t → Q e

section
variable {Q : ε → Prop} {m m' : EStateM ε σ α} {R : List β → α → Prop}

theorem Alike.of_throws (h : Throws Q m) : Alike C limit Q m m := fun s _ => ⟨rfl, h s⟩

theorem Alike.bind_shorter {shorter : ℕ} {f f' : α → EStateM ε σ γ}
    (first : Alike C limit Q m m') (exact : Exact C limit m R)
    (rest : ∀ a bs, R bs a → limit ≤ shorter + bs.length ∧ Alike C shorter Q (f a) (f' a)) :
    Alike C limit Q (m >>= f) (m' >>= f') := by
  intro s short
  obtain ⟨same, stops⟩ := first s short
  cases run : m s with
  | error e t =>
    rw [bind_of_error run, bind_of_error (same ▸ run)]
    refine ⟨rfl, ?_⟩
    rintro _ _ ⟨⟩
    exact stops e t run
  | ok a t =>
    rw [bind_of_ok run, bind_of_ok (same ▸ run)]
    obtain ⟨bs, after, hbs⟩ := (exact s short a t).mp run
    obtain ⟨enough, second⟩ := rest a bs hbs
    have := after.length
    exact second t (by omega)

theorem Alike.times {body body' : α → EStateM ε σ α} {R : α → List β → α → Prop}
    (each : ∀ a, Alike C limit Q (body a) (body' a)) (exact : ∀ a, Exact C limit (body a) (R a))
    (n : ℕ) (a : α) :
    Alike C limit Q (OutcomeRules.times body n a) (OutcomeRules.times body' n a) := by
  induction n generalizing a with
  | zero => exact .of_throws (.pure a)
  | succ n ih =>
    exact (each a).bind_shorter (exact a) fun a' _ _ => ⟨Nat.le_add_right .., ih a'⟩

end

/-- From no state with these elements in front does the reader succeed. -/
def Refuses (C : Cursor σ β) (limit : ℕ) (m : EStateM ε σ α) (bs : List β) : Prop :=
  ∀ s rest, C.left s = bs ++ rest → (C.left s).length ≤ limit → ∀ a t, m s ≠ .ok a t

section
variable {m : EStateM ε σ α} {R : List β → α → Prop} {f : α → EStateM ε σ γ}

theorem Refuses.append (refuses : Refuses C limit m bs) : Refuses C limit m (bs ++ cs) := by
  intro s rest left
  rw [List.append_assoc] at left
  exact refuses s _ left

theorem Refuses.stop (refuses : Refuses C limit m bs) : Refuses C limit (m >>= f) bs := by
  intro s rest left short c u run
  obtain ⟨a, t, first, _⟩ := bind_ok.mp run
  exact refuses s rest left short a t first

theorem Refuses.after (exact : Exact C limit m R) {a : α} (hbs : R bs a)
    (refuses : Refuses C limit (f a) cs) : Refuses C limit (m >>= f) (bs ++ cs) := by
  intro s rest left short c u run
  rw [List.append_assoc] at left
  obtain ⟨first, left'⟩ := exact.reads hbs left short
  rw [bind_of_ok first] at run
  have shorter : (C.left (C.skip bs.length s)).length ≤ limit := by
    rw [left']
    rw [left, List.length_append] at short
    omega
  exact refuses _ rest left' shorter c u run

theorem Refuses.times {body : γ → EStateM ε σ γ} {R : α → List β → Prop} {apply : γ → α → γ}
    {P : α → Prop} (each : ∀ c, Exact C limit (body c) fun bs c' => ∃ a, (R a bs ∧ P a) ∧
      apply c a = c') {before : List α} (listed : Listed R before bs) (hbefore : ∀ a ∈ before, P a)
    (refuses : ∀ c, Refuses C limit (body c) cs) (count : before.length < n) (c : γ) :
    Refuses C limit (OutcomeRules.times body n c) (bs ++ cs) := by
  induction listed generalizing n c with
  | nil =>
    obtain ⟨n, rfl⟩ := Nat.exists_eq_succ_of_ne_zero (Nat.ne_of_gt count)
    exact (refuses c).stop
  | @cons a before bs ds first _ ih =>
    obtain ⟨ha, hbefore⟩ := List.forall_mem_cons.mp hbefore
    obtain ⟨n, rfl⟩ := Nat.exists_eq_succ_of_ne_zero (Nat.ne_of_gt (Nat.zero_lt_of_lt count))
    rw [List.append_assoc]
    exact .after (each c) ⟨a, ⟨first, ha⟩, rfl⟩ (ih hbefore (Nat.lt_of_succ_lt_succ count) _)

end

theorem first_failing {P : α → Prop} {as : List α} (h : ¬ ∀ a ∈ as, P a) :
    ∃ before a after, as = before ++ a :: after ∧ (∀ x ∈ before, P x) ∧ ¬ P a := by
  induction as with
  | nil => exact absurd (by simp) h
  | cons a as ih =>
    by_cases ha : P a
    · obtain ⟨before, b, after, rfl, hbefore, hb⟩ :=
        ih fun all => h (List.forall_mem_cons.mpr ⟨ha, all⟩)
      exact ⟨a :: before, b, after, rfl, List.forall_mem_cons.mpr ⟨ha, hbefore⟩, hb⟩
    · exact ⟨[], a, as, rfl, by simp, ha⟩

theorem listed_append {R : α → List β → Prop} {as as' : List α} {ds : List β} :
    Listed R (as ++ as') ds ↔ ∃ bs cs, ds = bs ++ cs ∧ Listed R as bs ∧ Listed R as' cs := by
  constructor
  · intro listed
    induction as generalizing ds with
    | nil => exact ⟨[], ds, rfl, .nil, listed⟩
    | cons a as ih =>
      cases listed with
      | cons first rest =>
        obtain ⟨bs, cs, rfl, hbs, hcs⟩ := ih rest
        exact ⟨_, cs, (List.append_assoc _ _ _).symm, .cons first hbs, hcs⟩
  · rintro ⟨bs, cs, rfl, hbs, hcs⟩
    induction hbs with
    | nil => exact hcs
    | cons first _ ih =>
      rw [List.append_assoc]
      exact .cons first ih

end KeePassKeyWin.GrammarReaders
