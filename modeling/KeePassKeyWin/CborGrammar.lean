import KeePassKeyWin.CborCodec

set_option autoImplicit false

/-!
# The grammar of CBOR items

The items that a reader without tags and floats may skip: heads of any width, strings of any
content, definite-length arrays and maps, and the four simple values of one byte.
-/
namespace KeePassKeyWin.CborGrammar
open ByteStrings CborCodec

/-- A head of major type `mt` and its argument: in the first byte, or in those after it. -/
inductive Head (mt : ℕ) : ℕ → Bytes → Prop
  | short {n : ℕ} (h : n ≤ 23) : Head mt n [UInt8.ofNat (mt * 32 + n)]
  | wide {info : ℕ} {bs : Bytes} (hinfo : argumentWidth info = some bs.length) :
      Head mt (ofBigEndian bs) (UInt8.ofNat (mt * 32 + info) :: bs)

mutual

inductive Item : Bytes → Prop
  | integer {mt n : ℕ} {bs : Bytes} (hmt : mt = 0 ∨ mt = 1) (head : Head mt n bs) : Item bs
  | string {mt n : ℕ} {bs content : Bytes} (hmt : mt = 2 ∨ mt = 3) (head : Head mt n bs)
      (length : content.length = n) : Item (bs ++ content)
  | array {n : ℕ} {bs content : Bytes} (head : Head 4 n bs) (items : Items n content) :
      Item (bs ++ content)
  | map {n : ℕ} {bs content : Bytes} (head : Head 5 n bs) (items : Items (2 * n) content) :
      Item (bs ++ content)
  | simple {b : UInt8} (h : 0xF4 ≤ b.toNat ∧ b.toNat ≤ 0xF7) : Item [b]

inductive Items : ℕ → Bytes → Prop
  | nil : Items 0 []
  | cons {n : ℕ} {bs cs : Bytes} (first : Item bs) (rest : Items n cs) :
      Items (n + 1) (bs ++ cs)

end

theorem argumentWidth_cases {info width : ℕ} (h : argumentWidth info = some width) :
    info = 24 ∧ width = 1 ∨ info = 25 ∧ width = 2 ∨ info = 26 ∧ width = 4 ∨
      info = 27 ∧ width = 8 := by
  unfold argumentWidth at h
  split at h <;> simp_all

theorem Head.ne_nil {mt n : ℕ} {bs : Bytes} (h : Head mt n bs) : bs ≠ [] := by
  cases h <;> simp

theorem Head.lt {mt n : ℕ} {bs : Bytes} (h : Head mt n bs) : n < 2 ^ 64 := by
  cases h with
  | short h => omega
  | @wide info bs hinfo =>
    have bound := ofBigEndian_lt bs
    rcases argumentWidth_cases hinfo with ⟨_, h⟩ | ⟨_, h⟩ | ⟨_, h⟩ | ⟨_, h⟩ <;>
      (rw [h] at bound; omega)

theorem head_wide {mt info width n : ℕ} (hinfo : argumentWidth info = some width)
    (h : n < 256 ^ width) : Head mt n (UInt8.ofNat (mt * 32 + info) :: bigEndian width n) := by
  have argument := ofBigEndian_bigEndian_of_lt h
  rw [← bigEndian_length width n] at hinfo
  simpa only [argument] using (Head.wide hinfo : Head mt _ _)

theorem head_head {mt n : ℕ} (h : n < 2 ^ 64) : Head mt n (head mt n) := by
  unfold head
  split_ifs with h₀ h₁ h₂ h₃
  · exact .short h₀
  · exact head_wide rfl (by omega)
  · exact head_wide rfl (by omega)
  · exact head_wide rfl (by omega)
  · exact head_wide rfl (by omega)

theorem head_iff {mt n : ℕ} {b : UInt8} {bs : Bytes} (hmt : mt < 8) :
    Head mt n (b :: bs) ↔ b.toNat / 32 = mt ∧ b.toNat % 32 < 28 ∧
      (b.toNat % 32 ≤ 23 ∧ bs = [] ∧ n = b.toNat % 32 ∨
        argumentWidth (b.toNat % 32) = some bs.length ∧ n = ofBigEndian bs) := by
  constructor
  · intro h
    cases h with
    | short h =>
      have value : (UInt8.ofNat (mt * 32 + n)).toNat = mt * 32 + n := by
        rw [UInt8.toNat_ofNat']
        omega
      rw [value]
      exact ⟨by omega, by omega, .inl ⟨by omega, rfl, by omega⟩⟩
    | @wide info _ hinfo =>
      have known := argumentWidth_cases hinfo
      have value : (UInt8.ofNat (mt * 32 + info)).toNat = mt * 32 + info := by
        rw [UInt8.toNat_ofNat']
        omega
      have low : (mt * 32 + info) % 32 = info := by omega
      rw [value, low]
      exact ⟨by omega, by omega, .inr ⟨hinfo, rfl⟩⟩
  · have byte : b = UInt8.ofNat (b.toNat / 32 * 32 + b.toNat % 32) := by
      rw [Nat.div_add_mod', UInt8.ofNat_toNat]
    rintro ⟨rfl, _, ⟨short, rfl, rfl⟩ | ⟨hinfo, rfl⟩⟩
    · have h : Head (b.toNat / 32) _ _ := .short short
      rwa [← byte] at h
    · have h : Head (b.toNat / 32) _ _ := .wide hinfo
      rwa [← byte] at h

theorem Item.ne_nil {bs : Bytes} (h : Item bs) : bs ≠ [] := by
  cases h with
  | integer _ head => exact head.ne_nil
  | string _ head _ => simp [head.ne_nil]
  | array head _ => simp [head.ne_nil]
  | map head _ => simp [head.ne_nil]
  | simple _ => simp

theorem Head.major {mt n : ℕ} {b : UInt8} {bs : Bytes} (hmt : mt < 8) (h : Head mt n (b :: bs)) :
    b.toNat / 32 = mt := ((head_iff hmt).mp h).1

theorem Head.argument_unique {mt n n' : ℕ} {bs : Bytes} (hmt : mt < 8) (h : Head mt n bs)
    (h' : Head mt n' bs) : n = n' := by
  obtain ⟨b, bs, rfl⟩ := List.exists_cons_of_ne_nil h.ne_nil
  obtain ⟨_, _, ⟨short, _, hn⟩ | ⟨width, hn⟩⟩ := (head_iff hmt).mp h
  all_goals obtain ⟨_, _, ⟨short', _, hn'⟩ | ⟨width', hn'⟩⟩ := (head_iff hmt).mp h'
  · rw [hn, hn']
  · have := argumentWidth_cases width'
    omega
  · have := argumentWidth_cases width
    omega
  · rw [hn, hn']

def Body (mt n : ℕ) (content : Bytes) : Prop :=
  match mt with
  | 0 | 1 => content = []
  | 2 | 3 => content.length = n
  | 4 => Items n content
  | 5 => Items (2 * n) content
  | _ => False

theorem item_cons {b : UInt8} {bs : Bytes} : Item (b :: bs) ↔
    (∃ n front content, b :: bs = front ++ content ∧ Head (b.toNat / 32) n front ∧
      b.toNat / 32 < 6 ∧ Body (b.toNat / 32) n content) ∨
    (0xF4 ≤ b.toNat ∧ b.toNat ≤ 0xF7 ∧ bs = []) := by
  have first : ∀ {mt n front content}, mt < 8 → b :: bs = front ++ content → Head mt n front →
      b.toNat / 32 = mt := by
    intro mt n front content hmt split head
    obtain ⟨c, cs, rfl⟩ := List.exists_cons_of_ne_nil head.ne_nil
    obtain ⟨rfl, _⟩ := List.cons.inj split
    exact ((head_iff hmt).mp head).1
  constructor
  · intro item
    generalize whole : b :: bs = ds at item
    cases item with
    | @integer mt n _ hmt head =>
      have same := first (by omega) (by rw [List.append_nil]; exact whole) head
      subst same
      refine .inl ⟨n, ds, [], (List.append_nil ds).symm, head, by omega, ?_⟩
      rcases hmt with h | h <;> rw [h] <;> rfl
    | @string mt n front content hmt head length =>
      have same := first (by omega) whole head
      subst same
      refine .inl ⟨n, front, content, rfl, head, by omega, ?_⟩
      rcases hmt with h | h <;> rw [h] <;> exact length
    | array head items =>
      have same := first (by omega) whole head
      rw [same]
      exact .inl ⟨_, _, _, rfl, head, by omega, items⟩
    | map head items =>
      have same := first (by omega) whole head
      rw [same]
      exact .inl ⟨_, _, _, rfl, head, by omega, items⟩
    | simple h =>
      obtain ⟨rfl, rfl⟩ := List.cons.inj whole
      exact .inr ⟨h.1, h.2, rfl⟩
  · rintro (⟨n, front, content, split, head, low, body⟩ | ⟨low, high, rfl⟩)
    · rw [split]
      have cases : b.toNat / 32 = 0 ∨ b.toNat / 32 = 1 ∨ b.toNat / 32 = 2 ∨ b.toNat / 32 = 3 ∨
        b.toNat / 32 = 4 ∨ b.toNat / 32 = 5 := by omega
      rcases cases with h | h | h | h | h | h <;> rw [h] at head body
      · rw [show content = [] from body, List.append_nil]
        exact .integer (.inl rfl) head
      · rw [show content = [] from body, List.append_nil]
        exact .integer (.inr rfl) head
      · exact .string (.inl rfl) head body
      · exact .string (.inr rfl) head body
      · exact .array head body
      · exact .map head body
    · exact .simple ⟨low, high⟩

end KeePassKeyWin.CborGrammar
