import KeePassKeyWin.ByteStrings

set_option autoImplicit false

/-!
# CBOR data items

The definite-length items of RFC 8949 without tags and floats, their shortest
encoding, and a decoder that accepts every head width.
-/
namespace KeePassKeyWin.CborCodec
open ByteStrings

inductive Value where
  | uint (n : ℕ)
  /-- The integer `-1 - n`. -/
  | nint (n : ℕ)
  | bytes (b : Bytes)
  | text (s : String)
  | array (items : List Value)
  | map (pairs : List (Value × Value))
  | bool (b : Bool)
  | null
  | undefined
  deriving Repr

def Value.int : ℤ → Value
  | .ofNat n => .uint n
  | .negSucc n => .nint n

theorem Value.int_injective {v w : ℤ} (h : Value.int v = Value.int w) : v = w := by
  cases v <;> cases w <;> simp_all [Value.int]

def Value.asInt : Value → Option ℤ
  | .uint n => some n
  | .nint n => some (Int.negSucc n)
  | _ => none

def Value.field (key : ℤ) : Value → Option Value
  | .map pairs => (pairs.find? fun p => p.1.asInt == some key).map Prod.snd
  | _ => none

/-- The shortest head of a data item with major type `mt` and argument `n`. -/
def head (mt n : ℕ) : Bytes :=
  if n ≤ 23 then [UInt8.ofNat (mt * 32 + n)]
  else if n ≤ 0xFF then UInt8.ofNat (mt * 32 + 24) :: bigEndian 1 n
  else if n ≤ 0xFFFF then UInt8.ofNat (mt * 32 + 25) :: bigEndian 2 n
  else if n ≤ 0xFFFFFFFF then UInt8.ofNat (mt * 32 + 26) :: bigEndian 4 n
  else UInt8.ofNat (mt * 32 + 27) :: bigEndian 8 n

mutual

def encode : Value → Bytes
  | .uint n => head 0 n
  | .nint n => head 1 n
  | .bytes b => head 2 b.length ++ b
  | .text s => head 3 (utf8 s).length ++ utf8 s
  | .array items => head 4 items.length ++ encodeItems items
  | .map pairs => head 5 pairs.length ++ encodePairs pairs
  | .bool b => [if b then 0xF5 else 0xF4]
  | .null => [0xF6]
  | .undefined => [0xF7]

def encodeItems : List Value → Bytes
  | [] => []
  | x :: xs => encode x ++ encodeItems xs

def encodePairs : List (Value × Value) → Bytes
  | [] => []
  | (k, v) :: ps => encode k ++ (encode v ++ encodePairs ps)

end

def take? (n : ℕ) (bs : Bytes) : Option (Bytes × Bytes) :=
  if n ≤ bs.length then some (bs.take n, bs.drop n) else none

def argumentWidth (info : ℕ) : Option ℕ :=
  match info with
  | 24 => some 1
  | 25 => some 2
  | 26 => some 4
  | 27 => some 8
  | _ => none

def decodeHead : Bytes → Option (ℕ × ℕ × Bytes)
  | [] => none
  | b :: rest =>
    if b.toNat % 32 ≤ 23 then some (b.toNat / 32, b.toNat % 32, rest)
    else do
      let width ← argumentWidth (b.toNat % 32)
      let (argument, rest) ← take? width rest
      return (b.toNat / 32, ofBigEndian argument, rest)

def decodeMany {α : Type} (item : Bytes → Option (α × Bytes)) : ℕ → Bytes → Option (List α × Bytes)
  | 0, bs => some ([], bs)
  | n + 1, bs => do
    let (x, bs) ← item bs
    let (xs, bs) ← decodeMany item n bs
    return (x :: xs, bs)

def decodePair (item : Bytes → Option (Value × Bytes)) (bs : Bytes) :
    Option ((Value × Value) × Bytes) := do
  let (k, bs) ← item bs
  let (v, bs) ← item bs
  return ((k, v), bs)

def decodeBody (item : Bytes → Option (Value × Bytes)) (mt n : ℕ) (rest : Bytes) :
    Option (Value × Bytes) :=
  match mt with
  | 0 => some (.uint n, rest)
  | 1 => some (.nint n, rest)
  | 2 => (take? n rest).map fun (b, rest) => (.bytes b, rest)
  | 3 => do
    let (b, rest) ← take? n rest
    let s ← ofUtf8 b
    return (.text s, rest)
  | 4 => (decodeMany item n rest).map fun (items, rest) => (.array items, rest)
  | 5 => (decodeMany (decodePair item) n rest).map fun (pairs, rest) => (.map pairs, rest)
  | _ => none

def decodeSimple : Bytes → Option (Value × Bytes)
  | 0xF4 :: rest => some (.bool false, rest)
  | 0xF5 :: rest => some (.bool true, rest)
  | 0xF6 :: rest => some (.null, rest)
  | 0xF7 :: rest => some (.undefined, rest)
  | _ => none

/-- The fuel bounds the nesting depth; the length of the input always suffices. -/
def decodeItem : ℕ → Bytes → Option (Value × Bytes)
  | 0, _ => none
  | fuel + 1, bs =>
    match decodeHead bs with
    | some (7, _, _) => decodeSimple bs
    | some (mt, n, rest) => decodeBody (decodeItem fuel) mt n rest
    | none => none

def decode (bs : Bytes) : Option (Value × Bytes) := decodeItem bs.length bs

theorem take?_append {front rest : Bytes} {n : ℕ} (width : front.length = n) :
    take? n (front ++ rest) = some (front, rest) := by
  subst width
  simp [take?]

theorem argument_roundtrip {mt info width n : ℕ} (hmt : mt < 8)
    (hinfo : 24 ≤ info ∧ info < 32) (hwidth : argumentWidth info = some width)
    (hn : n < 256 ^ width) (rest : Bytes) :
    decodeHead (UInt8.ofNat (mt * 32 + info) :: (bigEndian width n ++ rest)) =
      some (mt, n, rest) := by
  have hb : (UInt8.ofNat (mt * 32 + info)).toNat = mt * 32 + info := by
    simp only [UInt8.toNat_ofNat']
    omega
  have hd : (mt * 32 + info) / 32 = mt := by omega
  have hm : (mt * 32 + info) % 32 = info := by omega
  have hlong : ¬ info ≤ 23 := by omega
  simp only [decodeHead, hb, hd, hm, hlong, if_false, hwidth]
  simp [take?_append, ofBigEndian_bigEndian_of_lt hn]

theorem decodeHead_head {mt n : ℕ} (hmt : mt < 8) (hn : n < 2 ^ 64) (rest : Bytes) :
    decodeHead (head mt n ++ rest) = some (mt, n, rest) := by
  unfold head
  split_ifs with h₀ h₁ h₂ h₃
  · have hb : (UInt8.ofNat (mt * 32 + n)).toNat = mt * 32 + n := by
      simp only [UInt8.toNat_ofNat']
      omega
    have hd : (mt * 32 + n) / 32 = mt := by omega
    have hm : (mt * 32 + n) % 32 = n := by omega
    simp only [List.cons_append, List.nil_append, decodeHead, hb, hd, hm, h₀, if_true]
  · exact argument_roundtrip hmt (by omega) rfl (by omega) rest
  · exact argument_roundtrip hmt (by omega) rfl (by omega) rest
  · exact argument_roundtrip hmt (by omega) rfl (by omega) rest
  · exact argument_roundtrip hmt (by omega) rfl (by omega) rest

theorem head_length_pos (mt n : ℕ) : 0 < (head mt n).length := by
  unfold head
  split_ifs <;> simp

inductive Encodable : Value → Prop
  | uint {n : ℕ} (h : n < 2 ^ 64) : Encodable (.uint n)
  | nint {n : ℕ} (h : n < 2 ^ 64) : Encodable (.nint n)
  | bytes {b : Bytes} (h : b.length < 2 ^ 64) : Encodable (.bytes b)
  | text {s : String} (h : (utf8 s).length < 2 ^ 64) : Encodable (.text s)
  | array {items : List Value} (h : items.length < 2 ^ 64)
      (each : ∀ x ∈ items, Encodable x) : Encodable (.array items)
  | map {pairs : List (Value × Value)} (h : pairs.length < 2 ^ 64)
      (keys : ∀ p ∈ pairs, Encodable p.1) (values : ∀ p ∈ pairs, Encodable p.2) :
      Encodable (.map pairs)
  | bool {b : Bool} : Encodable (.bool b)
  | null : Encodable .null
  | undefined : Encodable .undefined

theorem encode_length_le_items {x : Value} {xs : List Value} (h : x ∈ xs) :
    (encode x).length ≤ (encodeItems xs).length := by
  induction xs with
  | nil => simp at h
  | cons y ys ih =>
    rcases List.mem_cons.mp h with rfl | h
    · simp [encodeItems]
    · have hy := ih h
      simp only [encodeItems, List.length_append]
      omega

theorem encode_length_le_pairs {p : Value × Value} {ps : List (Value × Value)} (h : p ∈ ps) :
    (encode p.1).length ≤ (encodePairs ps).length ∧
      (encode p.2).length ≤ (encodePairs ps).length := by
  induction ps with
  | nil => simp at h
  | cons q qs ih =>
    obtain ⟨k, v⟩ := q
    simp only [encodePairs, List.length_append]
    rcases List.mem_cons.mp h with rfl | h
    · dsimp only
      omega
    · have hq := ih h
      omega

theorem decodeMany_items {item : Bytes → Option (Value × Bytes)} {xs : List Value}
    (h : ∀ x ∈ xs, ∀ rest, item (encode x ++ rest) = some (x, rest)) (rest : Bytes) :
    decodeMany item xs.length (encodeItems xs ++ rest) = some (xs, rest) := by
  induction xs with
  | nil => rfl
  | cons x xs ih =>
    have hx := h x (by simp)
    have hxs := ih fun y hy => h y (by simp [hy])
    simp [decodeMany, encodeItems, List.append_assoc, hx, hxs]

theorem decodeMany_pairs {item : Bytes → Option (Value × Bytes)} {ps : List (Value × Value)}
    (hk : ∀ p ∈ ps, ∀ rest, item (encode p.1 ++ rest) = some (p.1, rest))
    (hv : ∀ p ∈ ps, ∀ rest, item (encode p.2 ++ rest) = some (p.2, rest)) (rest : Bytes) :
    decodeMany (decodePair item) ps.length (encodePairs ps ++ rest) = some (ps, rest) := by
  induction ps with
  | nil => rfl
  | cons p ps ih =>
    obtain ⟨k, v⟩ := p
    have hk' := hk (k, v) (by simp)
    have hv' := hv (k, v) (by simp)
    have hps := ih (fun q hq => hk q (by simp [hq])) (fun q hq => hv q (by simp [hq]))
    dsimp only at hk' hv'
    simp [decodeMany, decodePair, encodePairs, List.append_assoc, hk', hv', hps]

theorem decodeItem_head {fuel mt n : ℕ} (hmt : mt < 7) (hn : n < 2 ^ 64) (rest : Bytes) :
    decodeItem (fuel + 1) (head mt n ++ rest) = decodeBody (decodeItem fuel) mt n rest := by
  rw [decodeItem, decodeHead_head (by omega) hn]
  split
  · rename_i h
    simp only [Option.some.injEq, Prod.mk.injEq] at h
    omega
  · rename_i h
    simp only [Option.some.injEq, Prod.mk.injEq] at h
    obtain ⟨rfl, rfl, rfl⟩ := h
    rfl
  · simp_all

theorem decodeItem_encode (fuel : ℕ) (v : Value) (hv : Encodable v)
    (hfuel : (encode v).length ≤ fuel) (rest : Bytes) :
    decodeItem fuel (encode v ++ rest) = some (v, rest) := by
  induction fuel generalizing v rest with
  | zero =>
    exfalso
    cases hv <;> simp only [encode, List.length_append, List.length_singleton] at hfuel
    case uint n _ => have := head_length_pos 0 n; omega
    case nint n _ => have := head_length_pos 1 n; omega
    case bytes b _ => have := head_length_pos 2 b.length; omega
    case text s _ => have := head_length_pos 3 (utf8 s).length; omega
    case array items _ _ => have := head_length_pos 4 items.length; omega
    case map pairs _ _ _ => have := head_length_pos 5 pairs.length; omega
    all_goals omega
  | succ fuel ih =>
    cases hv with
    | uint h => rw [encode, decodeItem_head (by omega) h]; rfl
    | nint h => rw [encode, decodeItem_head (by omega) h]; rfl
    | bytes h =>
      rw [encode, List.append_assoc, decodeItem_head (by omega) h]
      simp [decodeBody, take?_append]
    | text h =>
      rw [encode, List.append_assoc, decodeItem_head (by omega) h]
      simp [decodeBody, take?_append]
    | @array items h each =>
      have hpos := head_length_pos 4 items.length
      rw [encode, List.length_append] at hfuel
      have hitems : ∀ x ∈ items, ∀ rest, decodeItem fuel (encode x ++ rest) = some (x, rest) :=
        fun x hx => ih x (each x hx) (by have := encode_length_le_items hx; omega)
      rw [encode, List.append_assoc, decodeItem_head (by omega) h]
      simp [decodeBody, decodeMany_items hitems]
    | @map pairs h keys values =>
      have hpos := head_length_pos 5 pairs.length
      rw [encode, List.length_append] at hfuel
      have hkeys : ∀ p ∈ pairs, ∀ rest, decodeItem fuel (encode p.1 ++ rest) = some (p.1, rest) :=
        fun p hp => ih p.1 (keys p hp) (by have := encode_length_le_pairs hp; omega)
      have hvalues : ∀ p ∈ pairs, ∀ rest, decodeItem fuel (encode p.2 ++ rest) = some (p.2, rest) :=
        fun p hp => ih p.2 (values p hp) (by have := encode_length_le_pairs hp; omega)
      rw [encode, List.append_assoc, decodeItem_head (by omega) h]
      simp [decodeBody, decodeMany_pairs hkeys hvalues]
    | @bool b => cases b <;> rfl
    | null => rfl
    | undefined => rfl

/-- What was encoded is read back, and nothing after it is touched. -/
theorem decode_encode {v : Value} (hv : Encodable v) (rest : Bytes) :
    decode (encode v ++ rest) = some (v, rest) :=
  decodeItem_encode _ v hv (by simp) rest

theorem decode_encode_exact {v : Value} (hv : Encodable v) : decode (encode v) = some (v, []) := by
  simpa using decode_encode hv []

end KeePassKeyWin.CborCodec
