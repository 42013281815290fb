import KeePassKeyWin.NonceSafety
import KeePassKeyWin.SidecarResults

set_option autoImplicit false

/-!
# How the nonce is read from the registry

The COM server and the command line read the same value with code of their own. One tells what is
wrong with a value and stops at the first NUL, the other takes what it gets and drops the last
unit.
-/
namespace KeePassKeyWin.NonceReading
open ByteStrings PlatformServices PasskeyStore PipeServer SidecarResults NonceSafety TransitionRuns

/-- `String::from_utf16`. -/
def fromUtf16 : List UInt16 → Option (List Char)
  | [] => some []
  | [u] => if isHighSurrogate u || isLowSurrogate u then none else some [ofUnit u]
  | u :: v :: rest =>
    if isHighSurrogate u then
      if isLowSurrogate v then (fromUtf16 rest).map (ofPair u v :: ·) else none
    else if isLowSurrogate u then none
    else (fromUtf16 (v :: rest)).map (ofUnit u :: ·)

theorem fromUtf16_plain {u : UInt16} (high : isHighSurrogate u = false)
    (low : isLowSurrogate u = false) (rest : List UInt16) :
    fromUtf16 (u :: rest) = (fromUtf16 rest).map (ofUnit u :: ·) := by
  cases rest with
  | nil => simp [fromUtf16, high, low]
  | cons v rest => simp [fromUtf16, high, low]

theorem toNat_ofNat {n : ℕ} (valid : n.isValidChar) : (Char.ofNat n).toNat = n := by
  rw [Char.ofNat, dif_pos valid]
  rfl

theorem encodeChar_ofUnit {u : UInt16} (high : isHighSurrogate u = false)
    (low : isLowSurrogate u = false) : encodeChar (ofUnit u) = [u] := by
  have bound := u.toNat_lt
  have outside : u.toNat < 0xD800 ∨ 0xDFFF < u.toNat := by
    simp only [isHighSurrogate, isLowSurrogate, Bool.and_eq_false_iff, decide_eq_false_iff_not]
      at high low
    omega
  have valid : u.toNat.isValidChar := by
    rcases outside with below | above
    · exact .inl below
    · exact .inr ⟨above, by omega⟩
  have code := toNat_ofNat valid
  rw [ofUnit, high, low, encodeChar]
  simp [code, bound]

theorem encodeChar_ofPair {u v : UInt16} (high : isHighSurrogate u = true)
    (low : isLowSurrogate v = true) : encodeChar (ofPair u v) = [u, v] := by
  simp only [isHighSurrogate, isLowSurrogate, Bool.and_eq_true, decide_eq_true_eq] at high low
  have valid : (0x10000 + (u.toNat - 0xD800) * 0x400 + (v.toNat - 0xDC00)).isValidChar :=
    .inr ⟨by omega, by omega⟩
  have code : (ofPair u v).toNat = 0x10000 + (u.toNat - 0xD800) * 0x400 + (v.toNat - 0xDC00) :=
    toNat_ofNat valid
  have first : 0xD800 + ((ofPair u v).toNat - 0x10000) / 0x400 = u.toNat := by omega
  have second : 0xDC00 + ((ofPair u v).toNat - 0x10000) % 0x400 = v.toNat := by omega
  rw [encodeChar, if_neg (by omega), first, second, UInt16.ofNat_toNat, UInt16.ofNat_toNat]

theorem encodeChar_cases (c : Char) :
    (∃ u, encodeChar c = [u] ∧ isHighSurrogate u = false ∧ isLowSurrogate u = false ∧
      ofUnit u = c) ∨
    ∃ u v, encodeChar c = [u, v] ∧ isHighSurrogate u = true ∧ isLowSurrogate v = true ∧
      ofPair u v = c := by
  have valid := char_valid c
  have read := decodeUtf16Lossy_encodeChar c []
  unfold encodeChar at read ⊢
  split_ifs at read ⊢ with small
  · have unit := toNat_unit small
    refine .inl ⟨_, rfl, ?_, ?_, ?_⟩
    · simp only [isHighSurrogate, unit, Bool.and_eq_false_iff, decide_eq_false_iff_not]
      omega
    · simp only [isLowSurrogate, unit, Bool.and_eq_false_iff, decide_eq_false_iff_not]
      omega
    · exact List.head_eq_of_cons_eq read
  · have first := toNat_unit (n := 0xD800 + (c.toNat - 0x10000) / 0x400) (by omega)
    have second := toNat_unit (n := 0xDC00 + (c.toNat - 0x10000) % 0x400) (by omega)
    have high : isHighSurrogate (UInt16.ofNat (0xD800 + (c.toNat - 0x10000) / 0x400)) = true := by
      simp only [isHighSurrogate, first, Bool.and_eq_true, decide_eq_true_eq]
      omega
    have low : isLowSurrogate (UInt16.ofNat (0xDC00 + (c.toNat - 0x10000) % 0x400)) = true := by
      simp only [isLowSurrogate, second, Bool.and_eq_true, decide_eq_true_eq]
      omega
    refine .inr ⟨_, _, rfl, high, low, ?_⟩
    simp only [List.append_nil, decodeUtf16Lossy, high, low, Bool.and_self, if_true] at read
    exact List.head_eq_of_cons_eq read

theorem fromUtf16_encodeChar (c : Char) (rest : List UInt16) :
    fromUtf16 (encodeChar c ++ rest) = (fromUtf16 rest).map (c :: ·) := by
  rcases encodeChar_cases c with ⟨u, units, high, low, rfl⟩ | ⟨u, v, units, high, low, rfl⟩
  · rw [units, List.singleton_append, fromUtf16_plain high low]
  · rw [units, List.cons_append, List.singleton_append]
    simp [fromUtf16, high, low]

theorem fromUtf16_eq_some {units : List UInt16} {cs : List Char} :
    fromUtf16 units = some cs ↔ cs.flatMap encodeChar = units := by
  constructor
  · intro read
    induction units using fromUtf16.induct generalizing cs with
    | case1 =>
      obtain rfl := Option.some.inj read
      rfl
    | case2 u surrogate => simp [fromUtf16, surrogate] at read
    | case3 u plain =>
      obtain ⟨high, low⟩ : isHighSurrogate u = false ∧ isLowSurrogate u = false := by
        simpa using plain
      rw [fromUtf16_plain high low] at read
      obtain rfl := Option.some.inj read
      rw [List.flatMap_singleton, encodeChar_ofUnit high low]
    | case4 u v rest high low ih =>
      simp only [fromUtf16, high, low, if_true] at read
      obtain ⟨tail, later, rfl⟩ := Option.map_eq_some_iff.mp read
      rw [List.flatMap_cons, encodeChar_ofPair high low, ih later]
      rfl
    | case5 u v rest high low => simp [fromUtf16, high, low] at read
    | case6 u v rest high low => simp [fromUtf16, high, low] at read
    | case7 u v rest high low ih =>
      rw [fromUtf16_plain (Bool.eq_false_iff.mpr high) (Bool.eq_false_iff.mpr low)] at read
      obtain ⟨tail, later, rfl⟩ := Option.map_eq_some_iff.mp read
      rw [List.flatMap_cons, ih later,
        encodeChar_ofUnit (Bool.eq_false_iff.mpr high) (Bool.eq_false_iff.mpr low)]
      rfl
  · rintro rfl
    induction cs with
    | nil => rfl
    | cons c cs ih => rw [List.flatMap_cons, fromUtf16_encodeChar, ih, Option.map_some]

inductive RegReadError where
  | notFound
  | wrongType (actualType : UInt32)
  | accessDenied
  | bufferTooSmall
  | malformedString
  | other (lstatus : ℤ)
  deriving DecidableEq

def asI32 (status : UInt32) : ℤ :=
  if status.toNat < 2 ^ 31 then status.toNat else status.toNat - 2 ^ 32

def lstatusToRegReadError (status : ℤ) : RegReadError :=
  if status = 2 ∨ status = 3 then .notFound
  else if status = 5 then .accessDenied
  else if status = 234 then .bufferTooSmall
  else .other status

def lowerHex (width n : ℕ) : String :=
  let digits := Nat.toDigits 16 n
  String.ofList (List.replicate (width - digits.length) '0' ++ digits)

def RegReadError.reason : RegReadError → String
  | .notFound => "HKCU\\Software\\KeePassKeyWin\\HandshakeNonce not found"
  | .wrongType actualType => "HKCU\\Software\\KeePassKeyWin\\HandshakeNonce wrong value type 0x" ++
      lowerHex 1 actualType.toNat ++ " (expected REG_SZ 0x1)"
  | .accessDenied => "HKCU\\Software\\KeePassKeyWin\\HandshakeNonce access denied"
  | .bufferTooSmall => "HKCU\\Software\\KeePassKeyWin\\HandshakeNonce buffer too small"
  | .malformedString =>
    "HKCU\\Software\\KeePassKeyWin\\HandshakeNonce contains invalid UTF-16 data"
  | .other code => "HKCU\\Software\\KeePassKeyWin\\HandshakeNonce LSTATUS 0x" ++
      lowerHex 8 (code % 2 ^ 32).toNat

def regSz : UInt32 := 1

/-- What `RegGetValueW` comes to, with the units that it wrote into a buffer of 256. A string is
terminated, whether or not it was stored so. -/
structure RegReply where
  status : UInt32
  actualType : UInt32
  units : List UInt16
  fits : units.length ≤ 256
  terminated : status = 0 → actualType = regSz → units.getLast? = some 0

def readHandshakeNonce (r : RegReply) : Except RegReadError String :=
  if r.status ≠ 0 then .error (lstatusToRegReadError (asI32 r.status))
  else if r.actualType ≠ regSz then .error (.wrongType r.actualType)
  else
    match fromUtf16 (r.units.takeWhile (· != 0)) with
    | some cs => .ok (String.ofList cs)
    | none => .error .malformedString

/-- The type is asked for with `RRF_RT_REG_SZ` and not looked at. -/
def readNonceFromRegistry (opened : UInt32) (r : RegReply) : Option String :=
  if opened ≠ 0 then none
  else if r.status ≠ 0 then none
  else some (fromUtf16Lossy r.units.dropLast)

def nonceOf (r : RegReply) : Except String String :=
  (readHandshakeNonce r).mapError RegReadError.reason

section
variable {r q : RegReply} {opened : UInt32} {s : String}

theorem readHandshakeNonce_ok : readHandshakeNonce r = .ok s ↔
    r.status = 0 ∧ r.actualType = regSz ∧ r.units.takeWhile (· != 0) = encodeUtf16 s := by
  have text : ∀ cs, String.ofList cs = s ↔ cs = s.toList := by
    intro cs
    constructor
    · rintro rfl
      exact (String.toList_ofList).symm
    · rintro rfl
      exact String.ofList_toList
  unfold readHandshakeNonce
  split_ifs with failed wrong
  · simp [failed]
  · simp [wrong]
  · rw [ne_eq, not_not] at failed wrong
    rw [eq_comm (b := encodeUtf16 s), encodeUtf16, ← fromUtf16_eq_some]
    cases read : fromUtf16 (r.units.takeWhile (· != 0)) with
    | none => simp
    | some cs => simp [failed, wrong, text]

theorem decodeUtf16Lossy_append (cs : List Char) (rest : List UInt16) :
    decodeUtf16Lossy (cs.flatMap encodeChar ++ rest) = cs ++ decodeUtf16Lossy rest := by
  induction cs with
  | nil => rfl
  | cons c cs ih =>
    rw [List.flatMap_cons, List.append_assoc, decodeUtf16Lossy_encodeChar, ih, List.cons_append]

theorem decodeUtf16Lossy_eq_nil {units : List UInt16} : decodeUtf16Lossy units = [] ↔ units = [] := by
  constructor
  · intro read
    induction units using decodeUtf16Lossy.induct with
    | case1 => rfl
    | case2 u => simp [decodeUtf16Lossy] at read
    | case3 u v rest pair ih => simp [decodeUtf16Lossy, pair] at read
    | case4 u v rest single ih => simp [decodeUtf16Lossy, single] at read
  · rintro rfl
    rfl

theorem units_of_read (read : readHandshakeNonce r = .ok s) :
    ∃ rest, r.units = encodeUtf16 s ++ 0 :: rest := by
  obtain ⟨fine, string, units⟩ := readHandshakeNonce_ok.mp read
  have split := List.takeWhile_append_dropWhile (p := (· != 0)) (l := r.units)
  rw [units] at split
  cases behind : r.units.dropWhile (· != 0) with
  | nil =>
    rw [behind, List.append_nil] at split
    have last := List.mem_of_getLast? (r.terminated fine string)
    rw [← split, ← units] at last
    have nonzero := List.mem_takeWhile_imp last
    simp at nonzero
  | cons u rest =>
    have stops := List.head_dropWhile_not (· != 0) (l := r.units) (by simp [behind])
    have zero : u = 0 := by simpa [behind] using stops
    rw [behind, zero] at split
    exact ⟨rest, split.symm⟩

/-- The two readers give the same text just for a value with nothing behind its first NUL. -/
theorem readers_agree (opens : opened = 0) (status : q.status = r.status) (units : q.units = r.units)
    (read : readHandshakeNonce r = .ok s) :
    readNonceFromRegistry opened q = some s ↔ r.units = encodeUtf16Nul s := by
  obtain ⟨fine, _, _⟩ := readHandshakeNonce_ok.mp read
  obtain ⟨rest, whole⟩ := units_of_read read
  have given : readNonceFromRegistry opened q = some (fromUtf16Lossy r.units.dropLast) := by
    rw [readNonceFromRegistry, if_neg (not_not.mpr opens), if_neg (not_not.mpr (status.trans fine)),
      units]
  have dropped : r.units.dropLast = s.toList.flatMap encodeChar ++ (0 :: rest).dropLast := by
    rw [whole, List.dropLast_append_of_ne_nil (List.cons_ne_nil _ _)]
    rfl
  rw [given, Option.some_inj, fromUtf16Lossy, dropped, decodeUtf16Lossy_append, whole,
    encodeUtf16Nul, List.append_cancel_left_eq]
  constructor
  · intro same
    have nothing : decodeUtf16Lossy (0 :: rest).dropLast = [] := by
      have chars := congrArg String.toList same
      rw [String.toList_ofList] at chars
      exact List.append_right_eq_self.mp chars
    cases rest with
    | nil => rfl
    | cons v rest => simp [decodeUtf16Lossy_eq_nil] at nothing
  · intro alone
    rw [alone]
    simp [decodeUtf16Lossy]

def sampleReply : RegReply where
  status := 0
  actualType := regSz
  units := [0x61, 0, 0x62, 0]
  fits := by decide
  terminated _ _ := rfl

theorem readers_agree_sample :
    readHandshakeNonce sampleReply = .ok "a" ∧ readNonceFromRegistry 0 sampleReply ≠ some "a" := by
  have read : readHandshakeNonce sampleReply = .ok "a" := by decide
  refine ⟨read, fun same => ?_⟩
  have alone := (readers_agree (q := sampleReply) rfl rfl rfl read).mp same
  exact absurd alone (by decide)

theorem hexDigit_unit :
    ∀ n < 16, (encodeChar (Nat.digitChar n)).length = 1 ∧ 0 ∉ encodeChar (Nat.digitChar n) := by
  decide

theorem hexString_units (bytes : Bytes) :
    (encodeUtf16 (hexString bytes)).length = 2 * bytes.length ∧
      0 ∉ encodeUtf16 (hexString bytes) := by
  induction bytes with
  | nil => exact ⟨rfl, List.not_mem_nil⟩
  | cons b bytes ih =>
    have bound := b.toNat_lt
    obtain ⟨one, first⟩ := hexDigit_unit (b.toNat / 16) (by omega)
    obtain ⟨two, second⟩ := hexDigit_unit (b.toNat % 16) (by omega)
    have whole : encodeUtf16 (hexString (b :: bytes)) = encodeChar (Nat.digitChar (b.toNat / 16)) ++
        (encodeChar (Nat.digitChar (b.toNat % 16)) ++ encodeUtf16 (hexString bytes)) := by
      simp [encodeUtf16, hexString]
    rw [whole]
    refine ⟨?_, ?_⟩
    · rw [List.length_append, List.length_append, one, two, ih.1, List.length_cons]
      omega
    · simp [first, second, ih.2]

structure Holds (r : RegReply) (text : String) : Prop where
  status : r.status = 0
  actualType : r.actualType = regSz
  units : r.units = encodeUtf16Nul text

theorem takeWhile_before_nul {units : List UInt16} (clean : 0 ∉ units) (rest : List UInt16) :
    (units ++ 0 :: rest).takeWhile (· != 0) = units := by
  rw [List.takeWhile_append_of_pos (by
    intro u here
    simp only [bne_iff_ne, ne_eq]
    rintro rfl
    exact clean here)]
  simp

theorem read_hexString {bytes : Bytes} (opens : opened = 0) (strict : Holds r (hexString bytes))
    (plain : Holds q (hexString bytes)) : readHandshakeNonce r = .ok (hexString bytes) ∧
      readNonceFromRegistry opened q = some (hexString bytes) := by
  have clean := (hexString_units bytes).2
  have read : readHandshakeNonce r = .ok (hexString bytes) := by
    refine readHandshakeNonce_ok.mpr ⟨strict.status, strict.actualType, ?_⟩
    rw [strict.units]
    exact takeWhile_before_nul clean []
  refine ⟨read, (readers_agree opens (plain.status.trans strict.status.symm)
    (plain.units.trans strict.units.symm) read).mpr strict.units⟩

end

theorem nonces_eq {s : Plugin} {copies : Option String × Option String} (h : nonces s = copies) :
    s.nonce = copies.1 ∧ s.registryNonce = copies.2 := Prod.ext_iff.mp h

/-- In every run of the store whose registry writes succeed: what either reader finds is the nonce
that the store accepts next, or there is no nonce and the value is missed. -/
theorem read_nonce_accepted (P : Platform) (plugin : Plugin) (out : Outside) (ops : List Op)
    (first l : Ledger) (start : operate P (Ledger.start plugin) (.initializeNonce out) first)
    (run : Run (operate P) first ops l) (writes : out.registry = none)
    (all : ∀ op ∈ ops, op.writes = true) (opened : UInt32) (opens : opened = 0) (r q : RegReply)
    (value : ∀ nonce, l.server.session.plugin.registryNonce = some nonce →
      Holds r nonce ∧ Holds q nonce)
    (missing : l.server.session.plugin.registryNonce = none → r.status = 2) :
    (∃ nonce, readHandshakeNonce r = .ok nonce ∧ readNonceFromRegistry opened q = some nonce ∧
      matchesNonce l.server.session.plugin nonce = true) ∨
    l.server.session.plugin.nonce = none ∧ readHandshakeNonce r = .error .notFound := by
  obtain ⟨register, tracks⟩ := tracks_run run all (tracks_first writes start)
  obtain ⟨stored, written⟩ := nonces_eq tracks.current
  cases current : register.current with
  | none =>
    rw [current] at stored written
    refine .inr ⟨stored, ?_⟩
    rw [readHandshakeNonce, missing written]
    rfl
  | some bytes =>
    rw [current] at stored written
    obtain ⟨strict, plain⟩ := value _ written
    obtain ⟨read, given⟩ := read_hexString opens strict plain
    refine .inl ⟨_, read, given, ?_⟩
    rw [matchesNonce, stored]
    exact JsonRpc.equalsIgnoreCase_refl _

theorem written_fits {bytes : Bytes} (short : bytes.length ≤ 127) :
    (encodeUtf16Nul (hexString bytes)).length ≤ 256 := by
  rw [encodeUtf16Nul, List.length_append, (hexString_units bytes).1, List.length_singleton]
  omega

def writtenReply (bytes : Bytes) (short : bytes.length ≤ 127) : RegReply where
  status := 0
  actualType := regSz
  units := encodeUtf16Nul (hexString bytes)
  fits := written_fits short
  terminated _ _ := List.getLast?_concat

theorem holds_writtenReply (bytes : Bytes) (short : bytes.length ≤ 127) :
    Holds (writtenReply bytes short) (hexString bytes) := ⟨rfl, rfl, rfl⟩

def missingReply : RegReply where
  status := 2
  actualType := 0
  units := []
  fits := by decide
  terminated fine := by cases fine

namespace Sample
open NonceSafety.Sample

def greeted : Ledger := ledger (.initializeNonce initialOutside :: ops)

def cleared : Ledger :=
  ledger (.initializeNonce initialOutside :: (ops ++ [.clearNonce VaultOutcomes.Sample.outside]))

theorem greeted_server : greeted.server = perform platform (perform platform (perform platform
    (Server.start VaultOutcomes.Sample.plugin) (.initializeNonce initialOutside)) .connect)
      (.line VaultOutcomes.Sample.outside helloLine) := by
  simp only [greeted, ledger, ops, List.foldl_cons, List.foldl_nil, Ledger.start]

theorem cleared_server : cleared.server =
    perform platform greeted.server (.clearNonce VaultOutcomes.Sample.outside) := by
  simp only [cleared, greeted, ledger, ops, List.cons_append, List.nil_append, List.foldl_cons,
    List.foldl_nil, Ledger.start]

theorem nonces_greeted :
    nonces greeted.server.session.plugin = both VaultOutcomes.Sample.outside.nonce := by
  rw [greeted_server, line_nonces rfl helloLine _, accepts]
  rfl

theorem nonces_cleared : nonces cleared.server.session.plugin = (none, none) := by
  have clears : ∀ s : Server, nonces (perform platform s
      (.clearNonce VaultOutcomes.Sample.outside)).session.plugin = (none, none) :=
    fun s => clearNonce_final rfl s.session.plugin
  rw [cleared_server, clears]

theorem start_ledger : operate platform (Ledger.start VaultOutcomes.Sample.plugin)
    (.initializeNonce initialOutside) (ledger [.initializeNonce initialOutside]) := rfl

theorem run_greeted : Run (operate platform)
    (ledger [.initializeNonce initialOutside]) ops greeted := .cons rfl (.single rfl)

theorem run_cleared : Run (operate platform) (ledger [.initializeNonce initialOutside])
    (ops ++ [.clearNonce VaultOutcomes.Sample.outside]) cleared := run_greeted.append (.single rfl)

end Sample

/-- Once a hello is accepted, either reader finds the nonce that took the place of the one the hello
had; once the store is cleared, there is none to find. -/
theorem read_nonce_accepted_sample :
    Sample.greeted.accepted = [NonceSafety.Sample.upperNonce] ∧
    (∃ r nonce, readHandshakeNonce r = .ok nonce ∧ readNonceFromRegistry 0 r = some nonce ∧
      matchesNonce Sample.greeted.server.session.plugin nonce = true) ∧
    Sample.cleared.server.session.plugin.nonce = none ∧
    readHandshakeNonce missingReply = .error .notFound := by
  let out := VaultOutcomes.Sample.outside
  let r := writtenReply out.nonce (by rw [out.nonce_length]; decide)
  obtain ⟨stored, registry⟩ := nonces_eq Sample.nonces_greeted
  obtain ⟨forgotten, gone⟩ := nonces_eq Sample.nonces_cleared
  have holds : ∀ nonce, Sample.greeted.server.session.plugin.registryNonce = some nonce →
      Holds r nonce ∧ Holds r nonce := by
    intro nonce written
    obtain rfl := Option.some.inj (registry.symm.trans written)
    exact ⟨holds_writtenReply _ _, holds_writtenReply _ _⟩
  have written : ∀ nonce, Sample.cleared.server.session.plugin.registryNonce = some nonce →
      Holds missingReply nonce ∧ Holds missingReply nonce := by
    intro nonce written
    rw [gone] at written
    cases written
  refine ⟨NonceSafety.Sample.ledger_accepted, ?_, forgotten, ?_⟩
  · rcases read_nonce_accepted _ VaultOutcomes.Sample.plugin NonceSafety.Sample.initialOutside _ _ _
      Sample.start_ledger Sample.run_greeted rfl (by decide) 0 rfl r r holds (fun none => by
        rw [registry] at none
        cases none) with found | ⟨absent, _⟩
    · obtain ⟨nonce, read, given, accepted⟩ := found
      exact ⟨r, nonce, read, given, accepted⟩
    · rw [absent] at stored
      cases stored
  · rcases read_nonce_accepted _ VaultOutcomes.Sample.plugin NonceSafety.Sample.initialOutside _ _ _
      Sample.start_ledger Sample.run_cleared rfl (by decide) 0 rfl missingReply missingReply written
      (fun _ => rfl) with ⟨nonce, read, _⟩ | ⟨_, missed⟩
    · cases read
    · exact missed

end KeePassKeyWin.NonceReading
