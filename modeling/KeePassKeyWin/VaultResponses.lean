import KeePassKeyWin.VaultHandler

set_option autoImplicit false

/-!
# The data items behind the responses

What the writer produces for an attestation object, a COSE key and an assertion response
is the encoding of one data item, which a decoder reads back.
-/
namespace KeePassKeyWin.VaultResponses
open ByteStrings JsonRpc OutcomeRules PlatformServices CborCodec CborWriting
open CredentialEncodings EcdsaSignatures PasskeyStore VaultHandler

theorem writeMap_nil : writeMap [] = encode (.map []) := writeMap_eq [] .nil

def attestationObject (authData : Bytes) : Value :=
  .map [(.int 1, .text "none"), (.int 2, .bytes authData), (.int 3, .map [])]

theorem buildAttestationObject_eq (authData : Bytes) :
    buildAttestationObject authData = encode (attestationObject authData) := by
  have order : ([.int 1, .int 2, .int 3].map encode).Pairwise bytesLe := by
    simp only [List.map_cons, List.map_nil, Value.int, encode]
    decide
  have written := writeMap_eq [(.int 1, .text "none"), (.int 2, .bytes authData),
    (.int 3, .map [])] (by simpa using order)
  rw [attestationObject, ← written]
  simp [buildAttestationObject, writeUnsignedInt_int, writeMap_nil]

theorem encodable_int {n : ℤ} (h : -2 ^ 64 ≤ n ∧ n < 2 ^ 64) : Encodable (.int n) := by
  cases n with
  | ofNat n => exact .uint (by simp only [Int.ofNat_eq_natCast] at h; omega)
  | negSucc n => exact .nint (by omega)

theorem encodable_attestationObject {authData : Bytes} (h : authData.length < 2 ^ 64) :
    Encodable (attestationObject authData) := by
  have none : Encodable (.text "none") := .text (by decide)
  have empty : Encodable (.map []) := .map (by decide) (by simp) (by simp)
  refine .map (by simp) ?_ ?_ <;>
    simp only [List.mem_cons, List.not_mem_nil, or_false, forall_eq_or_imp, forall_eq]
  · exact ⟨encodable_int (by omega), encodable_int (by omega), encodable_int (by omega)⟩
  · exact ⟨none, .bytes h, empty⟩

def FreshKey (out : Outside) (algId : ℤ) (pkcs8 coseKey : Bytes) : Prop :=
  (algId = -7 ∧ ∃ pair, out.ecKey = .ok pair ∧ pkcs8 = pair.pkcs8 ∧
      coseKey = encode (ec2Key pair.x pair.y)) ∨
    (algId = -257 ∧ ∃ pair, out.rsaKey = .ok pair ∧ pkcs8 = pair.pkcs8 ∧
      coseKey = encode (rsaKey pair.modulus pair.exponent))

theorem mapError_ok {ε ε' α : Type} {f : ε → ε'} {x : Except ε α} {a : α} :
    x.mapError f = .ok a ↔ x = .ok a := by
  cases x <;> simp [Except.mapError]

theorem generateKeyPairAndCoseKey_ok {out : Outside} {culture : _} {algId : ℤ}
    {pkcs8 coseKey : Bytes}
    (h : generateKeyPairAndCoseKey out culture algId = .ok (pkcs8, coseKey)) :
    FreshKey out algId pkcs8 coseKey := by
  unfold generateKeyPairAndCoseKey at h
  split_ifs at h with hec hrsa
  · obtain ⟨⟨k, x, y⟩, hkey, h⟩ := except_bind_ok.mp h
    obtain ⟨pair, hpair, hkey⟩ := except_bind_ok.mp hkey
    obtain ⟨rfl, hxy⟩ := Prod.mk.inj (except_pure_ok.mp hkey)
    obtain ⟨rfl, rfl⟩ := Prod.mk.inj hxy
    simp only [CoseKey.encode_eq pair.x_length pair.y_length] at h
    obtain ⟨rfl, rfl⟩ := Prod.mk.inj (Except.ok.inj h)
    exact .inl ⟨hec, pair, mapError_ok.mp hpair, rfl, rfl⟩
  · obtain ⟨⟨k, n, e⟩, hkey, h⟩ := except_bind_ok.mp h
    obtain ⟨pair, hpair, hkey⟩ := except_bind_ok.mp hkey
    obtain ⟨rfl, hne⟩ := Prod.mk.inj (except_pure_ok.mp hkey)
    obtain ⟨hn, he⟩ := Prod.mk.inj hne
    have hmod : stripLeadingZero pair.modulus 256 = pair.modulus := by
      simp [stripLeadingZero, pair.modulus_length]
    have hexp : stripLeadingZero pair.exponent 0 = pair.exponent := by
      simp [stripLeadingZero]
    rw [hmod] at hn
    rw [hexp] at he
    subst hn he
    have nne : pair.modulus ≠ [] := by
      intro hnil
      have := pair.modulus_length
      simp [hnil] at this
    have ene : pair.exponent ≠ [] := by
      intro hnil
      have := pair.exponent_length
      simp [hnil] at this
    simp only [CoseKey.encodeRsa_eq nne ene] at h
    obtain ⟨rfl, rfl⟩ := Prod.mk.inj (Except.ok.inj h)
    exact .inr ⟨hrsa, pair, mapError_ok.mp hpair, rfl, rfl⟩

theorem encodable_ec2Key {x y : Bytes} (hx : x.length = 32) (hy : y.length = 32) :
    Encodable (ec2Key x y) := by
  refine .map (by simp) ?_ ?_ <;>
    simp only [List.mem_cons, List.not_mem_nil, or_false, forall_eq_or_imp, forall_eq]
  · exact ⟨encodable_int (by omega), encodable_int (by omega), encodable_int (by omega),
      encodable_int (by omega), encodable_int (by omega)⟩
  · exact ⟨encodable_int (by omega), encodable_int (by omega), encodable_int (by omega),
      .bytes (by omega), .bytes (by omega)⟩

theorem encodable_rsaKey {n e : Bytes} (hn : n.length = 256) (he : e.length = 3) :
    Encodable (rsaKey n e) := by
  refine .map (by simp) ?_ ?_ <;>
    simp only [List.mem_cons, List.not_mem_nil, or_false, forall_eq_or_imp, forall_eq]
  · exact ⟨encodable_int (by omega), encodable_int (by omega), encodable_int (by omega),
      encodable_int (by omega)⟩
  · exact ⟨encodable_int (by omega), encodable_int (by omega), .bytes (by omega),
      .bytes (by omega)⟩

theorem encode_int_length {n : ℤ} (h : -24 ≤ n ∧ n ≤ 23) : (encode (.int n)).length = 1 := by
  cases n with
  | ofNat n =>
    have hn : n ≤ 23 := by simp only [Int.ofNat_eq_natCast] at h; omega
    simp [Value.int, encode, head, hn]
  | negSucc n =>
    have hn : n ≤ 23 := by omega
    simp [Value.int, encode, head, hn]

theorem encode_bytes_length {b : Bytes} (h : 24 ≤ b.length ∧ b.length ≤ 0xFF) :
    (encode (.bytes b)).length = b.length + 2 := by
  have short : ¬ b.length ≤ 23 := by omega
  simp [encode, head, short, h.2]
  omega

theorem ec2Key_length {x y : Bytes} (hx : x.length = 32) (hy : y.length = 32) :
    (encode (ec2Key x y)).length = 77 := by
  have map : (head 5 5).length = 1 := rfl
  rw [ec2Key, encode]
  simp only [encodePairs, List.length_append, List.length_cons, List.length_nil, Nat.zero_add,
    Nat.reduceAdd, map, encode_int_length (n := 1) (by omega),
    encode_int_length (n := 2) (by omega), encode_int_length (n := 3) (by omega),
    encode_int_length (n := -7) (by omega), encode_int_length (n := -1) (by omega),
    encode_int_length (n := -2) (by omega), encode_int_length (n := -3) (by omega),
    encode_bytes_length (b := x) (by omega), encode_bytes_length (b := y) (by omega), hx, hy]

theorem rsaKey_length {n e : Bytes} (hn : n.length = 256) (he : e.length = 3) :
    (encode (rsaKey n e)).length = 272 := by
  have map : (head 5 4).length = 1 := rfl
  have alg : (encode (.int (-257))).length = 3 := rfl
  have modulus : (encode (.bytes n)).length = 259 := by
    rw [encode, List.length_append, hn]
    rfl
  have exponent : (encode (.bytes e)).length = 4 := by
    rw [encode, List.length_append, he]
    rfl
  rw [rsaKey, encode]
  simp only [encodePairs, List.length_append, List.length_cons, List.length_nil, Nat.zero_add,
    Nat.reduceAdd, map, alg, modulus, exponent, encode_int_length (n := 1) (by omega),
    encode_int_length (n := 3) (by omega), encode_int_length (n := -1) (by omega),
    encode_int_length (n := -2) (by omega)]

theorem FreshKey.decodes {out : Outside} {algId : ℤ} {pkcs8 coseKey : Bytes}
    (h : FreshKey out algId pkcs8 coseKey) :
    coseKey ≠ [] ∧ coseKey.length ≤ 272 ∧
      ∃ item, decode coseKey = some (item, []) ∧ item.field 3 = some (.int algId) := by
  rcases h with ⟨rfl, pair, _, _, rfl⟩ | ⟨rfl, pair, _, _, rfl⟩
  · have len := ec2Key_length pair.x_length pair.y_length
    refine ⟨fun hnil => by simp [hnil] at len, by omega, _,
      decode_encode_exact (encodable_ec2Key pair.x_length pair.y_length), rfl⟩
  · have len := rsaKey_length pair.modulus_length pair.exponent_length
    refine ⟨fun hnil => by simp [hnil] at len, by omega, _,
      decode_encode_exact (encodable_rsaKey pair.modulus_length pair.exponent_length), rfl⟩

theorem signatureOf_length {P : Platform} {entropy pkcs8 data signature : Bytes} {algId : ℤ}
    (h : signatureOf P entropy pkcs8 data algId = .ok signature) : signature.length < 2 ^ 64 := by
  unfold signatureOf at h
  split_ifs at h
  · obtain ⟨p1363, hsign, hder⟩ := except_bind_ok.mp h
    obtain ⟨half, width, positive, small⟩ := P.ecdsaSignData_width (mapError_ok.mp hsign)
    have := p1363ToDer_length hder width positive
    omega
  · have := P.rsaSignData_length (mapError_ok.mp h)
    omega

def descriptorItem (credentialId : Bytes) : Value :=
  .map [(.text "id", .bytes credentialId), (.text "type", .text "public-key")]

/-- The names are there only with user verification. -/
def userItem (rawUserHandle : Bytes) (r : PasskeyRecord) (uv : Bool) : Value :=
  .map ((.text "id", .bytes rawUserHandle) ::
    if uv then [(.text "name", .text r.userName), (.text "displayName", .text r.userDisplayName)]
    else [])

def assertionItem (credentialId authData signature : Bytes) (user : Option Value) : Value :=
  .map ([(.int 1, descriptorItem credentialId), (.int 2, .bytes authData),
    (.int 3, .bytes signature)] ++ user.toList.map fun item => (.int 4, item))

theorem writeMap_descriptor (credentialId : Bytes) :
    writeMap [(writeTextString "id", writeByteString credentialId),
      (writeTextString "type", writeTextString "public-key")] =
        encode (descriptorItem credentialId) := by
  have order : ([.text "id", .text "type"].map encode).Pairwise bytesLe := by
    simp only [List.map_cons, List.map_nil, encode]
    decide
  have written := writeMap_eq [(.text "id", .bytes credentialId),
    (.text "type", .text "public-key")] (by simpa using order)
  rw [descriptorItem, ← written]
  simp

theorem userEntity_ok {P : Platform} {r : PasskeyRecord} {raw : Bytes} (uv : Bool)
    (h : Base64Url.decode P r.userHandle = .ok raw) :
    userEntity P r uv = .ok (encode (userItem raw r uv)) := by
  have order : ([.text "id", .text "name", .text "displayName"].map encode).Pairwise bytesLe := by
    simp only [List.map_cons, List.map_nil, encode]
    decide
  have withNames := writeMap_eq [(.text "id", .bytes raw), (.text "name", .text r.userName),
    (.text "displayName", .text r.userDisplayName)] (by simpa using order)
  have alone := writeMap_eq [(.text "id", .bytes raw)] (by simp)
  simp only [userEntity, except_bind_of_ok h]
  cases uv with
  | true =>
    simp only [userItem, if_true, ← withNames]
    simp [pure, Except.pure]
  | false =>
    simp only [userItem, Bool.false_eq_true, if_false, ← alone]
    simp [pure, Except.pure]

theorem writeMap_assertion (credentialId authData signature : Bytes) (user : Option Value) :
    writeMap ([(writeUnsignedInt 1, encode (descriptorItem credentialId)),
      (writeUnsignedInt 2, writeByteString authData),
      (writeUnsignedInt 3, writeByteString signature)] ++
        user.toList.map fun item => (writeUnsignedInt 4, encode item)) =
      encode (assertionItem credentialId authData signature user) := by
  have order : ([.int 1, .int 2, .int 3, .int 4].map encode).Pairwise bytesLe := by
    simp only [List.map_cons, List.map_nil, Value.int, encode]
    decide
  cases user with
  | none =>
    have written := writeMap_eq [(.int 1, descriptorItem credentialId),
      (.int 2, .bytes authData), (.int 3, .bytes signature)]
      (by simpa using order.sublist (List.take_sublist 3 _))
    simp only [assertionItem, Option.toList_none, List.map_nil, List.append_nil, ← written]
    simp [writeUnsignedInt_int]
  | some item =>
    have written := writeMap_eq [(.int 1, descriptorItem credentialId),
      (.int 2, .bytes authData), (.int 3, .bytes signature), (.int 4, item)] (by simpa using order)
    simp only [assertionItem, Option.toList_some, List.map_cons, List.map_nil, List.cons_append,
      List.nil_append, ← written]
    simp [writeUnsignedInt_int]

theorem buildAssertionResponse_none (P : Platform) (credentialId authData signature : Bytes)
    (uv : Bool) :
    buildAssertionResponse P credentialId authData signature none uv =
      .ok (encode (assertionItem credentialId authData signature none)) := by
  have written := writeMap_assertion credentialId authData signature none
  simp only [Option.toList_none, List.map_nil, List.append_nil] at written
  simp only [buildAssertionResponse, writeMap_descriptor, written]
  rfl

theorem buildAssertionResponse_some {P : Platform} {r : PasskeyRecord} {raw : Bytes}
    (credentialId authData signature : Bytes) (uv : Bool)
    (h : Base64Url.decode P r.userHandle = .ok raw) :
    buildAssertionResponse P credentialId authData signature (some r) uv =
      .ok (encode (assertionItem credentialId authData signature (some (userItem raw r uv)))) := by
  have written := writeMap_assertion credentialId authData signature (some (userItem raw r uv))
  simp only [Option.toList_some, List.map_cons, List.map_nil] at written
  simp only [buildAssertionResponse, writeMap_descriptor, userEntity_ok uv h, bind, Except.bind,
    written]
  rfl

def UserOf (P : Platform) (uv : Bool) : Option PasskeyRecord → Option Value → Prop
  | none, user => user = none
  | some r, user => ∃ raw, Base64Url.decode P r.userHandle = .ok raw ∧
      user = some (userItem raw r uv)

theorem buildAssertionResponse_ok {P : Platform} {userRecord : Option PasskeyRecord}
    {credentialId authData signature bytes : Bytes} {uv : Bool}
    (h : buildAssertionResponse P credentialId authData signature userRecord uv = .ok bytes) :
    ∃ user : Option Value, bytes = encode (assertionItem credentialId authData signature user) ∧
      UserOf P uv userRecord user := by
  cases userRecord with
  | none =>
    rw [buildAssertionResponse_none] at h
    exact ⟨none, (Except.ok.inj h).symm, rfl⟩
  | some r =>
    cases hraw : Base64Url.decode P r.userHandle with
    | error e =>
      obtain ⟨_, hentity, _⟩ := except_bind_ok.mp h
      obtain ⟨_, hdecode, _⟩ := except_bind_ok.mp hentity
      rw [hraw] at hdecode
      cases hdecode
    | ok raw =>
      rw [buildAssertionResponse_some _ _ _ _ hraw] at h
      exact ⟨some (userItem raw r uv), (Except.ok.inj h).symm, raw, hraw, rfl⟩

theorem encodable_assertionItem {credentialId authData signature : Bytes} {user : Option Value}
    (hid : credentialId.length < 2 ^ 64) (hdata : authData.length < 2 ^ 64)
    (hsig : signature.length < 2 ^ 64) (huser : ∀ item, user = some item → Encodable item) :
    Encodable (assertionItem credentialId authData signature user) := by
  have descriptor : Encodable (descriptorItem credentialId) := by
    refine .map (by simp) ?_ ?_ <;>
      simp only [List.mem_cons, List.not_mem_nil, or_false, forall_eq_or_imp, forall_eq]
    · exact ⟨.text (by decide), .text (by decide)⟩
    · exact ⟨.bytes hid, .text (by decide)⟩
  cases user with
  | none =>
    refine .map (by simp) ?_ ?_ <;>
      simp only [Option.toList_none, List.map_nil, List.append_nil, List.mem_cons,
        List.not_mem_nil, or_false, forall_eq_or_imp, forall_eq]
    · exact ⟨encodable_int (by omega), encodable_int (by omega), encodable_int (by omega)⟩
    · exact ⟨descriptor, .bytes hdata, .bytes hsig⟩
  | some item =>
    refine .map (by simp) ?_ ?_ <;>
      simp only [Option.toList_some, List.map_cons, List.map_nil, List.cons_append,
        List.nil_append, List.mem_cons, List.not_mem_nil, or_false, forall_eq_or_imp, forall_eq]
    · exact ⟨encodable_int (by omega), encodable_int (by omega), encodable_int (by omega),
        encodable_int (by omega)⟩
    · exact ⟨descriptor, .bytes hdata, .bytes hsig, huser item rfl⟩

end KeePassKeyWin.VaultResponses
