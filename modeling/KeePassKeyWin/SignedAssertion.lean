import KeePassKeyWin.ResultFormats

set_option autoImplicit false

/-!
# What `signAssertion` signs

The request brings one `authData` and the result carries another. The signature belongs to the
first, and a relying party that checks it against the second needs the two to be the same.
-/
namespace KeePassKeyWin.SignedAssertion
open ByteStrings JsonRpc OutcomeRules PlatformServices CredentialEncodings AuthDataBuilder
open EcdsaSignatures PasskeyStore VaultHandler VaultResponses VaultOutcomes CredentialSelection
open ResultFormats
open RequestEffects (Gives)

def signMethod : String := "keepasskeywin.signAssertion"

structure Asks (P : Platform) (params : Option JToken) (s : Plugin) (record : PasskeyRecord)
    (authData clientDataHash : Bytes) : Prop where
  credential : ∃ credentialId, Gives params "credentialId" credentialId ∧
    s.findById P credentialId = some record
  authData : ∃ text, Gives params "authData" text ∧ fromBase64String P text = .ok authData
  clientDataHash : ∃ text, Gives params "clientDataHash" text ∧
    fromBase64String P text = .ok clientDataHash

def Returns (result : JToken) (authData signature : Bytes) : Prop :=
  ∃ obj, result = .object obj ∧ stringField obj "authData" = .ok (some (toBase64String authData)) ∧
    stringField obj "signature" = .ok (some (toBase64String signature))

/-- A verification under COSE keys that takes what the private key of the record signs. -/
def Accepts (P : Platform) (record : PasskeyRecord) (verifies : Bytes → Bytes → Bytes → Prop) :
    Prop :=
  ∀ pkcs8, fromBase64String P record.privateKeyPkcs8 = .ok pkcs8 → ∀ entropy data signature,
    signatureOf P entropy pkcs8 data record.algId = .ok signature →
      verifies record.publicKeyCose data signature

/-- Every such verification takes the signature of a result for its `authData` and the hash of
the request. -/
def Usable (P : Platform) (record : PasskeyRecord) (clientDataHash : Bytes) (result : JToken) :
    Prop :=
  ∀ verifies, Accepts P record verifies → ∃ authData signature, Returns result authData signature ∧
    verifies record.publicKeyCose (authData ++ clientDataHash) signature

/-- What the key signs for the one message is no signature of the other. -/
def Apart (P : Platform) (out : Outside) (record : PasskeyRecord) (data data' : Bytes) : Prop :=
  ∀ pkcs8, fromBase64String P record.privateKeyPkcs8 = .ok pkcs8 → ∀ entropy signature,
    signatureOf P out.entropy pkcs8 data record.algId = .ok signature →
      signatureOf P entropy pkcs8 data' record.algId = .ok signature → data = data'

section
variable {P : Platform} {out : Outside} {params : Option JToken} {s s' : Plugin} {result : JToken}
  {record : PasskeyRecord} {authData clientDataHash : Bytes}

theorem gives_unique {key value value' : String} (h : Gives params key value)
    (h' : Gives params key value') : value = value' := by
  obtain ⟨obj, rfl, field⟩ := h
  obtain ⟨_, ⟨⟩, field'⟩ := h'
  rw [field, Except.ok.injEq, Option.some.injEq] at field'
  exact field'

theorem handle_sign (run : handle P out signMethod params s = .ok result s')
    (asks : Asks P params s record authData clientDataHash) :
    ∃ pkcs8 signature, fromBase64String P record.privateKeyPkcs8 = .ok pkcs8 ∧
      signatureOf P out.entropy pkcs8 (authData ++ clientDataHash) record.algId = .ok signature ∧
      result = stringResult [("signature", toBase64String signature),
        ("authData", toBase64String (buildAssertion P record.rpId true 0)),
        ("userHandle", record.userHandle)] := by
  rw [handle_of_open (handle_ok_open run), signMethod, dispatchMethod_sign] at run
  obtain ⟨obj, id, authText, hashText, record', authData', hash', pkcs8, signature, object, hid,
    hauth, hhash, found, hauthData, hhashData, hkey, _, hsign, rfl, _⟩ := signAssertion_ok.mp run
  obtain ⟨id', given, found'⟩ := asks.credential
  obtain rfl := gives_unique given (gives_of_requireString object hid)
  obtain rfl := Option.some.inj (found'.symm.trans found)
  obtain ⟨text, given, decoded⟩ := asks.authData
  obtain rfl := gives_unique given (gives_of_requireString object hauth)
  obtain rfl := Except.ok.inj (decoded.symm.trans hauthData)
  obtain ⟨text, given, decoded⟩ := asks.clientDataHash
  obtain rfl := gives_unique given (gives_of_requireString object hhash)
  obtain rfl := Except.ok.inj (decoded.symm.trans hhashData)
  exact ⟨pkcs8, signature, hkey, hsign, rfl⟩

theorem toBase64String_injective (P : Platform) {data data' : Bytes}
    (h : toBase64String data = toBase64String data') : data = data' := by
  have decoded := fromBase64String_toBase64String P data
  rw [h, fromBase64String_toBase64String, Except.ok.injEq] at decoded
  exact decoded.symm

theorem returns_iff (P : Platform) {returned signature data sig : Bytes} {userHandle : String} :
    Returns (stringResult [("signature", toBase64String signature),
      ("authData", toBase64String returned), ("userHandle", userHandle)]) data sig ↔
        data = returned ∧ sig = signature := by
  constructor
  · rintro ⟨obj, object, hdata, hsig⟩
    obtain rfl := JToken.object.inj object
    exact ⟨(toBase64String_injective P (Option.some.inj (Except.ok.inj hdata))).symm,
      (toBase64String_injective P (Option.some.inj (Except.ok.inj hsig))).symm⟩
  · rintro ⟨rfl, rfl⟩
    exact ⟨_, rfl, rfl, rfl⟩

theorem usable_of_same (run : handle P out signMethod params s = .ok result s')
    (asks : Asks P params s record authData clientDataHash)
    (same : authData = buildAssertion P record.rpId true 0) :
    Usable P record clientDataHash result := by
  obtain ⟨pkcs8, signature, hkey, hsign, rfl⟩ := handle_sign run asks
  intro verifies accepts
  refine ⟨_, signature, (returns_iff P).mpr ⟨rfl, rfl⟩, ?_⟩
  rw [← same]
  exact accepts pkcs8 hkey out.entropy _ signature hsign

/-- The verification that takes nothing but signatures of the key tells the two apart. -/
theorem same_of_usable (run : handle P out signMethod params s = .ok result s')
    (asks : Asks P params s record authData clientDataHash)
    (apart : Apart P out record (authData ++ clientDataHash)
      (buildAssertion P record.rpId true 0 ++ clientDataHash))
    (usable : Usable P record clientDataHash result) :
    authData = buildAssertion P record.rpId true 0 := by
  obtain ⟨pkcs8, signature, hkey, hsign, rfl⟩ := handle_sign run asks
  have accepts : Accepts P record fun _ data signature => ∃ pkcs8 entropy,
      fromBase64String P record.privateKeyPkcs8 = .ok pkcs8 ∧
        signatureOf P entropy pkcs8 data record.algId = .ok signature :=
    fun pkcs8 hkey entropy _ _ hsign => ⟨pkcs8, entropy, hkey, hsign⟩
  obtain ⟨_, _, returns, pkcs8', entropy, hkey', hsign'⟩ := usable _ accepts
  obtain ⟨rfl, rfl⟩ := (returns_iff P).mp returns
  obtain rfl := Except.ok.inj (hkey.symm.trans hkey')
  exact List.append_cancel_right (apart pkcs8 hkey entropy _ hsign hsign')

end

/-- The result of a successful request is usable if the request brings the `authData` that the
plugin builds, and only then if the key gives no signature for both messages. -/
theorem signAssertion_usable_iff (P : Platform) (out : Outside) (params : Option JToken)
    (s s' : Plugin) (result : JToken) (record : PasskeyRecord) (authData clientDataHash : Bytes)
    (run : handle P out signMethod params s = .ok result s')
    (asks : Asks P params s record authData clientDataHash) :
    (authData = buildAssertion P record.rpId true 0 → Usable P record clientDataHash result) ∧
      (Apart P out record (authData ++ clientDataHash)
          (buildAssertion P record.rpId true 0 ++ clientDataHash) →
        (Usable P record clientDataHash result ↔
          authData = buildAssertion P record.rpId true 0)) :=
  ⟨usable_of_same run asks, fun apart => ⟨same_of_usable run asks apart, usable_of_same run asks⟩⟩

def zeros : Bytes := List.replicate 37 0

def zerosSignature : Bytes :=
  bigEndian 64 0x3e3f349f0be2cb2aa664e1953b5b2b4a993b51af02cb142118a5445e34ba77098f99ddca2a0ebac3b602ebf21e421c2b5df00976cf5f44211ef12c3f9af01361

def samplePlatform : Platform :=
  { Sample.lineless with
    ecdsaSignData := fun _ _ data => .ok
      (if data = zeros ++ Sample.clientDataHash then zerosSignature else Sample.otherSignature)
    ecdsaSignData_width := by
      intro _ _ data signature h
      apply Sample.halves_of_length
      rw [← Except.ok.inj h]
      split_ifs
      · exact bigEndian_length _ _
      · simp [Sample.otherSignature] }

def sampleParams : Option JToken := some (stringResult [
  ("credentialId", Base64Url.encode Sample.credentialId), ("authData", toBase64String zeros),
  ("clientDataHash", toBase64String Sample.clientDataHash)])

theorem sample_found : (Sample.registered "example.com").findById samplePlatform
    (Base64Url.encode Sample.credentialId) = some (Sample.record "example.com") := by
  rw [Plugin.findById, Sample.find?_registered "example.com"]
  exact congrArg some (Sample.record_entry "example.com")

theorem sample_asks : Asks samplePlatform sampleParams (Sample.registered "example.com")
    (Sample.record "example.com") zeros Sample.clientDataHash where
  credential := ⟨_, ⟨_, rfl, rfl⟩, sample_found⟩
  authData := ⟨_, ⟨_, rfl, rfl⟩, fromBase64String_toBase64String _ _⟩
  clientDataHash := ⟨_, ⟨_, rfl, rfl⟩, fromBase64String_toBase64String _ _⟩

theorem sample_different : zeros ≠ buildAssertion samplePlatform "example.com" true 0 := by
  decide +kernel

theorem sample_apart : Apart samplePlatform Sample.outside (Sample.record "example.com")
    (zeros ++ Sample.clientDataHash)
    (buildAssertion samplePlatform "example.com" true 0 ++ Sample.clientDataHash) := by
  intro pkcs8 _ entropy signature signed signed'
  have first : p1363ToDer (if zeros ++ Sample.clientDataHash = zeros ++ Sample.clientDataHash
      then zerosSignature else Sample.otherSignature) = .ok signature := signed
  have second : p1363ToDer (if buildAssertion samplePlatform "example.com" true 0 ++
      Sample.clientDataHash = zeros ++ Sample.clientDataHash
      then zerosSignature else Sample.otherSignature) = .ok signature := signed'
  rw [if_pos rfl] at first
  rw [if_neg fun same => sample_different (List.append_cancel_right same).symm] at second
  obtain ⟨der, hder, back⟩ := tryDerToP1363_p1363ToDer (p := zerosSignature) (bigEndian_length _ _)
  obtain ⟨der', hder', back'⟩ := tryDerToP1363_p1363ToDer (p := Sample.otherSignature)
    (by simp [Sample.otherSignature])
  obtain rfl := Except.ok.inj (hder.symm.trans first)
  obtain rfl := Except.ok.inj (hder'.symm.trans second)
  exact absurd (Option.some.inj (back.symm.trans back')) (by decide +kernel)

theorem sample_succeeds : ∃ result s', handle samplePlatform Sample.outside signMethod sampleParams
    (Sample.registered "example.com") = .ok result s' := by
  have nonempty : ∀ {text : String}, text ≠ "" → ∀ {obj : JObject} {key : String},
      stringField obj key = .ok (some text) → requireString obj key = .ok text :=
    fun ne _ _ field => requireString_ok.mpr ⟨field, ne⟩
  obtain ⟨der, hder, _⟩ := tryDerToP1363_p1363ToDer (p := zerosSignature) (bigEndian_length _ _)
  have signs : signatureOf samplePlatform Sample.outside.entropy Sample.credentialPkcs8
      (zeros ++ Sample.clientDataHash) (-7) = .ok der := by
    change p1363ToDer (if zeros ++ Sample.clientDataHash = zeros ++ Sample.clientDataHash
      then zerosSignature else Sample.otherSignature) = .ok der
    rw [if_pos rfl, hder]
  rw [handle_of_open rfl, signMethod, dispatchMethod_sign]
  exact ⟨_, _, signAssertion_ok.mpr ⟨_, _, _, _, _, zeros, Sample.clientDataHash,
    Sample.credentialPkcs8, der, rfl, nonempty (by decide +kernel) rfl,
    nonempty (by decide +kernel) rfl, nonempty (by decide +kernel) rfl, sample_found,
    fromBase64String_toBase64String _ _, fromBase64String_toBase64String _ _,
    fromBase64String_toBase64String _ _, .inl rfl, signs, rfl, rfl⟩⟩

theorem signAssertion_usable_iff_sample : ∃ result s', handle samplePlatform Sample.outside
    signMethod sampleParams (Sample.registered "example.com") = .ok result s' ∧
      (Usable samplePlatform (Sample.record "example.com") Sample.clientDataHash result ↔
        zeros = buildAssertion samplePlatform "example.com" true 0) := by
  obtain ⟨result, s', run⟩ := sample_succeeds
  exact ⟨result, s', run,
    (signAssertion_usable_iff _ _ _ _ _ _ _ _ _ run sample_asks).2 sample_apart⟩

/-- A request with an `authData` of zeros gets a signature that does not belong to the `authData`
of its result. -/
theorem zeros_not_usable : ∃ result s', handle samplePlatform Sample.outside signMethod sampleParams
    (Sample.registered "example.com") = .ok result s' ∧
      Asks samplePlatform sampleParams (Sample.registered "example.com")
        (Sample.record "example.com") zeros Sample.clientDataHash ∧
      ¬ Usable samplePlatform (Sample.record "example.com") Sample.clientDataHash result := by
  obtain ⟨result, s', run⟩ := sample_succeeds
  exact ⟨result, s', run, sample_asks, fun usable =>
    sample_different (same_of_usable run sample_asks sample_apart usable)⟩

end KeePassKeyWin.SignedAssertion
