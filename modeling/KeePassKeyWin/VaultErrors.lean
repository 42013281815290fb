import KeePassKeyWin.CborFailures
import KeePassKeyWin.VaultHandler

set_option autoImplicit false

/-!
# The errors of the raw methods

Every error that a raw request can end with is answered with one of seven codes, each of which
the client knows, unless it is one that the user's prompt throws.
-/
namespace KeePassKeyWin.VaultErrors
open ByteStrings JsonRpc OutcomeRules PlatformServices CborReading CredentialEncodings
open CborFailures EcdsaSignatures PasskeyStore VaultGates CtapRequests VaultHandler

def vaultCodes : List ℤ := [RpcErrorCode.invalidParams, RpcErrorCode.vaultLocked,
  RpcErrorCode.credentialNotFound, RpcErrorCode.unsupportedAlgorithm,
  RpcErrorCode.credentialExcluded, RpcErrorCode.invalidOption]

/-- An exception that is no `RpcException`, or one with a code of the vault. -/
def Known : Exn → Prop
  | .rpc code _ => code ∈ vaultCodes
  | _ => True

theorem known_invalidParams (message : String) : Known (invalidParams message) := by
  simp [Known, vaultCodes, invalidParams]

theorem known_malformed (message : String) : Known (.cborReader message) := trivial

theorem skipItem_throws (fuel : ℕ) : Throws Known (skipItem fuel) := by
  induction fuel with
  | zero => exact .throw trivial
  | succ fuel ih =>
    refine .bind (ensureAvailable_throws known_malformed 1) fun _ => .bind peekByte_throws fun _ =>
      .bind (validateAdditionalInfo_throws known_malformed _) fun _ => ?_
    split
    · exact .bind (readInitialByte_throws known_malformed) fun _ => .pure _
    · exact .bind (readInitialByte_throws known_malformed) fun _ => .pure _
    · exact .bind (readInitialByte_throws known_malformed) fun _ => skipBytes_throws known_malformed _
    · exact .bind (readInitialByte_throws known_malformed) fun _ => skipBytes_throws known_malformed _
    · exact .bind (readInitialByte_throws known_malformed) fun _ => .times (fun _ => ih) _ _
    · exact .bind (readInitialByte_throws known_malformed) fun _ => .times (fun _ => .bind ih fun _ => ih) _ _
    · exact .ite (.bind (advance_throws 1) fun _ => .pure _)
        (.bind position_throws fun _ => fail_throws known_malformed _)
    · exact .bind position_throws fun _ => fail_throws known_malformed _

theorem skipValue_throws : Throws Known skipValue := fun r e t h => skipItem_throws _ r e t h

theorem parse_fails {α : Type} {reader : Reader α} (h : Throws Known reader) (data : Bytes) :
    Fails Known (parse reader data) := by
  intro e run
  unfold parse at run
  cases hr : reader ⟨0, data⟩ with
  | ok a r =>
    rw [hr] at run
    cases run
  | error e' r =>
    rw [hr] at run
    obtain rfl := Except.error.inj run
    exact h _ _ _ hr

theorem readClientDataHash_throws (method : String) : Throws Known (readClientDataHash method) := by
  refine .bind (readByteString_throws known_malformed) fun _ => ?_
  exact .guard (.throw (known_invalidParams _)) (.pure _)

theorem readRpField_throws (f : MakeCredentialFields) : Throws Known (readRpField f) := by
  refine .bind (readTextString_throws known_malformed) fun _ => ?_
  refine .ite (.bind (readTextString_throws known_malformed) fun _ => .pure _) ?_
  exact .ite (.bind (readTextString_throws known_malformed) fun _ => .pure _)
    (.bind skipValue_throws fun _ => .pure _)

theorem readUserField_throws (f : MakeCredentialFields) : Throws Known (readUserField f) := by
  refine .bind (readTextString_throws known_malformed) fun _ => ?_
  refine .ite (.bind (readByteString_throws known_malformed) fun _ => .pure _) ?_
  refine .ite (.bind (readTextString_throws known_malformed) fun _ => .pure _) ?_
  exact .ite (.bind (readTextString_throws known_malformed) fun _ => .pure _)
    (.bind skipValue_throws fun _ => .pure _)

theorem readParamField_throws (p : CredentialParam) : Throws Known (readParamField p) := by
  refine .bind (readTextString_throws known_malformed) fun _ => ?_
  refine .ite (.bind (peekMajorType_throws known_malformed) fun _ => ?_) ?_
  · exact .ite (.bind (readNegativeInt_throws known_malformed) fun _ => .pure _)
      (.bind skipValue_throws fun _ => .pure _)
  · exact .ite (.bind (readTextString_throws known_malformed) fun _ => .pure _)
      (.bind skipValue_throws fun _ => .pure _)

theorem readCredentialParam_throws (f : MakeCredentialFields) :
    Throws Known (readCredentialParam f) :=
  .bind (readMapHeader_throws known_malformed) fun _ => .bind (.times readParamField_throws _ _) fun _ => .pure _

theorem readExcludedField_throws (descId : Option Bytes) :
    Throws Known (readExcludedField descId) := by
  refine .bind (readTextString_throws known_malformed) fun _ => ?_
  exact .ite (.bind (readByteString_throws known_malformed) fun _ => .pure _)
    (.bind skipValue_throws fun _ => .pure _)

theorem readExcluded_throws (f : MakeCredentialFields) : Throws Known (readExcluded f) := by
  refine .bind (readMapHeader_throws known_malformed) fun _ => .bind (.times readExcludedField_throws _ _) fun _ => ?_
  split <;> exact .pure _

theorem readMakeCredentialKey_throws (f : MakeCredentialFields) :
    Throws Known (readMakeCredentialKey f) := by
  refine .bind (readUnsignedInt_throws known_malformed) fun _ => ?_
  split
  · exact .bind (readClientDataHash_throws _) fun _ => .pure _
  · exact .bind (readMapHeader_throws known_malformed) fun _ => .times readRpField_throws _ _
  · exact .bind (readMapHeader_throws known_malformed) fun _ => .times readUserField_throws _ _
  · exact .bind (readArrayHeader_throws known_malformed) fun _ => .times readCredentialParam_throws _ _
  · exact .bind (readArrayHeader_throws known_malformed) fun _ => .times readExcluded_throws _ _
  · exact .bind skipValue_throws fun _ => .pure _

theorem requireField_fails (value : Option String) (what : String) :
    Fails Known (requireField value what) := by
  unfold requireField
  split
  · exact .ok _
  · exact .error (known_invalidParams _)

theorem noSupportedAlgorithm_known : Known noSupportedAlgorithm := by
  simp [Known, vaultCodes, noSupportedAlgorithm]

theorem validateMake_fails (f : MakeCredentialFields) : Fails Known f.validate := by
  unfold MakeCredentialFields.validate
  split
  · exact .error (known_invalidParams _)
  · refine .bind (requireField_fails _ _) fun _ => .bind (requireField_fails _ _) fun _ =>
      .bind (requireField_fails _ _) fun _ => ?_
    exact .guard (.error noSupportedAlgorithm_known) (.pure _)

theorem parseMakeCredentialCbor_fails (data : Bytes) : Fails Known (parseMakeCredentialCbor data) :=
  .bind (parse_fails (.bind (readMapHeader_throws known_malformed) fun _ => .times readMakeCredentialKey_throws _ _)
    data) validateMake_fails

theorem readDescriptorField_throws (d : Descriptor) : Throws Known (readDescriptorField d) := by
  refine .bind (readTextString_throws known_malformed) fun _ => ?_
  refine .ite (.bind (readByteString_throws known_malformed) fun _ => .pure _) ?_
  exact .ite (.bind (readTextString_throws known_malformed) fun _ => .pure _)
    (.bind skipValue_throws fun _ => .pure _)

theorem readDescriptor_throws (f : GetAssertionFields) : Throws Known (readDescriptor f) :=
  .bind (readMapHeader_throws known_malformed) fun _ => .bind (.times readDescriptorField_throws _ _) fun _ => .pure _

theorem readOption_throws (f : GetAssertionFields) : Throws Known (readOption f) := by
  refine .bind (readTextString_throws known_malformed) fun _ => ?_
  refine .ite (.bind (readBool_throws known_malformed) fun _ => .pure _) ?_
  exact .ite (.bind (readBool_throws known_malformed) fun _ => .pure _) (.bind skipValue_throws fun _ => .pure _)

theorem readGetAssertionKey_throws (f : GetAssertionFields) :
    Throws Known (readGetAssertionKey f) := by
  refine .bind (readUnsignedInt_throws known_malformed) fun _ => ?_
  split
  · exact .bind (readTextString_throws known_malformed) fun _ => .pure _
  · exact .bind (readClientDataHash_throws _) fun _ => .pure _
  · exact .bind (readArrayHeader_throws known_malformed) fun _ => .times readDescriptor_throws _ _
  · exact .bind (readMapHeader_throws known_malformed) fun _ => .times readOption_throws _ _
  · exact .bind skipValue_throws fun _ => .pure _

theorem validateGet_fails (f : GetAssertionFields) : Fails Known f.validate := by
  unfold GetAssertionFields.validate
  split
  · exact .error (known_invalidParams _)
  · split
    · exact .error (known_invalidParams _)
    · exact .pure _

theorem parseGetAssertionCbor_fails (data : Bytes) : Fails Known (parseGetAssertionCbor data) :=
  .bind (parse_fails (.bind (readMapHeader_throws known_malformed) fun _ => .times readGetAssertionKey_throws _ _)
    data) validateGet_fails

theorem orMalformed_fails {α : Type} {outcome : Except Exn α} (h : Fails Known outcome)
    (method : String) : Fails Known (orMalformed method outcome) := by
  unfold orMalformed
  split
  · exact .error (known_invalidParams _)
  · exact h

theorem valueString_fails (token : JToken) : Fails Known token.valueString := by
  cases token with
  | integer n =>
    unfold JToken.valueString
    exact .ite (.ok _) (.error trivial)
  | array => exact .error trivial
  | object => exact .error trivial
  | _ => exact .ok _

theorem valueBool_fails (token : JToken) : Fails Known token.valueBool := by
  cases token with
  | boolean b => exact .ok _
  | integer n =>
    unfold JToken.valueBool
    exact .ite (.ok _) (.error trivial)
  | floating => exact .ok _
  | str s =>
    simp only [JToken.valueBool]
    split
    · exact .ok _
    · exact .error trivial
  | _ => exact .error trivial

theorem stringField_fails (obj : JObject) (key : String) : Fails Known (stringField obj key) := by
  unfold stringField
  split
  · exact .ok _
  · exact valueString_fails _

theorem boolField_fails (obj : JObject) (key : String) : Fails Known (boolField obj key) := by
  unfold boolField
  split
  · exact .ok _
  · exact valueBool_fails _

theorem requireObject_fails (token : Option JToken) (method : String) :
    Fails Known (requireObject token method) := by
  unfold requireObject
  split
  · exact .ok _
  · exact .error (known_invalidParams _)

theorem requireString_fails (obj : JObject) (key : String) :
    Fails Known (requireString obj key) := by
  refine .bind (stringField_fails obj key) fun _ => ?_
  split
  · exact .pure _
  · exact .error (known_invalidParams _)

section
variable {P : Platform}

theorem fromBase64String_fails (text : String) : Fails Known (fromBase64String P text) := by
  unfold fromBase64String
  split
  · exact .ok _
  · exact .error trivial

theorem base64UrlDecode_fails (text : String) : Fails Known (Base64Url.decode P text) := by
  unfold Base64Url.decode
  exact fromBase64String_fails _

theorem fromBase64OrInvalid_fails (text : String) (invalid : String → String) :
    Fails Known (fromBase64OrInvalid P text invalid) := by
  unfold fromBase64OrInvalid
  split
  · exact .error (known_invalidParams _)
  · exact fromBase64String_fails text

theorem verify_fails (pubKey payload signature : Bytes) :
    Fails Known (verify P pubKey payload signature) := by
  unfold verify
  refine .ite (.ok _) ?_
  split
  · exact .ok _
  · exact .ok _
  · exact .ok _
  · exact .error trivial

theorem verifyAcceptingEitherFormat_fails (pubKey payload signature : Bytes) :
    Fails Known (verifyAcceptingEitherFormat P pubKey payload signature) := by
  have fast : Fails Known (if signature.length = 64 then verify P pubKey payload signature
      else .ok false) := .ite (verify_fails _ _ _) (.ok _)
  unfold verifyAcceptingEitherFormat
  refine .ite (.ok _) ?_
  dsimp only
  split
  · rename_i e failed
    exact .error (fast e failed)
  · exact .ok _
  · split
    · exact verify_fails _ _ _
    · exact .ok _

theorem verifyRequestSignature_fails (key : Option Bytes) (obj : JObject) (cborBytes : Bytes)
    (method : String) : Fails Known (verifyRequestSignature P key obj cborBytes method) := by
  unfold verifyRequestSignature
  split
  · exact .error (known_invalidParams _)
  · refine .bind (stringField_fails _ _) fun _ => ?_
    split
    · exact .error (known_invalidParams _)
    · refine .bind (fromBase64OrInvalid_fails _ _) fun _ => .bind (verify_fails _ _ _) fun _ => ?_
      exact .ite (.error (known_invalidParams _)) (.pure _)

theorem beforePrompt_fails (key : Option Bytes) (bypass : Option String)
    (params : Option JToken) (method : String) :
    Fails Known (beforePrompt P key bypass params method) := by
  refine .bind (requireObject_fails _ _) fun obj => .bind (boolField_fails _ _) fun uv =>
    .bind (.bind (requireString_fails _ _) fun _ =>
      .bind (fromBase64OrInvalid_fails _ _) fun cborBytes => ?_) fun _ => .pure _
  exact .ite (.pure _) (.bind (verifyRequestSignature_fails _ _ _ _) fun _ => .pure _)

theorem verifyUvSignature_fails (key : Option Bytes) (uvSigB64 : Option String)
    (cborBytes : Bytes) (method : String) :
    Fails Known (verifyUvSignature P key uvSigB64 cborBytes method) := by
  unfold verifyUvSignature
  split
  · exact .error (known_invalidParams _)
  · dsimp only
    split
    · exact .error (known_invalidParams _)
    · refine .bind (fromBase64OrInvalid_fails _ _) fun _ => ?_
      refine .guard (.error (known_invalidParams _)) ?_
      exact .bind (verifyAcceptingEitherFormat_fails _ _ _) fun _ =>
        .ite (.error (known_invalidParams _)) (.pure _)

/-- The user's prompt throws no `RpcException` of its own. -/
def PlainPrompt (ask : AskOutcome) : Prop := ∀ e, ask = .throws e → Known e

theorem promptForFallback_fails {ask : AskOutcome} (plain : PlainPrompt ask)
    (prompt : Option UvFallbackPrompt) (method : String) :
    Fails Known (promptForFallback ask prompt method).1 := by
  cases prompt with
  | none => exact .error (known_invalidParams _)
  | some p =>
    simp only [promptForFallback]
    cases decided : shouldProceed p ask with
    | mk outcome latch =>
      cases outcome with
      | ok yes =>
        cases yes with
        | true => exact .ok _
        | false => exact .error (known_invalidParams _)
      | error e =>
        cases e with
        | rpc code message =>
          have thrown : ask = .throws (.rpc code message) := by
            unfold shouldProceed at decided
            split_ifs at decided
            · simp at decided
            · cases ask with
              | yes => simp at decided
              | no => simp at decided
              | throws e =>
                rw [Except.error.inj (Prod.mk.inj decided).1]
          exact .error (plain _ thrown)
        | cborReader message => exact .error (known_invalidParams _)
        | format message => exact .error (known_invalidParams _)
        | other message => exact .error (known_invalidParams _)

theorem verifyUvSignatureOrPrompt_fails {ask : AskOutcome} (plain : PlainPrompt ask)
    (key : Option Bytes) (prompt : Option UvFallbackPrompt) (obj : JObject) (cborBytes : Bytes)
    (method : String) :
    Fails Known (verifyUvSignatureOrPrompt P ask key prompt obj cborBytes method).1 := by
  unfold verifyUvSignatureOrPrompt
  split
  · rename_i e field
    exact .error (stringField_fails _ _ e field)
  · split
    · rename_i e field
      exact .error (stringField_fails _ _ e field)
    · split_ifs
      · exact verifyUvSignature_fails _ _ _ _
      · exact promptForFallback_fails plain _ _
      · exact .error (known_invalidParams _)

theorem gates_fails {ask : AskOutcome} (plain : PlainPrompt ask) (key : Option Bytes)
    (bypass : Option String) (prompt : Option UvFallbackPrompt) (params : Option JToken)
    (method : String) : Fails Known (gates P ask key bypass prompt params method).1 := by
  unfold gates
  split
  · rename_i e before
    exact .error (beforePrompt_fails _ _ _ _ e before)
  · rename_i obj uv cborBytes _
    have verified := verifyUvSignatureOrPrompt_fails (P := P) plain key prompt obj cborBytes method
    split
    · exact .ok _
    · rename_i e _ failed
      exact .error (verified e (congrArg Prod.fst failed))

theorem receiveRaw_throws {out : Outside} (plain : PlainPrompt out.ask) (params : Option JToken)
    (method : String) : Throws Known (receiveRaw P out params method) := by
  intro s e t h
  have passed := gates_fails (P := P) plain s.opSignPubKey s.skipPluginSigVerify s.uvFallbackPrompt
    params method
  unfold receiveRaw at h
  split at h
  · cases h
  · rename_i failed
    cases h
    exact passed _ (congrArg Prod.fst failed)

theorem known_other (message : String) : Known (.other message) := trivial

theorem known_unsupported (message : String) :
    Known (.rpc RpcErrorCode.unsupportedAlgorithm message) := by
  simp [Known, vaultCodes]

section
variable {Q : Exn → Prop} (other : ∀ message, Q (.other message))
include other

theorem save_throws (out : Outside) : Throws Q (save out) := by
  intro s e t h
  unfold save at h
  split at h <;> cases h <;> exact other _

theorem add_throws (out : Outside) (record : PasskeyRecord) : Throws Q (add P out record) := by
  refine .bind .get fun s => ?_
  exact .guard (.throw (other _)) (.bind (.modify _) fun _ => save_throws other out)

theorem mapError_fails {α : Type} (x : Except String α) : Fails Q (x.mapError Exn.other) := by
  cases x with
  | ok a => exact .ok a
  | error message => exact .error (other message)

theorem encode_fails (x y : Bytes) : Fails Q (CoseKey.encode x y) := by
  unfold CoseKey.encode
  exact .guard (.error (other _)) (.guard (.error (other _)) (.pure _))

theorem encodeRsa_fails (n e : Bytes) : Fails Q (CoseKey.encodeRsa n e) := by
  unfold CoseKey.encodeRsa
  exact .guard (.error (other _)) (.guard (.error (other _)) (.pure _))

theorem build_fails (rpId : String) (credentialId coseKey : Bytes) (uv : Bool) :
    Fails Q (AuthDataBuilder.build P rpId credentialId coseKey uv) := by
  unfold AuthDataBuilder.build
  exact .guard (.error (other _)) (.guard (.error (other _))
    (.guard (.error (other _)) (.pure _)))

variable (unsupported : ∀ message, Q (.rpc RpcErrorCode.unsupportedAlgorithm message))
include unsupported

omit other in
theorem selectAlgorithm_fails (requestedAlgs : List ℤ) :
    Fails Q (selectAlgorithm requestedAlgs) :=
  .ite (.ok _) (.ite (.ok _) (.error (unsupported _)))

theorem generateKeyPairAndCoseKey_fails (out : Outside) (culture : NumberFormat.NumberFormatInfo)
    (algId : ℤ) : Fails Q (generateKeyPairAndCoseKey out culture algId) := by
  unfold generateKeyPairAndCoseKey
  refine .ite ?_ (.ite ?_ (.error (unsupported _)))
  · exact .bind (.bind (mapError_fails other _) fun _ => .pure _) fun _ =>
      .bind (encode_fails other _ _) fun _ => .pure _
  · exact .bind (.bind (mapError_fails other _) fun _ => .pure _) fun _ =>
      .bind (encodeRsa_fails other _ _) fun _ => .pure _

end

theorem incrementSignCount_throws (out : Outside) (credentialId : String) :
    Throws Known (incrementSignCount out credentialId) := by
  refine .bind .get fun s => .bind (.lift ?_) fun _ => .bind (.modify _) fun _ =>
    .bind (save_throws known_other out) fun _ => .pure _
  unfold nextSignCount
  refine .ite (.error trivial) ?_
  split
  · exact .error trivial
  · exact .ite (.error trivial) (.ok _)

theorem checkExcluded_fails (excludeList : List String) (s : Plugin) :
    Fails Known (checkExcluded P excludeList s) := by
  unfold checkExcluded
  split
  · exact .ok _
  · exact .error (by simp [Known, vaultCodes])

theorem handleMakeCredentialRaw_throws {out : Outside} (plain : PlainPrompt out.ask)
    (params : Option JToken) : Throws Known (handleMakeCredentialRaw P out params) := by
  refine .bind (receiveRaw_throws plain _ _) fun _ =>
    .bind (.lift (orMalformed_fails (parseMakeCredentialCbor_fails _) _)) fun req =>
    .bind .get fun s => .bind (.lift (checkExcluded_fails _ _)) fun _ =>
    .bind (.lift (selectAlgorithm_fails known_unsupported _)) fun alg =>
    .bind (.lift (generateKeyPairAndCoseKey_fails known_other known_unsupported _ _ _)) fun key =>
      ?_
  exact .bind (.lift (build_fails known_other _ _ _ _)) fun _ =>
    .bind (add_throws known_other _ _) fun _ => .pure _

theorem writeAt_fails (buf : Bytes) (pos : ℕ) (bytes : Bytes) :
    Fails Known (writeAt buf pos bytes) := .ite (.ok _) (.error trivial)

theorem writeLength_fails (buf : Bytes) (pos length : ℕ) :
    Fails Known (writeLength buf pos length) := by
  unfold writeLength
  exact .ite (.bind (writeAt_fails _ _ _) fun _ => .pure _)
    (.ite (.bind (writeAt_fails _ _ _) fun _ => .pure _)
      (.bind (writeAt_fails _ _ _) fun _ => .pure _))

theorem encodeInteger_fails (value : Bytes) : Fails Known (encodeInteger value) := by
  unfold encodeInteger
  split
  · exact .error trivial
  · refine .bind (writeAt_fails _ _ _) fun _ => .bind (writeLength_fails _ _ _) fun _ => ?_
    exact .ite (.bind (writeAt_fails _ _ _) fun _ => writeAt_fails _ _ _) (writeAt_fails _ _ _)

theorem p1363ToDer_fails (p1363 : Bytes) : Fails Known (p1363ToDer p1363) := by
  unfold p1363ToDer
  refine .guard (.error trivial) ?_
  exact .bind (encodeInteger_fails _) fun _ => .bind (encodeInteger_fails _) fun _ =>
    .bind (writeAt_fails _ _ _) fun _ => .bind (writeLength_fails _ _ _) fun _ =>
    .bind (writeAt_fails _ _ _) fun _ => writeAt_fails _ _ _

theorem signWithAlgorithm_throws (out : Outside) (pkcs8 data : Bytes) (algId : ℤ) :
    Throws Known (signWithAlgorithm P out pkcs8 data algId) := by
  unfold signWithAlgorithm
  refine .ite (.bind (.modify _) fun _ => .lift ?_) (.bind .get fun _ => .throw (by simp [Known, vaultCodes]))
  unfold signatureOf
  exact .ite (.bind (mapError_fails known_other _) fun _ => p1363ToDer_fails _)
    (mapError_fails known_other _)

theorem buildAssertionResponse_fails (credentialId authData signature : Bytes)
    (userRecord : Option PasskeyRecord) (uv : Bool) :
    Fails Known (buildAssertionResponse P credentialId authData signature userRecord uv) := by
  unfold buildAssertionResponse
  dsimp only
  split
  · exact .pure _
  · exact .bind (.bind (base64UrlDecode_fails _) fun _ => .pure _) fun _ => .pure _

theorem selectCredential_fails (req : GetAssertionRequest) (s : Plugin) :
    Fails Known (selectCredential P req s) := by
  unfold selectCredential
  refine .ite ?_ ?_
  · split
    · exact .error (by simp [Known, vaultCodes])
    · exact .ok _
  · split
    · exact .ok _
    · exact .error (by simp [Known, vaultCodes])

theorem assertWith_throws (out : Outside) (req : GetAssertionRequest) (uv : Bool)
    (selected : PasskeyRecord) : Throws Known (assertWith P out req uv selected) :=
  .bind (incrementSignCount_throws _ _) fun _ => .bind (.lift (fromBase64String_fails _)) fun _ =>
    .bind (signWithAlgorithm_throws _ _ _ _) fun _ => .bind (.lift (base64UrlDecode_fails _)) fun _ =>
    .bind (.lift (buildAssertionResponse_fails _ _ _ _ _)) fun _ => .pure _

theorem handleGetAssertionRaw_throws {out : Outside} (plain : PlainPrompt out.ask)
    (params : Option JToken) : Throws Known (handleGetAssertionRaw P out params) := by
  refine .bind (receiveRaw_throws plain _ _) fun _ =>
    .bind (.lift (orMalformed_fails (parseGetAssertionCbor_fails _) _)) fun req => ?_
  refine .guard (.throw (by simp [Known, vaultCodes])) ?_
  exact .bind .get fun s => .bind (.lift (selectCredential_fails _ _)) fun _ =>
    assertWith_throws _ _ _ _

theorem handle_raw_throws {out : Outside} (plain : PlainPrompt out.ask) {method : String}
    (raw : method = makeMethod ∨ method = getMethod) (params : Option JToken) :
    Throws Known (handle P out method params) := by
  refine .bind (.modify _) fun _ => .bind (.bind .get fun s => ?_) fun _ => ?_
  · exact .ite (.throw (by simp [Known, vaultCodes])) (.pure _)
  · rcases raw with rfl | rfl
    · exact handleMakeCredentialRaw_throws plain params
    · exact handleGetAssertionRaw_throws plain params

end

end KeePassKeyWin.VaultErrors
