import KeePassKeyWin.RequestEffects

set_option autoImplicit false

/-!
# What a registration writes

The attestation object, the vault entry, the metadata for the OS list and the COSE key are
written by different encoders; here they are shown to say the same.
-/
namespace KeePassKeyWin.RegistrationAgreement
open ByteStrings JsonRpc OutcomeRules PlatformServices CborCodec CredentialEncodings
open AuthDataBuilder CborReading PasskeyStore VaultGates CtapRequests VaultHandler VaultResponses
open VaultOutcomes

structure AttestedData where
  rpIdHash : Bytes
  flags : UInt8
  signCount : Bytes
  aaguid : Bytes
  idLength : Bytes
  credentialId : Bytes
  coseKey : Bytes

def AttestedData.bytes (d : AttestedData) : Bytes :=
  d.rpIdHash ++ [d.flags] ++ d.signCount ++ d.aaguid ++ d.idLength ++ d.credentialId ++ d.coseKey

/-- The widths of the layout; the length field says how long the id is. -/
structure AttestedData.Sized (d : AttestedData) : Prop where
  rpIdHash : d.rpIdHash.length = 32
  signCount : d.signCount.length = 4
  aaguid : d.aaguid.length = 16
  idLength : d.idLength.length = 2
  credentialId : d.credentialId.length = ofBigEndian d.idLength

/-- The widths leave one way to cut. -/
theorem AttestedData.bytes_injective {d d' : AttestedData} (h : d.Sized) (h' : d'.Sized)
    (same : d.bytes = d'.bytes) : d = d' := by
  obtain ⟨hash, flags, count, aaguid, len, id, key⟩ := d
  obtain ⟨hash', flags', count', aaguid', len', id', key'⟩ := d'
  simp only [AttestedData.bytes, List.append_assoc] at same
  obtain ⟨hhash, after⟩ := List.append_inj same (h.rpIdHash.trans h'.rpIdHash.symm)
  obtain ⟨hflags, after⟩ := List.append_inj after rfl
  obtain ⟨hcount, after⟩ := List.append_inj after (h.signCount.trans h'.signCount.symm)
  obtain ⟨haaguid, after⟩ := List.append_inj after (h.aaguid.trans h'.aaguid.symm)
  obtain ⟨hlen, after⟩ := List.append_inj after (h.idLength.trans h'.idLength.symm)
  have hwidth : id.length = id'.length := by
    rw [h.credentialId, h'.credentialId, hlen]
  obtain ⟨hid, hkey⟩ := List.append_inj after hwidth
  obtain ⟨rfl, _⟩ := List.cons.inj hflags
  subst hhash hcount haaguid hlen hid hkey
  rfl

/-- What `AuthDataBuilder.Build` writes, cut at its places. -/
def attestedData (P : Platform) (rpId : String) (credentialId coseKey : Bytes) (uv : Bool) :
    AttestedData where
  rpIdHash := P.sha256 (utf8 rpId)
  flags := if uv then flagUP ||| flagAT ||| flagUV else flagUP ||| flagAT
  signCount := bigEndian 4 0
  aaguid := List.replicate 16 0
  idLength := bigEndian 2 credentialId.length
  credentialId := credentialId
  coseKey := coseKey

theorem attestedData_sized (P : Platform) (rpId : String) {credentialId : Bytes} (coseKey : Bytes)
    (uv : Bool) (h : credentialId.length < 2 ^ 16) :
    (attestedData P rpId credentialId coseKey uv).Sized :=
  ⟨P.sha256_length _, bigEndian_length _ _, by simp [attestedData], bigEndian_length _ _,
    (ofBigEndian_bigEndian_of_lt h).symm⟩

/-- What a registration that succeeds has read, added to the vault and returned. -/
structure Written (P : Platform) (out : Outside) (params : Option JToken) (s s' : Plugin)
    (result : JToken) (uv : Bool) (cborBytes : Bytes) (req : MakeCredentialRequest) (algId : ℤ)
    (pkcs8 coseKey : Bytes) : Prop where
  gates : ∃ prompt, VaultGates.gates P out.ask s.opSignPubKey s.skipPluginSigVerify
    s.uvFallbackPrompt params makeMethod = (.ok (uv, cborBytes), prompt)
  parsed : parseMakeCredentialCbor cborBytes = .ok req
  alg : selectAlgorithm req.requestedAlgs = .ok algId
  key : FreshKey out algId pkcs8 coseKey
  isVaultOpen : s'.isVaultOpen = true
  culture : s'.culture = s.culture
  entries : s'.entries = s.entries ++
    [recordToEntry P s.culture (makeCredentialRecord out req algId pkcs8 coseKey)]
  sized : (attestedData P req.rpId out.credentialId coseKey uv).Sized
  decodes : decode (buildAttestationObject
    (attestedData P req.rpId out.credentialId coseKey uv).bytes) =
      some (attestationObject (attestedData P req.rpId out.credentialId coseKey uv).bytes, [])
  result : result = makeCredentialResult (makeCredentialRecord out req algId pkcs8 coseKey)
    (buildAttestationObject (attestedData P req.rpId out.credentialId coseKey uv).bytes)

theorem makeCredentialRaw_written {P : Platform} {out : Outside} {params : Option JToken}
    {s s' : Plugin} {result : JToken} (h : handle P out makeMethod params s = .ok result s') :
    ∃ uv cborBytes req algId pkcs8 coseKey,
      Written P out params s s' result uv cborBytes req algId pkcs8 coseKey := by
  have hopen := handle_ok_open h
  rw [handle_of_open hopen, dispatchMethod_make] at h
  obtain ⟨uv, cborBytes, prompt, req, algId, pkcs8, coseKey, authData, hgates, hreq, halg, hfresh,
    hdata, _, rfl, rfl⟩ := handleMakeCredentialRaw_ok h
  obtain ⟨hkeyNe, hkeyLen, _⟩ := hfresh.decodes
  have hid := out.credentialId_length
  have hidNe : out.credentialId ≠ [] := by
    intro hnil
    simp [hnil] at hid
  have built := build_ok P req.rpId uv hidNe (show _ ≤ 0xFFFF by omega) hkeyNe
  rw [hdata, Except.ok.injEq] at built
  have split : (attestedData P req.rpId out.credentialId coseKey uv).bytes = authData := built.symm
  have hdataLen : authData.length < 2 ^ 64 := by
    simp only [built, List.length_append, List.length_cons, List.length_nil, P.sha256_length,
      bigEndian_length, List.length_replicate, hid]
    omega
  have open' : (Plugin.prompted prompt (Plugin.called s)).isVaultOpen = true := hopen
  have frame := (frame_addEntry (recordToEntry P s.culture
    (makeCredentialRecord out req algId pkcs8 coseKey))
      (Plugin.prompted prompt (Plugin.called s))).trans _ _ _ (frame_saved _)
  refine ⟨uv, cborBytes, req, algId, pkcs8, coseKey, ⟨prompt, hgates⟩, hreq, halg, hfresh,
    frame.isVaultOpen.trans hopen, frame.culture, ?_,
    attestedData_sized P req.rpId coseKey uv (by omega), ?_, by rw [split]⟩
  · rw [saved_entries, entries_addEntry _ open']
    rfl
  · rw [split, buildAttestationObject_eq]
    exact decode_encode_exact (encodable_attestationObject hdataLen)

end KeePassKeyWin.RegistrationAgreement
