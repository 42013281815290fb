import KeePassKeyWin.CountingThreads
import KeePassKeyWin.VaultRuns

set_option autoImplicit false

/-!
# What requests do to the file

A request leaves the records of the file as they were, or makes them those of the database. Only
a deletion takes an id out of the database.
-/
namespace KeePassKeyWin.VaultFile
open ByteStrings JsonRpc OutcomeRules PlatformServices FirstMatch CredentialEncodings PasskeyStore
open VaultGates CtapRequests VaultHandler VaultOutcomes VaultRuns CountingThreads

def Has (entries : List PwEntry) (id : Bytes) : Prop :=
  some (Base64Url.encode id) ∈ entries.map PwEntry.credentialId

/-- The file is as it was, or holds the records that the database holds. -/
def Stored (s t : Plugin) : Prop := t.file = s.file ∨ Plugin.fileEntries t = t.entries

section
variable {P : Platform} {out : Outside} {params : Option JToken} {s t : Plugin}

theorem stored_save (hopen : t.isVaultOpen = true) (same : t.file = s.file) :
    Stored s (final (save out t)) := by
  obtain ⟨db, hdb, dbOpen⟩ := open_database hopen
  rcases save_final out t with h | h
  · rw [h]
    exact .inl same
  · rw [h]
    exact .inr ((fileEntries_saved hdb dbOpen).trans (saved_entries t).symm)

theorem stored_save_bind {α : Type} (a : α) (hopen : t.isVaultOpen = true)
    (same : t.file = s.file) : Stored s (final ((save out >>= fun _ => pure a) t)) :=
  final_bind_keeps (stored_save hopen same) fun _ _ h => h

theorem stored_add (hopen : s.isVaultOpen = true) (record : PasskeyRecord) :
    Stored s (final (add P out record s)) := by
  obtain ⟨db, hdb, _⟩ := open_database hopen
  have open' := (frame_addEntry (recordToEntry P s.culture record) s).isVaultOpen.trans hopen
  rw [add_eq, hdb]
  exact stored_save open' rfl

theorem stored_delete (hopen : s.isVaultOpen = true) (credentialId : String) :
    Stored s (final (delete out credentialId s)) := by
  have open' := (frame_mapEntries (List.eraseP (hasId credentialId)) s).isVaultOpen.trans hopen
  rw [delete_eq]
  split_ifs
  · exact stored_save_bind true open' rfl
  · exact .inl rfl

theorem stored_incrementSignCount (hopen : s.isVaultOpen = true) (credentialId : String) :
    Stored s (final (incrementSignCount out credentialId s)) := by
  cases h : nextSignCount credentialId s with
  | error e =>
    rw [incrementSignCount_of_error h]
    exact .inl rfl
  | ok n =>
    have open' := (frame_mapEntries (modifyFirst (hasId credentialId) (PwEntry.setSignCount n))
      s).isVaultOpen.trans hopen
    rw [incrementSignCount_of_next h]
    exact stored_save_bind n open' rfl

theorem Stored.signed (h : Stored s t) (pkcs8 : Bytes) : Stored s (Plugin.signed pkcs8 t) := h

theorem Stored.signWithAlgorithm (h : Stored s t) (pkcs8 data : Bytes) (algId : ℤ) :
    Stored s (final (signWithAlgorithm P out pkcs8 data algId t)) := by
  unfold VaultHandler.signWithAlgorithm
  by_cases halg : algId = -7 ∨ algId = -257
  · simp only [halg, if_true, modify_bind]
    cases signatureOf P out.entropy pkcs8 data algId <;> exact h.signed pkcs8
  · simp only [halg, if_false, get_bind, throw_apply]
    exact h

theorem stored_createPasskey (hopen : s.isVaultOpen = true) :
    Stored s (final (createPasskey P out params s)) := by
  refine final_lift_bind (.inl rfl) fun obj _ => ?_
  refine final_lift_bind (.inl rfl) fun rpId _ => ?_
  refine final_lift_bind (.inl rfl) fun rpName _ => ?_
  refine final_lift_bind (.inl rfl) fun userHandle _ => ?_
  refine final_lift_bind (.inl rfl) fun userName _ => ?_
  refine final_lift_bind (.inl rfl) fun userDisplayName _ => ?_
  rw [get_bind]
  refine final_lift_bind (.inl rfl) fun key _ => ?_
  refine final_lift_bind (.inl rfl) fun authData _ => ?_
  exact final_bind_keeps (stored_add hopen _) fun _ _ h => h

theorem stored_handleMakeCredentialRaw (hopen : s.isVaultOpen = true) :
    Stored s (final (handleMakeCredentialRaw P out params s)) := by
  refine final_receiveRaw (.inl rfl) fun _ => ?_
  refine final_lift_bind (.inl rfl) fun req _ => ?_
  rw [get_bind]
  refine final_lift_bind (.inl rfl) fun _ _ => ?_
  refine final_lift_bind (.inl rfl) fun alg _ => ?_
  refine final_lift_bind (.inl rfl) fun key _ => ?_
  refine final_lift_bind (.inl rfl) fun authData _ => ?_
  have open' : (Plugin.prompted (gatesPrompt P out makeMethod params s) s).isVaultOpen = true :=
    hopen
  exact final_bind_keeps (stored_add open' _) fun _ _ h => h

theorem stored_handleGetAssertionRaw (hopen : s.isVaultOpen = true) :
    Stored s (final (handleGetAssertionRaw P out params s)) := by
  refine final_receiveRaw (.inl rfl) fun received => ?_
  refine final_lift_bind (.inl rfl) fun req _ => ?_
  simp only [ite_run, throw_bind, get_bind]
  split_ifs
  · exact .inl rfl
  refine final_lift_bind (.inl rfl) fun selected _ => ?_
  have open' : (Plugin.prompted (gatesPrompt P out getMethod params s) s).isVaultOpen = true :=
    hopen
  refine final_bind_keeps (Q := Stored s) (stored_incrementSignCount open' _) fun n t h => ?_
  refine final_lift_bind h fun pkcs8 _ => ?_
  refine final_bind_keeps (h.signWithAlgorithm _ _ _) fun signature u h => ?_
  refine final_lift_bind h fun rawId _ => ?_
  exact final_lift_bind h fun response _ => h

theorem stored_listCredentials : Stored s (final (listCredentials P params s)) := by
  refine final_lift_bind (.inl rfl) fun obj _ => ?_
  exact final_lift_bind (.inl rfl) fun rpId _ => .inl rfl

theorem stored_signAssertion : Stored s (final (signAssertion P out params s)) := by
  refine final_lift_bind (.inl rfl) fun obj _ => ?_
  refine final_lift_bind (.inl rfl) fun credentialId _ => ?_
  refine final_lift_bind (.inl rfl) fun authData _ => ?_
  refine final_lift_bind (.inl rfl) fun hash _ => ?_
  rw [get_bind]
  cases s.findById P credentialId with
  | none => exact .inl rfl
  | some record =>
    refine final_lift_bind (.inl rfl) fun authDataBytes _ => ?_
    refine final_lift_bind (.inl rfl) fun clientDataHash _ => ?_
    refine final_lift_bind (.inl rfl) fun pkcs8 _ => ?_
    have same : Stored s s := .inl rfl
    exact final_bind_keeps (same.signWithAlgorithm _ _ _) fun signature t h => h

theorem stored_deleteCredential (hopen : s.isVaultOpen = true) :
    Stored s (final (deleteCredential out params s)) := by
  refine final_lift_bind (.inl rfl) fun obj _ => ?_
  refine final_lift_bind (.inl rfl) fun credentialId _ => ?_
  exact final_bind_keeps (stored_delete hopen credentialId) fun deleted t h => h

end

theorem handle_stored (P : Platform) (out : Outside) (method : String) (params : Option JToken)
    (s : Plugin) : Stored s (final (handle P out method params s)) := by
  cases hopen : s.isVaultOpen with
  | false =>
    rw [handle_of_closed hopen]
    exact .inl rfl
  | true =>
    have open' : (Plugin.called s).isVaultOpen = true := hopen
    have same : ∀ {t : Plugin}, Stored (Plugin.called s) t → Stored s t := fun h => h
    rw [handle_of_open hopen]
    refine same ?_
    unfold dispatchMethod
    split_ifs
    · exact stored_createPasskey open'
    · exact stored_listCredentials
    · exact stored_signAssertion
    · exact stored_deleteCredential open'
    · exact .inl rfl
    · exact stored_handleMakeCredentialRaw open'
    · exact stored_handleGetAssertionRaw open'
    · exact .inl rfl

section
variable {P : Platform} {out : Outside} {method : String} {params : Option JToken} {s : Plugin}
variable {entries : List PwEntry} {id : Bytes}

theorem has_of_effect (effect : Effect P out method params s entries) (h : Has entries id) :
    Has s.entries id ∨ id = out.credentialId := by
  cases effect with
  | unchanged => exact .inl h
  | added record fresh =>
    rw [Has, List.map_append] at h
    rcases List.mem_append.mp h with old | new
    · exact .inl old
    · right
      have same : Base64Url.encode id = record.credentialId := by
        simpa [PwEntry.credentialId, recordToEntry] using new
      exact Base64Url.encode_injective P (same.trans fresh)
  | deleted credentialId asked => exact .inl ((List.eraseP_sublist.map _).subset h)
  | counted credentialId next bounded =>
    left
    rwa [Has, map_modifyFirst (f := PwEntry.setSignCount next) (fun _ => rfl)] at h

theorem has_effect (effect : Effect P out method params s entries)
    (other : method ≠ "keepasskeywin.deleteCredential") (h : Has s.entries id) : Has entries id := by
  cases effect with
  | unchanged => exact h
  | added record fresh =>
    rw [Has, List.map_append]
    exact List.mem_append_left _ h
  | deleted credentialId asked => exact absurd asked.1 other
  | counted credentialId next bounded =>
    rwa [Has, map_modifyFirst (f := PwEntry.setSignCount next) (fun _ => rfl)]

end

theorem has_saved {s : Plugin} (hopen : s.isVaultOpen = true) {e : PwEntry} {id : Bytes}
    (own : e.credentialId = some (Base64Url.encode id)) :
    Has (Plugin.fileEntries (s.addEntry e).saved) id := by
  obtain ⟨db, hdb, dbOpen⟩ := open_database ((frame_addEntry e s).isVaultOpen.trans hopen)
  rw [Has, fileEntries_saved hdb dbOpen, entries_addEntry e hopen, List.map_append]
  exact List.mem_append_right _ (List.mem_singleton.mpr own.symm)

theorem handle_has {P : Platform} {out : Outside} {method : String} {params : Option JToken}
    {s : Plugin} {id : Bytes} (h : Has (final (handle P out method params s)).entries id) :
    Has s.entries id ∨ id = out.credentialId :=
  has_of_effect (s := Plugin.prompted (promptAfter P out method params s) (Plugin.called s))
    (handle_ran P out method params s).effect h

theorem has_handle {P : Platform} {out : Outside} {method : String} {params : Option JToken}
    {s : Plugin} {id : Bytes} (other : method ≠ "keepasskeywin.deleteCredential")
    (h : Has s.entries id) : Has (final (handle P out method params s)).entries id :=
  has_effect (s := Plugin.prompted (promptAfter P out method params s) (Plugin.called s))
    (handle_ran P out method params s).effect other h

end KeePassKeyWin.VaultFile
