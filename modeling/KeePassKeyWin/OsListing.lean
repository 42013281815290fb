import KeePassKeyWin.Reconcile

set_option autoImplicit false

/-!
# Where the list of Windows comes from

A registration publishes what the plugin answers and the task what it has read, each through
JSON of its own. Either way Windows is told what one record of the vault says.
-/
namespace KeePassKeyWin.OsListing
open ByteStrings JsonRpc OutcomeRules PlatformServices CredentialEncodings PasskeyStore
open CtapRequests VaultHandler VaultOutcomes VaultRuns TransitionRuns SidecarServices
open SidecarResults VaultWellFormedness Reconcile

def described (B : SidecarBase64) (r : PasskeyRecord) : Option AddCredentialsFields := do
  let credentialId ← B.urlSafeNoPad r.credentialId
  let userHandle ← B.urlSafeNoPad r.userHandle
  return {
    credentialId
    userHandle
    rpIdW := encodeUtf16Nul r.rpId
    rpNameW := encodeUtf16Nul r.rpName
    userNameW := encodeUtf16Nul r.userName
    userDispW := encodeUtf16Nul r.userDisplayName }

structure Names (v : JToken) (r : PasskeyRecord) : Prop where
  credentialId : index v "credentialIdB64Url" = .str r.credentialId
  rpId : index v "rpId" = .str r.rpId
  rpName : index v "rpName" = .str r.rpName
  userHandle : index v "userHandleB64Url" = .str r.userHandle
  userName : index v "userName" = .str r.userName
  userDisplayName : index v "userDisplayName" = .str r.userDisplayName

theorem parse_names (B : SidecarBase64) {v : JToken} {r : PasskeyRecord} (h : Names v r) :
    (parseAddCredentialsFields B v).toOption = described B r := by
  unfold parseAddCredentialsFields described
  rw [h.credentialId, h.rpId, h.rpName, h.userHandle, h.userName, h.userDisplayName]
  simp only [asStr, okOr, bind, Except.bind, Option.bind]
  cases B.urlSafeNoPad r.credentialId with
  | none => rfl
  | some credentialId =>
    cases B.urlSafeNoPad r.userHandle with
    | none => rfl
    | some userHandle => rfl

theorem names_enumerated (r : PasskeyRecord) : Names (translated (enumerated r)) r :=
  ⟨rfl, rfl, rfl, rfl, rfl, rfl⟩

theorem names_made (r : PasskeyRecord) (bytes : Bytes) : Names (makeCredentialResult r bytes) r :=
  ⟨rfl, rfl, rfl, rfl, rfl, rfl⟩

theorem vaultId_enumerated (B : SidecarBase64) (r : PasskeyRecord) :
    vaultId B (enumerated r) = B.urlSafeNoPad r.credentialId := rfl

section
variable {P : Platform} {B : SidecarBase64}

theorem described_of_missing {osIds : List Bytes} {r : PasskeyRecord}
    {fields : AddCredentialsFields} (new : missing B osIds (enumerated r) = some fields) :
    described B r = some fields := by
  unfold missing at new
  split at new
  · split_ifs at new
    rw [← parse_names B (names_enumerated r)]
    exact new
  · cases new

theorem described_across (written read : NumberFormat.NumberFormatInfo) (r : PasskeyRecord) :
    described B (entryToRecord P read (recordToEntry P written r)) = described B r := by
  rw [entryToRecord_across]
  rfl

theorem described_of_made {out : Outside} {params : Option JToken} {s s' : Plugin}
    {result : JToken} (h : handle P out makeMethod params s = .ok result s') :
    ∃ r ∈ s'.getAll P, ∀ fields, published B .makeCredential result = some fields →
      described B r = some fields := by
  have hopen := handle_ok_open h
  rw [handle_of_open hopen, dispatchMethod_make] at h
  obtain ⟨_, _, prompt, req, algId, pkcs8, coseKey, _, _, _, _, _, _, _, rfl, rfl⟩ :=
    handleMakeCredentialRaw_ok h
  set record := makeCredentialRecord out req algId pkcs8 coseKey
  set before := Plugin.prompted prompt (Plugin.called s)
  have isOpen : before.isVaultOpen = true := hopen
  refine ⟨entryToRecord P (before.addEntry (recordToEntry P before.culture record)).saved.culture
    (recordToEntry P before.culture record), ?_, fun fields new => ?_⟩
  · refine List.mem_map_of_mem ?_
    rw [saved_entries, entries_addEntry _ isOpen]
    exact List.mem_append_right _ (List.mem_singleton_self _)
  · rw [described_across, ← parse_names B (names_made record _)]
    unfold published at new
    split_ifs at new
    exact new

end

/-- The items that the task may still publish. -/
def items : Task → List JToken
  | .answered (.array vault) | .enumerated vault => vault
  | .adding _ _ rest => rest
  | _ => []

/-- The response that may still be published. -/
def response : Dispatch → Option (Operation × JToken)
  | .answered operation result | .publishing operation result => some (operation, result)
  | _ => none

/-- What Windows lists or may yet be told was listed at the start or describes a record that was
once in the vault. -/
structure Traced (P : Platform) (B : SidecarBase64) (listed : List AddCredentialsFields)
    (once : PasskeyRecord → Prop) (s : World) : Prop where
  items : ∀ item ∈ items s.task, ∃ r, once r ∧ item = enumerated r
  response : ∀ operation result, response s.dispatch = some (operation, result) →
    ∀ fields, published B operation result = some fields →
      ∃ r, once r ∧ described B r = some fields
  os : ∀ fields ∈ s.os, fields ∈ listed ∨ ∃ r, once r ∧ described B r = some fields

section
variable {P : Platform} {B : SidecarBase64} {listed : List AddCredentialsFields}
  {once once' : PasskeyRecord → Prop} {s t : World}

theorem Traced.mono (h : Traced P B listed once s) (wider : ∀ r, once r → once' r) :
    Traced P B listed once' s where
  items item mem := (h.items item mem).imp fun r hr => ⟨wider r hr.1, hr.2⟩
  response operation result held fields new :=
    (h.response operation result held fields new).imp fun r hr => ⟨wider r hr.1, hr.2⟩
  os fields mem := (h.os fields mem).imp_right fun ⟨r, hr⟩ => ⟨r, wider r hr.1, hr.2⟩

theorem Traced.of_subset (h : Traced P B listed once s) (plugin : Plugin) (pipe : Bool)
    {dispatch : Dispatch} {task : Task} (sub : OsListing.items task ⊆ OsListing.items s.task)
    (held : OsListing.response dispatch = none ∨
      OsListing.response dispatch = OsListing.response s.dispatch) :
    Traced P B listed once ⟨plugin, pipe, s.os, dispatch, task⟩ where
  items item mem := h.items item (sub mem)
  response operation result hr := by
    obtain none | same := held
    · rw [none] at hr
      cases hr
    · exact h.response operation result (same ▸ hr)
  os := h.os

theorem mem_addCredentials {ffi : Ffi} {fields new : AddCredentialsFields}
    {os : List AddCredentialsFields} (mem : fields ∈ addCredentials ffi new os) :
    fields ∈ os ∨ fields = new := by
  unfold addCredentials at mem
  split_ifs at mem
  · exact (List.mem_append.mp mem).imp_right List.mem_singleton.mp
  · exact .inl mem

theorem mem_of_removed {ffi : Ffi} {id : Bytes} {fields : AddCredentialsFields}
    {os : List AddCredentialsFields} (mem : fields ∈ removeCredentials ffi id os) : fields ∈ os := by
  unfold removeCredentials at mem
  split_ifs at mem
  · exact List.mem_of_mem_filter mem
  · exact mem

theorem traced_serve (h : Traced P B listed once s) {out : Outside} {params : Option JToken}
    {lost : Bool} (hs : step P B s (.serve out params lost) t) :
    Traced P B listed (fun r => once r ∨ r ∈ t.plugin.getAll P) t := by
  simp only [step, perform] at hs
  split at hs
  · rename_i operation calling
    split at hs
    · obtain rfl := Option.some.inj hs
      exact (h.of_subset _ _ (List.Subset.refl _) (.inr rfl)).mono fun r hr => .inl hr
    · rename_i result plugin answered
      obtain rfl := Option.some.inj hs
      have kept : Traced P B listed once _ := h.of_subset
        (final (handle P out operation.method params s.plugin)) s.pipe (List.Subset.refl _)
        (.inl (show OsListing.response .idle = none from rfl))
      refine ⟨(kept.mono fun r hr => .inl hr).items, ?_, (kept.mono fun r hr => .inl hr).os⟩
      intro operation' result' held fields new
      obtain ⟨rfl, rfl⟩ := Prod.mk.inj (Option.some.inj held)
      cases operation with
      | getAssertion => simp [published] at new
      | makeCredential =>
        obtain ⟨r, mem, describes⟩ := described_of_made (B := B) answered
        refine ⟨r, .inr ?_, describes fields new⟩
        rw [answered]
        exact mem
    · obtain rfl := Option.some.inj hs
      exact (h.of_subset _ _ (List.Subset.refl _) (.inl rfl)).mono fun r hr => .inl hr
  · cases hs

theorem traced_publish (h : Traced P B listed once s) {ffi : Ffi}
    (hs : step P B s (.publish ffi) t) : Traced P B listed once t := by
  simp only [step, perform] at hs
  split at hs
  · rename_i operation result publishing
    obtain rfl := Option.some.inj hs
    refine ⟨h.items, fun _ _ held => absurd held (by simp [OsListing.response]), fun fields mem => ?_⟩
    split at mem
    · rename_i new hnew
      obtain old | rfl := mem_addCredentials mem
      · exact h.os fields old
      · exact .inr (h.response operation result (by rw [publishing]; rfl) fields hnew)
    · exact h.os fields mem
  · cases hs

theorem traced_addNext (h : Traced P B listed once s) {ffi : Ffi}
    (hs : step P B s (.addNext ffi) t) : Traced P B listed once t := by
  simp only [step, perform] at hs
  split at hs
  · obtain rfl := Option.some.inj hs
    exact ⟨List.forall_mem_nil _, h.response, h.os⟩
  · rename_i vault osIds item rest adding
    have read := h.items
    rw [adding] at read
    have later : ∀ item ∈ rest, ∃ r, once r ∧ item = enumerated r :=
      fun item mem => read item (List.mem_cons_of_mem _ mem)
    split at hs
    · obtain rfl := Option.some.inj hs
      exact ⟨later, h.response, h.os⟩
    · rename_i fields new
      obtain rfl := Option.some.inj hs
      refine ⟨?_, h.response, fun added mem => ?_⟩
      · dsimp only
        split_ifs
        · exact List.forall_mem_nil _
        · exact later
      · obtain old | rfl := mem_addCredentials mem
        · exact h.os added old
        · obtain ⟨r, hr, rfl⟩ := read item (List.mem_cons_self ..)
          exact .inr ⟨r, hr, described_of_missing new⟩
  · cases hs

theorem traced_removeNext (h : Traced P B listed once s) {ffi : Ffi}
    (hs : step P B s (.removeNext ffi) t) : Traced P B listed once t := by
  simp only [step, perform] at hs
  split at hs
  · obtain rfl := Option.some.inj hs
    exact ⟨List.forall_mem_nil _, h.response, h.os⟩
  · split_ifs at hs
    · obtain rfl := Option.some.inj hs
      exact ⟨List.forall_mem_nil _, h.response, h.os⟩
    all_goals
      obtain rfl := Option.some.inj hs
      exact ⟨List.forall_mem_nil _, h.response, fun fields mem => h.os fields (mem_of_removed mem)⟩
  · cases hs

theorem traced_read (h : Traced P B listed once s) (hs : step P B s .read t) :
    Traced P B listed (fun r => once r ∨ r ∈ t.plugin.getAll P) t := by
  simp only [step, perform] at hs
  split at hs
  · split at hs
    · rename_i result plugin run
      obtain rfl := Option.some.inj hs
      obtain ⟨rfl, rfl⟩ := pure_ok.mp run
      refine ⟨fun item mem => ?_, (h.mono fun r hr => .inl hr).response,
        (h.mono fun r hr => .inl hr).os⟩
      obtain ⟨r, read, rfl⟩ := List.mem_map.mp mem
      exact ⟨r, .inr read, rfl⟩
    · obtain rfl := Option.some.inj hs
      exact (h.of_subset _ _ (List.nil_subset _) (.inr rfl)).mono fun r hr => .inl hr
  · cases hs

theorem traced_step (h : Traced P B listed once s) {act : Act} (hs : step P B s act t) :
    Traced P B listed (fun r => once r ∨ r ∈ t.plugin.getAll P) t := by
  have widen {u : World} (hu : Traced P B listed once u) :
      Traced P B listed (fun r => once r ∨ r ∈ u.plugin.getAll P) u := hu.mono fun r hr => .inl hr
  cases act with
  | serve out params lost => exact traced_serve h hs
  | publish ffi => exact widen (traced_publish h hs)
  | read => exact traced_read h hs
  | addNext ffi => exact widen (traced_addNext h hs)
  | removeNext ffi => exact widen (traced_removeNext h hs)
  | close =>
    obtain rfl := Option.some.inj hs
    exact widen (h.of_subset _ _ (List.Subset.refl _) (.inr rfl))
  | reopen | save =>
    simp only [step, perform] at hs
    split_ifs at hs
    obtain rfl := Option.some.inj hs
    exact widen (h.of_subset _ _ (List.Subset.refl _) (.inr rfl))
  | activate =>
    simp only [step, perform] at hs
    split at hs
    · obtain rfl := Option.some.inj hs
      exact widen (h.of_subset _ _ (List.nil_subset _) (.inr rfl))
    · cases hs
  | dispatch operation =>
    simp only [step, perform] at hs
    split at hs
    · obtain rfl := Option.some.inj hs
      exact widen (h.of_subset _ _ (List.Subset.refl _) (.inl rfl))
    · obtain rfl := Option.some.inj hs
      exact widen h
    · cases hs
  | callFails pipe =>
    simp only [step, perform] at hs
    split at hs
    · obtain rfl := Option.some.inj hs
      exact widen (h.of_subset _ _ (List.Subset.refl _) (.inl rfl))
    · cases hs
  | returned =>
    simp only [step, perform] at hs
    split at hs
    · rename_i operation result answered
      obtain rfl := Option.some.inj hs
      exact widen (h.of_subset _ _ (List.Subset.refl _) (.inr (by rw [answered]; rfl)))
    · cases hs
  | take =>
    simp only [step, perform] at hs
    split at hs <;> first
      | (obtain rfl := Option.some.inj hs
         exact widen (h.of_subset _ _ (List.nil_subset _) (.inr rfl)))
      | cases hs
  | check =>
    simp only [step, perform] at hs
    split at hs
    · split at hs <;>
        (obtain rfl := Option.some.inj hs
         exact widen (h.of_subset _ _ (List.nil_subset _) (.inr rfl)))
    · cases hs
  | taskCallFails =>
    simp only [step, perform] at hs
    split at hs <;> first
      | (obtain rfl := Option.some.inj hs
         exact widen (h.of_subset _ _ (List.nil_subset _) (.inr rfl)))
      | cases hs
  | putBack =>
    simp only [step, perform] at hs
    split at hs
    · rename_i vault answered
      obtain rfl := Option.some.inj hs
      exact widen (h.of_subset _ _ (by rw [answered]; exact List.Subset.refl _) (.inr rfl))
    · obtain rfl := Option.some.inj hs
      exact widen (h.of_subset _ _ (List.nil_subset _) (.inr rfl))
    · cases hs
  | list ffi =>
    simp only [step, perform] at hs
    split at hs
    · rename_i vault known
      obtain rfl := Option.some.inj hs
      refine widen (h.of_subset _ _ ?_ (.inr rfl))
      rw [known]
      split_ifs
      · exact List.Subset.refl _
      · exact List.nil_subset _
    · cases hs

end

def OnceInVault (P : Platform) (B : SidecarBase64) (s : World) (acts : List Act) (t : World)
    (r : PasskeyRecord) : Prop :=
  ∃ before after u, acts = before ++ after ∧ Run (step P B) s before u ∧
    Run (step P B) u after t ∧ r ∈ u.plugin.getAll P

section
variable {P : Platform} {B : SidecarBase64} {listed : List AddCredentialsFields}
  {once : PasskeyRecord → Prop} {s t u : World} {acts : List Act} {act : Act} {r : PasskeyRecord}

theorem OnceInVault.cons (head : step P B s act u) (h : OnceInVault P B u acts t r) :
    OnceInVault P B s (act :: acts) t r := by
  obtain ⟨before, after, v, rfl, first, second, mem⟩ := h
  exact ⟨act :: before, after, v, rfl, .cons head first, second, mem⟩

theorem traced_run (run : Run (step P B) s acts t) (h : Traced P B listed once s) :
    Traced P B listed (fun r => once r ∨ OnceInVault P B s acts t r) t := by
  induction run generalizing once with
  | nil s => exact h.mono fun r hr => .inl hr
  | @cons s u t act acts head tail ih =>
    refine (ih (traced_step h head)).mono fun r hr => ?_
    obtain (old | here) | later := hr
    · exact .inl old
    · exact .inr ⟨[act], acts, u, rfl, .single head, tail, here⟩
    · exact .inr (later.cons head)

end

/-- However the task, the dispatches and the user come between each other, and whatever Windows
and the pipe refuse: an entry of the list of Windows was there at the start, or it describes, text
for text, a record that the vault had at some point. -/
theorem os_entry_from_vault (P : Platform) (B : SidecarBase64) (plugin : Plugin)
    (os : List AddCredentialsFields) (acts : List Act) (t : World)
    (run : Run (step P B) (World.start plugin os) acts t) (fields : AddCredentialsFields)
    (listed : fields ∈ t.os) :
    fields ∈ os ∨ ∃ r, OnceInVault P B (World.start plugin os) acts t r ∧
      described B r = some fields := by
  have start : Traced P B os (fun _ => False) (World.start plugin os) :=
    ⟨List.forall_mem_nil _, fun _ _ held => absurd held (by simp [World.start, response]),
      fun _ mem => .inl mem⟩
  refine ((traced_run run start).os fields listed).imp_right ?_
  rintro ⟨r, none | once, describes⟩
  · exact none.elim
  · exact ⟨r, once, describes⟩

namespace Sample

def untilAdding : List Act := [.activate, .take, .check, .read, .putBack, .list .done]

def record : PasskeyRecord := entryToRecord (VaultOutcomes.Sample.platform [])
  Reconcile.Sample.vault.culture (VaultOutcomes.Sample.entry "example.com")

def adding : World where
  plugin := Plugin.called Reconcile.Sample.vault
  pipe := true
  os := []
  dispatch := .idle
  task := .adding [enumerated record] [] [enumerated record]

def added : World := { adding with
  os := [Reconcile.Sample.fields VaultOutcomes.Sample.credentialId]
  task := .adding [enumerated record] [] [] }

theorem described_record : described Reconcile.Sample.base64 record =
    some (Reconcile.Sample.fields VaultOutcomes.Sample.credentialId) := by
  have decoded : Reconcile.Sample.base64.urlSafeNoPad
      (VaultOutcomes.Sample.record "example.com").credentialId =
        some VaultOutcomes.Sample.credentialId :=
    Reconcile.Sample.base64.urlSafeNoPad_iff.mpr rfl
  have handle : Reconcile.Sample.base64.urlSafeNoPad
      (VaultOutcomes.Sample.record "example.com").userHandle = some [1, 2, 3, 4] :=
    Reconcile.Sample.base64.urlSafeNoPad_iff.mpr (by decide)
  rw [record, VaultOutcomes.Sample.entry, described_across, described, decoded, handle]
  rfl

theorem run_added : Run (step (VaultOutcomes.Sample.platform []) Reconcile.Sample.base64)
    (World.start Reconcile.Sample.vault []) (untilAdding ++ [.addNext .done]) added := by
  have first : Run (step (VaultOutcomes.Sample.platform []) Reconcile.Sample.base64)
      (World.start Reconcile.Sample.vault []) untilAdding adding := run_foldlM rfl
  have text : record.credentialId = Base64Url.encode VaultOutcomes.Sample.credentialId := by
    rw [record, VaultOutcomes.Sample.entry, entryToRecord_across]
    rfl
  have decoded : vaultId Reconcile.Sample.base64 (enumerated record) =
      some VaultOutcomes.Sample.credentialId :=
    (vaultId_enumerated _ record).trans (Reconcile.Sample.base64.urlSafeNoPad_iff.mpr text)
  have new : missing Reconcile.Sample.base64 [] (enumerated record) =
      some (Reconcile.Sample.fields VaultOutcomes.Sample.credentialId) := by
    rw [missing, decoded, ← described_record, ← parse_names _ (names_enumerated record)]
    rfl
  refine first.append (.single ?_)
  simp [step, perform, adding, added, new, addCredentials]

end Sample

/-- The task has published the one credential of the vault. -/
theorem os_entry_from_vault_sample :
    Reconcile.Sample.fields VaultOutcomes.Sample.credentialId ∈ ([] : List AddCredentialsFields) ∨
      ∃ r, OnceInVault (VaultOutcomes.Sample.platform []) Reconcile.Sample.base64
          (World.start Reconcile.Sample.vault []) (Sample.untilAdding ++ [.addNext .done])
          Sample.added r ∧
        described Reconcile.Sample.base64 r =
          some (Reconcile.Sample.fields VaultOutcomes.Sample.credentialId) :=
  os_entry_from_vault _ _ _ _ _ _ Sample.run_added _ (List.mem_singleton_self _)

end KeePassKeyWin.OsListing
