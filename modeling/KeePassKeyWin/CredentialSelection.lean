import KeePassKeyWin.VaultHandler

set_option autoImplicit false

/-!
# The records of a vault and the one that signs

Well-formed vaults, which entry `selectCredential` takes, and what counting it does to
the records.
-/
namespace KeePassKeyWin.CredentialSelection
open ByteStrings JsonRpc PlatformServices FirstMatch CredentialEncodings PasskeyStore
open CtapRequests VaultHandler

/-- Every entry has an id of its own, and no text outgrows a .NET string. -/
structure WellFormed (s : Plugin) : Prop where
  identified : ∀ e ∈ s.entries, e.credentialId ≠ none
  distinct : (s.entries.map PwEntry.credentialId).Nodup
  sized : ∀ e ∈ s.entries, ∀ key text, e.strings.lookup key = some text → (utf8 text).length < 2 ^ 33

variable {P : Platform} {s : Plugin} {e : PwEntry} {id : String}

theorem hasId_iff : hasId id e = true ↔ e.credentialId = some id := by
  simp [hasId]

theorem hasRpId_iff {rpId : String} : hasRpId rpId e = true ↔ e.strings.lookup keyRpId = some rpId := by
  simp [hasRpId]

theorem find?_of_mem {xs : List PwEntry} (distinct : (xs.map PwEntry.credentialId).Nodup)
    (he : e ∈ xs) (hid : e.credentialId = some id) : xs.find? (hasId id) = some e := by
  induction xs with
  | nil => simp at he
  | cons x xs ih =>
    simp only [List.map_cons, List.nodup_cons] at distinct
    rcases List.mem_cons.mp he with rfl | he
    · simp [hasId_iff.mpr hid]
    · have other : ¬ hasId id x = true := by
        rw [hasId_iff, ← hid]
        intro hx
        exact distinct.1 (hx ▸ List.mem_map_of_mem he)
      simp [other, ih distinct.2 he]

theorem entryToRecord_credentialId (hid : e.credentialId = some id) :
    (entryToRecord P s.culture e).credentialId = id := by
  simp [entryToRecord, hid]

theorem WellFormed.find? (wf : WellFormed s) (he : e ∈ s.entries) :
    e.credentialId = some (entryToRecord P s.culture e).credentialId ∧
      s.entries.find? (hasId (entryToRecord P s.culture e).credentialId) = some e := by
  cases hid : e.credentialId with
  | none => exact absurd hid (wf.identified e he)
  | some id =>
    rw [entryToRecord_credentialId hid]
    exact ⟨rfl, find?_of_mem wf.distinct he hid⟩

theorem findByRpId_head {rpId : String} :
    (s.findByRpId P rpId).head? =
      (s.entries.find? (hasRpId rpId)).map (entryToRecord P s.culture) := by
  rw [Plugin.findByRpId, List.head?_map, List.head?_filter]

/-- The entry that signs: the first of the relying party, or the first listed id that the
vault has. -/
def Selects (req : GetAssertionRequest) (s : Plugin) (e : PwEntry) : Prop :=
  (req.allowListCredIds = [] ∧ s.entries.find? (hasRpId req.rpId) = some e) ∨
    ∃ before rawId after, req.allowListCredIds = before ++ rawId :: after ∧
      (∀ other ∈ before, s.entries.find? (hasId (Base64Url.encode other)) = none) ∧
        s.entries.find? (hasId (Base64Url.encode rawId)) = some e

theorem selectCredential_ok {req : GetAssertionRequest} {selected : PasskeyRecord} :
    selectCredential P req s = .ok selected ↔
      ∃ e, Selects req s e ∧ selected = entryToRecord P s.culture e := by
  unfold selectCredential
  split_ifs with hlist
  · have head : (s.findByRpId P req.rpId).head? =
        (s.entries.find? (hasRpId req.rpId)).map (entryToRecord P s.culture) := findByRpId_head
    cases hfind : s.entries.find? (hasRpId req.rpId) with
    | none =>
      rw [hfind, Option.map_none, List.head?_eq_none_iff] at head
      simp [head, Selects, hlist, hfind]
    | some e =>
      rw [hfind, Option.map_some, List.head?_eq_some_iff] at head
      obtain ⟨rest, head⟩ := head
      simp [head, Selects, hlist, hfind, eq_comm]
  · cases hfind : req.allowListCredIds.findSome? fun rawId =>
        s.findById P (Base64Url.encode rawId) with
    | none =>
      simp only [reduceCtorEq, false_iff, not_exists, not_and]
      rintro e (⟨hnil, _⟩ | ⟨before, rawId, after, split, _, hit⟩)
      · exact absurd hnil hlist
      · have missed := List.findSome?_eq_none_iff.mp hfind rawId (by simp [split])
        simp [Plugin.findById, hit] at missed
    | some hit =>
      obtain ⟨before, rawId, after, split, found, missed⟩ := List.findSome?_eq_some_iff.mp hfind
      obtain ⟨e, he, rfl⟩ := Option.map_eq_some_iff.mp found
      have missed' : ∀ other ∈ before,
          s.entries.find? (hasId (Base64Url.encode other)) = none := by
        intro other ho
        simpa [Plugin.findById] using missed other ho
      simp only [Except.ok.injEq]
      constructor
      · rintro rfl
        exact ⟨e, .inr ⟨before, rawId, after, split, missed', he⟩, rfl⟩
      · rintro ⟨e', ⟨hnil, _⟩ | ⟨before', rawId', after', split', missed'', he'⟩, rfl⟩
        · exact absurd hnil hlist
        · have first : req.allowListCredIds.findSome? (fun rawId =>
              s.findById P (Base64Url.encode rawId)) = some (entryToRecord P s.culture e') := by
            refine List.findSome?_eq_some_iff.mpr ⟨before', rawId', after', split', ?_, ?_⟩
            · simp [Plugin.findById, he']
            · exact fun other ho => by simp [Plugin.findById, missed'' other ho]
          rw [hfind] at first
          exact Option.some.inj first

theorem Selects.mem {req : GetAssertionRequest} (h : Selects req s e) : e ∈ s.entries := by
  rcases h with ⟨_, h⟩ | ⟨_, _, _, _, _, h⟩
  · exact List.mem_of_find?_eq_some h
  · exact List.mem_of_find?_eq_some h

end KeePassKeyWin.CredentialSelection
