import KeePassKeyWin.PairedPrograms
import KeePassKeyWin.VaultRuns
import Mathlib.Data.List.Find

set_option autoImplicit false

/-!
# What one relying party learns of the others

Two vaults that have the same entries for one relying party, and any entries of others beside
them. Requests that are about this relying party and name no credential of another get the same
answers from both, and the entries of the others are left as they are.
-/
namespace KeePassKeyWin.RelyingPartyIsolation
open ByteStrings JsonRpc NumberFormat OutcomeRules PlatformServices CredentialEncodings
open PasskeyStore VaultGates CtapRequests VaultHandler VaultRuns FirstMatch PairedPrograms

def ownEntries (rpId : String) (s : Plugin) : List PwEntry := s.entries.filter (hasRpId rpId)

def otherEntries (rpId : String) (s : Plugin) : List PwEntry :=
  s.entries.filter fun e => !hasRpId rpId e

def Unclaimed (others : List PwEntry) (credentialId : String) : Prop :=
  ∀ e ∈ others, hasId credentialId e = false

def Names (params : Option JToken) (key text : String) : Prop :=
  ∃ obj, params = some (.object obj) ∧ stringField obj key = .ok (some text)

/-- Two open vaults with the same entries for the relying party, each with its own others. -/
structure Beside (rpId : String) (os ot : List PwEntry) (s t : Plugin) : Prop where
  leftOpen : s.isVaultOpen = true
  rightOpen : t.isVaultOpen = true
  own : ownEntries rpId s = ownEntries rpId t
  left : otherEntries rpId s = os
  right : otherEntries rpId t = ot
  apart : ∀ e ∈ ownEntries rpId s, Unclaimed (os ++ ot) (e.credentialId.getD "")
  opSignPubKey : s.opSignPubKey = t.opSignPubKey
  uvFallbackPrompt : s.uvFallbackPrompt = t.uvFallbackPrompt
  skipPluginSigVerify : s.skipPluginSigVerify = t.skipPluginSigVerify
  culture : s.culture = t.culture

theorem within_of_unclaimed {rpId credentialId : String} {s : Plugin}
    (unclaimed : Unclaimed (otherEntries rpId s) credentialId) :
    Within (hasRpId rpId) (hasId credentialId) s.entries := by
  intro e he found
  by_contra other
  have here : e ∈ otherEntries rpId s := List.mem_filter.mpr ⟨he, by simpa using other⟩
  exact Bool.false_ne_true ((unclaimed e here).symm.trans found)

section
variable {P : Platform} {rpId credentialId : String} {os ot : List PwEntry} {s t : Plugin}
variable (h : Beside rpId os ot s t)
include h

theorem Beside.withinLeft (unclaimed : Unclaimed (os ++ ot) credentialId) :
    Within (hasRpId rpId) (hasId credentialId) s.entries :=
  within_of_unclaimed fun e he => unclaimed e (List.mem_append_left _ (h.left ▸ he))

theorem Beside.withinRight (unclaimed : Unclaimed (os ++ ot) credentialId) :
    Within (hasRpId rpId) (hasId credentialId) t.entries :=
  within_of_unclaimed fun e he => unclaimed e (List.mem_append_right _ (h.right ▸ he))

theorem Beside.find? (unclaimed : Unclaimed (os ++ ot) credentialId) :
    s.entries.find? (hasId credentialId) = t.entries.find? (hasId credentialId) := by
  rw [(h.withinLeft unclaimed).find?, (h.withinRight unclaimed).find?]
  exact congrArg _ h.own

theorem Beside.any (unclaimed : Unclaimed (os ++ ot) credentialId) :
    s.entries.any (hasId credentialId) = t.entries.any (hasId credentialId) := by
  rw [(h.withinLeft unclaimed).any, (h.withinRight unclaimed).any]
  exact congrArg (List.any · _) h.own

theorem Beside.findById (unclaimed : Unclaimed (os ++ ot) credentialId) :
    s.findById P credentialId = t.findById P credentialId := by
  rw [Plugin.findById, Plugin.findById, h.find? unclaimed, h.culture]

theorem Beside.findByRpId : s.findByRpId P rpId = t.findByRpId P rpId := by
  rw [Plugin.findByRpId, Plugin.findByRpId, h.culture]
  exact congrArg (List.map _) h.own

theorem Beside.nextSignCount {e : PwEntry} (he : e ∈ ownEntries rpId s) :
    nextSignCount (e.credentialId.getD "") s = nextSignCount (e.credentialId.getD "") t := by
  have grouped {u : Plugin} (mem : e ∈ u.entries) : u.findPasskeysGroup.isNone = false := by
    cases group : u.findPasskeysGroup with
    | none => simp [Plugin.entries, group] at mem
    | some g => rfl
  have right : e ∈ ownEntries rpId t := h.own ▸ he
  rw [PasskeyStore.nextSignCount, PasskeyStore.nextSignCount, grouped (List.mem_filter.mp he).1,
    grouped (List.mem_filter.mp right).1, h.find? (h.apart e he)]

theorem Beside.selectCredential {req : GetAssertionRequest} (named : req.rpId = rpId)
    (listed : ∀ rawId ∈ req.allowListCredIds, Unclaimed (os ++ ot) (Base64Url.encode rawId)) :
    selectCredential P req s = selectCredential P req t ∧
      ∀ r, selectCredential P req s = .ok r →
        ∃ e ∈ ownEntries rpId s, r.credentialId = e.credentialId.getD "" := by
  have each : ∀ rawId ∈ req.allowListCredIds,
      s.findById P (Base64Url.encode rawId) = t.findById P (Base64Url.encode rawId) :=
    fun rawId here => h.findById (listed rawId here)
  unfold VaultHandler.selectCredential
  rw [named]
  split_ifs with every
  · refine ⟨by rw [h.findByRpId], fun r selected => ?_⟩
    cases found : s.findByRpId P rpId with
    | nil =>
      rw [found] at selected
      cases selected
    | cons first rest =>
      rw [found] at selected
      obtain rfl := Except.ok.inj selected
      have here : first ∈ s.findByRpId P rpId := found ▸ List.mem_cons_self
      obtain ⟨e, he, rfl⟩ := List.mem_map.mp here
      exact ⟨e, he, rfl⟩
  · refine ⟨by rw [findSome?_congr each], fun r selected => ?_⟩
    cases found : req.allowListCredIds.findSome? fun rawId =>
        s.findById P (Base64Url.encode rawId) with
    | none =>
      rw [found] at selected
      cases selected
    | some hit =>
      rw [found] at selected
      obtain rfl := Except.ok.inj selected
      obtain ⟨rawId, here, hit'⟩ := List.exists_of_findSome?_eq_some found
      obtain ⟨e, first, rfl⟩ := Option.map_eq_some_iff.mp hit'
      have member := List.mem_of_find?_eq_some first
      have own := h.withinLeft (listed rawId here) e member (List.find?_some first)
      exact ⟨e, List.mem_filter.mpr ⟨member, own⟩, rfl⟩

theorem Beside.mapEntries {q : PwEntry → Bool} {f : List PwEntry → List PwEntry}
    (nothing : f [] = [])
    (own : ∀ xs, Within (hasRpId rpId) q xs →
      (f xs).filter (hasRpId rpId) = f (xs.filter (hasRpId rpId)))
    (rest : ∀ xs, Within (hasRpId rpId) q xs →
      ((f xs).filter fun e => !hasRpId rpId e) = xs.filter fun e => !hasRpId rpId e)
    (ids : ∀ xs, ∀ e ∈ f xs, ∃ e' ∈ xs, e.credentialId = e'.credentialId)
    (left : Within (hasRpId rpId) q s.entries) (right : Within (hasRpId rpId) q t.entries) :
    Beside rpId os ot (s.mapEntries f) (t.mapEntries f) := by
  have changedLeft : ownEntries rpId (s.mapEntries f) = f (ownEntries rpId s) := by
    rw [ownEntries, entries_mapEntries nothing, own _ left]
    rfl
  have changedRight : ownEntries rpId (t.mapEntries f) = f (ownEntries rpId t) := by
    rw [ownEntries, entries_mapEntries nothing, own _ right]
    rfl
  exact
    { leftOpen := (isVaultOpen_mapGroups _ s).trans h.leftOpen
      rightOpen := (isVaultOpen_mapGroups _ t).trans h.rightOpen
      own := by rw [changedLeft, changedRight, h.own]
      left := by
        rw [otherEntries, entries_mapEntries nothing, rest _ left]
        exact h.left
      right := by
        rw [otherEntries, entries_mapEntries nothing, rest _ right]
        exact h.right
      apart := fun e he => by
        obtain ⟨e', old, same⟩ := ids _ e (changedLeft ▸ he)
        rw [same]
        exact h.apart e' old
      opSignPubKey := h.opSignPubKey
      uvFallbackPrompt := h.uvFallbackPrompt
      skipPluginSigVerify := h.skipPluginSigVerify
      culture := h.culture }

theorem Beside.addEntry {e : PwEntry} (own : hasRpId rpId e = true)
    (unclaimed : Unclaimed (os ++ ot) (e.credentialId.getD "")) :
    Beside rpId os ot (s.addEntry e) (t.addEntry e) := by
  have kept {u : Plugin} : (u.addEntry e).isVaultOpen = u.isVaultOpen := by
    rw [Plugin.addEntry, Plugin.mapEntries, isVaultOpen_mapGroups, isVaultOpen_mapGroups]
  have added {u : Plugin} (hopen : u.isVaultOpen = true) :
      ownEntries rpId (u.addEntry e) = ownEntries rpId u ++ [e] ∧
        otherEntries rpId (u.addEntry e) = otherEntries rpId u := by
    rw [ownEntries, otherEntries, entries_addEntry e hopen, List.filter_append, List.filter_append,
      List.filter_singleton, List.filter_singleton, own]
    exact ⟨rfl, List.append_nil _⟩
  exact
    { leftOpen := kept.trans h.leftOpen
      rightOpen := kept.trans h.rightOpen
      own := by rw [(added h.leftOpen).1, (added h.rightOpen).1, h.own]
      left := (added h.leftOpen).2.trans h.left
      right := (added h.rightOpen).2.trans h.right
      apart := fun e' he => by
        rw [(added h.leftOpen).1] at he
        rcases List.mem_append.mp he with old | new
        · exact h.apart e' old
        · exact List.mem_singleton.mp new ▸ unclaimed
      opSignPubKey := h.opSignPubKey
      uvFallbackPrompt := h.uvFallbackPrompt
      skipPluginSigVerify := h.skipPluginSigVerify
      culture := h.culture }

end

section
variable {P : Platform} {rpId : String} {os ot : List PwEntry}

end

def session (P : Platform) (s : Plugin) (qs : List Request) : List (Except Exn JToken) × Plugin :=
  transcript (fun q => handle P q.out q.method q.params) s qs

namespace Sample

def platform : Platform := VaultOutcomes.Sample.platform []

def entry (rpId credentialId : String) : PwEntry :=
  recordToEntry platform invariant
    { VaultOutcomes.Sample.record rpId with credentialId := credentialId }

def own : PwEntry := entry "example.com" "AQIDBA"

def stranger : PwEntry := entry "example.org" "BQYHCA"

def plugin (entries : List PwEntry) : Plugin :=
  { VaultOutcomes.Sample.plugin with database := some ⟨true, [⟨groupName, entries⟩]⟩ }

def alone : Plugin := plugin [own]

def list : Request :=
  ⟨VaultOutcomes.Sample.outside, "keepasskeywin.listCredentials",
    some (.object [("rpId", .str "example.com")])⟩

def delete : Request :=
  ⟨VaultOutcomes.Sample.outside, "keepasskeywin.deleteCredential",
    some (.object [("credentialId", .str "AQIDBA")])⟩

def requests : List Request := [list, delete, list]

theorem unclaimed {id : String} (other : id ≠ "BQYHCA") : Unclaimed ([stranger] ++ []) id := by
  intro e he
  obtain rfl := List.mem_singleton.mp he
  exact beq_false_of_ne fun same => other (Option.some.inj same).symm

theorem drawn : Unclaimed ([stranger] ++ []) (Base64Url.encode VaultOutcomes.Sample.credentialId) :=
  unclaimed (by decide +kernel)

end Sample

end KeePassKeyWin.RelyingPartyIsolation
