import KeePassKeyWin.RequestEffects
import Mathlib.Data.List.Forall2

set_option autoImplicit false

/-!
# Failed requests and the records

A request that fails leaves the records as they were, unless it had reached `Add` or `Delete`
and their `Save` threw.
-/
namespace KeePassKeyWin.ErrorAtomicity
open ByteStrings JsonRpc OutcomeRules PlatformServices FirstMatch CredentialEncodings PasskeyStore
open VaultGates VaultHandler VaultOutcomes VaultRuns RequestEffects

structure Grown (r r' : PasskeyRecord) : Prop where
  same : r' = { r with signCount := r'.signCount }
  grown : r.signCount ≤ r'.signCount

/-- The records that the store shows are the same ones, their counters apart. -/
structure SameRecords (P : Platform) (s t : Plugin) : Prop where
  getAll : List.Forall₂ Grown (s.getAll P) (t.getAll P)
  findById : ∀ id, Option.Rel Grown (s.findById P id) (t.findById P id)
  findByRpId : ∀ rpId, List.Forall₂ Grown (s.findByRpId P rpId) (t.findByRpId P rpId)

def EntryGrown (e e' : PwEntry) : Prop :=
  e' = e ∨ ∃ n, e.signCount ≤ n ∧ n < 2 ^ 32 ∧ e' = e.setSignCount n

theorem EntryGrown.record {e e' : PwEntry} (h : EntryGrown e e') (P : Platform)
    (culture : NumberFormat.NumberFormatInfo) :
    Grown (entryToRecord P culture e) (entryToRecord P culture e') := by
  rcases h with rfl | ⟨n, grown, bound, rfl⟩
  · exact ⟨rfl, le_refl _⟩
  · rw [entryToRecord_setSignCount P culture bound]
    exact ⟨rfl, grown⟩

theorem EntryGrown.hasId {e e' : PwEntry} (h : EntryGrown e e') (id : String) :
    PasskeyStore.hasId id e' = PasskeyStore.hasId id e := by
  rcases h with rfl | ⟨n, _, _, rfl⟩ <;> rfl

theorem EntryGrown.hasRpId {e e' : PwEntry} (h : EntryGrown e e') (rpId : String) :
    PasskeyStore.hasRpId rpId e' = PasskeyStore.hasRpId rpId e := by
  rcases h with rfl | ⟨n, _, _, rfl⟩ <;> rfl

theorem counts_grown {before after : List PwEntry} (h : Counts before after) :
    List.Forall₂ EntryGrown before after := by
  cases h with
  | same => exact List.forall₂_same.mpr fun e _ => .inl rfl
  | next id e found room =>
    obtain ⟨front, back, split, changed⟩ :=
      modifyFirst_split (f := PwEntry.setSignCount (e.signCount + 1)) found
    rw [changed, split]
    have counted : EntryGrown e (e.setSignCount (e.signCount + 1)) :=
      .inr ⟨e.signCount + 1, by omega, next_lt room, rfl⟩
    have unchanged : ∀ es : List PwEntry, List.Forall₂ EntryGrown es es := fun es =>
      List.forall₂_same.mpr fun e _ => .inl rfl
    exact List.rel_append (unchanged front) (.cons counted (unchanged back))

theorem find?_rel {α : Type} {R : α → α → Prop} {p : α → Bool} {xs ys : List α}
    (h : List.Forall₂ R xs ys) (hp : ∀ x y, R x y → p y = p x) :
    Option.Rel R (xs.find? p) (ys.find? p) := by
  induction h with
  | nil => exact .none
  | @cons x y xs ys hxy _ ih =>
    rw [List.find?_cons, List.find?_cons, hp x y hxy]
    cases p x with
    | true => exact .some hxy
    | false => exact ih

theorem filter_rel {α : Type} {R : α → α → Prop} {p : α → Bool} {xs ys : List α}
    (h : List.Forall₂ R xs ys) (hp : ∀ x y, R x y → p y = p x) :
    List.Forall₂ R (xs.filter p) (ys.filter p) :=
  List.rel_filter (fun x y hxy => by simp [hp x y hxy]) h

theorem map_rel {α β : Type} {R : α → α → Prop} {S : β → β → Prop} {f : α → β} {x y : Option α}
    (h : Option.Rel R x y) (hf : ∀ a b, R a b → S (f a) (f b)) :
    Option.Rel S (x.map f) (y.map f) := by
  cases h with
  | none => exact .none
  | some hab => exact .some (hf _ _ hab)

theorem sameRecords_of_grown {P : Platform} {s t : Plugin} (culture : t.culture = s.culture)
    (grown : List.Forall₂ EntryGrown s.entries t.entries) : SameRecords P s t where
  getAll := by
    rw [Plugin.getAll, Plugin.getAll, culture, List.forall₂_map_left_iff,
      List.forall₂_map_right_iff]
    exact grown.imp fun e e' h => h.record P s.culture
  findById id := by
    rw [Plugin.findById, Plugin.findById, culture]
    exact map_rel (find?_rel grown fun e e' h => h.hasId id) fun e e' h => h.record P s.culture
  findByRpId rpId := by
    have kept := filter_rel grown fun e e' h => h.hasRpId rpId
    rw [Plugin.findByRpId, Plugin.findByRpId, culture, List.forall₂_map_left_iff,
      List.forall₂_map_right_iff]
    exact kept.imp fun e e' h => h.record P s.culture

theorem sameRecords_length {P : Platform} {s t : Plugin} (h : SameRecords P s t) :
    t.entries.length = s.entries.length := by
  have length := h.getAll.length_eq
  simpa [Plugin.getAll] using length.symm

theorem error_of_failed {ε σ α : Type} {r : EStateM.Result ε σ α} (h : failed r = true) :
    ∃ e, r = .error e (final r) := by
  cases r with
  | ok a t => cases h
  | error e t => exact ⟨e, rfl⟩

section
variable {P : Platform} {out : Outside} {method : String} {params : Option JToken} {s : Plugin}

theorem registers_unsaved (throws : out.save.isSome = true) {record : PasskeyRecord}
    (registers : Registers P out method params s record) :
    ∃ e t, handle P out method params s = .error e t ∧ ¬ SameRecords P s t := by
  obtain ⟨entries, outcome⟩ := handle_registers registers
  obtain ⟨e, run⟩ := error_of_failed (outcome.trans throws)
  refine ⟨e, _, run, fun same => ?_⟩
  have length := sameRecords_length same
  rw [entries, List.length_append, List.length_singleton] at length
  omega

theorem deletes_unsaved (throws : out.save.isSome = true) {id : String}
    (deletes : DeletesStored method params s id) :
    ∃ e t, handle P out method params s = .error e t ∧ ¬ SameRecords P s t := by
  obtain ⟨entries, outcome⟩ :
      (final (handle P out method params s)).entries = s.entries.eraseP (hasId id) ∧
        failed (handle P out method params s) = out.save.isSome := handle_deletes deletes
  obtain ⟨e, run⟩ := error_of_failed (outcome.trans throws)
  refine ⟨e, _, run, fun same => ?_⟩
  have length := sameRecords_length same
  obtain ⟨x, mem, hx⟩ := List.any_eq_true.mp deletes.2.2
  have positive := List.length_pos_of_mem mem
  rw [entries, List.length_eraseP_of_mem mem hx] at length
  omega

end

/-- What fails leaves the records alone, exactly if `Save` does not throw in a request that
registers a record or deletes one. -/
theorem failed_request_keeps_records_iff (P : Platform) (out : Outside) (method : String)
    (params : Option JToken) (s : Plugin) :
    (∀ e t, handle P out method params s = .error e t → SameRecords P s t) ↔
      ¬ (out.save.isSome = true ∧ ((∃ record, Registers P out method params s record) ∨
        ∃ id, DeletesStored method params s id)) := by
  constructor
  · rintro keeps ⟨throws, ⟨record, registers⟩ | ⟨id, deletes⟩⟩
    · obtain ⟨e, t, run, changed⟩ := registers_unsaved throws registers
      exact changed (keeps e t run)
    · obtain ⟨e, t, run, changed⟩ := deletes_unsaved (P := P) throws deletes
      exact changed (keeps e t run)
  · intro saves e t run
    have culture : t.culture = s.culture := by
      have held := (handle_held P out method params s).culture
      rwa [run] at held
    have fails : failed (handle P out method params s) = true := by
      rw [run]
      rfl
    by_cases registers : ∃ record, Registers P out method params s record
    · obtain ⟨record, h⟩ := registers
      exact absurd ⟨(handle_registers h).2.symm.trans fails, .inl ⟨record, h⟩⟩ saves
    by_cases deletes : ∃ id, DeletesStored method params s id
    · obtain ⟨id, h⟩ := deletes
      exact absurd ⟨(handle_deletes h).2.symm.trans fails, .inr ⟨id, h⟩⟩ saves
    have counts : CountsTo s (final (handle P out method params s)) :=
      handle_counts (fun record h => registers ⟨record, h⟩) fun id h => deletes ⟨id, h⟩
    rw [run] at counts
    exact sameRecords_of_grown culture (counts_grown counts)

/-- The disk is full when the only credential of a vault is deleted: the request fails, and the
credential is gone from the records. -/
theorem unsaved_delete_removes : ∃ e t,
    handle (Sample.platform []) { Sample.outside with save := some "There is not enough space." }
        "keepasskeywin.deleteCredential"
        (some (.object [("credentialId", .str (Base64Url.encode Sample.credentialId))]))
        (Sample.registered "example.com") = .error e t ∧
      ¬ SameRecords (Sample.platform []) (Sample.registered "example.com") t := by
  have nonempty : Base64Url.encode Sample.credentialId ≠ "" := by decide +kernel
  have stored : (Sample.registered "example.com").entries.any
      (hasId (Base64Url.encode Sample.credentialId)) = true :=
    List.any_eq_true.mpr ⟨_, List.mem_singleton_self _,
      List.find?_some (Sample.find?_registered "example.com")⟩
  exact deletes_unsaved rfl ⟨⟨rfl, _, rfl, rfl⟩, nonempty, stored⟩

end KeePassKeyWin.ErrorAtomicity
