import KeePassKeyWin.PluginInstances

set_option autoImplicit false

/-!
# Whose nonce the registry holds

A sidecar is accepted by the instance that wrote what it read. An instance that loads the plugin
without getting the pipe writes over the nonce of the one that has it, and only a sidecar that
had read before can give it back.
-/
namespace KeePassKeyWin.InstanceSafety
open ByteStrings JsonRpc OutcomeRules PlatformServices PasskeyStore VaultHandler VaultOutcomes
open SharedCells TransitionRuns PluginInstances
open PipeServer (dispatch hexString matchesNonce respond)
open NonceSafety (lower nonces hexDigits lower_hexString equalsIgnoreCase_iff respond_final
  dispatch_nonces)

section
variable {P : Platform} {out : Outside} {w w' : World} {i : ℕ} {nonce : String}
  {keyBytes : Bytes}

def Drawn (nonce : Option String) : Prop := ∃ text, nonce = some text ∧ text ≠ ""

theorem drawn_hexString (out : Outside) : Drawn (some (hexString out.nonce)) := by
  refine ⟨_, rfl, fun empty => ?_⟩
  have blank : lower (hexString out.nonce) = [] := by rw [empty]; rfl
  rw [lower_hexString] at blank
  have length := congrArg List.length blank
  simp [List.length_flatMap, hexDigits, out.nonce_length] at length

/-- An instance has drawn its nonce, the owner of the pipe runs, and a client has an owner to
talk to. -/
structure Running (w : World) : Prop where
  drawn : ∀ i inst, w.instances i = some inst → Drawn inst.plugin.nonce
  owner : ∀ i, w.owner = some i → ∃ inst, w.instances i = some inst ∧ inst.phase = .running
  client : w.client ≠ none → w.owner ≠ none

theorem running_update (h : Running w) {new : Option Instance}
    (instances : w'.instances = Function.update w.instances i new)
    (drawn : ∀ inst, new = some inst → Drawn inst.plugin.nonce)
    (owner : ∀ j, w'.owner = some j → j ≠ i → w.owner = some j)
    (fits : w'.owner = some i → ∃ inst, new = some inst ∧ inst.phase = .running)
    (client : w'.client ≠ none → w'.owner ≠ none) : Running w' where
  drawn j inst live := by
    rw [instances] at live
    by_cases own : j = i
    · subst own
      rw [Function.update_self] at live
      exact drawn inst live
    · rw [Function.update_of_ne own] at live
      exact h.drawn j inst live
  owner j hj := by
    by_cases own : j = i
    · subst own
      rw [instances, Function.update_self]
      exact fits hj
    · rw [instances, Function.update_of_ne own]
      exact h.owner j (owner j hj own)
  client := client

theorem running_release (h : Running w) {new : Option Instance}
    (drawn : ∀ inst, new = some inst → Drawn inst.plugin.nonce) :
    Running (({ w with instances := Function.update w.instances i new } : World).release i) := by
  unfold World.release
  split_ifs with own
  · exact running_update h rfl drawn (fun _ ho => absurd ho (by simp))
      (fun ho => absurd ho (by simp)) fun hc => absurd rfl hc
  · exact running_update h rfl drawn (fun j hj _ => hj) (fun hi => absurd hi own) h.client

theorem running_serve (h : Running w) {inst : Instance} (live : w.instances i = some inst)
    (owner : w.owner = some i) {request : JsonRpcRequest} {context : ConnectionContext}
    (drawn : Drawn (nonces (respond P out request ⟨context, w.seen inst.plugin⟩).2.plugin).1) :
    Running (w.serve P out request i inst context) := by
  obtain ⟨x, hx, phase⟩ := h.owner i owner
  obtain rfl := Option.some.inj (live.symm.trans hx)
  refine running_update h rfl ?_ (fun j hj _ => hj) (fun _ => ⟨_, rfl, phase⟩) fun _ => ?_
  · rintro _ ⟨⟩
    exact drawn
  · simp [World.serve, World.leave, owner]

theorem Running.other_of_stopped (h : Running w) {inst : Instance} {j : ℕ}
    (live : w.instances i = some inst) (stopped : inst.phase = .stopped)
    (owner : w.owner = some j) : i ≠ j := by
  rintro rfl
  obtain ⟨x, held, running⟩ := h.owner i owner
  obtain rfl := Option.some.inj (live.symm.trans held)
  exact absurd (stopped.symm.trans running) (by simp)

theorem running_perform (h : Running w) {e : Event} (step : perform P w e = some w') :
    Running w' := by
  cases performs_of_perform step with
  | unsupported | throws => exact h
  | @initializes i out detected plugin absent =>
    refine running_update h rfl ?_ (fun j hj _ => hj) (fun hi => ?_) h.client
    · rintro _ ⟨⟩
      exact drawn_hexString out
    · obtain ⟨inst, held, -⟩ := h.owner i hi
      exact absurd held (by simp [absent])
  | @tryStart i inst live =>
    refine running_update h rfl ?_ (fun j hj other => ?_) (fun _ => ⟨_, rfl, rfl⟩) fun _ => by simp
    · rintro _ ⟨⟩
      exact h.drawn i inst live
    · cases owner : w.owner with
      | none => simp_all
      | some k => simpa [owner] using hj
  | @stop i inst live =>
    refine running_release h ?_
    rintro _ ⟨⟩
    exact h.drawn i inst live
  | @clear i out inst live stopped =>
    refine running_update h rfl (fun _ new => absurd new (by simp)) (fun j hj _ => hj)
      (fun hi => ?_) h.client
    exact absurd rfl (h.other_of_stopped live stopped hi)
  | crash => exact running_release h fun _ new => absurd new (by simp)
  | connect owner => exact ⟨h.drawn, h.owner, fun _ => owner⟩
  | readNonce connected => exact ⟨h.drawn, h.owner, fun _ => h.client (by simp [connected])⟩
  | @hello out keyBytes nonce i inst holds owner live =>
    refine running_serve h live owner ?_
    rw [hello_nonces]
    split_ifs
    · exact drawn_hexString out
    · exact h.drawn i inst live
  | @call out request context i inst vault owner live =>
    have same : nonces (final (dispatch P out request ⟨context, w.seen inst.plugin⟩)).plugin =
        nonces (w.seen inst.plugin) := dispatch_nonces vault _
    rw [← respond_final] at same
    refine running_serve h live owner ?_
    rw [same]
    exact h.drawn i inst live
  | disconnect => exact ⟨h.drawn, h.owner, fun hc => absurd rfl hc⟩

/-- What the client holds it has just read, or held before under the same owner, whose nonce the
event leaves alone. -/
def KeepsReading (w : World) (e : Event) (nonce : String) (j : ℕ) : Prop :=
  (e = .readNonce ∧ w.registry = some nonce) ∨
    (e ≠ .readNonce ∧ w.client = some (.holding nonce) ∧ w.owner = some j ∧
      (moveOf w e).actor ≠ some j)

theorem release_holding {j : ℕ} (holds : (w.release i).client = some (.holding nonce))
    (owner : (w.release i).owner = some j) :
    w.client = some (.holding nonce) ∧ w.owner = some j ∧ i ≠ j := by
  unfold World.release at holds owner
  split_ifs at holds owner with own
  · exact ⟨holds, owner, fun same => own (same ▸ owner)⟩

theorem holding_perform (h : Running w) {e : Event} (step : perform P w e = some w') {j : ℕ}
    (holds : w'.client = some (.holding nonce)) (owner : w'.owner = some j) :
    KeepsReading w e nonce j := by
  cases performs_of_perform step with
  | unsupported absent old =>
    refine .inr ⟨by simp, holds, owner, ?_⟩
    rw [moveOf, if_neg (by simp [old])]
    simp [Move.actor]
  | throws absent throws =>
    refine .inr ⟨by simp, holds, owner, ?_⟩
    rw [moveOf, if_neg (by simp [throws])]
    simp [Move.actor]
  | @initializes i out detected plugin absent =>
    obtain ⟨inst, held, -⟩ := h.owner j owner
    have other : i ≠ j := fun same => absurd held (by simp [← same, absent])
    refine .inr ⟨by simp, holds, owner, ?_⟩
    rw [moveOf]
    split_ifs <;> simp [Move.actor, other]
  | tryStart =>
    refine .inr ⟨by simp, holds, ?_, by simp [moveOf, Move.actor]⟩
    obtain ⟨k, hk⟩ := Option.ne_none_iff_exists'.mp (h.client (holds ▸ by simp))
    simpa [hk] using owner
  | stop =>
    obtain ⟨holds, owner, -⟩ := release_holding holds owner
    exact .inr ⟨by simp, holds, owner, by simp [moveOf, Move.actor]⟩
  | @clear i out inst live stopped =>
    have other : i ≠ j := h.other_of_stopped live stopped owner
    exact .inr ⟨by simp, holds, owner, by simp [moveOf, Move.actor, other]⟩
  | crash =>
    obtain ⟨holds, owner, other⟩ := release_holding holds owner
    exact .inr ⟨by simp, holds, owner, by simp [moveOf, Move.actor, other]⟩
  | readNonce connected read =>
    obtain ⟨⟩ := holds
    exact .inl ⟨rfl, read⟩
  | connect | hello | call | disconnect => cases holds

/-- What holds in every state of a run: `read` tells whose nonce a client holds, and an owner that
wrote last wrote before the client read. -/
structure Sound (l : Ledger) : Prop where
  running : Running l.world
  cell : Valid l.cell
  read : ∀ nonce i, l.world.client = some (.holding nonce) → l.world.owner = some i →
    Reads l.cell i (lower nonce) l.source
  latest : ∀ nonce i, l.world.client = some (.holding nonce) → l.world.owner = some i →
    l.writer = some i → l.source = some i

theorem sound_start (leftover : Option String) : Sound (Ledger.start leftover) where
  running := ⟨fun _ _ h => absurd h (by simp [Ledger.start, World.start]),
    fun _ h => absurd h (by simp [Ledger.start, World.start]), fun h => absurd rfl h⟩
  cell := ⟨fun _ h => Option.mem_toList.mpr h, fun _ _ h => absurd h (by
    simp [Ledger.start, Ledger.cell, World.token, World.start]), fun _ _ h => absurd h (by
    simp [Ledger.start, Ledger.cell, World.token, World.start])⟩
  read _ _ h := absurd h (by simp [Ledger.start, World.start])
  latest _ _ h := absurd h (by simp [Ledger.start, World.start])

theorem sound_step {l l' : Ledger} {e : Event} (h : Sound l)
    (step : restrict Fresh (operate P) l e l') : Sound l' := by
  obtain ⟨fresh, operated⟩ := step
  have moved := cell_operate operated
  obtain ⟨w, performed, rfl⟩ := operate_cases operated
  refine ⟨running_perform h.running performed, ?_, fun nonce i holds owner => ?_,
    fun nonce i holds owner wrote => ?_⟩
  · rw [moved]
    exact valid_move h.cell fresh
  · rw [moved]
    obtain ⟨rfl, registry⟩ | ⟨other, held, owned, quiet⟩ :=
      holding_perform h.running performed holds owner
    · exact reads_content h.cell (by simp [Ledger.cell, World.content, registry])
    · rw [after_source w other]
      exact reads_move (h.read nonce i held owned) quiet
  · obtain ⟨rfl, -⟩ | ⟨other, held, owned, quiet⟩ :=
      holding_perform h.running performed holds owner
    · exact wrote
    · rw [after_source w other]
      refine h.latest nonce i held owned ?_
      by_contra another
      exact writer_move another (fun _ write => quiet (congrArg Move.actor write)) wrote

theorem sound_run {l l' : Ledger} {events : List Event} (h : Sound l)
    (run : Run (restrict Fresh (operate P)) l events l') : Sound l' :=
  run.invariant (fun _ _ _ => sound_step) h

theorem presents_iff_token {inst : Instance} (live : w.instances i = some inst) :
    presents inst.plugin nonce = true ↔ nonce ≠ "" ∧ w.token i = some (lower nonce) := by
  rw [presents_iff]
  simp only [World.token, live, Option.bind_some, matchesNonce]
  cases inst.plugin.nonce with
  | none => simp
  | some expected =>
    rw [equalsIgnoreCase_iff, Option.map_some, Option.some.injEq]
    exact and_congr_right fun _ => eq_comm

theorem owner_perform {e : Event} (step : perform P w e = some w') (owner : w.owner = some i)
    (stays : e ≠ .stop i ∧ e ≠ .crash i) : w'.owner = some i := by
  have released (x : World) (same : x.owner = w.owner) {j : ℕ} (other : j ≠ i) :
      (x.release j).owner = some i := by
    rw [World.release, same, owner, if_neg fun h => other (Option.some.inj h).symm]
    exact same.trans owner
  cases performs_of_perform step with
  | stop => exact released _ (by rfl) fun same => stays.1 (congrArg Event.stop same)
  | crash => exact released _ (by rfl) fun same => stays.2 (congrArg Event.crash same)
  | tryStart => simp [owner]
  | _ => exact owner

theorem Sound.presents_iff {l : Ledger} (h : Sound l) {inst : Instance}
    (holds : l.world.client = some (.holding nonce)) (owner : l.world.owner = some i)
    (live : l.world.instances i = some inst) :
    presents inst.plugin nonce = true ↔ l.source = some i := by
  obtain ⟨text, drawn, visible⟩ := h.running.drawn i inst live
  have token : l.world.token i = some (lower text) := by simp [World.token, live, drawn]
  have reads := h.read nonce i holds owner (lower text) token
  rw [presents_iff_token live, token, Option.some.injEq, eq_comm, ← reads, and_iff_right_iff_imp]
  rintro same rfl
  have blank : text.toList = [] := List.map_eq_nil_iff.mp same.symm
  exact visible (String.toList_eq_nil_iff.mp blank)

theorem helloAnswer_eq {inst : Instance} (holds : w.client = some (.holding nonce))
    (owner : w.owner = some i) (live : w.instances i = some inst) :
    helloAnswer P w out keyBytes =
      some (respond P out (helloRequest nonce keyBytes) ⟨.fresh, w.seen inst.plugin⟩).1 := by
  rw [helloAnswer, holds, serving_iff.mpr ⟨owner, live⟩]

end

def Accepts (P : Platform) (w : World) (out : Outside) (keyBytes : Bytes) : Prop :=
  ∃ response, helloAnswer P w out keyBytes = some response ∧ response.outcome = .ok (.str "ok")

theorem Sound.accepts_iff {P : Platform} {l : Ledger} (h : Sound l) {i : ℕ} {nonce : String}
    (owner : l.world.owner = some i) (holds : l.world.client = some (.holding nonce))
    (out : Outside) {keyBytes : Bytes} (hkey : keyBytes ≠ []) :
    Accepts P l.world out keyBytes ↔ l.source = some i ∧ out.registry = none := by
  obtain ⟨inst, live, -⟩ := h.running.owner i owner
  rw [← h.presents_iff holds owner live, Accepts, helloAnswer_eq holds owner live]
  simp only [Option.some.injEq, exists_eq_left']
  exact hello_answered hkey

namespace Sample

def version : Detected := .windows ⟨10, 26100, 6725⟩

def first : List Event :=
  [.initializeCore 0 NonceSafety.Sample.initialOutside version VaultOutcomes.Sample.plugin,
    .tryStart 0]

def second : Event :=
  .initializeCore 1 VaultOutcomes.Sample.outside version VaultOutcomes.Sample.plugin

def reading : List Event := [.connect, .readNonce]

def platform : Platform := VaultOutcomes.Sample.platform []

def ledgerAfter (l : Ledger) (events : List Event) : Ledger :=
  events.foldl (fun l e => l.after e ((perform platform l.world e).getD l.world)) l

def started : Ledger := ledgerAfter (Ledger.start none) first

theorem run_first : Run (restrict Fresh (operate platform)) (Ledger.start none) first started :=
  run_restricted (by decide)

theorem run_reading : Run (restrict Fresh (operate platform)) started reading
    (ledgerAfter started reading) := run_restricted (by decide)

theorem step_second : restrict Fresh (operate platform) started second
    (ledgerAfter started [second]) := ⟨by decide +kernel, rfl, rfl⟩

theorem run_second : Run (restrict Fresh (operate platform)) (ledgerAfter started [second])
    reading (ledgerAfter (ledgerAfter started [second]) reading) :=
  run_restricted (by decide +kernel)

end Sample

/-- Whatever instances start, stop and crash, and whatever other sidecars did before: a sidecar
is accepted exactly when the instance it talks to was the last to write the registry as the
sidecar read it. -/
theorem sidecar_accepted_iff (P : Platform) (leftover : Option String) (events : List Event)
    (l : Ledger) (run : Run (restrict Fresh (operate P)) (Ledger.start leftover) events l)
    (i : ℕ) (nonce : String) (owner : l.world.owner = some i)
    (holds : l.world.client = some (.holding nonce)) (out : Outside) (keyBytes : Bytes)
    (hkey : keyBytes ≠ []) :
    Accepts P l.world out keyBytes ↔ l.source = some i ∧ out.registry = none :=
  (sound_run (sound_start leftover) run).accepts_iff owner holds out hkey

/-- One instance, one sidecar. -/
theorem sidecar_accepted_iff_sample :
    Accepts Sample.platform (Sample.ledgerAfter Sample.started Sample.reading).world
        VaultOutcomes.Sample.outside [1] ↔
      (Sample.ledgerAfter Sample.started Sample.reading).source = some 0 ∧
        VaultOutcomes.Sample.outside.registry = none :=
  sidecar_accepted_iff Sample.platform none (Sample.first ++ Sample.reading) _
    (Sample.run_first.append Sample.run_reading) 0 _ rfl rfl VaultOutcomes.Sample.outside [1]
    (by simp)

/-- Another instance writes the registry value, or deletes it. -/
inductive Disturbs (i : ℕ) : Event → Prop
  | initializeCore (j : ℕ) (out : Outside) (detected : Detected) (plugin : Plugin) (other : j ≠ i)
      (supported : (isSupportedWindows plugin.culture detected).1 = true)
      (writes : out.registry = none) : Disturbs i (.initializeCore j out detected plugin)
  | clear (j : ℕ) (out : Outside) (other : j ≠ i) (writes : out.registry = none) :
      Disturbs i (.clear j out)

def Keeps (i : ℕ) (e : Event) : Prop := e ≠ .stop i ∧ e ≠ .crash i

/-- No sidecar holds what the instance wrote. -/
def Unread (i : ℕ) (l : Ledger) : Prop :=
  ∀ nonce, l.world.client = some (.holding nonce) → l.source ≠ some i

/-- The instance has the pipe, the registry is not its own, and no sidecar can give it back. -/
structure LockedOut (i : ℕ) (l : Ledger) : Prop where
  owner : l.world.owner = some i
  lost : l.writer ≠ some i
  unread : Unread i l

section
variable {P : Platform} {l l' : Ledger} {i : ℕ} {e : Event}

theorem writer_operate (step : operate P l e l') :
    l'.writer = (l.cell.move (moveOf l.world e)).writer := by
  obtain ⟨w, -, rfl⟩ := operate_cases step
  rfl

theorem unread_operate (sound : Sound l) (step : operate P l e l') (lost : l.writer ≠ some i)
    (unread : Unread i l) (owner : l'.world.owner = some i) : Unread i l' := by
  obtain ⟨w, performed, rfl⟩ := operate_cases step
  intro nonce holds
  obtain ⟨rfl, -⟩ | ⟨other, held, -⟩ := holding_perform sound.running performed holds owner
  · exact lost
  · rw [after_source w other]
    exact unread nonce held

theorem quiet_of_lockedOut (sound : Sound l) (h : LockedOut i l) (step : operate P l e l') :
    ∀ token, moveOf l.world e ≠ .write i token := by
  intro token write
  obtain ⟨w, performed, rfl⟩ := operate_cases step
  obtain ⟨inst, live, -⟩ := sound.running.owner i h.owner
  cases e with
  | initializeCore j out detected plugin =>
    simp only [moveOf] at write
    split_ifs at write
    obtain ⟨rfl, -⟩ := Move.write.inj write
    simp [perform, live] at performed
  | hello out keyBytes =>
    simp only [moveOf] at write
    split at write
    · rename_i nonce j x holds serving
      split_ifs at write with presented
      obtain ⟨rfl, -⟩ := Move.write.inj write
      obtain ⟨owner, live⟩ := serving_iff.mp serving
      exact h.unread nonce holds ((sound.presents_iff holds owner live).mp presented)
    · cases write
  | tryStart | stop | clear | crash | connect | readNonce | call | disconnect => cases write

theorem lockedOut_step (sound : Sound l) (h : LockedOut i l) (step : operate P l e l')
    (keeps : Keeps i e) : LockedOut i l' := by
  have owner : l'.world.owner = some i := by
    obtain ⟨w, performed, rfl⟩ := operate_cases step
    exact owner_perform performed h.owner keeps
  refine ⟨owner, ?_, unread_operate sound step h.lost h.unread owner⟩
  rw [writer_operate step]
  exact writer_move h.lost (quiet_of_lockedOut sound h step)

theorem lockedOut_run {events : List Event} (sound : Sound l) (h : LockedOut i l)
    (run : Run (restrict Fresh (operate P)) l events l') (keeps : ∀ e ∈ events, Keeps i e) :
    LockedOut i l' ∧ Sound l' := by
  induction run with
  | nil _ => exact ⟨h, sound⟩
  | cons head _ ih =>
    obtain ⟨first, rest⟩ := List.forall_mem_cons.mp keeps
    exact ih (sound_step sound head) (lockedOut_step sound h head.2 first) rest

theorem lockedOut_of_disturbs (sound : Sound l) (owner : l.world.owner = some i)
    (unread : Unread i l) (disturbs : Disturbs i e) (step : operate P l e l') :
    LockedOut i l' := by
  have after := writer_operate step
  obtain ⟨w, performed, rfl⟩ := operate_cases step
  have keeps : Keeps i e := by cases disturbs <;> constructor <;> rintro ⟨⟩
  have stays := owner_perform performed owner keeps
  refine ⟨stays, ?_, fun nonce holds => ?_⟩
  · rw [after]
    cases disturbs with
    | initializeCore j out detected plugin other supported writes =>
      rw [moveOf, if_pos ⟨supported, writes⟩]
      simpa [Cell.move] using other
    | clear j out other writes => simp [moveOf, Cell.move, writes]
  · obtain ⟨rfl, -⟩ | ⟨other, held, -⟩ := holding_perform sound.running performed holds stays
    · cases disturbs
    · rw [after_source w other]
      exact unread nonce held

theorem not_accepts (sound : Sound l) (h : LockedOut i l) (out : Outside) {keyBytes : Bytes}
    (hkey : keyBytes ≠ []) : ¬ Accepts P l.world out keyBytes := by
  intro accepts
  obtain ⟨response, answer, outcome⟩ := accepts
  have holds : ∃ nonce, l.world.client = some (.holding nonce) := by
    unfold helloAnswer at answer
    split at answer
    · exact ⟨_, ‹_›⟩
    · cases answer
  obtain ⟨nonce, holds⟩ := holds
  exact h.unread nonce holds
    ((sound.accepts_iff h.owner holds out hkey).mp ⟨response, answer, outcome⟩).1

end

/-- When another instance of KeePass loads the plugin, or one that did ends, while no sidecar
has read the nonce of the instance with the pipe, no hello is accepted for as long as that
instance keeps the pipe. -/
theorem passive_instance_locks_out (P : Platform) (leftover : Option String)
    (before after : List Event) (e : Event) (l l₁ l' : Ledger)
    (run : Run (restrict Fresh (operate P)) (Ledger.start leftover) before l) (i : ℕ)
    (owner : l.world.owner = some i) (unread : Unread i l) (disturbs : Disturbs i e)
    (step : restrict Fresh (operate P) l e l₁)
    (run' : Run (restrict Fresh (operate P)) l₁ after l') (keeps : ∀ e ∈ after, Keeps i e)
    (out : Outside) (keyBytes : Bytes) (hkey : keyBytes ≠ []) :
    l'.world.owner = some i ∧ ¬ Accepts P l'.world out keyBytes := by
  have sound := sound_run (sound_start leftover) run
  have locked := lockedOut_of_disturbs sound owner unread disturbs step.2
  obtain ⟨stays, sound'⟩ := lockedOut_run (sound_step sound step) locked run' keeps
  exact ⟨stays.owner, not_accepts sound' stays out hkey⟩

/-- A second instance starts, and the next sidecar reads the nonce of that one. -/
theorem passive_instance_locks_out_sample :
    (Sample.ledgerAfter (Sample.ledgerAfter Sample.started [Sample.second])
        Sample.reading).world.owner = some 0 ∧
      ¬ Accepts Sample.platform (Sample.ledgerAfter (Sample.ledgerAfter Sample.started
        [Sample.second]) Sample.reading).world VaultOutcomes.Sample.outside [1] :=
  passive_instance_locks_out Sample.platform none Sample.first Sample.reading Sample.second
    Sample.started _ _ Sample.run_first 0 rfl (fun _ holds => by cases holds)
    (.initializeCore 1 _ _ _ (by decide) rfl rfl) Sample.step_second Sample.run_second
    (by simp [Sample.reading, Keeps]) VaultOutcomes.Sample.outside [1] (by simp)

/-- The instance has the pipe and wrote last. -/
structure Healthy (i : ℕ) (l : Ledger) : Prop where
  owner : l.world.owner = some i
  writer : l.writer = some i

/-- Nobody else touches the registry, it can be written, and the instance stays. -/
structure Undisturbed (i : ℕ) (e : Event) : Prop where
  alone : ¬ Disturbs i e
  writes : e.writes = true
  keeps : Keeps i e

section
variable {P : Platform} {l l' : Ledger} {i : ℕ} {e : Event}

theorem writer_of_undisturbed (sound : Sound l) (h : Healthy i l) (undisturbed : Undisturbed i e)
    (step : operate P l e l') : l'.writer = some i := by
  have after := writer_operate step
  obtain ⟨w, performed, rfl⟩ := operate_cases step
  rw [after]
  cases e with
  | initializeCore j out detected plugin =>
    rw [moveOf]
    split_ifs with written
    · by_cases own : j = i
      · exact congrArg some own
      · exact absurd (.initializeCore j out detected plugin own written.1 written.2) undisturbed.alone
    · exact h.writer
  | clear j out =>
    have other : j ≠ i := by
      cases performs_of_perform performed with
      | clear live stopped => exact sound.running.other_of_stopped live stopped h.owner
    cases write : out.registry with
    | none => exact absurd (.clear j out other write) undisturbed.alone
    | some message =>
      rw [moveOf, write]
      exact h.writer
  | hello out keyBytes =>
    have writes : out.registry = none := Option.isNone_iff_eq_none.mp undisturbed.writes
    rw [moveOf]
    split
    · rename_i nonce j inst _ serving
      obtain ⟨owner, -⟩ := serving_iff.mp serving
      split_ifs
      · exact owner.symm.trans h.owner
      · exact h.writer
    · exact h.writer
  | tryStart | stop | crash | connect | readNonce | call | disconnect => exact h.writer

theorem healthy_step (sound : Sound l) (h : Healthy i l) (undisturbed : Undisturbed i e)
    (step : operate P l e l') : Healthy i l' := by
  have writer := writer_of_undisturbed sound h undisturbed step
  obtain ⟨w, performed, rfl⟩ := operate_cases step
  exact ⟨owner_perform performed h.owner undisturbed.keeps, writer⟩

theorem healthy_run {events : List Event} (sound : Sound l) (h : Healthy i l)
    (run : Run (restrict Fresh (operate P)) l events l')
    (undisturbed : ∀ e ∈ events, Undisturbed i e) : Healthy i l' ∧ Sound l' := by
  induction run with
  | nil _ => exact ⟨h, sound⟩
  | cons head _ ih =>
    obtain ⟨first, rest⟩ := List.forall_mem_cons.mp undisturbed
    exact ih (sound_step sound head) (healthy_step sound h first head.2) rest

end

/-- While the instance with the pipe was the last to write, and no other instance writes or
deletes the registry value, every sidecar that has read the registry is accepted, whatever other
instances and sidecars do otherwise. -/
theorem undisturbed_owner_accepts (P : Platform) (leftover : Option String)
    (before after : List Event) (l l' : Ledger)
    (run : Run (restrict Fresh (operate P)) (Ledger.start leftover) before l) (i : ℕ)
    (healthy : Healthy i l) (run' : Run (restrict Fresh (operate P)) l after l')
    (undisturbed : ∀ e ∈ after, Undisturbed i e) (nonce : String)
    (holds : l'.world.client = some (.holding nonce)) (out : Outside)
    (writes : out.registry = none) (keyBytes : Bytes) (hkey : keyBytes ≠ []) :
    Accepts P l'.world out keyBytes := by
  obtain ⟨stays, sound⟩ := healthy_run (sound_run (sound_start leftover) run) healthy run' undisturbed
  exact (sound.accepts_iff stays.owner holds out hkey).mpr
    ⟨sound.latest nonce i holds stays.owner stays.writer, writes⟩

theorem undisturbed_owner_accepts_sample :
    Accepts Sample.platform (Sample.ledgerAfter Sample.started Sample.reading).world
      VaultOutcomes.Sample.outside [1] :=
  undisturbed_owner_accepts Sample.platform none Sample.first Sample.reading Sample.started _
    Sample.run_first 0 ⟨rfl, rfl⟩ Sample.run_reading
    (by
      rintro e he
      simp only [Sample.reading, List.mem_cons, List.not_mem_nil, or_false] at he
      obtain rfl | rfl := he <;>
        exact ⟨fun h => (by cases h), rfl, by simp [Keeps]⟩)
    _ rfl VaultOutcomes.Sample.outside rfl [1] (by simp)

end KeePassKeyWin.InstanceSafety
