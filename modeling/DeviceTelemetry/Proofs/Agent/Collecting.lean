import DeviceTelemetry.Proofs.Agent.Invariant
import DeviceTelemetry.Proofs.SchemaValidity
import DeviceTelemetry.Proofs.CollectorCalls

/-!
# Collectors that never fail

No operation changes the keys of an agent's collectors or the kind of a slot
(`Agent.Retains.performAll`). So a group that is enabled never refuses, nothing is left out at a
heartbeat, and a group that is not enabled always refuses (`Agent.collectors_never_fail`).
-/

set_option autoImplicit false

namespace DeviceTelemetry

open Table (Follows)

/-! ### Throughout an agent's life -/

namespace Agent

variable {ν : Type} {a b d : Agent ν}

/-- What leads from `a` to `b` keeps the kinds of the slots and the keys of the collectors. -/
structure Retains (a b : Agent ν) : Prop where
  table : Follows a.table b.table
  collectors : Collectors.Follows a.collectors b.collectors

namespace Retains

theorem of_eq (table : b.table = a.table) (collectors : b.collectors = a.collectors) :
    Retains a b where
  table := table ▸ .refl _
  collectors := collectors ▸ .refl _

theorem refl (a : Agent ν) : Retains a a := .of_eq rfl rfl

theorem trans (h : Retains a b) (h' : Retains b d) : Retains a d where
  table := h.table.trans h'.table
  collectors := h.collectors.trans h'.collectors

theorem of_touches {parts : List Part} (steps : Touches parts a b) : Retains a b := by
  refine steps.invariant (refl a) ?_
  intro part b d _ change before
  cases change with
  | call c => exact before.trans ⟨Table.follows_perform b.table c, .refl _⟩
  | collectors follows => exact before.trans ⟨.refl _, follows⟩
  | record e =>
      obtain ⟨s, n, same⟩ := b.record_eq e
      rw [same]
      exact before.trans (of_eq rfl rfl)
  | _ => exact before.trans (of_eq rfl rfl)

variable [Nonvolatile ν]

theorem perform (a : Agent ν) (op : Operation ν) : Retains a (a.perform op).2 :=
  .of_touches (touches_perform a op)

theorem performAll (a : Agent ν) (ops : List (Operation ν)) : Retains a (a.performAll ops).2 := by
  induction ops generalizing a with
  | nil => exact refl a
  | cons op ops ih => exact (perform a op).trans (ih (a.perform op).2)

end Retains

/-! ### Boot -/

section Boot

variable {configuration : Configuration} {capacity : Nat} {platform : Platform}

theorem exists_boot_error_iff :
    (∃ e, (boot configuration capacity platform : Except Failure (Agent ν)) = .error e) ↔
      configuration.heartbeatInterval = 0 ∨
        (∃ e, configuration.effectiveSchema.validate = .error e) ∨ capacity = 0 := by
  have valid : (∃ c, configuration.catalog = .ok c) ↔ configuration.heartbeatInterval ≠ 0 ∧
      ¬∃ e, configuration.effectiveSchema.validate = .error e := by
    unfold Configuration.catalog Schema.validate
    by_cases none : configuration.heartbeatInterval = 0
    · rw [if_pos none]
      exact iff_of_false nofun fun some => some.1 none
    · rw [if_neg none]
      cases configuration.effectiveSchema.catalog with
      | ok c => exact iff_of_true ⟨c, rfl⟩ ⟨none, nofun⟩
      | error e => exact iff_of_false nofun fun passed => passed.2 ⟨e, rfl⟩
  have boots : (∃ a : Agent ν, boot configuration capacity platform = .ok a) ↔
      (∃ c, configuration.catalog = .ok c) ∧ 0 < capacity := exists_boot_iff
  rw [valid, Nat.pos_iff_ne_zero] at boots
  rw [exists_error_iff, boots]
  tauto

theorem boot_ne_missingBuiltin (builtin : String) :
    (boot configuration capacity platform : Except Failure (Agent ν)) ≠
      .error (.schema (.missingBuiltin builtin)) := by
  unfold boot
  refine bind_ne_error ?invalid fun c checked => bind_ne_error ?missing fun _ _ =>
    bind_ne_error (mapError_ne_error fun _ _ => nofun) fun _ _ => nofun
  case invalid =>
    unfold Configuration.catalog
    split
    · exact nofun
    · refine mapError_ne_error fun e refused => ?_
      rintro ⟨⟩
      exact Schema.describes_of_catalog refused
  case missing =>
    obtain ⟨collectors, made⟩ :=
      Collectors.exists_ofCatalog (Configuration.catalog_eq_ok checked) platform.clock
    rw [made]
    exact nofun

theorem fits_of_boot {a : Agent ν} (booted : boot configuration capacity platform = .ok a) :
    a.collectors.Fits configuration.builtins a.table := by
  unfold boot at booted
  obtain ⟨c, resolved, booted⟩ := bind_eq_ok.mp booted
  obtain ⟨collectors, made, booted⟩ := bind_eq_ok.mp booted
  obtain ⟨s, -, booted⟩ := bind_eq_ok.mp booted
  obtain rfl := pure_eq_ok.mp booted
  intro group
  have found := Collectors.keys_ofCatalog (mapError_eq_ok.mp made) group
  split
  · rename_i enabled
    rw [if_pos enabled] at found
    obtain ⟨keys, here, found⟩ := found
    have declared (d : MetricDef) (member : d ∈ BuiltinGroups.metricsOf group) :
        d ∈ configuration.effectiveSchema.metrics ∧ d.session = none :=
      ⟨List.mem_append_right _ (BuiltinGroups.mem_metrics enabled member),
        BuiltinGroups.session_eq_none member⟩
    refine ⟨keys, here, ((List.forall₂_and_left _ _).mpr ⟨declared, found⟩).imp ?_⟩
    rintro d key ⟨⟨declared, ofHeartbeat⟩, found⟩
    obtain ⟨e, entry, named, kind, owner⟩ :=
      Schema.metric?_of_keyOf? (Configuration.catalog_eq_ok resolved) declared found
    exact
      { found
        entry := ⟨e, entry, named, kind, owner ofHeartbeat⟩
        kind := kind ▸ (Table.fits_ofCatalog c).kindOf entry }
  · rename_i disabled
    rw [if_neg disabled] at found
    exact found

end Boot

/-! ### Enabled groups and others -/

def Operation.group? : Operation ν → Option BuiltinGroup
  | .changeConnection _ => some .connectivity
  | .countSync _ => some .sync
  | .setUnexpectedReboot _ => some .reliability
  | .attachMonitor | .stopDischarging => some .battery
  | _ => none

section Groups

variable [Nonvolatile ν]

/-- The keys of the group are those of its metrics, and its operations succeed. -/
structure Provides (a : Agent ν) (group : BuiltinGroup) : Prop where
  keys : ∃ keys, a.collectors.keys group = some keys ∧
    List.Forall₂ a.table.Holds (BuiltinGroups.metricsOf group) keys
  done : ∀ op : Operation ν, op.group? = some group → (a.perform op).1 = .ok .done

/-- The group has no keys, and its operations are refused and change nothing. -/
structure Declines (a : Agent ν) (group : BuiltinGroup) : Prop where
  keys : a.collectors.keys group = none
  refused : ∀ op : Operation ν, op.group? = some group →
    a.perform op = (.error (.metric (.badParameter (.groupDisabled group))),
      { a with platform.lock := a.platform.lock.enter.leave })

/-- All steps of collecting at a heartbeat succeed. -/
def CollectsAll (a : Agent ν) : Prop :=
  ∃ t c, a.collectors.collectStrictly (a.table.tallySession Catalog.heartbeat a.now)
      a.platform.gauge a.now = .ok (t, c) ∧
    a.refresh Catalog.heartbeat =
      { a with table := t, collectors := c }.runHook .heartbeat a.collectHook

omit [Nonvolatile ν] in
theorem finish_locked_of_ok {ε : Type} {failure : ε → Failure}
    {f : Agent ν → Except ε Unit × Agent ν}
    (done : (f { a with platform.lock := a.platform.lock.enter }).1 = .ok ()) :
    (finish failure (a.locked f)).1 = .ok .done := by
  show ((f _).1.map _).mapError failure = _
  rw [done]
  rfl

omit [Nonvolatile ν] in
theorem finish_locked_of_error {ε : Type} {failure : ε → Failure}
    {f : Agent ν → Except ε Unit × Agent ν} {e : ε}
    (refused : f { a with platform.lock := a.platform.lock.enter } =
      (.error e, { a with platform.lock := a.platform.lock.enter })) :
    finish failure (a.locked f) =
      (.error (failure e), { a with platform.lock := a.platform.lock.enter.leave }) := by
  unfold locked
  rw [refused]
  rfl

omit [Nonvolatile ν] in
theorem alterTable_of_error {f : Table → Except MetricError Table} {e : MetricError}
    (refused : f a.table = .error e) : a.alterTable f = (.error e, a) := by
  rw [alterTable, refused]

omit [Nonvolatile ν] in
theorem alterCollectors_of_error {f : Collectors → Except MetricError Collectors}
    {e : MetricError} (refused : f a.collectors = .error e) :
    a.alterCollectors f = (.error e, a) := by
  rw [alterCollectors, refused]

theorem provides_of_fits {groups : BuiltinGroups} (fits : a.collectors.Fits groups a.table)
    {group : BuiltinGroup} (on : groups.enabled group = true) : a.Provides group := by
  have found := fits group
  rw [if_pos on] at found
  refine ⟨found, ?_⟩
  obtain ⟨keys, here, -⟩ := found
  intro op works
  cases op with
  | changeConnection state =>
      cases works
      obtain ⟨k, enabled, -⟩ := Option.map_eq_some_iff.mp here
      exact finish_locked_of_ok (fits.changeConnection enabled state a.now)
  | countSync success =>
      cases works
      obtain ⟨k, enabled, -⟩ := Option.map_eq_some_iff.mp here
      obtain ⟨t, counted⟩ := fits.countSync enabled success
      refine finish_locked_of_ok ?_
      rw [alterTable, counted]
  | setUnexpectedReboot unexpected =>
      cases works
      obtain ⟨r, enabled, -⟩ := Option.map_eq_some_iff.mp here
      refine finish_locked_of_ok ?_
      rw [alterCollectors, Collectors.setUnexpectedReboot, enabled]
  | attachMonitor =>
      cases works
      obtain ⟨b, enabled, -⟩ := Option.map_eq_some_iff.mp here
      refine finish_locked_of_ok ?_
      rw [alterCollectors, Collectors.attachMonitor, enabled]
  | stopDischarging =>
      cases works
      obtain ⟨b, enabled, -⟩ := Option.map_eq_some_iff.mp here
      refine finish_locked_of_ok ?_
      rw [alterCollectors, Collectors.stopDischarging, enabled]
  | _ => cases works

theorem declines_of_fits {groups : BuiltinGroups} (fits : a.collectors.Fits groups a.table)
    {group : BuiltinGroup} (off : groups.enabled group = false) : a.Declines group := by
  have found := fits group
  rw [if_neg (ne_true_of_eq_false off)] at found
  refine ⟨found, ?_⟩
  intro op works
  cases op with
  | changeConnection state =>
      cases works
      refine finish_locked_of_error ?_
      dsimp only
      rw [Collectors.changeConnection, Option.map_eq_none_iff.mp found]
      rfl
  | countSync success =>
      cases works
      refine finish_locked_of_error (alterTable_of_error ?_)
      rw [Collectors.countSync, Option.map_eq_none_iff.mp found]
      rfl
  | setUnexpectedReboot unexpected =>
      cases works
      refine finish_locked_of_error (alterCollectors_of_error ?_)
      rw [Collectors.setUnexpectedReboot, Option.map_eq_none_iff.mp found]
      rfl
  | attachMonitor =>
      cases works
      refine finish_locked_of_error (alterCollectors_of_error ?_)
      rw [Collectors.attachMonitor, Option.map_eq_none_iff.mp found]
      rfl
  | stopDischarging =>
      cases works
      refine finish_locked_of_error (alterCollectors_of_error ?_)
      rw [Collectors.stopDischarging, Option.map_eq_none_iff.mp found]
      rfl
  | _ => cases works

omit [Nonvolatile ν] in
theorem collectsAll_of_fits {groups : BuiltinGroups} (fits : a.collectors.Fits groups a.table) :
    a.CollectsAll := by
  have tallied := Table.follows_tallySession a.table Catalog.heartbeat a.now
  have strict := (fits.follows tallied).collectStrictly a.platform.gauge a.now
  refine ⟨_, _, strict, ?_⟩
  rw [refresh]
  dsimp only
  rw [if_pos rfl]
  exact congrArg (fun (tc : Table × Collectors) =>
    { a with table := tc.1, collectors := tc.2 }.runHook .heartbeat a.collectHook)
    (Collectors.collect_of_strict strict)

omit [Nonvolatile ν] in
theorem Retains.fits (h : Retains a b) {groups : BuiltinGroups}
    (fits : a.collectors.Fits groups a.table) : b.collectors.Fits groups b.table := by
  intro group
  rw [h.collectors.keys group]
  exact fits.follows h.table group

omit [Nonvolatile ν] in
theorem short_of_boot {configuration : Configuration} {capacity : Nat} {platform : Platform}
    (booted : boot configuration capacity platform = .ok a) : a.collectors.Short := by
  unfold boot at booted
  obtain ⟨c, -, booted⟩ := bind_eq_ok.mp booted
  obtain ⟨collectors, made, booted⟩ := bind_eq_ok.mp booted
  obtain ⟨s, -, booted⟩ := bind_eq_ok.mp booted
  obtain rfl := pure_eq_ok.mp booted
  exact Collectors.short_ofCatalog (mapError_eq_ok.mp made)

/-- Nothing but a heartbeat that never comes, a schema that is not valid or a store without a byte
keeps an agent from booting. After that, whatever is done to the agent and whatever its hooks do,
the groups that are enabled provide, the others decline, and heartbeats find nothing to fail at,
whatever has entered the lock. The time that is carried over is short of an hour, so the words of
64 bits in which hours are counted hold the sum unless the clock is set forward by nearly all that
it can show. -/
theorem collectors_never_fail (configuration : Configuration) (capacity : Nat)
    (platform : Platform) :
    ((∃ e, (boot configuration capacity platform : Except Failure (Agent ν)) = .error e) ↔
      configuration.heartbeatInterval = 0 ∨
        (∃ e, configuration.effectiveSchema.validate = .error e) ∨ capacity = 0) ∧
    (∀ builtin, (boot configuration capacity platform : Except Failure (Agent ν)) ≠
      .error (.schema (.missingBuiltin builtin))) ∧
    ∀ booted : Agent ν, boot configuration capacity platform = .ok booted →
      ∀ ops : List (Operation ν),
        let a := (booted.performAll ops).2
        (∀ group, if configuration.builtins.enabled group then a.Provides group
          else a.Declines group) ∧
        (∀ lock, CollectsAll { a with platform.lock := lock }) ∧
        ∀ r, a.collectors.reliability = some r → r.carried.toNat < Reliability.hourLength ∧
          ∀ now, r.strictCollect now =
            if r.carried.toNat + (now.toNat - r.lastHeartbeat.toNat) < 2 ^ 64 then
              some ((r.fullHours now).toNat,
                if r.fullHours now = 0 then 0 else (r.fullHours now).toNat - r.lost.toNat,
                r.counted now)
            else none := by
  refine ⟨exists_boot_error_iff, boot_ne_missingBuiltin, ?_⟩
  intro booted ok ops a
  have retained := Retains.performAll booted ops
  have fits : a.collectors.Fits configuration.builtins a.table := retained.fits (fits_of_boot ok)
  have short : a.collectors.Short := retained.collectors.short (short_of_boot ok)
  refine ⟨?_, fun lock => collectsAll_of_fits fits, fun r here => ⟨short r here, fun now => ?_⟩⟩
  · intro group
    cases on : configuration.builtins.enabled group with
    | true => exact provides_of_fits fits on
    | false => exact declines_of_fits fits on
  · split
    · rename_i room
      exact Reliability.strictCollect_eq room
    · rename_i full
      exact Reliability.strictCollect_eq_none (Nat.not_lt.mp full)

/-- Hooks that forget everything and move what the collectors count on do not disturb them. -/
theorem collectors_never_fail_after_resets :
    let configuration : Configuration :=
      { device := {}
        schema := { sessions := ["run"], metrics := [.unsigned "sync_successful"] }
        builtins := { connectivity := true, reliability := true, battery := true } }
    let ops : List (Operation Empty) := [.attachMonitor,
      .setCollectHook [.call .resetAll, .call (.add 3 7), .call (.startTimer 2 5)],
      .setSessionEndHook 1 [.call (.stopTimer 2 9), .call (.setUnsigned 5 0)],
      .setGauge { charge := 80, discharging := true }, .startSession 1, .advance 7200000,
      .heartbeat, .changeConnection .stopped, .setText 5 "full", .endSession 1, .heartbeat]
    ∃ a : Agent Empty, boot configuration 16 {} = .ok a ∧
      let b := (a.performAll ops).2
      (b.perform (.changeConnection .lost)).1 = .ok .done ∧
        (b.perform .stopDischarging).1 = .ok .done ∧
        (b.perform (.countSync true)).1 =
          .error (.metric (.badParameter (.groupDisabled .sync))) ∧
        b.CollectsAll := by
  intro configuration ops
  obtain ⟨a, booted⟩ : ∃ a : Agent Empty, boot configuration 16 {} = .ok a :=
    exists_boot_iff.mpr ⟨⟨_, rfl⟩, by decide⟩
  refine ⟨a, booted, ?_⟩
  have lives := (collectors_never_fail configuration 16 {}).2.2 a booted ops
  dsimp only at lives ⊢
  generalize (a.performAll ops).2 = b at lives ⊢
  obtain ⟨groups, beats⟩ := lives
  have connectivity : b.Provides .connectivity := groups .connectivity
  have battery : b.Provides .battery := groups .battery
  have sync : b.Declines .sync := groups .sync
  exact ⟨connectivity.done (.changeConnection .lost) rfl, battery.done .stopDischarging rfl,
    congrArg Prod.fst (sync.refused (.countSync true) rfl), beats.1 b.platform.lock⟩

end Groups

end Agent

end DeviceTelemetry
