import DeviceTelemetry.Proofs.Agent.BootSuccess
import DeviceTelemetry.Proofs.Agent.Footprint
import DeviceTelemetry.Proofs.RecordQueue.Recording

/-!
# What holds of an agent throughout its life

`Agent.Sound` is kept by every operation (`Sound.perform`): the catalog, the device and the capacity
of the store stay as they were at boot, the slots of the table fit the catalog, and between two
operations no transaction is open.
-/

set_option autoImplicit false

namespace DeviceTelemetry.Agent

open RecordQueue (Represents Serves)

variable {ν : Type}

/-- A store between two operations of an agent. -/
def Idle (capacity : Nat) (s : RecordStore ν) : Prop :=
  ∃ q, Represents s q ∧ q.opened = none ∧ q.capacity = capacity

structure Sound (c : Catalog) (device : Device) (capacity : Nat) (a : Agent ν) : Prop where
  catalog : a.table.catalog = c
  slots : a.table.Fits
  device : a.device = device
  store : Idle capacity a.store
  collectHook : ∀ hook ∈ a.collectHook, CallsOnly hook
  sessionEndHooks : ∀ entry ∈ a.sessionEndHooks, CallsOnly entry.2

def Operation.CallsOnly : Operation ν → Prop
  | .setCollectHook hook => DeviceTelemetry.CallsOnly hook
  | .setSessionEndHook _ hook => DeviceTelemetry.CallsOnly hook
  | _ => True

/-! ### The store -/

theorem Idle.recordEvent {capacity : Nat} {s : RecordStore ν} (h : Idle capacity s)
    (device : Device) (e : Event) : Idle capacity (s.recordEvent device e).2 := by
  obtain ⟨q, represents, closed, size⟩ := h
  refine ⟨_, (represents.recordItems (e.items device)).2,
    RecordQueue.opened_writeRecord closed _, ?_⟩
  exact (RecordQueue.grows_writeRecord q _).capacity.trans size

theorem Idle.serves {capacity : Nat} {s s' : RecordStore ν} (h : Idle capacity s)
    (serves : ∀ {q : RecordQueue ν}, Represents s q → ∃ q', Represents s' q' ∧ Serves q q') :
    Idle capacity s' := by
  obtain ⟨q, represents, closed, size⟩ := h
  obtain ⟨q', represents', served⟩ := serves represents
  exact ⟨q', represents', served.opened.trans closed, served.capacity.trans size⟩

/-! ### Steps and rows of steps -/

section Steps

variable {c : Catalog} {device : Device} {capacity : Nat} {a a' : Agent ν} {parts : List Part}

theorem Sound.setTable (h : Sound c device capacity a) {t : Table}
    (step : Table.Follows a.table t) :
    Sound c device capacity { a with table := t } :=
  { h with catalog := step.catalog.trans h.catalog, slots := h.slots.follows step }

theorem Sound.record (h : Sound c device capacity a) (e : Event) :
    Sound c device capacity (a.record e).2 := by
  have idle := h.store.recordEvent a.device e
  cases answer : a.store.recordEvent a.device e with
  | mk result s =>
      rw [answer] at idle
      cases result with
      | ok n =>
          rw [record_of_ok answer]
          exact { h with store := idle }
      | error error =>
          rw [record_of_error answer]
          exact ⟨h.catalog, h.slots, h.device, idle, h.collectHook, h.sessionEndHooks⟩

theorem Sound.changes (h : Sound c device capacity a) {part : Part} (change : Changes a part a')
    (unhooked : part ≠ .hooks) : Sound c device capacity a' := by
  cases change with
  | call call => exact h.setTable (Table.follows_perform a.table call)
  | record e => exact h.record e
  | serve serves => exact { h with store := h.store.serves serves }
  | setHooks => exact absurd rfl unhooked
  | _ => exact ⟨h.catalog, h.slots, h.device, h.store, h.collectHook, h.sessionEndHooks⟩

theorem Sound.touches (h : Sound c device capacity a) (steps : Touches parts a a')
    (unhooked : .hooks ∉ parts) : Sound c device capacity a' :=
  steps.invariant h fun member change before =>
    before.changes change fun bad => unhooked (bad ▸ member)

theorem Sound.alterTable (h : Sound c device capacity a) {f : Table → Except MetricError Table}
    (call : Table.Call) (made : (a.table.settle (f a.table)).2 = (a.table.perform call).2) :
    Sound c device capacity (a.alterTable f).2 :=
  h.touches (touches_alterTable call made) (by decide)

theorem Sound.enter (h : Sound c device capacity a) :
    Sound c device capacity { a with platform.lock := a.platform.lock.enter } :=
  h.changes (.setLock _) nofun

theorem Sound.runHook (h : Sound c device capacity a) (point : HookPoint) (hook : Option Hook) :
    Sound c device capacity (a.runHook point hook) :=
  h.touches (touches_runHook a point hook) (by decide)

theorem Sound.refresh (h : Sound c device capacity a) (session : Nat) :
    Sound c device capacity (a.refresh session) :=
  h.touches (touches_refresh a session) (by decide)

end Steps

/-! ### Whole operations -/

section Operations

variable [Nonvolatile ν] {c : Catalog} {device : Device} {capacity : Nat} {a : Agent ν}

theorem Sound.setCollectHook (h : Sound c device capacity a) {hook : Hook}
    (calls : DeviceTelemetry.CallsOnly hook) :
    Sound c device capacity (a.perform (.setCollectHook hook)).2 where
  catalog := h.catalog
  slots := h.slots
  device := h.device
  store := h.store
  collectHook := by
    rintro hook' ⟨⟩
    exact calls
  sessionEndHooks := h.sessionEndHooks

theorem Sound.setSessionEndHook (h : Sound c device capacity a) (session : Nat) {hook : Hook}
    (calls : DeviceTelemetry.CallsOnly hook) :
    Sound c device capacity (a.perform (.setSessionEndHook session hook)).2 := by
  rw [Agent.perform, forSession]
  cases a.durationKey session with
  | error e => exact h
  | ok key =>
      refine ⟨h.catalog, h.slots, h.device, h.store, h.collectHook, ?_⟩
      intro entry member
      rcases List.mem_cons.mp member with rfl | earlier
      · exact calls
      · exact h.sessionEndHooks entry earlier

theorem Sound.perform (h : Sound c device capacity a) {op : Operation ν} (calls : op.CallsOnly) :
    Sound c device capacity (a.perform op).2 := by
  by_cases sets : .hooks ∈ op.touches
  · cases op with
    | setCollectHook hook => exact h.setCollectHook calls
    | setSessionEndHook session hook => exact h.setSessionEndHook session calls
    | _ => simp [Operation.touches, reportParts] at sets
  · exact h.touches (touches_perform a op) sets

theorem Sound.performAll (h : Sound c device capacity a) {ops : List (Operation ν)}
    (calls : ∀ op ∈ ops, op.CallsOnly) : Sound c device capacity (a.performAll ops).2 := by
  induction ops generalizing a with
  | nil => exact h
  | cons op ops ih =>
      have next := h.perform (calls op List.mem_cons_self)
      rw [Agent.performAll]
      exact ih next fun op member => calls op (List.mem_cons_of_mem _ member)

end Operations

/-! ### Boot -/

theorem boot_eq_ok {configuration : Configuration} {capacity : Nat} {platform : Platform}
    {a : Agent ν} (booted : boot configuration capacity platform = .ok a) :
    ∃ c, configuration.effectiveSchema.catalog = .ok c ∧
      Sound c configuration.device capacity a ∧
      (a.bootStatus = .ok ↔
        c.largestSize configuration.device + RecordStore.headerSize ≤ capacity) := by
  unfold boot at booted
  obtain ⟨c, resolved, booted⟩ := bind_eq_ok.mp booted
  obtain ⟨collectors, -, booted⟩ := bind_eq_ok.mp booted
  obtain ⟨s, made, booted⟩ := bind_eq_ok.mp booted
  rw [mapError_eq_ok] at made
  obtain rfl := pure_eq_ok.mp booted
  have fresh := RecordQueue.represents_ofCapacity made
  refine ⟨c, Configuration.catalog_eq_ok resolved, ?_, ?_⟩
  · exact
      { catalog := rfl
        slots := Table.fits_ofCatalog c
        device := rfl
        store := ⟨_, fresh.setBatchLimit _, rfl, rfl⟩
        collectHook := by
          intro hook member
          cases member
        sessionEndHooks := by
          intro entry member
          cases member }
  · by_cases fits : c.largestSize configuration.device + RecordStore.headerSize ≤ capacity
    · have checked : checkCapacity capacity (c.largestSize configuration.device) = .ok () :=
        if_pos fits
      dsimp only
      rw [checked]
      exact iff_of_true rfl fits
    · have refused : checkCapacity capacity (c.largestSize configuration.device) =
          .error (.storageTooSmall (c.largestSize configuration.device + RecordStore.headerSize)
            capacity) := if_neg fits
      dsimp only
      rw [refused]
      exact iff_of_false nofun fits

theorem unset_of_boot {configuration : Configuration} {capacity : Nat} {platform : Platform}
    {a : Agent ν} (booted : boot configuration capacity platform = .ok a) :
    a.table = .ofCatalog a.table.catalog ∧ a.droppedEvents = 0 := by
  unfold boot at booted
  obtain ⟨c, -, booted⟩ := bind_eq_ok.mp booted
  obtain ⟨collectors, -, booted⟩ := bind_eq_ok.mp booted
  obtain ⟨s, -, booted⟩ := bind_eq_ok.mp booted
  obtain rfl := pure_eq_ok.mp booted
  exact ⟨rfl, rfl⟩

end DeviceTelemetry.Agent
