import DeviceTelemetry.Proofs.Agent.TableCalls

/-!
# What heartbeats show of collected metrics

A metric that only its collector writes is not set between operations: each heartbeat sets it,
shows it and resets it. `Agent.Collects` is what holds of the metrics of a group between two
operations; an operation keeps it (`Collects.perform`), and what a heartbeat shows is what comes of
the calls of the collectors (`Collects.shows`), of which those of the group's collector matter.
-/

set_option autoImplicit false

namespace DeviceTelemetry

open Table (Call HasCount)

/-! ### Keys of groups -/

theorem Table.Holds.name_eq {t : Table} {d d' : MetricDef} {key : Nat} (h : t.Holds d key)
    (h' : t.Holds d' key) : d.name = d'.name := by
  obtain ⟨e, found, named, -⟩ := h.entry
  obtain ⟨e', found', named', -⟩ := h'.entry
  rw [found] at found'
  rw [← named, ← named', Option.some.inj found']

theorem Table.nodup_of_holds {t : Table} {ds : List MetricDef} {keys : List Nat}
    (holds : List.Forall₂ t.Holds ds keys) (unique : (ds.map (·.name)).Nodup) : keys.Nodup := by
  induction holds with
  | nil => exact .nil
  | cons here others ih =>
      rw [List.map_cons, List.nodup_cons] at unique
      refine List.nodup_cons.mpr ⟨?_, ih unique.2⟩
      intro twice
      obtain ⟨d', declared, there⟩ := exists_of_forall₂ others twice
      exact unique.1 (List.mem_map.mpr ⟨d', declared, (here.name_eq there).symm⟩)

theorem BuiltinGroups.names_ne {group other : BuiltinGroup} (apart : group ≠ other)
    {d d' : MetricDef} (here : d ∈ metricsOf group) (there : d' ∈ metricsOf other) :
    d.name ≠ d'.name := by
  have all : ∀ d ∈ metricsOf group, ∀ d' ∈ metricsOf other, d.name ≠ d'.name := by
    revert apart
    cases group <;> cases other <;> decide
  exact all d here d' there

theorem Collectors.Fits.not_mem_keys {groups : BuiltinGroups} {t : Table} {c : Collectors}
    (fits : Fits groups t c) {group other : BuiltinGroup} (apart : group ≠ other)
    {keys keys' : List Nat} (here : c.keys group = some keys) (there : c.keys other = some keys')
    {key : Nat} (member : key ∈ keys) : key ∉ keys' := by
  intro member'
  obtain ⟨d, declared, holds⟩ := exists_of_forall₂ (fits.holds here) member
  obtain ⟨d', declared', holds'⟩ := exists_of_forall₂ (fits.holds there) member'
  exact BuiltinGroups.names_ne apart declared declared' (holds.name_eq holds')

namespace Agent

variable {ν : Type}

/-! ### Regular heartbeats -/

/-- The clock does not go back, and each heartbeat comes less than `bound` milliseconds after the
one before, the first of which was at `last`. -/
def Regular (bound : Nat) : UInt64 → UInt64 → List (Operation ν) → Prop
  | _, _, [] => True
  | last, now, op :: ops =>
    now.toNat ≤ (op.clock now).toNat ∧ (op.isCycle = true → now.toNat < last.toNat + bound) ∧
      Regular bound (if op.isCycle then now else last) (op.clock now) ops

instance decidableRegular (bound : Nat) :
    (last now : UInt64) → (ops : List (Operation ν)) → Decidable (Regular bound last now ops)
  | _, _, [] => isTrue trivial
  | last, now, op :: ops =>
    have := decidableRegular bound (if op.isCycle then now else last) (op.clock now) ops
    inferInstanceAs (Decidable (_ ∧ _ ∧ _))

def lastBeat : UInt64 → UInt64 → List (Operation ν) → UInt64
  | last, _, [] => last
  | last, now, op :: ops => lastBeat (if op.isCycle then now else last) (op.clock now) ops

theorem Regular.short {bound : Nat} {last now : UInt64} {ops : List (Operation ν)}
    {beat : Operation ν} (regular : Regular bound last now (ops ++ [beat]))
    (cycle : beat.isCycle = true) : now.toNat < last.toNat + bound := by
  induction ops generalizing last now with
  | nil => exact regular.2.1 cycle
  | cons op ops ih =>
      obtain ⟨forward, short, rest⟩ := regular
      by_cases here : op.isCycle = true
      · exact short here
      · have later := ih rest
        rw [if_neg here] at later
        omega

/-! ### What is written and shown -/

def Operation.setKey? : Operation ν → Option Nat
  | .setUnsigned key _ | .add key _ => some key
  | _ => none

/-- An operation or its hook writes a metric. If it is a hook of the heartbeat, taking away what has
been collected is writing as well. -/
def Writes (a : Agent ν) (key : Nat) (op : Operation ν) : Prop :=
  op.setKey? = some key ∨ ∃ call ∈ callsOf (a.hookOf op),
    call.Sets key ∨ op.isCycle = true ∧ call.Forgets a.table.catalog key

instance (a : Agent ν) (key : Nat) (op : Operation ν) : Decidable (a.Writes key op) :=
  inferInstanceAs (Decidable (_ ∨ _))

/-- The event of an operation shows a number under a key, or that none is set. -/
def Shows (a : Agent ν) (op : Operation ν) (key : Nat) (n : Option UInt32) : Prop :=
  ∃ e, a.ownEvent op = some e ∧ e.reading? a.table.catalog key = some (.unsigned n)

variable [Nonvolatile ν]

def Unwritten (keys : List Nat) (a : Agent ν) : List (Operation ν) → Prop
  | [] => True
  | op :: ops => (∀ key ∈ keys, ¬a.Writes key op) ∧ Unwritten keys (a.perform op).2 ops

instance decidableUnwritten (keys : List Nat) (a : Agent ν) :
    (ops : List (Operation ν)) → Decidable (a.Unwritten keys ops)
  | [] => isTrue trivial
  | op :: ops =>
    have := decidableUnwritten keys (a.perform op).2 ops
    inferInstanceAs (Decidable (_ ∧ _))

theorem unwritten_append {keys : List Nat} {a : Agent ν} {first second : List (Operation ν)} :
    a.Unwritten keys (first ++ second) ↔
      a.Unwritten keys first ∧ (a.performAll first).2.Unwritten keys second := by
  induction first generalizing a with
  | nil => exact (iff_of_eq (true_and _)).symm
  | cons op first ih => exact (and_congr_right fun _ => ih).trans and_assoc.symm

/-! ### Collected metrics -/

/-- The keys are those under which the collector of a group knows its metrics. -/
structure Knows (groups : BuiltinGroups) (c : Catalog) (group : BuiltinGroup) (keys : List Nat)
    (a : Agent ν) : Prop where
  catalog : a.table.catalog = c
  beats : Catalog.heartbeat < c.sessionCount
  fits : a.table.Fits
  collectors : a.collectors.Fits groups a.table
  known : a.collectors.keys group = some keys

/-- The metrics of a group are known, and not set. -/
structure Collects (groups : BuiltinGroups) (c : Catalog) (group : BuiltinGroup) (keys : List Nat)
    (a : Agent ν) : Prop extends Knows groups c group keys a where
  unset : ∀ key ∈ keys, a.table.HasCount key none

section Collects

variable {groups : BuiltinGroups} {c : Catalog} {group : BuiltinGroup} {keys : List Nat}
  {a : Agent ν} {op : Operation ν} {key : Nat}

omit [Nonvolatile ν]

theorem Knows.nodup (h : a.Knows groups c group keys) : keys.Nodup := by
  have unique : ((BuiltinGroups.metricsOf group).map (·.name)).Nodup := by
    cases group <;> decide
  exact Table.nodup_of_holds (h.collectors.holds h.known) unique

theorem Knows.inSession (h : a.Knows groups c group keys) (member : key ∈ keys) :
    c.InSession Catalog.heartbeat key := by
  obtain ⟨d, -, holds⟩ := exists_of_forall₂ (h.collectors.holds h.known) member
  obtain ⟨e, found, -, -, beat⟩ := holds.entry
  rw [h.catalog] at found
  exact (Catalog.inSession_iff found).mpr beat.symm

theorem not_sets_of_hookOf (unwritten : ¬a.Writes key op) :
    ∀ call ∈ callsOf (a.hookOf op), ¬call.Sets key :=
  fun call member sets => unwritten (.inr ⟨call, member, .inl sets⟩)

theorem Knows.not_sets_countSync (h : a.Knows groups c group keys) (other : group ≠ .sync)
    (member : key ∈ keys) (success : Bool) :
    ∀ call ∈ a.collectors.syncCalls success, ¬call.Sets key := by
  unfold Collectors.syncCalls
  cases enabled : a.collectors.sync with
  | none => simp
  | some counters =>
      have there : a.collectors.keys .sync = some [counters.successful, counters.failure] :=
        congrArg (Option.map SyncCounters.keys) enabled
      have apart := h.collectors.not_mem_keys other h.known there member
      simp only [List.mem_cons, List.not_mem_nil, or_false, not_or] at apart
      cases success <;> simp [Call.Sets, Ne.symm apart.1, Ne.symm apart.2]

/-- Nothing but a heartbeat gives a number to a metric that is written by its collector only. -/
theorem Knows.not_sets (h : a.Knows groups c group keys) (other : group ≠ .sync)
    (member : key ∈ keys) (plain : op.isCycle = false) (unwritten : ¬a.Writes key op) :
    ∀ call ∈ a.calls op, ¬call.Sets key := by
  cases op with
  | setUnsigned key' n =>
      simp only [Writes, Operation.setKey?, Option.some.injEq, not_or] at unwritten
      simpa [calls, Call.Sets] using unwritten.1
  | add key' amount =>
      simp only [Writes, Operation.setKey?, Option.some.injEq, not_or] at unwritten
      simpa [calls, Call.Sets] using unwritten.1
  | startSession session =>
      show ∀ call ∈ a.beginningCalls session, _
      unfold beginningCalls
      cases a.durationKey session <;> simp [Call.Sets]
  | endSession session =>
      have hook : ∀ call ∈ callsOf (a.endingHook session), ¬call.Sets key :=
        not_sets_of_hookOf unwritten
      show ∀ call ∈ a.endingCalls session, _
      unfold endingCalls
      cases a.durationKey session with
      | error e => simp
      | ok duration =>
          intro call row
          simp only [List.mem_append, List.mem_singleton] at row
          rcases row with (row | rfl) | row
          · exact hook call row
          · simp [Call.Sets]
          · split at row
            · rcases List.mem_pair.mp row with rfl | rfl <;> simp [Call.Sets]
            · simp at row
  | collect session =>
      have user : session ≠ Catalog.heartbeat := of_decide_eq_false plain
      show ∀ call ∈ a.collectionCalls session, _
      by_cases known : session < a.table.catalog.sessionCount
      · rw [collectionCalls_of_user known user]
        simp [Call.Sets]
      · simp [collectionCalls, known]
  | heartbeat => cases plain
  | changeConnection state =>
      show ∀ call ∈ a.collectors.connectionCalls state a.now, _
      unfold Collectors.connectionCalls
      cases a.collectors.connectivity with
      | none => simp
      | some k => cases state <;> simp [Connectivity.calls, Call.Sets]
  | countSync success => exact h.not_sets_countSync other member success
  | _ => simp [calls, Call.Sets]

/-! ### One heartbeat -/

theorem calls_of_isCycle (cycle : op.isCycle = true) :
    a.calls op = a.collectionCalls Catalog.heartbeat := by
  cases op with
  | heartbeat => rfl
  | collect session =>
      obtain rfl : session = Catalog.heartbeat := of_decide_eq_true cycle
      rfl
  | _ => cases cycle

theorem ownEvent_of_isCycle (cycle : op.isCycle = true)
    (known : Catalog.heartbeat < a.table.catalog.sessionCount) :
    a.ownEvent op = some (a.currentEvent Catalog.heartbeat) ∧
      a.hookOf op = a.collectionHook Catalog.heartbeat := by
  cases op with
  | heartbeat => exact ⟨if_pos known, rfl⟩
  | collect session =>
      obtain rfl : session = Catalog.heartbeat := of_decide_eq_true cycle
      exact ⟨if_pos known, rfl⟩
  | _ => cases cycle

theorem foldl_count_refreshCalls (cycle : op.isCycle = true)
    (known : Catalog.heartbeat < a.table.catalog.sessionCount) (unwritten : ¬a.Writes key op)
    (n : Option UInt32) :
    (a.refreshCalls Catalog.heartbeat).foldl (Call.count a.table.catalog key) n =
      (a.collectors.calls a.platform.gauge a.now).foldl (Call.count a.table.catalog key) n := by
  have hook : ∀ call ∈ callsOf (a.collectionHook Catalog.heartbeat),
      ¬call.Sets key ∧ ¬call.Forgets a.table.catalog key := by
    rw [← (ownEvent_of_isCycle cycle known).2]
    intro call member
    constructor
    · intro sets
      exact unwritten (.inr ⟨call, member, .inl sets⟩)
    · intro forgets
      exact unwritten (.inr ⟨call, member, .inr ⟨cycle, forgets⟩⟩)
  rw [refreshCalls, List.foldl_append, Table.foldl_count_of_not_sets hook, if_pos rfl]
  rfl

/-- A heartbeat shows the number that the collectors give to a metric. -/
theorem Collects.shows (h : a.Collects groups c group keys) (member : key ∈ keys)
    (cycle : op.isCycle = true) (unwritten : ¬a.Writes key op) :
    a.Shows op key
      ((a.collectors.calls a.platform.gauge a.now).foldl (Call.count c key) none) := by
  have inside := h.inSession member
  have unset := h.unset key member
  obtain ⟨⟨catalog, beats, fits, collectors, -⟩, -⟩ := h
  subst catalog
  refine ⟨_, (ownEvent_of_isCycle cycle beats).1, ?_⟩
  rw [currentEvent, table_refresh beats]
  have shown := unset.performAll fits (a.refreshCalls Catalog.heartbeat)
  rw [← reportedTable_eq collectors, foldl_count_refreshCalls cycle beats unwritten] at shown
  have same := catalog_reportedTable (a := a) beats
  have keyed : key ∈ (a.reportedTable Catalog.heartbeat).catalog.sessionKeys Catalog.heartbeat := by
    rw [same]
    exact Catalog.mem_sessionKeys.mpr inside
  have read := Table.reading?_sessionEvent (fits_reportedTable beats fits) keyed shown
  rw [same] at read
  exact read

theorem Knows.foldl_count_calls (h : a.Knows groups c group keys) (other : group ≠ .sync)
    (member : key ∈ keys) (unwritten : ¬a.Writes key op) :
    (a.calls op).foldl (Call.count c key) none = none := by
  by_cases cycle : op.isCycle = true
  · have beats : Catalog.heartbeat < a.table.catalog.sessionCount := h.catalog ▸ h.beats
    rw [calls_of_isCycle cycle, collectionCalls, if_pos beats, List.foldl_append]
    exact if_pos (h.inSession member)
  · exact Table.foldl_count_none
      (h.not_sets other member (Bool.eq_false_of_not_eq_true cycle) unwritten)

/-! ### What the group's collector gives -/

theorem Knows.foldl_count_reliability (h : a.Knows groups c .reliability keys)
    {r : Reliability} (here : a.collectors.reliability = some r) (member : key ∈ keys) :
    (a.collectors.calls a.platform.gauge a.now).foldl (Call.count c key) none =
      (r.calls a.now).foldl (Call.count c key) none := by
  rw [Collectors.calls, List.foldl_append, here, Option.elim_some]
  cases enabled : a.collectors.battery with
  | none => rfl
  | some b =>
      have there : a.collectors.keys .battery = some b.keys :=
        congrArg (Option.map Battery.keys) enabled
      exact Table.foldl_count_of_key_ne
        (h.collectors.not_mem_keys (by decide) h.known there member) Battery.mem_keys_of_calls

theorem Knows.foldl_count_battery (h : a.Knows groups c .battery keys) {b : Battery}
    (here : a.collectors.battery = some b) (member : key ∈ keys) :
    (a.collectors.calls a.platform.gauge a.now).foldl (Call.count c key) none =
      (b.calls a.platform.gauge a.now).foldl (Call.count c key) none := by
  rw [Collectors.calls, List.foldl_append, here, Option.elim_some]
  cases enabled : a.collectors.reliability with
  | none => rfl
  | some r =>
      have there : a.collectors.keys .reliability = some r.keys :=
        congrArg (Option.map Reliability.keys) enabled
      rw [Option.elim_some, Table.foldl_count_of_key_ne
        (h.collectors.not_mem_keys (by decide) h.known there member) Reliability.mem_keys_of_calls]

/-! ### Lives -/

theorem new_of_boot {configuration : Configuration} {capacity : Nat} {platform : Platform}
    (booted : boot configuration capacity platform = .ok a) :
    (∀ r, a.collectors.reliability = some r →
      r = { hours := r.hours, crashFreeHours := r.crashFreeHours, lastHeartbeat := a.now }) ∧
    ∀ b, a.collectors.battery = some b → b.monitored = false := by
  unfold boot at booted
  obtain ⟨c, -, booted⟩ := bind_eq_ok.mp booted
  obtain ⟨collectors, made, booted⟩ := bind_eq_ok.mp booted
  obtain ⟨s, -, booted⟩ := bind_eq_ok.mp booted
  obtain rfl := pure_eq_ok.mp booted
  exact Collectors.new_ofCatalog (mapError_eq_ok.mp made)

theorem knows_of_boot (group : BuiltinGroup) {configuration : Configuration} {capacity : Nat}
    {platform : Platform} (booted : boot configuration capacity platform = .ok a)
    (enabled : configuration.builtins.enabled group = true) :
    ∃ keys, a.Knows configuration.builtins a.table.catalog group keys ∧
      List.Forall₂ a.table.Holds (BuiltinGroups.metricsOf group) keys := by
  obtain ⟨c, valid, sound, -⟩ := boot_eq_ok booted
  have fits := fits_of_boot booted
  have found := fits group
  rw [if_pos enabled] at found
  obtain ⟨keys, known, holds⟩ := found
  refine ⟨keys, ⟨rfl, ?_, sound.slots, fits, known⟩, holds⟩
  rw [sound.catalog]
  exact Schema.heartbeat_lt valid

theorem collects_of_boot (group : BuiltinGroup) {configuration : Configuration} {capacity : Nat}
    {platform : Platform} (booted : boot configuration capacity platform = .ok a)
    (enabled : configuration.builtins.enabled group = true)
    (numbers : ∀ d ∈ BuiltinGroups.metricsOf group, d.kind = .unsigned) :
    ∃ keys, a.Collects configuration.builtins a.table.catalog group keys ∧
      List.Forall₂ a.table.Holds (BuiltinGroups.metricsOf group) keys := by
  obtain ⟨keys, knows, holds⟩ := knows_of_boot group booted enabled
  refine ⟨keys, ⟨knows, ?_⟩, holds⟩
  intro key member
  obtain ⟨d, declared, holds⟩ := exists_of_forall₂ holds member
  obtain ⟨e, entry, -, kind, -⟩ := holds.entry
  rw [(unset_of_boot booted).1]
  exact Table.hasCount_ofCatalog entry (kind.trans (numbers d declared))

variable [Nonvolatile ν]

theorem Knows.perform (h : a.Knows groups c group keys) (op : Operation ν) :
    (a.perform op).2.Knows groups c group keys := by
  have retained := Retains.perform a op
  exact ⟨retained.table.catalog.trans h.catalog, h.beats, h.fits.follows retained.table,
    retained.fits h.collectors, (retained.collectors.keys group).trans h.known⟩

theorem Knows.performAll (h : a.Knows groups c group keys) (ops : List (Operation ν)) :
    (a.performAll ops).2.Knows groups c group keys := by
  induction ops generalizing a with
  | nil => exact h
  | cons op ops ih => exact ih (h.perform op)

theorem Collects.perform (h : a.Collects groups c group keys) (other : group ≠ .sync)
    (unwritten : ∀ key ∈ keys, ¬a.Writes key op) :
    (a.perform op).2.Collects groups c group keys := by
  have beats : Catalog.heartbeat < a.table.catalog.sessionCount := h.catalog ▸ h.beats
  refine ⟨h.toKnows.perform op, ?_⟩
  intro key member
  have next := (h.unset key member).performAll h.fits (a.calls op)
  rw [h.catalog, h.foldl_count_calls other member (unwritten key member)] at next
  rwa [(makes_perform h.collectors beats op).table]

theorem Collects.performAll (h : a.Collects groups c group keys) (other : group ≠ .sync)
    {ops : List (Operation ν)} (unwritten : a.Unwritten keys ops) :
    (a.performAll ops).2.Collects groups c group keys := by
  induction ops generalizing a with
  | nil => exact h
  | cons op ops ih => exact ih (h.perform other unwritten.1) unwritten.2

end Collects

end Agent

end DeviceTelemetry
