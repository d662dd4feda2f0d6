import DeviceTelemetry.Proofs.Agent.Steps
import DeviceTelemetry.Proofs.TableCounts

/-!
# What collectors count on

The keys of a group are found by the names of its metrics (`Collectors.keys_ofCatalog`). As long as
they are keys of such metrics (`Collectors.Fits`), whatever the group does to the table succeeds,
and none of the steps of collecting fails (`Collectors.Fits.collectStrictly`).
-/

set_option autoImplicit false

namespace DeviceTelemetry

open Table (Call Follows)

/-! ### Slots of a known kind -/

theorem Slot.Follows.kind_eq {slot slot' : Slot} (step : Slot.Follows slot slot') :
    slot'.kind = slot.kind := by
  cases step <;> rfl

namespace Table

variable {t t' : Table} {key : Nat} {kind : MetricKind}

theorem kindOf_eq_ok :
    t.kindOf key = .ok kind ↔ ∃ slot, t.slots[key]? = some slot ∧ slot.kind = kind := by
  simp only [Table.kindOf]
  rw [change_eq_ok]
  exact exists_congr fun slot => and_congr_right fun _ => pure_eq_ok

theorem Fits.kindOf (fits : t.Fits) {e : Catalog.Entry} (found : t.catalog.metric? key = some e) :
    t.kindOf key = .ok e.kind := by
  have kind := fits.kind_eq key
  rw [found, Option.map_some, Option.map_eq_some_iff] at kind
  exact kindOf_eq_ok.mpr kind

theorem Follows.kindOf (step : Follows t t') (known : t.kindOf key = .ok kind) :
    t'.kindOf key = .ok kind := by
  obtain ⟨slot, found, rfl⟩ := kindOf_eq_ok.mp known
  have after := step.slots key
  rw [found] at after
  generalize here : t'.slots[key]? = found' at after
  cases after with
  | some step => exact kindOf_eq_ok.mpr ⟨_, here, step.kind_eq⟩

theorem exists_unsigned (known : t.kindOf key = .ok .unsigned) :
    ∃ n, t.slots[key]? = some (.unsigned n) := by
  obtain ⟨slot, found, kind⟩ := kindOf_eq_ok.mp known
  cases slot with
  | unsigned n => exact ⟨n, found⟩
  | signed n => cases kind
  | timer timer => cases kind
  | text limit s => cases kind

theorem exists_add (known : t.kindOf key = .ok .unsigned) (amount : Int32) :
    ∃ t', t.add key amount = .ok t' := by
  obtain ⟨n, found⟩ := exists_unsigned known
  exact ⟨_, add_eq_ok.mpr (.inl ⟨n, found, rfl⟩)⟩

theorem exists_setUnsigned (known : t.kindOf key = .ok .unsigned) (n : UInt32) :
    ∃ t', t.setUnsigned key n = .ok t' := by
  obtain ⟨m, found⟩ := exists_unsigned known
  exact ⟨_, setUnsigned_eq_ok.mpr ⟨m, found, rfl⟩⟩

def Counts (t : Table) (call : Call) : Prop :=
  ∃ key, call.Sets key ∧ t.kindOf key = .ok .unsigned

theorem Follows.counts {call : Call} (step : Follows t t') (counts : t.Counts call) :
    t'.Counts call := by
  obtain ⟨key, sets, known⟩ := counts
  exact ⟨key, sets, step.kindOf known⟩

theorem Counts.perform {call : Call} (counts : t.Counts call) :
    (t.perform call).1 = .ok .done := by
  obtain ⟨key, sets, known⟩ := counts
  cases call with
  | setUnsigned key' n =>
      obtain rfl : key' = key := sets
      obtain ⟨t', done⟩ := exists_setUnsigned known n
      rw [Table.perform, done]
      rfl
  | add key' amount =>
      obtain rfl : key' = key := sets
      obtain ⟨t', done⟩ := exists_add known amount
      rw [Table.perform, done]
      rfl
  | _ => cases sets

theorem performUntilRefused_of_counts {calls : List Call}
    (counts : ∀ call ∈ calls, t.Counts call) :
    t.performUntilRefused calls = (.ok (), (t.performAll calls).2) := by
  induction calls generalizing t with
  | nil => rfl
  | cons call calls ih =>
      have later := ih (t := (t.perform call).2) fun call' member =>
        (follows_perform t call).counts (counts call' (.tail _ member))
      have done := (counts call (.head _)).perform
      rw [performUntilRefused, performAll, ← later]
      cases answered : t.perform call with
      | mk answer t' =>
          rw [answered] at done
          cases done
          rfl

def WorksFor (t : Table) (call : Call) : Prop :=
  ∃ key kind, call.key? = some key ∧ t.kindOf key = .ok kind ∧ kind ∈ call.kinds

theorem Follows.worksFor {call : Call} (step : Follows t t') (works : t.WorksFor call) :
    t'.WorksFor call := by
  obtain ⟨key, kind, keyed, known, works⟩ := works
  exact ⟨key, kind, keyed, step.kindOf known, works⟩

/-- All that can keep such a call from being done is a timer that is in the requested state. -/
theorem WorksFor.perform {call : Call} (works : t.WorksFor call) :
    (∃ answer, (t.perform call).1 = .ok answer) ∨
      ∃ key, (t.perform call).1 = .error (.noChange key) := by
  obtain ⟨key, kind, keyed, known, works⟩ := works
  obtain ⟨slot, found, rfl⟩ := kindOf_eq_ok.mp known
  rw [perform_of_kind keyed found works]
  cases call.onSlot slot with
  | none => exact .inr ⟨key, rfl⟩
  | some outcome => exact .inl ⟨outcome.1, rfl⟩

end Table

theorem Connectivity.firstError_performAll {t : Table} {calls : List Table.Call}
    (works : ∀ call ∈ calls, t.WorksFor call) : firstError (t.performAll calls).1 = .ok () := by
  induction calls generalizing t with
  | nil => rfl
  | cons call calls ih =>
      have later := ih (t := (t.perform call).2) fun call' member =>
        (Table.follows_perform t call).worksFor (works call' (List.mem_cons_of_mem _ member))
      rw [Table.performAll]
      rcases (works call List.mem_cons_self).perform with ⟨answer, first⟩ | ⟨key, first⟩
      · dsimp only
        rw [first, firstError]
        exact later
      · dsimp only
        rw [first, firstError]
        exact later

/-! ### Keys of collectors -/

def Connectivity.keys (k : Connectivity) : List Nat := [k.connected, k.expected]

def SyncCounters.keys (k : SyncCounters) : List Nat := [k.successful, k.failure]

def Reliability.keys (r : Reliability) : List Nat := [r.hours, r.crashFreeHours]

def Battery.keys (b : Battery) : List Nat := [b.charge, b.chargeDrop, b.dischargeDuration]

theorem Reliability.keys_counted (r : Reliability) (now : UInt64) :
    (r.counted now).keys = r.keys := rfl

theorem Battery.keys_sampled (b : Battery) (gauge : Gauge) (now : UInt64) :
    (b.sampled gauge now).keys = b.keys := by
  unfold sampled
  split <;> rfl

theorem Reliability.sets_of_mem_calls {r : Reliability} {now : UInt64} {call : Call}
    (member : call ∈ r.calls now) : ∃ key ∈ r.keys, call.Sets key := by
  unfold calls at member
  split at member
  · cases member
  · rcases List.mem_pair.mp member with rfl | rfl
    · exact ⟨_, List.mem_cons_self, rfl⟩
    · exact ⟨_, List.mem_cons_of_mem _ List.mem_cons_self, rfl⟩

theorem Battery.sets_of_mem_calls {b : Battery} {gauge : Gauge} {now : UInt64} {call : Call}
    (member : call ∈ b.calls gauge now) : ∃ key ∈ b.keys, call.Sets key := by
  unfold calls at member
  split at member
  · split at member <;> simp_all [keys, Call.Sets]
    rcases member with rfl | rfl | rfl <;> simp
  · cases member

/-- The key is the one of a metric as it is declared, which belongs to the heartbeat. -/
structure Table.Holds (t : Table) (d : MetricDef) (key : Nat) : Prop where
  found : t.catalog.keyOf? d.name = some key
  entry : ∃ e, t.catalog.metric? key = some e ∧ e.name = d.name ∧ e.kind = d.kind ∧
    e.session = Catalog.heartbeat
  kind : t.kindOf key = .ok d.kind

theorem Table.Follows.holds {t t' : Table} (step : Follows t t') {d : MetricDef} {key : Nat}
    (holds : t.Holds d key) : t'.Holds d key where
  found := step.catalog ▸ holds.found
  entry := step.catalog ▸ holds.entry
  kind := step.kindOf holds.kind

theorem BuiltinGroups.session_eq_none {group : BuiltinGroup} {d : MetricDef}
    (member : d ∈ metricsOf group) : d.session = none := by
  have all : ∀ d ∈ metricsOf group, d.session = none := by cases group <;> decide
  exact all d member

namespace Collectors

/-- The keys of a group's metrics in their order, if the group is enabled. -/
def keys (c : Collectors) : BuiltinGroup → Option (List Nat)
  | .connectivity => c.connectivity.map Connectivity.keys
  | .sync => c.sync.map SyncCounters.keys
  | .reliability => c.reliability.map Reliability.keys
  | .battery => c.battery.map Battery.keys

def collectStrictly (c : Collectors) (t : Table) (gauge : Gauge) (now : UInt64) :
    Except MetricError (Table × Collectors) := do
  let (counted, t) := c.reliability.elim (.ok (), t) fun r => r.collect t now
  counted
  let (sampled, t) := c.battery.elim (.ok (), t) fun b => b.collect t gauge now
  sampled
  return (t, c.collected gauge now)

theorem key_eq_ok {c : Catalog} {name : String} {k : Nat} :
    Collectors.key c name = .ok k ↔ c.keyOf? name = some k := by
  unfold key
  cases c.keyOf? name with
  | none => exact iff_of_false nofun nofun
  | some k' => rw [Except.ok.injEq, Option.some.injEq]

theorem keys_whenEnabled {α : Type} {enabled : Bool} {value : Except SchemaError α} {x : Option α}
    (found : whenEnabled enabled value = .ok x) {keysOf : α → List Nat} {P : List Nat → Prop}
    (resolved : ∀ v, value = .ok v → P (keysOf v)) :
    if enabled then ∃ keys, x.map keysOf = some keys ∧ P keys else x.map keysOf = none := by
  cases enabled with
  | false =>
      obtain rfl := Except.ok.inj found
      rfl
  | true =>
      cases value with
      | error e => cases found
      | ok v =>
          obtain rfl := Except.ok.inj found
          exact ⟨_, rfl, resolved v rfl⟩

theorem keys_ofCatalog {groups : BuiltinGroups} {c : Catalog} {now : UInt64}
    {collectors : Collectors} (made : ofCatalog groups c now = .ok collectors)
    (group : BuiltinGroup) :
    if groups.enabled group then
      ∃ keys, collectors.keys group = some keys ∧
        List.Forall₂ (fun d key => c.keyOf? d.name = some key) (BuiltinGroups.metricsOf group) keys
    else collectors.keys group = none := by
  unfold ofCatalog at made
  obtain ⟨connectivity, madeConnectivity, made⟩ := bind_eq_ok.mp made
  obtain ⟨sync, madeSync, made⟩ := bind_eq_ok.mp made
  obtain ⟨reliability, madeReliability, made⟩ := bind_eq_ok.mp made
  obtain ⟨battery, madeBattery, made⟩ := bind_eq_ok.mp made
  obtain rfl := pure_eq_ok.mp made
  cases group with
  | connectivity =>
      refine keys_whenEnabled madeConnectivity fun v found => ?_
      obtain ⟨connected, first, found⟩ := bind_eq_ok.mp found
      obtain ⟨expected, second, found⟩ := bind_eq_ok.mp found
      obtain rfl := pure_eq_ok.mp found
      exact .cons (key_eq_ok.mp first) (.cons (key_eq_ok.mp second) .nil)
  | sync =>
      refine keys_whenEnabled madeSync fun v found => ?_
      obtain ⟨successful, first, found⟩ := bind_eq_ok.mp found
      obtain ⟨failure, second, found⟩ := bind_eq_ok.mp found
      obtain rfl := pure_eq_ok.mp found
      exact .cons (key_eq_ok.mp first) (.cons (key_eq_ok.mp second) .nil)
  | reliability =>
      refine keys_whenEnabled madeReliability fun v found => ?_
      obtain ⟨hours, first, found⟩ := bind_eq_ok.mp found
      obtain ⟨crashFreeHours, second, found⟩ := bind_eq_ok.mp found
      obtain rfl := pure_eq_ok.mp found
      exact .cons (key_eq_ok.mp first) (.cons (key_eq_ok.mp second) .nil)
  | battery =>
      refine keys_whenEnabled madeBattery fun v found => ?_
      obtain ⟨charge, first, found⟩ := bind_eq_ok.mp found
      obtain ⟨chargeDrop, second, found⟩ := bind_eq_ok.mp found
      obtain ⟨dischargeDuration, third, found⟩ := bind_eq_ok.mp found
      obtain rfl := pure_eq_ok.mp found
      exact .cons (key_eq_ok.mp first)
        (.cons (key_eq_ok.mp second) (.cons (key_eq_ok.mp third) .nil))

/-- The keys of the groups that are enabled, and of no other, are those of their metrics. -/
def Fits (groups : BuiltinGroups) (t : Table) (c : Collectors) : Prop :=
  ∀ group, if groups.enabled group then
      ∃ keys, c.keys group = some keys ∧
        List.Forall₂ t.Holds (BuiltinGroups.metricsOf group) keys
    else c.keys group = none

/-! ### Collecting -/

section Collecting

variable {groups : BuiltinGroups} {t : Table} {c : Collectors}

theorem Fits.holds (fits : Fits groups t c) {group : BuiltinGroup} {keys : List Nat}
    (here : c.keys group = some keys) :
    List.Forall₂ t.Holds (BuiltinGroups.metricsOf group) keys := by
  have found := fits group
  split at found
  · obtain ⟨keys', same, holds⟩ := found
    rw [here] at same
    cases same
    exact holds
  · rw [here] at found
    cases found

theorem Fits.changeConnection (fits : Fits groups t c) {k : Connectivity}
    (enabled : c.connectivity = some k) (state : ConnectionState) (now : UInt64) :
    (c.changeConnection t state now).1 = .ok () := by
  have holds : List.Forall₂ t.Holds (BuiltinGroups.metricsOf .connectivity)
      [k.connected, k.expected] := fits.holds (congrArg (Option.map _) enabled)
  obtain ⟨connected, others⟩ := List.forall₂_cons.mp holds
  obtain ⟨expected, -⟩ := List.forall₂_cons.mp others
  have start {key : Nat} (known : t.kindOf key = .ok .timer) : t.WorksFor (.startTimer key now) :=
    ⟨key, .timer, rfl, known, .head _⟩
  have stop {key : Nat} (known : t.kindOf key = .ok .timer) : t.WorksFor (.stopTimer key now) :=
    ⟨key, .timer, rfl, known, .head _⟩
  have both {first second : Table.Call} (works : t.WorksFor first) (works' : t.WorksFor second) :
      ∀ call ∈ [first, second], t.WorksFor call :=
    List.forall_mem_cons.mpr ⟨works, List.forall_mem_singleton.mpr works'⟩
  rw [Collectors.changeConnection, enabled]
  refine Connectivity.firstError_performAll ?_
  cases state with
  | stopped => exact both (stop expected.kind) (stop connected.kind)
  | started => exact List.forall_mem_singleton.mpr (start expected.kind)
  | connected => exact both (start expected.kind) (start connected.kind)
  | lost => exact both (start expected.kind) (stop connected.kind)

theorem Fits.countSync (fits : Fits groups t c) {k : SyncCounters} (enabled : c.sync = some k)
    (success : Bool) : ∃ t', c.countSync t success = .ok t' := by
  have holds : List.Forall₂ t.Holds (BuiltinGroups.metricsOf .sync) [k.successful, k.failure] :=
    fits.holds (congrArg (Option.map _) enabled)
  obtain ⟨successful, others⟩ := List.forall₂_cons.mp holds
  obtain ⟨failure, -⟩ := List.forall₂_cons.mp others
  rw [Collectors.countSync, enabled]
  cases success with
  | true => exact Table.exists_add successful.kind 1
  | false => exact Table.exists_add failure.kind 1

theorem Fits.kindOf_unsigned (fits : Fits groups t c) {group : BuiltinGroup}
    (numbers : ∀ d ∈ BuiltinGroups.metricsOf group, d.kind = .unsigned) {keys : List Nat}
    (here : c.keys group = some keys) {key : Nat} (member : key ∈ keys) :
    t.kindOf key = .ok .unsigned := by
  obtain ⟨d, declared, holds⟩ := exists_of_forall₂ (fits.holds here) member
  exact (numbers d declared) ▸ holds.kind

theorem Fits.countHours (fits : Fits groups t c) {r : Reliability}
    (enabled : c.reliability = some r) (now : UInt64) :
    r.collect t now = (.ok (), (t.performAll (r.calls now)).2) := by
  have known : c.keys .reliability = some r.keys := congrArg (Option.map _) enabled
  refine Table.performUntilRefused_of_counts fun call member => ?_
  obtain ⟨key, mine, sets⟩ := Reliability.sets_of_mem_calls member
  exact ⟨key, sets, fits.kindOf_unsigned (by decide) known mine⟩

theorem Fits.sample (fits : Fits groups t c) {b : Battery} (enabled : c.battery = some b)
    (gauge : Gauge) (now : UInt64) :
    b.collect t gauge now = (.ok (), (t.performAll (b.calls gauge now)).2) := by
  have known : c.keys .battery = some b.keys := congrArg (Option.map _) enabled
  refine Table.performUntilRefused_of_counts fun call member => ?_
  obtain ⟨key, mine, sets⟩ := Battery.sets_of_mem_calls member
  exact ⟨key, sets, fits.kindOf_unsigned (by decide) known mine⟩

theorem Fits.follows (fits : Fits groups t c) {t' : Table} (step : Follows t t') :
    Fits groups t' c := by
  intro group
  have found := fits group
  split at found
  · obtain ⟨keys, here, holds⟩ := found
    rw [if_pos ‹_›]
    exact ⟨keys, here, holds.imp fun _ _ => step.holds⟩
  · rw [if_neg ‹_›]
    exact found

def calls (c : Collectors) (gauge : Gauge) (now : UInt64) : List Call :=
  (c.reliability.elim [] fun r => r.calls now) ++ c.battery.elim [] fun b => b.calls gauge now

/-- None of the calls of collecting is refused. -/
theorem Fits.collectStrictly (fits : Fits groups t c) (gauge : Gauge) (now : UInt64) :
    c.collectStrictly t gauge now =
      .ok ((t.performAll (c.calls gauge now)).2, c.collected gauge now) := by
  unfold Collectors.collectStrictly calls
  rw [Table.performAll_append]
  have counted : (c.reliability.elim (.ok (), t) fun r => r.collect t now) =
      (.ok (), (t.performAll (c.reliability.elim [] fun r => r.calls now)).2) := by
    cases enabled : c.reliability with
    | none => rfl
    | some r => exact fits.countHours enabled now
  rw [counted]
  have fits' := fits.follows (Table.follows_performAll t
    (c.reliability.elim [] fun r => r.calls now))
  have sampled (t : Table) (fits : Fits groups t c) :
      (c.battery.elim (.ok (), t) fun b => b.collect t gauge now) =
        (.ok (), (t.performAll (c.battery.elim [] fun b => b.calls gauge now)).2) := by
    cases enabled : c.battery with
    | none => rfl
    | some b => exact fits.sample enabled gauge now
  simp only [sampled _ fits']
  rfl

theorem collect_of_strict {t' : Table} {c' : Collectors} {gauge : Gauge} {now : UInt64}
    (strict : c.collectStrictly t gauge now = .ok (t', c')) : c.collect t gauge now = (t', c') := by
  unfold Collectors.collectStrictly at strict
  obtain ⟨-, -, strict⟩ := bind_eq_ok.mp strict
  obtain ⟨-, -, strict⟩ := bind_eq_ok.mp strict
  rw [← pure_eq_ok.mp strict]
  unfold Collectors.collect
  cases c.reliability <;> cases c.battery <;> rfl

theorem keys_collected (c : Collectors) (gauge : Gauge) (now : UInt64) (group : BuiltinGroup) :
    (c.collected gauge now).keys group = c.keys group := by
  obtain ⟨connectivity, sync, reliability, battery⟩ := c
  cases group with
  | connectivity => rfl
  | sync => rfl
  | reliability =>
      cases reliability with
      | none => rfl
      | some r => exact congrArg some (r.keys_counted now)
  | battery =>
      cases battery with
      | none => rfl
      | some b => exact congrArg some (b.keys_sampled gauge now)

end Collecting

end Collectors

end DeviceTelemetry
