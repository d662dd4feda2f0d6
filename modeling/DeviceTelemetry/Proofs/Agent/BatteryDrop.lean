import Mathlib.Data.List.Induction
import DeviceTelemetry.Proofs.Agent.Heartbeats

/-!
# Drops of the charge

A heartbeat reports a drop of the charge if the battery has been discharging since the last sample,
which is the last attaching of a monitor or the last heartbeat with one
(`Agent.drop_is_reported_iff_discharged`). The collector keeps one flag for this; what the flag
tells is read off the history of operations (`LastSample`, `Agent.DischargedSince`).
-/

set_option autoImplicit false

namespace DeviceTelemetry

open Table (Call)

/-! ### The calls of a sample -/

namespace Battery

theorem toNat_duration (ms : UInt64) : (duration ms).toNat = min ms.toNat (2 ^ 32 - 1) := by
  have small : min ms.toNat 0xFFFFFFFF < 2 ^ 32 := by omega
  rw [duration, UInt32.toNat_ofNat_of_lt' small]
  rfl

section Calls

variable {b : Battery} {gauge : Gauge} {now : UInt64} {c : Catalog}

theorem foldl_count_charge :
    (b.calls gauge now).foldl (Call.count c b.charge) none =
      if b.monitored then some gauge.charge else none := by
  unfold calls
  cases b.monitored with
  | false => rfl
  | true => by_cases drop : b.Discharged gauge <;> simp [drop, Call.count]

theorem foldl_count_chargeDrop (unique : b.keys.Nodup) :
    (b.calls gauge now).foldl (Call.count c b.chargeDrop) none =
      if b.monitored ∧ b.Discharged gauge then some (b.lastCharge - gauge.charge) else none := by
  simp [keys] at unique
  unfold calls
  cases b.monitored with
  | false => simp
  | true => by_cases drop : b.Discharged gauge <;> simp_all [Call.count, Ne.symm]

theorem foldl_count_dischargeDuration (unique : b.keys.Nodup) :
    (b.calls gauge now).foldl (Call.count c b.dischargeDuration) none =
      if b.monitored ∧ b.Discharged gauge then some (duration (now - b.lastSample)) else none := by
  simp [keys] at unique
  unfold calls
  cases b.monitored with
  | false => simp
  | true => by_cases drop : b.Discharged gauge <;> simp_all [Call.count]

end Calls

/-- Nothing but an attaching and a heartbeat samples the charge; in between the battery may be told
to have stopped discharging. -/
theorem after_of_not_isCycle {ν : Type} (b : Battery) (gauge : Gauge) (now : UInt64)
    {op : Agent.Operation ν} (plain : op.isCycle = false) (detached : op ≠ .attachMonitor) :
    (b.after gauge now op = b ∧ op ≠ .stopDischarging) ∨
      b.after gauge now op = b.interrupt ∧ op = .stopDischarging := by
  cases op <;> simp_all [after, Agent.Operation.isCycle]

theorem after_of_samples {ν : Type} (b : Battery) (gauge : Gauge) (now : UInt64)
    {op : Agent.Operation ν}
    (samples : op = .attachMonitor ∨ op.isCycle = true ∧ b.monitored = true) :
    b.after gauge now op = b.attach gauge now := by
  cases op <;> simp_all [after, Agent.Operation.isCycle, sampled]

theorem monitored_after {ν : Type} (b : Battery) (gauge : Gauge) (now : UInt64)
    (op : Agent.Operation ν) :
    (b.after gauge now op).monitored = true ↔ b.monitored = true ∨ op = .attachMonitor := by
  have unchanged : (b.sampled gauge now).monitored = b.monitored := by
    unfold sampled
    cases on : b.monitored with
    | false => simp [on]
    | true => rfl
  cases op <;> simp [after, Agent.Operation.isCycle, unchanged, attach, interrupt]
  split <;> simp [unchanged]

end Battery

namespace Agent

variable {ν : Type}

/-! ### Samples -/

/-- The last sample of a history is taken between `before` and `since`: a monitor is attached, or a
heartbeat finds one that has been. -/
structure LastSample (before : List (Operation ν)) (sample : Operation ν)
    (since : List (Operation ν)) : Prop where
  samples : sample = .attachMonitor ∨ sample.isCycle = true ∧ .attachMonitor ∈ before
  detached : .attachMonitor ∉ since
  latest : ∀ op ∈ since, op.isCycle = false

theorem exists_lastSample {ops : List (Operation ν)} (attached : .attachMonitor ∈ ops) :
    ∃ before sample since, ops = before ++ sample :: since ∧ LastSample before sample since := by
  induction ops using List.reverseRecOn with
  | nil => cases attached
  | append_singleton ops op ih =>
      by_cases here : op = .attachMonitor
      · exact ⟨ops, op, [], rfl, .inl here, List.not_mem_nil, nofun⟩
      · have earlier : .attachMonitor ∈ ops := by simpa [Ne.symm here] using attached
        cases cycle : op.isCycle with
        | true => exact ⟨ops, op, [], rfl, .inr ⟨cycle, earlier⟩, List.not_mem_nil, nofun⟩
        | false =>
            obtain ⟨before, sample, since, rfl, last⟩ := ih earlier
            refine ⟨before, sample, since ++ [op], by simp, last.samples, ?_, ?_⟩
            · simp [last.detached, Ne.symm here]
            · intro op' member
              rcases List.mem_append.mp member with member | member
              · exact last.latest op' member
              · rw [List.mem_singleton.mp member]
                exact cycle

/-- The battery has been discharging from the sample that was taken of `s` to the one of `b`, as
far as can be told, and has not been charged. -/
structure DischargedSince (s : Agent ν) (since : List (Operation ν)) (b : Agent ν) : Prop where
  first : s.platform.gauge.discharging = true
  last : b.platform.gauge.discharging = true
  steady : .stopDischarging ∉ since
  lower : b.platform.gauge.charge ≤ s.platform.gauge.charge

/-! ### What the collector keeps -/

section Lives

variable {groups : BuiltinGroups} {c : Catalog} {a : Agent ν} {b : Battery} {op : Operation ν}

theorem Collects.batteryShown {charge drop duration : Nat}
    (h : a.Collects groups c .battery [charge, drop, duration])
    (here : a.collectors.battery = some b) (cycle : op.isCycle = true)
    (unwritten : ∀ key ∈ [charge, drop, duration], ¬a.Writes key op) :
    a.Shows op charge (if b.monitored then some a.platform.gauge.charge else none) ∧
      a.Shows op drop (if b.monitored ∧ b.Discharged a.platform.gauge then
        some (b.lastCharge - a.platform.gauge.charge) else none) ∧
      a.Shows op duration (if b.monitored ∧ b.Discharged a.platform.gauge then
        some (Battery.duration (a.now - b.lastSample)) else none) := by
  obtain ⟨rfl, rfl, rfl⟩ : b.charge = charge ∧ b.chargeDrop = drop ∧
      b.dischargeDuration = duration := by
    simpa [Collectors.keys, Battery.keys, here] using h.known
  have unique : b.keys.Nodup := h.nodup
  have shownAt {key : Nat} (member : key ∈ b.keys) :
      a.Shows op key ((b.calls a.platform.gauge a.now).foldl (Call.count c key) none) := by
    have shown := h.shows member cycle (unwritten key member)
    rwa [h.foldl_count_battery here member] at shown
  refine ⟨?_, ?_, ?_⟩
  · have shown := shownAt (show b.charge ∈ b.keys by simp [Battery.keys])
    rwa [Battery.foldl_count_charge] at shown
  · have shown := shownAt (show b.chargeDrop ∈ b.keys by simp [Battery.keys])
    rwa [Battery.foldl_count_chargeDrop unique] at shown
  · have shown := shownAt (show b.dischargeDuration ∈ b.keys by simp [Battery.keys])
    rwa [Battery.foldl_count_dischargeDuration unique] at shown

variable [Nonvolatile ν]

theorem Knows.battery_perform {keys : List Nat} (h : a.Knows groups c .battery keys)
    (here : a.collectors.battery = some b) (op : Operation ν) :
    (a.perform op).2.collectors.battery = some (b.after a.platform.gauge a.now op) := by
  rw [(makes_perform h.collectors (h.catalog ▸ h.beats) op).collectors]
  simp [collectorsAfter, here]

theorem Knows.battery_performAll {keys : List Nat} (h : a.Knows groups c .battery keys)
    (here : a.collectors.battery = some b) (ops : List (Operation ν)) :
    ∃ b', (a.performAll ops).2.collectors.battery = some b' ∧
      (b'.monitored = true ↔ b.monitored = true ∨ .attachMonitor ∈ ops) := by
  induction ops generalizing a b with
  | nil => exact ⟨b, here, by simp⟩
  | cons op ops ih =>
      obtain ⟨b', there, monitored⟩ := ih (h.perform op) (h.battery_perform here op)
      refine ⟨b', there, ?_⟩
      rw [monitored, b.monitored_after, or_assoc, List.mem_cons, eq_comm (a := op)]

/-- Between samples the collector keeps the last one, and learns of it if the battery is told to
have stopped discharging. -/
theorem Knows.battery_since {keys : List Nat} (h : a.Knows groups c .battery keys)
    (here : a.collectors.battery = some b) {ops : List (Operation ν)}
    (detached : .attachMonitor ∉ ops) (latest : ∀ op ∈ ops, op.isCycle = false) :
    ∃ b', (a.performAll ops).2.collectors.battery = some b' ∧
      b' = { b with interrupted := b'.interrupted } ∧
      (b'.interrupted = true ↔ b.interrupted = true ∨ .stopDischarging ∈ ops) := by
  induction ops generalizing a b with
  | nil => exact ⟨b, here, rfl, by simp⟩
  | cons op ops ih =>
      rw [List.mem_cons, not_or] at detached
      obtain ⟨plain, latest⟩ := List.forall_mem_cons.mp latest
      obtain ⟨b', there, kept, interrupted⟩ := ih (h.perform op) (h.battery_perform here op)
        detached.2 latest
      refine ⟨b', there, ?_⟩
      rcases b.after_of_not_isCycle a.platform.gauge a.now plain (Ne.symm detached.1) with
        ⟨same, other⟩ | ⟨stopped, rfl⟩
      · rw [same] at kept interrupted
        refine ⟨kept, ?_⟩
        simp [interrupted, Ne.symm other]
      · rw [stopped] at kept interrupted
        refine ⟨kept, ?_⟩
        simp [interrupted, Battery.interrupt]

theorem Knows.batteryKept {keys : List Nat} (h : a.Knows groups c .battery keys)
    (here : a.collectors.battery = some b) {before since : List (Operation ν)}
    {sample : Operation ν} (last : LastSample before sample since) :
    let s := (a.performAll before).2
    ∃ b', (a.performAll (before ++ sample :: since)).2.collectors.battery = some b' ∧
      b'.monitored = true ∧ b'.lastCharge = s.platform.gauge.charge ∧ b'.lastSample = s.now ∧
      (b'.interrupted = false ↔
        s.platform.gauge.discharging = true ∧ .stopDischarging ∉ since) := by
  intro s
  obtain ⟨b₁, known, monitored⟩ := h.battery_performAll here before
  have knows := h.performAll before
  have samples : sample = .attachMonitor ∨ sample.isCycle = true ∧ b₁.monitored = true :=
    last.samples.imp_right fun ⟨cycle, attached⟩ => ⟨cycle, monitored.mpr (.inr attached)⟩
  have sampled := knows.battery_perform known sample
  rw [b₁.after_of_samples _ _ samples] at sampled
  obtain ⟨b', there, kept, interrupted⟩ :=
    (knows.perform sample).battery_since sampled last.detached last.latest
  refine ⟨b', ?_, ?_, ?_, ?_, ?_⟩
  · rw [performAll_append]
    exact there
  · rw [kept]
    rfl
  · rw [kept]
    rfl
  · rw [kept]
    rfl
  · rw [← Bool.not_eq_true, interrupted, not_or]
    simp [Battery.attach, s]

end Lives

/-- In every life, a heartbeat shows the charge if a monitor has been attached. It shows a drop and
the time that it took if the battery has been discharging since the last sample and the charge has
not risen; otherwise it shows neither. -/
theorem drop_is_reported_iff_discharged [Nonvolatile ν] {configuration : Configuration}
    {capacity : Nat} {platform : Platform} {a : Agent ν}
    (booted : boot configuration capacity platform = .ok a)
    (enabled : configuration.builtins.battery = true) :
    ∃ charge drop duration, a.table.catalog.keyOf? BuiltinGroups.charge = some charge ∧
      a.table.catalog.keyOf? BuiltinGroups.chargeDrop = some drop ∧
      a.table.catalog.keyOf? BuiltinGroups.dischargeDuration = some duration ∧
      ∀ (ops : List (Operation ν)) (beat : Operation ν), beat.isCycle = true →
        a.Unwritten [charge, drop, duration] (ops ++ [beat]) →
        let b := (a.performAll ops).2
        (.attachMonitor ∉ ops → ∀ key ∈ [charge, drop, duration], b.Shows beat key none) ∧
        (.attachMonitor ∈ ops →
          ∃ before sample since, ops = before ++ sample :: since ∧
            LastSample before sample since) ∧
        ∀ before sample since, ops = before ++ sample :: since →
          LastSample before sample since →
            let s := (a.performAll before).2
            b.Shows beat charge (some b.platform.gauge.charge) ∧
            (s.DischargedSince since b → ∃ less ms : UInt32,
              b.Shows beat drop (some less) ∧ b.Shows beat duration (some ms) ∧
              less.toNat = s.platform.gauge.charge.toNat - b.platform.gauge.charge.toNat ∧
              ms.toNat = min (b.now - s.now).toNat (2 ^ 32 - 1)) ∧
            (¬s.DischargedSince since b →
              b.Shows beat drop none ∧ b.Shows beat duration none) := by
  obtain ⟨keys, collects, holds⟩ := collects_of_boot .battery booted enabled (by decide)
  have known := collects.known
  simp only [Collectors.keys, Option.map_eq_some_iff] at known
  obtain ⟨b₀, here, rfl⟩ := known
  obtain ⟨charge, others⟩ := List.forall₂_cons.mp holds
  obtain ⟨drop, others⟩ := List.forall₂_cons.mp others
  obtain ⟨duration, -⟩ := List.forall₂_cons.mp others
  refine ⟨b₀.charge, b₀.chargeDrop, b₀.dischargeDuration, charge.found, drop.found,
    duration.found, ?_⟩
  intro ops beat cycle unwritten b
  obtain ⟨unwritten, spared, -⟩ := unwritten_append.mp unwritten
  have later := collects.performAll (by decide) unwritten
  refine ⟨?_, exists_lastSample, ?_⟩
  · intro detached
    obtain ⟨b', there, monitored⟩ := collects.battery_performAll here ops
    have off : b'.monitored = false := by
      rw [← Bool.not_eq_true, monitored, (new_of_boot booted).2 b₀ here]
      simp [detached]
    have shown := later.batteryShown there cycle spared
    simpa [off] using shown
  · rintro before sample since rfl last s
    obtain ⟨b', there, on, lastCharge, lastSample, interrupted⟩ :=
      collects.batteryKept here last
    have discharged : b'.Discharged b.platform.gauge ↔ s.DischargedSince since b := by
      rw [Battery.Discharged, interrupted, lastCharge]
      constructor
      · rintro ⟨now, ⟨first, steady⟩, lower⟩
        exact ⟨first, now, steady, lower⟩
      · intro h
        exact ⟨h.last, ⟨h.first, h.steady⟩, h.lower⟩
    obtain ⟨charge, drop, duration⟩ := later.batteryShown there cycle spared
    rw [if_pos on] at charge
    rw [lastCharge] at drop
    rw [lastSample] at duration
    refine ⟨charge, ?_, ?_⟩
    · intro yes
      have both := And.intro on (discharged.mpr yes)
      rw [if_pos both] at drop duration
      exact ⟨_, _, drop, duration, UInt32.toNat_sub_of_le _ _ yes.lower, Battery.toNat_duration _⟩
    · intro no
      have neither : ¬(b'.monitored = true ∧ b'.Discharged b.platform.gauge) := fun both =>
        no (discharged.mp both.2)
      rw [if_neg neither] at drop duration
      exact ⟨drop, duration⟩

/-- The first heartbeat with a monitor reports no drop, as the battery has been told to have stopped
discharging. The clock is set back before the second one, which reports the longest time. -/
theorem drop_is_reported_iff_discharged_around :
    let configuration : Configuration :=
      { device := {}, schema := {}, builtins := { battery := true } }
    let before : List (Operation Empty) := [.setGauge { charge := 90, discharging := true },
      .heartbeat, .attachMonitor, .advance 1000, .stopDischarging,
      .setGauge { charge := 80, discharging := true }]
    let since : List (Operation Empty) := [.describe, .setClock 7,
      .setGauge { charge := 75, discharging := true }]
    ∃ a : Agent Empty, boot configuration 32 { clock := 500 } = .ok a ∧
      let s := (a.performAll before).2
      let b := (a.performAll (before ++ .heartbeat :: since)).2
      (s.Shows .heartbeat 0 (some 80) ∧ s.Shows .heartbeat 1 none ∧ s.Shows .heartbeat 2 none) ∧
        b.Shows .heartbeat 0 (some 75) ∧ b.Shows .heartbeat 1 (some 5) ∧
          b.Shows .heartbeat 2 (some 0xFFFFFFFF) ∧
          (b.perform .heartbeat).2.droppedEvents = 2 := by
  intro configuration before since
  obtain ⟨a, booted, charge, drop, duration, unwritten, unwritten', first, last, now, dropped⟩ :
      ∃ a : Agent Empty, boot configuration 32 { clock := 500 } = .ok a ∧
        a.table.catalog.keyOf? BuiltinGroups.charge = some 0 ∧
        a.table.catalog.keyOf? BuiltinGroups.chargeDrop = some 1 ∧
        a.table.catalog.keyOf? BuiltinGroups.dischargeDuration = some 2 ∧
        a.Unwritten [0, 1, 2] (before ++ [.heartbeat]) ∧
        a.Unwritten [0, 1, 2] ((before ++ .heartbeat :: since) ++ [.heartbeat]) ∧
        (a.performAll before).2.platform.gauge = { charge := 80, discharging := true } ∧
        (a.performAll (before ++ .heartbeat :: since)).2.platform.gauge =
          { charge := 75, discharging := true } ∧
        ((a.performAll (before ++ .heartbeat :: since)).2.now - (a.performAll before).2.now).toNat =
          2 ^ 64 - 1493 ∧
        ((a.performAll (before ++ .heartbeat :: since)).2.perform .heartbeat).2.droppedEvents =
          2 := by
    simp only [boot, Collectors.ofCatalog, Collectors.key, Schema.keyOf?_eq_findIdx?]
    decide +kernel
  obtain ⟨key, key', key'', here, there, there', shownAt⟩ :=
    drop_is_reported_iff_discharged booted rfl
  rw [charge] at here
  rw [drop] at there
  rw [duration] at there'
  cases here
  cases there
  cases there'
  have attaching : LastSample (ν := Empty)
      [.setGauge { charge := 90, discharging := true }, .heartbeat] .attachMonitor
      [.advance 1000, .stopDischarging, .setGauge { charge := 80, discharging := true }] :=
    ⟨.inl rfl, by simp, by simp [Operation.isCycle]⟩
  have beating : LastSample before .heartbeat since :=
    ⟨.inr ⟨rfl, by simp [before]⟩, by simp [since], by simp [since, Operation.isCycle]⟩
  obtain ⟨-, -, early⟩ := shownAt before .heartbeat rfl unwritten
  obtain ⟨level, -, stopped⟩ := early _ _ _ rfl attaching
  obtain ⟨-, -, late⟩ := shownAt (before ++ .heartbeat :: since) .heartbeat rfl unwritten'
  obtain ⟨level', discharged, -⟩ := late _ _ _ rfl beating
  obtain ⟨less, ms, drop', duration', less_eq, ms_eq⟩ := discharged
    ⟨by rw [first], by rw [last], by simp [since], by rw [first, last]; decide⟩
  rw [first] at level
  rw [last] at level'
  rw [first, last] at less_eq
  rw [now] at ms_eq
  obtain rfl : less = 5 := UInt32.toNat_inj.mp less_eq
  obtain rfl : ms = 0xFFFFFFFF := UInt32.toNat_inj.mp ms_eq
  refine ⟨a, booted, ⟨level, stopped ?_⟩, level', drop', duration', dropped⟩
  intro bad
  exact bad.steady (by simp)

end Agent

end DeviceTelemetry
