import DeviceTelemetry.Proofs.Agent.Heartbeats

/-!
# Operational hours add up

What is short of an hour at a heartbeat is carried over to the next one, so the hours that
heartbeats report add up to the full hours between boot and the last of them; an unexpected reboot
costs one crash-free hour of the sum (`Agent.operational_hours_add_up`). `Reliability.Counts` is
what holds of the counting between two heartbeats.

No step of the counting fails the check that it stays within words of 64 bits
(`Reliability.strictCollect`).
-/

set_option autoImplicit false

namespace DeviceTelemetry

open Table (Call)

def Reading.amount : Reading → Nat
  | .unsigned n => (n.getD 0).toNat
  | _ => 0

namespace Reliability

/-! ### One heartbeat -/

/-- Since `start`, `total` full hours have been counted, and the rest is carried over. -/
structure Counts (r : Reliability) (start : UInt64) (total : Nat) : Prop where
  order : start.toNat ≤ r.lastHeartbeat.toNat
  balance : total * hourLength + r.carried.toNat = r.lastHeartbeat.toNat - start.toNat
  carried : r.carried.toNat < hourLength

theorem toInt_amount (n : UInt64) : (amount n).toInt = min n.toNat 0x7FFFFFFF := by
  rw [amount, Int32.toInt_ofNat_of_lt (by omega)]

theorem toNat_addUnsigned_amount {n : UInt64} (small : n.toNat ≤ 0x7FFFFFFF) :
    (Slot.addUnsigned 0 (amount n)).toNat = n.toNat := by
  have added := Slot.toNat_addUnsigned 0 (amount n)
  rw [toInt_amount] at added
  have zero : (0 : UInt32).toNat = 0 := rfl
  omega

section Heartbeat

variable {r : Reliability} {start now : UInt64} {total : Nat} {c : Catalog}

theorem foldl_count_hours (apart : r.hours ≠ r.crashFreeHours)
    (small : (r.fullHours now).toNat ≤ 0x7FFFFFFF) :
    Reading.amount (.unsigned ((r.calls now).foldl (Call.count c r.hours) none)) =
      (r.fullHours now).toNat := by
  unfold calls
  split
  · rename_i nothing
    simp [Reading.amount, nothing]
  · simp [Reading.amount, Call.count, Ne.symm apart, toNat_addUnsigned_amount small]

theorem foldl_count_crashFreeHours (apart : r.hours ≠ r.crashFreeHours)
    (small : (r.fullHours now).toNat ≤ 0x7FFFFFFF) :
    Reading.amount (.unsigned ((r.calls now).foldl (Call.count c r.crashFreeHours) none)) =
      if r.fullHours now = 0 then 0 else (r.fullHours now).toNat - r.lost.toNat := by
  unfold calls
  split
  · simp [Reading.amount]
  · rename_i counts
    have crashFree := r.toNat_fullHours_sub_lost now counts
    have less : (r.fullHours now - r.lost).toNat ≤ 0x7FFFFFFF := by omega
    simp [Reading.amount, Call.count, apart, toNat_addUnsigned_amount less, crashFree]

/-- What has been counted are the full hours up to the last heartbeat. -/
theorem Counts.total_eq (h : r.Counts start total) :
    total = (r.lastHeartbeat.toNat - start.toNat) / hourLength := by
  have balance := h.balance
  have carried := h.carried
  unfold hourLength at *
  omega

theorem Counts.uncounted_eq (h : r.Counts start total)
    (forward : r.lastHeartbeat.toNat ≤ now.toNat) :
    total * hourLength + r.total now = now.toNat - start.toNat := by
  have order := h.order
  have balance := h.balance
  unfold Reliability.total
  omega

theorem Counts.room (h : r.Counts start total) (forward : r.lastHeartbeat.toNat ≤ now.toNat) :
    r.total now < 2 ^ 64 := by
  have whole := h.uncounted_eq forward
  have word := now.toNat_lt
  omega

theorem Counts.toNat_uncounted (h : r.Counts start total)
    (forward : r.lastHeartbeat.toNat ≤ now.toNat) : (r.uncounted now).toNat = r.total now := by
  rw [Reliability.toNat_uncounted, Nat.mod_eq_of_lt (h.room forward)]

/-- An interval of less than `2 ^ 31 - 1` hours has no more hours than can be added at once. -/
theorem Counts.fullHours_le (h : r.Counts start total)
    (forward : r.lastHeartbeat.toNat ≤ now.toNat)
    (short : now.toNat < r.lastHeartbeat.toNat + (2 ^ 31 - 1) * hourLength) :
    (r.fullHours now).toNat ≤ 0x7FFFFFFF := by
  have carried := h.carried
  rw [toNat_fullHours, h.toNat_uncounted forward]
  unfold Reliability.total
  unfold hourLength at *
  omega

theorem Counts.counted (h : r.Counts start total) (forward : r.lastHeartbeat.toNat ≤ now.toNat) :
    (r.counted now).Counts start (total + (r.fullHours now).toNat) where
  order := h.order.trans forward
  balance := by
    rw [toNat_carried_counted, Nat.add_mul, Nat.add_assoc, toNat_fullHours, Nat.mul_comm (_ / _),
      Nat.div_add_mod, h.toNat_uncounted forward]
    exact h.uncounted_eq forward
  carried := by
    rw [toNat_carried_counted]
    exact Nat.mod_lt _ (by decide)

/-- The hour that an unexpected reboot costs is paid once, when the first full hour is counted;
until then it is still to be paid. -/
theorem paid (r : Reliability) (now : UInt64) (later : Bool) :
    (if r.fullHours now = 0 then 0 else (r.fullHours now).toNat - r.lost.toNat) +
        (if r.begun then 0
          else (if (r.fullHours now).toNat = 0 then later else r.unexpectedReboot).toNat) =
      (r.fullHours now).toNat + if (r.counted now).begun then 0 else later.toNat := by
  unfold counted lost
  by_cases nothing : r.fullHours now = 0
  · cases r.begun <;> simp [nothing]
  · have counts := mt (r.fullHours_eq_zero_iff now).mpr nothing
    have one : 1 ≤ (r.fullHours now).toNat := Nat.one_le_iff_ne_zero.mpr counts
    cases r.begun <;> cases r.unexpectedReboot <;> simp [nothing, counts, one]

end Heartbeat

end Reliability

namespace Agent

variable {ν : Type}

/-! ### Histories -/

def Operation.unexpectedReboot (unexpected : Bool) : Operation ν → Bool
  | .setUnexpectedReboot unexpected => unexpected
  | _ => unexpected

def amountShown (a : Agent ν) (key : Nat) (op : Operation ν) : Nat :=
  if op.isCycle then
    (((a.ownEvent op).bind (Event.reading? a.table.catalog key)).map Reading.amount).getD 0
  else 0

variable [Nonvolatile ν]

def amountReported (key : Nat) (a : Agent ν) : List (Operation ν) → Nat
  | [] => 0
  | op :: ops => a.amountShown key op + amountReported key (a.perform op).2 ops

/-- Whether the reboot is held to be unexpected at the first heartbeat that shows a number other
than `0` under a key. -/
def chargedReboot (key : Nat) (unexpected : Bool) (a : Agent ν) : List (Operation ν) → Bool
  | [] => false
  | op :: ops =>
    if a.amountShown key op = 0 then
      chargedReboot key (op.unexpectedReboot unexpected) (a.perform op).2 ops
    else unexpected

/-- No step of the counting leaves the words of 64 bits at any heartbeat. -/
def CountsStrictly (a : Agent ν) : List (Operation ν) → Prop
  | [] => True
  | op :: ops =>
    (op.isCycle = true → ∃ r, a.collectors.reliability = some r ∧
      r.strictCollect a.now =
        some (a.amountShown r.hours op, a.amountShown r.crashFreeHours op, r.counted a.now)) ∧
      CountsStrictly (a.perform op).2 ops

end Agent

/-! ### One operation -/

namespace Reliability

section After

variable {ν : Type} (r : Reliability) (now : UInt64) {op : Agent.Operation ν}

theorem after_of_isCycle (cycle : op.isCycle = true) : r.after now op = r.counted now := by
  cases op <;> simp_all [after, Agent.Operation.isCycle]

theorem after_of_not_isCycle (plain : op.isCycle = false) :
    r.after now op = { r with unexpectedReboot := op.unexpectedReboot r.unexpectedReboot } := by
  cases op <;> simp_all [after, Agent.Operation.isCycle, Agent.Operation.unexpectedReboot]

variable (op)

theorem unexpectedReboot_after :
    (r.after now op).unexpectedReboot = op.unexpectedReboot r.unexpectedReboot := by
  cases cycle : op.isCycle with
  | true =>
      rw [r.after_of_isCycle now cycle]
      cases op <;> simp_all [counted, Agent.Operation.isCycle, Agent.Operation.unexpectedReboot]
  | false => rw [r.after_of_not_isCycle now cycle]

theorem lastHeartbeat_after :
    (r.after now op).lastHeartbeat = if op.isCycle then now else r.lastHeartbeat := by
  cases cycle : op.isCycle with
  | true =>
      rw [r.after_of_isCycle now cycle]
      rfl
  | false =>
      rw [r.after_of_not_isCycle now cycle]
      rfl

theorem keys_after :
    (r.after now op).hours = r.hours ∧ (r.after now op).crashFreeHours = r.crashFreeHours := by
  cases cycle : op.isCycle with
  | true =>
      rw [r.after_of_isCycle now cycle]
      exact ⟨rfl, rfl⟩
  | false =>
      rw [r.after_of_not_isCycle now cycle]
      exact ⟨rfl, rfl⟩

end After

end Reliability

namespace Agent

variable {ν : Type} [Nonvolatile ν]

section Lives

variable {groups : BuiltinGroups} {c : Catalog} {a : Agent ν} {r : Reliability}
  {start : UInt64} {total : Nat} {op : Operation ν}

theorem Knows.reliability_perform (h : a.Knows groups c .reliability r.keys)
    (here : a.collectors.reliability = some r) (op : Operation ν) :
    (a.perform op).2.collectors.reliability = some (r.after a.now op) := by
  rw [(makes_perform h.collectors (h.catalog ▸ h.beats) op).collectors]
  simp [collectorsAfter, here]

omit [Nonvolatile ν] in
theorem Collects.amountShown (h : a.Collects groups c .reliability r.keys)
    (here : a.collectors.reliability = some r) (cycle : op.isCycle = true) {key : Nat}
    (member : key ∈ r.keys) (unwritten : ¬a.Writes key op) :
    a.amountShown key op =
      Reading.amount (.unsigned ((r.calls a.now).foldl (Call.count c key) none)) := by
  obtain ⟨e, own, shown⟩ := h.shows member cycle unwritten
  rw [h.foldl_count_reliability here member] at shown
  rw [Agent.amountShown, if_pos cycle, own, Option.bind_some, shown]
  rfl

omit [Nonvolatile ν] in
/-- A heartbeat shows the full hours that it counts, and takes the price of a reboot off those
without a crash. -/
theorem Collects.hoursShown (h : a.Collects groups c .reliability r.keys)
    (here : a.collectors.reliability = some r) (cycle : op.isCycle = true)
    (unwritten : ∀ key ∈ r.keys, ¬a.Writes key op)
    (small : (r.fullHours a.now).toNat ≤ 0x7FFFFFFF) :
    a.amountShown r.hours op = (r.fullHours a.now).toNat ∧
      a.amountShown r.crashFreeHours op =
        if r.fullHours a.now = 0 then 0 else (r.fullHours a.now).toNat - r.lost.toNat := by
  have hours : r.hours ∈ r.keys := by simp [Reliability.keys]
  have crashFreeHours : r.crashFreeHours ∈ r.keys := by simp [Reliability.keys]
  have apart : r.hours ≠ r.crashFreeHours := by simpa [Reliability.keys] using h.nodup
  rw [h.amountShown here cycle hours (unwritten _ hours),
    h.amountShown here cycle crashFreeHours (unwritten _ crashFreeHours)]
  exact ⟨Reliability.foldl_count_hours apart small,
    Reliability.foldl_count_crashFreeHours apart small⟩

omit [Nonvolatile ν] in
theorem amountShown_of_not_isCycle (plain : op.isCycle = false) (key : Nat) :
    a.amountShown key op = 0 := by
  simp [Agent.amountShown, plain]

omit [Nonvolatile ν] in
/-- What an operation shows is counted, what a reboot costs is paid or still to be paid, and no
step of a heartbeat's counting leaves the words of 64 bits. -/
theorem Collects.hoursStep (h : a.Collects groups c .reliability r.keys)
    (here : a.collectors.reliability = some r) (counts : r.Counts start total)
    (forward : r.lastHeartbeat.toNat ≤ a.now.toNat)
    (short : op.isCycle = true →
      a.now.toNat < r.lastHeartbeat.toNat + (2 ^ 31 - 1) * Reliability.hourLength)
    (unwritten : ∀ key ∈ r.keys, ¬a.Writes key op) :
    (r.after a.now op).Counts start (total + a.amountShown r.hours op) ∧
      (∀ later : Bool, a.amountShown r.crashFreeHours op +
          (if r.begun then 0 else
            (if a.amountShown r.hours op = 0 then later else r.unexpectedReboot).toNat) =
        a.amountShown r.hours op + if (r.after a.now op).begun then 0 else later.toNat) ∧
      (op.isCycle = true → r.strictCollect a.now =
        some (a.amountShown r.hours op, a.amountShown r.crashFreeHours op, r.counted a.now)) := by
  cases cycle : op.isCycle with
  | true =>
      have small := counts.fullHours_le forward (short cycle)
      obtain ⟨hours, crashFree⟩ := h.hoursShown here cycle unwritten small
      rw [hours, crashFree, r.after_of_isCycle a.now cycle]
      exact ⟨counts.counted forward, r.paid a.now,
        fun _ => Reliability.strictCollect_eq (counts.room forward)⟩
  | false =>
      rw [amountShown_of_not_isCycle cycle, amountShown_of_not_isCycle cycle,
        r.after_of_not_isCycle a.now cycle]
      exact ⟨⟨counts.order, counts.balance, counts.carried⟩, fun later => by simp, nofun⟩

/-! ### Whole lives -/

theorem Collects.hoursReported (h : a.Collects groups c .reliability r.keys)
    (here : a.collectors.reliability = some r) (counts : r.Counts start total)
    (forward : r.lastHeartbeat.toNat ≤ a.now.toNat) {ops : List (Operation ν)}
    (regular : Regular ((2 ^ 31 - 1) * Reliability.hourLength) r.lastHeartbeat a.now ops)
    (unwritten : a.Unwritten r.keys ops) :
    total + amountReported r.hours a ops =
        ((lastBeat r.lastHeartbeat a.now ops).toNat - start.toNat) / Reliability.hourLength ∧
      amountReported r.crashFreeHours a ops +
          (if r.begun then 0 else (a.chargedReboot r.hours r.unexpectedReboot ops).toNat) =
        amountReported r.hours a ops ∧
      a.CountsStrictly ops := by
  induction ops generalizing a r total with
  | nil =>
      refine ⟨counts.total_eq, ?_, trivial⟩
      simp [amountReported, chargedReboot]
  | cons op ops ih =>
      obtain ⟨ahead, short, regular⟩ := regular
      obtain ⟨spared, unwritten⟩ := unwritten
      obtain ⟨counted, paid, strict⟩ := h.hoursStep here counts forward short spared
      have next := h.perform (by decide) spared
      have there := h.reliability_perform here op
      have now := (moved_perform 0 a op).2
      obtain ⟨hours, crashFreeHours⟩ := r.keys_after a.now op
      have keys : (r.after a.now op).keys = r.keys := by
        rw [Reliability.keys, hours, crashFreeHours, Reliability.keys]
      have last := r.lastHeartbeat_after a.now op
      have forward : (r.after a.now op).lastHeartbeat.toNat ≤ (a.perform op).2.now.toNat := by
        rw [last, now]
        split
        · exact ahead
        · exact forward.trans ahead
      rw [← last, ← now] at regular
      rw [← keys] at next unwritten
      obtain ⟨sum, cost, later⟩ := ih next there counted forward regular unwritten
      rw [hours, last, now] at sum
      rw [hours, crashFreeHours, r.unexpectedReboot_after] at cost
      simp only [amountReported, lastBeat, chargedReboot, CountsStrictly]
      refine ⟨?_, ?_, fun cycle => ⟨r, here, strict cycle⟩, later⟩
      · rw [← Nat.add_assoc]
        exact sum
      · have paid := paid ((a.perform op).2.chargedReboot r.hours
          (op.unexpectedReboot r.unexpectedReboot) ops)
        omega

end Lives

/-- From boot on, the operational hours that heartbeats report, whether or not their events are
kept, add up to the full hours until the last heartbeat, as long as heartbeats are less than
`2 ^ 31 - 1` hours apart and nothing else writes the metrics. The hours without a crash add up to
one less if the reboot is held to be unexpected at the first heartbeat that reports an hour. No
step of the counting leaves the words of 64 bits. -/
theorem operational_hours_add_up {configuration : Configuration} {capacity : Nat}
    {platform : Platform} {a : Agent ν} (booted : boot configuration capacity platform = .ok a)
    (enabled : configuration.builtins.reliability = true) :
    ∃ hours crashFree, a.table.catalog.keyOf? BuiltinGroups.operationalHours = some hours ∧
      a.table.catalog.keyOf? BuiltinGroups.crashFreeHours = some crashFree ∧
      ∀ ops : List (Operation ν),
        Regular ((2 ^ 31 - 1) * Reliability.hourLength) a.now a.now ops →
        a.Unwritten [hours, crashFree] ops →
          amountReported hours a ops =
              ((lastBeat a.now a.now ops).toNat - a.now.toNat) / Reliability.hourLength ∧
            amountReported crashFree a ops + (a.chargedReboot hours false ops).toNat =
              amountReported hours a ops ∧
            a.CountsStrictly ops := by
  obtain ⟨keys, collects, holds⟩ := collects_of_boot .reliability booted enabled (by decide)
  have known := collects.known
  simp only [Collectors.keys, Option.map_eq_some_iff] at known
  obtain ⟨r, here, rfl⟩ := known
  obtain ⟨hours, others⟩ := List.forall₂_cons.mp holds
  obtain ⟨crashFree, -⟩ := List.forall₂_cons.mp others
  refine ⟨r.hours, r.crashFreeHours, hours.found, crashFree.found, ?_⟩
  intro ops regular unwritten
  have new := (new_of_boot booted).1 r here
  have last : r.lastHeartbeat = a.now := by rw [new]
  have carried : r.carried.toNat = 0 := by
    rw [new]
    rfl
  have begun : r.begun = false := by rw [new]
  have unexpected : r.unexpectedReboot = false := by rw [new]
  have counts : r.Counts a.now 0 :=
    { order := Nat.le_of_eq (congrArg UInt64.toNat last.symm)
      balance := by rw [carried, last, Nat.sub_self, Nat.zero_mul]
      carried := by rw [carried]; decide }
  have reported := collects.hoursReported here counts (Nat.le_of_eq (congrArg UInt64.toNat last))
    (last.symm ▸ regular) unwritten
  rwa [last, begun, unexpected, Nat.zero_add, if_neg Bool.false_ne_true] at reported

/-- Half an hour is carried over, two of three events are dropped, and the reboot is held to be
unexpected when the first hour is counted, but not any more at the end. -/
theorem operational_hours_add_up_over_four :
    let configuration : Configuration :=
      { device := {}, schema := {}, builtins := { reliability := true } }
    let ops : List (Operation Empty) := [.advance 1800000, .heartbeat, .setUnexpectedReboot true,
      .describe, .advance 3600000, .heartbeat, .setUnexpectedReboot false, .readUnsigned 0,
      .advance 9000000, .collect 0, .advance 5000000]
    ∃ a : Agent Empty, boot configuration 32 { clock := 0xFFFFFFFF } = .ok a ∧
      (a.performAll ops).2.droppedEvents = 2 ∧ amountReported 0 a ops = 4 ∧
        amountReported 1 a ops = 3 ∧ a.CountsStrictly ops := by
  intro configuration ops
  obtain ⟨a, booted, hours, crashFree, regular, unwritten, dropped, beat, charged⟩ :
      ∃ a : Agent Empty, boot configuration 32 { clock := 0xFFFFFFFF } = .ok a ∧
        a.table.catalog.keyOf? BuiltinGroups.operationalHours = some 0 ∧
        a.table.catalog.keyOf? BuiltinGroups.crashFreeHours = some 1 ∧
        Regular ((2 ^ 31 - 1) * Reliability.hourLength) a.now a.now ops ∧
        a.Unwritten [0, 1] ops ∧ (a.performAll ops).2.droppedEvents = 2 ∧
        (lastBeat a.now a.now ops).toNat = a.now.toNat + 14400000 ∧
        a.chargedReboot 0 false ops = true := by
    simp only [boot, Collectors.ofCatalog, Collectors.key, Schema.keyOf?_eq_findIdx?]
    decide +kernel
  obtain ⟨first, second, here, there, adds⟩ := operational_hours_add_up booted rfl
  rw [hours] at here
  rw [crashFree] at there
  cases here
  cases there
  obtain ⟨sum, cost, strict⟩ := adds ops regular unwritten
  rw [beat, Nat.add_sub_cancel_left] at sum
  rw [charged, sum] at cost
  exact ⟨a, booted, dropped, sum, Nat.succ.inj cost, strict⟩

end Agent

end DeviceTelemetry
