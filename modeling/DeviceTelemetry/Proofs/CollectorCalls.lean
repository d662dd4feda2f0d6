import DeviceTelemetry.Proofs.CollectorKeys
import DeviceTelemetry.Proofs.LargestEvent
import DeviceTelemetry.Proofs.TableCounts
import DeviceTelemetry.Proofs.TimerMoves

/-!
# The calls of collectors

What a collector does to the table at a heartbeat is a row of calls, told by what it keeps, the
gauge and the clock. As long as its keys are those of its metrics none of them is refused
(`Collectors.Fits.collect`), so what it records is read off its calls.
-/

set_option autoImplicit false

namespace DeviceTelemetry

open Table (Call)

theorem Table.Call.key?_of_sets {call : Call} {key : Nat} (sets : call.Sets key) :
    call.key? = some key := by
  cases call with
  | setUnsigned key' n => exact congrArg some sets
  | add key' amount => exact congrArg some sets
  | _ => cases sets

theorem Reliability.mem_keys_of_calls {r : Reliability} {now : UInt64} :
    ∀ call ∈ r.calls now, ∃ key ∈ r.keys, call.key? = some key := by
  intro call member
  obtain ⟨key, mine, sets⟩ := sets_of_mem_calls member
  exact ⟨key, mine, Call.key?_of_sets sets⟩

theorem Battery.mem_keys_of_calls {b : Battery} {gauge : Gauge} {now : UInt64} :
    ∀ call ∈ b.calls gauge now, ∃ key ∈ b.keys, call.key? = some key := by
  intro call member
  obtain ⟨key, mine, sets⟩ := sets_of_mem_calls member
  exact ⟨key, mine, Call.key?_of_sets sets⟩

/-! ### The counting of hours -/

namespace Reliability

section Words

variable (r : Reliability) (now : UInt64)

/-- The time that a heartbeat has to count, whether or not it fits in a word. -/
def total : Nat := r.carried.toNat + (now.toNat - r.lastHeartbeat.toNat)

theorem toNat_sinceLast : (r.sinceLast now).toNat = now.toNat - r.lastHeartbeat.toNat := by
  unfold sinceLast
  by_cases back : now < r.lastHeartbeat
  · have less := UInt64.lt_iff_toNat_lt.mp back
    rw [if_pos back, Nat.sub_eq_zero_of_le (Nat.le_of_lt less)]
    rfl
  · have order := UInt64.le_iff_toNat_le.mp (UInt64.not_lt.mp back)
    rw [if_neg back, UInt64.toNat_sub_of_le _ _ (UInt64.not_lt.mp back)]

theorem toNat_uncounted : (r.uncounted now).toNat = r.total now % 2 ^ 64 := by
  rw [uncounted, UInt64.toNat_add, toNat_sinceLast, total]

theorem toNat_fullHours : (r.fullHours now).toNat = (r.uncounted now).toNat / hourLength := by
  rw [fullHours, UInt64.toNat_div]
  rfl

theorem toNat_carried_counted :
    (r.counted now).carried.toNat = (r.uncounted now).toNat % hourLength := by
  have hours := r.toNat_fullHours now
  have word := (r.uncounted now).toNat_lt
  have length : (UInt64.ofNat hourLength).toNat = hourLength := rfl
  show (r.uncounted now - r.fullHours now * UInt64.ofNat hourLength).toNat = _
  have product : (r.fullHours now * UInt64.ofNat hourLength).toNat =
      (r.fullHours now).toNat * hourLength := by
    rw [UInt64.toNat_mul, length]
    unfold hourLength at *
    omega
  have order : r.fullHours now * UInt64.ofNat hourLength ≤ r.uncounted now := by
    rw [UInt64.le_iff_toNat_le, product]
    unfold hourLength at *
    omega
  rw [UInt64.toNat_sub_of_le _ _ order, product, hours, Nat.mul_comm, ← Nat.mod_eq_sub_mul_div]

theorem fullHours_eq_zero_iff : r.fullHours now = 0 ↔ (r.fullHours now).toNat = 0 := by
  rw [← UInt64.toNat_inj]
  rfl

theorem toNat_fullHours_sub_lost (counts : r.fullHours now ≠ 0) :
    (r.fullHours now - r.lost).toNat = (r.fullHours now).toNat - r.lost.toNat := by
  have one : 1 ≤ (r.fullHours now).toNat :=
    Nat.one_le_iff_ne_zero.mpr fun bad => counts ((r.fullHours_eq_zero_iff now).mpr bad)
  have few : r.lost.toNat ≤ 1 := by
    unfold lost
    split <;> decide
  exact UInt64.toNat_sub_of_le _ _ (UInt64.le_iff_toNat_le.mpr (few.trans one))

end Words

open Checked (word minus word_eq minus_eq)

/-- The hours that a heartbeat counts, those of them without a crash, and what is kept of the
counting; nothing if a step on the way leaves the 64 bits. -/
def strictCollect (r : Reliability) (now : UInt64) : Option (Nat × Nat × Reliability) := do
  let total ← word (2 ^ 64) (r.carried.toNat + (now.toNat - r.lastHeartbeat.toNat))
  let hours := total / hourLength
  let counted ← word (2 ^ 64) (hours * hourLength)
  let carried ← minus total counted
  let r := { r with carried := UInt64.ofNat carried, lastHeartbeat := now }
  if hours = 0 then return (0, 0, r)
  let crashFree ← if r.begun then pure hours else minus hours (if r.unexpectedReboot then 1 else 0)
  return (hours, crashFree, { r with begun := true })

section Strict

variable {r : Reliability} {now : UInt64}

theorem strictCollect_eq (room : r.total now < 2 ^ 64) :
    r.strictCollect now =
      some ((r.fullHours now).toNat,
        if r.fullHours now = 0 then 0 else (r.fullHours now).toNat - r.lost.toNat,
        r.counted now) := by
  have whole : (r.uncounted now).toNat = r.total now := by
    rw [toNat_uncounted, Nat.mod_eq_of_lt room]
  have hours : (r.fullHours now).toNat = r.total now / hourLength := by
    rw [toNat_fullHours, whole]
  have floor := Nat.div_mul_le_self (r.total now) hourLength
  have carried : UInt64.ofNat (r.total now - r.total now / hourLength * hourLength) =
      (r.counted now).carried := by
    rw [← UInt64.toNat_inj, toNat_carried_counted, whole, Nat.mul_comm, ← Nat.mod_eq_sub_mul_div]
    exact UInt64.toNat_ofNat_of_lt' ((Nat.mod_le _ _).trans_lt room)
  unfold strictCollect
  rw [← total, word_eq room, Option.bind_eq_bind, Option.bind_some]
  dsimp only
  rw [word_eq (floor.trans_lt room), Option.bind_some, minus_eq floor, Option.bind_some, carried,
    ← hours]
  by_cases nothing : r.fullHours now = 0
  · have zero := (r.fullHours_eq_zero_iff now).mp nothing
    simp [nothing, counted]
  · have counts := mt (r.fullHours_eq_zero_iff now).mpr nothing
    have one : 1 ≤ (r.fullHours now).toNat := Nat.one_le_iff_ne_zero.mpr counts
    rw [if_neg counts, if_neg nothing]
    unfold counted lost
    cases begun : r.begun <;> cases unexpected : r.unexpectedReboot <;>
      simp [nothing, minus_eq one, minus_eq (Nat.zero_le _)]

theorem strictCollect_eq_none (full : 2 ^ 64 ≤ r.total now) : r.strictCollect now = none := by
  unfold strictCollect
  rw [← total, Checked.word_eq_none full]
  rfl

/-- A clock that goes back and then to the end of its range makes the sum go around. -/
example :
    let r : Reliability :=
      { hours := 0, crashFreeHours := 1, lastHeartbeat := 0, carried := 3599999 }
    r.strictCollect 0xFFFFFFFFFFFFFFFF = none ∧ r.calls 0xFFFFFFFFFFFFFFFF = [] := by
  decide

end Strict

end Reliability

/-! ### New collectors -/

theorem Collectors.of_whenEnabled {α : Type} {enabled : Bool} {value : Except SchemaError α}
    {x : Option α} (found : whenEnabled enabled value = .ok x) {v : α} (here : x = some v) :
    value = .ok v := by
  subst here
  cases enabled with
  | false => cases found
  | true =>
      cases value with
      | error e => cases found
      | ok v' =>
          cases found
          rfl

/-- At first no hour has been counted, no reboot is held to be unexpected and no monitor is
attached. -/
theorem Collectors.new_ofCatalog {groups : BuiltinGroups} {c : Catalog} {now : UInt64}
    {collectors : Collectors} (made : ofCatalog groups c now = .ok collectors) :
    (∀ r, collectors.reliability = some r →
      r = { hours := r.hours, crashFreeHours := r.crashFreeHours, lastHeartbeat := now }) ∧
    ∀ b, collectors.battery = some b → b.monitored = false := by
  unfold ofCatalog at made
  obtain ⟨connectivity, -, made⟩ := bind_eq_ok.mp made
  obtain ⟨sync, -, made⟩ := bind_eq_ok.mp made
  obtain ⟨reliability, madeReliability, made⟩ := bind_eq_ok.mp made
  obtain ⟨battery, madeBattery, made⟩ := bind_eq_ok.mp made
  obtain rfl := pure_eq_ok.mp made
  constructor
  · intro r here
    obtain ⟨hours, -, found⟩ := bind_eq_ok.mp (of_whenEnabled madeReliability here)
    obtain ⟨crashFreeHours, -, found⟩ := bind_eq_ok.mp found
    obtain rfl := pure_eq_ok.mp found
    rfl
  · intro b here
    obtain ⟨charge, -, found⟩ := bind_eq_ok.mp (of_whenEnabled madeBattery here)
    obtain ⟨chargeDrop, -, found⟩ := bind_eq_ok.mp found
    obtain ⟨dischargeDuration, -, found⟩ := bind_eq_ok.mp found
    obtain rfl := pure_eq_ok.mp found
    rfl

/-! ### What collectors keep -/

namespace Collectors

def Short (c : Collectors) : Prop :=
  ∀ r ∈ c.reliability, r.carried.toNat < Reliability.hourLength

/-- Collectors that go on from others: they keep the keys, and count every full hour. -/
structure Follows (c c' : Collectors) : Prop where
  keys : ∀ group, c'.keys group = c.keys group
  short : c.Short → c'.Short

variable {c c' c'' : Collectors}

theorem Follows.refl (c : Collectors) : Follows c c := ⟨fun _ => rfl, id⟩

theorem Follows.trans (h : Follows c c') (h' : Follows c' c'') : Follows c c'' where
  keys group := (h'.keys group).trans (h.keys group)
  short short := h'.short (h.short short)

theorem short_ofCatalog {groups : BuiltinGroups} {catalog : Catalog} {now : UInt64}
    (made : ofCatalog groups catalog now = .ok c) : c.Short := by
  intro r here
  rw [(new_ofCatalog made).1 r here]
  exact Nat.zero_lt_succ _

theorem follows_collected (c : Collectors) (gauge : Gauge) (now : UInt64) :
    Follows c (c.collected gauge now) where
  keys := c.keys_collected gauge now
  short := by
    rintro - r' next
    obtain ⟨r, -, rfl⟩ := Option.map_eq_some_iff.mp next
    rw [Reliability.toNat_carried_counted]
    exact Nat.mod_lt _ (by decide)

theorem follows_setUnexpectedReboot {unexpected : Bool}
    (ok : c.setUnexpectedReboot unexpected = .ok c') : Follows c c' := by
  unfold setUnexpectedReboot at ok
  cases here : c.reliability with
  | none =>
      rw [here] at ok
      cases ok
  | some r =>
      rw [here] at ok
      obtain rfl := Except.ok.inj ok
      constructor
      · intro group
        cases group with
        | reliability => exact (congrArg (Option.map Reliability.keys) here).symm
        | _ => rfl
      · rintro short r' ⟨⟩
        exact short r here

theorem follows_setBattery {b b' : Battery} (here : c.battery = some b) (same : b'.keys = b.keys) :
    Follows c { c with battery := some b' } := by
  refine ⟨fun group => ?_, id⟩
  cases group with
  | battery => exact (congrArg some same).trans (congrArg (Option.map Battery.keys) here).symm
  | _ => rfl

theorem follows_attachMonitor {gauge : Gauge} {now : UInt64}
    (ok : c.attachMonitor gauge now = .ok c') : Follows c c' := by
  unfold attachMonitor at ok
  cases here : c.battery with
  | none =>
      rw [here] at ok
      cases ok
  | some b =>
      rw [here] at ok
      obtain rfl := Except.ok.inj ok
      exact follows_setBattery here rfl

theorem follows_stopDischarging (ok : c.stopDischarging = .ok c') : Follows c c' := by
  unfold stopDischarging at ok
  cases here : c.battery with
  | none =>
      rw [here] at ok
      cases ok
  | some b =>
      rw [here] at ok
      obtain rfl := Except.ok.inj ok
      exact follows_setBattery here rfl

end Collectors

/-! ### Calls -/

namespace Collectors

def syncCalls (c : Collectors) (success : Bool) : List Call :=
  c.sync.elim [] fun counters =>
    [.add (if success then counters.successful else counters.failure) 1]

variable {groups : BuiltinGroups} {t : Table} {c : Collectors}

theorem Fits.collect (fits : Fits groups t c) (gauge : Gauge) (now : UInt64) :
    c.collect t gauge now = ((t.performAll (c.calls gauge now)).2, c.collected gauge now) :=
  collect_of_strict (fits.collectStrictly gauge now)

theorem changeConnection_table (c : Collectors) (t : Table) (state : ConnectionState)
    (now : UInt64) :
    (c.changeConnection t state now).2 = (t.performAll (c.connectionCalls state now)).2 := by
  unfold changeConnection connectionCalls
  cases c.connectivity with
  | none => rfl
  | some k => rfl

theorem countSync_table (c : Collectors) (t : Table) (success : Bool) :
    (t.settle (c.countSync t success)).2 = (t.performAll (c.syncCalls success)).2 := by
  unfold countSync syncCalls
  cases c.sync with
  | none => rfl
  | some counters => rfl

end Collectors

end DeviceTelemetry
