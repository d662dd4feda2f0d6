import DeviceTelemetry.Builtin.Battery
import DeviceTelemetry.Builtin.Connectivity
import DeviceTelemetry.Builtin.Groups
import DeviceTelemetry.Builtin.Reliability

/-!
# Collectors

The state behind the built-in metrics of the enabled groups.
-/

set_option autoImplicit false

namespace DeviceTelemetry

structure SyncCounters where
  successful : Nat
  failure : Nat
deriving DecidableEq, Repr

structure Collectors where
  connectivity : Option Connectivity := none
  sync : Option SyncCounters := none
  reliability : Option Reliability := none
  battery : Option Battery := none
deriving DecidableEq, Repr

namespace Collectors

def key (c : Catalog) (name : String) : Except SchemaError Nat :=
  match c.keyOf? name with
  | some key => .ok key
  | none => .error (.missingBuiltin name)

def whenEnabled {α : Type} (enabled : Bool) (value : Except SchemaError α) :
    Except SchemaError (Option α) :=
  if enabled then value.map some else .ok none

def ofCatalog (groups : BuiltinGroups) (c : Catalog) (now : UInt64) :
    Except SchemaError Collectors := do
  let connectivity ← whenEnabled groups.connectivity do
    let connected ← key c BuiltinGroups.connectedTime
    let expected ← key c BuiltinGroups.expectedTime
    return { connected, expected : Connectivity }
  let sync ← whenEnabled groups.sync do
    let successful ← key c BuiltinGroups.syncSuccessful
    let failure ← key c BuiltinGroups.syncFailure
    return { successful, failure : SyncCounters }
  let reliability ← whenEnabled groups.reliability do
    let hours ← key c BuiltinGroups.operationalHours
    let crashFreeHours ← key c BuiltinGroups.crashFreeHours
    return { hours, crashFreeHours, lastHeartbeat := now : Reliability }
  let battery ← whenEnabled groups.battery do
    let charge ← key c BuiltinGroups.charge
    let chargeDrop ← key c BuiltinGroups.chargeDrop
    let dischargeDuration ← key c BuiltinGroups.dischargeDuration
    return { charge, chargeDrop, dischargeDuration, lastSample := now : Battery }
  return { connectivity, sync, reliability, battery }

def disabled {α : Type} (group : BuiltinGroup) : Except MetricError α :=
  .error (.badParameter (.groupDisabled group))

def collected (c : Collectors) (gauge : Gauge) (now : UInt64) : Collectors :=
  { c with
    reliability := c.reliability.map (·.counted now)
    battery := c.battery.map (·.sampled gauge now) }

/-- Counts hours and samples the battery, as is done at every heartbeat. A collector that is
refused something stops there, and the other one goes on. -/
def collect (c : Collectors) (t : Table) (gauge : Gauge) (now : UInt64) : Table × Collectors :=
  let t := c.reliability.elim t fun r => (r.collect t now).2
  let t := c.battery.elim t fun b => (b.collect t gauge now).2
  (t, c.collected gauge now)

def changeConnection (c : Collectors) (t : Table) (state : ConnectionState) (now : UInt64) :
    Except MetricError Unit × Table :=
  match c.connectivity with
  | none => (disabled .connectivity, t)
  | some connectivity => connectivity.change t state now

def countSync (c : Collectors) (t : Table) (success : Bool) : Except MetricError Table :=
  match c.sync with
  | none => disabled .sync
  | some counters => t.add (if success then counters.successful else counters.failure) 1

def setUnexpectedReboot (c : Collectors) (unexpected : Bool) : Except MetricError Collectors :=
  match c.reliability with
  | none => disabled .reliability
  | some r => .ok { c with reliability := some { r with unexpectedReboot := unexpected } }

def attachMonitor (c : Collectors) (gauge : Gauge) (now : UInt64) :
    Except MetricError Collectors :=
  match c.battery with
  | none => disabled .battery
  | some b => .ok { c with battery := some (b.attach gauge now) }

def stopDischarging (c : Collectors) : Except MetricError Collectors :=
  match c.battery with
  | none => disabled .battery
  | some b => .ok { c with battery := some b.interrupt }

end Collectors

end DeviceTelemetry
