import DeviceTelemetry.Metric.Error
import DeviceTelemetry.Json.Shape

/-!
# Built-in metrics

Four groups of metrics that a device can have without declaring them. The metrics of the enabled
groups are appended to the declared ones and belong to the heartbeat.
-/

set_option autoImplicit false

namespace DeviceTelemetry

structure BuiltinGroups where
  connectivity : Bool := false
  sync : Bool := false
  reliability : Bool := false
  battery : Bool := false
deriving DecidableEq, Repr

namespace BuiltinGroups

def all : BuiltinGroups where
  connectivity := true
  sync := true
  reliability := true
  battery := true

/-! ### Names of metrics -/

def connectedTime : String := "connectivity_connected_time_ms"

def expectedTime : String := "connectivity_expected_time_ms"

def syncSuccessful : String := "sync_successful"

def syncFailure : String := "sync_failure"

def operationalHours : String := "operational_hours"

def crashFreeHours : String := "operational_crashfree_hours"

def charge : String := "battery_soc_pct"

def chargeDrop : String := "battery_soc_pct_drop"

def dischargeDuration : String := "battery_discharge_duration_ms"

def metricsOf : BuiltinGroup → List MetricDef
  | .connectivity => [.timer connectedTime, .timer expectedTime]
  | .sync => [.unsigned syncSuccessful, .unsigned syncFailure]
  | .reliability => [.unsigned operationalHours, .unsigned crashFreeHours]
  | .battery => [.unsigned charge, .unsigned chargeDrop, .unsigned dischargeDuration]

def enabled (g : BuiltinGroups) : BuiltinGroup → Bool
  | .connectivity => g.connectivity
  | .sync => g.sync
  | .reliability => g.reliability
  | .battery => g.battery

def metrics (g : BuiltinGroups) : List MetricDef :=
  ([.connectivity, .sync, .reliability, .battery].filter g.enabled).flatMap metricsOf

/-! ### As JSON -/

open Json (Library Shape)

/-- All groups may be missing, and are then not enabled. -/
def shape : Shape BuiltinGroups :=
  .record
    (.withDefault "connectivity" .bool false <|
      .withDefault "sync" .bool false <|
      .withDefault "reliability" .bool false <|
      .withDefault "battery" .bool false .none)
    (fun g => (g.connectivity, g.sync, g.reliability, g.battery, ()))
    (fun (connectivity, sync, reliability, battery, _) =>
      { connectivity, sync, reliability, battery })

def ofText (library : Library) (text : String) : Except Json.Fault BuiltinGroups :=
  library.read shape text

end BuiltinGroups

end DeviceTelemetry
