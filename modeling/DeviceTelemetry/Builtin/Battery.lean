import DeviceTelemetry.Metric.Call

/-!
# Battery charge

The charge is sampled at each heartbeat. A drop of the charge and the time it took are recorded
only for an interval during which the battery was discharging all the time.
-/

set_option autoImplicit false

namespace DeviceTelemetry

open Table (Call)

structure Gauge where
  /-- The charge in percent. -/
  charge : UInt32 := 0
  discharging : Bool := false
deriving DecidableEq, Repr

structure Battery where
  /-- The key of the charge. -/
  charge : Nat
  /-- The key of the drop of the charge. -/
  chargeDrop : Nat
  /-- The key of the time of discharging. -/
  dischargeDuration : Nat
  monitored : Bool := false
  lastCharge : UInt32 := 0
  lastSample : UInt64
  /-- Whether the battery has not been discharging at some time since the last sample. -/
  interrupted : Bool := true
deriving DecidableEq, Repr

namespace Battery

/-- Attaches a monitor, which is sampled at once. -/
def attach (b : Battery) (gauge : Gauge) (now : UInt64) : Battery :=
  { b with
    monitored := true
    lastCharge := gauge.charge
    lastSample := now
    interrupted := !gauge.discharging }

def interrupt (b : Battery) : Battery := { b with interrupted := true }

def duration (ms : UInt64) : UInt32 := UInt32.ofNat (min ms.toNat 0xFFFFFFFF)

/-- The charge has dropped, or stayed, while the battery was discharging all the time. -/
def Discharged (b : Battery) (gauge : Gauge) : Prop :=
  gauge.discharging = true ∧ b.interrupted = false ∧ gauge.charge ≤ b.lastCharge

instance (b : Battery) (gauge : Gauge) : Decidable (b.Discharged gauge) :=
  inferInstanceAs (Decidable (_ ∧ _ ∧ _))

def calls (b : Battery) (gauge : Gauge) (now : UInt64) : List Call :=
  if b.monitored then
    (if b.Discharged gauge then
      [.setUnsigned b.chargeDrop (b.lastCharge - gauge.charge),
        .setUnsigned b.dischargeDuration (duration (now - b.lastSample))]
    else []) ++ [.setUnsigned b.charge gauge.charge]
  else []

/-- A battery whose monitor is sampled is as one to which it is attached. -/
def sampled (b : Battery) (gauge : Gauge) (now : UInt64) : Battery :=
  if b.monitored then b.attach gauge now else b

/-- Samples the monitor, if one is attached, and records what the interval since the last sample
gives. -/
def collect (b : Battery) (t : Table) (gauge : Gauge) (now : UInt64) :
    Except MetricError Unit × Table :=
  t.performUntilRefused (b.calls gauge now)

end Battery

end DeviceTelemetry
