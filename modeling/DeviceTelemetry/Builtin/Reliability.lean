import DeviceTelemetry.Metric.Call

/-!
# Operational hours

Full hours of operation are counted at each heartbeat; what is short of an hour is carried over.
The reboot that began the operation costs one crash-free hour if it was unexpected, once, at the
first heartbeat that counts an hour. Times are words of 64 bits, in milliseconds.
-/

set_option autoImplicit false

namespace DeviceTelemetry

open Table (Call)

structure Reliability where
  /-- The key of the hours of operation. -/
  hours : Nat
  /-- The key of the hours of operation without a crash. -/
  crashFreeHours : Nat
  lastHeartbeat : UInt64
  /-- The time not yet counted. -/
  carried : UInt64 := 0
  unexpectedReboot : Bool := false
  begun : Bool := false
deriving DecidableEq, Repr

namespace Reliability

def hourLength : Nat := 60 * 60 * 1000

/-- The time since the last heartbeat, none if the clock went back. -/
def sinceLast (r : Reliability) (now : UInt64) : UInt64 :=
  if now < r.lastHeartbeat then 0 else now - r.lastHeartbeat

/-- The time that a heartbeat has to count. A sum that is too large for a word goes around. -/
def uncounted (r : Reliability) (now : UInt64) : UInt64 := r.carried + r.sinceLast now

def fullHours (r : Reliability) (now : UInt64) : UInt64 :=
  r.uncounted now / UInt64.ofNat hourLength

/-- The hours that an unexpected reboot costs when hours are counted. -/
def lost (r : Reliability) : UInt64 := if !r.begun && r.unexpectedReboot then 1 else 0

def amount (n : UInt64) : Int32 := Int32.ofNat (min n.toNat 0x7FFFFFFF)

def calls (r : Reliability) (now : UInt64) : List Call :=
  if r.fullHours now = 0 then []
  else
    [.add r.hours (amount (r.fullHours now)),
      .add r.crashFreeHours (amount (r.fullHours now - r.lost))]

def counted (r : Reliability) (now : UInt64) : Reliability :=
  { r with
    lastHeartbeat := now
    carried := r.uncounted now - r.fullHours now * UInt64.ofNat hourLength
    begun := r.begun || r.fullHours now != 0 }

def collect (r : Reliability) (t : Table) (now : UInt64) : Except MetricError Unit × Table :=
  t.performUntilRefused (r.calls now)

end Reliability

end DeviceTelemetry
