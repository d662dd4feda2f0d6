import DeviceTelemetry.Metric.Call

/-!
# Connectivity times

One timer runs while a connection is expected, another while there is one. They are driven by the
state of the connection; a state may be reported again, or out of order.
-/

set_option autoImplicit false

namespace DeviceTelemetry

inductive ConnectionState where
  | stopped
  | started
  | connected
  /-- The connection is lost, but still expected. -/
  | lost
deriving DecidableEq, Repr

structure Connectivity where
  connected : Nat
  expected : Nat
deriving DecidableEq, Repr

namespace Connectivity

def calls (c : Connectivity) (now : UInt64) : ConnectionState → List Table.Call
  | .stopped => [.stopTimer c.expected now, .stopTimer c.connected now]
  | .started => [.startTimer c.expected now]
  | .connected => [.startTimer c.expected now, .startTimer c.connected now]
  | .lost => [.startTimer c.expected now, .stopTimer c.connected now]

/-- The first error, not counting timers that are in the requested state already. -/
def firstError : List (Except MetricError Table.Answer) → Except MetricError Unit
  | [] => .ok ()
  | .ok _ :: answers => firstError answers
  | .error (.noChange _) :: answers => firstError answers
  | .error e :: _ => .error e

def change (c : Connectivity) (t : Table) (state : ConnectionState) (now : UInt64) :
    Except MetricError Unit × Table :=
  let (answers, t) := t.performAll (c.calls now state)
  (firstError answers, t)

end Connectivity

end DeviceTelemetry
