import DeviceTelemetry.Metric.Table

/-!
# Calls of metric tables

The operations of a table as data: histories and hooks are lists of calls.
-/

set_option autoImplicit false

namespace DeviceTelemetry.Table

inductive Call where
  | setUnsigned (key : Nat) (n : UInt32)
  | setSigned (key : Nat) (n : Int32)
  | setText (key : Nat) (s : String)
  | add (key : Nat) (amount : Int32)
  | startTimer (key : Nat) (now : UInt64)
  | stopTimer (key : Nat) (now : UInt64)
  | isRunning (key : Nat)
  | readUnsigned (key : Nat)
  | readSigned (key : Nat)
  | readTimer (key : Nat) (now : UInt64)
  | readText (key : Nat)
  | kindOf (key : Nat)
  | value (key : Nat)
  | tallySession (session : Nat) (now : UInt64)
  | resetSession (session : Nat)
  | resetAll
deriving DecidableEq, Repr

inductive Answer where
  | done
  | flag (b : Bool)
  | unsigned (n : Option UInt32)
  | signed (n : Option Int32)
  | time (ms : Nat)
  | text (s : String)
  | kind (k : MetricKind)
  | reading (r : Reading)
deriving DecidableEq, Repr

def settle (t : Table) : Except MetricError Table → Except MetricError Answer × Table
  | .ok t' => (.ok .done, t')
  | .error e => (.error e, t)

def perform (t : Table) : Call → Except MetricError Answer × Table
  | .setUnsigned key n => t.settle (t.setUnsigned key n)
  | .setSigned key n => t.settle (t.setSigned key n)
  | .setText key s => t.settle (t.setText key s)
  | .add key amount => t.settle (t.add key amount)
  | .startTimer key now => t.settle (t.startTimer key now)
  | .stopTimer key now => t.settle (t.stopTimer key now)
  | .isRunning key => ((t.isRunning key).map .flag, t)
  | .readUnsigned key => ((t.readUnsigned key).map .unsigned, t)
  | .readSigned key => ((t.readSigned key).map .signed, t)
  | .readTimer key now =>
    match t.readTimer key now with
    | .ok (ms, t) => (.ok (.time ms), t)
    | .error e => (.error e, t)
  | .readText key => ((t.readText key).map .text, t)
  | .kindOf key => ((t.kindOf key).map .kind, t)
  | .value key => ((t.value key).map .reading, t)
  | .tallySession session now => (.ok .done, t.tallySession session now)
  | .resetSession session => (.ok .done, t.resetSession session)
  | .resetAll => (.ok .done, t.resetAll)

def performAll (t : Table) : List Call → List (Except MetricError Answer) × Table
  | [] => ([], t)
  | call :: calls =>
    let (answer, t) := t.perform call
    let (answers, t) := t.performAll calls
    (answer :: answers, t)

/-- The calls in their order, up to the first one that is refused. -/
def performUntilRefused (t : Table) : List Call → Except MetricError Unit × Table
  | [] => (.ok (), t)
  | call :: calls =>
    match t.perform call with
    | (.ok _, t) => t.performUntilRefused calls
    | (.error e, t) => (.error e, t)

end DeviceTelemetry.Table
