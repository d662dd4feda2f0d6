import DeviceTelemetry.Metric.Error
import DeviceTelemetry.Metric.Slot
import DeviceTelemetry.Schema.Catalog

/-!
# Metric tables

A `Table` holds a slot for every metric of a catalog, by key. An operation on a key is refused if
there is no such metric or it is of another kind; a refused operation leaves the table as it was.
-/

set_option autoImplicit false

namespace DeviceTelemetry

structure Table where
  catalog : Catalog
  slots : Array Slot
deriving DecidableEq, Repr

namespace Table

def ofCatalog (catalog : Catalog) : Table where
  catalog := catalog
  slots := catalog.entries.map fun e => Slot.empty e.kind e.maxLength

def slot (t : Table) (key : Nat) : Except MetricError Slot :=
  match t.slots[key]? with
  | some slot => .ok slot
  | none => .error (.keyNotFound key)

def set (t : Table) (key : Nat) (slot : Slot) : Table :=
  { t with slots := t.slots.setIfInBounds key slot }

def mismatch {α : Type} (key : Nat) (expected : MetricKind) (slot : Slot) : Except MetricError α :=
  .error (.typeMismatch key expected slot.kind)

/-! ### Setting values -/

def setUnsigned (t : Table) (key : Nat) (n : UInt32) : Except MetricError Table := do
  match ← t.slot key with
  | .unsigned _ => return t.set key (.unsigned (some n))
  | slot => mismatch key .unsigned slot

def setSigned (t : Table) (key : Nat) (n : Int32) : Except MetricError Table := do
  match ← t.slot key with
  | .signed _ => return t.set key (.signed (some n))
  | slot => mismatch key .signed slot

/-- Sets a text, of which as many whole characters are kept as the limit allows. -/
def setText (t : Table) (key : Nat) (s : String) : Except MetricError Table := do
  match ← t.slot key with
  | .text limit _ => return t.set key (.text limit (Text.truncate s limit))
  | slot => mismatch key .text slot

/-- Adds an amount to a number, which counts as zero if it is not set. The sum stays within the
range of its kind. -/
def add (t : Table) (key : Nat) (amount : Int32) : Except MetricError Table := do
  match ← t.slot key with
  | .unsigned n => return t.set key (.unsigned (some (Slot.addUnsigned (n.getD 0) amount)))
  | .signed n => return t.set key (.signed (some (Slot.addSigned (n.getD 0) amount)))
  | slot => mismatch key .unsigned slot

/-! ### Timers -/

def startTimer (t : Table) (key : Nat) (now : UInt64) : Except MetricError Table := do
  match ← t.slot key with
  | .timer timer =>
    match timer.start? now with
    | some timer => return t.set key (.timer timer)
    | none => throw (.noChange key)
  | slot => mismatch key .timer slot

def stopTimer (t : Table) (key : Nat) (now : UInt64) : Except MetricError Table := do
  match ← t.slot key with
  | .timer timer =>
    match timer.stop? now with
    | some timer => return t.set key (.timer timer)
    | none => throw (.noChange key)
  | slot => mismatch key .timer slot

def isRunning (t : Table) (key : Nat) : Except MetricError Bool := do
  match ← t.slot key with
  | .timer timer => return timer.isRunning
  | slot => mismatch key .timer slot

/-- The time of a timer up to now, and the table in which it has been added up. -/
def readTimer (t : Table) (key : Nat) (now : UInt64) : Except MetricError (Nat × Table) := do
  match ← t.slot key with
  | .timer timer =>
    let timer := timer.tally now
    return (timer.elapsed, t.set key (.timer timer))
  | slot => mismatch key .timer slot

/-! ### Reading values -/

def readUnsigned (t : Table) (key : Nat) : Except MetricError (Option UInt32) := do
  match ← t.slot key with
  | .unsigned n => return n
  | slot => mismatch key .unsigned slot

def readSigned (t : Table) (key : Nat) : Except MetricError (Option Int32) := do
  match ← t.slot key with
  | .signed n => return n
  | slot => mismatch key .signed slot

def readText (t : Table) (key : Nat) : Except MetricError String := do
  match ← t.slot key with
  | .text _ s => return s
  | slot => mismatch key .text slot

def kindOf (t : Table) (key : Nat) : Except MetricError MetricKind := do
  return (← t.slot key).kind

def value (t : Table) (key : Nat) : Except MetricError Reading := do
  return (← t.slot key).reading

def readings (t : Table) : List Reading := t.slots.toList.map Slot.reading

/-! ### Sessions -/

def mapSession (t : Table) (session : Nat) (f : Slot → Slot) : Table :=
  { t with
    slots := (t.catalog.sessionKeys session).foldl (fun slots key => slots.modify key f) t.slots }

def tallySession (t : Table) (session : Nat) (now : UInt64) : Table :=
  t.mapSession session (Slot.tally now)

def resetSession (t : Table) (session : Nat) : Table := t.mapSession session Slot.reset

def resetAll (t : Table) : Table := { t with slots := t.slots.map Slot.clear }

end Table

end DeviceTelemetry
