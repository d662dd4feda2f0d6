import DeviceTelemetry.Cbor.Encoder
import DeviceTelemetry.Metric.Table
import DeviceTelemetry.RecordStore.Basic
import DeviceTelemetry.Trace

/-!
# Events

An `Event` is what a device reports: the metrics of a session, or a trace. It is written as a CBOR
map of seven pairs that name the type of the event, the version of its layout, the device, and
what there is to report.
-/

set_option autoImplicit false

namespace DeviceTelemetry

structure Device where
  serial : String := ""
  softwareType : String := ""
  softwareVersion : String := ""
  hardwareVersion : String := ""
deriving DecidableEq, Repr

inductive Event where
  | session (number : Nat) (readings : List Reading)
  | trace (t : Trace)
deriving DecidableEq, Repr

open Cbor (Item)

def Reading.item : Reading → Item
  | .unsigned (some n) => .unsigned n.toUInt64
  | .signed (some n) => .signed n.toInt64
  | .timer (some ms) => .unsigned (UInt64.ofNat ms)
  | .text s => .text s
  | .unsigned none => .null
  | .signed none => .null
  | .timer none => .null

namespace Event

def layoutVersion : UInt64 := 1

def typeCode : Event → UInt64
  | session _ _ => 1
  | trace _ => 2

/-- The pairs that every event starts with, and the key of what follows. -/
def header (device : Device) (typeCode : UInt64) : List Item :=
  [ .mapHead 7,
    .unsigned 2, .unsigned typeCode,
    .unsigned 3, .unsigned layoutVersion,
    .unsigned 7, .text device.serial,
    .unsigned 10, .text device.softwareType,
    .unsigned 9, .text device.softwareVersion,
    .unsigned 6, .text device.hardwareVersion,
    .unsigned 4 ]

def register (key : UInt64) (value : Option UInt32) : List Item :=
  match value with
  | some n => [.unsigned key, .unsigned n.toUInt64]
  | none => []

def body : Event → List Item
  | session number readings =>
    [.mapHead 1, .unsigned (UInt64.ofNat number), .arrayHead readings.length]
      ++ readings.map Reading.item
  | trace t =>
    [.mapHead (1 + t.pc.toList.length + t.lr.toList.length),
      .unsigned 6, .unsigned t.reason.toUInt64]
      ++ register 2 t.pc ++ register 3 t.lr

def items (device : Device) (e : Event) : List Item :=
  header device e.typeCode ++ e.body

def encode (device : Device) (e : Event) : Bytes := Cbor.encodeAll (e.items device)

def size (device : Device) (e : Event) : Nat := Cbor.sizeOf (e.items device)

end Event

/-- What stands for a metric of which there is nothing to read; it is written as null. -/
def Reading.missing : Reading := .unsigned none

def Table.sessionReadings (t : Table) (session : Nat) : List Reading :=
  (t.catalog.sessionKeys session).map fun key => (t.slots[key]?.map Slot.reading).getD .missing

def Table.sessionEvent (t : Table) (session : Nat) : Event :=
  .session session (t.sessionReadings session)

/-! ### Recording

An event becomes one record of a store: a transaction is opened, the items are encoded into it,
and it is closed. If any item does not fit, the whole transaction is taken back. -/

variable {ν : Type}

instance : Cbor.Sink (RecordStore ν) where
  append := RecordStore.append

namespace RecordStore

def recordItems (s : RecordStore ν) (items : List Cbor.Item) :
    Except EncodeError Nat × RecordStore ν :=
  match s.beginWrite with
  | (0, s) => (.error (.outOfSpace 1 0), s)
  | (budget, s) =>
    match (Cbor.Encoder.ofSink s budget).putAll items with
    | (.ok _, encoder) => (.ok encoder.size, encoder.sink.commit)
    | (.error e, encoder) => (.error e, encoder.sink.rollback)

def recordEvent (s : RecordStore ν) (device : Device) (e : Event) :
    Except EncodeError Nat × RecordStore ν :=
  s.recordItems (e.items device)

end RecordStore

/-! ### The largest events

For every session, `Catalog.largestEvent` is the event with the longest encoding that the session
can have. A store that holds the largest event of all behind a record header can hold any event
when it is empty. -/

def Catalog.Entry.largestReading (e : Catalog.Entry) : Reading :=
  match e.kind with
  | .unsigned => .unsigned (some 0xFFFFFFFF)
  | .signed => .signed (some Int32.minValue)
  | .timer => .timer (some 0xFFFFFFFF)
  | .text =>
    .text (String.ofList (List.replicate (Nat.min e.maxLength Catalog.maxTextLength) 'x'))

namespace Catalog

def largestEvent (c : Catalog) (session : Nat) : Event :=
  .session session ((c.sessionKeys session).map fun key =>
    ((c.metric? key).map Entry.largestReading).getD .missing)

def sessionSize (c : Catalog) (device : Device) (session : Nat) : Nat :=
  (c.largestEvent session).size device

def traceSize (device : Device) : Nat := (Event.trace .largest).size device

def largestSize (c : Catalog) (device : Device) : Nat :=
  (c.sessionNumbers.map (c.sessionSize device)).foldl max (traceSize device)

end Catalog

def checkCapacity (capacity size : Nat) : Except MetricError Unit :=
  let needed := size + RecordStore.headerSize
  if needed ≤ capacity then .ok () else .error (.storageTooSmall needed capacity)

end DeviceTelemetry
