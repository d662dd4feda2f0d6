import DeviceTelemetry.Builtin.Groups
import DeviceTelemetry.Event
import DeviceTelemetry.Ring.Basic
import DeviceTelemetry.Schema.Catalog

/-!
# Configurations

A `Configuration` is all that a device needs to know to report: who it is, how often it reports,
what it measures, and how its records are handed out. It is read from JSON and must be valid. A
`Failure` is all that can go wrong with it and with what is built from it.
-/

set_option autoImplicit false

namespace DeviceTelemetry

structure Configuration where
  device : Device
  /-- The seconds between two heartbeats. -/
  heartbeatInterval : UInt32 := 3600
  schema : Schema
  builtins : BuiltinGroups := {}
  /-- The most payload bytes of a batch, or `none` to read record by record. -/
  batchLimit : Option UInt64 := none
deriving DecidableEq, Repr

inductive ConfigurationError where
  | unreadable (path reason : String)
  | malformed (path : String) (fault : Json.Fault)
  | invalidHeartbeatInterval
deriving DecidableEq, Repr

def Json.Fault.message : Json.Fault → String
  | ended => "the text ends too early"
  | malformed => "the text is not JSON"
  | unfit => "the text is not of the expected shape"

def ConfigurationError.message : ConfigurationError → String
  | unreadable path reason => s!"failed to read config '{path}': {reason}"
  | malformed path fault => s!"failed to parse config '{path}': {fault.message}"
  | invalidHeartbeatInterval => "heartbeat interval must be greater than zero"

inductive Failure where
  | ring (e : RingError)
  | metric (e : MetricError)
  | schema (e : SchemaError)
  | configuration (e : ConfigurationError)
  | trace (e : TraceError)
  | encode (e : EncodeError)
deriving DecidableEq, Repr

def Failure.message : Failure → String
  | ring e => s!"ring buffer error: {e.message}"
  | metric e => s!"metrics error: {e.message}"
  | schema e => s!"schema error: {e.message}"
  | configuration e => s!"config error: {e.message}"
  | trace e => s!"trace error: {e.message}"
  | encode e => s!"encode error: {e.message}"

/-! ### As JSON -/

open Json (Library Shape)

def Device.shape : Shape Device :=
  .record
    (.required "device_serial" .text <|
      .required "software_type" .text <|
      .required "software_version" .text <|
      .required "hardware_version" .text .none)
    (fun d => (d.serial, d.softwareType, d.softwareVersion, d.hardwareVersion, ()))
    (fun (serial, softwareType, softwareVersion, hardwareVersion, _) =>
      { serial, softwareType, softwareVersion, hardwareVersion })

namespace Configuration

/-- The device and the schema must be there. All fields are written but a batch limit that a
configuration does not have. -/
def shape : Shape Configuration :=
  .record
    (.required "device" Device.shape <|
      .withDefault "heartbeat_interval_secs" .uint32 3600 <|
      .required "schema" Schema.shape <|
      .withDefault "builtins" BuiltinGroups.shape {} <|
      .optional "read_batch_max_bytes" .uint64 .none)
    (fun c => (c.device, c.heartbeatInterval, c.schema, c.builtins, c.batchLimit, ()))
    (fun (device, heartbeatInterval, schema, builtins, batchLimit, _) =>
      { device, heartbeatInterval, schema, builtins, batchLimit })

def toText (library : Library) (c : Configuration) : String := library.pretty (shape.document c)

def effectiveSchema (c : Configuration) : Schema :=
  { c.schema with metrics := c.schema.metrics ++ c.builtins.metrics }

def catalog (c : Configuration) : Except Failure Catalog :=
  if c.heartbeatInterval = 0 then .error (.configuration .invalidHeartbeatInterval)
  else c.effectiveSchema.catalog.mapError .schema

def validate (c : Configuration) : Except Failure Unit := c.catalog.map fun _ => ()

def ofFileText (library : Library) (path text : String) : Except Failure Configuration := do
  let c ← (library.read shape text).mapError fun fault => .configuration (.malformed path fault)
  c.validate
  return c

def ofText (library : Library) (text : String) : Except Failure Configuration :=
  ofFileText library "" text

/-- Reads a configuration from the bytes of the file at a path, which must be UTF-8, and checks
it. -/
def ofFile (library : Library) (path : String) (bytes : ByteArray) : Except Failure Configuration :=
  match String.fromUTF8? bytes with
  | some text => ofFileText library path text
  | none => .error (.configuration (.unreadable path "the file is not text in UTF-8"))

end Configuration

end DeviceTelemetry
