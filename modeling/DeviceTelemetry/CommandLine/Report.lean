import DeviceTelemetry.CommandLine.Command
import DeviceTelemetry.Simulation

/-!
# Reports

What the commands print.
-/

set_option autoImplicit false

namespace DeviceTelemetry

structure Report where
  exitCode : UInt32 := 0
  output : String := ""
  errors : String := ""
deriving DecidableEq, Repr

namespace Report

def unlines (ls : List String) : String := String.join (ls.map (· ++ "\n"))

/-! ### The list of metrics -/

def limits (e : Catalog.Entry) : String :=
  match e.kind, e.min, e.max with
  | .text, _, _ => s!"max_length={e.maxLength}"
  | _, some min, some max => s!"range=[{min.toInt}, {max.toInt}]"
  | _, some min, none => s!"min={min.toInt}"
  | _, none, some max => s!"max={max.toInt}"
  | _, none, none => ""

def metricLine (key : Nat) (e : Catalog.Entry) : String :=
  "  " ++ Text.padLeft 5 (toString key) ++ "  " ++ Text.padRight 32 e.name ++ " "
    ++ Text.padRight 9 e.kind.name ++ " " ++ limits e

def sessionName (c : Catalog) (session : Nat) : String :=
  (c.sessionName? session).getD "unknown"

def sessionLines (c : Catalog) (session : Nat) : List String :=
  let keys := c.sessionKeys session
  s!"Session {session} ({sessionName c session}): {keys.length} metrics"
    :: keys.filterMap (fun key => (c.metric? key).map (metricLine key)) ++ [""]

def schemaLines (configuration : Configuration) (c : Catalog) : List String :=
  let device := configuration.device
  [ s!"Device: {device.serial}",
    s!"Software: {device.softwareType} {device.softwareVersion}",
    s!"Hardware: {device.hardwareVersion}",
    s!"Heartbeat interval: {configuration.heartbeatInterval.toNat}s",
    "" ] ++ c.sessionNumbers.flatMap (sessionLines c)

/-! ### The sizes of the largest events -/

/-- The sizes of the largest events, and the smallest storage that holds each of them. -/
def sizeLines (configuration : Configuration) (c : Catalog) : List String :=
  let device := configuration.device
  let sizeColumn (size : Nat) : String := Text.padLeft 6 (toString size) ++ " B"
  let line (session : Nat) : String :=
    "  session " ++ Text.padRight 3 (toString session) ++ " "
      ++ Text.padRight 24 (sessionName c session) ++ " "
      ++ sizeColumn (c.sessionSize device session)
  let smallest := c.largestSize device + RecordStore.headerSize
  "Worst-case event sizes (payload, record header excluded):" :: c.sessionNumbers.map line
    ++ [ "  trace       " ++ Text.padRight 24 "" ++ " " ++ sizeColumn (Catalog.traceSize device),
      "",
      s!"Minimum storage size: {smallest} B (largest event + {RecordStore.headerSize} B record header)" ]

/-! ### Simulations -/

def hexLines (s : Simulation) : List String :=
  s.events.zipIdx.map (fun (event, i) => s!"#{i} ({event.length} B): {Bytes.hex event}")
    ++ ["", s!"Events: {s.events.length}, dropped: {s.dropped}"]

def simulationJson (s : Simulation) : Json.Value :=
  .object
    [ ("dropped", .nat s.dropped),
      ("events",
        .list (s.events.zipIdx.map fun (event, i) =>
          .object
            [("hex", .text (Bytes.hex event)), ("index", .nat i), ("size", .nat event.length)])),
      ("heartbeats", .nat s.heartbeats),
      ("storage_bytes", .nat s.storageBytes) ]

def simulationLines (library : Json.Library) (s : Simulation) : OutputFormat → List String
  | .hex => hexLines s
  | .json => [library.pretty (simulationJson s)]

def warningLines : BootStatus → List String
  | .ok => []
  | .storageTooSmall needed available =>
    [s!"Warning: storage holds {available} B, largest event needs {needed} B"]

/-! ### Commands -/

def ofError (message : String) : Report where
  exitCode := 1
  errors := s!"Error: {message}\n"

def load (library : Json.Library) (path : String) (content : Except String ByteArray) :
    Except Failure (Configuration × Catalog) := do
  let bytes ← content.mapError fun reason => .configuration (.unreadable path reason)
  let configuration ← Configuration.ofFile library path bytes
  return (configuration, ← configuration.catalog)

/-- The report of a command, given the content of its file or why it cannot be read. -/
def ofCommand (library : Json.Library) (command : Command) (content : Except String ByteArray) :
    Report :=
  match load library command.path content with
  | .error e => ofError e.message
  | .ok (configuration, catalog) =>
    match command with
    | .schema _ => { output := unlines (schemaLines configuration catalog) }
    | .size _ => { output := unlines (sizeLines configuration catalog) }
    | .simulate _ storageBytes heartbeats format =>
      match Simulation.run configuration storageBytes heartbeats with
      | .error e => ofError e.message
      | .ok s =>
        { output := unlines (simulationLines library s format)
          errors := unlines (warningLines s.bootStatus) }

def usage : Report where
  exitCode := 2
  errors := unlines
    [ "usage: device-telemetry schema FILE",
      "       device-telemetry size FILE",
      "       device-telemetry simulate FILE [--storage-bytes N] [--heartbeats N] [--format hex|json]" ]

end Report

end DeviceTelemetry
