import DeviceTelemetry.Builtin.Collectors
import DeviceTelemetry.Configuration
import DeviceTelemetry.Metric.Call
import DeviceTelemetry.RecordStore.Draining

/-!
# The agent

An `Agent` measures and reports for one device. It holds the metrics, the store of events, the
mailbox for traces and the state of the built-in metrics, and it works on a `Platform`: a clock, a
battery and a lock that it enters for every operation on its state.

This file holds the state of an agent and how it boots.
-/

set_option autoImplicit false

namespace DeviceTelemetry

/-- The critical sections of a lock: how deep they are nested at the moment, how deep they have ever
been, and how often one was entered. -/
structure Lock where
  depth : Nat := 0
  maxDepth : Nat := 0
  entries : Nat := 0
deriving DecidableEq, Repr

namespace Lock

def enter (l : Lock) : Lock where
  depth := l.depth + 1
  maxDepth := max l.maxDepth (l.depth + 1)
  entries := l.entries + 1

def leave (l : Lock) : Lock :=
  { l with depth := l.depth - 1 }

end Lock

structure Platform where
  /-- The milliseconds since the device was switched on. -/
  clock : UInt64 := 0
  gauge : Gauge := {}
  lock : Lock := {}
deriving DecidableEq, Repr

inductive HookStep where
  | call (c : Table.Call)
  | stage (t : Trace)
deriving DecidableEq, Repr

abbrev Hook := List HookStep

inductive HookPoint where
  | heartbeat
  | sessionEnd (session : Nat)
deriving DecidableEq, Repr

structure HookRun where
  point : HookPoint
  before : List Reading
  answers : List (Except MetricError Table.Answer)

/-- Whether the store can hold every event of the device. -/
inductive BootStatus where
  | ok
  /-- It cannot hold the largest one. -/
  | storageTooSmall (needed available : Nat)
deriving DecidableEq, Repr

structure Agent (ν : Type) where
  store : RecordStore ν
  table : Table
  device : Device
  /-- The seconds between two heartbeats. -/
  heartbeatInterval : UInt32
  bootStatus : BootStatus
  collectors : Collectors
  platform : Platform
  collectHook : Option Hook := none
  sessionEndHooks : List (Nat × Hook) := []
  mailbox : Mailbox := .empty
  droppedEvents : Nat := 0
  /-- What hooks have done so far, the latest first. -/
  hookRuns : List HookRun := []

namespace Agent

variable {ν : Type}

/-- The agent of a device over `capacity` bytes of storage, in which nothing has been recorded. -/
def boot (configuration : Configuration) (capacity : Nat) (platform : Platform) :
    Except Failure (Agent ν) := do
  let catalog ← configuration.catalog
  let collectors ←
    (Collectors.ofCatalog configuration.builtins catalog platform.clock).mapError .schema
  let store ← (RecordStore.ofCapacity capacity).mapError .ring
  let store := store.setBatchLimit (configuration.batchLimit.map UInt64.toNat)
  let needed := catalog.largestSize configuration.device
  let bootStatus :=
    match checkCapacity capacity needed with
    | .error (.storageTooSmall needed available) => .storageTooSmall needed available
    | _ => .ok
  return {
    store, collectors, platform, bootStatus
    table := .ofCatalog catalog
    device := configuration.device
    heartbeatInterval := configuration.heartbeatInterval }

def teardown (a : Agent ν) : Array UInt8 := a.store.ring.cells

def locked {α : Type} (a : Agent ν) (f : Agent ν → α × Agent ν) : α × Agent ν :=
  let (x, a) := f { a with platform.lock := a.platform.lock.enter }
  (x, { a with platform.lock := a.platform.lock.leave })

def now (a : Agent ν) : UInt64 := a.platform.clock

def withStore {α : Type} (a : Agent ν) (f : RecordStore ν → α × RecordStore ν) : α × Agent ν :=
  let (x, store) := f a.store
  (x, { a with store })

def alterTable (a : Agent ν) (f : Table → Except MetricError Table) :
    Except MetricError Unit × Agent ν :=
  match f a.table with
  | .ok table => (.ok (), { a with table })
  | .error e => (.error e, a)

def alterCollectors (a : Agent ν) (f : Collectors → Except MetricError Collectors) :
    Except MetricError Unit × Agent ν :=
  match f a.collectors with
  | .ok collectors => (.ok (), { a with collectors })
  | .error e => (.error e, a)

end Agent

end DeviceTelemetry
