import DeviceTelemetry.Agent.Operation

/-!
# Simulations

A simulation lets a device live through a number of heartbeats. In every round each metric is
given a value that depends on the round alone, every user session is begun and ended, and the
heartbeat is reported. At the end the recorded events are drained.
-/

set_option autoImplicit false

namespace DeviceTelemetry

structure Simulation where
  storageBytes : Nat
  heartbeats : Nat
  bootStatus : BootStatus
  dropped : Nat
  /-- The events that were drained, oldest first. -/
  events : List Bytes
deriving DecidableEq, Repr

inductive SimulationError where
  | device (f : Failure)
  /-- An event that was announced could not be read. -/
  | unreadableEvent
deriving DecidableEq, Repr

def SimulationError.message : SimulationError → String
  | device f => f.message
  | unreadableEvent => "failed to read stored event"

namespace Simulation

abbrev Subject := Agent Empty

def step (round : Nat) : Nat := round % 1000

def operation (round key : Nat) : MetricKind → Agent.Operation Empty
  | .unsigned => .add key (Int32.ofNat (step round + 1))
  | .signed => .setSigned key (Int32.ofInt (-step round))
  | .text => .setText key s!"round-{round}"
  | .timer => .startTimer key

/-- Gives a metric its value in a round. A timer that is running already goes on. -/
def driveMetric (round : Nat) (a : Subject) (key : Nat) : Except Failure Subject :=
  match a.table.catalog.metric? key with
  | none => .ok a
  | some entry =>
    match a.perform (operation round key entry.kind), entry.kind with
    | (.error e, _), .unsigned | (.error e, _), .signed | (.error e, _), .text => .error e
    | (_, a), _ => .ok a

def driveSession (round session : Nat) (a : Subject) : Except Failure Subject :=
  let keys := (a.table.catalog.sessionKeys session).filter fun key =>
    a.table.catalog.durationKey? session ≠ some key
  keys.foldlM (driveMetric round) a

def intervalLength (a : Subject) : UInt64 := a.heartbeatInterval.toUInt64 * 1000

/-- Begins a user session, drives it for a quarter of the interval and ends it. -/
def liveSession (round : Nat) (a : Subject) (session : Nat) : Except Failure Subject := do
  match a.perform (.startSession session) with
  | (.error _, a) => return a
  | (.ok _, a) =>
    let a ← driveSession round session a
    let (_, a) := a.perform (.advance (intervalLength a / 4))
    return (a.perform (.endSession session)).2

def liveRound (round : Nat) (a : Subject) : Except Failure Subject := do
  let a ← driveSession round Catalog.heartbeat a
  let a ← (a.table.catalog.sessionNumbers.drop 1).foldlM (liveSession round) a
  let (_, a) := a.perform (.advance (intervalLength a))
  return (a.perform .heartbeat).2

def liveRounds (round : Nat) (a : Subject) : Nat → Except Failure Subject
  | 0 => .ok a
  | count + 1 =>
    match liveRound round a with
    | .ok a => liveRounds (round + 1) a count
    | .error e => .error e

def eventsOf : List RecordStore.Round → Except SimulationError (List Bytes)
  | [] => .ok []
  | .event bs :: rounds => (eventsOf rounds).map (bs :: ·)
  | _ :: _ => .error .unreadableEvent

/-- Simulates a device with the given storage for a number of heartbeats. -/
def run (configuration : Configuration) (storageBytes heartbeats : Nat) :
    Except SimulationError Simulation := do
  let a ← (Agent.boot configuration storageBytes {}).mapError .device
  let bootStatus := a.bootStatus
  let a ← (liveRounds 0 a heartbeats).mapError .device
  let dropped := a.droppedEvents
  let (rounds, _) := a.drain (a.store.ring.count + 1)
  let events ← eventsOf rounds
  return { storageBytes, heartbeats, bootStatus, dropped, events }

end Simulation

end DeviceTelemetry
