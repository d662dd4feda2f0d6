import DeviceTelemetry.Bytes

/-!
# Non-volatile stores

`Nonvolatile` is the contract of a slower store behind the record store. It promises nothing about
its answers: a store may change at every call, refuse any event and turn itself off.

`EventQueue` is a store that keeps its events in a list, oldest first.
-/

set_option autoImplicit false

namespace DeviceTelemetry

/-- A platform's store for events, with the state that each call leaves behind. -/
class Nonvolatile (ν : Type) where
  poll : ν → Bool × ν
  oldest : ν → Option Nat × ν
  read : ν → Nat → Nat → Option Bytes × ν
  discard : ν → ν
  /-- Offers an event of the given size, whose bytes at an offset and of a length the store may
  ask for; answers whether it was taken. -/
  write : ν → Nat → (Nat → Nat → Option Bytes) → Bool × ν

instance : Nonvolatile Empty where
  poll := nofun
  oldest := nofun
  read := nofun
  discard := nofun
  write := nofun

structure EventQueue where
  enabled : Bool := true
  /-- The number of events from which on the store refuses more, if there is such a number. -/
  limit : Option Nat := none
  /-- The size of the pieces in which an event is fetched, or `none` to fetch it whole. -/
  chunk : Option Nat := none
  /-- The events held, oldest first. -/
  events : List Bytes := []
  /-- Ranges that the store looks at before it decides on an event: offset and length. -/
  probes : List (Nat × Nat) := []
  /-- What the looks so far have shown, the latest first. -/
  probed : List (Option Bytes) := []

namespace EventQueue

/-- The lengths of the pieces of at most `chunk` bytes into which `size` bytes fall. -/
def pieceLengths (chunk size : Nat) : List Nat :=
  List.replicate (size / chunk) chunk ++ if size % chunk = 0 then [] else [size % chunk]

/-- The bytes of consecutive pieces from an offset on, if all of them can be fetched. -/
def fetch (source : Nat → Nat → Option Bytes) (offset : Nat) : List Nat → Option Bytes
  | [] => some []
  | length :: lengths =>
    match source offset length with
    | none => none
    | some piece => (fetch source (offset + length) lengths).map (piece ++ ·)

def chunkFor (q : EventQueue) (size : Nat) : Nat :=
  max 1 (min (q.chunk.getD size) size)

/-- Looks at the probed ranges, then takes the event unless the queue is full or a piece is
missing. -/
def write (q : EventQueue) (size : Nat) (source : Nat → Nat → Option Bytes) : Bool × EventQueue :=
  let looks := q.probes.map fun (offset, length) => source offset length
  let q := { q with probed := looks.reverse ++ q.probed }
  if q.limit.any (· ≤ q.events.length) then (false, q)
  else
    match fetch source 0 (pieceLengths (q.chunkFor size) size) with
    | none => (false, q)
    | some event => (true, { q with events := q.events ++ [event] })

def read (q : EventQueue) (offset length : Nat) : Option Bytes :=
  match q.events with
  | [] => none
  | event :: _ =>
    if offset + length ≤ event.length then some ((event.drop offset).take length) else none

instance : Nonvolatile EventQueue where
  poll q := (q.enabled, q)
  oldest q := (q.events.head?.map List.length, q)
  read q offset length := (q.read offset length, q)
  discard q := { q with events := q.events.tail }
  write := write

end EventQueue

end DeviceTelemetry
