import DeviceTelemetry.RecordStore.Reading

/-!
# Draining records

A reader drains a store in rounds: it asks whether there is more, reads, and marks what it has
read. While a non-volatile store is attached and can be used, each step of a round is served by
it; otherwise the records of the ring are handed out. `persist` moves records of the ring into the
non-volatile store.
-/

set_option autoImplicit false

namespace DeviceTelemetry.RecordStore

variable {ν : Type} [Nonvolatile ν]

/-- Asks the non-volatile store whether it can be used. If it can no longer, what was handed out
is taken back. -/
def pollBacking (s : RecordStore ν) : Option ν × RecordStore ν :=
  match s.backing with
  | none => (none, if s.backingSeen then { s with handout := none, backingSeen := false } else s)
  | some backing =>
    match Nonvolatile.poll backing with
    | (true, backing) => (some backing, { s with backing := some backing, backingSeen := true })
    | (false, backing) =>
      (none,
        { s with
          backing := some backing
          backingSeen := false
          handout := if s.backingSeen then none else s.handout })

/-- Hands out the next piece to read and returns its size, or `none` if there is nothing. -/
def hasMore (s : RecordStore ν) : Option Nat × RecordStore ν :=
  match s.pollBacking with
  | (some backing, s) =>
    let (size, backing) := Nonvolatile.oldest backing
    (size, { s with backing := some backing })
  | (none, s) =>
    match s.batchLimit, s.handout with
    | some limit, _ => s.hasBatch limit
    | none, some handout => (some handout.size, s)
    | none, none => s.hasRecord

def read (s : RecordStore ν) (offset length : Nat) : Option Bytes × RecordStore ν :=
  match s.pollBacking with
  | (some backing, s) =>
    let (bs, backing) := Nonvolatile.read backing offset length
    (bs, { s with backing := some backing })
  | (none, s) => (s.readRecord offset length, s)

/-- Drops what was handed out last. After a non-volatile event the levels are reported if the ring
holds a record as well. -/
def markRead (s : RecordStore ν) : RecordStore ν :=
  match s.pollBacking with
  | (some backing, s) =>
    match { s with backing := some (Nonvolatile.discard backing) }.hasRecord with
    | (some _, s) => s.report
    | (none, s) => s
  | (none, s) => s.markRecordRead

def payloadSource (s : RecordStore ν) (payload offset length : Nat) : Option Bytes :=
  if offset + length ≤ payload then (s.ring.read (headerSize + offset) length).toOption else none

/-- Offers at most `count` records to the non-volatile store, oldest first, until one is refused.
Returns the number of those taken. -/
def offer (s : RecordStore ν) (backing : ν) : Nat → Nat × RecordStore ν
  | 0 => (0, { s with backing := some backing })
  | count + 1 =>
    match s.hasRecord with
    | (none, s) => (0, { s with backing := some backing })
    | (some payload, s) =>
      match Nonvolatile.write backing payload (s.payloadSource payload) with
      | (false, backing) => (0, { s with backing := some backing })
      | (true, backing) =>
        let (saved, s) := s.markRecordRead.offer backing count
        (saved + 1, s)

/-- Moves records of the ring into the non-volatile store, if it can be used, and returns how
many. -/
def persist (s : RecordStore ν) : Nat × RecordStore ν :=
  match s.pollBacking with
  | (none, s) => (0, s)
  | (some backing, s) => s.offer backing s.ring.count

inductive Round where
  | nothing
  /-- The announced bytes could not be read. -/
  | unreadable
  | event (bs : Bytes)
deriving DecidableEq, Repr

/-- One round of draining: asks, reads everything and marks it as read. -/
def drainOne (s : RecordStore ν) : Round × RecordStore ν :=
  match s.hasMore with
  | (none, s) => (.nothing, s)
  | (some size, s) =>
    let (bs, s) := s.read 0 size
    ((bs.map .event).getD .unreadable, s.markRead)

def drain (s : RecordStore ν) : Nat → List Round × RecordStore ν
  | 0 => ([], s)
  | count + 1 =>
    match s.drainOne with
    | (.nothing, s) => ([], s)
    | (round, s) =>
      let (rounds, s) := s.drain count
      (round :: rounds, s)

end DeviceTelemetry.RecordStore
