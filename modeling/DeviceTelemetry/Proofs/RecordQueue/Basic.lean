import DeviceTelemetry.RecordStore.Operation

/-!
# The queue of records

A `RecordQueue` is what a record store is meant to be: the payloads of the finished records,
oldest first, the payload of the open transaction if there is one, and the number of records that
the reader holds. It has the operations of a store, said of lists of payloads instead of bytes in
a ring. The cell of the oldest byte is kept as well, since it decides where a payload is cut into
two runs.

`RecordQueue.image` is the string of bytes that a ring holds for a queue: each record behind its
size, low byte first, and then the open transaction behind the mark.
-/

set_option autoImplicit false

namespace DeviceTelemetry

open RecordStore (headerSize openMark maxRecordSize Operation Answer Round)

/-- The payloads of a record store. -/
structure RecordQueue (ν : Type) where
  capacity : Nat
  /-- The cell of the oldest byte. -/
  start : Nat := 0
  /-- The payloads of the finished records, oldest first. -/
  records : List Bytes := []
  /-- The payload of the open transaction. -/
  opened : Option Bytes := none
  /-- The number of records that the reader holds; they are the oldest ones. -/
  handed : Option Nat := none
  batchLimit : Option Nat := none
  backing : Option ν := none
  backingSeen : Bool := false
  observed : Bool := false
  reports : List Levels := []

namespace RecordQueue

def frame (payload : Bytes) : Bytes := Bytes.ofWord (payload.length + headerSize) ++ payload

def openFrame (payload : Bytes) : Bytes := Bytes.ofWord openMark ++ payload

def imageOf (records : List Bytes) (opened : Option Bytes) : Bytes :=
  records.flatMap frame ++ (opened.map openFrame).getD []

/-- The bytes that the first `n` records take, headers included. -/
def span (records : List Bytes) (n : Nat) : Nat := ((records.take n).flatMap frame).length

def leadOf (n : Nat) : Bytes := if n > 1 then Cbor.arrayHead n else []

/-- What a reader that holds `n` records can read. -/
def batchText (records : List Bytes) (n : Nat) : Bytes := leadOf n ++ (records.take n).flatten

def furtherCount (limit : Nat) : Nat → List Bytes → Nat
  | _, [] => 0
  | total, p :: ps =>
    if total + p.length ≤ limit then furtherCount limit (total + p.length) ps + 1 else 0

/-- The number of records in a batch of the oldest ones. The first is in whatever its size. -/
def batchCount (limit : Nat) : List Bytes → Nat
  | [] => 0
  | p :: ps => furtherCount limit p.length ps + 1

variable {ν : Type}

def ofCapacity (capacity : Nat) : RecordQueue ν where
  capacity := capacity

def image (q : RecordQueue ν) : Bytes := imageOf q.records q.opened

def levels (q : RecordQueue ν) : Levels where
  used := q.image.length
  free := q.capacity - q.image.length

def free (q : RecordQueue ν) : Nat := q.levels.free

def report (q : RecordQueue ν) : RecordQueue ν :=
  if q.observed then { q with reports := q.levels :: q.reports } else q

/-! ### Writing -/

/-- Opens a transaction if none is open and at least one byte fits behind the header. -/
def beginWrite (q : RecordQueue ν) : Nat × RecordQueue ν :=
  if q.opened = none ∧ headerSize < q.free then
    (q.free - headerSize, { q with opened := some [] })
  else (0, q)

/-- Extends the open transaction if the bytes fit into the ring and into a record. -/
def append (q : RecordQueue ν) (bs : Bytes) : Bool × RecordQueue ν :=
  match q.opened with
  | none => (false, q)
  | some p =>
    if bs.length ≤ q.free ∧ p.length + headerSize + bs.length ≤ maxRecordSize then
      (true, { q with opened := some (p ++ bs) })
    else (false, q)

/-- Closes the open transaction: its payload becomes the newest record or is dropped. -/
def finishWrite (q : RecordQueue ν) (undo : Bool) : RecordQueue ν :=
  match q.opened with
  | none => q
  | some p =>
    if undo then { q with opened := none }
    else { q with records := q.records ++ [p], opened := none }.report

def writeRecord (q : RecordQueue ν) (payload : Bytes) : Bool × RecordQueue ν :=
  match q.beginWrite with
  | (0, q) => (false, q)
  | (_, q) =>
    let (kept, q) := q.append payload
    (kept, q.finishWrite (!kept))

/-! ### Reading -/

def hasRecord (q : RecordQueue ν) : Option Nat × RecordQueue ν :=
  match q.records with
  | [] => (none, q)
  | p :: _ => (some p.length, { q with handed := some 1 })

/-- Hands out a batch of the oldest records unless records are handed out already. -/
def hasBatch (q : RecordQueue ν) (limit : Nat) : Option Nat × RecordQueue ν :=
  match q.handed with
  | some n => (some (batchText q.records n).length, q)
  | none =>
    match batchCount limit q.records with
    | 0 => (none, q)
    | n + 1 =>
      (some (batchText q.records (n + 1)).length, { q with handed := some (n + 1) })

def readRecord (q : RecordQueue ν) (offset length : Nat) : Option Bytes :=
  match q.handed with
  | none => none
  | some n =>
    let text := batchText q.records n
    if offset + length ≤ text.length then some ((text.drop offset).take length) else none

def recordSlices (q : RecordQueue ν) : Option (Bytes × Bytes) :=
  match q.handed, q.records with
  | some 1, p :: _ =>
    let room := q.capacity - (q.start + headerSize) % q.capacity
    some (p.take room, p.drop room)
  | _, _ => none

/-- Drops the oldest `n` records; the reader holds none any more. -/
def dropOldest (q : RecordQueue ν) (n : Nat) : RecordQueue ν :=
  { q with
    start := (q.start + span q.records n) % q.capacity
    records := q.records.drop n
    handed := none }

def markRecordRead (q : RecordQueue ν) : RecordQueue ν :=
  match q.handed with
  | none => q
  | some n => q.dropOldest n

/-! ### Draining -/

/-- The bytes of a payload in a range, as a non-volatile store may ask for them. -/
def window (payload : Bytes) (offset length : Nat) : Option Bytes :=
  if offset + length ≤ payload.length then some ((payload.drop offset).take length) else none

variable [Nonvolatile ν]

/-- Offers payloads to a non-volatile store until one is refused, and counts those taken. -/
def spill (backing : ν) : List Bytes → Nat × ν
  | [] => (0, backing)
  | p :: ps =>
    match Nonvolatile.write backing p.length (window p) with
    | (false, backing) => (0, backing)
    | (true, backing) =>
      let (saved, backing) := spill backing ps
      (saved + 1, backing)

def pollBacking (q : RecordQueue ν) : Option ν × RecordQueue ν :=
  match q.backing with
  | none => (none, if q.backingSeen then { q with handed := none, backingSeen := false } else q)
  | some backing =>
    match Nonvolatile.poll backing with
    | (true, backing) => (some backing, { q with backing := some backing, backingSeen := true })
    | (false, backing) =>
      (none,
        { q with
          backing := some backing
          backingSeen := false
          handed := if q.backingSeen then none else q.handed })

def hasMore (q : RecordQueue ν) : Option Nat × RecordQueue ν :=
  match q.pollBacking with
  | (some backing, q) =>
    let (size, backing) := Nonvolatile.oldest backing
    (size, { q with backing := some backing })
  | (none, q) =>
    match q.batchLimit, q.handed with
    | some limit, _ => q.hasBatch limit
    | none, some n => (some (batchText q.records n).length, q)
    | none, none => q.hasRecord

def read (q : RecordQueue ν) (offset length : Nat) : Option Bytes × RecordQueue ν :=
  match q.pollBacking with
  | (some backing, q) =>
    let (bs, backing) := Nonvolatile.read backing offset length
    (bs, { q with backing := some backing })
  | (none, q) => (q.readRecord offset length, q)

def markRead (q : RecordQueue ν) : RecordQueue ν :=
  match q.pollBacking with
  | (some backing, q) =>
    match { q with backing := some (Nonvolatile.discard backing) }.hasRecord with
    | (some _, q) => q.report
    | (none, q) => q
  | (none, q) => q.markRecordRead

/-- The queue whose oldest `n` records have gone into the non-volatile store; the reader holds the
record that was refused, if there is one. -/
def moveOldest (q : RecordQueue ν) (backing : ν) (n : Nat) : RecordQueue ν :=
  ({ q with backing := some backing }.dropOldest n).hasRecord.2

def persist (q : RecordQueue ν) : Nat × RecordQueue ν :=
  match q.pollBacking with
  | (none, q) => (0, q)
  | (some backing, q) =>
    let (saved, backing) := spill backing q.records
    (saved, q.moveOldest backing saved)

def drainOne (q : RecordQueue ν) : Round × RecordQueue ν :=
  match q.hasMore with
  | (none, q) => (.nothing, q)
  | (some size, q) =>
    let (bs, q) := q.read 0 size
    ((bs.map .event).getD .unreadable, q.markRead)

def drain (q : RecordQueue ν) : Nat → List Round × RecordQueue ν
  | 0 => ([], q)
  | count + 1 =>
    match q.drainOne with
    | (.nothing, q) => ([], q)
    | (round, q) =>
      let (rounds, q) := q.drain count
      (round :: rounds, q)

def perform (q : RecordQueue ν) : Operation ν → Answer × RecordQueue ν
  | .beginWrite => q.beginWrite.map .amount id
  | .append bs => (q.append bs).map .flag id
  | .finishWrite undo => (.done, q.finishWrite undo)
  | .writeRecord payload => (q.writeRecord payload).map .flag id
  | .hasMore => q.hasMore.map .size id
  | .hasRecord => q.hasRecord.map .size id
  | .read offset length => (q.read offset length).map .bytes id
  | .readRecord offset length => (.bytes (q.readRecord offset length), q)
  | .recordSlices => (.slices q.recordSlices, q)
  | .markRead => (.done, q.markRead)
  | .markRecordRead => (.done, q.markRecordRead)
  | .setBatchLimit limit => (.done, { q with batchLimit := limit })
  | .observe => (.done, { q with observed := true })
  | .attach backing => (.done, { q with backing := some backing, backingSeen := false })
  | .alterBacking f => (.done, { q with backing := q.backing.map f })
  | .persist => q.persist.map .amount id
  | .drainOne => q.drainOne.map .round id
  | .drain rounds => (q.drain rounds).map .rounds id

def performAll (q : RecordQueue ν) : List (Operation ν) → List Answer × RecordQueue ν
  | [] => ([], q)
  | op :: ops =>
    let (answer, q) := q.perform op
    let (answers, q) := q.performAll ops
    (answer :: answers, q)

end RecordQueue

end DeviceTelemetry
