import DeviceTelemetry.RecordStore.Basic
import DeviceTelemetry.Cbor.Head

/-!
# Reading records

Finished records are handed out oldest first, one by one or as a batch. A batch is read as one
CBOR array: an array head, then the payloads back to back. What is handed out stays in the ring
until it is marked as read.
-/

set_option autoImplicit false

namespace DeviceTelemetry

namespace Handout

def empty : Handout where
  records := 0
  span := 0
  payload := 0
  lead := []

def push (h : Handout) (size : Nat) : Handout :=
  { h with
    records := h.records + 1
    span := h.span + size
    payload := h.payload + (size - RecordStore.headerSize) }

/-- Puts the array head in front of a batch of two or more records. -/
def withLead (h : Handout) : Handout :=
  if h.records > 1 then { h with lead := Cbor.arrayHead h.records } else h

end Handout

namespace RecordStore

variable {ν : Type}

/-- The size of the finished record that starts `offset` bytes into the ring, header included;
`none` if no finished record starts there. -/
def recordAt (s : RecordStore ν) (offset : Nat) : Option Nat :=
  match s.ring.read offset headerSize with
  | .ok [lo, hi] =>
    let size := Bytes.toWord lo hi
    if size ≠ openMark ∧ headerSize ≤ size ∧ offset + size ≤ s.ring.count then some size else none
  | _ => none

/-- Hands out the oldest record alone and returns its payload size. A single record that is
handed out already stays so. -/
def hasRecord (s : RecordStore ν) : Option Nat × RecordStore ν :=
  match s.handout with
  | some ⟨1, _, payload, _⟩ => (some payload, s)
  | _ =>
    match s.recordAt 0 with
    | none => (none, s)
    | some size =>
      let handout := Handout.empty.push size
      (some handout.payload, { s with handout := some handout })

/-- The records that go into a batch behind those of `batch`, as long as the payloads stay within
the limit; the first record goes in whatever its size. At most `count` records are looked at. -/
def extend (s : RecordStore ν) (limit : Nat) (batch : Handout) : Nat → Handout
  | 0 => batch
  | count + 1 =>
    match s.recordAt batch.span with
    | none => batch
    | some size =>
      if 0 < batch.records ∧ batch.payload + (size - headerSize) > limit then batch
      else s.extend limit (batch.push size) count

/-- Hands out a batch of the oldest records and returns the number of bytes to read. Records that
are handed out already stay so. -/
def hasBatch (s : RecordStore ν) (limit : Nat) : Option Nat × RecordStore ν :=
  match s.handout with
  | some handout => (some handout.size, s)
  | none =>
    let batch := s.extend limit .empty s.ring.count
    if batch.records = 0 then (none, s)
    else
      let batch := batch.withLead
      (some batch.size, { s with handout := some batch })

/-- The `length` bytes from `offset` on of the payloads of `count` consecutive records, the first
of which starts `position` bytes into the ring; `none` if the payloads end before. -/
def gather (s : RecordStore ν) (position offset length : Nat) : Nat → Option Bytes
  | 0 => if length = 0 then some [] else none
  | count + 1 =>
    if length = 0 then some []
    else
      match s.recordAt position with
      | none => none
      | some size =>
        let payload := size - headerSize
        if payload ≤ offset then s.gather (position + size) (offset - payload) length count
        else
          let here := min (payload - offset) length
          match s.ring.read (position + headerSize + offset) here with
          | .error _ => none
          | .ok bs => (s.gather (position + size) 0 (length - here) count).map (bs ++ ·)

/-- The `length` bytes from `offset` on of what is handed out: the lead, then the payloads.
`none` if nothing is handed out or it ends before. -/
def readRecord (s : RecordStore ν) (offset length : Nat) : Option Bytes :=
  match s.handout with
  | none => none
  | some handout =>
    if offset + length ≤ handout.size then
      let lead := (handout.lead.drop offset).take length
      (s.gather 0 (offset - handout.lead.length) (length - lead.length) handout.records).map
        (lead ++ ·)
    else none

/-- The payload of the record handed out as two runs of consecutive cells, the second empty unless
the payload goes around the end of the ring; `none` unless one record is handed out. -/
def recordSlices (s : RecordStore ν) : Option (Bytes × Bytes) :=
  match s.handout with
  | some ⟨1, _, payload, _⟩ =>
    match s.ring.run? headerSize with
    | none => none
    | some first =>
      if payload ≤ first.length then some (first.take payload, [])
      else
        match s.ring.run? (headerSize + first.length) with
        | none => none
        | some second => some (first, second.take (payload - first.length))
  | _ => none

def markRecordRead (s : RecordStore ν) : RecordStore ν :=
  match s.handout with
  | none => s
  | some handout =>
    match s.ring.consume handout.span with
    | .ok ring => { s with ring := ring, handout := none }
    | .error _ => { s with handout := none }

end RecordStore

end DeviceTelemetry
