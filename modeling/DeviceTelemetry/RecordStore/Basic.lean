import DeviceTelemetry.Ring.Basic
import DeviceTelemetry.Nonvolatile

/-!
# The record store

A `RecordStore` keeps records in a ring of bytes. A record is a payload behind a header of two
bytes, which hold the size of both together, low byte first. A record is written as a transaction:
while it is open its header holds `openMark`, so that it cannot be taken for a finished one;
closing it either puts the size in place or takes back all of its bytes.

This file holds the state and the writing side.
-/

set_option autoImplicit false

namespace DeviceTelemetry

structure Levels where
  used : Nat
  free : Nat
deriving DecidableEq, Repr

/-- The records handed out to the reader, oldest first. -/
structure Handout where
  records : Nat
  /-- The bytes they take in the ring, headers included. -/
  span : Nat
  payload : Nat
  /-- What is read before the payloads: the array head of a batch of two or more records. -/
  lead : Bytes
deriving DecidableEq, Repr

def Handout.size (h : Handout) : Nat := h.lead.length + h.payload

/-- Records over a ring, with an optional non-volatile store behind them. -/
structure RecordStore (ν : Type) where
  ring : Ring
  /-- The bytes of the open transaction, header included. -/
  opened : Option Nat := none
  handout : Option Handout := none
  /-- The most payload bytes of a batch, or `none` to read record by record. -/
  batchLimit : Option Nat := none
  backing : Option ν := none
  /-- Whether the non-volatile store could be used when it was last asked. -/
  backingSeen : Bool := false
  /-- Whether someone wants to hear of the levels after every commit. -/
  observed : Bool := false
  /-- The levels reported so far, the latest first. -/
  reports : List Levels := []

namespace RecordStore

def headerSize : Nat := 2

def openMark : Nat := 0xFFFF

/-- The largest size of a record, header included. -/
def maxRecordSize : Nat := openMark - 1

variable {ν : Type}

def ofRing (ring : Ring) : RecordStore ν where
  ring := ring

def ofCapacity (capacity : Nat) : Except RingError (RecordStore ν) :=
  (Ring.ofCapacity capacity).map ofRing

def capacity (s : RecordStore ν) : Nat := s.ring.capacity

def levels (s : RecordStore ν) : Levels where
  used := s.ring.count
  free := s.ring.free

def report (s : RecordStore ν) : RecordStore ν :=
  if s.observed then { s with reports := s.levels :: s.reports } else s

/-- The ring without its newest `length` bytes, or as it was if there are not so many. -/
def takeBack (ring : Ring) (length : Nat) : Ring :=
  match ring.consumeBack length with
  | .ok ring => ring
  | .error _ => ring

/-- Opens a transaction and returns how many payload bytes fit; returns zero and opens nothing if
one is open already or not a single byte fits behind the header. -/
def beginWrite (s : RecordStore ν) : Nat × RecordStore ν :=
  if s.opened.isSome then (0, s)
  else if h : (Bytes.ofWord openMark).length ≤ s.ring.free then
    let ring := s.ring.append (Bytes.ofWord openMark) h
    if ring.free = 0 then (0, { s with ring := takeBack ring headerSize })
    else (ring.free, { s with ring := ring, opened := some headerSize })
  else (0, s)

/-- Adds bytes to the open transaction, or refuses all of them. -/
def append (s : RecordStore ν) (bs : Bytes) : Bool × RecordStore ν :=
  match s.opened with
  | none => (false, s)
  | some written =>
    if h : written + bs.length ≤ maxRecordSize ∧ bs.length ≤ s.ring.free then
      (true, { s with ring := s.ring.append bs h.2, opened := some (written + bs.length) })
    else (false, s)

def rollback (s : RecordStore ν) : RecordStore ν :=
  match s.opened with
  | none => s
  | some written => { s with ring := takeBack s.ring written, opened := none }

/-- The ring with a record's size in place of the mark `written` bytes before the end, or as it
was if there are not so many bytes. -/
def putSize (ring : Ring) (written : Nat) : Ring :=
  if h : written ≤ ring.count ∧ (Bytes.ofWord written).length - written ≤ ring.free then
    ring.patch written (Bytes.ofWord written) h.2
  else ring

def commit (s : RecordStore ν) : RecordStore ν :=
  match s.opened with
  | none => s
  | some written => { s with ring := putSize s.ring written, opened := none }.report

def finishWrite (s : RecordStore ν) (undo : Bool) : RecordStore ν :=
  if undo then s.rollback else s.commit

/-- Writes one record as a whole: opens, appends and closes, taking it back if the payload does
not fit. Returns whether the record was kept. -/
def writeRecord (s : RecordStore ν) (payload : Bytes) : Bool × RecordStore ν :=
  match s.beginWrite with
  | (0, s) => (false, s)
  | (_, s) =>
    let (kept, s) := s.append payload
    (kept, s.finishWrite (!kept))

/-- Wants the levels to be reported after every commit. -/
def observe (s : RecordStore ν) : RecordStore ν := { s with observed := true }

def setBatchLimit (s : RecordStore ν) (limit : Option Nat) : RecordStore ν :=
  { s with batchLimit := limit }

def attach (s : RecordStore ν) (backing : ν) : RecordStore ν :=
  { s with backing := some backing, backingSeen := false }

def alterBacking (s : RecordStore ν) (f : ν → ν) : RecordStore ν :=
  { s with backing := s.backing.map f }

end RecordStore

end DeviceTelemetry
