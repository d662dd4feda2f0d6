import DeviceTelemetry.RecordStore.Draining

/-!
# Operations on record stores

The uses of a record store as data, so that a history of a store is a list, in which writer and
reader may be interleaved in any order.
-/

set_option autoImplicit false

namespace DeviceTelemetry.RecordStore

inductive Operation (ν : Type) where
  | beginWrite
  | append (bs : Bytes)
  /-- Closes the open transaction, taking it back if `undo` is set. -/
  | finishWrite (undo : Bool)
  | writeRecord (payload : Bytes)
  | hasMore
  | hasRecord
  | read (offset length : Nat)
  | readRecord (offset length : Nat)
  | recordSlices
  | markRead
  | markRecordRead
  | setBatchLimit (limit : Option Nat)
  | observe
  | attach (backing : ν)
  /-- Lets the non-volatile store change on its own. -/
  | alterBacking (f : ν → ν)
  | persist
  | drainOne
  | drain (rounds : Nat)

inductive Answer where
  | done
  | amount (n : Nat)
  | flag (b : Bool)
  | size (n : Option Nat)
  | bytes (bs : Option Bytes)
  | slices (runs : Option (Bytes × Bytes))
  | round (r : Round)
  | rounds (rs : List Round)
deriving DecidableEq, Repr

variable {ν : Type} [Nonvolatile ν]

def perform (s : RecordStore ν) : Operation ν → Answer × RecordStore ν
  | .beginWrite => s.beginWrite.map .amount id
  | .append bs => (s.append bs).map .flag id
  | .finishWrite undo => (.done, s.finishWrite undo)
  | .writeRecord payload => (s.writeRecord payload).map .flag id
  | .hasMore => s.hasMore.map .size id
  | .hasRecord => s.hasRecord.map .size id
  | .read offset length => (s.read offset length).map .bytes id
  | .readRecord offset length => (.bytes (s.readRecord offset length), s)
  | .recordSlices => (.slices s.recordSlices, s)
  | .markRead => (.done, s.markRead)
  | .markRecordRead => (.done, s.markRecordRead)
  | .setBatchLimit limit => (.done, s.setBatchLimit limit)
  | .observe => (.done, s.observe)
  | .attach backing => (.done, s.attach backing)
  | .alterBacking f => (.done, s.alterBacking f)
  | .persist => s.persist.map .amount id
  | .drainOne => s.drainOne.map .round id
  | .drain rounds => (s.drain rounds).map .rounds id

def performAll (s : RecordStore ν) : List (Operation ν) → List Answer × RecordStore ν
  | [] => ([], s)
  | op :: ops =>
    let (answer, s) := s.perform op
    let (answers, s) := s.performAll ops
    (answer :: answers, s)

end DeviceTelemetry.RecordStore
