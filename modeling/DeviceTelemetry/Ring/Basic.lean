import DeviceTelemetry.Bytes

/-!
# Byte rings

A `Ring` keeps a queue of bytes in a fixed number of cells. The unread bytes start at cell `start`
and go on around the end of the cells; `Ring.toList` is the queue that they form. Bytes are added
at the end, overwritten from the end backwards, and dropped from either end.

Every operation that changes a ring comes with the condition under which it is possible, and with
a checked form that answers with the reason when the condition fails. Cells outside the unread
bytes keep what was last stored in them.
-/

set_option autoImplicit false

namespace DeviceTelemetry

inductive RingError where
  | emptyStorage
  | insufficientSpace (requested available : Nat)
  | outOfBounds (offset length readable : Nat)
deriving DecidableEq, Repr

namespace RingError

def message : RingError → String
  | emptyStorage => "ring storage must not be empty"
  | insufficientSpace requested available =>
    s!"insufficient space: requested {requested} bytes, {available} available"
  | outOfBounds offset length readable =>
    s!"range {offset}+{length} exceeds {readable} readable bytes"

end RingError

/-- A queue of bytes in a fixed number of cells. -/
structure Ring where
  cells : Array UInt8
  start : Nat
  count : Nat
  start_lt : start < cells.size
  count_le : count ≤ cells.size

namespace Ring

/-- Stores bytes in consecutive cells from a position on, going around at the end. -/
def store (cells : Array UInt8) (position : Nat) : Bytes → Array UInt8
  | [] => cells
  | b :: bs => store (cells.setIfInBounds (position % cells.size) b) (position + 1) bs

@[simp] theorem size_store (cells : Array UInt8) (position : Nat) (bs : Bytes) :
    (store cells position bs).size = cells.size := by
  induction bs generalizing cells position with
  | nil => rfl
  | cons b bs ih => simp [store, ih]

def zeroed (capacity : Nat) (h : 0 < capacity) : Ring where
  cells := Array.replicate capacity 0
  start := 0
  count := 0
  start_lt := by simpa using h
  count_le := Nat.zero_le _

def ofCapacity (capacity : Nat) : Except RingError Ring :=
  if h : 0 < capacity then .ok (zeroed capacity h) else .error .emptyStorage

def capacity (r : Ring) : Nat := r.cells.size

def free (r : Ring) : Nat := r.cells.size - r.count

/-- The byte `offset` places after the oldest unread one. -/
def byteAt (r : Ring) (offset : Nat) : UInt8 :=
  have : (r.start + offset) % r.cells.size < r.cells.size :=
    Nat.mod_lt _ (Nat.zero_lt_of_lt r.start_lt)
  r.cells[(r.start + offset) % r.cells.size]

/-- The `length` bytes from `offset` places after the oldest unread one on. -/
def slice (r : Ring) (offset length : Nat) : Bytes :=
  (List.range' offset length).map r.byteAt

/-- The unread bytes, oldest first. -/
def toList (r : Ring) : Bytes := r.slice 0 r.count

def append (r : Ring) (bs : Bytes) (h : bs.length ≤ r.free) : Ring where
  cells := store r.cells (r.start + r.count) bs
  start := r.start
  count := r.count + bs.length
  start_lt := by simpa using r.start_lt
  count_le := by have := r.count_le; simp only [free] at h; simp only [size_store]; omega

/-- Writes bytes from `back` places before the end on; what reaches beyond the end is added. -/
def patch (r : Ring) (back : Nat) (bs : Bytes) (h : bs.length - back ≤ r.free) : Ring where
  cells := store r.cells (r.start + r.count - back) bs
  start := r.start
  count := r.count + (bs.length - back)
  start_lt := by simpa using r.start_lt
  count_le := by have := r.count_le; simp only [free] at h; simp only [size_store]; omega

def dropFront (r : Ring) (length : Nat) : Ring where
  cells := r.cells
  start := (r.start + length) % r.cells.size
  count := r.count - length
  start_lt := Nat.mod_lt _ (Nat.zero_lt_of_lt r.start_lt)
  count_le := Nat.le_trans (Nat.sub_le _ _) r.count_le

def dropBack (r : Ring) (length : Nat) : Ring where
  cells := r.cells
  start := r.start
  count := r.count - length
  start_lt := r.start_lt
  count_le := Nat.le_trans (Nat.sub_le _ _) r.count_le

def write (r : Ring) (bs : Bytes) : Except RingError Ring :=
  if h : bs.length ≤ r.free then .ok (r.append bs h)
  else .error (.insufficientSpace bs.length r.free)

/-- Writes bytes from `back` places before the end on, if so many bytes are unread and what
reaches beyond the end fits. -/
def writeBack (r : Ring) (back : Nat) (bs : Bytes) : Except RingError Ring :=
  if back ≤ r.count then
    if h : bs.length - back ≤ r.free then .ok (r.patch back bs h)
    else .error (.insufficientSpace (bs.length - back) r.free)
  else .error (.outOfBounds back bs.length r.count)

def read (r : Ring) (offset length : Nat) : Except RingError Bytes :=
  if offset + length ≤ r.count then .ok (r.slice offset length)
  else .error (.outOfBounds offset length r.count)

/-- The length of the longest run of unread bytes from `offset` on that lies in consecutive
cells. -/
def runLength (r : Ring) (offset : Nat) : Nat :=
  min (r.count - offset) (r.cells.size - (r.start + offset) % r.cells.size)

/-- The longest run of unread bytes from `offset` on that lies in consecutive cells, or `none` if
`offset` is beyond the end. -/
def run? (r : Ring) (offset : Nat) : Option Bytes :=
  if offset ≤ r.count then some (r.slice offset (r.runLength offset)) else none

def consume (r : Ring) (length : Nat) : Except RingError Ring :=
  if length ≤ r.count then .ok (r.dropFront length)
  else .error (.outOfBounds 0 length r.count)

def consumeBack (r : Ring) (length : Nat) : Except RingError Ring :=
  if length ≤ r.count then .ok (r.dropBack length)
  else .error (.outOfBounds 0 length r.count)

end Ring

end DeviceTelemetry
