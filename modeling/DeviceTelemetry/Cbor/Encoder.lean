import DeviceTelemetry.Cbor.Item

/-!
# Encoders

An `Encoder` sends the bytes of items to a `Sink` within a capacity. An item that exceeds what is
left of the capacity is refused as a whole before anything of it is sent. A sink may refuse a
piece as well; the pieces sent before stay sent and counted.
-/

set_option autoImplicit false

namespace DeviceTelemetry

inductive EncodeError where
  | outOfSpace (needed remaining : Nat)
deriving DecidableEq, Repr

def EncodeError.message : EncodeError → String
  | .outOfSpace needed remaining =>
    s!"encoder out of space: item needs {needed} bytes, {remaining} remaining"

namespace Cbor

/-- A place that takes bytes at its end, all of a piece or nothing of it. -/
class Sink (σ : Type) where
  /-- Takes a piece, or refuses it and stays as it is. -/
  append : σ → Bytes → Bool × σ

/-- A sink that only lets bytes be counted. -/
structure Tally where

instance : Sink Tally where
  append tally _ := (true, tally)

instance : Sink (Array UInt8) where
  append buffer bs := (true, buffer.append bs.toArray)

structure Encoder (σ : Type) where
  sink : σ
  capacity : Nat
  size : Nat

namespace Encoder

variable {σ : Type} [Sink σ]

def ofSink (sink : σ) (capacity : Nat) : Encoder σ where
  sink := sink
  capacity := capacity
  size := 0

def maxCapacity : Nat := 0xFFFFFFFFFFFFFFFF

def counting : Encoder Tally := ofSink {} maxCapacity

/-- Sends the pieces of an item until the sink refuses one. -/
def send : List Bytes → Encoder σ → Except EncodeError Unit × Encoder σ
  | [], encoder => (.ok (), encoder)
  | piece :: pieces, ⟨sink, capacity, size⟩ =>
    match Sink.append sink piece with
    | (true, sink) => send pieces ⟨sink, capacity, size + piece.length⟩
    | (false, sink) => (.error (.outOfSpace piece.length (capacity - size)), ⟨sink, capacity, size⟩)

def put (encoder : Encoder σ) (item : Item) : Except EncodeError Unit × Encoder σ :=
  let remaining := encoder.capacity - encoder.size
  if item.size ≤ remaining then send item.pieces encoder
  else (.error (.outOfSpace item.size remaining), encoder)

def putAll (encoder : Encoder σ) : List Item → Except EncodeError Unit × Encoder σ
  | [] => (.ok (), encoder)
  | item :: items =>
    match encoder.put item with
    | (.ok _, encoder) => encoder.putAll items
    | refused => refused

end Encoder

/-- The number of bytes of a sequence of items, found by encoding it without a place to go. -/
def sizeOf (items : List Item) : Nat :=
  (Encoder.counting.putAll items).2.size

end Cbor

end DeviceTelemetry
