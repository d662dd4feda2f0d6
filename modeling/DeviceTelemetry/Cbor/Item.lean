import DeviceTelemetry.Cbor.Head
import DeviceTelemetry.Text

/-!
# CBOR items

The items of which events are made, in the order in which they are written: a map or an array is
announced by its head, and its members follow as items of their own.
-/

set_option autoImplicit false

namespace DeviceTelemetry.Cbor

inductive Item where
  | unsigned (n : UInt64)
  | signed (n : Int64)
  | text (s : String)
  | null
  | mapHead (pairs : Nat)
  | arrayHead (length : Nat)
deriving DecidableEq, Repr

namespace Item

def nullByte : UInt8 := 0xF6

/-- The head of an item. A number `n` below zero has the argument `-1 - n`. -/
def headBytes : Item → Bytes
  | unsigned n => head .unsigned n.toNat
  | signed n =>
    if n.toInt < 0 then head .negative (-1 - n.toInt).toNat else head .unsigned n.toInt.toNat
  | text s => head .text (Text.byteLength s)
  | null => [nullByte]
  | mapHead pairs => head .map pairs
  | arrayHead length => head .array length

/-- The parts of an item that are written one after the other: its head, and for a text its
bytes. -/
def pieces : Item → List Bytes
  | text s => [(text s).headBytes, Text.bytes s]
  | item => [item.headBytes]

def encode (item : Item) : Bytes := item.pieces.flatten

def size : Item → Nat
  | text s => headSize (Text.byteLength s) + Text.byteLength s
  | item => item.headBytes.length

end Item

def encodeAll (items : List Item) : Bytes := items.flatMap Item.encode

end DeviceTelemetry.Cbor
