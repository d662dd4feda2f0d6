import DeviceTelemetry.Metric.Timer
import DeviceTelemetry.Schema.Basic
import DeviceTelemetry.Text

/-!
# Slots

A `Slot` holds the present value of one metric, and a `Reading` is what it shows.
-/

set_option autoImplicit false

namespace DeviceTelemetry

/-- The value that a metric shows, `none` if nothing has been recorded. -/
inductive Reading where
  | unsigned (n : Option UInt32)
  | signed (n : Option Int32)
  /-- A time in milliseconds. -/
  | timer (ms : Option Nat)
  | text (s : String)
deriving DecidableEq, Repr

inductive Slot where
  | unsigned (n : Option UInt32)
  | signed (n : Option Int32)
  | timer (t : Timer)
  /-- A text of at most `limit` bytes. -/
  | text (limit : Nat) (s : String)
deriving DecidableEq, Repr

namespace Slot

def empty (kind : MetricKind) (limit : Nat) : Slot :=
  match kind with
  | .unsigned => unsigned none
  | .signed => signed none
  | .timer => timer {}
  | .text => text limit ""

def kind : Slot → MetricKind
  | unsigned _ => .unsigned
  | signed _ => .signed
  | timer _ => .timer
  | text _ _ => .text

def reading : Slot → Reading
  | unsigned n => .unsigned n
  | signed n => .signed n
  | timer t => .timer t.shown
  | text _ s => .text s

/-- A slot without what was recorded; a running timer goes on. -/
def reset : Slot → Slot
  | unsigned _ => unsigned none
  | signed _ => signed none
  | timer t => timer t.reset
  | text limit _ => text limit ""

def tally (now : UInt64) : Slot → Slot
  | timer t => timer (t.tally now)
  | slot => slot

def clear (slot : Slot) : Slot :=
  match slot.reset with
  | timer t => timer { t with startedAt := none }
  | slot => slot

/-- The sum of a number and an amount, kept between zero and the largest 32-bit number. -/
def addUnsigned (n : UInt32) (amount : Int32) : UInt32 :=
  UInt32.ofNat (min (n.toNat + amount.toInt) 0xFFFFFFFF).toNat

def addSigned (n amount : Int32) : Int32 :=
  Int32.ofInt (max (-0x80000000) (min (n.toInt + amount.toInt) 0x7FFFFFFF))

end Slot

end DeviceTelemetry
