/-!
# Timers

A `Timer` adds up the time between its starts and stops. Clock readings count modulo
`Timer.period`, so an interval is exact if it is shorter than that, wherever the clock goes round.
The sum stays at `Timer.maxElapsed` once it gets there.
-/

set_option autoImplicit false

namespace DeviceTelemetry

structure Timer where
  elapsed : Nat := 0
  /-- Whether any interval has been added since the last reset. -/
  recorded : Bool := false
  /-- The clock at the beginning of the present interval, if the timer is running. -/
  startedAt : Option Nat := none
deriving DecidableEq, Repr

namespace Timer

/-- The number of clock readings that a timer tells apart. -/
def period : Nat := 0x80000000

def maxElapsed : Nat := period - 1

def phase (now : UInt64) : Nat := now.toNat % period

def between (start stop : Nat) : Nat :=
  if start ≤ stop then stop - start else period - start + stop

def isRunning (t : Timer) : Bool := t.startedAt.isSome

/-- The time shown, or `none` if no interval has been added. -/
def shown (t : Timer) : Option Nat := if t.recorded then some t.elapsed else none

def accumulate (t : Timer) (start stop : Nat) : Timer :=
  { t with elapsed := min (t.elapsed + between start stop) maxElapsed, recorded := true }

/-- The timer as it is started, or `none` if it is running. -/
def start? (t : Timer) (now : UInt64) : Option Timer :=
  match t.startedAt with
  | some _ => none
  | none => some { t with startedAt := some (phase now) }

def stop? (t : Timer) (now : UInt64) : Option Timer :=
  t.startedAt.map fun start => { t.accumulate start (phase now) with startedAt := none }

/-- The timer with the time up to now added; a running timer goes on from now. -/
def tally (t : Timer) (now : UInt64) : Timer :=
  match t.startedAt with
  | none => t
  | some start => { t.accumulate start (phase now) with startedAt := some (phase now) }

def reset (t : Timer) : Timer := { t with elapsed := 0, recorded := false }

end Timer

end DeviceTelemetry
