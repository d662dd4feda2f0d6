/-!
# Traces

A trace says why something exceptional happened and where. The mailbox holds at most one trace
between the moment it is staged and the moment it is taken.

Calls on the mailbox may come while others are under way, even from within them. A state word says
who may touch the slot: a call claims the slot, works on it and hands it over by setting the word
again. A call that finds the slot claimed gives up, and a trace that could not be staged for this
reason is counted. `Mailbox.Cell` holds what the calls share and has their single steps. A `Mailbox`
is a cell on which no call is under way; it is never too busy for a trace (`Mailbox.stage_fst`).
-/

set_option autoImplicit false

namespace DeviceTelemetry

structure Trace where
  reason : UInt32
  pc : Option UInt32 := none
  lr : Option UInt32 := none
deriving DecidableEq, Repr

def Trace.largest : Trace where
  reason := 0xFFFFFFFF
  pc := some 0xFFFFFFFF
  lr := some 0xFFFFFFFF

inductive TraceError where
  | outOfSpace
  | mailboxBusy
deriving DecidableEq, Repr

def TraceError.message : TraceError → String
  | outOfSpace => "out of storage space for trace event"
  | mailboxBusy => "trace mailbox busy"

namespace Mailbox

/-- What the state word says. -/
inductive Phase where
  | empty
  | writing
  | full
  | taking
deriving DecidableEq, Repr

structure Cell where
  phase : Phase := .empty
  slot : Trace := { reason := 0 }
  /-- How many traces found the slot claimed. The count goes around. -/
  dropped : UInt32 := 0
deriving DecidableEq, Repr

namespace Cell

/-- Claims the slot for a new trace, even if an older one is in it. -/
def claim (c : Cell) : Except TraceError Unit × Cell :=
  match c.phase with
  | .empty | .full => (.ok (), { c with phase := .writing })
  | .writing | .taking => (.error .mailboxBusy, { c with dropped := c.dropped + 1 })

def write (c : Cell) (t : Trace) : Cell := { c with slot := t }

def publish (c : Cell) : Cell := { c with phase := .full }

/-- Claims the slot for the trace in it, if there is one. -/
def seize (c : Cell) : Bool × Cell :=
  match c.phase with
  | .full => (true, { c with phase := .taking })
  | .empty | .writing | .taking => (false, c)

def release (c : Cell) : Cell := { c with phase := .empty }

def stage (c : Cell) (t : Trace) : Except TraceError Unit × Cell :=
  match c.claim with
  | (.ok (), c) => (.ok (), (c.write t).publish)
  | refused => refused

def take (c : Cell) : Option Trace × Cell :=
  match c.seize with
  | (true, c) => (some c.slot, c.release)
  | (false, c) => (none, c)

/-- Whether a trace is waiting to be taken. -/
def isPending (c : Cell) : Bool := c.phase = .full

/-- No call is under way. -/
def AtRest (c : Cell) : Prop := c.phase = .empty ∨ c.phase = .full

theorem AtRest.stage {c : Cell} (rest : c.AtRest) (t : Trace) :
    c.stage t = (.ok (), { c with phase := .full, slot := t }) := by
  rcases rest with empty | full <;> simp [Cell.stage, claim, write, publish, *]

theorem AtRest.atRest_stage {c : Cell} (rest : c.AtRest) (t : Trace) : (c.stage t).2.AtRest := by
  rw [rest.stage]
  exact .inr rfl

theorem AtRest.atRest_take {c : Cell} (rest : c.AtRest) : c.take.2.AtRest := by
  rcases rest with empty | full <;> simp [AtRest, take, seize, release, *]

end Cell

end Mailbox

structure Mailbox extends Mailbox.Cell where
  atRest : toCell.AtRest
deriving DecidableEq, Repr

namespace Mailbox

def empty : Mailbox where
  atRest := .inl rfl

def stage (m : Mailbox) (t : Trace) : Except TraceError Unit × Mailbox :=
  ((m.toCell.stage t).1, { (m.toCell.stage t).2 with atRest := m.atRest.atRest_stage t })

def take (m : Mailbox) : Option Trace × Mailbox :=
  (m.toCell.take.1, { m.toCell.take.2 with atRest := m.atRest.atRest_take })

def staged (m : Mailbox) : Option Trace := if m.isPending then some m.slot else none

@[simp]
theorem stage_fst (m : Mailbox) (t : Trace) : (m.stage t).1 = .ok () :=
  congrArg Prod.fst (m.atRest.stage t)

@[simp]
theorem staged_stage (m : Mailbox) (t : Trace) : (m.stage t).2.staged = some t := by
  simp [stage, staged, Cell.isPending, m.atRest.stage]

theorem take_fst (m : Mailbox) : m.take.1 = m.staged := by
  obtain ⟨c, empty | full⟩ := m <;>
    simp [take, staged, Cell.take, Cell.seize, Cell.isPending, *]

theorem take_eq (m : Mailbox) : m.take = (m.staged, m.take.2) :=
  Prod.ext m.take_fst rfl

theorem staged_take (m : Mailbox) : m.take.2.staged = none := by
  obtain ⟨c, empty | full⟩ := m <;>
    simp [take, staged, Cell.take, Cell.seize, Cell.release, Cell.isPending, *]

end Mailbox

end DeviceTelemetry
