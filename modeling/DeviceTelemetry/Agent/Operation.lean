import DeviceTelemetry.Agent.Reporting
import DeviceTelemetry.RecordStore.Operation

/-!
# Operations of agents

All uses of an agent as data, so that the life of an agent is a list of operations. Operations on
the agent's state happen inside its lock; a session number that is not allowed is found before.
-/

set_option autoImplicit false

namespace DeviceTelemetry.Agent

inductive Operation (ν : Type) where
  | setUnsigned (key : Nat) (n : UInt32)
  | setSigned (key : Nat) (n : Int32)
  | setText (key : Nat) (s : String)
  | add (key : Nat) (amount : Int32)
  | startTimer (key : Nat)
  | stopTimer (key : Nat)
  | readUnsigned (key : Nat)
  | readSigned (key : Nat)
  | readTimer (key : Nat)
  | readText (key : Nat)
  | readTextInto (key : Nat) (buffer : Bytes)
  | startSession (session : Nat)
  | endSession (session : Nat)
  | collect (session : Nat)
  | heartbeat
  | describe
  | setCollectHook (hook : Hook)
  | setSessionEndHook (session : Nat) (hook : Hook)
  | observe
  | setBatchLimit (limit : Option Nat)
  | changeConnection (state : ConnectionState)
  | countSync (success : Bool)
  | setUnexpectedReboot (unexpected : Bool)
  | attachMonitor
  | stopDischarging
  | stage (t : Trace)
  | isPending
  | capture (t : Trace)
  | flush
  | persist
  | keyOf (name : String)
  | hasMore
  | read (offset length : Nat)
  | markRead
  | drainOne
  | drain (rounds : Nat)
  | attach (backing : ν)
  /-- The non-volatile store changes on its own. -/
  | alterBacking (f : ν → ν)
  | setGauge (gauge : Gauge)
  /-- The clock moves on, going around at the end. -/
  | advance (ms : UInt64)
  | setClock (ms : UInt64)

inductive Answer where
  | done
  | metric (a : Table.Answer)
  | buffer (written : Nat) (bs : Bytes)
  | store (a : RecordStore.Answer)
  | lines (ls : List String)
  | pending (b : Bool)
  | flushed (n : Nat)
  | key (k : Option Nat)
deriving DecidableEq, Repr

variable {ν : Type} [Nonvolatile ν]

def finish {ε : Type} (failure : ε → Failure) (r : Except ε Unit × Agent ν) :
    Except Failure Answer × Agent ν :=
  ((r.1.map fun _ => .done).mapError failure, r.2)

def useTable (a : Agent ν) (call : Table.Call) : Except Failure Answer × Agent ν :=
  a.locked fun a =>
    let (answer, table) := a.table.perform call
    ((answer.map .metric).mapError .metric, { a with table })

def useStore (a : Agent ν) (op : RecordStore.Operation ν) : Except Failure Answer × Agent ν :=
  a.locked fun a =>
    let (answer, a) := a.withStore (·.perform op)
    (.ok (.store answer), a)

def alter (a : Agent ν) (f : Agent ν → Agent ν) : Except Failure Answer × Agent ν :=
  a.locked fun a => (.ok .done, f a)

def forSession (a : Agent ν) (session : Nat)
    (f : Agent ν → Nat → Except MetricError Unit × Agent ν) : Except Failure Answer × Agent ν :=
  match a.durationKey session with
  | .error e => (.error (.metric e), a)
  | .ok key => finish .metric (a.locked fun a => f a key)

/-- Reads a text into a buffer, of which as many bytes are written as whole characters fit. -/
def readTextInto (a : Agent ν) (key : Nat) (buffer : Bytes) :
    Except Failure Answer × Agent ν :=
  if buffer.isEmpty then (.error (.metric (.badParameter .emptyOutput)), a)
  else
    a.locked fun a =>
      match a.table.readText key with
      | .error e => (.error (.metric e), a)
      | .ok s =>
        let bs := Text.bytes (Text.truncate s buffer.length)
        (.ok (.buffer bs.length (bs ++ buffer.drop bs.length)), a)

def collect (a : Agent ν) (session : Nat) : Except Failure Answer × Agent ν :=
  if session < a.table.catalog.sessionCount then
    finish .metric (a.locked fun a => a.reportSession session)
  else (.error (.metric (.badParameter (.unknownSession session))), a)

def hasMore (a : Agent ν) : Option Nat × Agent ν := a.locked fun a => a.withStore (·.hasMore)

def read (a : Agent ν) (offset length : Nat) : Option Bytes × Agent ν :=
  a.locked fun a => a.withStore (·.read offset length)

def markRead (a : Agent ν) : Agent ν :=
  (a.locked fun a => ((), { a with store := a.store.markRead })).2

def drainOne (a : Agent ν) : RecordStore.Round × Agent ν :=
  match a.hasMore with
  | (none, a) => (.nothing, a)
  | (some size, a) =>
    let (bs, a) := a.read 0 size
    ((bs.map .event).getD .unreadable, a.markRead)

def drain (a : Agent ν) : Nat → List RecordStore.Round × Agent ν
  | 0 => ([], a)
  | count + 1 =>
    match a.drainOne with
    | (.nothing, a) => ([], a)
    | (round, a) =>
      let (rounds, a) := a.drain count
      (round :: rounds, a)

def perform (a : Agent ν) : Operation ν → Except Failure Answer × Agent ν
  | .setUnsigned key n => a.useTable (.setUnsigned key n)
  | .setSigned key n => a.useTable (.setSigned key n)
  | .setText key s => a.useTable (.setText key s)
  | .add key amount => a.useTable (.add key amount)
  | .startTimer key => a.useTable (.startTimer key a.now)
  | .stopTimer key => a.useTable (.stopTimer key a.now)
  | .readUnsigned key => a.useTable (.readUnsigned key)
  | .readSigned key => a.useTable (.readSigned key)
  | .readTimer key => a.useTable (.readTimer key a.now)
  | .readText key => a.useTable (.readText key)
  | .readTextInto key buffer => a.readTextInto key buffer
  | .startSession session => a.forSession session fun a key => a.beginSession session key
  | .endSession session => a.forSession session fun a key => a.finishSession session key
  | .collect session => a.collect session
  | .heartbeat => a.collect Catalog.heartbeat
  | .describe =>
    let (lines, a) := a.locked describeHeartbeat
    (.ok (.lines lines), a)
  | .setCollectHook hook => a.alter fun a => { a with collectHook := some hook }
  | .setSessionEndHook session hook =>
    a.forSession session fun a _ =>
      (.ok (), { a with sessionEndHooks := (session, hook) :: a.sessionEndHooks })
  | .observe => a.useStore .observe
  | .setBatchLimit limit => a.useStore (.setBatchLimit limit)
  | .changeConnection state =>
    finish .metric (a.locked fun a =>
      let (result, table) := a.collectors.changeConnection a.table state a.now
      (result, { a with table }))
  | .countSync success =>
    finish .metric (a.locked fun a => a.alterTable fun t => a.collectors.countSync t success)
  | .setUnexpectedReboot unexpected =>
    finish .metric (a.locked fun a => a.alterCollectors (·.setUnexpectedReboot unexpected))
  | .attachMonitor =>
    finish .metric (a.locked fun a =>
      a.alterCollectors (·.attachMonitor a.platform.gauge a.now))
  | .stopDischarging => finish .metric (a.locked fun a => a.alterCollectors (·.stopDischarging))
  | .stage t =>
    let (result, mailbox) := a.mailbox.stage t
    finish .trace (result, { a with mailbox })
  | .isPending => (.ok (.pending a.mailbox.isPending), a)
  | .capture t => finish .trace (a.locked fun a => a.reportTrace t)
  | .flush =>
    let (n, a) := a.locked flushStaged
    (.ok (.flushed n), a)
  | .persist => a.useStore .persist
  | .keyOf name => (.ok (.key (a.table.catalog.keyOf? name)), a)
  | .hasMore => a.useStore .hasMore
  | .read offset length => a.useStore (.read offset length)
  | .markRead => a.useStore .markRead
  | .drainOne =>
    let (round, a) := a.drainOne
    (.ok (.store (.round round)), a)
  | .drain rounds =>
    let (rounds, a) := a.drain rounds
    (.ok (.store (.rounds rounds)), a)
  | .attach backing => a.useStore (.attach backing)
  | .alterBacking f => (.ok .done, { a with store := a.store.alterBacking f })
  | .setGauge gauge => (.ok .done, { a with platform.gauge := gauge })
  | .advance ms => (.ok .done, { a with platform.clock := a.platform.clock + ms })
  | .setClock ms => (.ok .done, { a with platform.clock := ms })

def performAll (a : Agent ν) :
    List (Operation ν) → List (Except Failure Answer) × Agent ν
  | [] => ([], a)
  | op :: ops =>
    let (answer, a) := a.perform op
    let (answers, a) := a.performAll ops
    (answer :: answers, a)

end DeviceTelemetry.Agent
