import DeviceTelemetry.Agent.Basic

/-!
# Reporting

How events come about. A session is reported by recording what its metrics show and then
forgetting it, whether or not the event fitted into the store. A staged trace goes into the store
in front of the next event.
-/

set_option autoImplicit false

namespace DeviceTelemetry.Agent

variable {ν : Type}

def maxDropped : Nat := 0xFFFFFFFF

def drop (a : Agent ν) : Agent ν :=
  { a with droppedEvents := min (a.droppedEvents + 1) maxDropped }

/-- Records an event, or counts it as dropped. Answers whether it was recorded. -/
def record (a : Agent ν) (e : Event) : Bool × Agent ν :=
  match a.withStore (·.recordEvent a.device e) with
  | (.ok _, a) => (true, a)
  | (.error _, a) => (false, a.drop)

/-- Records the staged trace, if there is one. Returns the number of traces recorded. -/
def flushStaged (a : Agent ν) : Nat × Agent ν :=
  match a.mailbox.take with
  | (none, _) => (0, a)
  | (some t, mailbox) =>
    match { a with mailbox }.record (.trace t) with
    | (true, a) => (1, a)
    | (false, a) => (0, a)

def performHook (a : Agent ν) : Hook → List (Except MetricError Table.Answer) × Agent ν
  | [] => ([], a)
  | .call c :: steps =>
    let (answer, table) := a.table.perform c
    let (answers, a) := { a with table }.performHook steps
    (answer :: answers, a)
  | .stage t :: steps =>
    let (_, mailbox) := a.mailbox.stage t
    let (answers, a) := { a with mailbox }.performHook steps
    (.ok .done :: answers, a)

def runHook (a : Agent ν) (point : HookPoint) : Option Hook → Agent ν
  | none => a
  | some hook =>
    let before := a.table.readings
    let (answers, a) := a.performHook hook
    { a with hookRuns := { point, before, answers } :: a.hookRuns }

/-- Brings the metrics of a session up to date: running timers up to now, and for the heartbeat the
built-in metrics and the hook. -/
def refresh (a : Agent ν) (session : Nat) : Agent ν :=
  let a := { a with table := a.table.tallySession session a.now }
  if session = Catalog.heartbeat then
    let (table, collectors) := a.collectors.collect a.table a.platform.gauge a.now
    { a with table, collectors }.runHook .heartbeat a.collectHook
  else a

/-- Reports a session: brings its metrics up to date, records the staged trace and then the event
of the session, and forgets what the session has recorded. -/
def reportSession (a : Agent ν) (session : Nat) : Except MetricError Unit × Agent ν :=
  let (_, a) := (a.refresh session).flushStaged
  let (recorded, a) := a.record (a.table.sessionEvent session)
  let a := { a with table := a.table.resetSession session }
  (if recorded then .ok () else .error (.outOfSpace session), a)

def reportTrace (a : Agent ν) (t : Trace) : Except TraceError Unit × Agent ν :=
  let (_, a) := a.flushStaged
  let (recorded, a) := a.record (.trace t)
  (if recorded then .ok () else .error .outOfSpace, a)

def durationKey (a : Agent ν) (session : Nat) : Except MetricError Nat :=
  match a.table.catalog.durationKey? session with
  | some key => .ok key
  | none => .error (.badParameter (.notUserSession session))

def beginSession (a : Agent ν) (session key : Nat) : Except MetricError Unit × Agent ν :=
  { a with table := a.table.resetSession session }.alterTable (·.startTimer key a.now)

/-- Ends a user session: runs its hook, stops its duration timer and reports it. A session whose
timer is not running is not reported. -/
def finishSession (a : Agent ν) (session key : Nat) : Except MetricError Unit × Agent ν :=
  let a := a.runHook (.sessionEnd session) (a.sessionEndHooks.lookup session)
  match a.alterTable (·.stopTimer key a.now) with
  | (.ok _, a) => a.reportSession session
  | refused => refused

def describe : Reading → String
  | .unsigned (some n) => toString n.toNat
  | .unsigned none => "null"
  | .signed (some n) => toString n.toInt
  | .signed none => "null"
  | .timer ms => toString (ms.getD 0)
  | .text s => "\"" ++ s ++ "\""

def describeHeartbeat (a : Agent ν) : List String × Agent ν :=
  let table := a.table.tallySession Catalog.heartbeat a.now
  let line (key : Nat) : String :=
    let name := ((table.catalog.metric? key).map (·.name)).getD "?"
    let value := ((table.slots[key]?).map fun slot => describe slot.reading).getD "null"
    s!"  {name}: {value}"
  ("Heartbeat keys/values:" :: (table.catalog.sessionKeys Catalog.heartbeat).map line,
    { a with table })

end DeviceTelemetry.Agent
