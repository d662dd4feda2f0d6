import DeviceTelemetry.Proofs.Agent.Separation
import DeviceTelemetry.Proofs.Agent.Settings
import DeviceTelemetry.Proofs.Agent.Timing
import DeviceTelemetry.Proofs.Simulation.Script

/-!
# The life that a simulation leads

A simulated agent has no hooks and no trace that waits, its reader holds nothing, and the duration
timer of a session runs exactly as long as the session is open (`Simulation.Live`). Each operation
of a script keeps this up (`Live.perform`). So no operation of a simulation is refused but the
start of a timer that runs already, the rounds of a simulation are its script
(`Live.liveRounds_eq`), and every report of the script is attempted.
-/

set_option autoImplicit false

namespace DeviceTelemetry

namespace Simulation

open Agent (Operation Sound Steady)

/-- A simulated agent between two operations, while the given session is open. -/
structure Live (configuration : Configuration) (c : Catalog) (capacity : Nat) (opened : Option Nat)
    (a : Subject) : Prop where
  sound : Sound c configuration.device capacity a
  interval : a.heartbeatInterval = configuration.heartbeatInterval
  unhooked : a.collectHook = none ∧ a.sessionEndHooks = []
  unstaged : a.mailbox.staged = none
  handout : a.store.handout = none
  batchLimit : a.store.batchLimit = configuration.batchLimit.map UInt64.toNat
  /-- The duration timer of a session runs exactly while the session is open. -/
  timers : ∀ {session key : Nat}, c.durationKey? session = some key →
    a.table.isRunning key = .ok (decide (opened = some session))

variable {configuration : Configuration} {c : Catalog} {capacity : Nat}
  {opened next last : Option Nat} {a : Subject} {op : Operation Empty} {schema : Schema}
  {round session key : Nat}

/-! ### Operations -/

/-- An operation of a simulation is a call or a move of the clock, and sets no hook. -/
theorem Leads.plain (leads : Leads c opened op next) :
    (op.isCall = true ∨ op.movesClock = true) ∧ op.setsHook = false := by
  cases leads with
  | drive round metric free =>
      rename_i e
      cases e.kind <;> exact ⟨.inl rfl, rfl⟩
  | start duration => exact ⟨.inl rfl, rfl⟩
  | advance ms => exact ⟨.inr rfl, rfl⟩
  | finish duration => exact ⟨.inl rfl, rfl⟩
  | heartbeat => exact ⟨.inl rfl, rfl⟩

namespace Live

theorem durationKey_eq (h : Live configuration c capacity opened a)
    (duration : c.durationKey? session = some key) : a.durationKey session = .ok key := by
  rw [Agent.durationKey_eq_ok, h.sound.catalog]
  exact duration

theorem endingHook_eq (h : Live configuration c capacity opened a) (session : Nat) :
    a.endingHook session = none := by
  rw [Agent.endingHook, h.unhooked.2]
  cases a.durationKey session with
  | error e => rfl
  | ok key => rfl

theorem collectionHook_eq (h : Live configuration c capacity opened a) (session : Nat) :
    a.collectionHook session = none := by
  rw [Agent.collectionHook, h.unhooked.1]
  split <;> rfl

theorem waiting_eq (h : Live configuration c capacity opened a)
    (leads : Leads c opened op next) : a.waiting op = none := by
  have stages : a.stages op = [] := by
    cases leads with
    | drive round metric free =>
        rename_i e
        cases e.kind <;> rfl
    | start duration => rfl
    | advance ms => rfl
    | finish duration => exact congrArg tracesOf (h.endingHook_eq _)
    | heartbeat => exact congrArg tracesOf (h.collectionHook_eq Catalog.heartbeat)
  rw [Agent.waiting, stages, h.unstaged]
  rfl

theorem endedEvent_eq (h : Live configuration c capacity (some session) a)
    (duration : c.durationKey? session = some key) :
    a.endedEvent session = some (a.endEvent session key) := by
  have running := h.timers duration
  rw [decide_eq_true rfl] at running
  rw [Agent.endedEvent, h.durationKey_eq duration]
  dsimp only
  rw [Agent.afterEndHook_of_unhooked h.unhooked, if_pos running]

/-- One event is attempted by a report, and none by any other operation. -/
theorem length_attempts (h : Live configuration c capacity opened a)
    (valid : schema.catalog = .ok c) (leads : Leads c opened op next) :
    (a.attempts op).length = [op].countP Operation.isReport := by
  have waiting := h.waiting_eq leads
  cases leads with
  | drive round metric free =>
      rename_i e
      cases e.kind <;> rfl
  | start duration => rfl
  | advance ms => rfl
  | finish duration =>
      have own : a.ownEvent (.endSession _) = _ := h.endedEvent_eq duration
      rw [Agent.attempts, waiting, own, Option.map_none, Option.toList_none, ite_self]
      rfl
  | heartbeat =>
      have known : Catalog.heartbeat < a.table.catalog.sessionCount := by
        rw [h.sound.catalog]
        exact Schema.heartbeat_lt valid
      have own : a.ownEvent .heartbeat = some _ := if_pos known
      rw [Agent.attempts, waiting, own, Option.map_none, Option.toList_none, ite_self]
      rfl

/-! ### Duration timers -/

section Timers

variable {number duration : Nat}

theorem moves_startSession (h : Live configuration c capacity opened a)
    (started : c.durationKey? number = some duration) :
    a.moves key (.startSession number) =
      (if c.InSession number key then [.reset] else []) ++
        if duration = key then [.start a.now] else [] := by
  show a.beginningMoves key number = _
  rw [Agent.beginningMoves, h.durationKey_eq started]
  dsimp only
  rw [Agent.callMoves, Agent.callMoves, h.sound.catalog]
  rfl

theorem moves_endSession (h : Live configuration c capacity (some number) a)
    (ended : c.durationKey? number = some duration) :
    a.moves key (.endSession number) =
      (if duration = key then [.stop a.now] else []) ++
        ((if c.InSession number key then [.tally a.now] else []) ++
          if c.InSession number key then [.reset] else []) := by
  show a.endingMoves key number = _
  rw [Agent.endingMoves, h.durationKey_eq ended]
  dsimp only
  rw [h.endingHook_eq, h.endedEvent_eq ended, Option.isSome_some, if_pos rfl, Agent.callMoves,
    Agent.callMoves, Agent.callMoves, h.sound.catalog]
  rfl

theorem moves_heartbeat (h : Live configuration c capacity opened a)
    (valid : schema.catalog = .ok c) :
    a.moves key .heartbeat =
      (if c.InSession Catalog.heartbeat key then [.tally a.now] else []) ++
        if c.InSession Catalog.heartbeat key then [.reset] else [] := by
  have known := Schema.heartbeat_lt valid
  show a.collectionMoves key Catalog.heartbeat = _
  rw [Agent.collectionMoves, h.sound.catalog, if_pos known, h.collectionHook_eq, hookMoves_none,
    List.append_nil, Agent.callMoves, Agent.callMoves, h.sound.catalog]
  rfl

/-- Every operation of a simulation has the duration timers run as the open session tells. -/
theorem isRunning_perform (h : Live configuration c capacity opened a)
    (valid : schema.catalog = .ok c) (leads : Leads c opened op next)
    (timer : c.durationKey? session = some key) :
    (a.perform op).2.table.isRunning key = .ok (decide (next = some session)) := by
  have moved := (Agent.moved_perform key a op).1.isRunning (h.timers timer)
  rw [moved]
  cases leads with
  | @drive _ round key' e metric free =>
      have other : key' ≠ key := by
        rintro rfl
        exact free session timer
      have moves : a.moves key (operation round key' e.kind) = [] := by
        cases e.kind with
        | timer => exact if_neg other
        | _ => rfl
      rw [moves]
      rfl
  | @start number duration started =>
      rw [h.moves_startSession started, List.foldl_append]
      by_cases same : number = session
      · subst same
        obtain rfl := Option.some.inj (started.symm.trans timer)
        rw [if_pos rfl, decide_eq_true rfl]
        rfl
      · have other := durationKey?_ne valid started timer same
        rw [if_neg other, decide_eq_false (mt Option.some.inj same), List.foldl_nil]
        split <;> rfl
  | advance ms => rfl
  | @finish number duration ended =>
      rw [h.moves_endSession ended, List.foldl_append, Timer.foldl_runs_report]
      by_cases same : number = session
      · subst same
        obtain rfl := Option.some.inj (ended.symm.trans timer)
        rw [if_pos rfl]
        rfl
      · have other := durationKey?_ne valid ended timer same
        rw [if_neg other, decide_eq_false (mt Option.some.inj same)]
        rfl
  | heartbeat => rw [h.moves_heartbeat valid, Timer.foldl_runs_report]

end Timers

/-! ### Steps and runs -/

theorem perform (h : Live configuration c capacity opened a) (valid : schema.catalog = .ok c)
    (leads : Leads c opened op next) : Live configuration c capacity next (a.perform op).2 := by
  obtain ⟨call, plain⟩ := leads.plain
  have steady := Steady.perform a call
  obtain ⟨q, represents, closed, -⟩ := h.sound.store
  obtain ⟨q', represents', -, grows, limit⟩ := steady.store represents closed
  obtain ⟨_, accounts, -⟩ := Agent.exists_accounts h.sound.store op
  exact
    { sound := h.sound.perform (Agent.callsOnly_of_unhooked plain)
      interval := steady.interval.trans h.interval
      unhooked := ⟨steady.collectHook.trans h.unhooked.1,
        steady.sessionEndHooks.trans h.unhooked.2⟩
      unstaged := by
        rw [accounts.mailbox, h.waiting_eq leads, ite_self]
      handout := by
        have held := represents.handout
        rw [h.handout, eq_comm, Option.map_eq_none_iff] at held
        rw [represents'.handout, grows.handed, held, Option.map_none]
      batchLimit := by
        rw [represents'.batchLimit, limit, ← represents.batchLimit, h.batchLimit]
      timers := h.isRunning_perform valid leads }

/-- No record goes, so what an operation commits stands behind the records from before. -/
theorem payloads_perform (h : Live configuration c capacity opened a)
    (leads : Leads c opened op next) :
    (a.perform op).2.store.payloads = a.store.payloads ++ a.commits op := by
  have steady := Steady.perform a leads.plain.1
  obtain ⟨q, represents, closed, -⟩ := h.sound.store
  obtain ⟨q', represents', -, grows, -⟩ := steady.store represents closed
  obtain ⟨more, added⟩ := grows.records
  rw [Agent.commits, represents.payloads_eq, represents'.payloads_eq, ← added, List.drop_left]

theorem performAll (h : Live configuration c capacity opened a) (valid : schema.catalog = .ok c)
    {ops : List (Operation Empty)} (path : Path c opened ops last) :
    Live configuration c capacity last (a.performAll ops).2 ∧
      (a.attemptsAll ops).length = ops.countP Operation.isReport ∧
        (a.performAll ops).2.store.payloads = a.store.payloads ++ a.commitsAll ops := by
  induction path generalizing a with
  | nil opened => exact ⟨h, rfl, (List.append_nil _).symm⟩
  | @cons opened next last op ops leads rest ih =>
      obtain ⟨live, attempted, kept⟩ := ih (h.perform valid leads)
      refine ⟨live, ?_, ?_⟩
      · rw [Agent.attemptsAll, List.length_append, h.length_attempts valid leads, attempted,
          ← List.countP_append]
        rfl
      · rw [Agent.performAll, Agent.commitsAll, ← List.append_assoc, ← h.payloads_perform leads]
        exact kept

end Live

end Simulation

end DeviceTelemetry
