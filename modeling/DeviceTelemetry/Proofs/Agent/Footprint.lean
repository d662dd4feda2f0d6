import DeviceTelemetry.Proofs.CollectorCalls
import DeviceTelemetry.Proofs.RecordQueue.Frame

/-!
# The footprint of an operation

An agent changes step by step, and each step concerns one part of it (`Agent.Changes`). Which parts
an operation may touch is told by the operation alone (`Operation.touches`), and `touches_perform`
goes through all operations once. What a relation between agents says of operations follows from
what it says of single steps; what it says of the table is told by `Operation.table_cases`, since
only few operations do more to the table than to make one call.
-/

set_option autoImplicit false

namespace DeviceTelemetry.Agent

open RecordQueue (Represents Serves)
open Table (Call)

inductive Part where
  | table
  | collectors
  | mailbox
  | hookRuns
  | records
  | reader
  | hooks
  | lock
  | gauge
  | clock
deriving DecidableEq

variable {ν : Type} {a b d : Agent ν} {parts parts' : List Part}

/-- One step, which changes one part of an agent. -/
inductive Changes (a : Agent ν) : Part → Agent ν → Prop
  | call (c : Call) : Changes a .table { a with table := (a.table.perform c).2 }
  | collectors {c : Collectors} (follows : Collectors.Follows a.collectors c) :
    Changes a .collectors { a with collectors := c }
  | mailbox (m : Mailbox) : Changes a .mailbox { a with mailbox := m }
  | hookRuns (runs : List HookRun) : Changes a .hookRuns { a with hookRuns := runs }
  | record (e : Event) : Changes a .records (a.record e).2
  | serve {s : RecordStore ν}
    (serves : ∀ {q : RecordQueue ν}, Represents a.store q → ∃ q', Represents s q' ∧ Serves q q') :
    Changes a .reader { a with store := s }
  | setHooks (collectHook : Option Hook) (sessionEndHooks : List (Nat × Hook)) :
    Changes a .hooks { a with collectHook, sessionEndHooks }
  | setLock (lock : Lock) : Changes a .lock { a with platform.lock := lock }
  | setGauge (gauge : Gauge) : Changes a .gauge { a with platform.gauge := gauge }
  | setClock (clock : UInt64) : Changes a .clock { a with platform.clock := clock }

/-- Steps lead from `a` to `b`, all of them on these parts. -/
inductive Touches (parts : List Part) : Agent ν → Agent ν → Prop
  | refl (a : Agent ν) : Touches parts a a
  | step {a b d : Agent ν} {part : Part} (steps : Touches parts a b) (member : part ∈ parts)
    (last : Changes b part d) : Touches parts a d

namespace Touches

theorem one {part : Part} (member : part ∈ parts) (change : Changes a part b) :
    Touches parts a b :=
  .step (.refl a) member change

theorem trans (h : Touches parts a b) (h' : Touches parts b d) : Touches parts a d := by
  induction h' with
  | refl => exact h
  | step _ member last ih => exact .step ih member last

theorem mono (h : Touches parts a b) (more : parts ⊆ parts') : Touches parts' a b := by
  induction h with
  | refl => exact .refl a
  | step _ member last ih => exact .step ih (more member) last

theorem invariant {P : Agent ν → Prop} (h : Touches parts a b) (start : P a)
    (kept : ∀ {part : Part} {b d : Agent ν}, part ∈ parts → Changes b part d → P b → P d) :
    P b := by
  induction h with
  | refl => exact start
  | step _ member last ih => exact kept member last ih

theorem calls (a : Agent ν) (calls : List Call) :
    Touches [.table] a { a with table := (a.table.performAll calls).2 } := by
  induction calls generalizing a with
  | nil => exact .refl a
  | cons c calls ih =>
      have first : Touches [.table] a { a with table := (a.table.perform c).2 } :=
        .one (by decide) (.call c)
      exact first.trans (ih _)

theorem locked {α : Type} {f : Agent ν → α × Agent ν} (inside : ∀ a, Touches parts a (f a).2)
    (a : Agent ν) : Touches (.lock :: parts) a (a.locked f).2 := by
  have entered : Touches (.lock :: parts) a { a with platform.lock := a.platform.lock.enter } :=
    .one List.mem_cons_self (.setLock _)
  have both := entered.trans ((inside _).mono (List.subset_cons_self _ _))
  exact both.step List.mem_cons_self (.setLock _)

end Touches

/-! ### What is not touched -/

/-- From `a` to `b` at most these parts are changed. -/
structure Within (parts : List Part) (a b : Agent ν) : Prop where
  table : .table ∉ parts → b.table = a.table
  collectors : .collectors ∉ parts → b.collectors = a.collectors
  mailbox : .mailbox ∉ parts → b.mailbox = a.mailbox
  store : .records ∉ parts → .reader ∉ parts → b.store = a.store
  droppedEvents : .records ∉ parts → b.droppedEvents = a.droppedEvents
  collectHook : .hooks ∉ parts → b.collectHook = a.collectHook
  sessionEndHooks : .hooks ∉ parts → b.sessionEndHooks = a.sessionEndHooks
  gauge : .gauge ∉ parts → b.platform.gauge = a.platform.gauge
  clock : .clock ∉ parts → b.now = a.now
  device : b.device = a.device
  heartbeatInterval : b.heartbeatInterval = a.heartbeatInterval

theorem Within.refl (parts : List Part) (a : Agent ν) : Within parts a a := by
  constructor <;> intros <;> rfl

theorem Within.trans (h : Within parts a b) (h' : Within parts b d) : Within parts a d where
  table free := (h'.table free).trans (h.table free)
  collectors free := (h'.collectors free).trans (h.collectors free)
  mailbox free := (h'.mailbox free).trans (h.mailbox free)
  store free free' := (h'.store free free').trans (h.store free free')
  droppedEvents free := (h'.droppedEvents free).trans (h.droppedEvents free)
  collectHook free := (h'.collectHook free).trans (h.collectHook free)
  sessionEndHooks free := (h'.sessionEndHooks free).trans (h.sessionEndHooks free)
  gauge free := (h'.gauge free).trans (h.gauge free)
  clock free := (h'.clock free).trans (h.clock free)
  device := h'.device.trans h.device
  heartbeatInterval := h'.heartbeatInterval.trans h.heartbeatInterval

theorem Changes.within {part : Part} (h : Changes a part b) (member : part ∈ parts) :
    Within parts a b := by
  cases h with
  -- an attempt to record may change the store and the count of drops, which are one part
  | record e =>
      obtain ⟨s, n, same⟩ := a.record_eq e
      rw [same]
      constructor <;> intros <;> first | rfl | contradiction
  | _ => constructor <;> intros <;> first | rfl | contradiction

theorem Touches.within (h : Touches parts a b) : Within parts a b :=
  h.invariant (.refl parts a) fun member change before => before.trans (change.within member)

/-! ### Parts of operations -/

theorem touches_record (a : Agent ν) (e : Event) : Touches [.records] a (a.record e).2 :=
  .one (by decide) (.record e)

theorem touches_flushStaged (a : Agent ν) : Touches [.mailbox, .records] a a.flushStaged.2 := by
  cases staged : a.mailbox.staged with
  | none =>
      rw [flushStaged_of_none staged]
      exact .refl a
  | some t =>
      rw [flushStaged_of_some staged]
      have taken : Touches [.mailbox, .records] a
          { a with mailbox := a.mailbox.take.2 } := .one (by decide) (.mailbox _)
      exact taken.trans ((touches_record _ _).mono (by decide))

theorem touches_performHook (a : Agent ν) (hook : Hook) :
    Touches [.table, .mailbox] a (a.performHook hook).2 := by
  induction hook generalizing a with
  | nil => exact .refl a
  | cons step steps ih =>
      cases step with
      | call c =>
          have called : Touches [.table, .mailbox] a { a with table := (a.table.perform c).2 } :=
            .one (by decide) (.call c)
          exact called.trans (ih _)
      | stage t =>
          have staged : Touches [.table, .mailbox] a { a with mailbox := (a.mailbox.stage t).2 } :=
            .one (by decide) (.mailbox _)
          exact staged.trans (ih _)

theorem touches_runHook (a : Agent ν) (point : HookPoint) (hook : Option Hook) :
    Touches [.table, .mailbox, .hookRuns] a (a.runHook point hook) := by
  cases hook with
  | none => exact .refl a
  | some hook =>
      have performed : Touches [.table, .mailbox, .hookRuns] a (a.performHook hook).2 :=
        (touches_performHook a hook).mono (by decide)
      exact performed.step (by decide) (.hookRuns _)

theorem touches_refresh (a : Agent ν) (session : Nat) :
    Touches [.table, .collectors, .mailbox, .hookRuns] a (a.refresh session) := by
  have tallied : Touches [.table, .collectors, .mailbox, .hookRuns] a
      { a with table := a.table.tallySession session a.now } :=
    .one (by decide) (.call (.tallySession session a.now))
  unfold refresh
  dsimp only
  split
  · rw [Collectors.collect_eq]
    have called := tallied.trans ((Touches.calls _ (a.collectors.made
      (a.table.tallySession session a.now) a.platform.gauge a.now)).mono (by decide))
    have collected := called.step (by decide) (.collectors
      (a.collectors.follows_collected a.platform.gauge a.now))
    exact collected.trans ((touches_runHook _ _ _).mono (by decide))
  · exact tallied

def reportParts : List Part := [.table, .collectors, .mailbox, .hookRuns, .records]

theorem touches_reportSession (a : Agent ν) (session : Nat) :
    Touches reportParts a (a.reportSession session).2 := by
  have refreshed : Touches reportParts a (a.refresh session) :=
    (touches_refresh a session).mono (by decide)
  have flushed := refreshed.trans ((touches_flushStaged _).mono (by decide))
  have recorded := flushed.trans ((touches_record _
    ((a.refresh session).flushStaged.2.table.sessionEvent session)).mono (by decide))
  exact recorded.step (by decide) (.call (.resetSession session))

theorem touches_reportTrace (a : Agent ν) (t : Trace) :
    Touches [.mailbox, .records] a (a.reportTrace t).2 :=
  (touches_flushStaged a).trans ((touches_record _ (.trace t)).mono (by decide))

theorem touches_alterTable {f : Table → Except MetricError Table} (c : Call)
    (made : (a.table.settle (f a.table)).2 = (a.table.perform c).2) :
    Touches [.table] a (a.alterTable f).2 := by
  rw [alterTable_eq, made]
  exact .one (by decide) (.call c)

theorem touches_alterCollectors {f : Collectors → Except MetricError Collectors}
    (follows : ∀ c, f a.collectors = .ok c → Collectors.Follows a.collectors c) :
    Touches [.collectors] a (a.alterCollectors f).2 := by
  unfold alterCollectors
  cases result : f a.collectors with
  | ok c => exact .one (by decide) (.collectors (follows c result))
  | error e => exact .refl a

theorem touches_beginSession (a : Agent ν) (session key : Nat) :
    Touches [.table] a (a.beginSession session key).2 := by
  have reset : Touches [.table] a { a with table := a.table.resetSession session } :=
    .one (by decide) (.call (.resetSession session))
  exact reset.trans (touches_alterTable (.startTimer key a.now) rfl)

theorem touches_finishSession (a : Agent ν) (session key : Nat) :
    Touches reportParts a (a.finishSession session key).2 := by
  have hooked : Touches reportParts a
      (a.runHook (.sessionEnd session) (a.sessionEndHooks.lookup session)) :=
    (touches_runHook a _ _).mono (by decide)
  unfold finishSession
  dsimp only
  generalize a.runHook (.sessionEnd session) (a.sessionEndHooks.lookup session) = a' at hooked
  have stopped := hooked.trans
    ((touches_alterTable (f := (·.stopTimer key a'.now)) (.stopTimer key a'.now) rfl).mono
      (by decide))
  generalize a'.alterTable (·.stopTimer key a'.now) = answer at stopped
  obtain ⟨result, a''⟩ := answer
  cases result with
  | ok done => exact stopped.trans (touches_reportSession a'' session)
  | error e => exact stopped

theorem touches_forSession {f : Agent ν → Nat → Except MetricError Unit × Agent ν}
    (inside : ∀ a key, Touches parts a (f a key).2) (a : Agent ν) (session : Nat) :
    Touches (.lock :: parts) a (a.forSession session f).2 := by
  unfold forSession
  cases a.durationKey session with
  | error e => exact .refl a
  | ok key => exact .locked (fun a => inside a key) a

theorem touches_collect (a : Agent ν) (session : Nat) :
    Touches (.lock :: reportParts) a (a.collect session).2 := by
  unfold collect
  split
  · exact .locked (fun a => touches_reportSession a session) a
  · exact .refl a

theorem touches_useTable (a : Agent ν) (c : Call) : Touches [.lock, .table] a (a.useTable c).2 :=
  .locked (fun a => .one (by decide) (.call c)) a

theorem touches_readTextInto (a : Agent ν) (key : Nat) (buffer : Bytes) :
    Touches [.lock] a (a.readTextInto key buffer).2 := by
  unfold readTextInto
  split
  · exact .refl a
  · refine .locked (fun a => ?_) a
    cases a.table.readText key with
    | error e => exact .refl a
    | ok s => exact .refl a

theorem touches_changeConnection (a : Agent ν) (state : ConnectionState) :
    Touches [.lock, .table] a (a.locked fun a =>
      let (result, table) := a.collectors.changeConnection a.table state a.now
      (result, { a with table })).2 := by
  refine .locked (fun a => ?_) a
  dsimp only
  rw [a.collectors.changeConnection_table]
  exact .calls a _

theorem touches_countSync (a : Agent ν) (success : Bool) :
    Touches [.lock, .table] a
      (a.locked fun a => a.alterTable fun t => a.collectors.countSync t success).2 := by
  refine .locked (fun a => ?_) a
  have counted := a.collectors.countSync_table a.table success
  rw [alterTable_eq, counted]
  exact .calls a _

theorem touches_changeCollectors {f : Agent ν → Collectors → Except MetricError Collectors}
    (follows : ∀ a c c', f a c = .ok c' → Collectors.Follows c c') (a : Agent ν) :
    Touches [.lock, .collectors] a (a.locked fun a => a.alterCollectors (f a)).2 :=
  .locked (fun a => touches_alterCollectors fun c' => follows a a.collectors c') a

/-! ### Whole operations -/

variable [Nonvolatile ν]

theorem Changes.useStore (a : Agent ν) (op : RecordStore.Operation ν)
    (serves : ∀ q : RecordQueue ν, Serves q (q.perform op).2) :
    Changes a .reader { a with store := (a.store.perform op).2 } :=
  .serve fun represents => ⟨_, (represents.perform op).2, serves _⟩

theorem touches_useStore (a : Agent ν) (op : RecordStore.Operation ν)
    (serves : ∀ q : RecordQueue ν, Serves q (q.perform op).2) :
    Touches [.lock, .reader] a (a.useStore op).2 :=
  .locked (fun a => .one (by decide) (.useStore a op serves)) a

theorem touches_hasMore (a : Agent ν) : Touches [.lock, .reader] a a.hasMore.2 :=
  touches_useStore a .hasMore RecordQueue.serves_hasMore

theorem touches_read (a : Agent ν) (offset length : Nat) :
    Touches [.lock, .reader] a (a.read offset length).2 :=
  touches_useStore a (.read offset length) fun q => RecordQueue.serves_read q offset length

theorem touches_markRead (a : Agent ν) : Touches [.lock, .reader] a a.markRead :=
  touches_useStore a .markRead RecordQueue.serves_markRead

theorem touches_drainOne (a : Agent ν) : Touches [.lock, .reader] a a.drainOne.2 := by
  have asked := touches_hasMore a
  unfold drainOne
  generalize a.hasMore = answer at asked
  obtain ⟨size, a'⟩ := answer
  cases size with
  | none => exact asked
  | some n => exact asked.trans ((touches_read a' 0 n).trans (touches_markRead _))

theorem touches_drain (a : Agent ν) (count : Nat) :
    Touches [.lock, .reader] a (a.drain count).2 := by
  induction count generalizing a with
  | zero => exact .refl a
  | succ count ih =>
      have one := touches_drainOne a
      unfold drain
      generalize a.drainOne = answer at one
      obtain ⟨round, a'⟩ := answer
      cases round with
      | nothing => exact one
      | unreadable => exact one.trans (ih a')
      | event bs => exact one.trans (ih a')

def Operation.touches : Operation ν → List Part
  | .setUnsigned _ _ | .setSigned _ _ | .setText _ _ | .add _ _ => [.lock, .table]
  | .startTimer _ | .stopTimer _ | .readTimer _ => [.lock, .table]
  | .readUnsigned _ | .readSigned _ | .readText _ => [.lock, .table]
  | .startSession _ | .describe | .changeConnection _ | .countSync _ => [.lock, .table]
  | .endSession _ | .collect _ | .heartbeat => .lock :: reportParts
  | .setUnexpectedReboot _ | .attachMonitor | .stopDischarging => [.lock, .collectors]
  | .setCollectHook _ | .setSessionEndHook _ _ => [.lock, .hooks]
  | .stage _ => [.mailbox]
  | .capture _ | .flush => [.lock, .mailbox, .records]
  | .observe | .setBatchLimit _ | .persist | .attach _ | .alterBacking _ => [.lock, .reader]
  | .hasMore | .read _ _ | .markRead | .drainOne | .drain _ => [.lock, .reader]
  | .readTextInto _ _ => [.lock]
  | .isPending | .keyOf _ => []
  | .setGauge _ => [.gauge]
  | .advance _ | .setClock _ => [.clock]

theorem touches_perform (a : Agent ν) (op : Operation ν) :
    Touches op.touches a (a.perform op).2 := by
  cases op with
  | setUnsigned key n => exact touches_useTable a _
  | setSigned key n => exact touches_useTable a _
  | setText key s => exact touches_useTable a _
  | add key amount => exact touches_useTable a _
  | startTimer key => exact touches_useTable a _
  | stopTimer key => exact touches_useTable a _
  | readUnsigned key => exact touches_useTable a _
  | readSigned key => exact touches_useTable a _
  | readTimer key => exact touches_useTable a _
  | readText key => exact touches_useTable a _
  | readTextInto key buffer => exact touches_readTextInto a key buffer
  | startSession session =>
      exact touches_forSession (fun a key => touches_beginSession a session key) a session
  | endSession session =>
      exact touches_forSession (fun a key => touches_finishSession a session key) a session
  | collect session => exact touches_collect a session
  | heartbeat => exact touches_collect a Catalog.heartbeat
  | describe =>
      exact .locked (f := describeHeartbeat)
        (fun a => .one (by decide) (.call (.tallySession Catalog.heartbeat a.now))) a
  | setCollectHook hook =>
      exact .locked (f := fun a => (Except.ok Answer.done, { a with collectHook := some hook }))
        (fun a => .one (by decide) (.setHooks (some hook) a.sessionEndHooks)) a
  | setSessionEndHook session hook =>
      exact touches_forSession (fun a _ => .one (by decide)
        (.setHooks a.collectHook ((session, hook) :: a.sessionEndHooks))) a session
  | observe => exact touches_useStore a _ fun _ => ⟨List.suffix_rfl, rfl, rfl⟩
  | setBatchLimit limit => exact touches_useStore a _ fun _ => ⟨List.suffix_rfl, rfl, rfl⟩
  | changeConnection state => exact touches_changeConnection a state
  | countSync success => exact touches_countSync a success
  | setUnexpectedReboot unexpected =>
      exact touches_changeCollectors (f := fun _ => (·.setUnexpectedReboot unexpected))
        (fun _ _ _ => Collectors.follows_setUnexpectedReboot) a
  | attachMonitor =>
      exact touches_changeCollectors (f := fun a => (·.attachMonitor a.platform.gauge a.now))
        (fun _ _ _ => Collectors.follows_attachMonitor) a
  | stopDischarging =>
      exact touches_changeCollectors (f := fun _ => (·.stopDischarging))
        (fun _ _ _ => Collectors.follows_stopDischarging) a
  | stage t => exact .one List.mem_cons_self (.mailbox _)
  | isPending => exact .refl a
  | capture t => exact .locked (f := fun a => a.reportTrace t) (touches_reportTrace · t) a
  | flush => exact .locked (f := flushStaged) touches_flushStaged a
  | persist => exact touches_useStore a _ RecordQueue.serves_persist
  | keyOf name => exact .refl a
  | hasMore => exact touches_useStore a _ RecordQueue.serves_hasMore
  | read offset length =>
      exact touches_useStore a _ fun q => RecordQueue.serves_read q offset length
  | markRead => exact touches_useStore a _ RecordQueue.serves_markRead
  | drainOne => exact touches_drainOne a
  | drain rounds => exact touches_drain a rounds
  | attach backing => exact touches_useStore a _ fun _ => ⟨List.suffix_rfl, rfl, rfl⟩
  | alterBacking f =>
      exact .one (List.mem_cons_of_mem _ List.mem_cons_self)
        (.useStore a (.alterBacking f) fun _ => ⟨List.suffix_rfl, rfl, rfl⟩)
  | setGauge gauge => exact .one List.mem_cons_self (.setGauge gauge)
  | advance ms => exact .one List.mem_cons_self (.setClock _)
  | setClock ms => exact .one List.mem_cons_self (.setClock ms)

/-! ### The table -/

def Operation.call? (now : UInt64) : Operation ν → Option Call
  | .setUnsigned key n => some (.setUnsigned key n)
  | .setSigned key n => some (.setSigned key n)
  | .setText key s => some (.setText key s)
  | .add key amount => some (.add key amount)
  | .startTimer key => some (.startTimer key now)
  | .stopTimer key => some (.stopTimer key now)
  | .readUnsigned key => some (.readUnsigned key)
  | .readSigned key => some (.readSigned key)
  | .readTimer key => some (.readTimer key now)
  | .readText key => some (.readText key)
  | _ => none

theorem perform_of_call? {op : Operation ν} {c : Call} (call : op.call? a.now = some c) :
    a.perform op = a.useTable c := by
  cases op <;> cases call <;> rfl

theorem table_changeConnection (a : Agent ν) (state : ConnectionState) :
    (a.perform (.changeConnection state)).2.table =
      (a.table.performAll (a.collectors.connectionCalls state a.now)).2 :=
  a.collectors.changeConnection_table a.table state a.now

theorem table_countSync (a : Agent ν) (success : Bool) :
    (a.perform (.countSync success)).2.table =
      (a.table.performAll (a.collectors.syncCalls success)).2 := by
  have entered := alterTable_eq { a with platform.lock := a.platform.lock.enter }
    (a.collectors.countSync · success)
  rw [← a.collectors.countSync_table]
  exact congrArg (fun altered => altered.2.table) entered

omit [Nonvolatile ν] in
/-- Few operations do more to the table than to make one call. -/
theorem Operation.table_cases {motive : Operation ν → Prop} (now : UInt64)
    (metric : ∀ {op c}, op.call? now = some c → motive op)
    (startSession : ∀ session, motive (.startSession session))
    (endSession : ∀ session, motive (.endSession session))
    (collect : ∀ session, motive (.collect session))
    (heartbeat : motive .heartbeat)
    (describe : motive .describe)
    (changeConnection : ∀ state, motive (.changeConnection state))
    (countSync : ∀ success, motive (.countSync success))
    (other : ∀ {op}, .table ∉ op.touches → motive op) (op : Operation ν) : motive op := by
  cases op with
  | startSession session => exact startSession session
  | endSession session => exact endSession session
  | collect session => exact collect session
  | heartbeat => exact heartbeat
  | describe => exact describe
  | changeConnection state => exact changeConnection state
  | countSync success => exact countSync success
  | _ => first | exact metric rfl | exact other (by simp [touches])

end DeviceTelemetry.Agent
