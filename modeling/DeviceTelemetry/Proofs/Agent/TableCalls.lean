import DeviceTelemetry.Proofs.Agent.Apart
import DeviceTelemetry.Proofs.Agent.Collecting
import DeviceTelemetry.Proofs.Agent.Cycle
import DeviceTelemetry.Proofs.Agent.RunningTime
import DeviceTelemetry.Proofs.CollectorCalls

/-!
# The calls behind an operation

Whatever an agent does, its table is what a row of calls makes of it: `Agent.calls` tells the row
for each operation, and `Agent.collectorsAfter` what becomes of the collectors
(`Agent.makes_perform`).
-/

set_option autoImplicit false

namespace DeviceTelemetry

open Table (Call)

namespace Agent

variable {ν : Type}

def refreshCalls (a : Agent ν) (session : Nat) : List Call :=
  .tallySession session a.now ::
    (if session = Catalog.heartbeat then a.collectors.calls a.platform.gauge a.now else []) ++
    callsOf (a.collectionHook session)

def collectionCalls (a : Agent ν) (session : Nat) : List Call :=
  if session < a.table.catalog.sessionCount then a.refreshCalls session ++ [.resetSession session]
  else []

def beginningCalls (a : Agent ν) (session : Nat) : List Call :=
  match a.durationKey session with
  | .error _ => []
  | .ok duration => [.resetSession session, .startTimer duration a.now]

def endingCalls (a : Agent ν) (session : Nat) : List Call :=
  match a.durationKey session with
  | .error _ => []
  | .ok duration =>
    callsOf (a.endingHook session) ++ [.stopTimer duration a.now] ++
      if (a.endedEvent session).isSome then [.tallySession session a.now, .resetSession session]
      else []

def calls (a : Agent ν) : Operation ν → List Call
  | .setUnsigned key n => [.setUnsigned key n]
  | .setSigned key n => [.setSigned key n]
  | .setText key s => [.setText key s]
  | .add key amount => [.add key amount]
  | .startTimer key => [.startTimer key a.now]
  | .stopTimer key => [.stopTimer key a.now]
  | .readUnsigned key => [.readUnsigned key]
  | .readSigned key => [.readSigned key]
  | .readTimer key => [.readTimer key a.now]
  | .readText key => [.readText key]
  | .startSession session => a.beginningCalls session
  | .endSession session => a.endingCalls session
  | .collect session => a.collectionCalls session
  | .heartbeat => a.collectionCalls Catalog.heartbeat
  | .describe => [.tallySession Catalog.heartbeat a.now]
  | .changeConnection state => a.collectors.connectionCalls state a.now
  | .countSync success => a.collectors.syncCalls success
  | _ => []

end Agent

def Reliability.after {ν : Type} (r : Reliability) (now : UInt64) : Agent.Operation ν → Reliability
  | .setUnexpectedReboot unexpected => { r with unexpectedReboot := unexpected }
  | op => if op.isCycle then r.counted now else r

def Battery.after {ν : Type} (b : Battery) (gauge : Gauge) (now : UInt64) :
    Agent.Operation ν → Battery
  | .attachMonitor => b.attach gauge now
  | .stopDischarging => b.interrupt
  | op => if op.isCycle then b.sampled gauge now else b

namespace Agent

variable {ν : Type}

def collectorsAfter (a : Agent ν) (op : Operation ν) : Collectors :=
  { a.collectors with
    reliability := a.collectors.reliability.map (·.after a.now op)
    battery := a.collectors.battery.map (·.after a.platform.gauge a.now op) }

def Operation.tends : Operation ν → Bool
  | .setUnexpectedReboot _ | .attachMonitor | .stopDischarging => true
  | op => op.isCycle

theorem collectorsAfter_of_not_tends (a : Agent ν) {op : Operation ν} (plain : op.tends = false) :
    a.collectorsAfter op = a.collectors := by
  have hours (r : Reliability) : r.after a.now op = r := by
    cases op <;> simp_all [Operation.tends, Operation.isCycle, Reliability.after]
  have charge (b : Battery) : b.after a.platform.gauge a.now op = b := by
    cases op <;> simp_all [Operation.tends, Operation.isCycle, Battery.after]
  simp [collectorsAfter, hours, charge]

theorem collectorsAfter_setUnexpectedReboot (a : Agent ν) (unexpected : Bool) :
    (a.collectors.setUnexpectedReboot unexpected).toOption.getD a.collectors =
      a.collectorsAfter (.setUnexpectedReboot unexpected) := by
  unfold collectorsAfter
  obtain ⟨connectivity, sync, reliability, battery⟩ := a.collectors
  cases reliability <;> cases battery <;> rfl

theorem collectorsAfter_attachMonitor (a : Agent ν) :
    (a.collectors.attachMonitor a.platform.gauge a.now).toOption.getD a.collectors =
      a.collectorsAfter .attachMonitor := by
  unfold collectorsAfter
  obtain ⟨connectivity, sync, reliability, battery⟩ := a.collectors
  cases reliability <;> cases battery <;> rfl

theorem collectorsAfter_stopDischarging (a : Agent ν) :
    (a.collectors.stopDischarging).toOption.getD a.collectors =
      a.collectorsAfter .stopDischarging := by
  unfold collectorsAfter
  obtain ⟨connectivity, sync, reliability, battery⟩ := a.collectors
  cases reliability <;> cases battery <;> rfl

/-- These calls and these collectors are what leads from `a` to `b`. -/
structure Makes (a b : Agent ν) (calls : List Call) (collectors : Collectors) : Prop where
  table : b.table = (a.table.performAll calls).2
  collectors : b.collectors = collectors

section Makes

variable {groups : BuiltinGroups} {a b d : Agent ν} {first second : List Call}
  {k k' : Collectors} {session : Nat}

theorem Makes.of_touches {parts : List Part} (steps : Touches parts a b) (table : .table ∉ parts)
    (collectors : .collectors ∉ parts) : Makes a b [] a.collectors :=
  ⟨steps.within.table table, steps.within.collectors collectors⟩

theorem Makes.refl (a : Agent ν) : Makes a a [] a.collectors :=
  ⟨rfl, rfl⟩

theorem Makes.trans (h : Makes a b first k) (h' : Makes b d second k') :
    Makes a d (first ++ second) k' where
  table := by rw [Table.performAll_append, ← h.table, h'.table]
  collectors := h'.collectors

theorem Makes.locked {α : Type} {f : Agent ν → α × Agent ν}
    (h : Makes { a with platform.lock := a.platform.lock.enter }
      (f { a with platform.lock := a.platform.lock.enter }).2 first k) :
    Makes a (a.locked f).2 first k :=
  ⟨h.table, h.collectors⟩

theorem collectionCalls_of_user (known : session < a.table.catalog.sessionCount)
    (user : session ≠ Catalog.heartbeat) :
    a.collectionCalls session = [.tallySession session a.now, .resetSession session] := by
  have unhooked : a.collectionHook session = none := if_neg fun both => user both.2
  simp [collectionCalls, refreshCalls, known, user, unhooked, callsOf]

theorem collectors_refresh (fits : a.collectors.Fits groups a.table) (session : Nat) :
    (a.refresh session).collectors =
      if session = Catalog.heartbeat then a.collectors.collected a.platform.gauge a.now
      else a.collectors := by
  have tallied := Table.follows_tallySession a.table session a.now
  unfold refresh
  dsimp only
  split
  · rw [(touches_runHook _ _ _).within.collectors (by decide), (fits.follows tallied).collect]
    rfl
  · rfl

theorem reportedTable_eq (fits : a.collectors.Fits groups a.table) (session : Nat) :
    a.reportedTable session = (a.table.performAll (a.refreshCalls session)).2 := by
  have tallied := Table.follows_tallySession a.table session a.now
  rw [refreshCalls, Table.performAll_append, reportedTable, collectedTable]
  split
  · rw [(fits.follows tallied).collect]
    rfl
  · rfl

/-- A session that is reported is brought up to date by calls, and reset by the last one. -/
theorem makes_reportSession (fits : a.collectors.Fits groups a.table)
    (known : session < a.table.catalog.sessionCount) :
    Makes a (a.reportSession session).2 (a.collectionCalls session)
      (if session = Catalog.heartbeat then a.collectors.collected a.platform.gauge a.now
        else a.collectors) := by
  constructor
  · rw [table_reportSession known, collectionCalls, if_pos known, Table.performAll_append,
      reportedTable_eq fits]
    rfl
  · have flushed := (touches_flushStaged (a.refresh session)).within.collectors (by decide)
    have recorded := (touches_record (a.refresh session).flushStaged.2
      (a.currentEvent session)).within.collectors (by decide)
    rw [reportSession_eq]
    exact recorded.trans (flushed.trans (collectors_refresh fits session))

theorem makes_collect (fits : a.collectors.Fits groups a.table) (session : Nat)
    (beats : Catalog.heartbeat < a.table.catalog.sessionCount) :
    Makes a (a.collect session).2 (a.collectionCalls session)
      (if session = Catalog.heartbeat then a.collectors.collected a.platform.gauge a.now
        else a.collectors) := by
  unfold Agent.collect
  by_cases known : session < a.table.catalog.sessionCount
  · rw [if_pos known]
    exact Makes.locked (f := fun a => a.reportSession session)
      (makes_reportSession (a := { a with platform.lock := a.platform.lock.enter }) fits known)
  · rw [if_neg known, collectionCalls, if_neg known, if_neg (by rintro rfl; exact known beats)]
    exact .refl a

theorem makes_afterEndHook (a : Agent ν) (session : Nat) :
    Makes a (a.afterEndHook session) (callsOf (a.sessionEndHooks.lookup session))
      a.collectors := by
  constructor
  · exact a.table_runHook _ _
  · exact (touches_runHook a _ _).within.collectors (by decide)

theorem makes_finishSession (fits : a.collectors.Fits groups a.table) {duration : Nat}
    (found : a.durationKey session = .ok duration) :
    Makes a (a.finishSession session duration).2 (a.endingCalls session) a.collectors := by
  have hooked := makes_afterEndHook a session
  have hook : a.endingHook session = a.sessionEndHooks.lookup session := by
    rw [endingHook, found]
  have ended : a.endedEvent session =
      if (a.afterEndHook session).table.isRunning duration = .ok true then
        some (a.endEvent session duration)
      else none := ownEvent_endSession found
  rw [endingCalls, found]
  dsimp only
  rw [ended, hook]
  by_cases running : (a.afterEndHook session).table.isRunning duration = .ok true
  · obtain ⟨t, stopped, finished, -⟩ := finishSession_of_running running
    have stopping : Makes (a.afterEndHook session) { a.afterEndHook session with table := t }
        [.stopTimer duration a.now] a.collectors := by
      refine ⟨?_, hooked.collectors⟩
      simp [Table.performAll, Table.perform, stopped, Table.settle]
    have fitting : (a.afterEndHook session).collectors.Fits groups t :=
      ((Retains.of_touches (touches_runHook a _ _)).fits fits).follows
        (Table.follows_stopTimer stopped)
    have catalog : t.catalog = a.table.catalog := by
      rw [(Table.follows_stopTimer stopped).catalog]
      exact (Retains.of_touches (touches_runHook a _ _)).table.catalog
    have known : session < t.catalog.sessionCount := by
      rw [catalog]
      exact known_of_durationKey found
    have user := durationKey_ne_heartbeat found
    have reported := makes_reportSession (a := { a.afterEndHook session with table := t })
      fitting known
    have now : (a.afterEndHook session).now = a.now :=
      congrArg Platform.clock (a.platform_afterEndHook session)
    rw [collectionCalls_of_user known user, if_neg user] at reported
    rw [if_pos running, finished, Option.isSome_some, if_pos rfl, ← hooked.collectors, ← now]
    rw [← now] at stopping
    exact (hooked.trans stopping).trans reported
  · obtain ⟨e, -, refused⟩ := finishSession_of_stopped running
    rw [if_neg running, refused]
    refine ⟨?_, hooked.collectors⟩
    have still : ((a.afterEndHook session).table.perform (.stopTimer duration a.now)).2 =
        (a.afterEndHook session).table := by
      simp only [Table.perform]
      cases stopped : (a.afterEndHook session).table.stopTimer duration a.now with
      | ok t => exact absurd (Table.isRunning_of_stopTimer stopped) running
      | error e => rfl
    simp [Table.performAll_append, ← hooked.table, Table.performAll, still]

theorem makes_endSession (fits : a.collectors.Fits groups a.table) (session : Nat) :
    Makes a (a.forSession session fun a duration => a.finishSession session duration).2
      (a.endingCalls session) a.collectors := by
  unfold Agent.forSession
  cases found : a.durationKey session with
  | error e =>
      rw [endingCalls, found]
      exact .refl a
  | ok duration =>
      have same : { a with platform.lock := a.platform.lock.enter }.endingCalls session =
          a.endingCalls session := by
        unfold endingCalls
        rw [endedEvent_setLock]
        rfl
      have ended := makes_finishSession (a := { a with platform.lock := a.platform.lock.enter })
        fits found
      rw [same] at ended
      exact Makes.locked (f := fun a => a.finishSession session duration) ended

theorem makes_startSession (a : Agent ν) (session : Nat) :
    Makes a (a.forSession session fun a duration => a.beginSession session duration).2
      (a.beginningCalls session) a.collectors := by
  unfold Agent.forSession
  cases found : a.durationKey session with
  | error e =>
      rw [beginningCalls, found]
      exact .refl a
  | ok duration =>
      rw [beginningCalls, found]
      refine Makes.locked (f := fun a => a.beginSession session duration) ?_
      simp only [beginSession, alterTable_eq]
      exact ⟨rfl, rfl⟩

theorem calls_of_call? {op : Operation ν} {call : Call} (made : op.call? a.now = some call) :
    a.calls op = [call] := by
  cases op <;> cases made <;> rfl

theorem calls_of_untouched (a : Agent ν) {op : Operation ν} (free : .table ∉ op.touches) :
    a.calls op = [] := by
  cases op <;> first | rfl | simp [Operation.touches, reportParts] at free

theorem not_tends_of_call? {now : UInt64} {op : Operation ν} {call : Call}
    (made : op.call? now = some call) : op.tends = false := by
  cases op <;> cases made <;> rfl

theorem not_tends_of_untouched {op : Operation ν} (table : .table ∉ op.touches)
    (collectors : .collectors ∉ op.touches) : op.tends = false := by
  cases op <;>
    simp_all [Operation.touches, reportParts, Operation.tends, Operation.isCycle]

/-- A change of what the collectors keep is made as far as it is not refused. -/
theorem makes_changeCollectors (a : Agent ν)
    (f : Agent ν → Collectors → Except MetricError Collectors) :
    Makes a (a.locked fun a => a.alterCollectors (f a)).2 []
      ((f { a with platform.lock := a.platform.lock.enter } a.collectors).toOption.getD
        a.collectors) := by
  refine Makes.locked (f := fun a => a.alterCollectors (f a)) ?_
  simp only [alterCollectors]
  cases f _ a.collectors with
  | ok c => exact ⟨rfl, rfl⟩
  | error e => exact ⟨rfl, rfl⟩

variable [Nonvolatile ν]

theorem collectors_countSync (a : Agent ν) (success : Bool) :
    (a.perform (.countSync success)).2.collectors = a.collectors :=
  (touches_perform a (.countSync success)).within.collectors (by simp [Operation.touches])

theorem makes_tend (a : Agent ν) {op : Operation ν} (table : .table ∉ op.touches)
    (tends : .collectors ∈ op.touches) : Makes a (a.perform op).2 [] (a.collectorsAfter op) := by
  cases op with
  | setUnexpectedReboot unexpected =>
      rw [← collectorsAfter_setUnexpectedReboot]
      exact makes_changeCollectors a fun _ => (·.setUnexpectedReboot unexpected)
  | attachMonitor =>
      rw [← collectorsAfter_attachMonitor]
      exact makes_changeCollectors a fun a => (·.attachMonitor a.platform.gauge a.now)
  | stopDischarging =>
      rw [← collectorsAfter_stopDischarging]
      exact makes_changeCollectors a fun _ => (·.stopDischarging)
  | _ => simp [Operation.touches, reportParts] at table tends

theorem makes_perform (fits : a.collectors.Fits groups a.table)
    (beats : Catalog.heartbeat < a.table.catalog.sessionCount) (op : Operation ν) :
    Makes a (a.perform op).2 (a.calls op) (a.collectorsAfter op) := by
  have plain {op : Operation ν} (h : Makes a (a.perform op).2 (a.calls op) a.collectors)
      (kept : op.tends = false) :
      Makes a (a.perform op).2 (a.calls op) (a.collectorsAfter op) := by
    rw [collectorsAfter_of_not_tends a kept]
    exact h
  cases op using Operation.table_cases a.now with
  | metric made =>
      refine plain ?_ (not_tends_of_call? made)
      rw [calls_of_call? made, perform_of_call? made]
      exact ⟨rfl, rfl⟩
  | startSession session => exact plain (makes_startSession a session) rfl
  | endSession session => exact plain (makes_endSession fits session) rfl
  | collect session =>
      have collected := makes_collect fits session beats
      by_cases beat : session = Catalog.heartbeat
      · rw [if_pos beat] at collected
        subst beat
        exact collected
      · rw [if_neg beat] at collected
        exact plain collected (decide_eq_false beat)
  | heartbeat => exact makes_collect fits Catalog.heartbeat beats
  | describe => exact plain ⟨rfl, rfl⟩ rfl
  | changeConnection state => exact plain ⟨table_changeConnection a state, rfl⟩ rfl
  | countSync success =>
      exact plain ⟨table_countSync a success, collectors_countSync a success⟩ rfl
  | @other op table =>
      have steps := touches_perform a op
      by_cases tends : .collectors ∈ op.touches
      · rw [calls_of_untouched a table]
        exact makes_tend a table tends
      · refine plain ?_ (not_tends_of_untouched table tends)
        rw [calls_of_untouched a table]
        exact .of_touches steps table tends

end Makes

end Agent

end DeviceTelemetry
