import DeviceTelemetry.Proofs.Agent.Attempts
import DeviceTelemetry.Proofs.TimerMoves

/-!
# What operations of an agent do to one timer

`Agent.moves` tells for each operation which moves the timer of a key makes, and `Operation.clock`
what time it is afterwards (`perform_passes`).
-/

set_option autoImplicit false

namespace DeviceTelemetry

open Table (Moved)

def hookMoves (c : Catalog) (key : Nat) (hook : Option Hook) : List Timer.Move :=
  (hook.getD []).flatMap fun
    | .call call => call.moves c key
    | .stage _ => []

theorem hookMoves_none (c : Catalog) (key : Nat) : hookMoves c key none = [] :=
  rfl

namespace Agent

variable {ν : Type}

def Operation.clock (now : UInt64) : Operation ν → UInt64
  | .advance ms => now + ms
  | .setClock ms => ms
  | _ => now

def callMoves (a : Agent ν) (key : Nat) (call : Table.Call) : List Timer.Move :=
  call.moves a.table.catalog key

def collectionMoves (a : Agent ν) (key session : Nat) : List Timer.Move :=
  if session < a.table.catalog.sessionCount then
    a.callMoves key (.tallySession session a.now) ++
      hookMoves a.table.catalog key (a.collectionHook session) ++
      a.callMoves key (.resetSession session)
  else []

def beginningMoves (a : Agent ν) (key session : Nat) : List Timer.Move :=
  match a.durationKey session with
  | .error _ => []
  | .ok duration =>
    a.callMoves key (.resetSession session) ++ a.callMoves key (.startTimer duration a.now)

def endingMoves (a : Agent ν) (key session : Nat) : List Timer.Move :=
  match a.durationKey session with
  | .error _ => []
  | .ok duration =>
    hookMoves a.table.catalog key (a.endingHook session) ++
      a.callMoves key (.stopTimer duration a.now) ++
      if (a.endedEvent session).isSome then
        a.callMoves key (.tallySession session a.now) ++ a.callMoves key (.resetSession session)
      else []

def moves (a : Agent ν) (key : Nat) : Operation ν → List Timer.Move
  | .startTimer key' => a.callMoves key (.startTimer key' a.now)
  | .stopTimer key' => a.callMoves key (.stopTimer key' a.now)
  | .readTimer key' => a.callMoves key (.readTimer key' a.now)
  | .startSession session => a.beginningMoves key session
  | .endSession session => a.endingMoves key session
  | .collect session => a.collectionMoves key session
  | .heartbeat => a.collectionMoves key Catalog.heartbeat
  | .describe => a.callMoves key (.tallySession Catalog.heartbeat a.now)
  | .changeConnection state =>
    (a.collectors.connectionCalls state a.now).flatMap (a.callMoves key)
  | _ => []

/-- The timer of a key makes these moves from `a` to `b`, at one time. -/
structure Passes (key : Nat) (a b : Agent ν) (moves : List Timer.Move) : Prop where
  moved : Moved key a.table b.table moves
  now : b.now = a.now

section Passes

variable {key : Nat} {a b d : Agent ν} {first second : List Timer.Move}

theorem Passes.of_eq (table : b.table = a.table) (platform : b.platform = a.platform) :
    Passes key a b [] where
  moved := table ▸ .refl key a.table
  now := congrArg Platform.clock platform

theorem Passes.trans (h : Passes key a b first) (h' : Passes key b d second) :
    Passes key a d (first ++ second) :=
  ⟨h.moved.trans h'.moved, h'.now.trans h.now⟩

theorem Passes.catalog (h : Passes key a b first) : b.table.catalog = a.table.catalog :=
  h.moved.follows.catalog

theorem Passes.callMoves_eq (h : Passes key a b first) (key' : Nat) (call : Table.Call) :
    b.callMoves key' call = a.callMoves key' call := by
  rw [callMoves, callMoves, h.catalog]

theorem Passes.of_touches {parts : List Part} (steps : Touches parts a b) (table : .table ∉ parts)
    (clock : .clock ∉ parts) : Passes key a b [] where
  moved := steps.within.table table ▸ .refl key a.table
  now := steps.within.clock clock

theorem Passes.locked {α : Type} {f : Agent ν → α × Agent ν}
    (h : Passes key { a with platform.lock := a.platform.lock.enter }
      (f { a with platform.lock := a.platform.lock.enter }).2 first) :
    Passes key a (a.locked f).2 first :=
  ⟨h.moved, h.now⟩

theorem passes_alterTable {f : Table → Except MetricError Table}
    (h : Moved key a.table (a.table.settle (f a.table)).2 first) :
    Passes key a (a.alterTable f).2 first := by
  unfold Agent.alterTable
  cases result : f a.table with
  | ok t =>
      rw [result] at h
      exact ⟨h, rfl⟩
  | error e =>
      rw [result] at h
      exact ⟨h, rfl⟩

theorem passes_performHook (key : Nat) (a : Agent ν) (hook : Hook) :
    Passes key a (a.performHook hook).2 (hookMoves a.table.catalog key (some hook)) := by
  induction hook generalizing a with
  | nil => exact .of_eq rfl rfl
  | cons step steps ih =>
      cases step with
      | call c =>
          have one := Table.moved_perform key a.table c
          have rest := ih { a with table := (a.table.perform c).2 }
          rw [show ({ a with table := (a.table.perform c).2 } : Agent ν).table.catalog =
            a.table.catalog from one.follows.catalog] at rest
          exact Passes.trans (b := { a with table := (a.table.perform c).2 }) ⟨one, rfl⟩ rest
      | stage t =>
          have rest := ih { a with mailbox := (a.mailbox.stage t).2 }
          exact ⟨rest.moved, rest.now⟩

theorem passes_runHook (key : Nat) (a : Agent ν) (point : HookPoint) (hook : Option Hook) :
    Passes key a (a.runHook point hook) (hookMoves a.table.catalog key hook) := by
  cases hook with
  | none => exact .of_eq rfl rfl
  | some hook =>
      have h := passes_performHook key a hook
      exact ⟨h.moved, h.now⟩

theorem Passes.runHook (h : Passes key a b first) (point : HookPoint) (hook : Option Hook) :
    Passes key a (b.runHook point hook) (first ++ hookMoves a.table.catalog key hook) := by
  have hooked := passes_runHook key b point hook
  rw [h.catalog] at hooked
  exact h.trans hooked

theorem passes_refresh (key : Nat) (a : Agent ν) (session : Nat) :
    Passes key a (a.refresh session)
      (a.callMoves key (.tallySession session a.now) ++
        hookMoves a.table.catalog key
          (if session = Catalog.heartbeat then a.collectHook else none)) := by
  have tallied : Passes key a { a with table := a.table.tallySession session a.now }
      (a.callMoves key (.tallySession session a.now)) :=
    ⟨Table.moved_perform key a.table (.tallySession session a.now), rfl⟩
  unfold refresh
  dsimp only
  split
  · have collected : Passes key { a with table := a.table.tallySession session a.now }
        { a with
          table := (a.collectors.collect (a.table.tallySession session a.now) a.platform.gauge
            a.now).1
          collectors := (a.collectors.collect (a.table.tallySession session a.now)
            a.platform.gauge a.now).2 } [] :=
      ⟨Collectors.moved_collect key a.collectors _ _ _, rfl⟩
    have both := tallied.trans collected
    rw [List.append_nil] at both
    exact both.runHook .heartbeat a.collectHook
  · exact tallied.trans (.of_eq rfl rfl)

theorem passes_reportSession (key : Nat) (a : Agent ν) (session : Nat) :
    Passes key a (a.reportSession session).2
      (a.callMoves key (.tallySession session a.now) ++
        hookMoves a.table.catalog key
          (if session = Catalog.heartbeat then a.collectHook else none) ++
        a.callMoves key (.resetSession session)) := by
  have refreshed := passes_refresh key a session
  have flushed := refreshed.trans (.of_touches (touches_flushStaged _) (by decide) (by decide))
  have recorded := flushed.trans
    (.of_touches (touches_record _ (a.currentEvent session)) (by decide) (by decide))
  have reset := Table.moved_perform key
    ((a.refresh session).flushStaged.2.record (a.currentEvent session)).2.table
    (.resetSession session)
  rw [recorded.catalog] at reset
  rw [reportSession_eq]
  rw [List.append_nil, List.append_nil] at recorded
  exact recorded.trans ⟨reset, rfl⟩

theorem passes_afterEndHook (key : Nat) (a : Agent ν) (session : Nat) :
    Passes key a (a.afterEndHook session)
      (hookMoves a.table.catalog key (a.sessionEndHooks.lookup session)) :=
  passes_runHook key a _ _

/-- The agent behind the hook at the end of a session, with the session's timer stopped. -/
theorem exists_passes_stopped (key : Nat) (a : Agent ν) {session duration : Nat}
    (found : a.durationKey session = .ok duration)
    (running : (a.afterEndHook session).table.isRunning duration = .ok true) :
    ∃ b, Passes key a b (hookMoves a.table.catalog key (a.endingHook session) ++
        a.callMoves key (.stopTimer duration a.now)) ∧
      a.finishSession session duration = b.reportSession session ∧
      a.endEvent session duration = b.currentEvent session := by
  have hooked := passes_afterEndHook key a session
  have stopping := Table.moved_perform key (a.afterEndHook session).table
    (.stopTimer duration (a.afterEndHook session).now)
  rw [hooked.catalog, hooked.now] at stopping
  have hook : a.endingHook session = a.sessionEndHooks.lookup session := by
    rw [endingHook, found]
  obtain ⟨t, stopped, finished, event⟩ := finishSession_of_running running
  have settled : ((a.afterEndHook session).table.perform (.stopTimer duration a.now)).2 = t := by
    simp only [Table.perform]
    rw [stopped]
    rfl
  rw [settled] at stopping
  have behind : Passes key (a.afterEndHook session) { a.afterEndHook session with table := t }
      (a.callMoves key (.stopTimer duration a.now)) := ⟨stopping, rfl⟩
  rw [hook]
  exact ⟨_, hooked.trans behind, finished, event⟩

theorem passes_finishSession (key : Nat) (a : Agent ν) {session duration : Nat}
    (found : a.durationKey session = .ok duration) :
    Passes key a (a.finishSession session duration).2 (a.endingMoves key session) := by
  have ended : a.endedEvent session =
      if (a.afterEndHook session).table.isRunning duration = .ok true then
        some (a.endEvent session duration)
      else none := ownEvent_endSession found
  rw [endingMoves, found]
  dsimp only
  rw [ended]
  by_cases running : (a.afterEndHook session).table.isRunning duration = .ok true
  · obtain ⟨b, both, finished, -⟩ := exists_passes_stopped key a found running
    have reported := passes_reportSession key b session
    rw [if_neg (durationKey_ne_heartbeat found), both.callMoves_eq, both.callMoves_eq, both.now,
      hookMoves_none, List.append_nil] at reported
    rw [if_pos running, finished, Option.isSome_some, if_pos rfl]
    exact both.trans reported
  · obtain ⟨e, -, refused⟩ := finishSession_of_stopped running
    have hooked := passes_afterEndHook key a session
    have hook : a.endingHook session = a.sessionEndHooks.lookup session := by
      rw [endingHook, found]
    have stopping := Table.moved_perform key (a.afterEndHook session).table
      (.stopTimer duration a.now)
    have settled : ((a.afterEndHook session).table.perform (.stopTimer duration a.now)).2 =
        (a.afterEndHook session).table := by
      simp only [Table.perform]
      cases stopped : (a.afterEndHook session).table.stopTimer duration a.now with
      | ok t => exact absurd (Table.isRunning_of_stopTimer stopped) running
      | error e => rfl
    rw [settled, hooked.catalog] at stopping
    rw [if_neg running, refused, hook]
    exact (hooked.trans ⟨stopping, rfl⟩).trans (.of_eq rfl rfl)

theorem passes_collect (key : Nat) (a : Agent ν) (session : Nat) :
    Passes key a (a.collect session).2 (a.collectionMoves key session) := by
  unfold Agent.collect collectionMoves collectionHook
  by_cases known : session < a.table.catalog.sessionCount
  · have reported := passes_reportSession key
      { a with platform.lock := a.platform.lock.enter } session
    rw [if_pos known, if_pos known]
    simp only [known, true_and]
    exact Passes.locked (f := fun a => a.reportSession session) reported
  · rw [if_neg known, if_neg known]
    exact .of_eq rfl rfl

theorem endedEvent_setLock (a : Agent ν) (l : Lock) (session : Nat) :
    { a with platform.lock := l }.endedEvent session = a.endedEvent session := by
  have same : ({ a with platform.lock := l } : Agent ν).durationKey session =
      a.durationKey session := rfl
  unfold endedEvent
  rw [same]
  cases a.durationKey session with
  | error e => rfl
  | ok duration =>
      dsimp only
      rw [afterEndHook_setLock_table, endEvent_setLock]

theorem passes_endSession (key : Nat) (a : Agent ν) (session : Nat) :
    Passes key a (a.forSession session fun a duration => a.finishSession session duration).2
      (a.endingMoves key session) := by
  unfold Agent.forSession
  cases found : a.durationKey session with
  | error e =>
      rw [endingMoves, found]
      exact .of_eq rfl rfl
  | ok duration =>
      have ended : Passes key { a with platform.lock := a.platform.lock.enter } _
          ({ a with platform.lock := a.platform.lock.enter }.endingMoves key session) :=
        passes_finishSession key _ found
      have same : { a with platform.lock := a.platform.lock.enter }.endingMoves key session =
          a.endingMoves key session := by
        unfold endingMoves
        rw [endedEvent_setLock]
        rfl
      rw [same] at ended
      exact Passes.locked (f := fun a => a.finishSession session duration) ended

theorem passes_startSession (key : Nat) (a : Agent ν) (session : Nat) :
    Passes key a (a.forSession session fun a duration => a.beginSession session duration).2
      (a.beginningMoves key session) := by
  unfold Agent.forSession
  cases found : a.durationKey session with
  | error e =>
      rw [beginningMoves, found]
      exact .of_eq rfl rfl
  | ok duration =>
      have reset : Passes key { a with platform.lock := a.platform.lock.enter }
          { a with
            table := a.table.resetSession session
            platform.lock := a.platform.lock.enter } (a.callMoves key (.resetSession session)) :=
        ⟨Table.moved_perform key a.table (.resetSession session), rfl⟩
      have started := Table.moved_perform key (a.table.resetSession session)
        (.startTimer duration a.now)
      rw [beginningMoves, found]
      exact Passes.locked (f := fun a => a.beginSession session duration)
        (reset.trans (passes_alterTable started))

end Passes

theorem moves_of_call? {a : Agent ν} {op : Operation ν} {c : Table.Call}
    (call : op.call? a.now = some c) (key : Nat) : a.moves key op = a.callMoves key c := by
  cases op <;> cases call <;> rfl

theorem moves_of_untouched (a : Agent ν) {op : Operation ν} (free : .table ∉ op.touches)
    (key : Nat) : a.moves key op = [] := by
  cases op <;> first | rfl | simp [Operation.touches, reportParts] at free

variable [Nonvolatile ν]

theorem now_perform (a : Agent ν) (op : Operation ν) :
    (a.perform op).2.now = op.clock a.now := by
  have still : .clock ∉ op.touches → (a.perform op).2.now = a.now :=
    (touches_perform a op).within.clock
  cases op with
  | advance ms => rfl
  | setClock ms => rfl
  | _ => exact still (by simp [Operation.touches, reportParts])

theorem moved_countSync (key : Nat) (a : Agent ν) (success : Bool) :
    Moved key a.table (a.perform (.countSync success)).2.table [] := by
  have counted := Table.moved_performAll key a.table (a.collectors.syncCalls success)
  have still : (a.collectors.syncCalls success).flatMap (Table.Call.moves a.table.catalog key) =
      [] := by
    unfold Collectors.syncCalls
    cases a.collectors.sync <;> rfl
  rwa [still, ← table_countSync] at counted

theorem moved_changeConnection (key : Nat) (a : Agent ν) (state : ConnectionState) :
    Moved key a.table (a.perform (.changeConnection state)).2.table
      (a.moves key (.changeConnection state)) := by
  rw [table_changeConnection]
  exact Table.moved_performAll key a.table _

/-- An operation makes its moves, and the clock stands still unless the operation is one of the
clock. -/
theorem moved_perform (key : Nat) (a : Agent ν) (op : Operation ν) :
    Moved key a.table (a.perform op).2.table (a.moves key op) ∧
      (a.perform op).2.now = op.clock a.now := by
  refine ⟨?_, now_perform a op⟩
  cases op using Operation.table_cases a.now with
  | metric call =>
      rw [moves_of_call? call, perform_of_call? call]
      exact Table.moved_perform key a.table _
  | startSession session => exact (passes_startSession key a session).moved
  | endSession session => exact (passes_endSession key a session).moved
  | collect session => exact (passes_collect key a session).moved
  | heartbeat => exact (passes_collect key a Catalog.heartbeat).moved
  | describe => exact Table.moved_perform key a.table (.tallySession Catalog.heartbeat a.now)
  | changeConnection state => exact moved_changeConnection key a state
  | countSync success => exact moved_countSync key a success
  | other free =>
      rw [moves_of_untouched a free, (touches_perform a _).within.table free]
      exact .refl key a.table

theorem exists_moved_performAll (key : Nat) (a : Agent ν) (ops : List (Operation ν)) :
    ∃ moves, Moved key a.table (a.performAll ops).2.table moves := by
  induction ops generalizing a with
  | nil => exact ⟨[], .refl key a.table⟩
  | cons op ops ih =>
      obtain ⟨moves, rest⟩ := ih (a.perform op).2
      exact ⟨_, (moved_perform key a op).1.trans rest⟩

end Agent

end DeviceTelemetry
