import DeviceTelemetry.Proofs.Agent.Accounting
import DeviceTelemetry.Proofs.Agent.Timing
import DeviceTelemetry.Proofs.TableFrames

/-!
# The cycle of a session

A session is brought up to date, written behind the trace that waits, and forgotten, whether or not
there was space. `Agent.Cycle` says what holds afterwards: what the event showed, what the store
has got, and what each metric of the table is, those of the session and all others
(`reports_forget_their_session`).
-/

set_option autoImplicit false

namespace DeviceTelemetry

open RecordQueue (Represents)
open Table (HasTimer Moved)

def HookStep.call? : HookStep → Option Table.Call
  | .call c => some c
  | .stage _ => none

def callsOf (hook : Option Hook) : List Table.Call := (hook.getD []).filterMap HookStep.call?

def Reading.blank : MetricKind → Reading
  | .unsigned => .unsigned none
  | .signed => .signed none
  | .timer => .timer none
  | .text => .text ""

theorem Slot.Fits.reading_reset {e : Catalog.Entry} {slot : Slot} (fits : Slot.Fits e slot) :
    slot.reset.reading = .blank e.kind := by
  rw [← fits.kind_reading]
  cases slot with
  | unsigned n => rfl
  | signed n => rfl
  | timer t => rfl
  | text limit s => rfl

/-! ### Queues to which payloads are offered -/

namespace RecordQueue

variable {ν : Type}

/-- A queue to which a payload was offered, which takes it as its newest record if it fits. -/
def offered (q : RecordQueue ν) (payload : Bytes) : RecordQueue ν :=
  if q.Fits payload then q.recorded payload else q

theorem writeRecord_eq_offered {q : RecordQueue ν} (closed : q.opened = none) (payload : Bytes) :
    q.writeRecord payload = (decide (q.Fits payload), q.offered payload) := by
  by_cases fits : q.Fits payload
  · rw [writeRecord_of_fits closed fits, offered, if_pos fits, decide_eq_true fits]
  · rw [writeRecord_of_not_fits closed fits, offered, if_neg fits, decide_eq_false fits]

theorem opened_offered {q : RecordQueue ν} (closed : q.opened = none) (payload : Bytes) :
    (q.offered payload).opened = none := by
  have still := opened_writeRecord closed payload
  rwa [writeRecord_eq_offered closed] at still

end RecordQueue

namespace Agent

variable {ν : Type}

/-! ### What is to be reported -/

/-- The table once running timers of a session are brought up to now and, for the heartbeat, the
built-in metrics are collected. -/
def collectedTable (a : Agent ν) (session : Nat) : Table :=
  let tallied := a.table.tallySession session a.now
  if session = Catalog.heartbeat then
    (a.collectors.collect tallied a.platform.gauge a.now).1
  else tallied

/-- The table from which a session is reported, behind the hook of the heartbeat. -/
def reportedTable (a : Agent ν) (session : Nat) : Table :=
  ((a.collectedTable session).performAll (callsOf (a.collectionHook session))).2

/-- A queue behind the trace that waits when a session is collected. -/
def behindTrace (a : Agent ν) (session : Nat) (q : RecordQueue ν) : RecordQueue ν :=
  (a.waiting (.collect session)).elim q fun t => q.offered ((Event.trace t).encode a.device)

def cyclePayload (a : Agent ν) (session : Nat) : Bytes :=
  ((a.reportedTable session).sessionEvent session).encode a.device

/-- One cycle of a session: what has come of an agent whose store was the queue `q` when the session
was reported. -/
structure Cycle (a : Agent ν) (session : Nat) (q : RecordQueue ν)
    (r : Except Failure Answer × Agent ν) : Prop where
  /-- The event has the value of every metric of the session, in the order of the keys. -/
  event : ∃ readings, a.cyclePayload session = (Event.session session readings).encode a.device ∧
    List.Forall₂ (fun key reading => (a.reportedTable session).value key = .ok reading)
      (a.table.catalog.sessionKeys session) readings
  store : Represents r.2.store ((a.behindTrace session q).offered (a.cyclePayload session))
  mailbox : r.2.mailbox.staged = none
  answer : r.1 =
    if (a.behindTrace session q).Fits (a.cyclePayload session) then .ok .done
    else .error (.metric (.outOfSpace session))
  catalog : r.2.table.catalog = a.table.catalog
  blank : ∀ key entry, a.table.catalog.metric? key = some entry →
    a.table.catalog.InSession session key → r.2.table.value key = .ok (.blank entry.kind)
  /-- A timer of the session is at zero, and runs as it did behind the hook. -/
  timer : ∀ key timer, a.table.catalog.InSession session key →
    (a.reportedTable session).HasTimer key timer →
      r.2.table.HasTimer key { elapsed := 0, recorded := false, startedAt := timer.startedAt }
  /-- The time of a running timer that the hook leaves alone is reported up to now, and its next
  interval begins now. -/
  running : ∀ key timer start, a.table.catalog.InSession session key →
    a.table.HasTimer key timer → timer.startedAt = some start →
    hookMoves a.table.catalog key (a.collectionHook session) = [] →
      (a.reportedTable session).value key = .ok (.timer (some
        (min (timer.elapsed + Timer.between start (Timer.phase a.now)) Timer.maxElapsed))) ∧
      r.2.table.HasTimer key
        { elapsed := 0, recorded := false, startedAt := some (Timer.phase a.now) }
  apart : ∀ key, ¬a.table.catalog.InSession session key →
    r.2.table.slots[key]? = (a.reportedTable session).slots[key]?
  /-- Only the heartbeat has something done to metrics of other sessions. -/
  user : session ≠ Catalog.heartbeat → ∀ key, ¬a.table.catalog.InSession session key →
    r.2.table.slots[key]? = a.table.slots[key]?

/-! ### Bringing a session up to date -/

theorem table_performHook (a : Agent ν) (hook : Hook) :
    (a.performHook hook).2.table = (a.table.performAll (callsOf (some hook))).2 := by
  induction hook generalizing a with
  | nil => rfl
  | cons step steps ih =>
      cases step with
      | call c => exact ih { a with table := (a.table.perform c).2 }
      | stage t => exact ih { a with mailbox := (a.mailbox.stage t).2 }

theorem table_runHook (a : Agent ν) (point : HookPoint) (hook : Option Hook) :
    (a.runHook point hook).table = (a.table.performAll (callsOf hook)).2 := by
  cases hook with
  | none => rfl
  | some hook => exact a.table_performHook hook

section Refresh

variable {a : Agent ν} {session : Nat}

theorem table_refresh (known : session < a.table.catalog.sessionCount) :
    (a.refresh session).table = a.reportedTable session := by
  unfold refresh reportedTable collectedTable
  rw [collectionHook_eq known]
  dsimp only
  split
  · exact table_runHook _ _ _
  · rfl

theorem staged_refresh_eq (known : session < a.table.catalog.sessionCount) :
    (a.refresh session).mailbox.staged = a.waiting (.collect session) := by
  rw [staged_refresh, waiting, stages_collect known]

theorem moved_reportedTable (key : Nat) (known : session < a.table.catalog.sessionCount) :
    Moved key a.table (a.reportedTable session)
      (a.callMoves key (.tallySession session a.now) ++
        hookMoves a.table.catalog key (a.collectionHook session)) := by
  have refreshed := (passes_refresh key a session).moved
  rwa [table_refresh known, ← collectionHook_eq known] at refreshed

end Refresh

/-! ### Reporting -/

theorem record_offers {a : Agent ν} {q : RecordQueue ν} (h : Represents a.store q)
    (closed : q.opened = none) (e : Event) :
    (a.record e).1 = decide (q.Fits (e.encode a.device)) ∧
      Represents (a.record e).2.store (q.offered (e.encode a.device)) := by
  by_cases fits : q.Fits (e.encode a.device)
  · obtain ⟨s, recorded, next⟩ := h.recordEvent_of_fits closed fits
    rw [record_of_ok recorded, RecordQueue.offered, if_pos fits]
    exact ⟨(decide_eq_true fits).symm, next⟩
  · obtain ⟨error, s, refused, next⟩ := h.recordEvent_of_not_fits closed fits
    rw [record_of_error refused, RecordQueue.offered, if_neg fits]
    exact ⟨(decide_eq_false fits).symm, next⟩

theorem flushStaged_offers {a : Agent ν} {q : RecordQueue ν} (h : Represents a.store q)
    (closed : q.opened = none) :
    Represents a.flushStaged.2.store
      (a.mailbox.staged.elim q fun t => q.offered ((Event.trace t).encode a.device)) := by
  cases staged : a.mailbox.staged with
  | none =>
      rw [flushStaged_of_none staged]
      exact h
  | some t =>
      have offers := record_offers (a := { a with mailbox := a.mailbox.take.2 })
        h closed (.trace t)
      rw [flushStaged_of_some staged]
      exact offers.2

theorem opened_behindTrace {q : RecordQueue ν} (closed : q.opened = none) (a : Agent ν)
    (session : Nat) : (a.behindTrace session q).opened = none := by
  unfold behindTrace
  cases a.waiting (.collect session) with
  | none => exact closed
  | some t => exact RecordQueue.opened_offered closed _

/-! ### One cycle -/

section Cycles

variable {a : Agent ν} {session : Nat} {q : RecordQueue ν}

theorem table_reportSession (known : session < a.table.catalog.sessionCount) :
    (a.reportSession session).2.table = (a.reportedTable session).resetSession session := by
  obtain ⟨s, n, m, flushed⟩ := (a.refresh session).flushStaged_eq
  obtain ⟨s', n', recorded⟩ := (a.refresh session).flushStaged.2.record_eq (a.currentEvent session)
  rw [reportSession_eq]
  dsimp only
  rw [recorded, flushed]
  dsimp only
  rw [table_refresh known]

theorem cyclePayload_eq (known : session < a.table.catalog.sessionCount) :
    a.cyclePayload session = (a.currentEvent session).encode a.device := by
  rw [cyclePayload, ← table_refresh known, currentEvent]

/-- The trace that waits is offered to the store and then the event, and what becomes of the event
is the answer. -/
theorem offers_reportSession (known : session < a.table.catalog.sessionCount)
    (h : Represents a.store q) (closed : q.opened = none) :
    Represents (a.reportSession session).2.store
        ((a.behindTrace session q).offered (a.cyclePayload session)) ∧
      (a.reportSession session).2.mailbox.staged = none ∧
      (a.reportSession session).1 =
        if (a.behindTrace session q).Fits (a.cyclePayload session) then .ok ()
        else .error (.outOfSpace session) := by
  obtain ⟨t, c, m, runs, refreshed, -, -⟩ := a.refresh_eq session
  have store : (a.refresh session).store = a.store := by rw [refreshed]
  have device : (a.refresh session).device = a.device := by rw [refreshed]
  have flushed : Represents (a.refresh session).flushStaged.2.store (a.behindTrace session q) := by
    have offers := flushStaged_offers (a := a.refresh session) (store ▸ h) closed
    rwa [staged_refresh_eq known, device] at offers
  obtain ⟨outcomes, -, files, emptied⟩ := (a.refresh session).exists_files_flushStaged
  obtain ⟨s, n, recorded⟩ := (a.refresh session).flushStaged.2.record_eq (a.currentEvent session)
  obtain ⟨kept, next⟩ := record_offers flushed (opened_behindTrace closed a session)
    (a.currentEvent session)
  rw [files.device, device, ← cyclePayload_eq known] at kept next
  rw [reportSession_eq]
  dsimp only
  refine ⟨next, ?_, ?_⟩
  · rw [recorded]
    exact emptied
  · rw [kept]
    simp only [decide_eq_true_eq]

theorem catalog_reportedTable (known : session < a.table.catalog.sessionCount) :
    (a.reportedTable session).catalog = a.table.catalog :=
  (moved_reportedTable 0 known).follows.catalog

theorem fits_reportedTable (known : session < a.table.catalog.sessionCount)
    (fits : a.table.Fits) : (a.reportedTable session).Fits :=
  fits.follows (moved_reportedTable 0 known).follows

theorem slots_reportSession (known : session < a.table.catalog.sessionCount) (key : Nat) :
    (a.reportSession session).2.table.slots[key]? =
      if a.table.catalog.InSession session key then
        (a.reportedTable session).slots[key]?.map Slot.reset
      else (a.reportedTable session).slots[key]? := by
  rw [table_reportSession known, Table.resetSession, Table.slots_mapSession,
    catalog_reportedTable known]

theorem slots_reportedTable_of_user (user : session ≠ Catalog.heartbeat) {key : Nat}
    (other : ¬a.table.catalog.InSession session key) :
    (a.reportedTable session).slots[key]? = a.table.slots[key]? := by
  have unhooked : a.collectionHook session = none := if_neg fun both => user both.2
  rw [reportedTable, unhooked]
  show (a.collectedTable session).slots[key]? = _
  rw [collectedTable, if_neg user, Table.tallySession, Table.slots_mapSession, if_neg other]

theorem forall₂_reportedTable (known : session < a.table.catalog.sessionCount)
    (fits : a.table.Fits) :
    List.Forall₂ (fun key reading => (a.reportedTable session).value key = .ok reading)
      (a.table.catalog.sessionKeys session)
      ((a.reportedTable session).sessionReadings session) := by
  have shown := (fits_reportedTable known fits).forall₂_readings session
  rw [catalog_reportedTable known] at shown
  refine shown.imp ?_
  rintro key _ ⟨e, slot, -, found, -, rfl⟩
  exact Table.value_of_slot found

theorem value_reportSession (known : session < a.table.catalog.sessionCount)
    (fits : a.table.Fits) {key : Nat} {e : Catalog.Entry}
    (metric : a.table.catalog.metric? key = some e)
    (member : a.table.catalog.InSession session key) :
    (a.reportSession session).2.table.value key = .ok (.blank e.kind) := by
  have catalog := catalog_reportedTable known
  have mem : key ∈ (a.reportedTable session).catalog.sessionKeys session := by
    rw [catalog]
    exact Catalog.mem_sessionKeys.mpr member
  obtain ⟨e', slot, same, found, fit⟩ := (fits_reportedTable known fits).exists_slot_of_mem mem
  rw [catalog, metric] at same
  obtain rfl := Option.some.inj same
  rw [← fit.reading_reset]
  apply Table.value_of_slot
  rw [slots_reportSession known, if_pos member, found, Option.map_some]

theorem hasTimer_reportSession (known : session < a.table.catalog.sessionCount) {key : Nat}
    {timer : Timer} (member : a.table.catalog.InSession session key)
    (here : (a.reportedTable session).HasTimer key timer) :
    (a.reportSession session).2.table.HasTimer key timer.reset := by
  rw [HasTimer, slots_reportSession known, if_pos member, here]
  rfl

theorem hasTimer_reportedTable (known : session < a.table.catalog.sessionCount) {key : Nat}
    {timer : Timer} (member : a.table.catalog.InSession session key)
    (here : a.table.HasTimer key timer)
    (untouched : hookMoves a.table.catalog key (a.collectionHook session) = []) :
    (a.reportedTable session).HasTimer key (timer.tally a.now) := by
  have tallied := (moved_reportedTable key known).timer here
  rw [untouched, List.append_nil, callMoves, Table.Call.moves, if_pos member] at tallied
  exact tallied

theorem cycle_reportSession (known : session < a.table.catalog.sessionCount)
    (fits : a.table.Fits) (h : Represents a.store q) (closed : q.opened = none) :
    a.Cycle session q (finish .metric (a.reportSession session)) := by
  obtain ⟨store, mailbox, answer⟩ := offers_reportSession known h closed
  refine {
    event := ⟨_, rfl, forall₂_reportedTable known fits⟩
    store
    mailbox
    answer := ?_
    catalog := ?_
    blank := fun key e metric member => value_reportSession known fits metric member
    timer := fun key timer member here => hasTimer_reportSession known member here
    running := ?_
    apart := fun key other => (slots_reportSession known key).trans (if_neg other)
    user := ?_ }
  · rw [finish, answer]
    split
    · rfl
    · rfl
  · exact (congrArg Table.catalog (table_reportSession known)).trans (catalog_reportedTable known)
  · intro key timer start member here started untouched
    have tallied := hasTimer_reportedTable known member here untouched
    rw [Timer.tally, started] at tallied
    exact ⟨Table.value_of_slot tallied, hasTimer_reportSession known member tallied⟩
  · intro user key other
    exact ((slots_reportSession known key).trans (if_neg other)).trans
      (slots_reportedTable_of_user user other)

theorem Cycle.setLock {l l' : Lock} {r : Except Failure Answer × Agent ν}
    (h : { a with platform.lock := l }.Cycle session q r) :
    a.Cycle session q (r.1, { r.2 with platform.lock := l' }) :=
  ⟨h.event, h.store, h.mailbox, h.answer, h.catalog, h.blank, h.timer, h.running, h.apart, h.user⟩

end Cycles

variable [Nonvolatile ν] {a : Agent ν} {session : Nat} {q : RecordQueue ν}

theorem cycle_collect (known : session < a.table.catalog.sessionCount)
    (fits : a.table.Fits) (h : Represents a.store q) (closed : q.opened = none) :
    a.Cycle session q (a.perform (.collect session)) := by
  have cycle := cycle_reportSession (a := { a with platform.lock := a.platform.lock.enter })
    known fits h closed
  rw [perform, Agent.collect, if_pos known]
  exact cycle.setLock

/-- A session that ends is reported from what its hook left, with its duration timer stopped. -/
theorem cycle_endSession {key : Nat} {t : Table} (duration : a.durationKey session = .ok key)
    (stopped : (a.afterEndHook session).table.stopTimer key a.now = .ok t)
    (fits : a.table.Fits) (h : Represents a.store q) (closed : q.opened = none) :
    { a.afterEndHook session with table := t }.Cycle session q
      (a.perform (.endSession session)) := by
  have hook := (passes_afterEndHook key a session).moved.follows
  have known : session < t.catalog.sessionCount := by
    rw [(Table.follows_stopTimer stopped).catalog, hook.catalog]
    exact known_of_durationKey duration
  have fitting : t.Fits := (fits.follows hook).follows (Table.follows_stopTimer stopped)
  obtain ⟨t₀, m, runs, hooked⟩ := a.afterEndHook_eq session
  have store : (a.afterEndHook session).store = a.store := by rw [hooked]
  -- the agent inside the lock comes to the same table
  have running := Table.isRunning_of_stopTimer stopped
  rw [← a.afterEndHook_setLock_table a.platform.lock.enter session] at running
  obtain ⟨t', stopped', finished, -⟩ := finishSession_of_running running
  rw [afterEndHook_setLock_table] at stopped'
  obtain rfl : t' = t := Except.ok.inj (stopped'.symm.trans stopped)
  rw [afterEndHook_setLock] at finished
  have cycle := cycle_reportSession (a := { a.afterEndHook session with
    table := t', platform.lock := a.platform.lock.enter }) known fitting (store ▸ h) closed
  have ended : a.perform (.endSession session) =
      finish .metric (a.locked fun a => a.finishSession session key) := by
    rw [perform, forSession, duration]
  rw [← finished] at cycle
  rw [ended]
  exact Cycle.setLock (a := { a.afterEndHook session with table := t' }) cycle

/-- After every life, whatever the time, the state of the store and the hook: a session that is
collected, a heartbeat and a session that ends are reported and forgotten in one cycle. The event is
that of the table brought up to now, behind the collectors and the hook in a heartbeat; the trace
that waits and then the event become the newest records, each if it fits; and whether or not there
was space, the metrics of the session are blank, its timers go on, and all others are as the hook
left them. -/
theorem reports_forget_their_session {configuration : Configuration} {capacity : Nat}
    {platform : Platform} {a : Agent ν} (booted : boot configuration capacity platform = .ok a)
    (ops : List (Operation ν)) :
    let b := (a.performAll ops).2
    ∃ q, Represents b.store q ∧ q.opened = none ∧ q.capacity = capacity ∧
      (∀ session < b.table.catalog.sessionCount, b.Cycle session q (b.perform (.collect session))) ∧
      b.Cycle Catalog.heartbeat q (b.perform .heartbeat) ∧
      ∀ session key t, b.durationKey session = .ok key →
        (b.afterEndHook session).table.stopTimer key b.now = .ok t →
          { b.afterEndHook session with table := t }.Cycle session q
            (b.perform (.endSession session)) := by
  obtain ⟨c, valid, sound, -⟩ := boot_eq_ok booted
  intro b
  obtain ⟨moves, lived⟩ := exists_moved_performAll 0 a ops
  have fits : b.table.Fits := sound.slots.follows lived.follows
  have catalog : b.table.catalog = c := lived.follows.catalog.trans sound.catalog
  obtain ⟨q, h, closed, size⟩ := sound.store.performAll ops
  refine ⟨q, h, closed, size, ?_, ?_, ?_⟩
  · intro session known
    exact cycle_collect known fits h closed
  · exact cycle_collect (catalog ▸ Schema.heartbeat_lt valid) fits h closed
  · intro session key t duration stopped
    exact cycle_endSession duration stopped fits h closed

/-- In a store of 42 bytes the waiting trace is kept and the heartbeat behind it dropped: its timer
goes on from 250 all the same, and a count of the other session is what the hook made of it. The
session that ends instead of the heartbeat finds space. -/
theorem reports_forget_their_session_over_42 :
    let configuration : Configuration :=
      { device := {}
        schema := {
          sessions := ["run"]
          metrics := [.unsigned "count", .timer "up", .text "state" 4,
            (MetricDef.unsigned "laps").inSession "run"] } }
    let ops : List (Operation Empty) := [.setUnsigned 0 5, .startTimer 1, .startSession 1,
      .setUnsigned 3 2, .setCollectHook [.call (.setText 2 "ok"), .call (.add 3 1)], .advance 250,
      .stage { reason := 1 }]
    ∃ a : Agent Empty, boot configuration 42 {} = .ok a ∧
      let b := (a.performAll ops).2
      let beat := b.perform .heartbeat
      let ended := b.perform (.endSession 1)
      ∃ q, Represents b.store q ∧
        Represents beat.2.store (b.behindTrace 0 q) ∧
        beat.1 = .error (.metric (.outOfSpace 0)) ∧
        beat.2.table.value 0 = .ok (.unsigned none) ∧
        (b.reportedTable 0).value 1 = .ok (.timer (some 250)) ∧
        beat.2.table.HasTimer 1 { startedAt := some 250 } ∧
        beat.2.table.slots[3]? = some (.unsigned (some 3)) ∧
        ended.1 = .ok .done ∧ ended.2.table.value 3 = .ok (.unsigned none) := by
  intro configuration ops
  obtain ⟨a, booted, ⟨⟨count, inside⟩, ⟨laps, outside, inRun⟩, up, inBeat, untouched, hooked⟩,
      now, refused, duration, running, kept⟩ :
      ∃ a : Agent Empty, boot configuration 42 {} = .ok a ∧
      let b := (a.performAll ops).2
      let c := b.table.catalog
      (((c.metric? 0).map (·.kind) = some .unsigned ∧ c.InSession 0 0) ∧
        ((c.metric? 3).map (·.kind) = some .unsigned ∧ ¬c.InSession 0 3 ∧ c.InSession 1 3) ∧
        b.table.slots[1]? = some (.timer { startedAt := some 0 }) ∧ c.InSession 0 1 ∧
        hookMoves c 1 (b.collectionHook 0) = [] ∧
        (b.reportedTable 0).slots[3]? = some (.unsigned (some 3))) ∧
        b.now = 250 ∧ (b.perform .heartbeat).1 = .error (.metric (.outOfSpace 0)) ∧
        b.durationKey 1 = .ok 4 ∧ (b.afterEndHook 1).table.isRunning 4 = .ok true ∧
        (b.perform (.endSession 1)).1 = .ok .done :=
    ⟨_, rfl, by decide +kernel, by decide +kernel, by decide +kernel, by decide +kernel,
      by decide +kernel, by decide +kernel⟩
  have lives := reports_forget_their_session booted ops
  refine ⟨a, booted, ?_⟩
  generalize (a.performAll ops).2 = b at *
  obtain ⟨q, h, -, -, -, cycle, ends⟩ := lives
  have beat : b.Cycle 0 q (b.perform .heartbeat) := cycle
  obtain ⟨e, metric, unsigned⟩ := Option.map_eq_some_iff.mp count
  obtain ⟨e', metric', unsigned'⟩ := Option.map_eq_some_iff.mp laps
  obtain ⟨t, stopped⟩ := Table.exists_stopTimer running b.now
  have ended := ends 1 4 t duration stopped
  have catalog : t.catalog = b.table.catalog :=
    (Table.follows_stopTimer stopped).catalog.trans (passes_afterEndHook 0 b 1).catalog
  have blank := beat.blank 0 e metric inside
  have blank' := ended.blank 3 e' (catalog ▸ metric') (catalog ▸ inRun)
  rw [unsigned] at blank
  rw [unsigned'] at blank'
  obtain ⟨shown, goesOn⟩ := beat.running 1 _ 0 inBeat up rfl untouched
  rw [now] at shown goesOn
  have dropped : ¬(b.behindTrace 0 q).Fits (b.cyclePayload 0) := by
    intro fits
    have answer := beat.answer
    rw [if_pos fits, refused] at answer
    cases answer
  have store := beat.store
  rw [RecordQueue.offered, if_neg dropped] at store
  exact ⟨q, h, store, refused, blank, shown, goesOn, (beat.apart 3 outside).trans hooked, kept,
    blank'⟩

end Agent

end DeviceTelemetry
