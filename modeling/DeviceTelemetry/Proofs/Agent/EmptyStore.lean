import DeviceTelemetry.Proofs.Agent.Invariant
import DeviceTelemetry.Proofs.SizeBound

/-!
# Reporting into an empty store

What heartbeats, ends of sessions and traces come to when the store is empty and no trace waits.
`Agent.Reports` says it for one event: it is the only record afterwards, or, if it is too long for
any record, it was refused.
-/

set_option autoImplicit false

namespace DeviceTelemetry

open RecordStore (headerSize maxRecordSize)
open RecordQueue (Represents)

/-- Whether an event is short enough for one record, however large the store. -/
def Event.FitsRecord (device : Device) (e : Event) : Prop :=
  (e.encode device).length + headerSize ≤ maxRecordSize

instance (device : Device) (e : Event) : Decidable (e.FitsRecord device) :=
  inferInstanceAs (Decidable (_ ≤ _))

namespace Agent

variable {ν : Type}

def currentEvent (a : Agent ν) (session : Nat) : Event :=
  (a.refresh session).table.sessionEvent session

def afterEndHook (a : Agent ν) (session : Nat) : Agent ν :=
  a.runHook (.sessionEnd session) (a.sessionEndHooks.lookup session)

def endEvent (a : Agent ν) (session key : Nat) : Event :=
  let a := a.afterEndHook session
  (a.alterTable (·.stopTimer key a.now)).2.currentEvent session

structure Clear (a : Agent ν) : Prop where
  store : a.store.levels.used = 0
  mailbox : a.mailbox.staged = none

/-- The event is the only record afterwards, or it was too long and refused. -/
structure Reports {ε α : Type} (device : Device) (e : Event) (done : α) (refusal : ε)
    (r : Except ε α × Agent ν) : Prop where
  kept : e.FitsRecord device → r.1 = .ok done ∧ r.2.store.payloads = [e.encode device]
  refused : ¬e.FitsRecord device → r.1 = .error refusal ∧ r.2.store.payloads = []

/-! ### The lock does not matter -/

theorem Clear.enter {a : Agent ν} (clear : a.Clear) :
    { a with platform.lock := a.platform.lock.enter }.Clear :=
  ⟨clear.store, clear.mailbox⟩

theorem performHook_setPlatform (a : Agent ν) (p : Platform) (hook : Hook) :
    { a with platform := p }.performHook hook =
      ((a.performHook hook).1, { (a.performHook hook).2 with platform := p }) := by
  induction hook generalizing a with
  | nil => rfl
  | cons step steps ih =>
      cases step with
      | call c =>
          rw [performHook, performHook]
          dsimp only
          rw [ih { a with table := (a.table.perform c).2 }]
      | stage t =>
          rw [performHook, performHook]
          dsimp only
          rw [ih { a with mailbox := (a.mailbox.stage t).2 }]

theorem runHook_setPlatform (a : Agent ν) (p : Platform) (point : HookPoint)
    (hook : Option Hook) :
    { a with platform := p }.runHook point hook =
      { a.runHook point hook with platform := p } := by
  cases hook with
  | none => rfl
  | some hook =>
      rw [runHook, runHook]
      dsimp only
      rw [performHook_setPlatform]

theorem currentEvent_setLock (a : Agent ν) (l : Lock) (session : Nat) :
    { a with platform.lock := l }.currentEvent session = a.currentEvent session := by
  unfold currentEvent refresh Agent.now
  dsimp only
  split
  · have hooked := runHook_setPlatform
      { a with
        table := (a.collectors.collect (a.table.tallySession session a.platform.clock)
          a.platform.gauge a.platform.clock).1
        collectors := (a.collectors.collect (a.table.tallySession session a.platform.clock)
          a.platform.gauge a.platform.clock).2 }
      { a.platform with lock := l } .heartbeat a.collectHook
    rw [hooked]
  · rfl

theorem platform_afterEndHook (a : Agent ν) (session : Nat) :
    (a.afterEndHook session).platform = a.platform := by
  obtain ⟨t, m, runs, same, -, -⟩ :=
    a.runHook_eq (.sessionEnd session) (a.sessionEndHooks.lookup session)
  rw [afterEndHook, same]

theorem afterEndHook_setLock (a : Agent ν) (l : Lock) (session : Nat) :
    { a with platform.lock := l }.afterEndHook session =
      { a.afterEndHook session with platform.lock := l } := by
  dsimp only
  rw [platform_afterEndHook]
  exact runHook_setPlatform a { a.platform with lock := l } _ _

theorem afterEndHook_setLock_table (a : Agent ν) (l : Lock) (session : Nat) :
    ({ a with platform.lock := l }.afterEndHook session).table =
      (a.afterEndHook session).table := by
  rw [afterEndHook_setLock]

theorem alterTable_setLock (a : Agent ν) (l : Lock) (f : Table → Except MetricError Table) :
    { a with platform.lock := l }.alterTable f =
      ((a.alterTable f).1, { (a.alterTable f).2 with platform.lock := l }) := by
  unfold alterTable
  cases f a.table with
  | ok t => rfl
  | error e => rfl

theorem endEvent_setLock (a : Agent ν) (l : Lock) (session key : Nat) :
    { a with platform.lock := l }.endEvent session key = a.endEvent session key := by
  unfold endEvent
  dsimp only
  rw [afterEndHook_setLock, alterTable_setLock]
  exact currentEvent_setLock _ l session

/-! ### One event -/

section OneEvent

variable {ε α : Type} {device : Device} {e : Event} {done : α} {refusal : ε}

theorem Reports.locked {a : Agent ν} {f : Agent ν → Except ε α × Agent ν}
    (h : Reports device e done refusal (f { a with platform.lock := a.platform.lock.enter })) :
    Reports device e done refusal (a.locked f) :=
  ⟨h.kept, h.refused⟩

theorem Reports.finish {r : Except ε Unit × Agent ν} (h : Reports device e () refusal r)
    (failure : ε → Failure) :
    Reports device e Answer.done (failure refusal) (finish failure r) := by
  refine ⟨?_, ?_⟩
  · intro short
    obtain ⟨ok, only⟩ := h.kept short
    rw [Agent.finish, ok]
    exact ⟨rfl, only⟩
  · intro long
    obtain ⟨bad, nothing⟩ := h.refused long
    rw [Agent.finish, bad]
    exact ⟨rfl, nothing⟩

end OneEvent

theorem Idle.exists_empty {capacity : Nat} {s : RecordStore ν} (idle : Idle capacity s)
    (empty : s.levels.used = 0) :
    ∃ q, Represents s q ∧ q.opened = none ∧ q.records = [] ∧ q.free = capacity := by
  obtain ⟨q, h, closed, size⟩ := idle
  have nothing : q.records.length ≤ q.image.length := RecordQueue.length_le_image _ _
  rw [← h.count_eq, show s.ring.count = 0 from empty, Nat.le_zero,
    List.length_eq_zero_iff] at nothing
  refine ⟨q, h, closed, nothing, ?_⟩
  rw [RecordQueue.free_of_closed closed, nothing, size]
  rfl

theorem clear_of_boot {configuration : Configuration} {capacity : Nat} {platform : Platform}
    {a : Agent ν} (booted : boot configuration capacity platform = .ok a) : a.Clear := by
  unfold boot at booted
  obtain ⟨c, -, booted⟩ := bind_eq_ok.mp booted
  obtain ⟨collectors, -, booted⟩ := bind_eq_ok.mp booted
  obtain ⟨s, made, booted⟩ := bind_eq_ok.mp booted
  rw [mapError_eq_ok] at made
  obtain rfl := pure_eq_ok.mp booted
  exact ⟨(RecordQueue.represents_ofCapacity made).count_eq, rfl⟩

theorem record_of_empty {capacity : Nat} {a : Agent ν} {e : Event} (idle : Idle capacity a.store)
    (empty : a.store.levels.used = 0)
    (room : e.FitsRecord a.device → (e.encode a.device).length + headerSize ≤ capacity) :
    (e.FitsRecord a.device →
        (a.record e).1 = true ∧ (a.record e).2.store.payloads = [e.encode a.device]) ∧
      (¬e.FitsRecord a.device →
        (a.record e).1 = false ∧ (a.record e).2.store.payloads = []) := by
  obtain ⟨q, h, closed, nothing, free⟩ := idle.exists_empty empty
  refine ⟨?_, ?_⟩
  · intro short
    have pos := e.length_encode_pos a.device
    have enough := room short
    have fits : q.Fits (e.encode a.device) := ⟨by omega, by omega, short⟩
    obtain ⟨s, recorded, next⟩ := h.recordEvent_of_fits closed fits
    rw [record_of_ok recorded]
    refine ⟨rfl, ?_⟩
    show s.payloads = _
    rw [next.payloads_eq, RecordQueue.records_recorded, nothing, List.nil_append]
  · intro long
    have large : ¬q.Fits (e.encode a.device) := fun fits => long fits.2.2
    obtain ⟨error, s, refused, next⟩ := h.recordEvent_of_not_fits closed large
    rw [record_of_error refused]
    exact ⟨rfl, next.payloads_eq.trans nothing⟩

theorem Reports.ofRecord {ε : Type} {capacity : Nat} {a : Agent ν} {e : Event} {refusal : ε}
    {r : Except ε Unit × Agent ν}
    (answer : r.1 = if (a.record e).1 then .ok () else .error refusal)
    (store : r.2.store = (a.record e).2.store) (idle : Idle capacity a.store)
    (empty : a.store.levels.used = 0)
    (room : e.FitsRecord a.device → (e.encode a.device).length + headerSize ≤ capacity) :
    Reports a.device e () refusal r := by
  obtain ⟨kept, refused⟩ := record_of_empty idle empty room
  refine ⟨?_, ?_⟩
  · intro short
    obtain ⟨ok, only⟩ := kept short
    rw [answer, store, ok]
    exact ⟨rfl, only⟩
  · intro long
    obtain ⟨bad, nothing⟩ := refused long
    rw [answer, store, bad]
    exact ⟨rfl, nothing⟩

/-! ### Sessions and traces -/

section Reporting

variable {s : Schema} {c : Catalog} {device : Device} {capacity : Nat} {a : Agent ν}

theorem Sound.room_session (h : Sound c device capacity a) (valid : s.catalog = .ok c)
    (enough : c.largestSize device + headerSize ≤ capacity) {session : Nat}
    (known : session < c.sessionCount)
    (short : (a.table.sessionEvent session).FitsRecord device) :
    ((a.table.sessionEvent session).encode device).length + headerSize ≤ capacity := by
  have below := Table.length_sessionEvent_le (s := s) (by rw [h.catalog]; exact valid) h.slots short
  have largest := c.sessionSize_le_largestSize device known
  rw [h.catalog] at below
  omega

theorem Sound.reports_session (h : Sound c device capacity a) (valid : s.catalog = .ok c)
    (enough : c.largestSize device + headerSize ≤ capacity) (clear : a.Clear) {session : Nat}
    (known : session < c.sessionCount) :
    Reports device (a.currentEvent session) () (.outOfSpace session) (a.reportSession session) := by
  have refreshed := h.refresh session
  obtain ⟨t, collectors, m, runs, same, -, kept⟩ := a.refresh_eq session
  have unstaged : (a.refresh session).mailbox.staged = none := by
    rw [same]
    show m.staged = none
    rw [kept h.collectHook]
    exact clear.mailbox
  have empty : (a.refresh session).store.levels.used = 0 := by
    rw [same]
    exact clear.store
  have room := refreshed.room_session valid enough known
  rw [← refreshed.device] at room ⊢
  refine Reports.ofRecord ?_ ?_ refreshed.store empty room
  · rw [Agent.reportSession, flushStaged_of_none unstaged]
    rfl
  · rw [Agent.reportSession, flushStaged_of_none unstaged]
    rfl

theorem Sound.reports_trace (h : Sound c device capacity a)
    (enough : c.largestSize device + headerSize ≤ capacity) (clear : a.Clear) (t : Trace) :
    Reports device (.trace t) () .outOfSpace (a.reportTrace t) := by
  rw [← h.device] at enough ⊢
  refine Reports.ofRecord ?_ ?_ h.store clear.store ?_
  · rw [Agent.reportTrace, flushStaged_of_none clear.mailbox]
  · rw [Agent.reportTrace, flushStaged_of_none clear.mailbox]
  · intro short
    have below := Event.length_trace_le short
    have largest := c.traceSize_le_largestSize a.device
    omega

theorem finishSession_of_running {session key : Nat}
    (running : (a.afterEndHook session).table.isRunning key = .ok true) :
    ∃ t, (a.afterEndHook session).table.stopTimer key a.now = .ok t ∧
      a.finishSession session key =
        { a.afterEndHook session with table := t }.reportSession session ∧
      a.endEvent session key = { a.afterEndHook session with table := t }.currentEvent session := by
  obtain ⟨t, stopped⟩ := Table.exists_stopTimer running a.now
  have now : (a.afterEndHook session).now = a.now :=
    congrArg Platform.clock (a.platform_afterEndHook session)
  have altered : (a.afterEndHook session).alterTable
      (·.stopTimer key (a.afterEndHook session).now) =
        (.ok (), { a.afterEndHook session with table := t }) := by
    rw [alterTable, now, stopped]
  refine ⟨t, stopped, ?_, ?_⟩
  · rw [Agent.finishSession]
    dsimp only
    rw [← afterEndHook, altered]
  · rw [endEvent]
    dsimp only
    rw [altered]

theorem Sound.reports_end (h : Sound c device capacity a) (valid : s.catalog = .ok c)
    (enough : c.largestSize device + headerSize ≤ capacity) (clear : a.Clear) {session key : Nat}
    (known : session < c.sessionCount)
    (running : (a.afterEndHook session).table.isRunning key = .ok true) :
    Reports device (a.endEvent session key) () (.outOfSpace session)
      (a.finishSession session key) := by
  have hooked := h.runHook (.sessionEnd session) (a.sessionEndHooks.lookup session)
  obtain ⟨t', m, runs, same, -, kept⟩ :=
    a.runHook_eq (.sessionEnd session) (a.sessionEndHooks.lookup session)
  obtain ⟨t, stopped, finished, event⟩ := finishSession_of_running running
  have calls : ∀ hook ∈ a.sessionEndHooks.lookup session, CallsOnly hook := by
    intro hook found
    obtain ⟨before, after, whole, -⟩ := List.lookup_eq_some_iff.mp found
    apply h.sessionEndHooks (session, hook)
    rw [whole]
    exact List.mem_append_right _ List.mem_cons_self
  have clear' : { a.afterEndHook session with table := t }.Clear := by
    rw [afterEndHook, same, kept calls]
    exact ⟨clear.store, clear.mailbox⟩
  rw [finished, event]
  have stepped := hooked.setTable (Table.follows_stopTimer stopped)
  exact stepped.reports_session valid enough clear' known

/-! ### Events that are short enough -/

theorem Sound.fitsRecord_currentEvent (h : Sound c device capacity a) (valid : s.catalog = .ok c)
    {session : Nat} (short : (c.largestEvent session).FitsRecord device) :
    (a.currentEvent session).FitsRecord device := by
  have refreshed := h.refresh session
  have below := Table.length_sessionEvent_le_largest (s := s) (t := (a.refresh session).table)
    (by rw [refreshed.catalog]; exact valid) refreshed.slots device session
  rw [refreshed.catalog] at below
  exact Nat.le_trans (Nat.add_le_add_right below _) short

theorem Sound.fitsRecord_endEvent (h : Sound c device capacity a) (valid : s.catalog = .ok c)
    {session : Nat} (key : Nat) (short : (c.largestEvent session).FitsRecord device) :
    (a.endEvent session key).FitsRecord device := by
  have hooked := h.runHook (.sessionEnd session) (a.sessionEndHooks.lookup session)
  have stopped := hooked.alterTable (f := (·.stopTimer key (a.afterEndHook session).now))
    (.stopTimer key (a.afterEndHook session).now) rfl
  exact stopped.fitsRecord_currentEvent valid short

/-! ### Whole operations -/

variable [Nonvolatile ν]

theorem Sound.reports_heartbeat (h : Sound c device capacity a) (valid : s.catalog = .ok c)
    (enough : c.largestSize device + headerSize ≤ capacity) (clear : a.Clear) :
    Reports device (a.currentEvent Catalog.heartbeat) Answer.done
      (Failure.metric (.outOfSpace Catalog.heartbeat)) (a.perform .heartbeat) := by
  have known := Schema.heartbeat_lt valid
  have reports := h.enter.reports_session valid enough clear.enter known
  rw [currentEvent_setLock] at reports
  rw [Agent.perform, Agent.collect, h.catalog, if_pos known]
  exact reports.locked.finish .metric

theorem Sound.reports_endSession (h : Sound c device capacity a) (valid : s.catalog = .ok c)
    (enough : c.largestSize device + headerSize ≤ capacity) (clear : a.Clear) {session key : Nat}
    (duration : a.durationKey session = .ok key)
    (running : (a.afterEndHook session).table.isRunning key = .ok true) :
    Reports device (a.endEvent session key) Answer.done (Failure.metric (.outOfSpace session))
      (a.perform (.endSession session)) := by
  have known : session < c.sessionCount := by
    rw [← h.catalog]
    exact known_of_durationKey duration
  rw [← a.afterEndHook_setLock_table a.platform.lock.enter session] at running
  have reports := h.enter.reports_end valid enough clear.enter known running
  rw [endEvent_setLock] at reports
  rw [Agent.perform, Agent.forSession, duration]
  exact reports.locked.finish .metric

theorem Sound.reports_capture (h : Sound c device capacity a)
    (enough : c.largestSize device + headerSize ≤ capacity) (clear : a.Clear) (t : Trace) :
    Reports device (.trace t) Answer.done (Failure.trace .outOfSpace) (a.perform (.capture t)) :=
  (h.enter.reports_trace enough clear.enter t).locked.finish .trace

end Reporting

end Agent

end DeviceTelemetry
