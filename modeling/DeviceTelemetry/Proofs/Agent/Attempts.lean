import DeviceTelemetry.Proofs.Agent.EmptyStore

/-!
# Attempts to record

What an operation tries to record: the trace that waits, if the operation takes it, and then the
event that the operation is about (`Agent.attempts`). Each attempt is kept as a record behind all
others or counted as dropped (`Agent.Files`).
-/

set_option autoImplicit false

namespace DeviceTelemetry

def HookStep.trace? : HookStep → Option Trace
  | .call _ => none
  | .stage t => some t

def tracesOf (hook : Option Hook) : List Trace := (hook.getD []).filterMap HookStep.trace?

def recordsOf (device : Device) (outcomes : List (Event × Bool)) : List Bytes :=
  (outcomes.filter (·.2)).map (·.1.encode device)

def lostIn (outcomes : List (Event × Bool)) : Nat := (outcomes.filter (!·.2)).length

theorem recordsOf_append (device : Device) (first second : List (Event × Bool)) :
    recordsOf device (first ++ second) = recordsOf device first ++ recordsOf device second := by
  rw [recordsOf, List.filter_append, List.map_append]
  rfl

theorem lostIn_append (first second : List (Event × Bool)) :
    lostIn (first ++ second) = lostIn first + lostIn second := by
  rw [lostIn, List.filter_append, List.length_append]
  rfl

theorem length_recordsOf (device : Device) (outcomes : List (Event × Bool)) :
    (recordsOf device outcomes).length + lostIn outcomes = outcomes.length := by
  rw [recordsOf, lostIn, List.length_map]
  induction outcomes with
  | nil => rfl
  | cons outcome outcomes ih =>
      obtain ⟨e, kept⟩ := outcome
      cases kept with
      | true =>
          rw [List.filter_cons_of_pos rfl, List.filter_cons_of_neg Bool.false_ne_true,
            List.length_cons, List.length_cons]
          omega
      | false =>
          rw [List.filter_cons_of_neg Bool.false_ne_true, List.filter_cons_of_pos rfl,
            List.length_cons, List.length_cons]
          omega

namespace Agent

variable {ν : Type}

/-! ### What is attempted -/

def collectedEvent (a : Agent ν) (session : Nat) : Option Event :=
  if session < a.table.catalog.sessionCount then some (a.currentEvent session) else none

/-- The event of a session that is to be ended, if its duration timer runs behind its hook. -/
def endedEvent (a : Agent ν) (session : Nat) : Option Event :=
  match a.durationKey session with
  | .error _ => none
  | .ok key =>
    if (a.afterEndHook session).table.isRunning key = .ok true then some (a.endEvent session key)
    else none

def ownEvent (a : Agent ν) : Operation ν → Option Event
  | .heartbeat => a.collectedEvent Catalog.heartbeat
  | .collect session => a.collectedEvent session
  | .endSession session => a.endedEvent session
  | .capture t => some (.trace t)
  | _ => none

def takesTrace (a : Agent ν) : Operation ν → Bool
  | .flush => true
  | op => (a.ownEvent op).isSome

def collectionHook (a : Agent ν) (session : Nat) : Option Hook :=
  if session < a.table.catalog.sessionCount ∧ session = Catalog.heartbeat then a.collectHook
  else none

def endingHook (a : Agent ν) (session : Nat) : Option Hook :=
  match a.durationKey session with
  | .error _ => none
  | .ok _ => a.sessionEndHooks.lookup session

def hookOf (a : Agent ν) : Operation ν → Option Hook
  | .heartbeat => a.collectionHook Catalog.heartbeat
  | .collect session => a.collectionHook session
  | .endSession session => a.endingHook session
  | _ => none

def stages (a : Agent ν) : Operation ν → List Trace
  | .stage t => [t]
  | op => tracesOf (a.hookOf op)

/-- The trace that waits once the hook of an operation has run: the last one staged. -/
def waiting (a : Agent ν) (op : Operation ν) : Option Trace :=
  (a.stages op).getLast?.or a.mailbox.staged

/-- What an operation tries to record, in this order. -/
def attempts (a : Agent ν) (op : Operation ν) : List Event :=
  (if a.takesTrace op then ((a.waiting op).map Event.trace).toList else []) ++
    (a.ownEvent op).toList

/-- What happens to the mailbox in an operation: a trace is staged, or the one in it is taken. -/
def signals (a : Agent ν) (op : Operation ν) : List (Option Trace) :=
  (a.stages op).map some ++ if a.takesTrace op then [none] else []

theorem collectionHook_eq {a : Agent ν} {session : Nat}
    (known : session < a.table.catalog.sessionCount) :
    a.collectionHook session = if session = Catalog.heartbeat then a.collectHook else none := by
  by_cases beat : session = Catalog.heartbeat
  · rw [collectionHook, if_pos ⟨known, beat⟩, if_pos beat]
  · rw [collectionHook, if_neg fun both => beat both.2, if_neg beat]

theorem stages_collect {a : Agent ν} {session : Nat}
    (known : session < a.table.catalog.sessionCount) :
    a.stages (.collect session) =
      if session = Catalog.heartbeat then tracesOf a.collectHook else [] := by
  show tracesOf (a.collectionHook session) = _
  rw [collectionHook_eq known]
  split <;> rfl

/-! ### Ends of sessions -/

theorem afterEndHook_eq (a : Agent ν) (session : Nat) :
    ∃ t m runs, a.afterEndHook session = { a with table := t, mailbox := m, hookRuns := runs } := by
  obtain ⟨t, m, runs, same, -, -⟩ :=
    a.runHook_eq (.sessionEnd session) (a.sessionEndHooks.lookup session)
  exact ⟨t, m, runs, same⟩

theorem stages_endSession {a : Agent ν} {session key : Nat}
    (duration : a.durationKey session = .ok key) :
    a.stages (.endSession session) = tracesOf (a.sessionEndHooks.lookup session) := by
  show tracesOf (a.endingHook session) = _
  rw [endingHook, duration]

theorem ownEvent_endSession {a : Agent ν} {session key : Nat}
    (duration : a.durationKey session = .ok key) :
    a.ownEvent (.endSession session) =
      if (a.afterEndHook session).table.isRunning key = .ok true then
        some (a.endEvent session key)
      else none := by
  show a.endedEvent session = _
  rw [endedEvent, duration]

/-- A session whose timer does not run behind its hook is not reported. -/
theorem finishSession_of_stopped {a : Agent ν} {session key : Nat}
    (stopped : (a.afterEndHook session).table.isRunning key ≠ .ok true) :
    ∃ e, (∀ n, e ≠ .outOfSpace n) ∧
      a.finishSession session key = (.error e, a.afterEndHook session) := by
  cases result : (a.afterEndHook session).table.stopTimer key (a.afterEndHook session).now with
  | ok t => exact absurd (Table.isRunning_of_stopTimer result) stopped
  | error e =>
      refine ⟨e, ?_, ?_⟩
      · rintro n rfl
        exact Table.stopTimer_ne_outOfSpace _ _ n result
      · rw [finishSession, ← afterEndHook, alterTable, result]

/-! ### What becomes of it -/

/-- Attempts to record lead from `a` to `b`, with these outcomes. -/
structure Files (a b : Agent ν) (outcomes : List (Event × Bool)) : Prop where
  device : b.device = a.device
  idle : ∀ {capacity : Nat}, Idle capacity a.store → Idle capacity b.store
  payloads : ∀ {capacity : Nat}, Idle capacity a.store →
    b.store.payloads = a.store.payloads ++ recordsOf a.device outcomes
  dropped : ∀ {lost : Nat}, a.droppedEvents = min lost maxDropped →
    b.droppedEvents = min (lost + lostIn outcomes) maxDropped

section Outcomes

variable {a b d : Agent ν} {first second : List (Event × Bool)}

theorem Files.of_eq (device : b.device = a.device) (store : b.store = a.store)
    (dropped : b.droppedEvents = a.droppedEvents) : Files a b [] where
  device := device
  idle h := store ▸ h
  payloads _ := by rw [store, recordsOf, List.filter_nil, List.map_nil, List.append_nil]
  dropped h := dropped.trans h

theorem Files.trans (h : Files a b first) (h' : Files b d second) :
    Files a d (first ++ second) where
  device := h'.device.trans h.device
  idle idle := h'.idle (h.idle idle)
  payloads idle := by
    rw [h'.payloads (h.idle idle), h.payloads idle, h.device, recordsOf_append, List.append_assoc]
  dropped same := by
    rw [h'.dropped (h.dropped same), lostIn_append, Nat.add_assoc]

theorem Files.behind (h : Files b d second) (device : b.device = a.device)
    (store : b.store = a.store) (dropped : b.droppedEvents = a.droppedEvents) :
    Files a d second :=
  (Files.of_eq device store dropped).trans h

end Outcomes

theorem files_record (a : Agent ν) (e : Event) : Files a (a.record e).2 [(e, (a.record e).1)] := by
  cases answer : a.store.recordEvent a.device e with
  | mk result s =>
      have idle {capacity : Nat} (h : Idle capacity a.store) : Idle capacity s := by
        have next := h.recordEvent a.device e
        rwa [answer] at next
      cases result with
      | ok n =>
          rw [record_of_ok answer]
          refine ⟨rfl, idle, ?_, ?_⟩
          · rintro capacity ⟨q, h, -, -⟩
            obtain ⟨-, -, -, next⟩ := h.recordEvent_ok answer
            show s.payloads = _
            rw [next.payloads_eq, RecordQueue.records_recorded, h.payloads_eq]
            rfl
          · intro lost same
            exact same
      | error error =>
          rw [record_of_error answer]
          refine ⟨rfl, idle, ?_, ?_⟩
          · rintro capacity ⟨q, h, closed, -⟩
            show s.payloads = a.store.payloads ++ []
            by_cases fits : q.Fits (e.encode a.device)
            · obtain ⟨s', recorded, -⟩ := h.recordEvent_of_fits closed fits
              rw [answer] at recorded
              cases recorded
            · obtain ⟨error', s', refused, next⟩ := h.recordEvent_of_not_fits closed fits
              rw [answer] at refused
              obtain ⟨-, rfl⟩ := Prod.mk.inj refused
              rw [next.payloads_eq, h.payloads_eq, List.append_nil]
          · intro lost same
            show min (a.droppedEvents + 1) maxDropped = min (lost + 1) maxDropped
            omega

theorem reportSession_eq (a : Agent ν) (session : Nat) :
    a.reportSession session =
      let recorded := (a.refresh session).flushStaged.2.record (a.currentEvent session)
      (if recorded.1 then .ok () else .error (.outOfSpace session),
        { recorded.2 with table := recorded.2.table.resetSession session }) := by
  obtain ⟨s, n, m, same⟩ := (a.refresh session).flushStaged_eq
  have event : (a.refresh session).flushStaged.2.table.sessionEvent session =
      a.currentEvent session := by rw [same, currentEvent]
  rw [← event]
  rfl

theorem exists_files_flushStaged (a : Agent ν) :
    ∃ outcomes, outcomes.map Prod.fst = (a.mailbox.staged.map Event.trace).toList ∧
      Files a a.flushStaged.2 outcomes ∧ a.flushStaged.2.mailbox.staged = none := by
  cases staged : a.mailbox.staged with
  | none =>
      rw [flushStaged_of_none staged]
      exact ⟨[], rfl, .of_eq rfl rfl rfl, staged⟩
  | some t =>
      have files := files_record { a with mailbox := a.mailbox.take.2 } (.trace t)
      obtain ⟨s, n, same⟩ := record_eq { a with mailbox := a.mailbox.take.2 } (.trace t)
      rw [flushStaged_of_some staged]
      refine ⟨_, ?_, files.behind rfl rfl rfl, ?_⟩
      · rfl
      · rw [same]
        exact a.mailbox.staged_take

/-- The trace that waits goes directly in front of the event. -/
theorem exists_files_record (a : Agent ν) (e : Event) :
    ∃ outcomes kept, outcomes.map Prod.fst = (a.mailbox.staged.map Event.trace).toList ∧
      (a.flushStaged.2.record e).1 = kept ∧
      Files a (a.flushStaged.2.record e).2 (outcomes ++ [(e, kept)]) ∧
      (a.flushStaged.2.record e).2.mailbox.staged = none := by
  obtain ⟨outcomes, attempted, flushed, emptied⟩ := a.exists_files_flushStaged
  obtain ⟨s, n, same⟩ := a.flushStaged.2.record_eq e
  refine ⟨outcomes, _, attempted, rfl, flushed.trans (files_record _ e), ?_⟩
  rw [same]
  exact emptied

end Agent

end DeviceTelemetry
