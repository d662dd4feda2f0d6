import DeviceTelemetry.Proofs.Agent.Attempts

/-!
# Accounting for events

Throughout the life of an agent, the records that operations add and the dropped events are together
what operations tried to record, and the trace that waits is the one staged last, unless it was
taken since (`records_account_for_attempts`). `Agent.Accounts` says it for one operation.
-/

set_option autoImplicit false

namespace DeviceTelemetry

open RecordQueue (Represents Serves)

namespace Agent

def Operation.refusal? {ν : Type} : Operation ν → Option Failure
  | .heartbeat => some (.metric (.outOfSpace Catalog.heartbeat))
  | .collect session => some (.metric (.outOfSpace session))
  | .endSession session => some (.metric (.outOfSpace session))
  | .capture _ => some (.trace .outOfSpace)
  | _ => none

def Operation.isReport {ν : Type} : Operation ν → Bool
  | .heartbeat | .collect _ | .endSession _ | .capture _ | .flush | .stage _ => true
  | _ => false

section Definitions

variable {ν : Type} [Nonvolatile ν]

/-- An operation makes its attempts with these outcomes, adds the records that were kept behind all
others and counts the rest as dropped. It fails for lack of space exactly if its own event was
dropped. -/
structure Accounts (a : Agent ν) (op : Operation ν) (outcomes : List (Event × Bool)) : Prop where
  attempted : outcomes.map Prod.fst = a.attempts op
  store : ∃ older, older <:+ a.store.payloads ∧ (older = a.store.payloads ∨ outcomes = []) ∧
    (a.perform op).2.store.payloads = older ++ recordsOf a.device outcomes
  dropped : ∀ {lost : Nat}, a.droppedEvents = min lost maxDropped →
    (a.perform op).2.droppedEvents = min (lost + lostIn outcomes) maxDropped
  mailbox : (a.perform op).2.mailbox.staged = if a.takesTrace op then none else a.waiting op
  own : ∀ e ∈ a.ownEvent op,
    outcomes.getLast? = some (e, true) ∧ (a.perform op).1 = .ok .done ∨
      outcomes.getLast? = some (e, false) ∧
        ∃ failure ∈ op.refusal?, (a.perform op).1 = .error failure
  other : a.ownEvent op = none → ∀ failure ∈ op.refusal?, (a.perform op).1 ≠ .error failure

def commits (a : Agent ν) (op : Operation ν) : List Bytes :=
  (a.perform op).2.store.payloads.drop a.store.payloads.length

def attemptsAll (a : Agent ν) : List (Operation ν) → List Event
  | [] => []
  | op :: ops => a.attempts op ++ (a.perform op).2.attemptsAll ops

def commitsAll (a : Agent ν) : List (Operation ν) → List Bytes
  | [] => []
  | op :: ops => a.commits op ++ (a.perform op).2.commitsAll ops

def signalsAll (a : Agent ν) : List (Operation ν) → List (Option Trace)
  | [] => []
  | op :: ops => a.signals op ++ (a.perform op).2.signalsAll ops

end Definitions

variable {ν : Type}

/-! ### Hooks -/

theorem staged_performHook (a : Agent ν) (hook : Hook) :
    (a.performHook hook).2.mailbox.staged =
      (hook.filterMap HookStep.trace?).getLast?.or a.mailbox.staged := by
  induction hook generalizing a with
  | nil => rfl
  | cons step steps ih =>
      cases step with
      | call c =>
          rw [List.filterMap_cons_none rfl]
          exact ih { a with table := (a.table.perform c).2 }
      | stage t =>
          have next := ih { a with mailbox := (a.mailbox.stage t).2 }
          have traces : (HookStep.stage t :: steps).filterMap HookStep.trace? =
              t :: steps.filterMap HookStep.trace? := rfl
          rw [performHook, traces, List.getLast?_cons]
          refine next.trans ?_
          rw [Mailbox.staged_stage]
          cases (steps.filterMap HookStep.trace?).getLast? with
          | none => rfl
          | some t' => rfl

theorem staged_runHook (a : Agent ν) (point : HookPoint) (hook : Option Hook) :
    (a.runHook point hook).mailbox.staged = (tracesOf hook).getLast?.or a.mailbox.staged := by
  cases hook with
  | none => rfl
  | some hook => exact staged_performHook a hook

theorem staged_refresh (a : Agent ν) (session : Nat) :
    (a.refresh session).mailbox.staged =
      (if session = Catalog.heartbeat then tracesOf a.collectHook else []).getLast?.or
        a.mailbox.staged := by
  unfold refresh
  dsimp only
  split
  · rw [staged_runHook]
  · rfl

theorem getLast?_signals (a : Agent ν) (op : Operation ν) :
    (a.signals op).getLast?.getD a.mailbox.staged =
      if a.takesTrace op then none else a.waiting op := by
  rw [signals, waiting]
  cases a.takesTrace op with
  | true =>
      rw [if_pos rfl, if_pos rfl, List.getLast?_append]
      rfl
  | false =>
      rw [if_neg Bool.false_ne_true, if_neg Bool.false_ne_true, List.append_nil,
        List.getLast?_map]
      cases (a.stages op).getLast? with
      | none => rfl
      | some t => rfl

/-! ### Reports -/

/-- A report of an event behind a trace that waits. Both are attempted, and what becomes of the
event decides on the answer. -/
def Tells {ε α : Type} (a : Agent ν) (trace : Option Trace) (e : Event) (done : α) (refusal : ε)
    (r : Except ε α × Agent ν) : Prop :=
  ∃ outcomes kept, outcomes.map Prod.fst = (trace.map Event.trace).toList ∧
    Files a r.2 (outcomes ++ [(e, kept)]) ∧ r.1 = (if kept then .ok done else .error refusal) ∧
    r.2.mailbox.staged = none

section Reports

variable {ε α : Type} {a b : Agent ν} {trace : Option Trace} {e : Event} {done : α} {refusal : ε}

theorem Tells.behind {r : Except ε α × Agent ν} (h : Tells b trace e done refusal r)
    (device : b.device = a.device) (store : b.store = a.store)
    (dropped : b.droppedEvents = a.droppedEvents) : Tells a trace e done refusal r := by
  obtain ⟨outcomes, kept, attempted, files, answer⟩ := h
  exact ⟨outcomes, kept, attempted, files.behind device store dropped, answer⟩

theorem Tells.locked {f : Agent ν → Except ε α × Agent ν}
    (h : Tells { a with platform.lock := a.platform.lock.enter } trace e done refusal
      (f { a with platform.lock := a.platform.lock.enter })) :
    Tells a trace e done refusal (a.locked f) := by
  obtain ⟨outcomes, kept, attempted, files, answer, emptied⟩ := h
  exact ⟨outcomes, kept, attempted, ⟨files.device, files.idle, files.payloads, files.dropped⟩,
    answer, emptied⟩

theorem Tells.finish {r : Except ε Unit × Agent ν} (h : Tells a trace e () refusal r)
    (failure : ε → Failure) :
    Tells a trace e Answer.done (failure refusal) (finish failure r) := by
  obtain ⟨outcomes, kept, attempted, files, answer, emptied⟩ := h
  refine ⟨outcomes, kept, attempted, files, ?_, emptied⟩
  rw [Agent.finish, answer]
  cases kept with
  | true => rfl
  | false => rfl

end Reports

theorem tells_reportSession (a : Agent ν) (session : Nat) :
    Tells a ((if session = Catalog.heartbeat then tracesOf a.collectHook else []).getLast?.or
      a.mailbox.staged) (a.currentEvent session) () (.outOfSpace session)
      (a.reportSession session) := by
  obtain ⟨outcomes, kept, attempted, answer, files, emptied⟩ :=
    (a.refresh session).exists_files_record (a.currentEvent session)
  obtain ⟨t, c, m, runs, refreshed, -, -⟩ := a.refresh_eq session
  rw [staged_refresh] at attempted
  have behind : Files a ((a.refresh session).flushStaged.2.record (a.currentEvent session)).2
      (outcomes ++ [(a.currentEvent session, kept)]) :=
    files.behind (by rw [refreshed]) (by rw [refreshed]) (by rw [refreshed])
  rw [reportSession_eq]
  refine ⟨outcomes, kept, attempted, ?_, ?_, emptied⟩
  · exact ⟨behind.device, behind.idle, behind.payloads, behind.dropped⟩
  · dsimp only
    rw [answer]

theorem tells_reportTrace (a : Agent ν) (t : Trace) :
    Tells a a.mailbox.staged (.trace t) () .outOfSpace (a.reportTrace t) := by
  obtain ⟨outcomes, kept, attempted, answer, files, emptied⟩ := a.exists_files_record (.trace t)
  refine ⟨outcomes, kept, attempted, files, ?_, emptied⟩
  rw [reportTrace, ← answer]

theorem tells_finishSession {a : Agent ν} {session key : Nat} (user : session ≠ Catalog.heartbeat)
    (running : (a.afterEndHook session).table.isRunning key = .ok true) :
    Tells a ((tracesOf (a.sessionEndHooks.lookup session)).getLast?.or a.mailbox.staged)
      (a.endEvent session key) () (.outOfSpace session) (a.finishSession session key) := by
  obtain ⟨t, -, finished, event⟩ := finishSession_of_running running
  obtain ⟨t', m, runs, hooked⟩ := a.afterEndHook_eq session
  have staged : (a.afterEndHook session).mailbox.staged =
      (tracesOf (a.sessionEndHooks.lookup session)).getLast?.or a.mailbox.staged :=
    staged_runHook a _ _
  have told := tells_reportSession { a.afterEndHook session with table := t } session
  rw [if_neg user, List.getLast?_nil, Option.none_or, staged] at told
  rw [finished, event]
  exact told.behind (by rw [hooked]) (by rw [hooked]) (by rw [hooked])

/-! ### Operations that record nothing -/

/-- What leads from `a` to `b` adds no record and drops no event. -/
structure Quiet (a b : Agent ν) : Prop where
  idle : ∀ {capacity : Nat}, Idle capacity a.store → Idle capacity b.store
  payloads : ∀ {capacity : Nat}, Idle capacity a.store → b.store.payloads <:+ a.store.payloads
  dropped : b.droppedEvents = a.droppedEvents

section Quiet

variable {a b d : Agent ν}

theorem Quiet.of_eq (store : b.store = a.store) (dropped : b.droppedEvents = a.droppedEvents) :
    Quiet a b where
  idle h := store ▸ h
  payloads _ := store ▸ List.suffix_rfl
  dropped := dropped

theorem Quiet.trans (h : Quiet a b) (h' : Quiet b d) : Quiet a d where
  idle idle := h'.idle (h.idle idle)
  payloads idle := (h'.payloads (h.idle idle)).trans (h.payloads idle)
  dropped := h'.dropped.trans h.dropped

theorem Quiet.setStore {s : RecordStore ν}
    (serves : ∀ {q : RecordQueue ν}, Represents a.store q → ∃ q', Represents s q' ∧ Serves q q') :
    Quiet a { a with store := s } where
  idle idle := idle.serves serves
  payloads := by
    rintro capacity ⟨q, represents, -, -⟩
    obtain ⟨q', represents', served⟩ := serves represents
    show s.payloads <:+ _
    rw [represents'.payloads_eq, represents.payloads_eq]
    exact served.records
  dropped := rfl

theorem Quiet.of_touches {parts : List Part} (steps : Touches parts a b)
    (silent : .records ∉ parts) : Quiet a b := by
  refine steps.invariant (.of_eq rfl rfl) ?_
  intro part b d member change before
  cases change with
  | record e => exact absurd member silent
  | serve serves => exact before.trans (.setStore serves)
  | _ => exact before.trans (.of_eq rfl rfl)

end Quiet

/-! ### Operations -/

section Operations

variable [Nonvolatile ν] {capacity : Nat} {a : Agent ν} {op : Operation ν}

theorem Quiet.accounts (h : Quiet a (a.perform op).2) (idle : Idle capacity a.store)
    (own : a.ownEvent op = none) (takes : a.takesTrace op = false)
    (staged : (a.perform op).2.mailbox.staged = a.waiting op)
    (answer : ∀ failure ∈ op.refusal?, (a.perform op).1 ≠ .error failure) :
    a.Accounts op [] ∧ Idle capacity (a.perform op).2.store := by
  refine ⟨⟨?_, ?_, ?_, ?_, ?_, fun _ => answer⟩, h.idle idle⟩
  · rw [attempts, takes, own]
    rfl
  · exact ⟨_, h.payloads idle, .inr rfl, (List.append_nil _).symm⟩
  · exact fun same => h.dropped.trans same
  · rw [takes]
    exact staged
  · rw [own]
    nofun

theorem Tells.accounts {e : Event} {failure : Failure}
    (h : Tells a (a.waiting op) e .done failure (a.perform op)) (idle : Idle capacity a.store)
    (own : a.ownEvent op = some e) (takes : a.takesTrace op = true)
    (refusal : op.refusal? = some failure) :
    ∃ outcomes, a.Accounts op outcomes ∧ Idle capacity (a.perform op).2.store := by
  obtain ⟨outcomes, kept, attempted, files, answer, emptied⟩ := h
  refine ⟨_, ⟨?_, ?_, files.dropped, ?_, ?_, ?_⟩, files.idle idle⟩
  · rw [List.map_append, attempted, attempts, takes, own]
    rfl
  · exact ⟨_, List.suffix_rfl, .inl rfl, files.payloads idle⟩
  · rw [emptied, takes]
    rfl
  · rw [own, refusal]
    rintro _ ⟨⟩
    rw [List.getLast?_concat, answer]
    cases kept with
    | true => exact .inl ⟨rfl, rfl⟩
    | false => exact .inr ⟨rfl, failure, rfl, rfl⟩
  · rw [own]
    nofun

theorem exists_accounts_of_refused {failure : Failure}
    (refused : a.perform op = (.error failure, a)) (idle : Idle capacity a.store)
    (own : a.ownEvent op = none) (takes : a.takesTrace op = false) (stages : a.stages op = [])
    (other : failure ∉ op.refusal?) :
    ∃ outcomes, a.Accounts op outcomes ∧ Idle capacity (a.perform op).2.store := by
  have quiet : Quiet a (a.perform op).2 := by
    rw [refused]
    exact .of_eq rfl rfl
  refine ⟨_, quiet.accounts idle own takes ?_ ?_⟩
  · rw [refused, waiting, stages]
    rfl
  · rintro failure' mine bad
    rw [refused] at bad
    exact other (Except.error.inj bad ▸ mine)

theorem exists_accounts_collect (idle : Idle capacity a.store) (session : Nat) :
    ∃ outcomes, a.Accounts (.collect session) outcomes ∧
      Idle capacity (a.perform (.collect session)).2.store := by
  by_cases known : session < a.table.catalog.sessionCount
  · have own : a.ownEvent (.collect session) = some (a.currentEvent session) := if_pos known
    have takes : a.takesTrace (.collect session) = true := congrArg Option.isSome own
    have told := tells_reportSession
      { a with platform.lock := a.platform.lock.enter } session
    rw [currentEvent_setLock] at told
    refine Tells.accounts ?_ idle own takes rfl
    rw [perform, Agent.collect, if_pos known, waiting, stages_collect known]
    exact told.locked.finish .metric
  · have refused : a.perform (.collect session) =
        (.error (.metric (.badParameter (.unknownSession session))), a) := by
      rw [perform, Agent.collect, if_neg known]
    have own : a.ownEvent (.collect session) = none := if_neg known
    have unhooked : a.collectionHook session = none := if_neg fun both => known both.1
    exact exists_accounts_of_refused refused idle own (congrArg Option.isSome own)
      (congrArg tracesOf unhooked) (by rintro ⟨⟩)

theorem exists_accounts_capture (idle : Idle capacity a.store) (t : Trace) :
    ∃ outcomes, a.Accounts (.capture t) outcomes ∧
      Idle capacity (a.perform (.capture t)).2.store := by
  have told := tells_reportTrace { a with platform.lock := a.platform.lock.enter } t
  have tells : Tells a (a.waiting (.capture t)) (.trace t) .done (.trace .outOfSpace)
      (a.perform (.capture t)) := told.locked.finish .trace
  exact tells.accounts idle rfl rfl rfl

/-! ### The end of a session -/

section EndSession

variable {session key : Nat}

theorem perform_endSession (duration : a.durationKey session = .ok key) :
    a.perform (.endSession session) =
      finish .metric (a.locked fun a => a.finishSession session key) := by
  rw [perform, Agent.forSession, duration]

theorem exists_accounts_unknownEnd (idle : Idle capacity a.store) {e : MetricError}
    (duration : a.durationKey session = .error e) :
    ∃ outcomes, a.Accounts (.endSession session) outcomes ∧
      Idle capacity (a.perform (.endSession session)).2.store := by
  have refused : a.perform (.endSession session) = (.error (.metric e), a) := by
    rw [perform, Agent.forSession, duration]
  have own : a.ownEvent (.endSession session) = none := by
    show a.endedEvent session = none
    rw [endedEvent, duration]
  have unhooked : a.endingHook session = none := by rw [endingHook, duration]
  refine exists_accounts_of_refused refused idle own (congrArg Option.isSome own)
    (congrArg tracesOf unhooked) ?_
  rintro ⟨⟩
  exact durationKey_ne_outOfSpace a session session duration

theorem exists_accounts_runningEnd (idle : Idle capacity a.store)
    (duration : a.durationKey session = .ok key)
    (running : (a.afterEndHook session).table.isRunning key = .ok true) :
    ∃ outcomes, a.Accounts (.endSession session) outcomes ∧
      Idle capacity (a.perform (.endSession session)).2.store := by
  have own : a.ownEvent (.endSession session) = some (a.endEvent session key) :=
    (ownEvent_endSession duration).trans (if_pos running)
  rw [← a.afterEndHook_setLock_table a.platform.lock.enter session] at running
  have told := tells_finishSession (durationKey_ne_heartbeat duration) running
  rw [endEvent_setLock] at told
  refine Tells.accounts ?_ idle own (congrArg Option.isSome own) rfl
  rw [waiting, stages_endSession duration, perform_endSession duration]
  exact told.locked.finish .metric

/-- A session whose timer stands still behind its hook is refused, and only the hook is seen. -/
theorem exists_accounts_stoppedEnd (idle : Idle capacity a.store)
    (duration : a.durationKey session = .ok key)
    (stopped : (a.afterEndHook session).table.isRunning key ≠ .ok true) :
    ∃ outcomes, a.Accounts (.endSession session) outcomes ∧
      Idle capacity (a.perform (.endSession session)).2.store := by
  have own : a.ownEvent (.endSession session) = none :=
    (ownEvent_endSession duration).trans (if_neg stopped)
  rw [← a.afterEndHook_setLock_table a.platform.lock.enter session] at stopped
  obtain ⟨e, other, refused⟩ := finishSession_of_stopped stopped
  have steps := touches_runHook { a with platform.lock := a.platform.lock.enter }
    (.sessionEnd session) (a.sessionEndHooks.lookup session)
  have hooked : Quiet a (a.locked fun a => a.finishSession session key).2 := by
    have quiet := Quiet.of_touches steps (by decide)
    rw [locked, refused]
    exact ⟨quiet.idle, quiet.payloads, quiet.dropped⟩
  refine ⟨_, Quiet.accounts ?_ idle own (congrArg Option.isSome own) ?_ ?_⟩
  · rw [perform_endSession duration]
    exact hooked
  · rw [perform_endSession duration, waiting, stages_endSession duration, locked, refused]
    exact staged_runHook { a with platform.lock := a.platform.lock.enter } _ _
  · rintro - ⟨⟩ bad
    rw [perform_endSession duration, locked, refused] at bad
    cases bad
    exact other session rfl

theorem exists_accounts_endSession (idle : Idle capacity a.store) (session : Nat) :
    ∃ outcomes, a.Accounts (.endSession session) outcomes ∧
      Idle capacity (a.perform (.endSession session)).2.store := by
  cases duration : a.durationKey session with
  | error e => exact exists_accounts_unknownEnd idle duration
  | ok key =>
      by_cases running : (a.afterEndHook session).table.isRunning key = .ok true
      · exact exists_accounts_runningEnd idle duration running
      · exact exists_accounts_stoppedEnd idle duration running

end EndSession

/-! ### Any operation -/

theorem exists_accounts_flush (idle : Idle capacity a.store) :
    ∃ outcomes, a.Accounts .flush outcomes ∧ Idle capacity (a.perform .flush).2.store := by
  obtain ⟨outcomes, attempted, files, emptied⟩ :=
    exists_files_flushStaged { a with platform.lock := a.platform.lock.enter }
  refine ⟨outcomes, ⟨?_, ?_, files.dropped, emptied, nofun, fun _ => nofun⟩, files.idle idle⟩
  · exact attempted.trans (List.append_nil _).symm
  · exact ⟨_, List.suffix_rfl, .inl rfl, files.payloads idle⟩

theorem exists_accounts_stage (idle : Idle capacity a.store) (t : Trace) :
    ∃ outcomes, a.Accounts (.stage t) outcomes ∧ Idle capacity (a.perform (.stage t)).2.store :=
  ⟨[], Quiet.accounts (.of_eq rfl rfl) idle rfl rfl (a.mailbox.staged_stage t) nofun⟩

theorem exists_accounts_quiet (idle : Idle capacity a.store) (plain : op.isReport = false) :
    ∃ outcomes, a.Accounts op outcomes ∧ Idle capacity (a.perform op).2.store := by
  have steps := touches_perform a op
  obtain ⟨silent, closed⟩ : .records ∉ op.touches ∧ .mailbox ∉ op.touches := by
    cases op <;> simp_all [Operation.isReport, Operation.touches]
  have staged : (a.perform op).2.mailbox.staged = a.mailbox.staged :=
    congrArg Mailbox.staged (steps.within.mailbox closed)
  have own : a.ownEvent op = none := by cases op <;> first | rfl | cases plain
  have takes : a.takesTrace op = false := by cases op <;> first | rfl | cases plain
  have stages : a.stages op = [] := by cases op <;> first | rfl | cases plain
  have refusal : op.refusal? = none := by cases op <;> first | rfl | cases plain
  refine ⟨[], Quiet.accounts (.of_touches steps silent) idle own takes ?_ ?_⟩
  · rw [staged, waiting, stages]
    rfl
  · rw [refusal]
    rintro _ ⟨⟩

theorem exists_accounts (idle : Idle capacity a.store) (op : Operation ν) :
    ∃ outcomes, a.Accounts op outcomes ∧ Idle capacity (a.perform op).2.store := by
  cases op with
  | heartbeat =>
      -- a heartbeat is the collection of session 0 in all that is said here
      obtain ⟨outcomes, h, next⟩ := exists_accounts_collect idle Catalog.heartbeat
      exact ⟨outcomes, ⟨h.attempted, h.store, h.dropped, h.mailbox, h.own, h.other⟩, next⟩
  | collect session => exact exists_accounts_collect idle session
  | endSession session => exact exists_accounts_endSession idle session
  | capture t => exact exists_accounts_capture idle t
  | flush => exact exists_accounts_flush idle
  | stage t => exact exists_accounts_stage idle t
  | _ => exact exists_accounts_quiet idle rfl

/-! ### Lives -/

theorem Accounts.commits_eq {outcomes : List (Event × Bool)} (h : a.Accounts op outcomes) :
    a.commits op = recordsOf a.device outcomes := by
  obtain ⟨older, fewer, whole | nothing, store⟩ := h.store
  · rw [commits, store, whole, List.drop_left]
  · rw [commits, store, nothing]
    show (older ++ []).drop _ = []
    rw [List.append_nil]
    exact List.drop_eq_nil_of_le fewer.length_le

theorem Idle.performAll (idle : Idle capacity a.store) (ops : List (Operation ν)) :
    Idle capacity (a.performAll ops).2.store := by
  induction ops generalizing a with
  | nil => exact idle
  | cons op ops ih =>
      obtain ⟨_, -, next⟩ := exists_accounts idle op
      exact ih next

theorem exists_lost_performAll (idle : Idle capacity a.store) {lost : Nat}
    (dropped : a.droppedEvents = min lost maxDropped) (ops : List (Operation ν)) :
    ∃ more, (a.commitsAll ops).length + more = (a.attemptsAll ops).length ∧
      (a.performAll ops).2.droppedEvents = min (lost + more) maxDropped := by
  induction ops generalizing a lost with
  | nil => exact ⟨0, rfl, dropped⟩
  | cons op ops ih =>
      obtain ⟨outcomes, h, next⟩ := exists_accounts idle op
      obtain ⟨more, balance, last⟩ := ih next (h.dropped dropped)
      have one := length_recordsOf a.device outcomes
      have attempted : (a.attempts op).length = outcomes.length := by
        rw [← h.attempted, List.length_map]
      refine ⟨lostIn outcomes + more, ?_, ?_⟩
      · rw [commitsAll, attemptsAll, List.length_append, List.length_append, h.commits_eq,
          attempted]
        omega
      · rw [← Nat.add_assoc]
        exact last

theorem staged_performAll (idle : Idle capacity a.store) (ops : List (Operation ν)) :
    (a.performAll ops).2.mailbox.staged =
      (a.signalsAll ops).getLast?.getD a.mailbox.staged := by
  induction ops generalizing a with
  | nil => rfl
  | cons op ops ih =>
      obtain ⟨_, h, next⟩ := exists_accounts idle op
      refine (ih next).trans ?_
      rw [h.mailbox, ← getLast?_signals, signalsAll, List.getLast?_append]
      cases ((a.perform op).2.signalsAll ops).getLast? with
      | none => rfl
      | some signal => rfl

end Operations

variable [Nonvolatile ν]

/-- From boot on, the records that were added and the dropped events are together all that was
attempted, the counter of drops staying at its bound, and the trace that waits is the last one
staged since a trace was taken. Whatever comes next is accounted for as well, with a trace that
waits directly in front of the event. -/
theorem records_account_for_attempts {configuration : Configuration} {capacity : Nat}
    {platform : Platform} {a : Agent ν} (booted : boot configuration capacity platform = .ok a)
    (ops : List (Operation ν)) :
    let b := (a.performAll ops).2
    (∃ lost, (a.commitsAll ops).length + lost = (a.attemptsAll ops).length ∧
        b.droppedEvents = min lost maxDropped) ∧
      b.mailbox.staged = (a.signalsAll ops).getLast?.join ∧
      ∀ op, ∃ outcomes, b.Accounts op outcomes := by
  obtain ⟨c, -, sound, -⟩ := boot_eq_ok booted
  have dropped : a.droppedEvents = min 0 maxDropped := (unset_of_boot booted).2
  refine ⟨?_, ?_, ?_⟩
  · obtain ⟨lost, balance, last⟩ := exists_lost_performAll sound.store dropped ops
    rw [Nat.zero_add] at last
    exact ⟨lost, balance, last⟩
  · rw [staged_performAll sound.store ops, (clear_of_boot booted).mailbox]
    cases (a.signalsAll ops).getLast? with
    | none => rfl
    | some signal => rfl
  · intro op
    obtain ⟨outcomes, h, -⟩ := exists_accounts (sound.store.performAll ops) op
    exact ⟨outcomes, h⟩

/-- Hooks stage traces, two of three staged traces are overwritten, and of five attempts the store
of 42 bytes takes three. -/
theorem records_account_for_attempts_over_42 :
    let configuration : Configuration :=
      { device := {}, schema := { sessions := ["run"], metrics := [.unsigned "count"] } }
    let ops : List (Operation Empty) := [.setCollectHook [.stage { reason := 3 }],
      .setSessionEndHook 1 [.stage { reason := 4 }, .stage { reason := 5 }], .startSession 1,
      .stage { reason := 1 }, .stage { reason := 2 }, .heartbeat, .drainOne, .endSession 1,
      .capture { reason := 7 }, .stage { reason := 8 }]
    ∃ a : Agent Empty, boot configuration 42 {} = .ok a ∧
      let b := (a.performAll ops).2
      (a.attemptsAll ops).length = 5 ∧ (a.commitsAll ops).length = 3 ∧ b.droppedEvents = 2 ∧
        b.mailbox.staged = some { reason := 8 } ∧ ∃ outcomes, b.Accounts .heartbeat outcomes := by
  intro configuration ops
  obtain ⟨a, booted, attempted, committed, last⟩ : ∃ a : Agent Empty,
      boot configuration 42 {} = .ok a ∧ (a.attemptsAll ops).length = 5 ∧
        (a.commitsAll ops).length = 3 ∧
        (a.signalsAll ops).getLast?.join = some { reason := 8 } :=
    ⟨_, rfl, by decide +kernel, by decide +kernel, by decide +kernel⟩
  obtain ⟨⟨lost, balance, dropped⟩, staged, next⟩ := records_account_for_attempts booted ops
  obtain rfl : lost = 2 := by omega
  exact ⟨a, booted, attempted, committed, dropped, staged.trans last, next .heartbeat⟩

end Agent

end DeviceTelemetry
