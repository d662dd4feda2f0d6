import DeviceTelemetry.Proofs.Simulation.Life
import DeviceTelemetry.Proofs.TableFrames

/-!
# Rounds of a simulation

Each part of a round succeeds and does what its script says: a metric is of the kind that its
operation expects, and the duration timer of a session stands still when the session begins. So
the rounds of a simulation come to an end, and they are its script (`Live.liveRounds_eq`).
-/

set_option autoImplicit false

namespace DeviceTelemetry

/-- A call on a metric of its kind that asks for no state of a timer is answered. -/
theorem Agent.exists_answer_useTable {ν : Type} {a : Agent ν} (fits : a.table.Fits)
    {call : Table.Call} {key : Nat} {e : Catalog.Entry} (keyed : call.key? = some key)
    (metric : a.table.catalog.metric? key = some e) (works : call.kinds.head? = some e.kind)
    (free : ¬call.Asks a.table) : ∃ answer, (a.useTable call).1 = .ok answer := by
  have allowed : a.table.refusal? call key = none := by
    rw [Table.refusal?, metric]
    dsimp only
    rw [if_pos (List.mem_of_head? works), if_neg free]
  rcases fits.perform_cases keyed with ⟨e', refused, -⟩ | ⟨-, answer, _, _, -, -, -, performed⟩
  · rw [allowed] at refused
    cases refused
  · refine ⟨.metric answer, ?_⟩
    show ((a.table.perform call).1.map Agent.Answer.metric).mapError Failure.metric = _
    rw [performed]
    rfl

namespace Simulation

open Agent (Operation)

def intervalOf (configuration : Configuration) : UInt64 :=
  configuration.heartbeatInterval.toUInt64 * 1000

variable {configuration : Configuration} {c : Catalog} {capacity : Nat}
  {opened : Option Nat} {a : Subject} {schema : Schema} {round session key : Nat}

/-- A loop whose steps perform operations performs them all. -/
theorem foldlM_eq_performAll {α : Type} {xs : List α} {P : Subject → Prop}
    {step : Subject → α → Except Failure Subject} {part : α → List (Operation Empty)}
    (each : ∀ x ∈ xs, ∀ a, P a →
      step a x = .ok (a.performAll (part x)).2 ∧ P (a.performAll (part x)).2) (start : P a) :
    xs.foldlM step a = .ok (a.performAll (xs.flatMap part)).2 := by
  induction xs generalizing a with
  | nil => rfl
  | cons x xs ih =>
      obtain ⟨stepped, next⟩ := each x List.mem_cons_self a start
      rw [List.foldlM_cons, stepped, List.flatMap_cons, Agent.performAll_append]
      exact ih (fun y later => each y (List.mem_cons_of_mem x later)) next

namespace Live

theorem intervalLength_eq (h : Live configuration c capacity opened a) :
    intervalLength a = intervalOf configuration := by
  rw [intervalLength, h.interval, intervalOf]

/-! ### Driving metrics -/

theorem exists_answer (h : Live configuration c capacity opened a) {e : Catalog.Entry}
    (metric : c.metric? key = some e) (other : e.kind ≠ .timer) (round : Nat) :
    ∃ answer, (a.perform (operation round key e.kind)).1 = .ok answer := by
  rw [← h.sound.catalog] at metric
  have slots := h.sound.slots
  cases kind : e.kind with
  | unsigned => exact Agent.exists_answer_useTable slots rfl metric (congrArg some kind.symm) nofun
  | signed => exact Agent.exists_answer_useTable slots rfl metric (congrArg some kind.symm) nofun
  | text => exact Agent.exists_answer_useTable slots rfl metric (congrArg some kind.symm) nofun
  | timer => exact absurd kind other

theorem driveMetric_eq (h : Live configuration c capacity opened a) (round key : Nat) :
    driveMetric round a key = .ok (a.performAll (driving c round key)).2 := by
  unfold driveMetric driving
  rw [h.sound.catalog]
  cases metric : c.metric? key with
  | none => rfl
  | some e =>
      have answered := fun other => h.exists_answer metric other round
      show _ = Except.ok (a.perform (operation round key e.kind)).2
      dsimp only
      generalize a.perform (operation round key e.kind) = outcome at answered
      obtain ⟨result, a'⟩ := outcome
      cases result with
      | ok answer => cases e.kind <;> rfl
      | error failure =>
          cases kind : e.kind with
          | timer => rfl
          | _ =>
              obtain ⟨answer, bad⟩ := answered (by rw [kind]; exact nofun)
              cases bad

theorem driveSession_eq (h : Live configuration c capacity opened a)
    (valid : schema.catalog = .ok c) (round session : Nat) :
    driveSession round session a = .ok (a.performAll (sessionDriving c round session)).2 := by
  unfold driveSession
  rw [h.sound.catalog]
  refine foldlM_eq_performAll (P := Live configuration c capacity opened) ?_ h
  intro key driven a live
  exact ⟨live.driveMetric_eq round key, (live.performAll valid (path_driving valid driven)).1⟩

/-! ### Sessions -/

theorem answer_startSession (h : Live configuration c capacity none a)
    (duration : c.durationKey? session = some key) :
    (a.perform (.startSession session)).1 = .ok .done := by
  have still := Table.isRunning_resetSession (h.timers duration) session
  obtain ⟨t, started⟩ := Table.exists_startTimer still a.now
  have begun : ({ a with platform.lock := a.platform.lock.enter }.beginSession session key).1 =
      .ok () := by
    rw [Agent.beginSession, Agent.alterTable]
    exact congrArg (fun r => (Agent.alterTable _ fun _ => r).1) started
  rw [Agent.perform, Agent.forSession, h.durationKey_eq duration]
  show (({ a with platform.lock := a.platform.lock.enter }.beginSession session key).1.map
    fun _ => Agent.Answer.done).mapError Failure.metric = _
  rw [begun]
  rfl

theorem liveSession_eq (h : Live configuration c capacity none a) (valid : schema.catalog = .ok c)
    (duration : c.durationKey? session = some key) (round : Nat) :
    liveSession round a session =
      .ok (a.performAll (sessionScript c (intervalOf configuration) round session)).2 := by
  have begun := h.answer_startSession duration
  have live := h.perform valid (.start duration)
  have driven := live.driveSession_eq valid round session
  have live' := (live.performAll valid (path_sessionDriving valid round session)).1
  rw [sessionScript, List.cons_append, Agent.performAll]
  dsimp only
  rw [Agent.performAll_append]
  unfold liveSession
  generalize a.perform (.startSession session) = outcome at begun driven live'
  obtain ⟨result, a'⟩ := outcome
  subst begun
  dsimp only at driven live' ⊢
  rw [driven, ← live'.intervalLength_eq]
  rfl

theorem foldlM_liveSession_eq (h : Live configuration c capacity none a)
    (valid : schema.catalog = .ok c) (round : Nat) :
    (c.sessionNumbers.drop 1).foldlM (liveSession round) a =
      .ok (a.performAll ((c.sessionNumbers.drop 1).flatMap
        (sessionScript c (intervalOf configuration) round))).2 := by
  refine foldlM_eq_performAll (P := Live configuration c capacity none) ?_ h
  intro session user a live
  obtain ⟨key, duration⟩ := exists_durationKey? user
  exact ⟨live.liveSession_eq valid duration round,
    (live.performAll valid (path_sessionScript valid duration _)).1⟩

/-! ### Rounds -/

theorem liveRound_eq (h : Live configuration c capacity none a) (valid : schema.catalog = .ok c)
    (round : Nat) :
    liveRound round a = .ok (a.performAll (roundScript c (intervalOf configuration) round)).2 := by
  have driven := h.driveSession_eq valid round Catalog.heartbeat
  have live := (h.performAll valid (path_sessionDriving valid round Catalog.heartbeat)).1
  have lived := live.foldlM_liveSession_eq valid round
  have live' := (live.performAll valid
    (path_sessionScripts valid (intervalOf configuration) round)).1
  unfold liveRound
  rw [driven]
  dsimp only [bind, Except.bind]
  rw [live.sound.catalog, lived]
  dsimp only
  rw [live'.intervalLength_eq, roundScript, Agent.performAll_append, Agent.performAll_append]
  rfl

theorem liveRounds_eq (h : Live configuration c capacity none a) (valid : schema.catalog = .ok c)
    (round count : Nat) :
    liveRounds round a count =
      .ok (a.performAll (script c (intervalOf configuration) round count)).2 := by
  induction count generalizing a round with
  | zero => rfl
  | succ count ih =>
      have next := (h.performAll valid
        (path_roundScript valid (intervalOf configuration) round)).1
      rw [liveRounds, h.liveRound_eq valid round, script, Agent.performAll_append]
      exact ih next (round + 1)

end Live

end Simulation

end DeviceTelemetry
