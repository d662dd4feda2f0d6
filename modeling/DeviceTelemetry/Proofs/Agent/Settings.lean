import DeviceTelemetry.Proofs.Agent.Apart

/-!
# What calls leave alone

Calls on metrics and sessions, and moves of the clock, do nothing to the store but write to it: the
settings of an agent, its hooks and what the reader holds stay as they are, and no record goes
(`Steady.perform`).
-/

set_option autoImplicit false

namespace DeviceTelemetry

open RecordQueue (Represents Grows)

variable {ν : Type}

theorem RecordQueue.batchLimit_writeRecord (q : RecordQueue ν) (payload : Bytes) :
    (q.writeRecord payload).2.batchLimit = q.batchLimit := by
  rcases q.writeRecord_cases payload with refused | ⟨-, kept⟩
  · rw [refused]
  · obtain ⟨reports, same⟩ :=
      RecordQueue.report_eq { q with records := q.records ++ [payload], opened := none }
    rw [kept, RecordQueue.recorded, same]

namespace Agent

/-- What leads from `a` to `b` writes records at most; the settings and the reader stay as they
were. -/
structure Steady (a b : Agent ν) : Prop where
  interval : b.heartbeatInterval = a.heartbeatInterval
  collectHook : b.collectHook = a.collectHook
  sessionEndHooks : b.sessionEndHooks = a.sessionEndHooks
  store : ∀ {q : RecordQueue ν}, Represents a.store q → q.opened = none →
    ∃ q', Represents b.store q' ∧ q'.opened = none ∧ Grows q q' ∧ q'.batchLimit = q.batchLimit

namespace Steady

variable {a b d : Agent ν}

theorem of_eq (interval : b.heartbeatInterval = a.heartbeatInterval)
    (collectHook : b.collectHook = a.collectHook)
    (sessionEndHooks : b.sessionEndHooks = a.sessionEndHooks) (store : b.store = a.store) :
    Steady a b where
  interval := interval
  collectHook := collectHook
  sessionEndHooks := sessionEndHooks
  store h closed := ⟨_, store ▸ h, closed, .refl _, rfl⟩

theorem refl (a : Agent ν) : Steady a a := .of_eq rfl rfl rfl rfl

theorem trans (h : Steady a b) (h' : Steady b d) : Steady a d where
  interval := h'.interval.trans h.interval
  collectHook := h'.collectHook.trans h.collectHook
  sessionEndHooks := h'.sessionEndHooks.trans h.sessionEndHooks
  store represents closed := by
    obtain ⟨q', represents', closed', grows, limit⟩ := h.store represents closed
    obtain ⟨q'', represents'', closed'', grows', limit'⟩ := h'.store represents' closed'
    exact ⟨q'', represents'', closed'', grows.trans grows', limit'.trans limit⟩

theorem record (a : Agent ν) (e : Event) : Steady a (a.record e).2 := by
  have written {q : RecordQueue ν} (represents : Represents a.store q) (closed : q.opened = none) :
      ∃ q', Represents (a.store.recordEvent a.device e).2 q' ∧ q'.opened = none ∧ Grows q q' ∧
        q'.batchLimit = q.batchLimit :=
    ⟨_, (represents.recordEvent a.device e).2, RecordQueue.opened_writeRecord closed _,
      RecordQueue.grows_writeRecord q _, q.batchLimit_writeRecord _⟩
  cases answer : a.store.recordEvent a.device e with
  | mk result s =>
      rw [answer] at written
      cases result with
      | ok n =>
          rw [record_of_ok answer]
          exact ⟨rfl, rfl, rfl, written⟩
      | error error =>
          rw [record_of_error answer]
          exact ⟨rfl, rfl, rfl, written⟩

theorem of_touches {parts : List Part} (steps : Touches parts a b) (reader : .reader ∉ parts)
    (hooks : .hooks ∉ parts) : Steady a b := by
  refine steps.invariant (refl a) ?_
  intro part b d member change before
  cases change with
  | record e => exact before.trans (record b e)
  | serve => exact absurd member reader
  | setHooks => exact absurd member hooks
  | _ => exact before.trans (of_eq rfl rfl rfl rfl)

theorem perform [Nonvolatile ν] (a : Agent ν) {op : Operation ν}
    (call : op.isCall = true ∨ op.movesClock = true) : Steady a (a.perform op).2 := by
  refine of_touches (touches_perform a op) ?_ ?_ <;>
    cases op <;> simp_all [Operation.touches, reportParts, Operation.isCall, Operation.movesClock]

end Steady

end Agent

end DeviceTelemetry
