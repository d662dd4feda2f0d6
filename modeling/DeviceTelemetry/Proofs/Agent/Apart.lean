import DeviceTelemetry.Proofs.Agent.Accounting
import DeviceTelemetry.Proofs.TablesApart

/-!
# Agents that differ in one session

Two agents without hooks are apart in a session if nothing but their stores, mailboxes, clocks and
the slots of that session tells them apart (`Agent.Apart`). An operation on the session leads to an
agent apart from the one it was performed on (`Apart.of_perform`), and any other operation keeps two
agents apart if both perform it at the same time (`Apart.perform`).
-/

set_option autoImplicit false

namespace DeviceTelemetry.Agent

variable {ν : Type}

/-- The operations on a session: on its metrics, and its start, end and collection. -/
def Operation.Concerns (c : Catalog) (session : Nat) : Operation ν → Prop
  | .setUnsigned key _ | .setSigned key _ | .setText key _ | .add key _ => c.InSession session key
  | .startTimer key | .stopTimer key | .readTimer key => c.InSession session key
  | .readUnsigned key | .readSigned key | .readText key | .readTextInto key _ =>
    c.InSession session key
  | .startSession number | .endSession number | .collect number => number = session
  | _ => False

instance (c : Catalog) (session : Nat) : (op : Operation ν) → Decidable (op.Concerns c session)
  | .setUnsigned key _ | .setSigned key _ | .setText key _ | .add key _ | .startTimer key
  | .stopTimer key | .readTimer key | .readUnsigned key | .readSigned key | .readText key
  | .readTextInto key _ => inferInstanceAs (Decidable (c.InSession session key))
  | .startSession number | .endSession number | .collect number =>
    inferInstanceAs (Decidable (number = session))
  | .heartbeat | .describe | .setCollectHook _ | .setSessionEndHook _ _ | .observe
  | .setBatchLimit _ | .changeConnection _ | .countSync _ | .setUnexpectedReboot _
  | .attachMonitor | .stopDischarging | .stage _ | .isPending | .capture _ | .flush | .persist
  | .keyOf _ | .hasMore | .read _ _ | .markRead | .drainOne | .drain _ | .attach _
  | .alterBacking _ | .setGauge _ | .advance _ | .setClock _ => inferInstanceAs (Decidable False)

def Operation.isCall : Operation ν → Bool
  | .setUnsigned _ _ | .setSigned _ _ | .setText _ _ | .add _ _ => true
  | .startTimer _ | .stopTimer _ | .readTimer _ => true
  | .readUnsigned _ | .readSigned _ | .readText _ | .readTextInto _ _ => true
  | .startSession _ | .endSession _ | .collect _ | .heartbeat => true
  | _ => false

def Operation.movesClock : Operation ν → Bool
  | .advance _ | .setClock _ => true
  | _ => false

def Operation.setsHook : Operation ν → Bool
  | .setCollectHook _ | .setSessionEndHook _ _ => true
  | _ => false

theorem Operation.unhooked {op : Operation ν} (plain : op.setsHook = false) :
    .hooks ∉ op.touches := by
  cases op <;> simp_all [touches, reportParts, setsHook]

theorem Operation.Concerns.isCall {c : Catalog} {session : Nat} {op : Operation ν}
    (h : op.Concerns c session) : op.isCall = true := by
  cases op <;> first | rfl | cases h

/-- Of the calls, only the reading into a buffer leaves the table alone. -/
theorem Operation.table_mem_touches {op : Operation ν} (call : op.isCall = true)
    (other : ∀ key buffer, op ≠ .readTextInto key buffer) : .table ∈ op.touches := by
  cases op <;> simp_all [Operation.isCall, touches, reportParts]

theorem Operation.concerns_of_call? {now : UInt64} {op : Operation ν} {call : Table.Call}
    (made : op.call? now = some call) (c : Catalog) (session : Nat) :
    ∃ key, call.key? = some key ∧ (op.Concerns c session ↔ c.InSession session key) := by
  cases op <;> cases made <;> exact ⟨_, rfl, Iff.rfl⟩

/-! ### Agents apart -/

/-- Two agents without hooks whose tables are apart in a session. Their stores, mailboxes and clocks
may differ. -/
structure Apart (session : Nat) (a b : Agent ν) : Prop where
  table : Table.Apart session a.table b.table
  device : b.device = a.device
  collectors : b.collectors = a.collectors
  gauge : b.platform.gauge = a.platform.gauge
  unhooked : a.collectHook = none ∧ a.sessionEndHooks = []
  unhooked' : b.collectHook = none ∧ b.sessionEndHooks = []

/-- What leads from `a` to `b` concerns records, traces, the lock and the clock only. -/
structure Keeps (a b : Agent ν) : Prop where
  table : b.table = a.table
  device : b.device = a.device
  collectors : b.collectors = a.collectors
  gauge : b.platform.gauge = a.platform.gauge
  collectHook : b.collectHook = a.collectHook
  sessionEndHooks : b.sessionEndHooks = a.sessionEndHooks

section Keeps

variable {a b d : Agent ν}

theorem Keeps.refl (a : Agent ν) : Keeps a a :=
  ⟨rfl, rfl, rfl, rfl, rfl, rfl⟩

theorem Keeps.of_touches {parts : List Part} (steps : Touches parts a b)
    (table : .table ∉ parts) (collectors : .collectors ∉ parts) (hooks : .hooks ∉ parts)
    (gauge : .gauge ∉ parts) : Keeps a b where
  table := steps.within.table table
  device := steps.within.device
  collectors := steps.within.collectors collectors
  gauge := steps.within.gauge gauge
  collectHook := steps.within.collectHook hooks
  sessionEndHooks := steps.within.sessionEndHooks hooks

theorem Keeps.flushStaged (a : Agent ν) : Keeps a a.flushStaged.2 :=
  .of_touches (touches_flushStaged a) (by decide) (by decide) (by decide) (by decide)

theorem Keeps.record (a : Agent ν) (e : Event) : Keeps a (a.record e).2 :=
  .of_touches (touches_record a e) (by decide) (by decide) (by decide) (by decide)

end Keeps

section Apart

variable {session : Nat} {a b d : Agent ν}

namespace Apart

theorem refl (unhooked : a.collectHook = none ∧ a.sessionEndHooks = []) : Apart session a a :=
  ⟨.refl session a.table, rfl, rfl, rfl, unhooked, unhooked⟩

theorem symm (h : Apart session a b) : Apart session b a :=
  ⟨h.table.symm, h.device.symm, h.collectors.symm, h.gauge.symm, h.unhooked', h.unhooked⟩

theorem trans (h : Apart session a b) (h' : Apart session b d) : Apart session a d :=
  ⟨h.table.trans h'.table, h'.device.trans h.device, h'.collectors.trans h.collectors,
    h'.gauge.trans h.gauge, h.unhooked, h'.unhooked'⟩

theorem keeps {a' b' : Agent ν} (h : Apart session a b) (kept : Keeps a a') (kept' : Keeps b b') :
    Apart session a' b' where
  table := by
    rw [kept.table, kept'.table]
    exact h.table
  device := kept'.device.trans (h.device.trans kept.device.symm)
  collectors := kept'.collectors.trans (h.collectors.trans kept.collectors.symm)
  gauge := kept'.gauge.trans (h.gauge.trans kept.gauge.symm)
  unhooked := by
    rw [kept.collectHook, kept.sessionEndHooks]
    exact h.unhooked
  unhooked' := by
    rw [kept'.collectHook, kept'.sessionEndHooks]
    exact h.unhooked'

theorem setTable (h : Apart session a b) {t t' : Table} (tables : Table.Apart session t t') :
    Apart session { a with table := t } { b with table := t' } :=
  { h with table := tables }

theorem enter (h : Apart session a b) :
    Apart session { a with platform.lock := a.platform.lock.enter }
      { b with platform.lock := b.platform.lock.enter } :=
  h.keeps ⟨rfl, rfl, rfl, rfl, rfl, rfl⟩ ⟨rfl, rfl, rfl, rfl, rfl, rfl⟩

theorem locked {α : Type} {f g : Agent ν → α × Agent ν}
    (h : Apart session (f { a with platform.lock := a.platform.lock.enter }).2
      (g { b with platform.lock := b.platform.lock.enter }).2) :
    Apart session (a.locked f).2 (b.locked g).2 :=
  h.keeps ⟨rfl, rfl, rfl, rfl, rfl, rfl⟩ ⟨rfl, rfl, rfl, rfl, rfl, rfl⟩

theorem of_locked {α : Type} {f : Agent ν → α × Agent ν}
    (h : Apart session { a with platform.lock := a.platform.lock.enter }
      (f { a with platform.lock := a.platform.lock.enter }).2) :
    Apart session a (a.locked f).2 :=
  h.keeps ⟨rfl, rfl, rfl, rfl, rfl, rfl⟩ ⟨rfl, rfl, rfl, rfl, rfl, rfl⟩

end Apart

theorem answer_finish_locked {ε : Type} {f g : Agent ν → Except ε Unit × Agent ν}
    {failure : ε → Failure}
    (same : (g { b with platform.lock := b.platform.lock.enter }).1 =
      (f { a with platform.lock := a.platform.lock.enter }).1) :
    (finish failure (b.locked g)).1 = (finish failure (a.locked f)).1 := by
  unfold finish locked
  dsimp only
  rw [same]

/-! ### Reports without hooks -/

theorem afterEndHook_of_unhooked (unhooked : a.collectHook = none ∧ a.sessionEndHooks = [])
    (number : Nat) : a.afterEndHook number = a := by
  rw [afterEndHook, unhooked.2]
  rfl

theorem refresh_of_unhooked (unhooked : a.collectHook = none ∧ a.sessionEndHooks = [])
    (number : Nat) :
    a.refresh number =
      if number = Catalog.heartbeat then
        let collected :=
          a.collectors.collect (a.table.tallySession number a.now) a.platform.gauge a.now
        { a with table := collected.1, collectors := collected.2 }
      else { a with table := a.table.tallySession number a.now } := by
  rw [refresh]
  dsimp only
  rw [unhooked.1]
  rfl

theorem finishSession_of_unhooked (unhooked : a.collectHook = none ∧ a.sessionEndHooks = [])
    (number key : Nat) :
    a.finishSession number key =
      match (a.table.perform (.stopTimer key a.now)).1 with
      | .ok _ => { a with table := (a.table.perform (.stopTimer key a.now)).2 }.reportSession number
      | .error e => (.error e, { a with table := (a.table.perform (.stopTimer key a.now)).2 }) := by
  rw [finishSession, ← afterEndHook, afterEndHook_of_unhooked unhooked, alterTable_eq,
    Table.perform]
  cases (a.table.settle (a.table.stopTimer key a.now)).1 with
  | ok answer => rfl
  | error e => rfl

theorem endEvent_of_unhooked (unhooked : a.collectHook = none ∧ a.sessionEndHooks = [])
    (number key : Nat) :
    a.endEvent number key =
      { a with table := (a.table.perform (.stopTimer key a.now)).2 }.currentEvent number := by
  rw [endEvent, afterEndHook_of_unhooked unhooked, alterTable_eq]
  rfl

namespace Apart

theorem refresh (h : Apart session a b) (same : b.now = a.now) (number : Nat) :
    Apart session (a.refresh number) (b.refresh number) := by
  have tallied := h.table.tallySession number a.now
  rw [refresh_of_unhooked h.unhooked, refresh_of_unhooked h.unhooked', same, h.collectors, h.gauge]
  split
  · obtain ⟨collected, remembered⟩ :=
      a.collectors.apart_collect tallied a.platform.gauge a.now
    exact ⟨collected, h.device, remembered, h.gauge, h.unhooked, h.unhooked'⟩
  · exact ⟨tallied, h.device, rfl, h.gauge, h.unhooked, h.unhooked'⟩

theorem currentEvent_eq (h : Apart session a b) (same : b.now = a.now) {number : Nat}
    (other : number ≠ session) : b.currentEvent number = a.currentEvent number :=
  (h.refresh same number).table.sessionEvent_eq other

theorem reportSession (h : Apart session a b) (same : b.now = a.now) (number : Nat) :
    Apart session (a.reportSession number).2 (b.reportSession number).2 := by
  rw [reportSession_eq, reportSession_eq]
  have flushed := (h.refresh same number).keeps (.flushStaged _) (.flushStaged _)
  have recorded := flushed.keeps (.record _ (a.currentEvent number))
    (.record _ (b.currentEvent number))
  exact recorded.setTable (recorded.table.resetSession number)

theorem of_reportSession (unhooked : a.collectHook = none ∧ a.sessionEndHooks = [])
    (user : session ≠ Catalog.heartbeat) : Apart session a (a.reportSession session).2 := by
  have start : Apart session a a := refl unhooked
  have refreshed : a.refresh session =
      { a with table := a.table.tallySession session a.now } := if_neg user
  have tallied : Apart session a (a.refresh session) := by
    rw [refreshed]
    exact { start with table := .of_tallySession session a.table a.now }
  have flushed := tallied.keeps (.refl a) (.flushStaged _)
  have recorded := flushed.keeps (.refl a) (.record _ (a.currentEvent session))
  rw [reportSession_eq]
  exact { recorded with table := recorded.table.trans (.of_resetSession session _) }

end Apart

/-! ### Duration timers -/

variable {c : Catalog} {schema : Schema}

theorem inSession_durationKey (valid : schema.catalog = .ok a.table.catalog) {number key : Nat}
    (duration : a.durationKey number = .ok key) : a.table.catalog.InSession number key :=
  Schema.inSession_durationKey? valid (durationKey_eq_ok.mp duration)

namespace Apart

theorem durationKey_eq (h : Apart session a b) (number : Nat) :
    b.durationKey number = a.durationKey number := by
  unfold Agent.durationKey
  rw [h.table.catalog]

theorem finishSession (h : Apart session a b) (same : b.now = a.now) {number key : Nat}
    (elsewhere : ¬a.table.catalog.InSession session key) :
    Apart session (a.finishSession number key).2 (b.finishSession number key).2 := by
  have stopped := h.setTable (h.table.perform (.stopTimer key a.now))
  have keyed : (Table.Call.stopTimer key a.now).key? = some key := rfl
  have answer := h.table.answer_eq keyed elsewhere
  rw [finishSession_of_unhooked h.unhooked, finishSession_of_unhooked h.unhooked', same, answer]
  cases (a.table.perform (.stopTimer key a.now)).1 with
  | ok answered => exact stopped.reportSession same number
  | error e => exact stopped

theorem of_finishSession (unhooked : a.collectHook = none ∧ a.sessionEndHooks = [])
    (user : session ≠ Catalog.heartbeat) {key : Nat}
    (mine : a.table.catalog.InSession session key) :
    Apart session a (a.finishSession session key).2 := by
  have start : Apart session a a := refl unhooked
  have stopped : Apart session a
      { a with table := (a.table.perform (.stopTimer key a.now)).2 } :=
    { start with table := .of_perform rfl mine }
  rw [finishSession_of_unhooked unhooked]
  cases (a.table.perform (.stopTimer key a.now)).1 with
  | ok answered => exact stopped.trans (of_reportSession stopped.unhooked' user)
  | error e => exact stopped

theorem beginSession (h : Apart session a b) (same : b.now = a.now) (number key : Nat) :
    Apart session (a.beginSession number key).2 (b.beginSession number key).2 := by
  have started := (h.table.resetSession number).perform (.startTimer key a.now)
  unfold Agent.beginSession
  rw [alterTable_eq, alterTable_eq]
  dsimp only
  rw [show b.now = a.now from same]
  exact h.setTable started

theorem of_beginSession (unhooked : a.collectHook = none ∧ a.sessionEndHooks = []) {key : Nat}
    (mine : a.table.catalog.InSession session key) :
    Apart session a (a.beginSession session key).2 := by
  have start : Apart session a a := refl unhooked
  have reset : Table.Apart session a.table (a.table.resetSession session) :=
    .of_resetSession session a.table
  have keyed : (Table.Call.startTimer key a.now).key? = some key := rfl
  rw [Agent.beginSession, alterTable_eq]
  exact { start with table := reset.trans (.of_perform keyed mine) }

theorem useTable (h : Apart session a b) (call : Table.Call) :
    Apart session (a.useTable call).2 (b.useTable call).2 :=
  ⟨h.table.perform call, h.device, h.collectors, h.gauge, h.unhooked, h.unhooked'⟩

theorem of_useTable (unhooked : a.collectHook = none ∧ a.sessionEndHooks = []) {call : Table.Call}
    {key : Nat} (keyed : call.key? = some key) (mine : a.table.catalog.InSession session key) :
    Apart session a (a.useTable call).2 :=
  ⟨.of_perform keyed mine, rfl, rfl, rfl, unhooked, unhooked⟩

theorem forSession (h : Apart session a b) (same : b.now = a.now) (number : Nat)
    {f : Agent ν → Nat → Except MetricError Unit × Agent ν}
    (step : ∀ {a' b' : Agent ν} {key : Nat}, Apart session a' b' → b'.now = a'.now →
      a'.table.catalog = a.table.catalog → a.durationKey number = .ok key →
        Apart session (f a' key).2 (f b' key).2) :
    Apart session (a.forSession number f).2 (b.forSession number f).2 := by
  unfold Agent.forSession
  rw [h.durationKey_eq]
  cases duration : a.durationKey number with
  | error e => exact h
  | ok key =>
      exact Apart.locked (f := fun a => f a key) (g := fun b => f b key)
        (step h.enter same rfl duration)

theorem collect (h : Apart session a b) (same : b.now = a.now) (number : Nat) :
    Apart session (a.collect number).2 (b.collect number).2 := by
  unfold Agent.collect
  rw [h.table.catalog]
  split
  · exact Apart.locked (f := fun a => a.reportSession number)
      (g := fun b => b.reportSession number) (h.enter.reportSession same number)
  · exact h

theorem changeCollectors (h : Apart session a b)
    {f g : Agent ν → Collectors → Except MetricError Collectors}
    (alike : ∀ l l' : Lock, g { b with platform.lock := l' } = f { a with platform.lock := l }) :
    Apart session (a.locked fun a => a.alterCollectors (f a)).2
      (b.locked fun b => b.alterCollectors (g b)).2 := by
  unfold Agent.locked Agent.alterCollectors
  dsimp only
  rw [alike a.platform.lock.enter, h.collectors]
  cases f { a with platform.lock := a.platform.lock.enter } a.collectors with
  | ok c => exact ⟨h.table, h.device, rfl, h.gauge, h.unhooked, h.unhooked'⟩
  | error e => exact ⟨h.table, h.device, rfl, h.gauge, h.unhooked, h.unhooked'⟩

theorem countSync (h : Apart session a b) (success : Bool) :
    Apart session (a.locked fun a => a.alterTable fun t => a.collectors.countSync t success).2
      (b.locked fun b => b.alterTable fun t => b.collectors.countSync t success).2 := by
  have alike := a.collectors.alike_countSync h.table success
  unfold Agent.locked Agent.alterTable
  dsimp only
  rw [h.collectors]
  generalize a.collectors.countSync a.table success = result at alike
  generalize a.collectors.countSync b.table success = result' at alike
  cases alike with
  | ok tables => exact ⟨tables, h.device, rfl, h.gauge, h.unhooked, h.unhooked'⟩
  | error e e' => exact ⟨h.table, h.device, rfl, h.gauge, h.unhooked, h.unhooked'⟩

theorem changeConnection (h : Apart session a b) (same : b.now = a.now)
    (state : ConnectionState) :
    Apart session
      (a.locked fun a =>
        let (result, table) := a.collectors.changeConnection a.table state a.now
        (result, { a with table })).2
      (b.locked fun b =>
        let (result, table) := b.collectors.changeConnection b.table state b.now
        (result, { b with table })).2 := by
  have changed := a.collectors.apart_changeConnection h.table state a.now
  refine ⟨?_, h.device, h.collectors, h.gauge, h.unhooked, h.unhooked'⟩
  show Table.Apart session _ (b.collectors.changeConnection b.table state b.now).2
  rw [h.collectors, same]
  exact changed

theorem answer_beginSession (h : Apart session a b) (same : b.now = a.now) (number : Nat)
    {key : Nat} (elsewhere : ¬a.table.catalog.InSession session key) :
    (b.beginSession number key).1 = (a.beginSession number key).1 := by
  have keyed : (Table.Call.startTimer key a.now).key? = some key := rfl
  have began := (h.table.resetSession number).answer_eq keyed elsewhere
  rw [Agent.beginSession, Agent.beginSession, alterTable_eq, alterTable_eq, same]
  exact congrArg (Except.map fun _ => ()) began

theorem answer_finishSession (h : Apart session a b) (same : b.now = a.now) (number : Nat)
    {key : Nat} (elsewhere : ¬a.table.catalog.InSession session key)
    (stopped : a.table.isRunning key ≠ .ok true) :
    (b.finishSession number key).1 = (a.finishSession number key).1 := by
  have keyed : (Table.Call.stopTimer key a.now).key? = some key := rfl
  have answer := h.table.answer_eq keyed elsewhere
  rw [finishSession_of_unhooked h.unhooked, finishSession_of_unhooked h.unhooked', same, answer,
    Table.perform]
  cases result : a.table.stopTimer key a.now with
  | ok t => exact absurd (Table.isRunning_of_stopTimer result) stopped
  | error e => rfl

theorem answer_collect (h : Apart session a b) {number : Nat}
    (unknown : a.collectedEvent number = none) : (b.collect number).1 = (a.collect number).1 := by
  rw [collectedEvent] at unknown
  unfold Agent.collect
  rw [h.table.catalog]
  split
  · rename_i known
    rw [if_pos known] at unknown
    cases unknown
  · rfl

theorem answer_useTable (h : Apart session a b) {call : Table.Call} {key : Nat}
    (keyed : call.key? = some key) (elsewhere : ¬a.table.catalog.InSession session key) :
    (b.useTable call).1 = (a.useTable call).1 := by
  unfold Agent.useTable Agent.locked
  dsimp only
  rw [h.table.answer_eq keyed elsewhere]

/-- Both are about to report the same, unless it is the session's. -/
theorem ownEvent_eq (h : Apart session a b) (same : b.now = a.now)
    (user : session ≠ Catalog.heartbeat) (valid : schema.catalog = .ok a.table.catalog)
    {op : Operation ν} (other : ¬op.Concerns a.table.catalog session) :
    b.ownEvent op = a.ownEvent op := by
  cases op with
  | heartbeat =>
      show b.collectedEvent Catalog.heartbeat = a.collectedEvent Catalog.heartbeat
      rw [collectedEvent, collectedEvent, h.table.catalog, h.currentEvent_eq same user.symm]
  | collect number =>
      show b.collectedEvent number = a.collectedEvent number
      rw [collectedEvent, collectedEvent, h.table.catalog, h.currentEvent_eq same other]
  | endSession number =>
      show b.endedEvent number = a.endedEvent number
      unfold endedEvent
      rw [h.durationKey_eq]
      cases duration : a.durationKey number with
      | error e => rfl
      | ok key =>
          have elsewhere : ¬a.table.catalog.InSession session key :=
            fun mine => other (mine.unique (inSession_durationKey valid duration))
          have stopped := h.setTable (h.table.perform (.stopTimer key a.now))
          have event : b.endEvent number key = a.endEvent number key := by
            rw [endEvent_of_unhooked h.unhooked, endEvent_of_unhooked h.unhooked', same]
            exact stopped.currentEvent_eq same other
          dsimp only
          rw [afterEndHook_of_unhooked h.unhooked, afterEndHook_of_unhooked h.unhooked',
            h.table.isRunning_eq elsewhere, event]
  | _ => rfl

variable [Nonvolatile ν]

theorem setGauge (h : Apart session a b) (gauge : Gauge) :
    Apart session (a.perform (.setGauge gauge)).2 (b.perform (.setGauge gauge)).2 :=
  ⟨h.table, h.device, h.collectors, rfl, h.unhooked, h.unhooked'⟩

theorem tend (h : Apart session a b) (same : b.now = a.now) {op : Operation ν}
    (table : .table ∉ op.touches) (tends : .collectors ∈ op.touches) :
    Apart session (a.perform op).2 (b.perform op).2 := by
  cases op with
  | setUnexpectedReboot unexpected =>
      exact h.changeCollectors (f := fun _ => (·.setUnexpectedReboot unexpected))
        (g := fun _ => (·.setUnexpectedReboot unexpected)) fun _ _ => rfl
  | attachMonitor =>
      refine h.changeCollectors (f := fun a => (·.attachMonitor a.platform.gauge a.now))
        (g := fun b => (·.attachMonitor b.platform.gauge b.now)) fun l l' => ?_
      show (fun c : Collectors => c.attachMonitor b.platform.gauge b.now) = _
      rw [h.gauge, same]
      rfl
  | stopDischarging =>
      exact h.changeCollectors (f := fun _ => (·.stopDischarging))
        (g := fun _ => (·.stopDischarging)) fun _ _ => rfl
  | _ => simp [Operation.touches, reportParts] at table tends

/-- An operation on another session, or on none, keeps agents apart if the clock is the same. -/
theorem perform (h : Apart session a b) (same : b.now = a.now)
    (valid : schema.catalog = .ok a.table.catalog) {op : Operation ν}
    (other : ¬op.Concerns a.table.catalog session) (plain : op.setsHook = false) :
    Apart session (a.perform op).2 (b.perform op).2 := by
  cases op using Operation.table_cases a.now with
  | metric call =>
      rw [perform_of_call? call, perform_of_call? (same ▸ call)]
      exact h.useTable _
  | startSession number =>
      exact h.forSession same number fun h same _ _ => h.beginSession same number _
  | endSession number =>
      refine h.forSession same number fun h same catalog duration => h.finishSession same ?_
      rw [catalog]
      exact fun mine => other (mine.unique (inSession_durationKey valid duration))
  | collect number => exact h.collect same number
  | heartbeat => exact h.collect same Catalog.heartbeat
  | describe =>
      refine ⟨?_, h.device, h.collectors, h.gauge, h.unhooked, h.unhooked'⟩
      show Table.Apart session _ (b.table.tallySession Catalog.heartbeat b.now)
      rw [same]
      exact h.table.tallySession Catalog.heartbeat a.now
  | changeConnection state => exact h.changeConnection same state
  | countSync success => exact h.countSync success
  | @other op table =>
      by_cases tends : .collectors ∈ op.touches
      · exact h.tend same table tends
      by_cases measured : .gauge ∈ op.touches
      · cases op with
        | setGauge gauge => exact h.setGauge gauge
        | _ => simp [Operation.touches, reportParts] at measured
      have hooks := Operation.unhooked plain
      exact h.keeps (.of_touches (touches_perform a op) table tends hooks measured)
        (.of_touches (touches_perform b op) table tends hooks measured)

/-- An operation on the session is not seen outside of it, and the clock is not seen at all. -/
theorem of_perform (unhooked : a.collectHook = none ∧ a.sessionEndHooks = [])
    (user : session ≠ Catalog.heartbeat) (valid : schema.catalog = .ok a.table.catalog)
    {op : Operation ν} (free : op.Concerns a.table.catalog session ∨ op.movesClock = true) :
    Apart session a (a.perform op).2 := by
  have start : Apart session a a := refl unhooked
  rcases free with mine | moves
  · cases op using Operation.table_cases a.now with
    | metric call =>
        obtain ⟨key, keyed, concerns⟩ :=
          Operation.concerns_of_call? call a.table.catalog session
        rw [perform_of_call? call]
        exact of_useTable unhooked keyed (concerns.mp mine)
    | startSession number =>
        obtain rfl : number = session := mine
        rw [Agent.perform, Agent.forSession]
        cases duration : a.durationKey number with
        | error e => exact start
        | ok key =>
            have inside := inSession_durationKey valid duration
            refine of_locked (f := fun a => a.beginSession number key) (of_beginSession ?_ ?_)
            · exact unhooked
            · exact inside
    | endSession number =>
        obtain rfl : number = session := mine
        rw [Agent.perform, Agent.forSession]
        cases duration : a.durationKey number with
        | error e => exact start
        | ok key =>
            have inside := inSession_durationKey valid duration
            refine of_locked (f := fun a => a.finishSession number key)
              (of_finishSession ?_ user ?_)
            · exact unhooked
            · exact inside
    | collect number =>
        obtain rfl : number = session := mine
        rw [Agent.perform, Agent.collect]
        split
        · exact of_locked (f := fun a => a.reportSession number) (of_reportSession unhooked user)
        · exact start
    | @other op table =>
        cases op with
        | readTextInto key buffer =>
            exact start.keeps (.refl a) (.of_touches (touches_readTextInto a key buffer) (by decide)
              (by decide) (by decide) (by decide))
        | _ => exact absurd (Operation.table_mem_touches mine.isCall (by rintro _ _ ⟨⟩)) table
    | _ => cases mine
  · cases op with
    | advance ms => exact start.keeps (.refl a) ⟨rfl, rfl, rfl, rfl, rfl, rfl⟩
    | setClock ms => exact start.keeps (.refl a) ⟨rfl, rfl, rfl, rfl, rfl, rfl⟩
    | _ => cases moves

theorem answer_readTextInto (h : Apart session a b) {key : Nat}
    (elsewhere : ¬a.table.catalog.InSession session key) (buffer : Bytes) :
    (b.perform (.readTextInto key buffer)).1 = (a.perform (.readTextInto key buffer)).1 := by
  have read : b.table.readText key = a.table.readText key := h.table.readText_eq elsewhere
  rw [Agent.perform, Agent.perform, Agent.readTextInto, Agent.readTextInto]
  split
  · rfl
  · unfold Agent.locked
    dsimp only
    rw [read]
    cases a.table.readText key with
    | error e => rfl
    | ok s => rfl

/-- A call that has nothing to report answers the same, unless it is on the session. -/
theorem answer_eq (h : Apart session a b) (same : b.now = a.now)
    (valid : schema.catalog = .ok a.table.catalog) {op : Operation ν} (call : op.isCall = true)
    (other : ¬op.Concerns a.table.catalog session) (silent : a.ownEvent op = none) :
    (b.perform op).1 = (a.perform op).1 := by
  cases op using Operation.table_cases a.now with
  | metric made =>
      obtain ⟨key, keyed, concerns⟩ := Operation.concerns_of_call? made a.table.catalog session
      rw [perform_of_call? made, perform_of_call? (same ▸ made)]
      exact h.answer_useTable keyed (mt concerns.mpr other)
  | startSession number =>
      rw [Agent.perform, Agent.perform, Agent.forSession, Agent.forSession, h.durationKey_eq]
      cases duration : a.durationKey number with
      | error e => rfl
      | ok key =>
          have elsewhere : ¬a.table.catalog.InSession session key :=
            fun mine => other (mine.unique (inSession_durationKey valid duration))
          exact answer_finish_locked (f := fun a => a.beginSession number key)
            (g := fun b => b.beginSession number key)
            (h.enter.answer_beginSession same number elsewhere)
  | endSession number =>
      replace silent : a.endedEvent number = none := silent
      rw [endedEvent] at silent
      rw [Agent.perform, Agent.perform, Agent.forSession, Agent.forSession, h.durationKey_eq]
      cases duration : a.durationKey number with
      | error e => rfl
      | ok key =>
          have elsewhere : ¬a.table.catalog.InSession session key :=
            fun mine => other (mine.unique (inSession_durationKey valid duration))
          rw [duration, afterEndHook_of_unhooked h.unhooked] at silent
          have stopped : a.table.isRunning key ≠ .ok true := by
            intro running
            dsimp only at silent
            rw [if_pos running] at silent
            cases silent
          exact answer_finish_locked (f := fun a => a.finishSession number key)
            (g := fun b => b.finishSession number key)
            (h.enter.answer_finishSession same number elsewhere stopped)
  | collect number => exact h.answer_collect silent
  | heartbeat => exact h.answer_collect silent
  | @other op table =>
      cases op with
      | readTextInto key buffer => exact h.answer_readTextInto other buffer
      | _ => exact absurd (Operation.table_mem_touches call (by rintro _ _ ⟨⟩)) table
  | _ => cases call

end Apart

end Apart

end DeviceTelemetry.Agent
