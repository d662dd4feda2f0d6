import DeviceTelemetry.Proofs.Agent.Apart
import DeviceTelemetry.Proofs.Agent.Timing
import DeviceTelemetry.Proofs.EventFormat

/-!
# Sessions do not interfere

Two lives of a device that differ in operations on one user session only (`DifferIn`) cannot be told
apart by the records of any other session, nor by what other calls answer
(`other_sessions_unaffected`), as long as both find room for their events.
-/

set_option autoImplicit false

namespace DeviceTelemetry

namespace Event

def session? : Event → Option Nat
  | session number _ => some number
  | trace _ => none

/-- The number of the session that a payload reports, as a reader finds it there. -/
def readSession? (payload : Bytes) : Option Nat :=
  match Cbor.decode payload with
  | some (.map [(_, .unsigned 1), _, _, _, _, _, (_, .map [(.unsigned number, _)])]) => some number
  | _ => none

theorem readSession?_encode {device : Device} {e : Event} (inRange : e.InRange)
    (small : (e.encode device).length < 2 ^ 64) :
    readSession? (e.encode device) = e.session? := by
  rw [readSession?, decode_encode inRange small]
  cases e with
  | session number readings => rfl
  | trace t => rfl

end Event

namespace Agent

variable {ν : Type}

/-! ### Lives that differ in one session -/

/-- Two lives, with these clocks at the beginning, that differ in operations on one session only.
The clock may move in different steps, but what both do they do at the same time. -/
inductive DifferIn (c : Catalog) (session : Nat) :
    UInt64 → UInt64 → List (Operation ν) → List (Operation ν) → Prop
  | nil (now now' : UInt64) : DifferIn c session now now' [] []
  | left {now now' : UInt64} {op : Operation ν} {ops ops' : List (Operation ν)}
      (free : op.Concerns c session ∨ op.movesClock = true)
      (rest : DifferIn c session (op.clock now) now' ops ops') :
      DifferIn c session now now' (op :: ops) ops'
  | right {now now' : UInt64} {op : Operation ν} {ops ops' : List (Operation ν)}
      (free : op.Concerns c session ∨ op.movesClock = true)
      (rest : DifferIn c session now (op.clock now') ops ops') :
      DifferIn c session now now' ops (op :: ops')
  | both {now : UInt64} {op : Operation ν} {ops ops' : List (Operation ν)}
      (other : ¬op.Concerns c session)
      (rest : DifferIn c session (op.clock now) (op.clock now) ops ops') :
      DifferIn c session now now (op :: ops) (op :: ops')

section Definitions

variable [Nonvolatile ν]

def sessionRecords (a : Agent ν) (session : Nat) (ops : List (Operation ν)) : List Bytes :=
  (a.commitsAll ops).filter fun payload => Event.readSession? payload = some session

/-- The calls of a life that are not on a session, with their answers. -/
def callsBeside (c : Catalog) (session : Nat) (a : Agent ν) (ops : List (Operation ν)) :
    List (Operation ν × Except Failure Answer) :=
  (ops.zip (a.performAll ops).1).filter fun call =>
    call.1.isCall ∧ ¬call.1.Concerns c session

end Definitions

/-! ### What an operation reports -/

section Events

variable {schema : Schema} {c : Catalog} {device : Device} {capacity session : Nat} {a : Agent ν}

theorem Sound.inRange_currentEvent (h : Sound c device capacity a) (valid : schema.catalog = .ok c)
    {number : Nat} (known : number < c.sessionCount) : (a.currentEvent number).InRange :=
  (h.refresh number).slots.inRange (Schema.session_lt valid known)

theorem Sound.inRange_ownEvent (h : Sound c device capacity a) (valid : schema.catalog = .ok c)
    {op : Operation ν} {e : Event} (own : e ∈ a.ownEvent op) : e.InRange := by
  have collected {number : Nat} (own : e ∈ a.collectedEvent number) : e.InRange := by
    rw [collectedEvent] at own
    split at own
    · rename_i known
      cases own
      rw [h.catalog] at known
      exact h.inRange_currentEvent valid known
    · cases own
  cases op with
  | heartbeat => exact collected own
  | collect number => exact collected own
  | endSession number =>
      replace own : e ∈ a.endedEvent number := own
      rw [endedEvent] at own
      cases duration : a.durationKey number with
      | error e' =>
          rw [duration] at own
          cases own
      | ok key =>
          rw [duration] at own
          dsimp only at own
          split at own
          · cases own
            have known := known_of_durationKey duration
            rw [h.catalog] at known
            have hooked := h.runHook (.sessionEnd number) (a.sessionEndHooks.lookup number)
            have stopped := hooked.alterTable (f := (·.stopTimer key (a.afterEndHook number).now))
              (.stopTimer key (a.afterEndHook number).now) rfl
            exact stopped.inRange_currentEvent valid known
          · cases own
  | capture t =>
      cases own
      trivial
  | _ => cases own

theorem session?_ownEvent {op : Operation ν} (mine : op.Concerns c session) {e : Event}
    (own : e ∈ a.ownEvent op) : e.session? = some session := by
  cases op with
  | collect number =>
      obtain rfl : number = session := mine
      replace own : e ∈ a.collectedEvent number := own
      rw [collectedEvent] at own
      split at own
      · cases own
        rfl
      · cases own
  | endSession number =>
      obtain rfl : number = session := mine
      replace own : e ∈ a.endedEvent number := own
      rw [endedEvent] at own
      split at own
      · cases own
      · split at own
        · cases own
          rfl
        · cases own
  | heartbeat => cases mine
  | capture t => cases mine
  | _ => cases own

end Events

/-! ### Lives without drops -/

theorem callsOnly_of_unhooked {op : Operation ν} (plain : op.setsHook = false) : op.CallsOnly := by
  cases op with
  | setCollectHook hook => cases plain
  | setSessionEndHook number hook => cases plain
  | _ => trivial

theorem Idle.length_lt {capacity : Nat} {s : RecordStore ν} (idle : Idle capacity s)
    {payload : Bytes} (member : payload ∈ s.payloads) : payload.length < 2 ^ 64 := by
  obtain ⟨q, represents, -, -⟩ := idle
  rw [represents.payloads_eq] at member
  have short := represents.fits payload (List.mem_append_left _ member)
  have bound : RecordStore.maxRecordSize < 2 ^ 64 := by decide
  omega

section Lives

variable [Nonvolatile ν] {schema : Schema} {c : Catalog} {device : Device}
  {capacity capacity' session : Nat} {a b : Agent ν} {op : Operation ν}
  {ops ops' : List (Operation ν)}

/-- A life in which no hooks are set and no event is ever dropped. -/
structure Smooth (c : Catalog) (device : Device) (capacity : Nat) (a : Agent ν)
    (ops : List (Operation ν)) : Prop where
  sound : Sound c device capacity a
  plain : ∀ op ∈ ops, op.setsHook = false
  before : a.droppedEvents = 0
  after : (a.performAll ops).2.droppedEvents = 0

theorem Smooth.exists_kept (h : Smooth c device capacity a (op :: ops)) :
    ∃ outcomes, a.Accounts op outcomes ∧ lostIn outcomes = 0 ∧
      (a.perform op).2.droppedEvents = 0 := by
  obtain ⟨outcomes, accounts, idle⟩ := exists_accounts h.sound.store op
  have nothing : a.droppedEvents = min 0 maxDropped := h.before
  have dropped := accounts.dropped nothing
  obtain ⟨more, -, last⟩ := exists_lost_performAll idle dropped ops
  have undropped : (a.performAll (op :: ops)).2.droppedEvents = 0 := h.after
  have bound : 0 < maxDropped := by decide
  rw [performAll] at undropped
  dsimp only at undropped
  rw [last] at undropped
  refine ⟨outcomes, accounts, by omega, ?_⟩
  rw [dropped]
  omega

theorem Smooth.next (h : Smooth c device capacity a (op :: ops)) :
    Smooth c device capacity (a.perform op).2 ops := by
  obtain ⟨outcomes, -, -, undropped⟩ := h.exists_kept
  exact
    { sound := h.sound.perform (callsOnly_of_unhooked (h.plain op List.mem_cons_self))
      plain := fun op' member => h.plain op' (List.mem_cons_of_mem op member)
      before := undropped
      after := h.after }

theorem recordsOf_of_kept {outcomes : List (Event × Bool)} (kept : lostIn outcomes = 0) :
    recordsOf device outcomes = (outcomes.map Prod.fst).map (Event.encode device) := by
  rw [lostIn, List.length_eq_zero_iff, List.filter_eq_nil_iff] at kept
  have all : outcomes.filter (·.2) = outcomes := by
    rw [List.filter_eq_self]
    intro outcome member
    simpa using kept outcome member
  rw [recordsOf, all, List.map_map]
  rfl

theorem Smooth.commits_eq (h : Smooth c device capacity a (op :: ops)) :
    a.commits op = (a.attempts op).map (Event.encode device) := by
  obtain ⟨outcomes, accounts, kept, -⟩ := h.exists_kept
  rw [accounts.commits_eq, recordsOf_of_kept kept, accounts.attempted, h.sound.device]

theorem Smooth.answer (h : Smooth c device capacity a (op :: ops)) {e : Event}
    (own : e ∈ a.ownEvent op) : (a.perform op).1 = .ok .done := by
  obtain ⟨outcomes, accounts, kept, -⟩ := h.exists_kept
  rcases accounts.own e own with ⟨-, ok⟩ | ⟨refused, -⟩
  · exact ok
  · have member : (e, false) ∈ outcomes.filter (!·.2) :=
      List.mem_filter.mpr ⟨List.mem_of_getLast? refused, rfl⟩
    rw [lostIn, List.length_eq_zero_iff] at kept
    rw [kept] at member
    cases member

theorem Smooth.readSession?_encode (h : Smooth c device capacity a (op :: ops))
    (valid : schema.catalog = .ok c) {e : Event} (attempted : e ∈ a.attempts op) :
    Event.readSession? (e.encode device) = e.session? := by
  apply Event.readSession?_encode
  · rcases List.mem_append.mp attempted with trace | own
    · split at trace
      · obtain ⟨t, -, rfl⟩ := Option.map_eq_some_iff.mp (Option.mem_toList.mp trace)
        trivial
      · cases trace
    · exact h.sound.inRange_ownEvent valid (Option.mem_toList.mp own)
  · have added : e.encode device ∈ a.commits op := by
      rw [h.commits_eq]
      exact List.mem_map_of_mem attempted
    exact h.next.sound.store.length_lt (List.mem_of_mem_drop added)

theorem Smooth.filter_commits (h : Smooth c device capacity a (op :: ops))
    (valid : schema.catalog = .ok c) (number : Nat) :
    (a.commits op).filter (fun payload => Event.readSession? payload = some number) =
      ((a.ownEvent op).toList.filter (·.session? = some number)).map (Event.encode device) := by
  have read : (a.attempts op).filter
      ((fun payload => decide (Event.readSession? payload = some number)) ∘ Event.encode device) =
        (a.attempts op).filter (·.session? = some number) := by
    apply List.filter_congr
    intro e attempted
    rw [Function.comp_apply, h.readSession?_encode valid attempted]
  have traces : (if a.takesTrace op then ((a.waiting op).map Event.trace).toList else []).filter
      (·.session? = some number) = [] := by
    rw [List.filter_eq_nil_iff]
    intro e trace
    split at trace
    · obtain ⟨t, -, rfl⟩ := Option.map_eq_some_iff.mp (Option.mem_toList.mp trace)
      simp [Event.session?]
    · cases trace
  rw [h.commits_eq, List.filter_map, read, attempts, List.filter_append, traces, List.nil_append]

theorem sessionRecords_cons (a : Agent ν) (number : Nat) (op : Operation ν)
    (ops : List (Operation ν)) :
    a.sessionRecords number (op :: ops) =
      (a.commits op).filter (fun payload => Event.readSession? payload = some number) ++
        (a.perform op).2.sessionRecords number ops :=
  List.filter_append _ _

theorem callsBeside_cons (c : Catalog) (session : Nat) (a : Agent ν) (op : Operation ν)
    (ops : List (Operation ν)) :
    callsBeside c session a (op :: ops) =
      (if op.isCall ∧ ¬op.Concerns c session then [(op, (a.perform op).1)] else []) ++
        callsBeside c session (a.perform op).2 ops := by
  rw [callsBeside, performAll]
  dsimp only
  rw [List.zip_cons_cons, List.filter_cons]
  split
  · rename_i beside
    rw [if_pos (of_decide_eq_true beside)]
    rfl
  · rename_i mine
    rw [if_neg fun beside => mine (decide_eq_true beside)]
    rfl

theorem Smooth.unseen (h : Smooth c device capacity a (op :: ops))
    (valid : schema.catalog = .ok c) (free : op.Concerns c session ∨ op.movesClock = true) :
    (∀ number, number ≠ session →
        a.sessionRecords number (op :: ops) = (a.perform op).2.sessionRecords number ops) ∧
      callsBeside c session a (op :: ops) = callsBeside c session (a.perform op).2 ops := by
  constructor
  · intro number other
    rw [sessionRecords_cons, h.filter_commits valid]
    have nothing : (a.ownEvent op).toList.filter (·.session? = some number) = [] := by
      rw [List.filter_eq_nil_iff]
      intro e own
      rw [Option.mem_toList] at own
      rcases free with mine | moves
      · rw [session?_ownEvent mine own]
        simpa using other.symm
      · cases op with
        | advance ms => cases own
        | setClock ms => cases own
        | _ => cases moves
    rw [nothing]
    rfl
  · rw [callsBeside_cons, if_neg, List.nil_append]
    rintro ⟨call, beside⟩
    rcases free with mine | moves
    · exact beside mine
    · cases op with
      | advance ms => cases call
      | setClock ms => cases call
      | _ => cases moves

/-- Lives of agents apart that differ in the session only cannot be told apart by other sessions. -/
theorem DifferIn.indistinct {now now' : UInt64} (differ : DifferIn c session now now' ops ops')
    (h : Apart session a b) (life : Smooth c device capacity a ops)
    (life' : Smooth c device capacity' b ops') (valid : schema.catalog = .ok c)
    (user : session ≠ Catalog.heartbeat) (clock : a.now = now) (clock' : b.now = now') :
    (∀ number, number ≠ session → a.sessionRecords number ops = b.sessionRecords number ops') ∧
      callsBeside c session a ops = callsBeside c session b ops' := by
  induction differ generalizing a b with
  | nil now now' => exact ⟨fun _ _ => rfl, rfl⟩
  | @left now now' op ops ops' free rest ih =>
      have validNow : schema.catalog = .ok a.table.catalog := life.sound.catalog ▸ valid
      have freeNow : op.Concerns a.table.catalog session ∨ op.movesClock = true :=
        life.sound.catalog.symm ▸ free
      have stepped : Apart session a (a.perform op).2 :=
        .of_perform h.unhooked user validNow freeNow
      have later := (moved_perform 0 a op).2
      rw [clock] at later
      obtain ⟨records, calls⟩ := ih (stepped.symm.trans h) life.next life' later clock'
      obtain ⟨unseen, unheard⟩ := life.unseen valid free
      refine ⟨?_, unheard.trans calls⟩
      intro number other
      exact (unseen number other).trans (records number other)
  | @right now now' op ops ops' free rest ih =>
      have validNow : schema.catalog = .ok b.table.catalog := life'.sound.catalog ▸ valid
      have freeNow : op.Concerns b.table.catalog session ∨ op.movesClock = true :=
        life'.sound.catalog.symm ▸ free
      have stepped : Apart session b (b.perform op).2 :=
        .of_perform h.unhooked' user validNow freeNow
      have later := (moved_perform 0 b op).2
      rw [clock'] at later
      obtain ⟨records, calls⟩ := ih (h.trans stepped) life life'.next clock later
      obtain ⟨unseen, unheard⟩ := life'.unseen valid free
      refine ⟨?_, calls.trans unheard.symm⟩
      intro number other
      exact (records number other).trans (unseen number other).symm
  | @both now op ops ops' other rest ih =>
      have same : b.now = a.now := clock'.trans clock.symm
      have validNow : schema.catalog = .ok a.table.catalog := life.sound.catalog ▸ valid
      have otherNow : ¬op.Concerns a.table.catalog session := life.sound.catalog.symm ▸ other
      have own := h.ownEvent_eq same user validNow otherNow
      have later := (moved_perform 0 a op).2
      have later' := (moved_perform 0 b op).2
      rw [clock] at later
      rw [clock'] at later'
      obtain ⟨records, calls⟩ := ih
        (h.perform same validNow otherNow (life.plain op List.mem_cons_self)) life.next life'.next
        later later'
      constructor
      · intro number elsewhere
        rw [sessionRecords_cons, sessionRecords_cons, life.filter_commits valid,
          life'.filter_commits valid, own, records number elsewhere]
      · rw [callsBeside_cons, callsBeside_cons, calls]
        refine congrArg (· ++ _) ?_
        split
        · rename_i beside
          have answer : (b.perform op).1 = (a.perform op).1 := by
            cases event : a.ownEvent op with
            | none => exact h.answer_eq same validNow beside.1 otherNow event
            | some e =>
                rw [life.answer event, life'.answer (own.trans event)]
          rw [answer]
        · rfl

end Lives

theorem apart_of_boot {configuration : Configuration} {capacity capacity' : Nat}
    {platform : Platform} {a b : Agent ν} (booted : boot configuration capacity platform = .ok a)
    (booted' : boot configuration capacity' platform = .ok b) (session : Nat) :
    Apart session a b ∧ a.now = platform.clock ∧ b.now = platform.clock := by
  unfold boot at booted booted'
  obtain ⟨c, resolved, booted⟩ := bind_eq_ok.mp booted
  obtain ⟨collectors, found, booted⟩ := bind_eq_ok.mp booted
  obtain ⟨s, -, booted⟩ := bind_eq_ok.mp booted
  obtain ⟨c', resolved', booted'⟩ := bind_eq_ok.mp booted'
  obtain ⟨collectors', found', booted'⟩ := bind_eq_ok.mp booted'
  obtain ⟨s', -, booted'⟩ := bind_eq_ok.mp booted'
  obtain rfl := pure_eq_ok.mp booted
  obtain rfl := pure_eq_ok.mp booted'
  obtain rfl : c' = c := Except.ok.inj (resolved'.symm.trans resolved)
  obtain rfl : collectors' = collectors := Except.ok.inj (found'.symm.trans found)
  exact ⟨⟨.refl session _, rfl, rfl, rfl, ⟨rfl, rfl⟩, ⟨rfl, rfl⟩⟩, rfl, rfl⟩

variable [Nonvolatile ν]

/-- From boot on, operations on a user session do not show anywhere else. Two lives without hooks
that differ in operations on that session only, with any stores that never drop an event, have the
same records of the heartbeat and of every other session, byte for byte and in the same order, and
all calls that are not on the session answer the same. -/
theorem other_sessions_unaffected {configuration : Configuration} {capacity capacity' : Nat}
    {platform : Platform} {a b : Agent ν} (booted : boot configuration capacity platform = .ok a)
    (booted' : boot configuration capacity' platform = .ok b) {session : Nat}
    (user : session ≠ Catalog.heartbeat) {ops ops' : List (Operation ν)}
    (differ : DifferIn a.table.catalog session platform.clock platform.clock ops ops')
    (plain : ∀ op ∈ ops, op.setsHook = false) (plain' : ∀ op ∈ ops', op.setsHook = false)
    (room : (a.performAll ops).2.droppedEvents = 0)
    (room' : (b.performAll ops').2.droppedEvents = 0) :
    (∀ number, number ≠ session → a.sessionRecords number ops = b.sessionRecords number ops') ∧
      callsBeside a.table.catalog session a ops = callsBeside a.table.catalog session b ops' := by
  obtain ⟨c, valid, sound, -⟩ := boot_eq_ok booted
  obtain ⟨c', valid', sound', -⟩ := boot_eq_ok booted'
  obtain rfl : c' = c := Except.ok.inj (valid'.symm.trans valid)
  obtain ⟨apart, clock, clock'⟩ := apart_of_boot booted booted' session
  rw [sound.catalog] at differ ⊢
  exact differ.indistinct apart ⟨sound, plain, (unset_of_boot booted).2, room⟩
    ⟨sound', plain', (unset_of_boot booted').2, room'⟩ valid user clock clock'

/-- One life ends session 1 once and collects it once more, the other leaves it alone. -/
theorem other_sessions_unaffected_by_lap :
    let configuration : Configuration :=
      { device := {}
        schema := {
          sessions := ["lap", "ride"]
          metrics := [.unsigned "count", (MetricDef.signed "drift").inSession "ride",
            (MetricDef.unsigned "turns").inSession "lap"] } }
    let ops : List (Operation Empty) := [.startSession 2, .setSigned 1 (-4), .startSession 1,
      .add 2 7, .add 0 1, .advance 30, .readTimer 3, .endSession 1, .advance 70, .readSigned 1,
      .endSession 2, .collect 1, .heartbeat]
    let ops' : List (Operation Empty) := [.startSession 2, .setSigned 1 (-4), .add 0 1,
      .advance 100, .readSigned 1, .endSession 2, .heartbeat]
    ∃ a b : Agent Empty, boot configuration 256 {} = .ok a ∧ boot configuration 96 {} = .ok b ∧
      DifferIn a.table.catalog 1 0 0 ops ops' ∧
      (a.performAll ops).2.droppedEvents = 0 ∧ (b.performAll ops').2.droppedEvents = 0 ∧
      a.sessionRecords 2 ops = b.sessionRecords 2 ops' ∧
      a.sessionRecords 0 ops = b.sessionRecords 0 ops' ∧
      (a.sessionRecords 2 ops).length = 1 ∧ (a.sessionRecords 1 ops).length = 2 ∧
      callsBeside a.table.catalog 1 a ops = callsBeside a.table.catalog 1 b ops' := by
  intro configuration ops ops'
  obtain ⟨a, booted, catalog, room, one, two⟩ : ∃ a : Agent Empty,
      boot configuration 256 {} = .ok a ∧ DifferIn a.table.catalog 1 0 0 ops ops' ∧
        (a.performAll ops).2.droppedEvents = 0 ∧ (a.sessionRecords 2 ops).length = 1 ∧
        (a.sessionRecords 1 ops).length = 2 := by
    refine ⟨_, rfl, ?_, by decide +kernel, by decide +kernel, by decide +kernel⟩
    refine .both (by decide +kernel) (.both (by decide +kernel) ?_)
    refine .left (.inl (by decide +kernel)) (.left (.inl (by decide +kernel)) ?_)
    refine .both (by decide +kernel) (.left (.inr rfl) ?_)
    refine .left (.inl (by decide +kernel)) (.left (.inl (by decide +kernel)) ?_)
    refine .left (.inr rfl) (.right (.inr rfl) ?_)
    refine .both (by decide +kernel) (.both (by decide +kernel) ?_)
    exact .left (.inl (by decide +kernel)) (.both (by decide +kernel) (.nil _ _))
  obtain ⟨b, booted', room'⟩ : ∃ b : Agent Empty,
      boot configuration 96 {} = .ok b ∧ (b.performAll ops').2.droppedEvents = 0 :=
    ⟨_, rfl, by decide +kernel⟩
  obtain ⟨records, calls⟩ := other_sessions_unaffected booted booted' (by decide) catalog
    (by simp [ops, Operation.setsHook]) (by simp [ops', Operation.setsHook]) room room'
  exact ⟨a, b, booted, booted', catalog, room, room', records 2 (by decide), records 0 (by decide),
    one, two, calls⟩

end Agent

end DeviceTelemetry
