import DeviceTelemetry.Proofs.Agent.Accounting
import DeviceTelemetry.Proofs.Agent.RunningTime

/-!
# The time that a session reports

The record of a session shows for a timer no more than the time since the session began, together
with what the timer had not yet added up at that moment (`session_shows_time_since_lead`): the
beginning of a session forgets what its timers have added up, but not since when they run. This
lead of a timer is shown in full if the timer runs on, so a session can report more time than it
took (`session_shows_time_before`). What a timer shows at most is its `Timer.credit`: no move that
is made at the present time adds to it, and it grows with the clock at most as fast as the clock.
-/

set_option autoImplicit false

namespace DeviceTelemetry

/-! ### Credit -/

namespace Timer

/-- The part of the present interval that has not been added up. -/
def pending (t : Timer) (now : UInt64) : Nat :=
  match t.startedAt with
  | none => 0
  | some start => between start (phase now)

/-- What a timer shows as soon as it is up to date. -/
def credit (t : Timer) (now : UInt64) : Nat := t.elapsed + t.pending now

def Move.At (now : UInt64) (move : Move) : Prop := ∀ time ∈ move.time?, time = now

theorem between_self (start : Nat) : between start start = 0 := by
  rw [between, if_pos (Nat.le_refl start), Nat.sub_self]

/-- An interval grows by what the clock moves on, unless that takes it over the period. -/
theorem between_le_add (start : Nat) {now later : UInt64} (forward : now.toNat ≤ later.toNat) :
    between start (phase later) ≤ between start (phase now) + (later.toNat - now.toNat) := by
  unfold between phase period
  -- whether the clock has gone round since the start, now and later
  split
  · split
    · omega
    · omega
  · split
    · omega
    · omega

theorem between_eq_add {start : Nat} (inside : start < period) {now later : UInt64}
    (forward : now.toNat ≤ later.toNat)
    (short : between start (phase now) + (later.toNat - now.toNat) < period) :
    between start (phase later) = between start (phase now) + (later.toNat - now.toNat) := by
  unfold between at *
  by_cases ahead : start ≤ phase now
  · rw [if_pos ahead] at short ⊢
    unfold phase period at *
    split
    · omega
    · omega
  · rw [if_neg ahead] at short ⊢
    unfold phase period at *
    split
    · omega
    · omega

variable {now : UInt64}

theorem pending_of_started {t : Timer} (started : t.startedAt = some (phase now)) :
    t.pending now = 0 := by
  rw [pending, started]
  exact between_self _

theorem credit_tally_le (t : Timer) (now : UInt64) : (t.tally now).credit now ≤ t.credit now := by
  unfold credit
  simp only [Timer.tally]
  cases dated : t.startedAt with
  | none => exact Nat.le_refl _
  | some start =>
      dsimp only
      rw [pending_of_started rfl, pending, dated]
      exact Nat.min_le_left _ _

theorem credit_move_le (t : Timer) {move : Move} (dated : move.At now) :
    (t.move move).credit now ≤ t.credit now := by
  cases move with
  | start time =>
      obtain rfl := dated time rfl
      simp only [Timer.move, start?]
      cases started : t.startedAt with
      | none =>
          rw [Option.getD_some, credit, pending_of_started rfl]
          exact Nat.le_add_right _ _
      | some start => exact Nat.le_refl _
  | stop time =>
      obtain rfl := dated time rfl
      simp only [Timer.move, stop?]
      cases started : t.startedAt with
      | none => exact Nat.le_refl _
      | some start =>
          rw [Option.map_some, Option.getD_some, credit, credit, pending, pending, started]
          exact Nat.min_le_left _ _
  | tally time =>
      obtain rfl := dated time rfl
      exact t.credit_tally_le time
  | reset => exact Nat.add_le_add_right (Nat.zero_le _) _
  | clear => exact Nat.zero_le _

theorem credit_moveAll_le (t : Timer) {moves : List Move} (dated : ∀ move ∈ moves, move.At now) :
    (t.moveAll moves).credit now ≤ t.credit now := by
  induction moves generalizing t with
  | nil => exact Nat.le_refl _
  | cons move moves ih =>
      exact Nat.le_trans (ih _ fun later member => dated later (List.mem_cons_of_mem _ member))
        (t.credit_move_le (dated move List.mem_cons_self))

theorem credit_le_add (t : Timer) {later : UInt64} (forward : now.toNat ≤ later.toNat) :
    t.credit later ≤ t.credit now + (later.toNat - now.toNat) := by
  unfold credit pending
  cases t.startedAt with
  | none => exact Nat.le_add_right _ _
  | some start =>
      have grown := between_le_add start forward
      dsimp only
      omega

/-- The start of the present interval is a reading that the timer tells apart from all others. -/
def InPhase (t : Timer) : Prop := ∀ start ∈ t.startedAt, start < period

theorem inPhase_of_started {t : Timer} (started : t.startedAt = some (phase now)) :
    t.InPhase := by
  rw [InPhase, started]
  rintro _ ⟨⟩
  exact phase_lt now

theorem InPhase.move {t : Timer} (h : t.InPhase) (move : Move) : (t.move move).InPhase := by
  obtain ⟨elapsed, recorded, startedAt⟩ := t
  cases startedAt with
  | none =>
      cases move with
      | start time => exact inPhase_of_started rfl
      | _ => exact h
  | some start =>
      cases move with
      | start time => exact h
      | stop time => exact nofun
      | tally time => exact inPhase_of_started rfl
      | reset => exact h
      | clear => exact nofun

theorem InPhase.moveAll {t : Timer} (h : t.InPhase) (moves : List Move) :
    (t.moveAll moves).InPhase := by
  induction moves generalizing t with
  | nil => exact h
  | cons move moves ih => exact ih (h.move move)

/-- A timer that has been running since `start` with nothing added up shows all of that time. -/
theorem shown_tally_reset {t : Timer} {start : Nat} (started : t.startedAt = some start)
    (short : between start (phase now) < period) :
    (t.reset.tally now).shown = some (between start (phase now)) := by
  obtain ⟨elapsed, recorded, startedAt⟩ := t
  obtain rfl : startedAt = some start := started
  show some (min (0 + between start (phase now)) maxElapsed) = _
  unfold maxElapsed
  congr 1
  omega

theorem shown_le_credit (t : Timer) (now : UInt64) : t.shown.getD 0 ≤ t.credit now := by
  rw [shown]
  split
  · exact Nat.le_add_right _ _
  · exact Nat.zero_le _

end Timer

/-! ### Moves of an agent -/

def HookStep.time? : HookStep → Option UInt64
  | .call c => c.time?
  | .stage _ => none

def HookStep.At (now : UInt64) (step : HookStep) : Prop := ∀ time ∈ step.time?, time = now

def HookAt (now : UInt64) (hook : Hook) : Prop := ∀ step ∈ hook, step.At now

instance (now : UInt64) (step : HookStep) : Decidable (step.At now) :=
  -- the instance that search finds may go through all clock readings
  @Option.decidableForallMem UInt64 (· = now) _ step.time?

instance (now : UInt64) (hook : Hook) : Decidable (HookAt now hook) :=
  inferInstanceAs (Decidable (∀ step ∈ hook, step.At now))

theorem Table.Call.moves_at {now : UInt64} (c : Catalog) (key : Nat) {call : Call}
    (dated : ∀ time ∈ call.time?, time = now) : ∀ move ∈ call.moves c key, move.At now := by
  cases call with
  | startTimer key' time => exact Timer.Move.forall_mem_ite _ dated
  | stopTimer key' time => exact Timer.Move.forall_mem_ite _ dated
  | readTimer key' time => exact Timer.Move.forall_mem_ite _ dated
  | tallySession session time => exact Timer.Move.forall_mem_ite _ dated
  | resetSession session => exact Timer.Move.forall_mem_ite _ nofun
  | resetAll =>
      intro move member
      rw [List.mem_singleton.mp member]
      nofun
  | _ => nofun

theorem hookMoves_at {now : UInt64} (c : Catalog) (key : Nat) {hook : Option Hook}
    (dated : ∀ h ∈ hook, HookAt now h) : ∀ move ∈ hookMoves c key hook, move.At now := by
  cases hook with
  | none => nofun
  | some hook =>
      intro move member
      obtain ⟨step, inside, member⟩ := List.mem_flatMap.mp member
      cases step with
      | call call => exact Table.Call.moves_at c key (dated hook rfl _ inside) move member
      | stage t => cases member

theorem Collectors.time?_of_mem_connectionCalls (c : Collectors) {state : ConnectionState}
    {now : UInt64} {call : Table.Call} (member : call ∈ c.connectionCalls state now) :
    call.time? = some now := by
  obtain ⟨connectivity, sync, reliability, battery⟩ := c
  cases connectivity with
  | none => cases member
  | some connectivity =>
      have each : ∀ call ∈ connectivity.calls now state, call.time? = some now := by
        cases state with
        | stopped => exact List.forall_mem_cons.mpr ⟨rfl, List.forall_mem_singleton.mpr rfl⟩
        | started => exact List.forall_mem_singleton.mpr rfl
        | connected => exact List.forall_mem_cons.mpr ⟨rfl, List.forall_mem_singleton.mpr rfl⟩
        | lost => exact List.forall_mem_cons.mpr ⟨rfl, List.forall_mem_singleton.mpr rfl⟩
      exact each call member

namespace Agent

variable {ν : Type}

/-- The part of a timer's present interval that the table has not added up. -/
def lead (a : Agent ν) (key : Nat) : Nat :=
  match a.table.slots[key]? with
  | some (.timer t) => t.pending a.now
  | _ => 0

section Timely

variable [Nonvolatile ν]

/-- The clock does not go back, and hooks go by it. -/
def Timely (a : Agent ν) : List (Operation ν) → Prop
  | [] => True
  | op :: ops =>
    a.now.toNat ≤ (op.clock a.now).toNat ∧ (∀ hook ∈ a.hookOf op, HookAt a.now hook) ∧
      Timely (a.perform op).2 ops

def LeavesAlone (key : Nat) (a : Agent ν) : List (Operation ν) → Prop
  | [] => True
  | op :: ops => a.moves key op = [] ∧ LeavesAlone key (a.perform op).2 ops

instance decidableTimely (a : Agent ν) : (ops : List (Operation ν)) → Decidable (a.Timely ops)
  | [] => isTrue trivial
  | op :: ops =>
    have := decidableTimely (a.perform op).2 ops
    inferInstanceAs (Decidable (_ ∧ _ ∧ _))

instance decidableLeavesAlone (key : Nat) (a : Agent ν) :
    (ops : List (Operation ν)) → Decidable (a.LeavesAlone key ops)
  | [] => isTrue trivial
  | op :: ops =>
    have := decidableLeavesAlone key (a.perform op).2 ops
    inferInstanceAs (Decidable (_ ∧ _))

end Timely

theorem callMoves_at (a : Agent ν) (key : Nat) {call : Table.Call}
    (dated : ∀ time ∈ call.time?, time = a.now) : ∀ move ∈ a.callMoves key call, move.At a.now :=
  Table.Call.moves_at _ key dated

theorem callMoves_at_now (a : Agent ν) (key : Nat) {call : Table.Call}
    (timed : call.time? = some a.now) : ∀ move ∈ a.callMoves key call, move.At a.now :=
  a.callMoves_at key fun _ now => (Option.some.inj (timed.symm.trans now)).symm

theorem collectionMoves_at (a : Agent ν) (key session : Nat)
    (hooks : ∀ hook ∈ a.collectionHook session, HookAt a.now hook) :
    ∀ move ∈ a.collectionMoves key session, move.At a.now := by
  unfold collectionMoves
  split
  · rw [List.forall_mem_append, List.forall_mem_append]
    exact ⟨⟨a.callMoves_at_now key rfl, hookMoves_at _ key hooks⟩, a.callMoves_at key nofun⟩
  · nofun

theorem moves_at (a : Agent ν) (key : Nat) {op : Operation ν}
    (hooks : ∀ hook ∈ a.hookOf op, HookAt a.now hook) :
    ∀ move ∈ a.moves key op, move.At a.now := by
  cases op with
  | startTimer key' => exact a.callMoves_at_now key rfl
  | stopTimer key' => exact a.callMoves_at_now key rfl
  | readTimer key' => exact a.callMoves_at_now key rfl
  | describe => exact a.callMoves_at_now key rfl
  | collect session => exact a.collectionMoves_at key session hooks
  | heartbeat => exact a.collectionMoves_at key Catalog.heartbeat hooks
  | startSession session =>
      show ∀ move ∈ a.beginningMoves key session, _
      unfold beginningMoves
      cases a.durationKey session with
      | error e => nofun
      | ok duration =>
          exact List.forall_mem_append.mpr ⟨a.callMoves_at key nofun, a.callMoves_at_now key rfl⟩
  | endSession session =>
      show ∀ move ∈ a.endingMoves key session, _
      unfold endingMoves
      cases a.durationKey session with
      | error e => nofun
      | ok duration =>
          rw [List.forall_mem_append, List.forall_mem_append]
          refine ⟨⟨hookMoves_at _ key hooks, a.callMoves_at_now key rfl⟩, ?_⟩
          split
          · exact List.forall_mem_append.mpr ⟨a.callMoves_at_now key rfl, a.callMoves_at key nofun⟩
          · nofun
  | changeConnection state =>
      intro move member
      obtain ⟨call, inside, member⟩ := List.mem_flatMap.mp member
      exact a.callMoves_at_now key (a.collectors.time?_of_mem_connectionCalls inside) move member
  | _ => nofun

/-! ### One session -/

section Session

variable {a : Agent ν} {session duration key : Nat} {t : Timer}

theorem lead_eq (here : a.table.HasTimer key t) : a.lead key = t.pending a.now := by
  rw [lead, show a.table.slots[key]? = some (.timer t) from here]

theorem finish_eq_done {ε : Type} {failure : ε → Failure} {r : Except ε Unit × Agent ν}
    (done : (finish failure r).1 = .ok .done) : r.1 = .ok () := by
  obtain ⟨result, a'⟩ := r
  cases result with
  | ok => rfl
  | error e => cases done

theorem startTimer_of_beginSession (begun : (a.beginSession session duration).1 = .ok ()) :
    ∃ t', (a.table.resetSession session).startTimer duration a.now = .ok t' := by
  unfold beginSession alterTable at begun
  dsimp only at begun
  split at begun
  · exact ⟨_, ‹_›⟩
  · cases begun

theorem stopped_of_startTimer {table table' : Table} {now : UInt64}
    (started : table.startTimer key now = .ok table') (here : table.HasTimer key t) :
    t.startedAt = none := by
  obtain ⟨old, new, there, moved, -⟩ := Table.startTimer_eq_ok.mp started
  obtain rfl := here.unique there
  unfold Timer.start? at moved
  split at moved
  · cases moved
  · assumption

/-- The record of a session is what it shows behind the hook, the stop of the duration timer and a
last tally. -/
theorem exists_passes_endEvent (key : Nat) (found : a.durationKey session = .ok duration)
    (running : (a.afterEndHook session).table.isRunning duration = .ok true) :
    ∃ b : Agent ν, Passes key a b (a.sideMoves key (.endSession session) ++
        a.callMoves key (.stopTimer duration a.now) ++
        a.callMoves key (.tallySession session a.now)) ∧
      a.endEvent session duration = b.table.sessionEvent session := by
  obtain ⟨b, stopped, -, event⟩ := exists_passes_stopped key a found running
  have refreshed := passes_refresh key b session
  rw [if_neg (durationKey_ne_heartbeat found), hookMoves_none, List.append_nil,
    stopped.callMoves_eq, stopped.now] at refreshed
  exact ⟨_, stopped.trans refreshed, event⟩

theorem timeOf_endEvent (fits : a.table.Fits) (found : a.durationKey session = .ok duration)
    (running : (a.afterEndHook session).table.isRunning duration = .ok true)
    (member : a.table.catalog.InSession session key) (here : a.table.HasTimer key t) :
    (a.endEvent session duration).timeOf a.table.catalog key =
      (t.moveAll (a.sideMoves key (.endSession session) ++
        a.callMoves key (.stopTimer duration a.now) ++ [.tally a.now])).shown.getD 0 := by
  obtain ⟨b, whole, event⟩ := exists_passes_endEvent key found running
  have tally : a.callMoves key (.tallySession session a.now) = [.tally a.now] := if_pos member
  have keys := Catalog.mem_sessionKeys.mpr member
  rw [tally] at whole
  rw [← whole.catalog] at keys
  rw [event, ← whole.catalog]
  exact Table.timeOf_sessionEvent (fits.follows whole.moved.follows) keys (whole.moved.timer here)

theorem exists_readings_endEvent (fits : a.table.Fits)
    (found : a.durationKey session = .ok duration)
    (running : (a.afterEndHook session).table.isRunning duration = .ok true) :
    ∃ readings, a.endEvent session duration = .session session readings ∧
      readings.length = (a.table.catalog.sessionKeys session).length := by
  obtain ⟨b, whole, event⟩ := exists_passes_endEvent 0 found running
  have each := (fits.follows whole.moved.follows).forall₂_readings session
  rw [whole.catalog] at each
  exact ⟨_, event, each.length_eq.symm⟩

theorem lead_eq_zero (stopped : ∀ t, a.table.HasTimer key t → t.startedAt = none) :
    a.lead key = 0 := by
  unfold lead
  split
  · rw [Timer.pending, stopped _ ‹_›]
  · rfl

theorem lead_of_still (still : a.table.isRunning key = .ok false) : a.lead key = 0 := by
  refine lead_eq_zero fun t here => ?_
  obtain ⟨t', here', isRunning⟩ := Table.isRunning_eq_ok.mp still
  obtain rfl := here.unique here'
  exact Option.isNone_iff_eq_none.mp (Option.isSome_eq_false_iff.mp isRunning)

variable [Nonvolatile ν]

theorem durationKey_of_started (started : (a.perform (.startSession session)).1 = .ok .done) :
    ∃ duration, a.durationKey session = .ok duration ∧
      ∀ t, a.table.HasTimer duration t → t.startedAt = none := by
  rw [perform, forSession] at started
  cases found : a.durationKey session with
  | error e =>
      rw [found] at started
      cases started
  | ok duration =>
      rw [found] at started
      obtain ⟨table, begun⟩ := startTimer_of_beginSession (finish_eq_done started)
      refine ⟨duration, rfl, ?_⟩
      intro t here
      have reset := (Table.moved_perform duration a.table (.resetSession session)).timer here
      rw [Table.Call.moves, Table.moveAll_ite] at reset
      have stopped := stopped_of_startTimer begun reset
      split at stopped
      · exact stopped
      · exact stopped

theorem lead_durationKey (started : (a.perform (.startSession session)).1 = .ok .done)
    (found : a.durationKey session = .ok key) : a.lead key = 0 := by
  obtain ⟨duration, found', stopped⟩ := durationKey_of_started started
  rw [found] at found'
  cases found'
  exact lead_eq_zero stopped

/-- What the beginning of a session leaves of the timers in it: their lead. -/
theorem hasTimer_startSession (found : a.durationKey session = .ok duration)
    (member : a.table.catalog.InSession session key) (here : a.table.HasTimer key t) :
    (a.perform (.startSession session)).2.table.HasTimer key
      (if duration = key then t.reset.move (.start a.now) else t.reset) := by
  have began := (moved_perform key a (.startSession session)).1.timer here
  have moves : a.moves key (.startSession session) =
      [.reset] ++ if duration = key then [.start a.now] else [] := by
    have reset : a.callMoves key (.resetSession session) = [.reset] := if_pos member
    show a.beginningMoves key session = _
    rw [beginningMoves, found]
    dsimp only
    rw [reset]
    rfl
  rw [moves, Timer.moveAll_append, Table.moveAll_ite] at began
  exact began

theorem endedEvent_of_done (ended : (a.perform (.endSession session)).1 = .ok .done) :
    ∃ duration, a.durationKey session = .ok duration ∧
      (a.afterEndHook session).table.isRunning duration = .ok true ∧
      a.endedEvent session = some (a.endEvent session duration) := by
  rw [perform, forSession] at ended
  cases found : a.durationKey session with
  | error e =>
      rw [found] at ended
      cases ended
  | ok duration =>
      rw [found] at ended
      have finished := finish_eq_done ended
      have running : (a.afterEndHook session).table.isRunning duration = .ok true := by
        rw [← a.afterEndHook_setLock_table a.platform.lock.enter session]
        by_contra stopped
        obtain ⟨e, -, refused⟩ := finishSession_of_stopped stopped
        rw [locked, refused] at finished
        cases finished
      exact ⟨duration, rfl, running, by rw [endedEvent, found]; exact if_pos running⟩

theorem getLast?_payloads_endSession {capacity : Nat} (idle : Idle capacity a.store)
    (ended : (a.perform (.endSession session)).1 = .ok .done) {e : Event}
    (event : a.endedEvent session = some e) :
    (a.perform (.endSession session)).2.store.payloads.getLast? = some (e.encode a.device) := by
  obtain ⟨outcomes, h, -⟩ := exists_accounts idle (.endSession session)
  obtain ⟨older, -, -, payloads⟩ := h.store
  rcases h.own e event with ⟨last, -⟩ | ⟨-, failure, -, refused⟩
  · obtain ⟨first, rfl⟩ := List.getLast?_eq_some_iff.mp last
    have one : recordsOf a.device [(e, true)] = [e.encode a.device] := rfl
    rw [payloads, recordsOf_append, one, ← List.append_assoc, List.getLast?_concat]
  · rw [ended] at refused
    cases refused

/-! ### From the beginning to the end -/

theorem timely_append {first second : List (Operation ν)} :
    a.Timely (first ++ second) ↔ a.Timely first ∧ (a.performAll first).2.Timely second := by
  induction first generalizing a with
  | nil => exact ⟨fun h => ⟨trivial, h⟩, fun h => h.2⟩
  | cons op ops ih =>
      constructor
      · rintro ⟨forward, hooks, rest⟩
        exact ⟨⟨forward, hooks, (ih.mp rest).1⟩, (ih.mp rest).2⟩
      · rintro ⟨⟨forward, hooks, rest⟩, last⟩
        exact ⟨forward, hooks, ih.mpr ⟨rest, last⟩⟩

/-- The credit of a timer grows no faster than the clock. -/
theorem Timely.credit_le {ops : List (Operation ν)} (timely : a.Timely ops)
    (here : a.table.HasTimer key t) :
    let b := (a.performAll ops).2
    a.now.toNat ≤ b.now.toNat ∧ ∃ t', b.table.HasTimer key t' ∧
      t'.credit b.now ≤ t.credit a.now + (b.now.toNat - a.now.toNat) := by
  -- an operation first does all it does to the timer, and then the clock moves on
  induction ops generalizing a t with
  | nil => exact ⟨Nat.le_refl _, t, here, Nat.le_add_right _ _⟩
  | cons op ops ih =>
      obtain ⟨forward, hooks, timely⟩ := timely
      obtain ⟨moved, now⟩ := moved_perform key a op
      obtain ⟨later, t', there, most⟩ := ih timely (moved.timer here)
      have one := t.credit_moveAll_le (a.moves_at key hooks)
      have passed := (t.moveAll (a.moves key op)).credit_le_add forward
      rw [now] at later most
      refine ⟨Nat.le_trans forward later, t', there, ?_⟩
      show t'.credit ((a.perform op).2.performAll ops).2.now ≤
        t.credit a.now + (((a.perform op).2.performAll ops).2.now.toNat - a.now.toNat)
      omega

theorem LeavesAlone.hasTimer {ops : List (Operation ν)} (alone : a.LeavesAlone key ops)
    (here : a.table.HasTimer key t) : (a.performAll ops).2.table.HasTimer key t := by
  induction ops generalizing a with
  | nil => exact here
  | cons op ops ih =>
      obtain ⟨nothing, alone⟩ := alone
      have one := (moved_perform key a op).1.timer here
      rw [nothing] at one
      exact ih alone one

end Session

section Bounds

variable {x y z : Agent ν} {session duration key : Nat} {t : Timer}

theorem durationKey_congr (same : y.table.catalog = x.table.catalog) (session : Nat) :
    y.durationKey session = x.durationKey session := by
  unfold durationKey
  rw [same]

variable [Nonvolatile ν] {during : List (Operation ν)}

theorem now_of_started (started : x.perform (.startSession session) = (.ok .done, y)) :
    y.now = x.now := by
  have still := (moved_perform 0 x (.startSession session)).2
  rw [started] at still
  exact still

theorem follows_of_lived (started : x.perform (.startSession session) = (.ok .done, y))
    (passed : (y.performAll during).2 = z) : Table.Follows x.table z.table := by
  have begun := (moved_perform 0 x (.startSession session)).1.follows
  obtain ⟨moves, moved⟩ := exists_moved_performAll 0 y during
  rw [started] at begun
  rw [passed] at moved
  exact begun.trans moved.follows

theorem timeOf_endEvent_le (started : x.perform (.startSession session) = (.ok .done, y))
    (passed : (y.performAll during).2 = z) (timely : y.Timely (during ++ [.endSession session]))
    (fits : z.table.Fits) (found : z.durationKey session = .ok duration)
    (running : (z.afterEndHook session).table.isRunning duration = .ok true)
    (member : x.table.catalog.InSession session key) (here : x.table.HasTimer key t) :
    x.now.toNat ≤ z.now.toNat ∧ (z.endEvent session duration).timeOf z.table.catalog key ≤
      z.now.toNat - x.now.toNat + x.lead key := by
  have clock := now_of_started started
  have catalog := (follows_of_lived started passed).catalog
  obtain ⟨duration', found', -⟩ := durationKey_of_started (congrArg Prod.fst started)
  have began := hasTimer_startSession found' member here
  rw [started] at began
  obtain ⟨timely, -, hooks, -⟩ := timely_append.mp timely
  obtain ⟨later, t', there, grown⟩ := timely.credit_le began
  rw [passed] at hooks
  rw [passed, clock] at later grown
  rw [passed] at there
  -- to start the duration timer adds nothing to what the reset leaves
  have first : (if duration' = key then t.reset.move (.start x.now) else t.reset).credit x.now ≤
      x.lead key := by
    have reset : t.reset.credit x.now = x.lead key := by
      rw [lead_eq here]
      exact Nat.zero_add _
    rw [← reset]
    split
    · exact t.reset.credit_move_le fun _ now => (Option.some.inj now).symm
    · exact Nat.le_refl _
  have ending : ∀ move ∈ z.sideMoves key (.endSession session) ++
      z.callMoves key (.stopTimer duration z.now) ++ [.tally z.now], move.At z.now := by
    rw [List.forall_mem_append, List.forall_mem_append, List.forall_mem_singleton]
    exact ⟨⟨hookMoves_at _ key hooks, z.callMoves_at_now key rfl⟩,
      fun _ now => (Option.some.inj now).symm⟩
  have last := t'.credit_moveAll_le ending
  rw [timeOf_endEvent fits found running (catalog ▸ member) there]
  refine ⟨later, ?_⟩
  have shown := (t'.moveAll (z.sideMoves key (.endSession session) ++
    z.callMoves key (.stopTimer duration z.now) ++ [.tally z.now])).shown_le_credit z.now
  omega

theorem timeOf_endEvent_eq (started : x.perform (.startSession session) = (.ok .done, y))
    (passed : (y.performAll during).2 = z) (fits : z.table.Fits)
    (found : z.durationKey session = .ok duration)
    (running : (z.afterEndHook session).table.isRunning duration = .ok true)
    (member : x.table.catalog.InSession session key) (here : x.table.HasTimer key t)
    (inPhase : t.InPhase) (ahead : t.isRunning = true) (alone : y.LeavesAlone key during)
    (spared : z.sideMoves key (.endSession session) = [])
    (forward : x.now.toNat ≤ z.now.toNat)
    (short : z.now.toNat - x.now.toNat + x.lead key < Timer.period) :
    (z.endEvent session duration).timeOf z.table.catalog key =
      z.now.toNat - x.now.toNat + x.lead key := by
  obtain ⟨start, dated⟩ := Option.isSome_iff_exists.mp ahead
  have catalog := (follows_of_lived started passed).catalog
  obtain ⟨duration', found', stopped⟩ := durationKey_of_started (congrArg Prod.fst started)
  have other : duration' ≠ key := by
    rintro rfl
    rw [stopped t here] at dated
    cases dated
  have same : duration' = duration := by
    rw [durationKey_congr catalog, found'] at found
    exact Except.ok.inj found
  have began := hasTimer_startSession found' member here
  rw [started, if_neg other] at began
  have there := alone.hasTimer began
  rw [passed] at there
  have stop : z.callMoves key (.stopTimer duration z.now) = [] := if_neg (same ▸ other)
  have pending : x.lead key = Timer.between start (Timer.phase x.now) := by
    rw [lead_eq here, Timer.pending, dated]
  have grown := Timer.between_eq_add (inPhase start dated) forward (by omega)
  rw [timeOf_endEvent fits found running (catalog ▸ member) there, spared, stop]
  show (t.reset.tally z.now).shown.getD 0 = _
  rw [Timer.shown_tally_reset dated (by omega), Option.getD_some]
  omega

end Bounds

/-- From boot on, a session shows of each of its timers no more than the time since it began, and
the lead that the timer had then. Only a timer that was running had one, and shows it in full if it
runs on. -/
theorem session_shows_time_since_lead [Nonvolatile ν] {configuration : Configuration}
    {capacity : Nat} {platform : Platform} {a x y z b : Agent ν}
    (booted : boot configuration capacity platform = .ok a) {before during : List (Operation ν)}
    {session : Nat} (lived : (a.performAll before).2 = x)
    (started : x.perform (.startSession session) = (.ok .done, y))
    (passed : (y.performAll during).2 = z) (timely : y.Timely (during ++ [.endSession session]))
    (ended : z.perform (.endSession session) = (.ok .done, b)) :
    ∃ readings : List Reading,
      readings.length = (a.table.catalog.sessionKeys session).length ∧
      b.store.payloads.getLast? = some ((Event.session session readings).encode z.device) ∧
      ∀ key e, a.table.catalog.metric? key = some e → e.kind = .timer → e.session = session →
        let shown := (Event.session session readings).timeOf a.table.catalog key
        let most := z.now.toNat - x.now.toNat + x.lead key
        shown ≤ most ∧
          (x.durationKey session = .ok key ∨ x.table.isRunning key = .ok false →
            x.lead key = 0) ∧
          (x.table.isRunning key = .ok true → y.LeavesAlone key during →
            z.sideMoves key (.endSession session) = [] → most < Timer.period → shown = most) := by
  obtain ⟨c, valid, sound, -⟩ := boot_eq_ok booted
  have alike : ∀ key, ∃ moves, Table.Moved key a.table x.table moves := fun key => by
    rw [← lived]
    exact exists_moved_performAll key a before
  obtain ⟨moves, first⟩ := alike 0
  have follows := follows_of_lived started passed
  have catalog : z.table.catalog = a.table.catalog :=
    follows.catalog.trans first.follows.catalog
  have fits : z.table.Fits := (sound.slots.follows first.follows).follows follows
  have idle : Idle capacity z.store := by
    have began := (lived ▸ sound.store.performAll before).performAll
      [Operation.startSession session]
    have next : (x.performAll [Operation.startSession session]).2 = y := congrArg Prod.snd started
    rw [next] at began
    exact passed ▸ began.performAll during
  obtain ⟨duration, found, running, event⟩ := endedEvent_of_done (congrArg Prod.fst ended)
  have last := getLast?_payloads_endSession idle (congrArg Prod.fst ended) event
  obtain ⟨readings, same, length⟩ := exists_readings_endEvent fits found running
  rw [same, ended] at last
  rw [catalog] at length
  refine ⟨readings, length, last, ?_⟩
  intro key e metric timer own
  obtain ⟨moves, moved⟩ := alike key
  have here := moved.timer (hasTimer_of_boot booted metric timer)
  have fresh : ({} : Timer).InPhase := nofun
  have member : x.table.catalog.InSession session key := by
    rw [first.follows.catalog]
    exact (Catalog.inSession_iff metric).mpr own.symm
  obtain ⟨forward, most⟩ :=
    timeOf_endEvent_le started passed timely fits found running member here
  rw [same, catalog] at most
  refine ⟨most, ?_, ?_⟩
  · rintro (mine | still)
    · exact lead_durationKey (congrArg Prod.fst started) mine
    · exact lead_of_still still
  · intro ahead alone spared short
    obtain ⟨t, there, isRunning⟩ := Table.isRunning_eq_ok.mp ahead
    obtain rfl := here.unique there
    have whole := timeOf_endEvent_eq started passed fits found running member here
      (fresh.moveAll moves) isRunning alone spared forward short
    rw [same, catalog] at whole
    exact whole

/-- One timer runs since before the session, in which the clock goes round. Another is started in
the session and stopped by the hook at its end. -/
theorem session_shows_time_since_lead_around :
    let configuration : Configuration :=
      { device := {}
        schema :=
          { sessions := ["run"]
            metrics := [(MetricDef.timer "busy").inSession "run",
              (MetricDef.timer "idle").inSession "run"] } }
    let before : List (Operation Empty) := [.startTimer 0, .advance 1000]
    let during : List (Operation Empty) := [.startTimer 1, .heartbeat,
      .setSessionEndHook 1 [.call (.stopTimer 1 0x800000E2)], .advance 250]
    ∃ (a x y z : Agent Empty) (readings : List Reading),
      boot configuration 256 { clock := 0x7FFFFC00 } = .ok a ∧ (a.performAll before).2 = x ∧
        x.lead 0 = 1000 ∧ (x.perform (.startSession 1)).2 = y ∧ (y.performAll during).2 = z ∧
        (z.perform (.endSession 1)).2.store.payloads.getLast? =
          some ((Event.session 1 readings).encode {}) ∧
        (Event.session 1 readings).timeOf a.table.catalog 0 = 1250 ∧
        (Event.session 1 readings).timeOf a.table.catalog 1 ≤ 250 ∧
        (Event.session 1 readings).timeOf a.table.catalog 2 ≤ 250 := by
  intro configuration before during
  obtain ⟨a, x, y, z, booted, lived, begun, passed, started, timely, ended, device, time, busy,
      idle, run⟩ :
      ∃ a x y z : Agent Empty, boot configuration 256 { clock := 0x7FFFFC00 } = .ok a ∧
        (a.performAll before).2 = x ∧ (x.perform (.startSession 1)).2 = y ∧
        (y.performAll during).2 = z ∧ (x.perform (.startSession 1)).1 = .ok .done ∧
        y.Timely (during ++ [.endSession 1]) ∧ (z.perform (.endSession 1)).1 = .ok .done ∧
        z.device = {} ∧ z.now.toNat - x.now.toNat = 250 ∧
        (∃ e, a.table.catalog.metric? 0 = some e ∧ e.kind = .timer ∧ e.session = 1 ∧
          x.lead 0 = 1000 ∧ x.table.isRunning 0 = .ok true ∧ y.LeavesAlone 0 during ∧
          z.sideMoves 0 (.endSession 1) = []) ∧
        (∃ e, a.table.catalog.metric? 1 = some e ∧ e.kind = .timer ∧ e.session = 1 ∧
          x.table.isRunning 1 = .ok false) ∧
        (∃ e, a.table.catalog.metric? 2 = some e ∧ e.kind = .timer ∧ e.session = 1 ∧
          x.durationKey 1 = .ok 2) :=
    ⟨_, _, _, _, rfl, rfl, rfl, rfl, by decide +kernel, by decide +kernel, by decide +kernel,
      by decide +kernel, by decide +kernel,
      ⟨_, rfl, rfl, rfl, by decide +kernel, by decide +kernel, by decide +kernel,
        by decide +kernel⟩,
      ⟨_, rfl, rfl, rfl, by decide +kernel⟩, ⟨_, rfl, rfl, rfl, by decide +kernel⟩⟩
  obtain ⟨readings, -, last, shows⟩ := session_shows_time_since_lead booted lived
    (Prod.ext started begun) passed timely (Prod.ext ended rfl)
  obtain ⟨e, metric, timer, own, lead, running, alone, spared⟩ := busy
  obtain ⟨-, -, full⟩ := shows 0 e metric timer own
  obtain ⟨e', metric', timer', own', still⟩ := idle
  obtain ⟨below, unled, -⟩ := shows 1 e' metric' timer' own'
  obtain ⟨e'', metric'', timer'', own'', duration⟩ := run
  obtain ⟨below', unled', -⟩ := shows 2 e'' metric'' timer'' own''
  have whole := full running alone spared (by rw [lead, time]; decide)
  rw [lead, time] at whole
  rw [unled (.inr still), time] at below
  rw [unled' (.inl duration), time] at below'
  rw [device] at last
  exact ⟨a, x, y, z, readings, booted, lived, lead, begun, passed, last, whole, below, below'⟩

/-- The time of a timer that runs when a session begins is reported although most of it lies before
the session. -/
theorem session_shows_time_before :
    let configuration : Configuration :=
      { device := {}
        schema :=
          { sessions := ["run"], metrics := [(MetricDef.timer "busy").inSession "run"] } }
    ∃ a x y z : Agent Empty, boot configuration 256 {} = .ok a ∧
      (a.performAll [.startTimer 0, .advance 1000]).2 = x ∧
      (x.perform (.startSession 1)).2 = y ∧ (y.performAll [.advance 250]).2 = z ∧
      (x.perform (.startSession 1)).1 = .ok .done ∧ y.Timely [.advance 250, .endSession 1] ∧
      z.now.toNat - x.now.toNat = 250 ∧ (z.perform (.endSession 1)).1 = .ok .done ∧
      (z.perform (.endSession 1)).2.store.payloads =
        [(Event.session 1 [.timer (some 1250), .timer (some 250)]).encode {}] :=
  ⟨_, _, _, _, rfl, rfl, rfl, rfl, by decide +kernel, by decide +kernel, by decide +kernel,
    by decide +kernel, by decide +kernel⟩

end Agent

end DeviceTelemetry
