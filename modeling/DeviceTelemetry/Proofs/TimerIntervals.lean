import DeviceTelemetry.Proofs.TableFrames
import DeviceTelemetry.Proofs.TimerMoves

/-!
# The time that a timer adds up

What a history does to a timer is told by its intervals: each reaches from one accepted reading of
the clock to the next, and the timer is running in between. As long as it is not reset, a timer
shows the sum of their lengths modulo the period, up to the end of its range
(`timer_adds_up_intervals`). If the clock does not go back and no run takes a whole period, that is
the time for which the timer has been running, however often it was read on the way.

The arithmetic is done once more with every step checked to stay within 32 bits
(`Timer.strictMove`); no step of a history fails that check.
-/

set_option autoImplicit false

namespace DeviceTelemetry

namespace Timer

/-! ### Intervals of a history -/

structure Interval where
  start : UInt64
  stop : UInt64
deriving DecidableEq, Repr

namespace Interval

def length (i : Interval) : Nat := i.stop.toNat - i.start.toNat

/-- The length by a clock of which 31 bits are seen. -/
def residue (i : Interval) : Nat := (((i.stop.toNat : Int) - i.start.toNat) % 0x80000000).toNat

/-- The sum of the lengths of some intervals, whichever way they are measured. -/
def total (measure : Interval → Nat) : List Interval → Nat
  | [] => 0
  | i :: is => measure i + total measure is

theorem total_append (measure : Interval → Nat) (is js : List Interval) :
    total measure (is ++ js) = total measure is + total measure js := by
  induction is with
  | nil => exact (Nat.zero_add _).symm
  | cons i is ih => rw [List.cons_append, total, total, ih, Nat.add_assoc]

/-- A short interval is cut in two by a reading in between. -/
theorem residue_add_length {start since now : UInt64} (order : start.toNat ≤ since.toNat)
    (forward : since.toNat ≤ now.toNat) (short : length ⟨start, now⟩ < 0x80000000) :
    residue ⟨since, now⟩ + length ⟨start, since⟩ = length ⟨start, now⟩ ∧
      length ⟨start, since⟩ < 0x80000000 := by
  unfold residue
  unfold length at *
  dsimp only at *
  omega

theorem between_phase (i : Interval) : between (phase i.start) (phase i.stop) = i.residue := by
  unfold between phase residue period
  split <;> omega

end Interval

def Move.Resets : Move → Prop
  | reset | clear => True
  | start _ | stop _ | tally _ => False

def Move.switches : Move → Bool
  | tally _ => false
  | start _ | stop _ | reset | clear => true

/-- The last accepted reading behind a move if the timer runs there. A running timer refuses to be
started. -/
def Move.since : Move → Option UInt64 → Option UInt64
  | start now, since => some (since.getD now)
  | stop _, _ => none
  | tally now, since => since.map fun _ => now
  | reset, since => since
  | clear, _ => none

/-- The interval that a move ends. A timer that stands still has none to be ended. -/
def Move.interval? : Move → Option UInt64 → Option Interval
  | stop now, since => since.map fun start => ⟨start, now⟩
  | tally now, since => since.map fun start => ⟨start, now⟩
  | start _, _ | reset, _ | clear, _ => none

def Move.accepted? : Move → Option UInt64 → Option UInt64
  | start now, since => if since.isSome then none else some now
  | stop now, since => since.map fun _ => now
  | tally now, since => since.map fun _ => now
  | reset, _ | clear, _ => none

/-- The last accepted reading behind a history if the timer runs there. -/
def lastRunning : List Move → Option UInt64 → Option UInt64
  | [], since => since
  | m :: moves, since => lastRunning moves (m.since since)

/-- The intervals between consecutive accepted readings of a running timer. -/
def intervals : List Move → Option UInt64 → List Interval
  | [], _ => []
  | m :: moves, since => (m.interval? since).toList ++ intervals moves (m.since since)

def acceptedReadings : List Move → Option UInt64 → List UInt64
  | [], _ => []
  | m :: moves, since => (m.accepted? since).toList ++ acceptedReadings moves (m.since since)

/-- The time from each accepted start to its stop, or to `finish` where there is none. -/
def runs (history : List Move) (finish : UInt64) : List Interval :=
  intervals (history.filter Move.switches ++ [.tally finish]) none

def Forward (history : List Move) : Prop :=
  (history.filterMap Move.time?).Pairwise fun earlier later => earlier.toNat ≤ later.toNat

instance (history : List Move) : Decidable (Forward history) :=
  inferInstanceAs (Decidable (List.Pairwise _ _))

/-! ### Sums -/

/-- A timer has added up some intervals, and runs if there is a last accepted reading. -/
structure Sums (t : Timer) (since : Option UInt64) (done : List Interval) : Prop where
  startedAt : t.startedAt = since.map phase
  elapsed : t.elapsed = min 0x7FFFFFFF (Interval.total Interval.residue done)
  recorded : t.recorded = true ↔ done ≠ []

theorem sums_new : ({} : Timer).Sums none [] where
  startedAt := rfl
  elapsed := rfl
  recorded := by decide

section Sums

variable {t : Timer} {since : Option UInt64} {done : List Interval}

theorem Sums.accumulate {start : UInt64} (h : t.Sums (some start) done) (stop : UInt64) :
    (t.accumulate (phase start) (phase stop)).elapsed =
        min 0x7FFFFFFF (Interval.total Interval.residue (done ++ [⟨start, stop⟩])) ∧
      ((t.accumulate (phase start) (phase stop)).recorded = true ↔
        done ++ [⟨start, stop⟩] ≠ []) := by
  have sum := h.elapsed
  have next := Interval.between_phase ⟨start, stop⟩
  constructor
  · rw [Interval.total_append, Interval.total, Interval.total, Timer.accumulate]
    dsimp only at next ⊢
    unfold maxElapsed period
    omega
  · exact iff_of_true rfl (List.append_ne_nil_of_right_ne_nil _ (List.cons_ne_nil _ _))

theorem Sums.move (h : t.Sums since done) {m : Move} (kept : ¬m.Resets) :
    (t.move m).Sums (m.since since) (done ++ (m.interval? since).toList) := by
  have started := h.startedAt
  cases m with
  | start now =>
      rw [Move.interval?, Option.toList_none, List.append_nil]
      simp only [Timer.move, start?]
      rw [started]
      cases since with
      | none => exact ⟨rfl, h.elapsed, h.recorded⟩
      | some start => exact h
  | stop now =>
      simp only [Timer.move, stop?]
      rw [started]
      cases since with
      | none =>
          show t.Sums none (done ++ [])
          rw [List.append_nil]
          exact h
      | some start =>
          obtain ⟨elapsed, recorded⟩ := h.accumulate now
          exact ⟨rfl, elapsed, recorded⟩
  | tally now =>
      simp only [Timer.move, Timer.tally]
      rw [started]
      cases since with
      | none =>
          show t.Sums none (done ++ [])
          rw [List.append_nil]
          exact h
      | some start =>
          obtain ⟨elapsed, recorded⟩ := h.accumulate now
          exact ⟨rfl, elapsed, recorded⟩
  | reset => exact absurd trivial kept
  | clear => exact absurd trivial kept

theorem Sums.moveAll (h : t.Sums since done) {moves : List Move}
    (kept : ∀ m ∈ moves, ¬m.Resets) :
    (t.moveAll moves).Sums (lastRunning moves since) (done ++ intervals moves since) := by
  induction moves generalizing t since done with
  | nil =>
      rw [intervals, List.append_nil]
      exact h
  | cons m moves ih =>
      have rest := ih (h.move (kept m List.mem_cons_self))
        fun m' member => kept m' (List.mem_cons_of_mem m member)
      rw [List.append_assoc] at rest
      exact rest

theorem Sums.isRunning (h : t.Sums since done) : t.isRunning = since.isSome := by
  rw [Timer.isRunning, h.startedAt, Option.isSome_map]

theorem Sums.shown (h : t.Sums since done) :
    t.shown = if done = [] then none else some t.elapsed := by
  rw [Timer.shown]
  by_cases nothing : done = []
  · rw [if_pos nothing, if_neg fun recorded => h.recorded.mp recorded nothing]
  · rw [if_neg nothing, if_pos (h.recorded.mpr nothing)]

end Sums

/-! ### Words of 32 bits -/

open Checked (minus word word_eq)

def strictBetween (start stop : Nat) : Option Nat :=
  if start ≤ stop then minus stop start
  else do
    let rest ← minus period start
    word (2 ^ 32) (rest + stop)

def strictAccumulate (t : Timer) (start stop : Nat) : Option Timer := do
  let interval ← strictBetween start stop
  let sum ← word (2 ^ 32) (t.elapsed + interval)
  return { t with elapsed := min sum maxElapsed, recorded := true }

/-- A timer behind a move, or nothing if a step on the way leaves the 32 bits. -/
def strictMove (t : Timer) : Move → Option Timer
  | .start now => do
    let phase ← word (2 ^ 32) (phase now)
    match t.startedAt with
    | some _ => return t
    | none => return { t with startedAt := some phase }
  | .stop now => do
    let phase ← word (2 ^ 32) (phase now)
    match t.startedAt with
    | some start =>
      let t ← t.strictAccumulate start phase
      return { t with startedAt := none }
    | none => return t
  | .tally now => do
    let phase ← word (2 ^ 32) (phase now)
    match t.startedAt with
    | some start =>
      let t ← t.strictAccumulate start phase
      return { t with startedAt := some phase }
    | none => return t
  | .reset => return t.reset
  | .clear => return { t.reset with startedAt := none }

def strictMoveAll (t : Timer) (moves : List Move) : Option Timer := moves.foldlM strictMove t

theorem word_phase (now : UInt64) : word (2 ^ 32) (phase now) = some (phase now) := by
  apply word_eq
  unfold phase period
  omega

theorem strictBetween_eq {start : Nat} (inside : start < period) (stop : Nat) :
    strictBetween start stop = some (between start stop) := by
  unfold strictBetween between minus
  unfold period at *
  split
  · rfl
  · rename_i around
    rw [if_pos (by omega), Option.bind_eq_bind, Option.bind_some, word_eq (by omega)]

section Strict

variable {t : Timer} {since : Option UInt64} {done : List Interval}

theorem Sums.strictAccumulate (h : t.Sums since done) (start stop : UInt64) :
    t.strictAccumulate (phase start) (phase stop) =
      some (t.accumulate (phase start) (phase stop)) := by
  have range := h.elapsed
  have first := phase_lt start
  have interval : between (phase start) (phase stop) < 0x80000000 := by
    rw [Interval.between_phase ⟨start, stop⟩, Interval.residue]
    omega
  rw [Timer.strictAccumulate, strictBetween_eq first, Option.bind_eq_bind, Option.bind_some,
    word_eq (by omega)]
  rfl

theorem Sums.strictMove (h : t.Sums since done) (m : Move) :
    t.strictMove m = some (t.move m) := by
  have started := h.startedAt
  cases m with
  | start now =>
      simp only [Timer.strictMove, Timer.move, start?]
      rw [word_phase, started]
      cases since with
      | none => rfl
      | some start => rfl
  | stop now =>
      simp only [Timer.strictMove, Timer.move, stop?]
      rw [word_phase, started]
      cases since with
      | none => rfl
      | some start => exact congrArg (· >>= _) (h.strictAccumulate start now)
  | tally now =>
      simp only [Timer.strictMove, Timer.move, Timer.tally]
      rw [word_phase, started]
      cases since with
      | none => rfl
      | some start => exact congrArg (· >>= _) (h.strictAccumulate start now)
  | reset => rfl
  | clear => rfl

theorem Sums.strictMoveAll (h : t.Sums since done) {moves : List Move}
    (kept : ∀ m ∈ moves, ¬m.Resets) : t.strictMoveAll moves = some (t.moveAll moves) := by
  induction moves generalizing t since done with
  | nil => rfl
  | cons m moves ih =>
      rw [Timer.strictMoveAll, List.foldlM_cons, h.strictMove, Option.bind_eq_bind,
        Option.bind_some]
      exact ih (h.move (kept m List.mem_cons_self))
        fun m' member => kept m' (List.mem_cons_of_mem m member)

end Strict

/-! ### Runs -/

/-- How long ago a run began when it was last read. -/
def lead : Option UInt64 → Option UInt64 → Nat
  | some since, some start => Interval.length ⟨start, since⟩
  | _, _ => 0

theorem of_getLast?_cons {first finish : UInt64} {readings : List UInt64}
    (last : ∀ x ∈ (first :: readings).getLast?, x = finish) :
    ∀ x ∈ readings.getLast?, x = finish := by
  intro x here
  apply last
  rw [List.getLast?_cons, Option.mem_def.mp here]
  rfl

/-- The intervals up to a reading and the runs up to it are of the same length altogether: what
separates the two is how long ago the present run began. -/
theorem total_residue_add_lead {moves : List Move} (kept : ∀ m ∈ moves, ¬m.Resets)
    {finish : UInt64} {since start : Option UInt64}
    (order : Option.Rel (fun since start => start.toNat ≤ since.toNat) since start)
    (forward : (since.toList ++ moves.filterMap Move.time?).Pairwise
      fun earlier later => earlier.toNat ≤ later.toNat)
    (last : ∀ x ∈ (since.toList ++ acceptedReadings moves since).getLast?, x = finish)
    (short : ∀ run ∈ intervals (moves.filter Move.switches ++ [.tally finish]) start,
      run.length < 0x80000000) :
    Interval.total Interval.residue (intervals moves since) + lead since start =
        Interval.total Interval.length
          (intervals (moves.filter Move.switches ++ [.tally finish]) start) ∧
      lead since start < 0x80000000 := by
  induction moves generalizing since start with
  | nil =>
      cases order with
      | none => exact ⟨rfl, by decide⟩
      | some order =>
          obtain rfl := last _ rfl
          exact ⟨by rw [Nat.add_comm]; rfl, short _ List.mem_cons_self⟩
  | cons m moves ih =>
      have kept' : ∀ m' ∈ moves, ¬m'.Resets :=
        fun m' member => kept m' (List.mem_cons_of_mem m member)
      cases m with
      | reset => exact absurd trivial (kept _ List.mem_cons_self)
      | clear => exact absurd trivial (kept _ List.mem_cons_self)
      | start now =>
          cases order with
          | none =>
              have rest := ih kept' (.some (Nat.le_refl now.toNat)) forward last short
              rw [lead, Interval.length, Nat.sub_self] at rest
              exact rest
          | @some s r order =>
              -- a running timer refuses to be started
              have skip : (s :: moves.filterMap Move.time?).Sublist
                  (s :: now :: moves.filterMap Move.time?) := .cons_cons _ (.cons _ (.refl _))
              exact ih kept' (.some order) (forward.sublist skip) last short
      | stop now =>
          cases order with
          | none => exact ih kept' .none (List.pairwise_cons.mp forward).2 last short
          | @some s r order =>
              obtain ⟨ahead, forward⟩ := List.pairwise_cons.mp forward
              obtain ⟨first, short⟩ := List.forall_mem_cons.mp short
              obtain ⟨part, small⟩ :=
                Interval.residue_add_length order (ahead now List.mem_cons_self) first
              obtain ⟨rest, -⟩ : Interval.total _ (intervals moves none) + 0 = _ ∧ _ :=
                ih kept' .none (List.pairwise_cons.mp forward).2
                  (of_getLast?_cons (of_getLast?_cons last)) short
              refine ⟨?_, small⟩
              show Interval.residue ⟨s, now⟩ + Interval.total _ (intervals moves none) +
                  Interval.length ⟨r, s⟩ = Interval.length ⟨r, now⟩ + Interval.total _
                    (intervals (moves.filter Move.switches ++ [.tally finish]) none)
              rw [← rest, ← part]
              omega
      | tally now =>
          cases order with
          | none => exact ih kept' .none (List.pairwise_cons.mp forward).2 last short
          | @some s r order =>
              obtain ⟨ahead, forward⟩ := List.pairwise_cons.mp forward
              have here : s.toNat ≤ now.toNat := ahead now List.mem_cons_self
              obtain ⟨rest, first⟩ := ih kept' (.some (Nat.le_trans order here)) forward
                (of_getLast?_cons last) short
              obtain ⟨part, small⟩ := Interval.residue_add_length order here first
              refine ⟨?_, small⟩
              show Interval.residue ⟨s, now⟩ + Interval.total _ (intervals moves (some now)) +
                Interval.length ⟨r, s⟩ = _
              rw [lead, ← part] at rest
              refine Eq.trans ?_ rest
              omega

theorem total_residue_eq {history : List Move} (kept : ∀ m ∈ history, ¬m.Resets) {finish : UInt64}
    (last : (acceptedReadings history none).getLast? = some finish) (forward : Forward history)
    (short : ∀ run ∈ runs history finish, run.length < 0x80000000) :
    Interval.total Interval.residue (intervals history none) =
      Interval.total Interval.length (runs history finish) := by
  have only : ∀ x ∈ (acceptedReadings history none).getLast?, x = finish := by
    intro x here
    exact Option.some.inj (here.symm.trans last)
  exact (total_residue_add_lead kept .none forward only short).1

end Timer

/-! ### Calls -/

namespace Table

def Call.Resets (c : Catalog) (key : Nat) : Call → Prop
  | .resetSession session => c.InSession session key
  | .resetAll => True
  | _ => False

instance (c : Catalog) (key : Nat) : (call : Call) → Decidable (call.Resets c key)
  | .resetSession session => inferInstanceAs (Decidable (c.InSession session key))
  | .resetAll => inferInstanceAs (Decidable True)
  | .setUnsigned _ _ | .setSigned _ _ | .setText _ _ | .add _ _ | .startTimer _ _
  | .stopTimer _ _ | .isRunning _ | .readUnsigned _ | .readSigned _ | .readTimer _ _
  | .readText _ | .kindOf _ | .value _ | .tallySession _ _ => inferInstanceAs (Decidable False)

variable {t : Table} {key : Nat} {timer : Timer}

theorem Call.moves_keep {c : Catalog} {call : Call} (kept : ¬call.Resets c key) :
    ∀ m ∈ call.moves c key, ¬m.Resets := by
  cases call with
  | startTimer key' now => exact Timer.Move.forall_mem_ite _ id
  | stopTimer key' now => exact Timer.Move.forall_mem_ite _ id
  | readTimer key' now => exact Timer.Move.forall_mem_ite _ id
  | tallySession session now => exact Timer.Move.forall_mem_ite _ id
  | resetSession session =>
      have other : ¬c.InSession session key := kept
      rw [Call.moves, if_neg other]
      exact List.forall_mem_nil _
  | resetAll => exact absurd trivial kept
  | _ => exact List.forall_mem_nil _

theorem perform_startTimer (here : t.HasTimer key timer) (now : UInt64) :
    if timer.isRunning then t.perform (.startTimer key now) = (.error (.noChange key), t)
    else (t.perform (.startTimer key now)).1 = .ok .done := by
  have keyed : (Call.startTimer key now).key? = some key := rfl
  rw [perform_of_kind keyed here List.mem_cons_self]
  cases started : timer.startedAt with
  | none => simp [Timer.isRunning, Timer.start?, Call.onSlot, started]
  | some start => simp [Timer.isRunning, Timer.start?, Call.onSlot, started]

theorem perform_stopTimer (here : t.HasTimer key timer) (now : UInt64) :
    if timer.isRunning then (t.perform (.stopTimer key now)).1 = .ok .done
    else t.perform (.stopTimer key now) = (.error (.noChange key), t) := by
  have keyed : (Call.stopTimer key now).key? = some key := rfl
  rw [perform_of_kind keyed here List.mem_cons_self]
  cases started : timer.startedAt with
  | none => simp [Timer.isRunning, Timer.stop?, Call.onSlot, started]
  | some start => simp [Timer.isRunning, Timer.stop?, Call.onSlot, started]

theorem perform_readTimer (here : t.HasTimer key timer) (now : UInt64) :
    (t.perform (.readTimer key now)).1 = .ok (.time (timer.tally now).elapsed) := by
  have keyed : (Call.readTimer key now).key? = some key := rfl
  rw [perform_of_kind keyed here List.mem_cons_self]
  rfl

open Timer (intervals lastRunning acceptedReadings runs Forward Sums)

theorem HasTimer.sums (new : t.HasTimer key {}) {calls : List Call}
    (kept : ∀ call ∈ calls, ¬call.Resets t.catalog key) :
    let history := calls.flatMap (Call.moves t.catalog key)
    (∀ m ∈ history, ¬m.Resets) ∧
      (t.performAll calls).2.HasTimer key (({} : Timer).moveAll history) ∧
        (({} : Timer).moveAll history).Sums (lastRunning history none) (intervals history none) := by
  intro history
  have harmless : ∀ m ∈ history, ¬m.Resets := by
    intro m member
    obtain ⟨call, made, member⟩ := List.mem_flatMap.mp member
    exact Call.moves_keep (kept call made) m member
  exact ⟨harmless, (moved_performAll key t calls).timer new, Timer.sums_new.moveAll harmless⟩

/-- Whatever is called, as long as it does not reset a timer that was new: no step of the timer's
arithmetic leaves the 32 bits, and it has added up the lengths of its intervals modulo the period,
up to the end of its range. This is what reading it gives, with the interval up to the reading; its
value is not set until an interval has ended. A start is refused exactly if the timer is running and
a stop exactly if it is not, and then nothing changes. If the clock does not go back and no run is
as long as the period, the timer has added up the lengths of its runs up to the last accepted
reading, and so has one with the same starts and stops that was read at other times before. -/
theorem timer_adds_up_intervals (new : t.HasTimer key {}) {calls : List Call}
    (kept : ∀ call ∈ calls, ¬call.Resets t.catalog key) :
    let t' := (t.performAll calls).2
    let history := calls.flatMap (Call.moves t.catalog key)
    let sum (history : List Timer.Move) : Nat :=
      min 0x7FFFFFFF (Timer.Interval.total Timer.Interval.residue (intervals history none))
    ∃ timer, t'.HasTimer key timer ∧ ({} : Timer).strictMoveAll history = some timer ∧
      timer.elapsed = sum history ∧
      t'.value key = .ok (.timer (if intervals history none = [] then none else some (sum history))) ∧
      (∀ now, (t'.perform (.readTimer key now)).1 = .ok (.time (sum (history ++ [.tally now])))) ∧
      (∀ now, if (lastRunning history none).isSome then
          t'.perform (.startTimer key now) = (.error (.noChange key), t') ∧
            (t'.perform (.stopTimer key now)).1 = .ok .done
        else (t'.perform (.startTimer key now)).1 = .ok .done ∧
          t'.perform (.stopTimer key now) = (.error (.noChange key), t')) ∧
      ∀ finish, (acceptedReadings history none).getLast? = some finish → Forward history →
        (∀ run ∈ runs history finish, run.length < 0x80000000) →
          timer.elapsed =
              min 0x7FFFFFFF (Timer.Interval.total Timer.Interval.length (runs history finish)) ∧
          ∀ calls' : List Call, (∀ call ∈ calls', ¬call.Resets t.catalog key) →
            let history' := calls'.flatMap (Call.moves t.catalog key)
            history'.filter Timer.Move.switches = history.filter Timer.Move.switches →
              (acceptedReadings history' none).getLast? = some finish → Forward history' →
                ∃ timer', (t.performAll calls').2.HasTimer key timer' ∧
                  timer'.elapsed = timer.elapsed := by
  intro t' history sum
  obtain ⟨harmless, here, sums⟩ := new.sums kept
  refine ⟨_, here, Timer.sums_new.strictMoveAll harmless, sums.elapsed, ?_, ?_, ?_, ?_⟩
  · rw [value_of_slot here, Slot.reading, sums.shown, sums.elapsed]
  · intro now
    have read : ∀ m ∈ history ++ [.tally now], ¬m.Resets := by
      intro m member
      rcases List.mem_append.mp member with before | last
      · exact harmless m before
      · rw [List.mem_singleton.mp last]
        exact id
    have more := (Timer.sums_new.moveAll read).elapsed
    rw [Timer.moveAll_append] at more
    exact (perform_readTimer here now).trans (congrArg (fun ms => Except.ok (Answer.time ms)) more)
  · intro now
    have start := perform_startTimer here now
    have stop := perform_stopTimer here now
    rw [sums.isRunning] at start stop
    split at start
    · rename_i running
      rw [if_pos running] at stop ⊢
      exact ⟨start, stop⟩
    · rename_i still
      rw [if_neg still] at stop ⊢
      exact ⟨start, stop⟩
  · intro finish last forward short
    have whole := Timer.total_residue_eq harmless last forward short
    refine ⟨sums.elapsed.trans (by rw [whole]), ?_⟩
    intro calls' kept' history' switches last' forward'
    obtain ⟨harmless', here', sums'⟩ := new.sums kept'
    have same : runs history' finish = runs history finish := by rw [runs, runs, switches]
    refine ⟨_, here', ?_⟩
    rw [sums'.elapsed, sums.elapsed, whole, ← same]
    rw [Timer.total_residue_eq harmless' last' forward' (by rw [same]; exact short)]

/-- The clock goes round in the first run, in which the session is tallied; a start and a stop are
refused, and the second run is still going on when it is read, at last behind the end of its
range. -/
theorem timer_adds_up_intervals_around :
    let schema : Schema := {
      sessions := ["run"]
      metrics := [(MetricDef.timer "busy").inSession "run", .unsigned "count"] }
    ∃ c, schema.catalog = .ok c ∧
      let t := ofCatalog c
      let calls : List Call := [.startTimer 0 0x7FFFFFF0, .add 1 3, .tallySession 1 0x80000010,
        .startTimer 0 0x80000018, .resetSession 0, .stopTimer 0 0x80000020, .stopTimer 0 0x80000028,
        .startTimer 0 0x80000100, .readTimer 0 0x80000104, .readTimer 0 0x80000140]
      let t' := (t.performAll calls).2
      t'.value 0 = .ok (.timer (some 0x70)) ∧
        (t'.perform (.readTimer 0 0x100000101)).1 = .ok (.time 0x7FFFFFFF) ∧
        t'.perform (.startTimer 0 5) = (.error (.noChange 0), t') ∧
        ∃ timer', (t.performAll [.startTimer 0 0x7FFFFFF0, .startTimer 0 0x80000018,
          .stopTimer 0 0x80000020, .stopTimer 0 0x80000028, .startTimer 0 0x80000100,
          .tallySession 1 0x80000140]).2.HasTimer 0 timer' ∧ timer'.elapsed = 0x70 := by
  intro schema
  have resolved : schema.catalog = .ok _ := rfl
  refine ⟨_, resolved, ?_⟩
  intro t calls t'
  have new : t.HasTimer 0 {} := hasTimer_ofCatalog rfl rfl
  have kept : ∀ call ∈ calls, ¬call.Resets t.catalog 0 := by decide
  obtain ⟨timer, -, -, sum, value, read, switch, runs⟩ :=
    timer_adds_up_intervals new kept
  have elapsed : timer.elapsed = 0x70 := sum.trans (by decide)
  refine ⟨value.trans (by decide), (read _).trans (by decide), (switch 5).1, ?_⟩
  rw [← elapsed]
  exact (runs 0x80000140 (by decide) (by decide) (by decide)).2 _ (by decide) (by decide) (by decide)
    (by decide)

end Table

end DeviceTelemetry
