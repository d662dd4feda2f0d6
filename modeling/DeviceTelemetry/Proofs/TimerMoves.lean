import DeviceTelemetry.Proofs.Agent.Steps
import DeviceTelemetry.Proofs.EventFormat

/-!
# What happens to one timer

A table does nothing to the timer of a key but start, stop, tally, reset and clear it
(`Timer.Move`). Which of these moves a call makes is told by the call and the catalog alone
(`Table.Call.moves`), since a move that the table refuses leaves the timer as it is. What an event
shows of the timer is `Event.timeOf`.
-/

set_option autoImplicit false

namespace DeviceTelemetry

/-! ### Moves -/

inductive Timer.Move where
  | start (now : UInt64)
  | stop (now : UInt64)
  | tally (now : UInt64)
  | reset
  /-- The timer is reset and stands still. -/
  | clear
deriving DecidableEq, Repr

namespace Timer

def Move.time? : Move → Option UInt64
  | .start now => some now
  | .stop now => some now
  | .tally now => some now
  | .reset => none
  | .clear => none

/-- A timer behind a move. One that is refused changes nothing. -/
def move (t : Timer) : Move → Timer
  | .start now => (t.start? now).getD t
  | .stop now => (t.stop? now).getD t
  | .tally now => t.tally now
  | .reset => t.reset
  | .clear => { t.reset with startedAt := none }

def moveAll (t : Timer) (moves : List Move) : Timer := moves.foldl move t

theorem phase_lt (now : UInt64) : phase now < period := Nat.mod_lt _ (by decide)

theorem moveAll_append (t : Timer) (first second : List Move) :
    t.moveAll (first ++ second) = (t.moveAll first).moveAll second :=
  List.foldl_append

def Move.runs : Move → Bool → Bool
  | .start _, _ => true
  | .stop _, _ => false
  | .tally _, running => running
  | .reset, running => running
  | .clear, _ => false

theorem isRunning_move (t : Timer) (m : Move) : (t.move m).isRunning = m.runs t.isRunning := by
  obtain ⟨elapsed, recorded, startedAt⟩ := t
  cases startedAt with
  | none => cases m <;> rfl
  | some start => cases m <;> rfl

theorem isRunning_moveAll (t : Timer) (moves : List Move) :
    (t.moveAll moves).isRunning = moves.foldl (fun running m => m.runs running) t.isRunning := by
  induction moves generalizing t with
  | nil => rfl
  | cons m moves ih =>
      rw [List.foldl_cons, ← isRunning_move]
      exact ih (t.move m)

theorem Move.forall_mem_ite {P : Move → Prop} (c : Prop) [Decidable c] {m : Move} (here : P m) :
    ∀ m' ∈ (if c then [m] else []), P m' := by
  intro m' member
  split at member
  · rw [List.mem_singleton.mp member]
    exact here
  · cases member

/-- A report that tallies and resets a timer leaves it running or standing. -/
theorem foldl_runs_report (member : Prop) [Decidable member] (now : UInt64) (running : Bool) :
    ((if member then [Move.tally now] else []) ++ if member then [Move.reset] else []).foldl
      (fun running m => m.runs running) running = running := by
  split <;> rfl

end Timer

namespace Table

def HasTimer (t : Table) (key : Nat) (timer : Timer) : Prop := t.slots[key]? = some (.timer timer)

def Call.time? : Call → Option UInt64
  | .startTimer _ now => some now
  | .stopTimer _ now => some now
  | .readTimer _ now => some now
  | .tallySession _ now => some now
  | _ => none

def Call.moves (c : Catalog) (key : Nat) : Call → List Timer.Move
  | .startTimer key' now => if key' = key then [.start now] else []
  | .stopTimer key' now => if key' = key then [.stop now] else []
  | .readTimer key' now => if key' = key then [.tally now] else []
  | .tallySession session now => if c.InSession session key then [.tally now] else []
  | .resetSession session => if c.InSession session key then [.reset] else []
  | .resetAll => [.clear]
  | _ => []

/-- These moves of one timer are what becomes of it from `t` to `t'`. -/
structure Moved (key : Nat) (t t' : Table) (moves : List Timer.Move) : Prop where
  follows : Follows t t'
  timer : ∀ {timer : Timer}, t.HasTimer key timer → t'.HasTimer key (timer.moveAll moves)

section Moves

variable {key key' : Nat} {timer : Timer} {t t' t'' : Table}

theorem Moved.refl (key : Nat) (t : Table) : Moved key t t [] :=
  ⟨Follows.refl t, id⟩

theorem Moved.trans {first second : List Timer.Move} (h : Moved key t t' first)
    (h' : Moved key t' t'' second) : Moved key t t'' (first ++ second) where
  follows := h.follows.trans h'.follows
  timer here := by
    rw [Timer.moveAll_append]
    exact h'.timer (h.timer here)

theorem HasTimer.unique {timer' : Timer} (here : t.HasTimer key timer)
    (there : t.HasTimer key timer') : timer = timer' :=
  Slot.timer.inj (Option.some.inj (here.symm.trans there))

theorem hasTimer_ofCatalog {c : Catalog} {e : Catalog.Entry} (metric : c.metric? key = some e)
    (kind : e.kind = .timer) : (ofCatalog c).HasTimer key {} := by
  show (c.entries.map _)[key]? = _
  rw [Array.getElem?_map, show c.entries[key]? = some e from metric, Option.map_some, kind]
  rfl

theorem HasTimer.set_of_ne {slot : Slot} (here : t.HasTimer key timer)
    (found : t.slots[key']? = some slot) (other : ∀ timer', slot ≠ .timer timer') (slot' : Slot) :
    (t.set key' slot').HasTimer key timer := by
  rw [HasTimer, slots_set found]
  rw [if_neg]
  · exact here
  · rintro rfl
    exact other timer (Option.some.inj (found.symm.trans here))

theorem HasTimer.set_self (here : t.HasTimer key timer) (timer' : Timer) :
    (t.set key (.timer timer')).HasTimer key timer' := by
  rw [HasTimer, slots_set here, if_pos rfl]

theorem HasTimer.moveTimer (here : t.HasTimer key timer) (key' : Nat)
    (move : Timer → Option Timer) :
    (t.settle (t.moveTimer key' move)).2.HasTimer key
      (if key' = key then (move timer).getD timer else timer) := by
  cases result : t.moveTimer key' move with
  | ok t' =>
      obtain ⟨old, new, found, moved, rfl⟩ := moveTimer_eq_ok.mp result
      show (t.set key' (.timer new)).HasTimer key _
      by_cases same : key' = key
      · subst same
        obtain rfl := here.unique found
        rw [if_pos rfl, moved]
        exact here.set_self new
      · rw [if_neg same, HasTimer, slots_set found, if_neg fun bad => same bad.symm]
        exact here
  | error e =>
      show t.HasTimer key _
      by_cases same : key' = key
      · subst same
        rw [if_pos rfl]
        cases moved : move timer with
        | none => exact here
        | some new =>
            rw [moveTimer_eq_ok.mpr ⟨timer, new, here, moved, rfl⟩] at result
            cases result
      · rw [if_neg same]
        exact here

theorem HasTimer.readTimer (here : t.HasTimer key timer) (key' : Nat) (now : UInt64) :
    (t.perform (.readTimer key' now)).2.HasTimer key
      (if key' = key then timer.tally now else timer) := by
  simp only [perform]
  cases result : t.readTimer key' now with
  | ok read =>
      obtain ⟨ms, t'⟩ := read
      obtain ⟨old, found, -, rfl⟩ := readTimer_eq_ok.mp result
      show (t.set key' (.timer (old.tally now))).HasTimer key _
      by_cases same : key' = key
      · subst same
        obtain rfl := here.unique found
        rw [if_pos rfl]
        exact here.set_self _
      · rw [if_neg same, HasTimer, slots_set found, if_neg fun bad => same bad.symm]
        exact here
  | error e =>
      show t.HasTimer key _
      by_cases same : key' = key
      · subst same
        rw [readTimer_eq_ok.mpr ⟨timer, here, rfl, rfl⟩] at result
        cases result
      · rw [if_neg same]
        exact here

theorem HasTimer.mapSession (here : t.HasTimer key timer) (session : Nat) {f : Slot → Slot}
    {move : Timer.Move} (step : f (.timer timer) = .timer (timer.move move)) :
    (t.mapSession session f).HasTimer key
      (timer.moveAll (if t.catalog.InSession session key then [move] else [])) := by
  rw [HasTimer, getElem?_mapSession, show t.slots[key]? = _ from here, Option.map_some]
  split
  · rw [step]
    rfl
  · rfl

theorem HasTimer.settle {result : Except MetricError Table} (here : t.HasTimer key timer)
    (step : ∀ t', result = .ok t' → t'.HasTimer key timer) :
    (t.settle result).2.HasTimer key timer := by
  cases result with
  | ok t' => exact step t' rfl
  | error e => exact here

theorem HasTimer.setUnsigned {n : UInt32} (here : t.HasTimer key timer)
    (ok : t.setUnsigned key' n = .ok t') : t'.HasTimer key timer := by
  obtain ⟨m, found, rfl⟩ := setUnsigned_eq_ok.mp ok
  exact here.set_of_ne found nofun _

theorem HasTimer.add {amount : Int32} (here : t.HasTimer key timer)
    (ok : t.add key' amount = .ok t') : t'.HasTimer key timer := by
  rcases add_eq_ok.mp ok with ⟨n, found, rfl⟩ | ⟨n, found, rfl⟩
  · exact here.set_of_ne found nofun _
  · exact here.set_of_ne found nofun _

theorem moveAll_ite (timer : Timer) (c : Prop) [Decidable c] (move : Timer.Move) :
    timer.moveAll (if c then [move] else []) = if c then timer.move move else timer := by
  split
  · rfl
  · rfl

theorem moved_perform (key : Nat) (t : Table) (call : Call) :
    Moved key t (t.perform call).2 (call.moves t.catalog key) := by
  refine ⟨follows_perform t call, ?_⟩
  intro timer here
  cases call with
  | setUnsigned key' n => exact here.settle fun _ ok => here.setUnsigned ok
  | setSigned key' n =>
      refine here.settle fun _ ok => ?_
      obtain ⟨m, found, rfl⟩ := setSigned_eq_ok.mp ok
      exact here.set_of_ne found nofun _
  | setText key' s =>
      refine here.settle fun _ ok => ?_
      obtain ⟨limit, s', found, rfl⟩ := setText_eq_ok.mp ok
      exact here.set_of_ne found nofun _
  | add key' amount => exact here.settle fun _ ok => here.add ok
  | startTimer key' now =>
      rw [Call.moves, moveAll_ite]
      exact here.moveTimer key' (·.start? now)
  | stopTimer key' now =>
      rw [Call.moves, moveAll_ite]
      exact here.moveTimer key' (·.stop? now)
  | readTimer key' now =>
      rw [Call.moves, moveAll_ite]
      exact here.readTimer key' now
  | isRunning key' => exact here
  | readUnsigned key' => exact here
  | readSigned key' => exact here
  | readText key' => exact here
  | kindOf key' => exact here
  | value key' => exact here
  | tallySession session now => exact here.mapSession session rfl
  | resetSession session => exact here.mapSession session rfl
  | resetAll =>
      show (t.slots.map Slot.clear)[key]? = _
      rw [Array.getElem?_map, here]
      rfl

theorem moved_performAll (key : Nat) (t : Table) (calls : List Call) :
    Moved key t (t.performAll calls).2 (calls.flatMap (Call.moves t.catalog key)) := by
  induction calls generalizing t with
  | nil => exact .refl key t
  | cons call calls ih =>
      have one := moved_perform key t call
      have rest := ih (t.perform call).2
      rw [one.follows.catalog] at rest
      exact one.trans rest

theorem Moved.isRunning {moves : List Timer.Move} {running : Bool}
    (h : Moved key t t' moves) (before : t.isRunning key = .ok running) :
    t'.isRunning key = .ok (moves.foldl (fun running m => m.runs running) running) := by
  obtain ⟨timer, here, rfl⟩ := isRunning_eq_ok.mp before
  rw [← Timer.isRunning_moveAll]
  exact isRunning_eq_ok.mpr ⟨_, h.timer here, rfl⟩

theorem isRunning_resetSession {running : Bool} (before : t.isRunning key = .ok running)
    (session : Nat) : (t.resetSession session).isRunning key = .ok running := by
  have moved := (moved_perform key t (.resetSession session)).isRunning before
  rw [Call.moves] at moved
  split at moved <;> exact moved

end Moves

end Table

open Table (Moved)

section Collectors

variable {key : Nat} {t t' : Table} {now : UInt64}

/-- The counting of hours and the battery leave timers alone. -/
theorem Collectors.moved_collect (key : Nat) (c : Collectors) (t : Table) (gauge : Gauge)
    (now : UInt64) : Moved key t (c.collect t gauge now).1 [] := by
  have moved := Table.moved_performAll key t (c.made t gauge now)
  have still : (c.made t gauge now).flatMap (Table.Call.moves t.catalog key) = [] := by
    refine List.flatMap_eq_nil_iff.mpr fun call member => ?_
    rcases Collectors.eq_of_mem_made member with ⟨key', amount, rfl⟩ | ⟨key', n, rfl⟩
    · rfl
    · rfl
  rw [still] at moved
  rwa [collect_eq]

def Collectors.connectionCalls (c : Collectors) (state : ConnectionState) (now : UInt64) :
    List Table.Call :=
  match c.connectivity with
  | none => []
  | some connectivity => connectivity.calls now state

end Collectors

/-! ### What events show -/

def Event.reading? (c : Catalog) (key : Nat) : Event → Option Reading
  | .session number readings => ((c.sessionKeys number).zip readings).lookup key
  | .trace _ => none

/-- The time that an event shows for the timer of a key, `0` if it shows none. -/
def Event.timeOf (c : Catalog) (key : Nat) : Event → Nat
  | .session number readings =>
    match ((c.sessionKeys number).zip readings).lookup key with
    | some (.timer (some ms)) => ms
    | _ => 0
  | .trace _ => 0

theorem lookup_zip {α : Type} {keys : List Nat} {values : List α} {f : Nat → Option α}
    (each : List.Forall₂ (fun key value => f key = some value) keys values) {key : Nat}
    (member : key ∈ keys) : (keys.zip values).lookup key = f key := by
  induction each with
  | nil => cases member
  | @cons key' value keys values here rest ih =>
      rw [List.zip_cons_cons, List.lookup_cons]
      by_cases same : key = key'
      · subst same
        rw [beq_self_eq_true, here]
      · rw [beq_false_of_ne same]
        exact ih ((List.mem_cons.mp member).resolve_left same)

theorem lookup_zip_of_not_mem {α : Type} {keys : List Nat} {key : Nat} (other : key ∉ keys)
    (values : List α) : (keys.zip values).lookup key = none := by
  induction keys generalizing values with
  | nil => rfl
  | cons key' keys ih =>
      cases values with
      | nil => rfl
      | cons value values =>
          rw [List.mem_cons, not_or] at other
          rw [List.zip_cons_cons, List.lookup_cons, beq_false_of_ne other.1]
          exact ih other.2 values

namespace Table

variable {t : Table} {key session : Nat} {timer : Timer}

theorem reading?_sessionEvent {slot : Slot} (fits : t.Fits)
    (member : key ∈ t.catalog.sessionKeys session) (here : t.slots[key]? = some slot) :
    (t.sessionEvent session).reading? t.catalog key = some slot.reading := by
  have each : List.Forall₂ (fun key r => t.slots[key]?.map Slot.reading = some r)
      (t.catalog.sessionKeys session) (t.sessionReadings session) := by
    refine (fits.forall₂_readings session).imp ?_
    rintro key r ⟨e, slot, -, found, -, rfl⟩
    simp [found]
  rw [sessionEvent, Event.reading?, lookup_zip each member, here]
  rfl

theorem timeOf_sessionEvent (fits : t.Fits) (member : key ∈ t.catalog.sessionKeys session)
    (here : t.HasTimer key timer) :
    (t.sessionEvent session).timeOf t.catalog key = timer.shown.getD 0 := by
  have shown := reading?_sessionEvent fits member here
  rw [sessionEvent, Event.reading?] at shown
  rw [sessionEvent, Event.timeOf, shown, Slot.reading]
  cases timer.shown with
  | none => rfl
  | some ms => rfl

theorem timeOf_of_not_mem (c : Catalog) (other : key ∉ c.sessionKeys session)
    (readings : List Reading) : (Event.session session readings).timeOf c key = 0 := by
  rw [Event.timeOf, lookup_zip_of_not_mem other]

end Table

end DeviceTelemetry
