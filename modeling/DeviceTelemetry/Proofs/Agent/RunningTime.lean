import DeviceTelemetry.Proofs.Agent.Timing

/-!
# Running time across heartbeats

A timer of the heartbeat that only its starts and stops drive reports each millisecond in which it
runs once: what its events have shown so far, together with what it shows now, is the time that it
has been running (`running_time_is_reported_once`). `Timer.Owes` is what holds of the timer between
two operations.
-/

set_option autoImplicit false

namespace DeviceTelemetry

namespace Agent

variable {ν : Type}

def Operation.isCycle : Operation ν → Bool
  | .heartbeat => true
  | .collect session => session = Catalog.heartbeat
  | _ => false

def Operation.switch (key : Nat) (on : Bool) : Operation ν → Bool
  | .startTimer key' => if key' = key then true else on
  | .stopTimer key' => if key' = key then false else on
  | _ => on

/-- How long the timer of a key runs during operations, by the clock and its starts and stops. -/
def timeRunning (key : Nat) : Bool → UInt64 → List (Operation ν) → Nat
  | _, _, [] => 0
  | on, now, op :: ops =>
    (if on then (op.clock now).toNat - now.toNat else 0) +
      timeRunning key (op.switch key on) (op.clock now) ops

variable [Nonvolatile ν]

/-- The time that the events of operations show for the timer of a key, whether or not the events
are kept. -/
def timeReported (key : Nat) (a : Agent ν) : List (Operation ν) → Nat
  | [] => 0
  | op :: ops =>
    ((a.ownEvent op).map (Event.timeOf a.table.catalog key)).getD 0 +
      timeReported key (a.perform op).2 ops

/-- The clock does not go back, and it is always less than a period after the last heartbeat, the
first of which is at `last`. -/
def Paced (last : Nat) (a : Agent ν) : List (Operation ν) → Prop
  | [] => True
  | op :: ops =>
    a.now.toNat ≤ (op.clock a.now).toNat ∧ (op.clock a.now).toNat < last + Timer.period ∧
      Paced (if op.isCycle then a.now.toNat else last) (a.perform op).2 ops

/-- What an operation does to the timer of a key by its hook or for the times of connection. -/
def sideMoves (a : Agent ν) (key : Nat) : Operation ν → List Timer.Move
  | .changeConnection state =>
    (a.collectors.connectionCalls state a.now).flatMap (a.callMoves key)
  | op => hookMoves a.table.catalog key (a.hookOf op)

/-- Neither a hook nor a change of the connection does anything to the timer of a key. -/
def Undisturbed (key : Nat) (a : Agent ν) : List (Operation ν) → Prop
  | [] => True
  | op :: ops => a.sideMoves key op = [] ∧ Undisturbed key (a.perform op).2 ops

instance decidablePaced (last : Nat) (a : Agent ν) :
    (ops : List (Operation ν)) → Decidable (a.Paced last ops)
  | [] => isTrue trivial
  | op :: ops =>
    have := decidablePaced (if op.isCycle then a.now.toNat else last) (a.perform op).2 ops
    inferInstanceAs (Decidable (_ ∧ _ ∧ _))

instance decidableUndisturbed (key : Nat) (a : Agent ν) :
    (ops : List (Operation ν)) → Decidable (a.Undisturbed key ops)
  | [] => isTrue trivial
  | op :: ops =>
    have := decidableUndisturbed key (a.perform op).2 ops
    inferInstanceAs (Decidable (_ ∧ _))

end Agent

/-! ### Intervals -/

namespace Timer

/-- An interval is exact if it is shorter than the period, wherever the clock goes round. -/
theorem between_phase {d now : Nat} (short : d < period) (inside : d ≤ now) :
    between ((now - d) % period) (now % period) = d := by
  unfold period at *
  unfold between
  split
  · omega
  · unfold period
    omega

/-- Of the time `total` that a timer has been running until `now`, `reported` is done with. What is
left is no longer than the time since `last`: the timer has added up a part of it, and the rest is
the present interval. -/
structure Owes (t : Timer) (on : Bool) (reported total last now : Nat) : Prop where
  isRunning : t.isRunning = on
  balance : ∃ d, (∀ start ∈ t.startedAt, start = (now - d) % period) ∧
    (t.startedAt = none → d = 0) ∧ reported + t.elapsed + d = total ∧ last + t.elapsed + d ≤ now
  recorded : t.recorded = false → t.elapsed = 0

theorem owes_new (now : Nat) : ({} : Timer).Owes false 0 0 now now where
  isRunning := rfl
  balance := ⟨0, nofun, fun _ => rfl, rfl, Nat.le_refl now⟩
  recorded _ := rfl

section Owes

variable {t : Timer} {on : Bool} {reported total last : Nat} {now : UInt64}

theorem Owes.getD_shown {now : Nat} (h : t.Owes on reported total last now) :
    t.shown.getD 0 = t.elapsed := by
  rw [shown]
  cases recorded : t.recorded with
  | true => rfl
  | false => exact (h.recorded recorded).symm

/-- A timer up to now has added up all that is left. -/
theorem Owes.tally (h : t.Owes on reported total last now.toNat)
    (short : now.toNat < last + period) :
    (t.tally now).Owes on reported total last now.toNat ∧
      reported + (t.tally now).elapsed = total := by
  obtain ⟨d, started, stopped, whole, part⟩ := h.balance
  have running := h.isRunning
  simp only [Timer.tally]
  cases origin : t.startedAt with
  | none =>
      have zero := stopped origin
      dsimp only
      exact ⟨h, by omega⟩
  | some start =>
      have interval : between start (phase now) = d := by
        rw [started start origin]
        exact between_phase (by omega) (by omega)
      have small : t.elapsed + d ≤ maxElapsed := by
        unfold maxElapsed
        omega
      dsimp only [accumulate]
      rw [interval, Nat.min_eq_left small]
      refine ⟨⟨?_, ⟨0, ?_, fun _ => rfl, ?_, ?_⟩, by rintro ⟨⟩⟩, ?_⟩
      · rw [← running, Timer.isRunning, Timer.isRunning, origin]
        rfl
      · rintro _ ⟨⟩
        rfl
      · show reported + (t.elapsed + d) + 0 = total
        omega
      · show last + (t.elapsed + d) + 0 ≤ now.toNat
        omega
      · omega

theorem Owes.tallies (h : t.Owes on reported total last now.toNat)
    (short : now.toNat < last + period) {moves : List Move} (idle : ∀ m ∈ moves, m = .tally now) :
    ((t.tally now).moveAll moves).Owes on reported total last now.toNat ∧
      reported + ((t.tally now).moveAll moves).elapsed = total := by
  induction moves generalizing t with
  | nil => exact h.tally short
  | cons m moves ih =>
      obtain rfl := idle m List.mem_cons_self
      exact ih (h.tally short).1 fun m' member => idle m' (List.mem_cons_of_mem _ member)

theorem Owes.idle (h : t.Owes on reported total last now.toNat)
    (short : now.toNat < last + period) {moves : List Move} (idle : ∀ m ∈ moves, m = .tally now) :
    (t.moveAll moves).Owes on reported total last now.toNat := by
  cases moves with
  | nil => exact h
  | cons m moves =>
      obtain rfl := idle m List.mem_cons_self
      exact (h.tallies short fun m' member => idle m' (List.mem_cons_of_mem _ member)).1

theorem Owes.start (h : t.Owes on reported total last now.toNat) :
    (t.move (.start now)).Owes true reported total last now.toNat := by
  obtain ⟨d, started, stopped, whole, part⟩ := h.balance
  have running := h.isRunning
  simp only [move, start?]
  cases origin : t.startedAt with
  | none =>
      obtain rfl := stopped origin
      refine ⟨rfl, ⟨0, ?_, by rintro ⟨⟩, whole, part⟩, h.recorded⟩
      rintro _ ⟨⟩
      rfl
  | some start =>
      rw [Timer.isRunning, origin] at running
      obtain rfl : on = true := running.symm
      exact h

theorem Owes.stop (h : t.Owes on reported total last now.toNat)
    (short : now.toNat < last + period) :
    (t.move (.stop now)).Owes false reported total last now.toNat := by
  have stopped : t.move (.stop now) = { t.tally now with startedAt := none } := by
    obtain ⟨elapsed, recorded, startedAt⟩ := t
    cases startedAt with
    | none => rfl
    | some start => rfl
  obtain ⟨next, whole⟩ := h.tally short
  obtain ⟨d, -, -, -, part⟩ := next.balance
  rw [stopped]
  refine ⟨rfl, ⟨0, nofun, fun _ => rfl, whole, ?_⟩, next.recorded⟩
  dsimp only
  omega

/-- Once all that is left is reported, nothing is left. -/
theorem Owes.report (h : t.Owes on reported total last now.toNat)
    (whole : reported + t.elapsed = total) :
    t.reset.Owes on (reported + t.elapsed) total now.toNat now.toNat := by
  obtain ⟨d, started, stopped, whole', part⟩ := h.balance
  obtain rfl : d = 0 := by omega
  exact ⟨h.isRunning, ⟨0, started, stopped, whole, Nat.le_refl _⟩, fun _ => rfl⟩

theorem Owes.advance (h : t.Owes on reported total last now.toNat) {later : UInt64}
    (forward : now.toNat ≤ later.toNat) :
    t.Owes on reported (total + if on then later.toNat - now.toNat else 0) last later.toNat := by
  obtain ⟨d, started, stopped, whole, part⟩ := h.balance
  have running := h.isRunning
  rw [Timer.isRunning] at running
  cases origin : t.startedAt with
  | none =>
      obtain rfl := stopped origin
      rw [origin] at running
      obtain rfl : on = false := running.symm
      rw [if_neg Bool.false_ne_true]
      exact ⟨h.isRunning, ⟨0, by rw [origin]; rintro _ ⟨⟩, fun _ => rfl, whole, by omega⟩,
        h.recorded⟩
  | some start =>
      rw [origin] at running
      obtain rfl : on = true := running.symm
      rw [if_pos rfl]
      refine ⟨h.isRunning, ⟨d + (later.toNat - now.toNat), ?_, ?_, by omega, by omega⟩,
        h.recorded⟩
      · intro start here
        rw [started start here]
        congr 1
        omega
      · intro stands
        rw [origin] at stands
        cases stands

end Owes

end Timer

namespace Agent

variable {ν : Type}

def shownBy (a : Agent ν) (key : Nat) (op : Operation ν) : Nat :=
  ((a.ownEvent op).map (Event.timeOf a.table.catalog key)).getD 0

/-- The timer of a key owes what it has been running for and has not reported. -/
structure Tracks (c : Catalog) (key : Nat) (a : Agent ν) (on : Bool) (reported total last : Nat) :
    Prop where
  catalog : a.table.catalog = c
  fits : a.table.Fits
  timer : ∃ t, a.table.HasTimer key t ∧ t.Owes on reported total last a.now.toNat
  short : a.now.toNat < last + Timer.period

/-! ### One operation -/

section Steps

variable {schema : Schema} {c : Catalog} {key : Nat} {e : Catalog.Entry} {a : Agent ν}
  {session : Nat}

theorem not_mem_sessionKeys (metric : c.metric? key = some e) (beat : e.session = Catalog.heartbeat)
    (user : session ≠ Catalog.heartbeat) : key ∉ c.sessionKeys session := by
  rw [Catalog.mem_sessionKeys, Catalog.inSession_iff metric]
  exact fun same => user (same.trans beat)

theorem callMoves_of_user (catalog : a.table.catalog = c) (metric : c.metric? key = some e)
    (beat : e.session = Catalog.heartbeat) (user : session ≠ Catalog.heartbeat) (now : UInt64) :
    a.callMoves key (.tallySession session now) = [] ∧
      a.callMoves key (.resetSession session) = [] := by
  have other : ¬c.InSession session key := fun bad =>
    user (((Catalog.inSession_iff metric).mp bad).trans beat)
  subst catalog
  exact ⟨if_neg other, if_neg other⟩

theorem ne_durationKey (valid : schema.catalog = .ok c) (catalog : a.table.catalog = c)
    (metric : c.metric? key = some e) (beat : e.session = Catalog.heartbeat) {duration : Nat}
    (found : a.durationKey session = .ok duration) : duration ≠ key := by
  have user := durationKey_ne_heartbeat found
  rw [durationKey_eq_ok, catalog] at found
  rintro rfl
  obtain ⟨e', metric', -, rfl⟩ := Schema.exists_durationEntry valid found
  obtain rfl := Option.some.inj (metric.symm.trans metric')
  exact user beat

theorem beginningMoves_eq_nil (valid : schema.catalog = .ok c) (catalog : a.table.catalog = c)
    (metric : c.metric? key = some e) (beat : e.session = Catalog.heartbeat) :
    a.beginningMoves key session = [] := by
  unfold beginningMoves
  cases found : a.durationKey session with
  | error e => rfl
  | ok duration =>
      have start : a.callMoves key (.startTimer duration a.now) = [] :=
        if_neg (ne_durationKey valid catalog metric beat found)
      dsimp only
      rw [start, (callMoves_of_user catalog metric beat (durationKey_ne_heartbeat found) a.now).2]
      rfl

/-- The end of a user session concerns a metric of the heartbeat by its hook only. -/
theorem endingMoves_eq_hookMoves (valid : schema.catalog = .ok c) (catalog : a.table.catalog = c)
    (metric : c.metric? key = some e) (beat : e.session = Catalog.heartbeat) :
    a.endingMoves key session = hookMoves a.table.catalog key (a.endingHook session) := by
  unfold endingMoves
  cases found : a.durationKey session with
  | error e =>
      rw [endingHook, found]
      rfl
  | ok duration =>
      have stop : a.callMoves key (.stopTimer duration a.now) = [] :=
        if_neg (ne_durationKey valid catalog metric beat found)
      obtain ⟨tally, reset⟩ :=
        callMoves_of_user catalog metric beat (durationKey_ne_heartbeat found) a.now
      dsimp only
      rw [stop, tally, reset, List.append_nil, List.append_nil, ite_self, List.append_nil]

theorem collectionMoves_eq_nil (catalog : a.table.catalog = c) (metric : c.metric? key = some e)
    (beat : e.session = Catalog.heartbeat) (user : session ≠ Catalog.heartbeat) :
    a.collectionMoves key session = [] := by
  obtain ⟨tally, reset⟩ := callMoves_of_user catalog metric beat user a.now
  have hook : a.collectionHook session = none := if_neg fun both => user both.2
  rw [collectionMoves, tally, reset, hook, hookMoves_none]
  exact ite_self _

theorem shownBy_endSession (catalog : a.table.catalog = c) (metric : c.metric? key = some e)
    (beat : e.session = Catalog.heartbeat) : a.shownBy key (.endSession session) = 0 := by
  show ((a.endedEvent session).map _).getD 0 = 0
  unfold endedEvent
  cases found : a.durationKey session with
  | error e => rfl
  | ok duration =>
      dsimp only
      split
      · rw [catalog]
        exact Table.timeOf_of_not_mem c
          (not_mem_sessionKeys metric beat (durationKey_ne_heartbeat found)) _
      · rfl

theorem shownBy_collect (catalog : a.table.catalog = c) (metric : c.metric? key = some e)
    (beat : e.session = Catalog.heartbeat) (user : session ≠ Catalog.heartbeat) :
    a.shownBy key (.collect session) = 0 := by
  show ((a.collectedEvent session).map _).getD 0 = 0
  unfold collectedEvent
  split
  · rw [catalog]
    exact Table.timeOf_of_not_mem c (not_mem_sessionKeys metric beat user) _
  · rfl

variable [Nonvolatile ν] {op : Operation ν} {on on' : Bool}
  {reported reported' total total' last last' : Nat}

theorem Tracks.step (h : a.Tracks c key on reported total last)
    (owes : ∀ t, a.table.HasTimer key t → t.Owes on reported total last a.now.toNat →
      (t.moveAll (a.moves key op)).Owes on' reported' total' last' (op.clock a.now).toNat)
    (short : (op.clock a.now).toNat < last' + Timer.period) :
    (a.perform op).2.Tracks c key on' reported' total' last' := by
  obtain ⟨moved, now⟩ := moved_perform key a op
  obtain ⟨t, here, before⟩ := h.timer
  refine ⟨moved.follows.catalog.trans h.catalog, h.fits.follows moved.follows, ?_, ?_⟩
  · refine ⟨_, moved.timer here, ?_⟩
    rw [now]
    exact owes t here before
  · rw [now]
    exact short

/-- What does no more than read the timer, and shows nothing of it, lets time pass. -/
theorem Tracks.pass (h : a.Tracks c key on reported total last)
    (idle : ∀ m ∈ a.moves key op, m = .tally a.now)
    (forward : a.now.toNat ≤ (op.clock a.now).toNat)
    (short : (op.clock a.now).toNat < last + Timer.period) :
    (a.perform op).2.Tracks c key on reported
      (total + if on then (op.clock a.now).toNat - a.now.toNat else 0) last := by
  refine h.step ?_ short
  intro t here owes
  exact (owes.idle h.short idle).advance forward

theorem Tracks.still (h : a.Tracks c key on reported total last) (clock : op.clock a.now = a.now)
    (owes : ∀ t : Timer, t.Owes on reported total last a.now.toNat →
      (t.moveAll (a.moves key op)).Owes on' reported total last a.now.toNat) :
    (a.perform op).2.Tracks c key on' reported
      (total + if on then (op.clock a.now).toNat - a.now.toNat else 0) last := by
  rw [clock, Nat.sub_self, ite_self, Nat.add_zero]
  refine h.step (fun t _ before => ?_) (clock.symm ▸ h.short)
  rw [clock]
  exact owes t before

theorem Tracks.collect (h : a.Tracks c key on reported total last) (valid : schema.catalog = .ok c)
    (metric : c.metric? key = some e) (beat : e.session = Catalog.heartbeat)
    (idle : ∀ m ∈ hookMoves a.table.catalog key (a.collectionHook Catalog.heartbeat),
      m = .tally a.now) :
    (a.perform (.collect Catalog.heartbeat)).2.Tracks c key on
      (reported + a.shownBy key (.collect Catalog.heartbeat))
      (total + if on then a.now.toNat - a.now.toNat else 0) a.now.toNat := by
  rw [Nat.sub_self, ite_self, Nat.add_zero]
  have known : Catalog.heartbeat < a.table.catalog.sessionCount := by
    rw [h.catalog]
    exact Schema.heartbeat_lt valid
  have hook : a.collectionHook Catalog.heartbeat = a.collectHook := if_pos ⟨known, rfl⟩
  have member : a.table.catalog.InSession Catalog.heartbeat key := by
    rw [h.catalog]
    exact (Catalog.inSession_iff metric).mpr beat.symm
  have tally : a.callMoves key (.tallySession Catalog.heartbeat a.now) = [.tally a.now] :=
    if_pos member
  have reset : a.callMoves key (.resetSession Catalog.heartbeat) = [.reset] := if_pos member
  have moves : a.moves key (.collect Catalog.heartbeat) =
      .tally a.now :: hookMoves a.table.catalog key (a.collectionHook Catalog.heartbeat) ++
        [.reset] := by
    show a.collectionMoves key Catalog.heartbeat = _
    rw [collectionMoves, if_pos known, tally, reset]
    rfl
  refine h.step ?_ (Nat.lt_add_of_pos_right (by decide))
  intro t here owes
  obtain ⟨next, whole⟩ := owes.tallies h.short idle
  generalize hooked : hookMoves a.table.catalog key (a.collectionHook Catalog.heartbeat) = read
    at moves next whole
  have shown : a.shownBy key (.collect Catalog.heartbeat) =
      ((t.tally a.now).moveAll read).elapsed := by
    have refreshed := passes_refresh key a Catalog.heartbeat
    have own : a.ownEvent (.collect Catalog.heartbeat) =
        some (a.currentEvent Catalog.heartbeat) := if_pos known
    rw [if_pos rfl, ← hook, hooked, tally] at refreshed
    have there := refreshed.moved.timer here
    have fits := h.fits.follows refreshed.moved.follows
    have keys := Catalog.mem_sessionKeys.mpr member
    rw [← refreshed.catalog] at keys
    rw [shownBy, own, Option.map_some, Option.getD_some, currentEvent, ← refreshed.catalog,
      Table.timeOf_sessionEvent fits keys there, ← next.getD_shown]
    rfl
  rw [moves, shown, Timer.moveAll_append]
  exact next.report whole

theorem Tracks.perform (h : a.Tracks c key on reported total last) (valid : schema.catalog = .ok c)
    (metric : c.metric? key = some e) (beat : e.session = Catalog.heartbeat) (op : Operation ν)
    (idle : ∀ m ∈ a.sideMoves key op, m = .tally a.now)
    (forward : a.now.toNat ≤ (op.clock a.now).toNat)
    (short : (op.clock a.now).toNat < last + Timer.period) :
    (a.perform op).2.Tracks c key (op.switch key on) (reported + a.shownBy key op)
      (total + if on then (op.clock a.now).toNat - a.now.toNat else 0)
      (if op.isCycle then a.now.toNat else last) := by
  cases op with
  | startTimer key' =>
      refine h.still rfl fun t owes => ?_
      show (t.moveAll (if key' = key then [.start a.now] else [])).Owes
        (if key' = key then true else on) _ _ _ _
      split
      · exact owes.start
      · exact owes
  | stopTimer key' =>
      refine h.still rfl fun t owes => ?_
      show (t.moveAll (if key' = key then [.stop a.now] else [])).Owes
        (if key' = key then false else on) _ _ _ _
      split
      · exact owes.stop h.short
      · exact owes
  | readTimer key' => exact h.pass (Timer.Move.forall_mem_ite _ rfl) forward short
  | describe => exact h.pass (Timer.Move.forall_mem_ite _ rfl) forward short
  | heartbeat => exact h.collect valid metric beat idle
  | collect session =>
      by_cases user : session = Catalog.heartbeat
      · subst user
        exact h.collect valid metric beat idle
      · have moves : a.moves key (.collect session) = [] :=
          collectionMoves_eq_nil h.catalog metric beat user
        have other : (Operation.collect session : Operation ν).isCycle = false :=
          decide_eq_false user
        rw [shownBy_collect h.catalog metric beat user, other]
        exact h.pass (by simp [moves]) forward short
  | endSession session =>
      have moves : a.moves key (.endSession session) = a.sideMoves key (.endSession session) :=
        endingMoves_eq_hookMoves valid h.catalog metric beat
      rw [shownBy_endSession h.catalog metric beat]
      exact h.pass (moves ▸ idle) forward short
  | startSession session =>
      have moves : a.moves key (.startSession session) = [] :=
        beginningMoves_eq_nil valid h.catalog metric beat
      exact h.pass (by simp [moves]) forward short
  | changeConnection state => exact h.pass idle forward short
  | _ => exact h.pass (by simp [moves]) forward short

/-! ### Lives -/

theorem Tracks.performAll (h : a.Tracks c key on reported total last)
    (valid : schema.catalog = .ok c) (metric : c.metric? key = some e)
    (beat : e.session = Catalog.heartbeat) {ops : List (Operation ν)} (paced : a.Paced last ops)
    (undisturbed : a.Undisturbed key ops) :
    ∃ on' last', (a.performAll ops).2.Tracks c key on' (reported + timeReported key a ops)
      (total + timeRunning key on a.now ops) last' := by
  induction ops generalizing a on reported total last with
  | nil => exact ⟨on, last, h⟩
  | cons op ops ih =>
      obtain ⟨forward, short, paced⟩ := paced
      obtain ⟨spared, undisturbed⟩ := undisturbed
      have one := h.perform valid metric beat op (by simp [spared]) forward short
      obtain ⟨on', last', rest⟩ := ih one paced undisturbed
      rw [(moved_perform key a op).2, Nat.add_assoc, Nat.add_assoc] at rest
      exact ⟨on', last', rest⟩

end Steps

theorem hasTimer_of_boot {configuration : Configuration} {capacity : Nat} {platform : Platform}
    {a : Agent ν} (booted : boot configuration capacity platform = .ok a) {key : Nat}
    {e : Catalog.Entry} (metric : a.table.catalog.metric? key = some e) (timer : e.kind = .timer) :
    a.table.HasTimer key {} := by
  rw [(unset_of_boot booted).1]
  exact Table.hasTimer_ofCatalog metric timer

/-- From boot on, what the events have shown for a timer of the heartbeat and what it shows now are
together the time for which it has been running, as long as heartbeats are less than a period
apart and the timer is started and stopped by nothing else. -/
theorem running_time_is_reported_once [Nonvolatile ν] {configuration : Configuration}
    {capacity : Nat} {platform : Platform} {a : Agent ν}
    (booted : boot configuration capacity platform = .ok a) {key : Nat} {e : Catalog.Entry}
    (metric : a.table.catalog.metric? key = some e) (timer : e.kind = .timer)
    (beat : e.session = Catalog.heartbeat) {ops : List (Operation ν)}
    (paced : a.Paced a.now.toNat ops) (undisturbed : a.Undisturbed key ops) :
    ∃ ms, ((a.performAll ops).2.perform (.readTimer key)).1 = .ok (.metric (.time ms)) ∧
      timeReported key a ops + ms = timeRunning key false a.now ops := by
  obtain ⟨c, valid, sound, -⟩ := boot_eq_ok booted
  rw [sound.catalog] at metric
  have start : a.Tracks c key false 0 0 a.now.toNat :=
    ⟨sound.catalog, sound.slots,
      ⟨{}, hasTimer_of_boot booted (by rw [sound.catalog]; exact metric) timer,
        Timer.owes_new a.now.toNat⟩,
      Nat.lt_add_of_pos_right (by decide)⟩
  obtain ⟨on, last, tracks⟩ := start.performAll valid metric beat paced undisturbed
  rw [Nat.zero_add, Nat.zero_add] at tracks
  obtain ⟨t, here, owes⟩ := tracks.timer
  refine ⟨_, ?_, (owes.tally tracks.short).2⟩
  generalize (a.performAll ops).2 = b at here
  have read : b.table.readTimer key b.now = .ok ((t.tally b.now).elapsed, _) :=
    Table.readTimer_eq_ok.mpr ⟨t, here, rfl, rfl⟩
  have performed : (b.table.perform (.readTimer key b.now)).1 =
      .ok (.time (t.tally b.now).elapsed) := by
    simp only [Table.perform]
    rw [read]
  show ((b.table.perform (.readTimer key b.now)).1.map Answer.metric).mapError Failure.metric = _
  rw [performed]
  rfl

/-- The clock goes round between the first start and the first heartbeat. A start and a stop are
refused, and the second heartbeat is dropped. -/
theorem running_time_is_reported_once_around :
    let configuration : Configuration :=
      { device := {}, schema := { sessions := ["run"], metrics := [.timer "up"] } }
    let ops : List (Operation Empty) := [.startTimer 0, .advance 1000, .readTimer 0,
      .advance 500, .startTimer 0, .startSession 1, .heartbeat, .advance 200, .stopTimer 0,
      .advance 50, .stopTimer 0, .describe, .heartbeat, .startTimer 0, .advance 30]
    ∃ a : Agent Empty, boot configuration 32 { clock := 0x7FFFFE00 } = .ok a ∧
      (a.performAll ops).2.droppedEvents = 1 ∧ timeReported 0 a ops = 1700 ∧
        timeRunning 0 false a.now ops = 1730 ∧
        ((a.performAll ops).2.perform (.readTimer 0)).1 = .ok (.metric (.time 30)) := by
  intro configuration ops
  obtain ⟨a, booted, e, metric, timer, beat, paced, undisturbed, dropped, reported, running⟩ :
      ∃ a : Agent Empty, boot configuration 32 { clock := 0x7FFFFE00 } = .ok a ∧
        ∃ e, a.table.catalog.metric? 0 = some e ∧ e.kind = .timer ∧
          e.session = Catalog.heartbeat ∧ a.Paced a.now.toNat ops ∧ a.Undisturbed 0 ops ∧
          (a.performAll ops).2.droppedEvents = 1 ∧ timeReported 0 a ops = 1700 ∧
          timeRunning 0 false a.now ops = 1730 :=
    ⟨_, rfl, _, rfl, rfl, rfl, by decide +kernel, by decide +kernel, by decide +kernel,
      by decide +kernel, by decide +kernel⟩
  obtain ⟨ms, shown, whole⟩ :=
    running_time_is_reported_once booted metric timer beat paced undisturbed
  obtain rfl : ms = 30 := by omega
  exact ⟨a, booted, dropped, reported, running, shown⟩

end Agent

end DeviceTelemetry
