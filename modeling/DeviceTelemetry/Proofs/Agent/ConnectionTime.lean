import DeviceTelemetry.Proofs.Agent.Heartbeats

/-!
# Times of connection

The timers of the connection are started and stopped by the states that are reported. Heartbeats
show for each of them how long it has been running since the heartbeat before, as the states tell,
and a device is connected for no longer than a connection is expected
(`Agent.connection_times_add_up`). Both timers are treated alike: what a state does to one of them
is its role.
-/

set_option autoImplicit false

namespace DeviceTelemetry

/-! ### States and timers -/

namespace ConnectionState

def expecting : ConnectionState → Option Bool
  | .stopped => some false
  | _ => some true

def connecting : ConnectionState → Option Bool
  | .connected => some true
  | .started => none
  | _ => some false

end ConnectionState

namespace Timer

def turn (now : UInt64) : Option Bool → List Move
  | some true => [.start now]
  | some false => [.stop now]
  | none => []

theorem foldl_runs_turn (now : UInt64) (turned : Option Bool) (running : Bool) :
    (turn now turned).foldl (fun running m => m.runs running) running = turned.getD running := by
  cases turned with
  | none => rfl
  | some on => cases on <;> rfl

theorem foldl_runs_idle {now : UInt64} {moves : List Move}
    (idle : ∀ m ∈ moves, m = .tally now ∨ m = .reset) (running : Bool) :
    moves.foldl (fun running m => m.runs running) running = running := by
  induction moves with
  | nil => rfl
  | cons m moves ih =>
      have same : m.runs running = running := by
        rcases idle m List.mem_cons_self with rfl | rfl <;> rfl
      rw [List.foldl_cons, same]
      exact ih fun m' member => idle m' (List.mem_cons_of_mem m member)

section Owes

variable {t : Timer} {on : Bool} {reported total last : Nat} {now : UInt64}

theorem Owes.turn (h : t.Owes on reported total last now.toNat) (short : now.toNat < last + period)
    (turned : Option Bool) :
    (t.moveAll (Timer.turn now turned)).Owes (turned.getD on) reported total last now.toNat := by
  cases turned with
  | none => exact h
  | some on =>
      cases on with
      | true => exact h.start
      | false => exact h.stop short

/-- Right at a report nothing is left, so that the counting may begin anew. -/
theorem Owes.anew (h : t.Owes on reported total now.toNat now.toNat) :
    reported = total ∧ t.Owes on 0 0 now.toNat now.toNat := by
  obtain ⟨d, started, stopped, whole, part⟩ := h.balance
  have zero : t.elapsed = 0 ∧ d = 0 := by omega
  refine ⟨by omega, h.isRunning, ⟨d, started, stopped, by omega, part⟩, h.recorded⟩

end Owes

end Timer

namespace Agent

open ConnectionState (expecting connecting)

variable {ν : Type}

/-! ### Histories -/

def Operation.turns (role : ConnectionState → Option Bool) (on : Bool) : Operation ν → Bool
  | .changeConnection state => (role state).getD on
  | _ => on

/-- How long such a timer has been running since the last heartbeat: `sum` before the operations,
and as the states tell during them. -/
def timeSince (role : ConnectionState → Option Bool) :
    Bool → UInt64 → Nat → List (Operation ν) → Nat
  | _, _, sum, [] => sum
  | on, now, sum, op :: ops =>
    timeSince role (op.turns role on) (op.clock now)
      (if op.isCycle then 0 else sum + if on then (op.clock now).toNat - now.toNat else 0) ops

theorem expecting_of_connecting {connected expected : Bool}
    (order : connected = true → expected = true) (op : Operation ν)
    (there : op.turns connecting connected = true) : op.turns expecting expected = true := by
  cases op with
  | changeConnection state => cases state <;> simp_all [Operation.turns,
      connecting, expecting]
  | _ => exact order there

/-- A device is connected for no longer than it is expected to be. -/
theorem timeSince_connecting_le {connected expected : Bool}
    (order : connected = true → expected = true) (now : UInt64) {sum sum' : Nat}
    (less : sum ≤ sum') (ops : List (Operation ν)) :
    timeSince connecting connected now sum ops ≤
      timeSince expecting expected now sum' ops := by
  induction ops generalizing connected expected now sum sum' with
  | nil => exact less
  | cons op ops ih =>
      apply ih (expecting_of_connecting order op)
      split
      · exact Nat.le_refl 0
      · apply Nat.add_le_add less
        cases connected with
        | false => exact Nat.zero_le _
        | true => rw [order rfl]

theorem foldl_expecting_of_connecting {connected expected : Bool}
    (order : connected = true → expected = true) (ops : List (Operation ν))
    (there : ops.foldl (Operation.turns connecting) connected = true) :
    ops.foldl (Operation.turns expecting) expected = true := by
  induction ops generalizing connected expected with
  | nil => exact order there
  | cons op ops ih => exact ih (expecting_of_connecting order op) there

def Operation.turnedKey? : Operation ν → Option Nat
  | .startTimer key | .stopTimer key => some key
  | _ => none

/-- An operation or its hook does more to a timer than to read it. -/
def Drives (a : Agent ν) (key : Nat) (op : Operation ν) : Prop :=
  op.turnedKey? = some key ∨ ∃ m ∈ hookMoves a.table.catalog key (a.hookOf op), m ≠ .tally a.now

instance (a : Agent ν) (key : Nat) (op : Operation ν) : Decidable (a.Drives key op) :=
  inferInstanceAs (Decidable (_ ∨ _))

variable [Nonvolatile ν]

def Undriven (keys : List Nat) (a : Agent ν) : List (Operation ν) → Prop
  | [] => True
  | op :: ops => (∀ key ∈ keys, ¬a.Drives key op) ∧ Undriven keys (a.perform op).2 ops

instance decidableUndriven (keys : List Nat) (a : Agent ν) :
    (ops : List (Operation ν)) → Decidable (a.Undriven keys ops)
  | [] => isTrue trivial
  | op :: ops =>
    have := decidableUndriven keys (a.perform op).2 ops
    inferInstanceAs (Decidable (_ ∧ _))

/-! ### One operation -/

/-- The timer of a key, which is one of the heartbeat, is turned by changes of the connection as a
role tells, wherever the timers of the connection have these keys. -/
structure Plays (ν : Type) (c : Catalog) (keys : List Nat) (key : Nat)
    (role : ConnectionState → Option Bool) : Prop where
  valid : ∃ schema : Schema, schema.catalog = .ok c
  metric : ∃ e, c.metric? key = some e ∧ e.session = Catalog.heartbeat
  member : key ∈ keys
  moves : ∀ (a : Agent ν) (state : ConnectionState), a.collectors.keys .connectivity = some keys →
    a.moves key (.changeConnection state) = Timer.turn a.now (role state)

section Steps

variable {groups : BuiltinGroups} {c : Catalog} {keys : List Nat} {connected expected key : Nat}
  {role : ConnectionState → Option Bool} {e : Catalog.Entry} {a : Agent ν} {op : Operation ν}
  {on : Bool} {sum last : Nat}

omit [Nonvolatile ν]

theorem connectivity_of_keys {k : Collectors}
    (known : k.keys .connectivity = some [connected, expected]) :
    k.connectivity = some ⟨connected, expected⟩ := by
  simp only [Collectors.keys, Option.map_eq_some_iff] at known
  obtain ⟨⟨connected', expected'⟩, here, same⟩ := known
  cases same
  exact here

theorem moves_expected (apart : connected ≠ expected) (a : Agent ν) (state : ConnectionState)
    (known : a.collectors.keys .connectivity = some [connected, expected]) :
    a.moves expected (.changeConnection state) = Timer.turn a.now (expecting state) := by
  rw [Agent.moves, Collectors.connectionCalls, connectivity_of_keys known]
  cases state <;> simp [Connectivity.calls, callMoves, Table.Call.moves, apart,
    expecting, Timer.turn]

theorem moves_connected (apart : connected ≠ expected) (a : Agent ν) (state : ConnectionState)
    (known : a.collectors.keys .connectivity = some [connected, expected]) :
    a.moves connected (.changeConnection state) = Timer.turn a.now (connecting state) := by
  rw [Agent.moves, Collectors.connectionCalls, connectivity_of_keys known]
  cases state <;> simp [Connectivity.calls, callMoves, Table.Call.moves, Ne.symm apart,
    connecting, Timer.turn]

theorem Operation.turns_of_other (other : ∀ state, op ≠ .changeConnection state) :
    op.turns role on = on := by
  cases op with
  | changeConnection state => exact absurd rfl (other state)
  | _ => rfl

theorem Operation.switch_of_not_drives (undriven : ¬a.Drives key op) : op.switch key on = on := by
  cases op with
  | startTimer key' => exact if_neg fun same => undriven (.inl (congrArg some same))
  | stopTimer key' => exact if_neg fun same => undriven (.inl (congrArg some same))
  | _ => rfl

theorem sideMoves_of_other (other : ∀ state, op ≠ .changeConnection state) :
    a.sideMoves key op = hookMoves a.table.catalog key (a.hookOf op) := by
  cases op with
  | changeConnection state => exact absurd rfl (other state)
  | _ => rfl

theorem hookMoves_of_not_drives (undriven : ¬a.Drives key op) :
    ∀ m ∈ hookMoves a.table.catalog key (a.hookOf op), m = .tally a.now := by
  intro m member
  by_contra drives
  exact undriven (.inr ⟨m, member, drives⟩)

theorem idle_of_collection {session : Nat}
    (hook : ∀ m ∈ hookMoves a.table.catalog key (a.collectionHook session), m = .tally a.now) :
    ∀ m ∈ a.collectionMoves key session, m = .tally a.now ∨ m = .reset := by
  have tally : ∀ m ∈ a.callMoves key (.tallySession session a.now), m = .tally a.now :=
    Timer.Move.forall_mem_ite _ rfl
  have reset : ∀ m ∈ a.callMoves key (.resetSession session), m = .reset :=
    Timer.Move.forall_mem_ite _ rfl
  intro m member
  unfold collectionMoves at member
  split at member
  · rcases List.mem_append.mp member with member | member
    · rcases List.mem_append.mp member with member | member
      · exact .inl (tally m member)
      · exact .inl (hook m member)
    · exact .inr (reset m member)
  · cases member

theorem idle_of_not_drives (plays : Plays ν c keys key role) (catalog : a.table.catalog = c)
    (undriven : ¬a.Drives key op) (other : ∀ state, op ≠ .changeConnection state) :
    ∀ m ∈ a.moves key op, m = .tally a.now ∨ m = .reset := by
  obtain ⟨schema, valid⟩ := plays.valid
  obtain ⟨e, metric, beat⟩ := plays.metric
  have hook := hookMoves_of_not_drives undriven
  cases op with
  | startTimer key' =>
      have apart : key' ≠ key := fun same => undriven (.inl (congrArg some same))
      simp [Agent.moves, callMoves, Table.Call.moves, apart]
  | stopTimer key' =>
      have apart : key' ≠ key := fun same => undriven (.inl (congrArg some same))
      simp [Agent.moves, callMoves, Table.Call.moves, apart]
  | readTimer key' => exact Timer.Move.forall_mem_ite _ (.inl rfl)
  | describe => exact Timer.Move.forall_mem_ite _ (.inl rfl)
  | startSession session =>
      have still : a.moves key (.startSession session) = [] :=
        beginningMoves_eq_nil valid catalog metric beat
      simp [still]
  | endSession session =>
      have hooked : a.moves key (.endSession session) =
          hookMoves a.table.catalog key (a.endingHook session) :=
        endingMoves_eq_hookMoves valid catalog metric beat
      intro m member
      rw [hooked] at member
      exact .inl (hook m member)
  | collect session => exact idle_of_collection hook
  | heartbeat => exact idle_of_collection hook
  | changeConnection state => exact absurd rfl (other state)
  | _ => simp [Agent.moves]

theorem Operation.clock_of_isCycle (cycle : op.isCycle = true) (now : UInt64) :
    op.clock now = now := by
  cases op <;> simp_all [isCycle, clock]

theorem shownBy_of_not_isCycle (catalog : a.table.catalog = c) (metric : c.metric? key = some e)
    (beat : e.session = Catalog.heartbeat) (plain : op.isCycle = false) :
    a.shownBy key op = 0 := by
  cases op with
  | heartbeat => cases plain
  | collect session => exact shownBy_collect catalog metric beat (of_decide_eq_false plain)
  | endSession session => exact shownBy_endSession catalog metric beat
  | _ => rfl

variable [Nonvolatile ν]

theorem isRunning_turns (knows : a.Knows groups c .connectivity keys)
    (plays : Plays ν c keys key role) (undriven : ¬a.Drives key op)
    (running : a.table.isRunning key = .ok on) :
    (a.perform op).2.table.isRunning key = .ok (op.turns role on) := by
  rw [(moved_perform key a op).1.isRunning running]
  by_cases change : ∃ state, op = .changeConnection state
  · obtain ⟨state, rfl⟩ := change
    rw [plays.moves a state knows.known, Timer.foldl_runs_turn]
    rfl
  · have other : ∀ state, op ≠ .changeConnection state := fun state same => change ⟨state, same⟩
    rw [Timer.foldl_runs_idle (idle_of_not_drives plays knows.catalog undriven other),
      Operation.turns_of_other other]

omit [Nonvolatile ν] in
theorem Tracks.anew {reported total : Nat}
    (h : a.Tracks c key on reported total a.now.toNat) :
    reported = total ∧ a.Tracks c key on 0 0 a.now.toNat := by
  obtain ⟨t, here, owes⟩ := h.timer
  obtain ⟨whole, owes⟩ := owes.anew
  exact ⟨whole, h.catalog, h.fits, ⟨t, here, owes⟩, h.short⟩

/-- A heartbeat shows how long the timer has been running since the one before. -/
theorem Tracks.turns (h : a.Tracks c key on 0 sum last)
    (knows : a.Knows groups c .connectivity keys) (plays : Plays ν c keys key role)
    (undriven : ¬a.Drives key op) (forward : a.now.toNat ≤ (op.clock a.now).toNat)
    (short : (op.clock a.now).toNat <
      (if op.isCycle then a.now.toNat else last) + Timer.period) :
    a.shownBy key op = (if op.isCycle then sum else 0) ∧
      (a.perform op).2.Tracks c key (op.turns role on) 0
        (if op.isCycle then 0 else sum + if on then (op.clock a.now).toNat - a.now.toNat else 0)
        (if op.isCycle then a.now.toNat else last) := by
  by_cases change : ∃ state, op = .changeConnection state
  · obtain ⟨state, rfl⟩ := change
    refine ⟨rfl, h.still rfl fun t owes => ?_⟩
    rw [plays.moves a state knows.known]
    exact owes.turn h.short (role state)
  · have other : ∀ state, op ≠ .changeConnection state := fun state same => change ⟨state, same⟩
    obtain ⟨schema, valid⟩ := plays.valid
    obtain ⟨e, metric, beat⟩ := plays.metric
    have idle := sideMoves_of_other other ▸ hookMoves_of_not_drives undriven
    rw [Operation.turns_of_other other]
    cases cycle : op.isCycle with
    | true =>
        have clock := Operation.clock_of_isCycle cycle a.now
        have now := (moved_perform key a op).2.trans clock
        have next := h.perform valid metric beat op idle forward (clock.symm ▸ h.short)
        rw [Operation.switch_of_not_drives undriven, cycle, if_pos rfl, clock, Nat.sub_self,
          ite_self, Nat.zero_add, ← now] at next
        rw [← now]
        exact next.anew
    | false =>
        rw [cycle] at short
        have unshown := shownBy_of_not_isCycle h.catalog metric beat cycle
        have next := h.perform valid metric beat op idle forward short
        rw [Operation.switch_of_not_drives undriven, cycle, unshown] at next
        exact ⟨unshown, next⟩

/-! ### Lives -/

theorem Tracks.timeShown {before : UInt64} (h : a.Tracks c key on 0 sum before.toNat)
    (knows : a.Knows groups c .connectivity keys) (plays : Plays ν c keys key role)
    (cycle : op.isCycle = true) {ops : List (Operation ν)}
    (undriven : a.Undriven keys (ops ++ [op]))
    (regular : Regular Timer.period before a.now (ops ++ [op])) :
    (a.performAll ops).2.shownBy key op = timeSince role on a.now sum ops := by
  induction ops generalizing a on sum before with
  | nil =>
      obtain ⟨forward, -, -⟩ := regular
      have short : (op.clock a.now).toNat <
          (if op.isCycle then a.now.toNat else before.toNat) + Timer.period := by
        rw [cycle, if_pos rfl, Operation.clock_of_isCycle cycle]
        exact Nat.lt_add_of_pos_right (by decide)
      have shown := (h.turns knows plays (undriven.1 key plays.member) forward short).1
      rwa [cycle, if_pos rfl] at shown
  | cons op' ops ih =>
      obtain ⟨forward, -, rest⟩ := regular
      have short := rest.short cycle
      rw [apply_ite UInt64.toNat] at short
      obtain ⟨-, next⟩ := h.turns knows plays (undriven.1 key plays.member) forward short
      rw [← apply_ite UInt64.toNat] at next
      have now := (moved_perform key a op').2
      have shown := ih next (knows.perform op') undriven.2 (now ▸ rest)
      rwa [now] at shown

theorem isRunning_performAll (knows : a.Knows groups c .connectivity keys)
    (plays : Plays ν c keys key role) {ops : List (Operation ν)} (undriven : a.Undriven keys ops)
    (running : a.table.isRunning key = .ok on) :
    (a.performAll ops).2.table.isRunning key = .ok (ops.foldl (Operation.turns role) on) := by
  induction ops generalizing a on with
  | nil => exact running
  | cons op ops ih =>
      exact ih (knows.perform op) undriven.2
        (isRunning_turns knows plays (undriven.1 key plays.member) running)

end Steps

/-- From boot on, as long as nothing else drives the timers of the connection, every change of the
connection succeeds, and the timer of the time connected runs only while the other does. As long as
heartbeats are less than a period apart, each shows how long a connection has been expected and how
long there has been one since the heartbeat before, as the states tell; the latter is no longer. -/
theorem connection_times_add_up {configuration : Configuration} {capacity : Nat}
    {platform : Platform} {a : Agent ν} (booted : boot configuration capacity platform = .ok a)
    (enabled : configuration.builtins.connectivity = true) :
    ∃ connected expected, a.table.catalog.keyOf? BuiltinGroups.connectedTime = some connected ∧
      a.table.catalog.keyOf? BuiltinGroups.expectedTime = some expected ∧
      (∀ ops : List (Operation ν), a.Undriven [connected, expected] ops →
        let b := (a.performAll ops).2
        (∀ state, (b.perform (.changeConnection state)).1 = .ok .done) ∧
        ∃ on on', b.table.isRunning connected = .ok on ∧ b.table.isRunning expected = .ok on' ∧
          (on = true → on' = true)) ∧
      ∀ (ops : List (Operation ν)) (beat : Operation ν), beat.isCycle = true →
        a.Undriven [connected, expected] (ops ++ [beat]) →
        Regular Timer.period a.now a.now (ops ++ [beat]) →
          let b := (a.performAll ops).2
          ∃ e, b.ownEvent beat = some e ∧
            e.timeOf a.table.catalog expected = timeSince expecting false a.now 0 ops ∧
            e.timeOf a.table.catalog connected = timeSince connecting false a.now 0 ops ∧
            e.timeOf a.table.catalog connected ≤ e.timeOf a.table.catalog expected := by
  obtain ⟨keys, knows, holds⟩ := knows_of_boot .connectivity booted enabled
  have known := knows.known
  simp only [Collectors.keys, Option.map_eq_some_iff] at known
  obtain ⟨⟨connected, expected⟩, -, rfl⟩ := known
  obtain ⟨holdsConnected, others⟩ := List.forall₂_cons.mp holds
  obtain ⟨holdsExpected, -⟩ := List.forall₂_cons.mp others
  obtain ⟨e, metric, -, timer, beats⟩ := holdsConnected.entry
  obtain ⟨e', metric', -, timer', beats'⟩ := holdsExpected.entry
  obtain ⟨c, valid, sound, -⟩ := boot_eq_ok booted
  obtain rfl := sound.catalog
  have apart : connected ≠ expected := by simpa [Connectivity.keys] using knows.nodup
  have plays : Plays ν a.table.catalog [connected, expected] connected connecting :=
    ⟨⟨_, valid⟩, ⟨e, metric, beats⟩, by simp, moves_connected apart⟩
  have plays' : Plays ν a.table.catalog [connected, expected] expected expecting :=
    ⟨⟨_, valid⟩, ⟨e', metric', beats'⟩, by simp, moves_expected apart⟩
  have new := hasTimer_of_boot booted metric timer
  have new' := hasTimer_of_boot booted metric' timer'
  refine ⟨connected, expected, holdsConnected.found, holdsExpected.found, ?_, ?_⟩
  · intro ops undriven b
    have provides : b.Provides .connectivity :=
      provides_of_fits (knows.performAll ops).collectors enabled
    have stopped := Table.isRunning_eq_ok.mpr ⟨_, new, rfl⟩
    have stopped' := Table.isRunning_eq_ok.mpr ⟨_, new', rfl⟩
    exact ⟨fun state => provides.done (.changeConnection state) rfl, _, _,
      isRunning_performAll knows plays undriven stopped,
      isRunning_performAll knows plays' undriven stopped',
      foldl_expecting_of_connecting id ops⟩
  · intro ops beat cycle undriven regular b
    have later := knows.performAll ops
    have own := (ownEvent_of_isCycle cycle (later.catalog ▸ later.beats)).1
    have tracks {key : Nat} (new : a.table.HasTimer key {}) :
        a.Tracks a.table.catalog key false 0 0 a.now.toNat :=
      ⟨rfl, knows.fits, ⟨_, new, Timer.owes_new _⟩, Nat.lt_add_of_pos_right (by decide)⟩
    have shown := (tracks new).timeShown knows plays cycle undriven regular
    have shown' := (tracks new').timeShown knows plays' cycle undriven regular
    rw [shownBy, own, later.catalog] at shown shown'
    refine ⟨_, own, shown', shown, ?_⟩
    have less : timeSince connecting false a.now 0 ops ≤ timeSince expecting false a.now 0 ops :=
      timeSince_connecting_le id a.now (Nat.le_refl 0) ops
    rwa [← shown, ← shown'] at less

/-- The clock goes round while the device is connected, one of two events is dropped, and states are
reported again and out of order. -/
theorem connection_times_add_up_around :
    let configuration : Configuration :=
      { device := {}, schema := { sessions := ["run"] }, builtins := { connectivity := true } }
    let ops : List (Operation Empty) := [.changeConnection .lost, .changeConnection .connected,
      .advance 1000, .heartbeat, .readTimer 1, .advance 500, .changeConnection .lost,
      .changeConnection .lost, .startSession 1, .advance 200, .describe, .changeConnection .stopped,
      .advance 5000, .changeConnection .stopped, .changeConnection .started, .advance 30]
    ∃ a : Agent Empty, boot configuration 32 { clock := 0x7FFFFE00 } = .ok a ∧
      let b := (a.performAll ops).2
      (b.perform (.changeConnection .connected)).1 = .ok .done ∧
        (b.table.isRunning 0 = .ok true → b.table.isRunning 1 = .ok true) ∧
        (∃ e, b.ownEvent .heartbeat = some e ∧ e.timeOf a.table.catalog 1 = 730 ∧
          e.timeOf a.table.catalog 0 = 500) ∧
        (b.perform .heartbeat).2.droppedEvents = 1 := by
  intro configuration ops
  obtain ⟨a, booted, connected, expected, undriven, undriven', regular, time, time', dropped⟩ :
      ∃ a : Agent Empty, boot configuration 32 { clock := 0x7FFFFE00 } = .ok a ∧
        a.table.catalog.keyOf? BuiltinGroups.connectedTime = some 0 ∧
        a.table.catalog.keyOf? BuiltinGroups.expectedTime = some 1 ∧
        a.Undriven [0, 1] ops ∧ a.Undriven [0, 1] (ops ++ [.heartbeat]) ∧
        Regular Timer.period a.now a.now (ops ++ [.heartbeat]) ∧
        timeSince expecting false a.now 0 ops = 730 ∧
        timeSince connecting false a.now 0 ops = 500 ∧
        ((a.performAll ops).2.perform .heartbeat).2.droppedEvents = 1 := by
    simp only [boot, Collectors.ofCatalog, Collectors.key, Schema.keyOf?_eq_findIdx?]
    decide +kernel
  obtain ⟨key, key', here, there, always, beats⟩ := connection_times_add_up booted rfl
  rw [connected] at here
  rw [expected] at there
  cases here
  cases there
  obtain ⟨changes, on, on', running, running', order⟩ := always ops undriven
  obtain ⟨e, own, shown, shown', -⟩ := beats ops .heartbeat rfl undriven' regular
  refine ⟨a, booted, changes .connected, ?_, ⟨e, own, shown.trans time, shown'.trans time'⟩,
    dropped⟩
  intro runs
  rw [running] at runs
  rw [running', order (Except.ok.inj runs)]

end Agent

end DeviceTelemetry
