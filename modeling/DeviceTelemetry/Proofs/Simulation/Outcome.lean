import DeviceTelemetry.CommandLine.Report
import DeviceTelemetry.Proofs.Agent.BootSuccess
import DeviceTelemetry.Proofs.Agent.RunningTime
import DeviceTelemetry.Proofs.RecordQueue.OneLimit
import DeviceTelemetry.Proofs.Simulation.Rounds

/-!
# What comes of a simulation

A simulation of any valid configuration comes to its end. What it lists are the committed records,
in batches if the configuration has a limit for them; so it lists each record by itself exactly if
no two neighbours fit into one batch (`run_lists_batches`).
-/

set_option autoImplicit false

namespace DeviceTelemetry

open RecordStore (Round)
open RecordQueue (Represents)

/-! ### Draining an agent -/

namespace Agent

variable {ν : Type} [Nonvolatile ν]

/-- The lock aside, a round of draining an agent is one of draining its store. -/
theorem drainOne_eq (a : Agent ν) :
    a.drainOne.1 = a.store.drainOne.1 ∧ a.drainOne.2.store = a.store.drainOne.2 := by
  have asked : a.hasMore.1 = a.store.hasMore.1 ∧ a.hasMore.2.store = a.store.hasMore.2 :=
    ⟨rfl, rfl⟩
  unfold drainOne RecordStore.drainOne
  generalize a.hasMore = answer at asked
  generalize a.store.hasMore = answer' at asked
  obtain ⟨size, a'⟩ := answer
  obtain ⟨size', s⟩ := answer'
  obtain ⟨rfl, rfl⟩ := asked
  cases size with
  | none => exact ⟨rfl, rfl⟩
  | some n => exact ⟨rfl, rfl⟩

theorem drain_eq (a : Agent ν) (count : Nat) : (a.drain count).1 = (a.store.drain count).1 := by
  induction count generalizing a with
  | zero => rfl
  | succ count ih =>
      have one := a.drainOne_eq
      unfold drain RecordStore.drain
      generalize a.drainOne = outcome at one
      generalize a.store.drainOne = outcome' at one
      obtain ⟨round, a'⟩ := outcome
      obtain ⟨round', s⟩ := outcome'
      obtain ⟨rfl, rfl⟩ := one
      cases round with
      | nothing => rfl
      | unreadable => exact congrArg _ (ih a')
      | event bs => exact congrArg _ (ih a')

end Agent

namespace Simulation

variable {configuration : Configuration} {c : Catalog} {capacity : Nat} {opened : Option Nat}
  {a : Subject}

theorem eventsOf_map_event (texts : List Bytes) : eventsOf (texts.map Round.event) = .ok texts := by
  induction texts with
  | nil => rfl
  | cons text texts ih =>
      rw [List.map_cons, eventsOf, ih]
      rfl

theorem Live.exists_batches (h : Live configuration c capacity opened a)
    (few : a.store.payloads.length < 2 ^ 64) :
    ∃ rounds batches texts,
      Batches (List.replicate rounds (configuration.batchLimit.map UInt64.toNat))
          a.store.payloads batches ∧
        List.Forall₂ BatchText batches texts ∧
          (a.drain (a.store.ring.count + 1)).1 = texts.map Round.event := by
  obtain ⟨q, represents, -⟩ := h.sound.store
  have ready : q.Ready := by
    refine ⟨?_, ?_⟩
    · cases q.backing with
      | none => rfl
      | some impossible => exact impossible.elim
    · have held := represents.handout
      rw [h.handout, eq_comm, Option.map_eq_none_iff] at held
      exact held
  have enough : q.records.length ≤
      (List.replicate (a.store.ring.count + 1) a.store.batchLimit).length := by
    have bytes := RecordQueue.length_le_image q.records q.opened
    rw [← RecordQueue.image, ← represents.count_eq] at bytes
    rw [List.length_replicate]
    exact Nat.le_succ_of_le bytes
  rw [represents.payloads_eq] at few ⊢
  obtain ⟨batches, texts, -, all, written, drained, -⟩ := represents.drainUnder ready enough few
  rw [← represents.drain_eq ready, ← Agent.drain_eq] at drained
  rw [h.batchLimit] at all
  exact ⟨_, batches, texts, all, written, drained⟩

theorem live_of_boot (valid : configuration.catalog = .ok c)
    (booted : Agent.boot configuration capacity {} = .ok a) :
    Live configuration c capacity none a ∧ a.store.payloads = [] := by
  obtain ⟨c', resolved, sound, -⟩ := Agent.boot_eq_ok booted
  have resolved' := Configuration.catalog_eq_ok valid
  obtain rfl : c' = c := Except.ok.inj (resolved.symm.trans resolved')
  have unstaged := (Agent.clear_of_boot booted).mailbox
  have timers {session key : Nat} (duration : c'.durationKey? session = some key) :
      a.table.isRunning key = .ok (decide (none = some session)) := by
    obtain ⟨e, metric, kind, -⟩ := Schema.exists_durationEntry resolved duration
    rw [← sound.catalog] at metric
    exact Table.isRunning_eq_ok.mpr ⟨{}, Agent.hasTimer_of_boot booted metric kind, rfl⟩
  unfold Agent.boot at booted
  obtain ⟨_, -, booted⟩ := bind_eq_ok.mp booted
  obtain ⟨collectors, -, booted⟩ := bind_eq_ok.mp booted
  obtain ⟨s, made, booted⟩ := bind_eq_ok.mp booted
  rw [mapError_eq_ok] at made
  have fresh := (RecordQueue.represents_ofCapacity made).setBatchLimit
    (configuration.batchLimit.map UInt64.toNat)
  obtain rfl := pure_eq_ok.mp booted
  refine ⟨⟨sound, rfl, ⟨rfl, rfl⟩, unstaged, fresh.handout, rfl, timers⟩, fresh.payloads_eq⟩

/-- A simulation of a configuration with a catalog, over any storage of at least one byte, succeeds,
and so does the command that asks for it. The rounds are the script of the simulation; the records
that they commit and the dropped events are together as many as the rounds have sessions, as long
as they can be counted. What is listed are the records in batches, oldest first, under the limit of
the configuration: the records themselves, and as many as were committed, exactly if no two
neighbours fit into one batch. -/
theorem run_lists_batches (valid : configuration.catalog = .ok c) {storageBytes heartbeats : Nat}
    (positive : 1 ≤ storageBytes) (few : heartbeats * c.sessionCount < 2 ^ 32) :
    ∃ (a : Subject) (s : Simulation),
      Agent.boot configuration storageBytes {} = .ok a ∧
      run configuration storageBytes heartbeats = .ok s ∧
      (∀ library path content format, Report.load library path content = .ok (configuration, c) →
        Report.ofCommand library (.simulate path storageBytes heartbeats format) content =
          { output := Report.unlines (Report.simulationLines library s format)
            errors := Report.unlines (Report.warningLines s.bootStatus) }) ∧
      let ops := script c (intervalOf configuration) 0 heartbeats
      let records := a.commitsAll ops
      let limit := configuration.batchLimit.map UInt64.toNat
      liveRounds 0 a heartbeats = .ok (a.performAll ops).2 ∧
      records.length + s.dropped = heartbeats * c.sessionCount ∧
      (∃ rounds batches, Batches (List.replicate rounds limit) records batches ∧
        batches.flatten = records ∧ List.Forall₂ BatchText batches s.events) ∧
      (s.events = records ↔ NoTwoFit limit records) ∧
      (s.events.length + s.dropped = heartbeats * c.sessionCount ↔ NoTwoFit limit records) := by
  obtain ⟨a, booted⟩ : ∃ a : Subject, Agent.boot configuration storageBytes {} = .ok a :=
    Agent.exists_boot_iff.mpr ⟨⟨c, valid⟩, positive⟩
  have resolved := Configuration.catalog_eq_ok valid
  obtain ⟨start, blank⟩ := live_of_boot valid booted
  have path := path_script resolved (intervalOf configuration) 0 heartbeats
  obtain ⟨live, attempted, kept⟩ := start.performAll resolved path
  have lived := start.liveRounds_eq resolved 0 heartbeats
  have users : 0 < c.sessionCount := Schema.heartbeat_lt resolved
  rw [blank, List.nil_append] at kept
  rw [countP_script users] at attempted
  -- the counter of drops does not get to its bound
  obtain ⟨lost, balance, dropped⟩ := Agent.exists_lost_performAll start.sound.store
    (show a.droppedEvents = min 0 Agent.maxDropped from (Agent.unset_of_boot booted).2)
    (script c (intervalOf configuration) 0 heartbeats)
  have bound : Agent.maxDropped = 2 ^ 32 - 1 := rfl
  rw [Nat.zero_add, Nat.min_eq_left (by omega)] at dropped
  have small :
      (a.commitsAll (script c (intervalOf configuration) 0 heartbeats)).length < 2 ^ 64 := by
    omega
  rw [← kept] at small
  obtain ⟨rounds, batches, texts, all, written, drained⟩ := live.exists_batches small
  rw [kept] at all
  have ran : run configuration storageBytes heartbeats =
      .ok { storageBytes, heartbeats, bootStatus := a.bootStatus, dropped := lost
            events := texts } := by
    unfold run
    rw [booted]
    dsimp only [Except.mapError, bind, Except.bind]
    rw [lived]
    dsimp only
    rw [drained, eventsOf_map_event, dropped]
    rfl
  have same (l : Option Nat) (member : l ∈ List.replicate rounds
      (configuration.batchLimit.map UInt64.toNat)) :
      l = configuration.batchLimit.map UInt64.toNat := List.eq_of_mem_replicate member
  have count := all.length_texts_eq_iff same written
  refine ⟨a, _, booted, ran, ?_, lived, balance.trans attempted,
    ⟨rounds, batches, all, all.flatten_eq, written⟩, all.texts_eq_iff same written, ?_⟩
  · intro library path content format loaded
    rw [Report.ofCommand, Command.path, loaded]
    dsimp only
    rw [ran]
  · rw [← count]
    dsimp only
    omega

/-- Two rounds of two sessions over 80 bytes: of four events one is dropped, and the first two are
listed as one. -/
theorem run_lists_batches_over_80 :
    let configuration : Configuration :=
      { device := {}
        schema := {
          sessions := ["run"]
          metrics := [.unsigned "count", (MetricDef.unsigned "turns").inSession "run"] }
        batchLimit := some 50 }
    ∃ c a s, configuration.catalog = .ok c ∧ 2 * c.sessionCount = 4 ∧
      Agent.boot configuration 80 {} = .ok a ∧ run configuration 80 2 = .ok s ∧
      let records := a.commitsAll (script c (intervalOf configuration) 0 2)
      records.length = 3 ∧ s.dropped = 1 ∧ s.events.length = 2 ∧ ¬NoTwoFit (some 50) records ∧
        s.events ≠ records := by
  intro configuration
  obtain ⟨c, valid, sessions⟩ : ∃ c, configuration.catalog = .ok c ∧ c.sessionCount = 2 :=
    ⟨_, rfl, by decide +kernel⟩
  have counted : (run configuration 80 2).map (fun s => (s.dropped, s.events.length)) =
      .ok (1, 2) := by decide +kernel
  obtain ⟨a, s, booted, ran, -, -, balance, -, whole, all⟩ := run_lists_batches valid
    (show 1 ≤ 80 by decide) (show 2 * c.sessionCount < 2 ^ 32 by omega)
  rw [ran] at counted
  obtain ⟨dropped, events⟩ : s.dropped = 1 ∧ s.events.length = 2 :=
    Prod.mk.inj (Except.ok.inj counted)
  have joined : ¬NoTwoFit (some 50) (a.commitsAll (script c (intervalOf configuration) 0 2)) := by
    intro alone
    have count := all.mpr alone
    omega
  exact ⟨c, a, s, valid, by omega, booted, ran, by omega, dropped, events, joined,
    mt whole.mp joined⟩

/-- Two heartbeats are committed and none is dropped, but one event is listed. -/
theorem run_joins_events :
    let configuration : Configuration :=
      { device := {}, schema := { metrics := [.unsigned "count"] }, batchLimit := some 100 }
    ∃ c a s, configuration.catalog = .ok c ∧ Agent.boot configuration 1024 {} = .ok a ∧
      run configuration 1024 2 = .ok s ∧
      let records := a.commitsAll (script c (intervalOf configuration) 0 2)
      records.length = 2 ∧ s.events.length = 1 ∧ s.events ≠ records ∧
        s.events.length + s.dropped ≠ 2 * c.sessionCount := by
  intro configuration
  obtain ⟨c, a, valid, booted, sessions, committed⟩ : ∃ c a, configuration.catalog = .ok c ∧
      Agent.boot configuration 1024 {} = .ok a ∧ c.sessionCount = 1 ∧
        (a.commitsAll (script c (intervalOf configuration) 0 2)).length = 2 :=
    ⟨_, _, rfl, rfl, by decide +kernel, by decide +kernel⟩
  have counted : (run configuration 1024 2).map (fun s => (s.dropped, s.events.length)) =
      .ok (0, 1) := by decide +kernel
  cases ran : run configuration 1024 2 with
  | error e =>
      rw [ran] at counted
      cases counted
  | ok s =>
      rw [ran] at counted
      obtain ⟨dropped, events⟩ : s.dropped = 0 ∧ s.events.length = 1 :=
        Prod.mk.inj (Except.ok.inj counted)
      refine ⟨c, a, s, valid, booted, rfl, committed, events, ?_, by omega⟩
      intro same
      have count := congrArg List.length same
      omega

end Simulation

end DeviceTelemetry
