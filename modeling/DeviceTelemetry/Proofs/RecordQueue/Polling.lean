import DeviceTelemetry.Proofs.RecordQueue.Contents
import DeviceTelemetry.Proofs.RecordQueue.Frame

/-!
# Whom a reader is served by

Each use of a queue polls its non-volatile store first. While the store is on, the reader is told
of the first event, reads it and drops it; while it is off, the same goes for the records. Either
way events and records stay in their order, also when records become events.
-/

set_option autoImplicit false

namespace DeviceTelemetry

variable {ν : Type} [Nonvolatile ν]

/-- Whether the non-volatile store answers the next call of the reader. -/
def RecordStore.usesBacking (s : RecordStore ν) : Bool := s.pollBacking.1.isSome

def RecordQueue.usesBacking (q : RecordQueue ν) : Bool := q.pollBacking.1.isSome

theorem RecordQueue.Represents.usesBacking_eq {s : RecordStore ν} {q : RecordQueue ν}
    (h : Represents s q) : s.usesBacking = q.usesBacking :=
  congrArg Option.isSome h.pollBacking.1

variable [EventList ν]

theorem eventsOf_map {f : ν → ν} (kept : ∀ b, EventList.events (f b) = EventList.events b)
    (backing : Option ν) : eventsOf (backing.map f) = eventsOf backing := by
  cases backing with
  | none => rfl
  | some b => exact kept b

namespace RecordQueue

/-- A poll keeps the events; when the store is off, what was handed out before it was on is taken
back. -/
theorem pollBacking_cases (q : RecordQueue ν) :
    (∃ b, q.pollBacking = (some b, { q with backing := some b, backingSeen := true }) ∧
      eventsOf (some b) = q.events) ∨
    (∃ backing, q.pollBacking =
        (none, { q with
          backing := backing
          backingSeen := false
          handed := if q.backingSeen then none else q.handed }) ∧
      eventsOf backing = q.events) := by
  obtain ⟨capacity, start, records, opened, handed, limit, backing, seen, observed, reports⟩ := q
  cases backing with
  | none =>
      right
      refine ⟨none, ?_, rfl⟩
      cases seen with
      | true => rfl
      | false => rfl
  | some b =>
      have kept := EventList.events_poll b
      simp only [pollBacking]
      generalize Nonvolatile.poll b = answer at kept
      obtain ⟨on, b'⟩ := answer
      cases on with
      | true =>
          left
          exact ⟨b', rfl, kept⟩
      | false =>
          right
          exact ⟨some b', rfl, kept⟩

theorem hasMore_of_usesBacking {q : RecordQueue ν} (on : q.usesBacking = true) :
    q.hasMore.1 = q.events.head?.map List.length ∧ q.hasMore.2.events = q.events ∧
      q.hasMore.2.records = q.records ∧ q.hasMore.2.backingSeen = true := by
  rcases pollBacking_cases q with ⟨b, polled, kept⟩ | ⟨backing, polled, kept⟩
  · have first := EventList.oldest_eq b
    have rest := EventList.events_oldest b
    simp only [hasMore]
    rw [polled, ← kept]
    exact ⟨first, rest, rfl, rfl⟩
  · rw [usesBacking, polled] at on
    cases on

theorem hasMore_of_not_usesBacking (q : RecordQueue ν) (off : q.usesBacking = false)
    (found : q.hasMore.1.isSome = true) :
    q.hasMore.2.events = q.events ∧ q.hasMore.2.records = q.records ∧
      q.hasMore.2.backingSeen = false ∧ ∃ k, q.hasMore.2.handed = some k := by
  rcases pollBacking_cases q with ⟨b, polled, kept⟩ | ⟨backing, polled, kept⟩
  · rw [usesBacking, polled] at off
    cases off
  · simp only [hasMore] at found ⊢
    rw [polled] at found ⊢
    dsimp only at found ⊢
    cases limit : q.batchLimit with
    | some l =>
        rw [limit] at found
        obtain ⟨k, handed⟩ := hasBatch_handed _ l found
        dsimp only
        rw [handed]
        exact ⟨kept, rfl, rfl, k, rfl⟩
    | none =>
        rw [limit] at found
        cases held : (if q.backingSeen then none else q.handed : Option Nat) with
        | some k => exact ⟨kept, rfl, rfl, k, rfl⟩
        | none =>
            rw [held] at found
            dsimp only at found ⊢
            rw [hasRecord_handed _ found]
            exact ⟨kept, rfl, rfl, 1, rfl⟩

/-- The mark drops the first event of a store that is on. -/
theorem markRead_of_usesBacking (q : RecordQueue ν) (on : q.usesBacking = true) :
    q.markRead.events = q.events.tail ∧ q.markRead.records = q.records := by
  rcases pollBacking_cases q with ⟨b, polled, kept⟩ | ⟨backing, polled, kept⟩
  · have dropped : eventsOf (some (Nonvolatile.discard b)) = q.events.tail := by
      rw [← kept]
      exact EventList.events_discard b
    simp only [markRead]
    rw [polled]
    dsimp only
    by_cases empty : q.records = []
    · rw [hasRecord_nil (by exact empty)]
      exact ⟨dropped, rfl⟩
    · obtain ⟨p, ps, queue⟩ := List.exists_cons_of_ne_nil empty
      rw [hasRecord_cons (by exact queue)]
      dsimp only
      simp only [report]
      split
      · exact ⟨dropped, rfl⟩
      · exact ⟨dropped, rfl⟩
  · rw [usesBacking, polled] at on
    cases on

/-- Otherwise it drops the records that the reader holds, unless the store was on before. -/
theorem markRead_of_not_usesBacking (q : RecordQueue ν) (off : q.usesBacking = false) :
    q.markRead.events = q.events ∧
      q.markRead.records =
        q.records.drop (if q.backingSeen then 0 else q.handed.getD 0) := by
  rcases pollBacking_cases q with ⟨b, polled, kept⟩ | ⟨backing, polled, kept⟩
  · rw [usesBacking, polled] at off
    cases off
  · simp only [markRead, markRecordRead]
    rw [polled]
    dsimp only
    cases seen : q.backingSeen with
    | true => exact ⟨kept, rfl⟩
    | false =>
        cases held : q.handed with
        | none => exact ⟨kept, rfl⟩
        | some k => exact ⟨kept, rfl⟩

theorem markRead_suffix (q : RecordQueue ν) :
    q.markRead.events <:+ q.events ∧ q.markRead.records <:+ q.records := by
  cases on : q.usesBacking with
  | true =>
      obtain ⟨tail, same⟩ := markRead_of_usesBacking q on
      rw [tail, same]
      exact ⟨List.tail_suffix _, List.suffix_rfl⟩
  | false =>
      obtain ⟨same, dropped⟩ := markRead_of_not_usesBacking q on
      rw [same, dropped]
      exact ⟨List.suffix_rfl, List.drop_suffix _ _⟩

theorem read_of_usesBacking [EventReader ν] {q : RecordQueue ν} (on : q.usesBacking = true)
    (offset length : Nat) :
    (q.read offset length).1 = q.events.head?.bind fun e => window e offset length := by
  rcases pollBacking_cases q with ⟨b, polled, kept⟩ | ⟨backing, polled, kept⟩
  · have first := EventReader.read_eq b offset length
    simp only [read]
    rw [polled, ← kept]
    exact first
  · rw [usesBacking, polled] at on
    cases on

theorem events_read (q : RecordQueue ν) (offset length : Nat) :
    (q.read offset length).2.events = q.events ∧ (q.read offset length).2.records = q.records := by
  simp only [read]
  rcases pollBacking_cases q with ⟨b, polled, kept⟩ | ⟨backing, polled, kept⟩
  · have rest := EventList.events_read b offset length
    rw [polled, ← kept]
    exact ⟨rest, rfl⟩
  · rw [polled]
    exact ⟨kept, rfl⟩

/-- Records that become events go behind the others; none do while the store is off. -/
theorem persist_cases (q : RecordQueue ν) :
    (q.persist.2.backingSeen = true ∧ ∃ n, q.persist.2.events = q.events ++ q.records.take n ∧
      q.persist.2.records = q.records.drop n) ∨ q.persist.2 = q.pollBacking.2 := by
  simp only [persist]
  rcases pollBacking_cases q with ⟨b, polled, kept⟩ | ⟨backing, polled, kept⟩
  · left
    have moved := events_spill b q.records
    rw [polled]
    dsimp only
    generalize spill b q.records = outcome at moved
    obtain ⟨saved, b'⟩ := outcome
    obtain ⟨handed, held⟩ := hasRecord_keeps
      ({ q with backing := some b', backingSeen := true }.dropOldest saved)
    refine ⟨congrArg RecordQueue.backingSeen held, saved, ?_, congrArg RecordQueue.records held⟩
    rw [← kept]
    exact (congrArg RecordQueue.events held).trans moved
  · right
    rw [polled]

theorem holdings_persist (q : RecordQueue ν) :
    q.events <+: q.persist.2.events ∧
      q.persist.2.events ++ q.persist.2.records = q.events ++ q.records := by
  rcases persist_cases q with ⟨-, n, events, records⟩ | same
  · rw [events, records, List.append_assoc, List.take_append_drop]
    exact ⟨List.prefix_append _ _, rfl⟩
  · rw [same]
    rcases pollBacking_cases q with ⟨b, polled, kept⟩ | ⟨backing, polled, kept⟩
    · rw [polled, ← kept]
      exact ⟨List.prefix_rfl, rfl⟩
    · rw [polled, ← kept]
      exact ⟨List.prefix_rfl, rfl⟩

end RecordQueue

end DeviceTelemetry
