import DeviceTelemetry.Proofs.RecordQueue.Polling

/-!
# What marking as read drops

A reader asks for more, is told of something, reads it, and marks it as read. In between, records
are written and moved, and the non-volatile store may be turned on or off. This file compares what
the mark drops with what was reported. The two are told apart by their places in the holdings,
which in between only grow at their end (`Waits`).

While the non-volatile store is turned off, or stays on, the mark drops nothing else than what was
reported. If it is turned on after a record was reported, the mark drops its first event instead
(`markRead_drops_unreported_iff`).
-/

set_option autoImplicit false

namespace DeviceTelemetry

open RecordStore (headerSize Operation)

variable {ν : Type}

/-! ### Places -/

variable [Nonvolatile ν] [EventList ν]

/-- The places in the holdings of the events and records that are gone. -/
def placesGone (events events' records records' : List Bytes) : List Nat :=
  List.range (events.length - events'.length) ++
    List.range' events.length (records.length - records'.length)

namespace RecordStore

/-- The places in the holdings of what the next `hasMore` reports. -/
def reportedPlaces (s : RecordStore ν) : List Nat :=
  if s.usesBacking then [0]
  else List.range' s.events.length ((s.hasMore.2.handout.map Handout.records).getD 0)

/-- The places in the holdings of what the next `markRead` drops. -/
def droppedPlaces (s : RecordStore ν) : List Nat :=
  placesGone s.events s.markRead.events s.payloads s.markRead.payloads

/-- The operations that may come between a report and its mark: all but those that ask again, drop
something or put another non-volatile store in place. -/
def Operation.Between : Operation ν → Prop
  | .hasMore | .hasRecord | .markRead | .markRecordRead | .attach _ | .drainOne | .drain _ => False
  | .alterBacking f => ∀ b, EventList.events (f b) = EventList.events b
  | _ => True

end RecordStore

namespace RecordQueue

/-! ### Between a report and its mark -/

/-- From the report on, the holdings grow at their end, also when records become events. The reader
keeps what it was told of, or nothing, until the non-volatile store is on. -/
structure Waits (asked q : RecordQueue ν) : Prop where
  events : asked.events <+: q.events
  holdings : asked.events ++ asked.records <+: q.events ++ q.records
  handed : q.backingSeen = false → q.handed = none ∨
    (asked.backingSeen = false ∧ q.handed = asked.handed ∧ q.events = asked.events)

theorem Waits.refl (q : RecordQueue ν) : Waits q q where
  events := List.prefix_rfl
  holdings := List.prefix_rfl
  handed := by
    intro off
    exact Or.inr ⟨off, rfl, rfl⟩

variable {asked q q' : RecordQueue ν}

theorem Waits.grows (h : Waits asked q) (more : Grows q q') : Waits asked q' := by
  have events : q'.events = q.events := congrArg eventsOf more.backing
  refine ⟨?_, ?_, ?_⟩
  · rw [events]
    exact h.events
  · rw [events]
    exact h.holdings.trans ((List.prefix_append_right_inj _).mpr more.records)
  · rw [more.backingSeen, more.handed, events]
    exact h.handed

theorem Waits.setBacking (h : Waits asked q) {backing : Option ν}
    (kept : eventsOf backing = q.events) : Waits asked { q with backing := backing } where
  events := by
    show _ <+: eventsOf backing
    rw [kept]
    exact h.events
  holdings := by
    show _ <+: eventsOf backing ++ q.records
    rw [kept]
    exact h.holdings
  handed := by
    intro off
    rcases h.handed off with nothing | ⟨seen, same, events⟩
    · exact Or.inl nothing
    · exact Or.inr ⟨seen, same, kept.trans events⟩

theorem Waits.pollBacking (h : Waits asked q) : Waits asked q.pollBacking.2 := by
  rcases pollBacking_cases q with ⟨b, polled, kept⟩ | ⟨backing, polled, kept⟩
  · rw [polled]
    exact { h.setBacking kept with handed := by intro off; cases off }
  · rw [polled]
    refine { h.setBacking kept with handed := ?_ }
    intro _
    cases seen : q.backingSeen with
    | true => exact Or.inl rfl
    | false => exact (h.setBacking kept).handed seen

theorem Waits.read (h : Waits asked q) (offset length : Nat) :
    Waits asked (q.read offset length).2 := by
  have polled := h.pollBacking
  have outcome := pollBacking_cases q
  simp only [RecordQueue.read]
  generalize q.pollBacking = answer at polled outcome
  obtain ⟨usable, q'⟩ := answer
  cases usable with
  | none => exact polled
  | some b =>
      apply polled.setBacking
      rcases outcome with ⟨b', same, kept⟩ | ⟨backing, same, kept⟩
      · cases same
        exact EventList.events_read b offset length
      · cases same

theorem Waits.persist (h : Waits asked q) : Waits asked q.persist.2 := by
  obtain ⟨more, order⟩ := holdings_persist q
  rcases persist_cases q with ⟨seen, -⟩ | same
  · refine ⟨h.events.trans more, ?_, ?_⟩
    · rw [order]
      exact h.holdings
    · intro off
      rw [seen] at off
      cases off
  · rw [same]
    exact h.pollBacking

theorem Waits.perform (h : Waits asked q) {op : Operation ν} (between : op.Between) :
    Waits asked (q.perform op).2 := by
  cases op with
  | beginWrite => exact h.grows (grows_beginWrite q)
  | append bs => exact h.grows (grows_append q bs)
  | finishWrite undo => exact h.grows (grows_finishWrite q undo)
  | writeRecord payload => exact h.grows (grows_writeRecord q payload)
  | read offset length => exact h.read offset length
  | readRecord offset length => exact h
  | recordSlices => exact h
  | setBatchLimit limit => exact h.grows ⟨List.prefix_rfl, rfl, rfl, rfl, rfl⟩
  | observe => exact h.grows ⟨List.prefix_rfl, rfl, rfl, rfl, rfl⟩
  | alterBacking f => exact h.setBacking (eventsOf_map between q.backing)
  | persist => exact h.persist
  | hasMore => exact absurd between id
  | hasRecord => exact absurd between id
  | markRead => exact absurd between id
  | markRecordRead => exact absurd between id
  | attach b => exact absurd between id
  | drainOne => exact absurd between id
  | drain rounds => exact absurd between id

theorem Waits.performAll (h : Waits asked q) {ops : List (Operation ν)}
    (between : ∀ op ∈ ops, op.Between) : Waits asked (q.performAll ops).2 := by
  induction ops generalizing q with
  | nil => exact h
  | cons op ops ih =>
      have next := h.perform (between op List.mem_cons_self)
      rw [RecordQueue.performAll]
      exact ih next fun op member => between op (List.mem_cons_of_mem _ member)

/-! ### The mark -/

theorem placesGone_tail {events records : List Bytes} (held : events ≠ []) :
    placesGone events events.tail records records = [0] := by
  obtain ⟨e, es, rfl⟩ := List.exists_cons_of_ne_nil held
  simp [placesGone]

theorem placesGone_drop (events records : List Bytes) (n : Nat) :
    placesGone events events records (records.drop n) =
      List.range' events.length (min n records.length) := by
  have gone : records.length - (records.length - n) = min n records.length := by omega
  rw [placesGone, Nat.sub_self, List.range_zero, List.nil_append, List.length_drop, gone]

def droppedPlaces (q : RecordQueue ν) : List Nat :=
  placesGone q.events q.markRead.events q.records q.markRead.records

theorem droppedPlaces_of_usesBacking (on : q.usesBacking = true) (held : q.events ≠ []) :
    q.droppedPlaces = [0] := by
  obtain ⟨tail, same⟩ := markRead_of_usesBacking q on
  rw [droppedPlaces, tail, same, placesGone_tail held]

theorem droppedPlaces_of_no_events (on : q.usesBacking = true) (empty : q.events = []) :
    q.droppedPlaces = [] := by
  obtain ⟨tail, same⟩ := markRead_of_usesBacking q on
  rw [droppedPlaces, tail, same, empty]
  simp [placesGone]

/-- A store that is off when the mark is set loses at most the records that were reported. -/
theorem Waits.droppedPlaces_of_not_usesBacking (h : Waits asked q) (off : q.usesBacking = false) :
    q.droppedPlaces = [] ∨
      asked.backingSeen = false ∧
        q.droppedPlaces ⊆ List.range' asked.events.length (asked.handed.getD 0) := by
  obtain ⟨same, dropped⟩ := markRead_of_not_usesBacking q off
  rw [droppedPlaces, same, dropped, placesGone_drop]
  cases seen : q.backingSeen with
  | true =>
      left
      simp
  | false =>
      rcases h.handed seen with nothing | ⟨unseen, kept, place⟩
      · left
        simp [nothing]
      · right
        refine ⟨unseen, ?_⟩
        rw [kept, place]
        intro i member
        simp only [List.mem_range'_1, Bool.false_eq_true, if_false] at member ⊢
        omega

theorem Waits.droppedPlaces_of_event (h : Waits asked q) (seen : asked.backingSeen = true)
    (held : asked.events ≠ []) : q.droppedPlaces ⊆ [0] := by
  cases on : q.usesBacking with
  | true =>
      have still : q.events ≠ [] := by
        intro empty
        have before := h.events
        rw [empty] at before
        exact held (List.prefix_nil.mp before)
      rw [droppedPlaces_of_usesBacking on still]
      exact List.Subset.refl _
  | false =>
      rcases h.droppedPlaces_of_not_usesBacking on with nothing | ⟨unseen, -⟩
      · rw [nothing]
        exact List.nil_subset _
      · rw [seen] at unseen
        cases unseen

/-- Records that were reported stay in their places; only an event in front of them can be dropped
in their stead. -/
theorem Waits.droppedPlaces_of_records (h : Waits asked q) {k : Nat}
    (handed : asked.handed = some k) (pos : 0 < k) :
    ¬q.droppedPlaces ⊆ List.range' asked.events.length k ↔
      q.usesBacking = true ∧ asked.events ≠ [] := by
  cases on : q.usesBacking with
  | true =>
      by_cases empty : q.events = []
      · have none_before : asked.events = [] := by
          have before := h.events
          rw [empty] at before
          exact List.prefix_nil.mp before
        rw [droppedPlaces_of_no_events on empty]
        simp [none_before]
      · rw [droppedPlaces_of_usesBacking on empty]
        simp only [List.cons_subset, List.nil_subset, and_true, List.mem_range'_1, true_and,
          ← List.length_pos_iff]
        omega
  | false =>
      have within : q.droppedPlaces ⊆ List.range' asked.events.length k := by
        rcases h.droppedPlaces_of_not_usesBacking on with nothing | ⟨-, within⟩
        · rw [nothing]
          exact List.nil_subset _
        · rw [handed] at within
          exact within
      simp [within]

end RecordQueue

/-! ### Stores -/

namespace RecordQueue.Represents

variable {s : RecordStore ν} {q : RecordQueue ν}

theorem droppedPlaces_eq (h : Represents s q) : s.droppedPlaces = q.droppedPlaces := by
  have marked := h.markRead
  rw [RecordStore.droppedPlaces, h.events_eq, h.payloads_eq, marked.events_eq, marked.payloads_eq]
  rfl

theorem reportedPlaces_eq (h : Represents s q) :
    s.reportedPlaces = if q.usesBacking then [0]
      else List.range' q.events.length (q.hasMore.2.handed.getD 0) := by
  have counted : (s.hasMore.2.handout.map Handout.records).getD 0 = q.hasMore.2.handed.getD 0 := by
    rw [h.hasMore.2.handout, Option.map_map]
    cases q.hasMore.2.handed with
    | none => rfl
    | some n => rfl
  rw [RecordStore.reportedPlaces, h.usesBacking_eq, h.events_eq, counted]

theorem mark_after_report (h : Represents s q) {between : List (Operation ν)}
    (waits : ∀ op ∈ between, op.Between) (found : s.hasMore.1.isSome = true) :
    let marking := (s.hasMore.2.performAll between).2
    s.holdings <+: marking.holdings ∧
      marking.markRead.events <:+ marking.events ∧
      marking.markRead.payloads <:+ marking.payloads ∧
      (¬marking.droppedPlaces ⊆ s.reportedPlaces ↔
        s.usesBacking = false ∧ marking.usesBacking = true ∧ s.events ≠ []) := by
  intro marking
  obtain ⟨same, reported⟩ := h.hasMore
  rw [same] at found
  obtain ⟨-, later⟩ := reported.performAll between
  have kept := (Waits.refl q.hasMore.2).performAll waits
  generalize (q.hasMore.2.performAll between).2 = q' at later kept
  have marked : Represents marking.markRead q'.markRead := later.markRead
  have dropped : marking.droppedPlaces = q'.droppedPlaces := later.droppedPlaces_eq
  have used : marking.usesBacking = q'.usesBacking := later.usesBacking_eq
  obtain ⟨events_front, records_front⟩ := markRead_suffix q'
  rw [h.holdings_eq, later.holdings_eq, marked.events_eq, later.events_eq, marked.payloads_eq,
    later.payloads_eq, dropped, used, h.reportedPlaces_eq, h.usesBacking_eq, h.events_eq]
  cases on : q.usesBacking with
  | true =>
      obtain ⟨size, events, records, seen⟩ := hasMore_of_usesBacking on
      have held : q.events ≠ [] := by
        intro empty
        rw [size, empty] at found
        cases found
      have first := kept.droppedPlaces_of_event seen (by rw [events]; exact held)
      have order := kept.holdings
      rw [events, records] at order
      refine ⟨order, events_front, records_front, ?_⟩
      simp [first]
  | false =>
      obtain ⟨events, records, -, k, handed⟩ := hasMore_of_not_usesBacking q on found
      have pos := (reported.handed k (by rw [handed]; rfl)).1
      have first := kept.droppedPlaces_of_records handed pos
      have order := kept.holdings
      rw [events, records] at order
      rw [events] at first
      refine ⟨order, events_front, records_front, ?_⟩
      rw [handed]
      simp [first]

end RecordQueue.Represents

/-- In any history of a store, take a mark that is the first after a report, with no other
non-volatile store put in place in between. Up to the mark the holdings only grow at their end, so
that a place stands for the same event or record as in the report; the mark drops events and
records from the front. What it drops was reported, except in one case: a record was reported while
the non-volatile store was off, the mark finds it on, and it held an event all along. -/
theorem markRead_drops_unreported_iff {capacity : Nat} {s : RecordStore ν}
    (fresh : RecordStore.ofCapacity capacity = .ok s) (before between : List (Operation ν))
    (waits : ∀ op ∈ between, op.Between)
    (found : (s.performAll before).2.hasMore.1.isSome = true) :
    let asking := (s.performAll before).2
    let marking := (asking.hasMore.2.performAll between).2
    asking.holdings <+: marking.holdings ∧
      marking.markRead.events <:+ marking.events ∧
      marking.markRead.payloads <:+ marking.payloads ∧
      (¬marking.droppedPlaces ⊆ asking.reportedPlaces ↔
        asking.usesBacking = false ∧ marking.usesBacking = true ∧ asking.events ≠ []) :=
  ((RecordQueue.represents_ofCapacity fresh).performAll before).2.mark_after_report waits found

/-- The record that was reported has become the first event when the mark is set. -/
theorem markRead_drops_moved_record :
    ∃ s : RecordStore EventQueue, RecordStore.ofCapacity 8 = .ok s ∧
      let asking := (s.performAll [.attach { enabled := false }, .writeRecord [0xBB, 0xCC]]).2
      let marking :=
        (asking.hasMore.2.performAll
          [.alterBacking fun b => { b with enabled := true }, .persist]).2
      asking.hasMore.1 = some 2 ∧ asking.holdings <+: marking.holdings ∧
        marking.usesBacking = true ∧ marking.droppedPlaces ⊆ asking.reportedPlaces := by
  have fresh : RecordStore.ofCapacity 8 =
      .ok (RecordStore.ofRing (Ring.zeroed 8 (by decide)) : RecordStore EventQueue) := rfl
  have waits : ∀ op ∈ [Operation.alterBacking fun b : EventQueue => { b with enabled := true },
      .persist], op.Between := by simp [Operation.Between, EventList.events]
  obtain ⟨order, -, -, exactly⟩ := markRead_drops_unreported_iff fresh
    [.attach { enabled := false }, .writeRecord [0xBB, 0xCC]] _ waits (by decide)
  refine ⟨_, fresh, by decide, order, by decide, ?_⟩
  by_contra unreported
  obtain ⟨-, -, held⟩ := exactly.mp unreported
  exact held rfl

/-- An event goes that was never reported, and the record that was reported stays. -/
theorem markRead_drops_event_in_front :
    ∃ s : RecordStore EventQueue, RecordStore.ofCapacity 8 = .ok s ∧
      let asking :=
        (s.performAll
          [.attach { enabled := false, events := [[0xAA]] }, .writeRecord [0xBB, 0xCC]]).2
      let marking :=
        (asking.hasMore.2.performAll [.alterBacking fun b => { b with enabled := true }]).2
      asking.hasMore.1 = some 2 ∧ asking.reportedPlaces = [1] ∧ marking.droppedPlaces = [0] ∧
        marking.events = [[0xAA]] ∧ marking.markRead.events = [] ∧
        marking.markRead.payloads = [[0xBB, 0xCC]] :=
  ⟨RecordStore.ofRing (Ring.zeroed 8 (by decide)), rfl, by decide⟩

end DeviceTelemetry
