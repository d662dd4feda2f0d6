import DeviceTelemetry.Proofs.RecordQueue.Polling
import DeviceTelemetry.Proofs.RecordQueue.Recording

/-!
# Records that spill into a non-volatile store

A `Ledger` is kept beside a store from its calls and answers alone: what was committed, and what
was read and marked as read. While the non-volatile store can be used, records move into it, and
the reader is served from it. Events and records stay in one order all the same: what was
delivered, the events and the records together are the events of the beginning and all that was
committed since (`Spills.conserves`).
-/

set_option autoImplicit false

namespace DeviceTelemetry

open RecordStore (Operation Answer)

variable {ν : Type}

/-- What a writer has committed to a store and a reader has had from it. -/
structure Ledger where
  /-- The payload of the open transaction. -/
  opened : Option Bytes := none
  committed : List Bytes := []
  /-- The size that was reported and not yet marked as read. -/
  asked : Option Nat := none
  delivered : List Bytes := []

/-- The entry for one operation; `fetch` reads that many bytes. What is marked as read is all that
could be read of what was reported. -/
def Ledger.note (l : Ledger) (fetch : Nat → Option Bytes) : Operation ν → Answer → Ledger
  | .beginWrite, .amount (_ + 1) => { l with opened := some [] }
  | .append bs, .flag true => { l with opened := l.opened.map (· ++ bs) }
  | .finishWrite true, _ => { l with opened := none }
  | .finishWrite false, _ =>
    { l with opened := none, committed := l.committed ++ l.opened.toList }
  | .writeRecord payload, .flag true => { l with committed := l.committed ++ [payload] }
  | .hasMore, .size n => { l with asked := n }
  | .markRead, _ =>
    { l with asked := none, delivered := l.delivered ++ (l.asked.bind fetch).toList }
  | _, _ => l

variable [Nonvolatile ν]

variable [EventList ν]

/-- The operations of a writer, and of a reader that marks as read only what was reported to it
since its last mark. The non-volatile store may change its mind, but not its events. -/
def Ledger.Permits (l : Ledger) : Operation ν → Prop
  | .markRead => l.asked.isSome = true
  | .alterBacking f => ∀ b, EventList.events (f b) = EventList.events b
  | .markRecordRead | .attach _ | .drainOne | .drain _ => False
  | _ => True

/-- The states of a store and its ledger, from a store without records behind which `initial` is
put, while the non-volatile store can be used. -/
inductive Spills (initial : ν) : RecordStore ν → Ledger → Prop
  | fresh {capacity : Nat} {s : RecordStore ν} (made : RecordStore.ofCapacity capacity = .ok s) :
      Spills initial (s.attach initial) {}
  | step {s : RecordStore ν} {l : Ledger} (op : Operation ν) (before : Spills initial s l)
      (on : s.usesBacking = true) (permitted : l.Permits op) :
      Spills initial (s.perform op).2 (l.note (fun n => (s.read 0 n).1) op (s.perform op).1)

namespace RecordQueue

/-! ### The balance -/

/-- The ledger of a queue tells of its open transaction, of the size of its first event and of all
that has left it. -/
structure Balanced (initial : List Bytes) (q : RecordQueue ν) (l : Ledger) : Prop where
  opened : l.opened = q.opened
  asked : ∀ n ∈ l.asked, ∃ e, q.events.head? = some e ∧ e.length = n
  order : l.delivered ++ (q.events ++ q.records) = initial ++ l.committed

variable {initial : List Bytes} {q : RecordQueue ν} {l : Ledger}

theorem Balanced.keeps (h : Balanced initial q l) {q' : RecordQueue ν}
    (opened : q'.opened = q.opened) (events : q'.events = q.events)
    (records : q'.records = q.records) : Balanced initial q' l where
  opened := h.opened.trans opened.symm
  asked := by
    rw [events]
    exact h.asked
  order := by
    rw [events, records]
    exact h.order

theorem Balanced.recorded (h : Balanced initial q l) (p : Bytes) :
    Balanced initial (q.recorded p)
      { l with opened := none, committed := l.committed ++ [p] } := by
  obtain ⟨reports, same⟩ := report_eq { q with records := q.records ++ [p], opened := none }
  rw [RecordQueue.recorded, same]
  refine ⟨rfl, h.asked, ?_⟩
  show l.delivered ++ (q.events ++ (q.records ++ [p])) = initial ++ (l.committed ++ [p])
  rw [← List.append_assoc q.events, ← List.append_assoc, h.order, List.append_assoc]

theorem Balanced.beginWrite (h : Balanced initial q l) (fetch : Nat → Option Bytes) :
    Balanced initial q.beginWrite.2
      (l.note fetch (.beginWrite : Operation ν) (.amount q.beginWrite.1)) := by
  obtain refused | ⟨n, begun⟩ := beginWrite_cases q
  · rw [refused]
    exact h
  · rw [begun]
    exact ⟨rfl, h.asked, h.order⟩

theorem Balanced.append (h : Balanced initial q l) (bs : Bytes) (fetch : Nat → Option Bytes) :
    Balanced initial (q.append bs).2
      (l.note fetch (.append bs : Operation ν) (.flag (q.append bs).1)) := by
  obtain refused | ⟨p, underway, taken⟩ := append_cases q bs
  · rw [refused]
    exact h
  · rw [taken]
    refine ⟨?_, h.asked, h.order⟩
    show l.opened.map _ = some _
    rw [h.opened, underway, Option.map_some]

theorem Balanced.finishWrite (h : Balanced initial q l) (undo : Bool) (fetch : Nat → Option Bytes) :
    Balanced initial (q.finishWrite undo)
      (l.note fetch (.finishWrite undo : Operation ν) .done) := by
  obtain closed | ⟨p, underway⟩ := Option.eq_none_or_eq_some q.opened
  · have nothing : l.opened = none := h.opened.trans closed
    rw [RecordQueue.finishWrite, closed]
    cases undo with
    | true => exact ⟨closed.symm, h.asked, h.order⟩
    | false =>
        refine ⟨closed.symm, h.asked, ?_⟩
        show _ = initial ++ (l.committed ++ l.opened.toList)
        rw [nothing, Option.toList_none, List.append_nil]
        exact h.order
  · rw [RecordQueue.finishWrite, underway]
    cases undo with
    | true => exact ⟨rfl, h.asked, h.order⟩
    | false =>
        show Balanced initial (q.recorded p)
          { l with opened := none, committed := l.committed ++ l.opened.toList }
        rw [h.opened, underway]
        exact h.recorded p

theorem Balanced.writeRecord (h : Balanced initial q l) (payload : Bytes)
    (fetch : Nat → Option Bytes) :
    Balanced initial (q.writeRecord payload).2
      (l.note fetch (.writeRecord payload : Operation ν) (.flag (q.writeRecord payload).1)) := by
  obtain refused | ⟨closed, written⟩ := writeRecord_cases q payload
  · rw [refused]
    exact h
  · have kept := h.recorded payload
    rw [← closed, ← h.opened] at kept
    rw [written]
    exact kept

theorem Balanced.hasMore (h : Balanced initial q l) (on : q.usesBacking = true)
    (fetch : Nat → Option Bytes) :
    Balanced initial q.hasMore.2 (l.note fetch (.hasMore : Operation ν) (.size q.hasMore.1)) := by
  obtain ⟨size, events, records, -⟩ := hasMore_of_usesBacking on
  have kept := h.keeps (serves_hasMore q).opened events records
  refine ⟨kept.opened, ?_, kept.order⟩
  intro n reported
  rw [events]
  have reported' : n ∈ q.events.head?.map List.length := size ▸ reported
  simpa using reported'

theorem Balanced.persist (h : Balanced initial q l) : Balanced initial q.persist.2 l := by
  obtain ⟨⟨more, events⟩, order⟩ := holdings_persist q
  refine ⟨h.opened.trans (serves_persist q).opened.symm, ?_, ?_⟩
  · intro size reported
    obtain ⟨e, first, length⟩ := h.asked size reported
    refine ⟨e, ?_, length⟩
    rw [← events, List.head?_append, first, Option.some_or]
  · rw [order]
    exact h.order

/-- What is marked as read is the first event, which could be read as a whole. -/
theorem Balanced.markRead [EventReader ν] (h : Balanced initial q l) (on : q.usesBacking = true)
    (asked : l.asked.isSome = true) :
    Balanced initial q.markRead
      (l.note (fun n => (q.read 0 n).1) (.markRead : Operation ν) .done) := by
  obtain ⟨n, reported⟩ := Option.isSome_iff_exists.mp asked
  obtain ⟨e, first, length⟩ := h.asked n reported
  obtain ⟨es, events⟩ := List.head?_eq_some_iff.mp first
  obtain ⟨tail, records⟩ := markRead_of_usesBacking q on
  have whole : (q.read 0 n).1 = some e := by
    rw [read_of_usesBacking on, first, Option.bind_some, window, if_pos (by omega),
      List.drop_zero, ← length, List.take_length]
  have order := h.order
  refine ⟨h.opened.trans (serves_markRead q).opened.symm,
    fun n mem => absurd mem (Option.not_mem_none n), ?_⟩
  rw [events] at order
  simpa [Ledger.note, reported, whole, tail, records, events] using order

theorem Balanced.perform [EventReader ν] (h : Balanced initial q l) (on : q.usesBacking = true)
    {op : Operation ν} (permitted : l.Permits op) :
    Balanced initial (q.perform op).2
      (l.note (fun n => (q.read 0 n).1) op (q.perform op).1) := by
  cases op with
  | beginWrite => exact h.beginWrite _
  | append bs => exact h.append bs _
  | finishWrite undo => exact h.finishWrite undo _
  | writeRecord payload => exact h.writeRecord payload _
  | hasMore => exact h.hasMore on _
  | hasRecord =>
      obtain ⟨handed, same⟩ := hasRecord_keeps q
      have kept : Balanced initial { q with handed := handed } l := h.keeps rfl rfl rfl
      rw [← same] at kept
      exact kept
  | read offset length =>
      obtain ⟨events, records⟩ := events_read q offset length
      exact h.keeps (serves_read q offset length).opened events records
  | readRecord offset length => exact h
  | recordSlices => exact h
  | markRead => exact h.markRead on permitted
  | setBatchLimit limit => exact h.keeps rfl rfl rfl
  | observe => exact h.keeps rfl rfl rfl
  | alterBacking f =>
      have events : (q.perform (.alterBacking f)).2.events = q.events :=
        eventsOf_map permitted q.backing
      exact h.keeps rfl events rfl
  | persist => exact h.persist
  | markRecordRead => exact absurd permitted id
  | attach b => exact absurd permitted id
  | drainOne => exact absurd permitted id
  | drain rounds => exact absurd permitted id

end RecordQueue

/-- While the non-volatile store can be used, nothing is lost, doubled or put out of order on the
way from the records over the events to the reader. -/
theorem Spills.conserves [EventReader ν] {initial : ν} {s : RecordStore ν} {l : Ledger}
    (run : Spills initial s l) :
    l.delivered ++ s.events ++ s.payloads = EventList.events initial ++ l.committed := by
  have balanced : ∃ q, RecordQueue.Represents s q ∧
      RecordQueue.Balanced (EventList.events initial) q l := by
    induction run with
    | fresh made =>
        refine ⟨_, (RecordQueue.represents_ofCapacity made).attach initial, rfl, nofun, ?_⟩
        exact (List.append_nil _).trans (List.append_nil _).symm
    | step op before on permitted ih =>
        obtain ⟨q, h, balanced⟩ := ih
        obtain ⟨answer, next⟩ := h.perform op
        have reading := funext fun n => (h.read 0 n).1
        rw [answer, reading]
        exact ⟨_, next, balanced.perform (h.usesBacking_eq.symm.trans on) permitted⟩
  obtain ⟨q, h, balanced⟩ := balanced
  rw [h.events_eq, h.payloads_eq, List.append_assoc]
  exact balanced.order

/-- The non-volatile store takes two events and has one to begin with; it refuses a record while a
transaction is open, and takes it once the first event is marked as read. -/
theorem Spills.conserves_past_refusal :
    ∃ (s : RecordStore EventQueue) (l : Ledger),
      Spills { limit := some 2, events := [[0xAA]] } s l ∧ l.delivered = [[0xAA], [1, 2]] ∧
        s.events = [[3]] ∧ s.payloads = [[4, 5]] ∧
        l.delivered ++ s.events ++ s.payloads = [[0xAA]] ++ l.committed := by
  let b : EventQueue := { limit := some 2, events := [[0xAA]] }
  have run := (@Spills.fresh EventQueue _ _ b 12 _ rfl).step (.writeRecord [1, 2])
    (by decide +kernel) trivial |>.step (.writeRecord [3]) (by decide +kernel) trivial
    |>.step .beginWrite (by decide +kernel) trivial
    |>.step (.append [4, 5]) (by decide +kernel) trivial
    |>.step .persist (by decide +kernel) trivial
    |>.step .hasMore (by decide +kernel) trivial
    |>.step .markRead (by decide +kernel) (by unfold Ledger.Permits; decide +kernel)
    |>.step .persist (by decide +kernel) trivial
    |>.step (.finishWrite false) (by decide +kernel) trivial
    |>.step .hasMore (by decide +kernel) trivial
    |>.step .markRead (by decide +kernel) (by unfold Ledger.Permits; decide +kernel)
  exact ⟨_, _, run, by decide +kernel, by decide +kernel, by decide +kernel, run.conserves⟩

end DeviceTelemetry
