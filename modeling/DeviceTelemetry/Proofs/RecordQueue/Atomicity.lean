import DeviceTelemetry.Proofs.LargestEvent
import DeviceTelemetry.Proofs.RecordQueue.Recording

/-!
# Events are recorded as a whole

`RecordStore.Accepts` says when a store has room for a payload: no transaction is open, and the
payload fits behind a header into the free bytes and into a record. An event that is accepted
becomes the newest record; any other is refused and leaves the store as it was, wherever in the
event the encoder had to stop (`recordEvent_all_or_nothing`).
-/

set_option autoImplicit false

namespace DeviceTelemetry

open RecordStore (headerSize maxRecordSize)
open RecordQueue (Represents)

variable {ν : Type}

namespace RecordStore

def Accepts (s : RecordStore ν) (payload : Bytes) : Prop :=
  s.opened = none ∧ payload.length + headerSize ≤ s.levels.free ∧
    payload.length + headerSize ≤ maxRecordSize

instance (s : RecordStore ν) (payload : Bytes) : Decidable (s.Accepts payload) :=
  inferInstanceAs (Decidable (_ ∧ _ ∧ _))

/-- A store with one more record than before. -/
structure Gained (s s' : RecordStore ν) (payload : Bytes) : Prop where
  payloads : s'.payloads = s.payloads ++ [payload]
  bytes : s'.ring.toList = s.ring.toList ++ RecordQueue.frame payload
  start : s'.ring.start = s.ring.start
  opened : s'.opened = none
  handout : s'.handout = s.handout

/-- A store in which nothing has changed but cells that hold no unread byte. -/
structure Unchanged (s s' : RecordStore ν) : Prop where
  payloads : s'.payloads = s.payloads
  levels : s'.levels = s.levels
  /-- The unread bytes, those of an open transaction included. -/
  bytes : s'.ring.toList = s.ring.toList
  start : s'.ring.start = s.ring.start
  opened : s'.opened = s.opened
  handout : s'.handout = s.handout
  rest : s' = { s with ring := s'.ring }

end RecordStore

namespace RecordQueue.Represents

variable {s s' : RecordStore ν} {q : RecordQueue ν}

theorem accepts_iff (h : Represents s q) {payload : Bytes} (nonempty : 0 < payload.length) :
    s.Accepts payload ↔ q.opened = none ∧ q.Fits payload := by
  have free : s.levels.free = q.free := h.free_eq
  have closed : s.opened = none ↔ q.opened = none := by
    rw [h.opened, Option.map_eq_none_iff]
  unfold RecordStore.Accepts Fits
  rw [free, closed]
  constructor
  · rintro ⟨closed, room, short⟩
    exact ⟨closed, by omega, room, short⟩
  · rintro ⟨closed, -, room, short⟩
    exact ⟨closed, room, short⟩

theorem unchanged (h : Represents s q) (h' : Represents s' q) : s.Unchanged s' where
  payloads := h'.payloads_eq.trans h.payloads_eq.symm
  levels := h'.levels_eq.trans h.levels_eq.symm
  bytes := h'.bytes.trans h.bytes.symm
  start := h'.start.trans h.start.symm
  opened := h'.opened.trans h.opened.symm
  handout := h'.handout.trans h.handout.symm
  rest := by
    have opened := h'.opened.trans h.opened.symm
    have handout := h'.handout.trans h.handout.symm
    have limit := h'.batchLimit.trans h.batchLimit.symm
    have backing := h'.backing.trans h.backing.symm
    have seen := h'.backingSeen.trans h.backingSeen.symm
    have observed := h'.observed.trans h.observed.symm
    have reports := h'.reports.trans h.reports.symm
    cases s'
    simp only at opened handout limit backing seen observed reports
    subst opened handout limit backing seen observed reports
    rfl

theorem gained (h : Represents s q) {payload : Bytes} (closed : q.opened = none)
    (h' : Represents s' (q.recorded payload)) : s.Gained s' payload := by
  obtain ⟨reports, same⟩ :=
    RecordQueue.report_eq { q with records := q.records ++ [payload], opened := none }
  have start := h'.start
  have opened := h'.opened
  have handout := h'.handout
  have bytes := h'.bytes
  rw [recorded, same] at start opened handout bytes
  refine ⟨?_, ?_, start.trans h.start.symm, opened, ?_⟩
  · rw [h'.payloads_eq, h.payloads_eq, records_recorded]
  · rw [bytes, h.bytes, image, image, closed]
    show imageOf (q.records ++ [payload]) none = imageOf q.records none ++ frame payload
    rw [imageOf_append_frame, imageOf_none]
  · -- what is handed out are the oldest records, to which nothing was added
    rw [handout, h.handout]
    cases held : q.handed with
    | none => rfl
    | some n =>
        have inside := (h.handed n (by rw [held]; rfl)).2
        simp only [Option.map_some, handoutOf, span]
        rw [List.take_append_of_le_length inside]

end RecordQueue.Represents

/-- In every reachable store, an event is recorded exactly if no transaction is open and its
encoding fits behind a header into the free bytes and into a record. Then all of the encoding is
the newest record; in all other cases there is no space for it, and the store stays as it was. The
event is a trace or that of a session, whatever the table of the session holds. -/
theorem recordEvent_all_or_nothing [Nonvolatile ν] {s : RecordStore ν} (reachable : s.Reachable)
    (device : Device) (e : Event) :
    let payload := e.encode device
    let outcome := s.recordEvent device e
    (s.Accepts payload → outcome.1 = .ok payload.length ∧ s.Gained outcome.2 payload) ∧
      (¬s.Accepts payload →
        (∃ needed remaining, outcome.1 = .error (.outOfSpace needed remaining)) ∧
          s.Unchanged outcome.2) := by
  intro payload outcome
  obtain ⟨q, h⟩ := reachable.exists_represents
  have accepted := h.accepts_iff (e.length_encode_pos device)
  refine ⟨?_, ?_⟩
  · intro room
    obtain ⟨closed, fits⟩ := accepted.mp room
    obtain ⟨s', recorded, next⟩ := h.recordEvent_of_fits closed fits
    rw [show outcome = (.ok payload.length, s') from recorded]
    exact ⟨rfl, h.gained closed next⟩
  · intro full
    obtain ⟨result, next⟩ := h.recordEvent device e
    have refused : q.writeRecord payload = (false, q) := by
      cases underway : q.opened with
      | some p => exact RecordQueue.writeRecord_of_opened underway payload
      | none =>
          apply RecordQueue.writeRecord_of_not_fits underway
          intro fits
          exact full (accepted.mpr ⟨underway, fits⟩)
    rw [refused] at result next
    refine ⟨?_, h.unchanged next⟩
    cases answer : outcome.1 with
    | ok n =>
        rw [show (s.recordEvent device e).1 = .ok n from answer] at result
        cases result
    | error error =>
        obtain ⟨needed, remaining⟩ := error
        exact ⟨needed, remaining, rfl⟩

/-- A trace of 17 bytes in a store with 21 free ones, first while a transaction is open and then
when it has been taken back. -/
theorem recordEvent_all_or_nothing_over_24 :
    ∃ fresh : RecordStore Empty, RecordStore.ofCapacity 24 = .ok fresh ∧
      let busy := (fresh.performAll [.writeRecord [1], .hasMore, .beginWrite, .append [2, 3]]).2
      let idle := (busy.perform (.finishWrite true)).2
      let e := Event.trace { reason := 7 }
      busy.Unchanged (busy.recordEvent {} e).2 ∧ (idle.recordEvent {} e).1 = .ok 17 ∧
        (idle.recordEvent {} e).2.payloads = [[1], e.encode {}] := by
  refine ⟨_, rfl, ?_⟩
  intro busy idle e
  have refused := (recordEvent_all_or_nothing (s := busy) ⟨24, _, _, rfl, rfl⟩ {} e).2
    (by decide +kernel)
  have recorded := (recordEvent_all_or_nothing (s := idle) ⟨24, _,
    [.writeRecord [1], .hasMore, .beginWrite, .append [2, 3], .finishWrite true], rfl, rfl⟩ {} e).1
    (by decide +kernel)
  refine ⟨refused.2, recorded.1, recorded.2.payloads.trans ?_⟩
  decide +kernel

end DeviceTelemetry
