import DeviceTelemetry.Event
import DeviceTelemetry.Proofs.EncodedSize
import DeviceTelemetry.Proofs.RecordQueue.Contents
import DeviceTelemetry.Proofs.RecordQueue.Frame

/-!
# Recording events

Recording items is writing their encoding as one record (`Represents.recordItems`): it succeeds
when the whole encoding fits, and otherwise leaves nothing behind, wherever the encoder stopped.
-/

set_option autoImplicit false

namespace DeviceTelemetry.RecordQueue

open RecordStore (headerSize maxRecordSize)
open Cbor (Item Encoder encodeAll)

variable {ν : Type}

/-- Whether a payload can become a record of a queue without an open transaction. -/
def Fits (q : RecordQueue ν) (payload : Bytes) : Prop :=
  headerSize < q.free ∧ payload.length + headerSize ≤ q.free ∧
    payload.length + headerSize ≤ maxRecordSize

instance (q : RecordQueue ν) (payload : Bytes) : Decidable (q.Fits payload) :=
  inferInstanceAs (Decidable (_ ∧ _ ∧ _))

def Room (q : RecordQueue ν) (p bs : Bytes) : Prop :=
  bs.length ≤ { q with opened := some p }.free ∧ p.length + headerSize + bs.length ≤ maxRecordSize

theorem free_of_opened (q : RecordQueue ν) (p : Bytes) :
    { q with opened := some p }.free =
      q.capacity - ((q.records.flatMap frame).length + (p.length + headerSize)) := by
  show q.capacity - (imageOf q.records (some p)).length = _
  rw [imageOf_some, List.length_append, length_openFrame]

theorem free_of_closed {q : RecordQueue ν} (closed : q.opened = none) :
    q.free = q.capacity - (q.records.flatMap frame).length := by
  show q.capacity - (imageOf q.records q.opened).length = _
  rw [closed, imageOf_none]

instance (q : RecordQueue ν) (p bs : Bytes) : Decidable (q.Room p bs) :=
  inferInstanceAs (Decidable (_ ∧ _))

theorem room_append (q : RecordQueue ν) (p bs bs' : Bytes) (here : q.Room p bs) :
    q.Room (p ++ bs) bs' ↔ q.Room p (bs ++ bs') := by
  obtain ⟨space, small⟩ := here
  simp only [Room] at *
  rw [free_of_opened] at *
  rw [free_of_opened, List.length_append, List.length_append]
  omega

theorem room_of_append {q : RecordQueue ν} {p bs bs' : Bytes} (all : q.Room p (bs ++ bs')) :
    q.Room p bs := by
  obtain ⟨space, small⟩ := all
  rw [List.length_append] at space small
  exact ⟨by omega, by omega⟩

/-! ### Writing whole records -/

theorem beginWrite_of_opened {q : RecordQueue ν} {p : Bytes} (underway : q.opened = some p) :
    q.beginWrite = (0, q) := by
  rw [beginWrite, underway, if_neg (by simp)]

theorem writeRecord_of_refused {q : RecordQueue ν} (refused : q.beginWrite = (0, q))
    (payload : Bytes) : q.writeRecord payload = (false, q) := by
  rw [writeRecord, refused]
  rfl

theorem writeRecord_of_opened {q : RecordQueue ν} {p : Bytes} (underway : q.opened = some p)
    (payload : Bytes) : q.writeRecord payload = (false, q) :=
  writeRecord_of_refused (beginWrite_of_opened underway) payload

theorem writeRecord_of_begun {q q' : RecordQueue ν} {budget : Nat}
    (begun : q.beginWrite = (budget + 1, q')) (payload : Bytes) :
    q.writeRecord payload =
      ((q'.append payload).1, (q'.append payload).2.finishWrite (!(q'.append payload).1)) := by
  rw [writeRecord, begun]
  rfl

theorem beginWrite_of_full {q : RecordQueue ν} (full : ¬headerSize < q.free) :
    q.beginWrite = (0, q) := by
  rw [beginWrite, if_neg (by rintro ⟨-, more⟩; exact full more)]

theorem beginWrite_of_closed {q : RecordQueue ν} (closed : q.opened = none)
    (more : headerSize < q.free) :
    ∃ budget, q.beginWrite = (budget + 1, { q with opened := some [] }) ∧
      q.capacity = (q.records.flatMap frame).length + headerSize + (budget + 1) := by
  have free := free_of_closed closed
  refine ⟨q.free - headerSize - 1, ?_, by omega⟩
  rw [beginWrite, if_pos ⟨closed, more⟩]
  congr 1
  omega

theorem beginWrite_cases (q : RecordQueue ν) :
    q.beginWrite = (0, q) ∨ ∃ n, q.beginWrite = (n + 1, { q with opened := some [] }) := by
  obtain closed | ⟨p, underway⟩ := Option.eq_none_or_eq_some q.opened
  · by_cases more : headerSize < q.free
    · obtain ⟨budget, begun, -⟩ := beginWrite_of_closed closed more
      exact .inr ⟨budget, begun⟩
    · exact .inl (beginWrite_of_full more)
  · exact .inl (beginWrite_of_opened underway)

theorem fits_iff_room {q : RecordQueue ν} (closed : q.opened = none) (more : headerSize < q.free)
    (payload : Bytes) : q.Fits payload ↔ q.Room [] payload := by
  have free := free_of_closed closed
  simp only [Fits, Room]
  rw [free_of_opened, List.length_nil]
  omega

theorem append_of_opened (q : RecordQueue ν) (p bs : Bytes) :
    { q with opened := some p }.append bs =
      if q.Room p bs then (true, { q with opened := some (p ++ bs) })
      else (false, { q with opened := some p }) := by
  simp only [append]
  by_cases room : q.Room p bs
  · rw [if_pos room]
    exact if_pos room
  · rw [if_neg room]
    exact if_neg room

theorem append_of_closed {q : RecordQueue ν} (closed : q.opened = none) (bs : Bytes) :
    q.append bs = (false, q) := by
  rw [append, closed]

theorem append_cases (q : RecordQueue ν) (bs : Bytes) :
    q.append bs = (false, q) ∨
      ∃ p, q.opened = some p ∧ q.append bs = (true, { q with opened := some (p ++ bs) }) := by
  obtain closed | ⟨p, underway⟩ := Option.eq_none_or_eq_some q.opened
  · exact .inl (append_of_closed closed bs)
  · obtain ⟨q, rfl⟩ : ∃ q₀, q = { q₀ with opened := some p } := ⟨q, by rw [← underway]⟩
    rw [append_of_opened]
    by_cases room : q.Room p bs
    · rw [if_pos room]
      exact .inr ⟨p, rfl, rfl⟩
    · rw [if_neg room]
      exact .inl rfl

def recorded (q : RecordQueue ν) (payload : Bytes) : RecordQueue ν :=
  { q with records := q.records ++ [payload], opened := none }.report

theorem records_recorded (q : RecordQueue ν) (payload : Bytes) :
    (q.recorded payload).records = q.records ++ [payload] := by
  obtain ⟨reports, same⟩ := report_eq { q with records := q.records ++ [payload], opened := none }
  rw [recorded, same]

/-- A whole record is written exactly if no transaction is open and it fits. -/
theorem writeRecord_of_fits {q : RecordQueue ν} (closed : q.opened = none) {payload : Bytes}
    (fits : q.Fits payload) :
    q.writeRecord payload = (true, q.recorded payload) := by
  obtain ⟨budget, begun, -⟩ := beginWrite_of_closed closed fits.1
  rw [writeRecord_of_begun begun, append_of_opened,
    if_pos ((fits_iff_room closed fits.1 payload).mp fits)]
  rfl

theorem writeRecord_of_not_fits {q : RecordQueue ν} (closed : q.opened = none) {payload : Bytes}
    (large : ¬q.Fits payload) : q.writeRecord payload = (false, q) := by
  by_cases more : headerSize < q.free
  · have undone : { q with opened := none } = q := by rw [← closed]
    obtain ⟨budget, begun, -⟩ := beginWrite_of_closed closed more
    rw [writeRecord_of_begun begun, append_of_opened,
      if_neg (mt (fits_iff_room closed more payload).mpr large)]
    exact Prod.ext rfl undone
  · exact writeRecord_of_refused (beginWrite_of_full more) payload

theorem writeRecord_cases (q : RecordQueue ν) (payload : Bytes) :
    q.writeRecord payload = (false, q) ∨
      q.opened = none ∧ q.writeRecord payload = (true, q.recorded payload) := by
  obtain closed | ⟨p, underway⟩ := Option.eq_none_or_eq_some q.opened
  · by_cases fits : q.Fits payload
    · exact .inr ⟨closed, writeRecord_of_fits closed fits⟩
    · exact .inl (writeRecord_of_not_fits closed fits)
  · exact .inl (writeRecord_of_opened underway payload)

/-! ### Encoding into a transaction -/

/-- Bytes are sent into the open transaction, whose payload was `p`: all of them if there is room,
and else some of them before the first refusal. -/
structure Sent (q : RecordQueue ν) (p bs : Bytes) (capacity : Nat)
    (r : Except EncodeError Unit × Encoder (RecordStore ν)) : Prop where
  sent : q.Room p bs → ∃ s, r = (.ok (), ⟨s, capacity, (p ++ bs).length⟩) ∧
    Represents s { q with opened := some (p ++ bs) }
  refused : ¬q.Room p bs → ∃ e s p' size, r = (.error e, ⟨s, capacity, size⟩) ∧
    Represents s { q with opened := some p' }

theorem Sent.none {q : RecordQueue ν} {s : RecordStore ν} {p : Bytes} {capacity : Nat}
    (h : Represents s { q with opened := some p }) :
    Sent q p [] capacity (.ok (), ⟨s, capacity, p.length⟩) := by
  have small := h.fits p (List.mem_append_right _ (by simp))
  refine ⟨?_, fun full => absurd ⟨Nat.zero_le _, small⟩ full⟩
  intro _
  rw [List.append_nil]
  exact ⟨s, rfl, h⟩

theorem Sent.behind {q : RecordQueue ν} {p bs bs' : Bytes} {capacity : Nat}
    {r : Except EncodeError Unit × Encoder (RecordStore ν)} (here : q.Room p bs)
    (rest : Sent q (p ++ bs) bs' capacity r) : Sent q p (bs ++ bs') capacity r := by
  refine ⟨?_, fun full => rest.refused (mt (room_append q p bs bs' here).mp full)⟩
  intro room
  rw [← List.append_assoc]
  exact rest.sent ((room_append q p bs bs' here).mpr room)

theorem Sent.stopped {q : RecordQueue ν} {s : RecordStore ν} {p p' bs bs' : Bytes}
    {e : EncodeError} {capacity size : Nat} (full : ¬q.Room p bs)
    (h : Represents s { q with opened := some p' }) :
    Sent q p (bs ++ bs') capacity (.error e, ⟨s, capacity, size⟩) :=
  ⟨fun room => absurd (room_of_append room) full, fun _ => ⟨e, s, p', size, rfl, h⟩⟩

theorem send_sent {q : RecordQueue ν} {s : RecordStore ν} {p : Bytes}
    (h : Represents s { q with opened := some p }) (pieces : List Bytes) (capacity : Nat) :
    Sent q p pieces.flatten capacity (Encoder.send pieces ⟨s, capacity, p.length⟩) := by
  induction pieces generalizing s p with
  | nil => exact Sent.none h
  | cons piece pieces ih =>
      obtain ⟨taken, next⟩ := h.append piece
      rw [append_of_opened] at taken next
      rw [List.flatten_cons, Encoder.send]
      rw [show Cbor.Sink.append s piece = s.append piece from rfl]
      generalize s.append piece = answer at taken next
      obtain ⟨taken', s'⟩ := answer
      dsimp only at taken next
      by_cases room : q.Room p piece
      · rw [if_pos room] at taken next
        subst taken
        have rest := ih next
        rw [List.length_append] at rest
        exact rest.behind room
      · rw [if_neg room] at taken next
        subst taken
        exact Sent.stopped room next

/-- An encoder that has capacity for an item sends all of its pieces. -/
theorem put_of_fits {q : RecordQueue ν} {s : RecordStore ν} {p : Bytes} {capacity : Nat}
    (h : Represents s { q with opened := some p }) {item : Item}
    (fits : item.size ≤ capacity - p.length) :
    Sent q p item.encode capacity (Encoder.put ⟨s, capacity, p.length⟩ item) := by
  have put : Encoder.put ⟨s, capacity, p.length⟩ item =
      Encoder.send item.pieces ⟨s, capacity, p.length⟩ := if_pos fits
  rw [put]
  exact send_sent h item.pieces capacity

theorem put_sent {q : RecordQueue ν} {s : RecordStore ν} {p : Bytes} {budget : Nat}
    (h : Represents s { q with opened := some p })
    (space : q.capacity = (q.records.flatMap frame).length + headerSize + budget) (item : Item) :
    Sent q p item.encode budget (Encoder.put ⟨s, budget, p.length⟩ item) := by
  by_cases fits : item.size ≤ budget - p.length
  · exact put_of_fits h fits
  · have size := item.length_encode
    rw [Encoder.put]
    dsimp only
    rw [if_neg fits, ← List.append_nil item.encode]
    refine Sent.stopped ?_ h
    rintro ⟨left, -⟩
    rw [free_of_opened] at left
    omega

theorem putAll_sent {q : RecordQueue ν} {s : RecordStore ν} {p : Bytes} {budget : Nat}
    (h : Represents s { q with opened := some p })
    (space : q.capacity = (q.records.flatMap frame).length + headerSize + budget)
    (items : List Item) :
    Sent q p (encodeAll items) budget (Encoder.putAll ⟨s, budget, p.length⟩ items) := by
  induction items generalizing s p with
  | nil => exact Sent.none h
  | cons item items ih =>
      have first := put_sent h space item
      rw [encodeAll, List.flatMap_cons, Encoder.putAll]
      by_cases room : q.Room p item.encode
      · obtain ⟨s', taken, next⟩ := first.sent room
        rw [taken]
        exact (ih next).behind room
      · obtain ⟨e, s', p', size, refused, next⟩ := first.refused room
        rw [refused]
        exact Sent.stopped room next

theorem recordItems_of_refused {s s' : RecordStore ν} (refused : s.beginWrite = (0, s'))
    (items : List Item) : s.recordItems items = (.error (.outOfSpace 1 0), s') := by
  rw [RecordStore.recordItems, refused]
  rfl

theorem recordItems_of_begun {s s' : RecordStore ν} {budget : Nat} {items : List Item}
    (begun : s.beginWrite = (budget + 1, s')) :
    s.recordItems items =
      match Encoder.putAll ⟨s', budget + 1, 0⟩ items with
      | (.ok _, encoder) => (.ok encoder.size, encoder.sink.commit)
      | (.error e, encoder) => (.error e, encoder.sink.rollback) := by
  rw [RecordStore.recordItems, begun]
  rfl

namespace Represents

variable {s : RecordStore ν} {q : RecordQueue ν}

/-- Recording items is writing their encoding as one record. -/
theorem recordItems (h : Represents s q) (items : List Item) :
    (s.recordItems items).1.toOption =
        (if (q.writeRecord (encodeAll items)).1 then some (encodeAll items).length else none) ∧
      Represents (s.recordItems items).2 (q.writeRecord (encodeAll items)).2 := by
  obtain ⟨same, begun⟩ := h.beginWrite
  cases answer : s.beginWrite with
  | mk budget s' =>
      rw [answer] at same begun
      dsimp only at same begun
      by_cases opens : q.opened = none ∧ headerSize < q.free
      · obtain ⟨closed, more⟩ := opens
        obtain ⟨n, answer', space⟩ := beginWrite_of_closed closed more
        rw [answer'] at same begun
        dsimp only at same begun
        subst same
        have outcome := putAll_sent begun space items
        rw [List.length_nil] at outcome
        rw [recordItems_of_begun answer, writeRecord_of_begun answer', append_of_opened]
        by_cases room : q.Room [] (encodeAll items)
        · obtain ⟨s'', sent, next⟩ := outcome.sent room
          rw [if_pos room, sent]
          exact ⟨rfl, next.commit rfl⟩
        · obtain ⟨e, s'', p', size, refused, next⟩ := outcome.refused room
          rw [if_neg room, refused]
          exact ⟨rfl, next.rollback rfl⟩
      · have refused : q.beginWrite = (0, q) := by rw [RecordQueue.beginWrite, if_neg opens]
        rw [refused] at same begun
        dsimp only at same begun
        subst same
        rw [recordItems_of_refused answer, writeRecord_of_refused refused]
        exact ⟨rfl, begun⟩

theorem recordEvent (h : Represents s q) (device : Device) (e : Event) :
    (s.recordEvent device e).1.toOption =
        (if (q.writeRecord (e.encode device)).1 then some (e.encode device).length else none) ∧
      Represents (s.recordEvent device e).2 (q.writeRecord (e.encode device)).2 :=
  h.recordItems (e.items device)

/-- An event that was recorded did fit, and all of its bytes are the newest record. -/
theorem recordEvent_ok (h : Represents s q) {device : Device} {e : Event} {n : Nat}
    {s' : RecordStore ν} (ok : s.recordEvent device e = (.ok n, s')) :
    n = (e.encode device).length ∧ q.opened = none ∧ q.Fits (e.encode device) ∧
      Represents s' (q.recorded (e.encode device)) := by
  obtain ⟨result, next⟩ := h.recordEvent device e
  rw [ok] at result next
  cases underway : q.opened with
  | some p =>
      rw [writeRecord_of_opened underway] at result
      cases result
  | none =>
      by_cases fits : q.Fits (e.encode device)
      · rw [writeRecord_of_fits underway fits] at result next
        exact ⟨Option.some.inj result, rfl, fits, next⟩
      · rw [writeRecord_of_not_fits underway fits] at result
        cases result

theorem recordEvent_of_fits (h : Represents s q) {device : Device} {e : Event}
    (closed : q.opened = none) (fits : q.Fits (e.encode device)) :
    ∃ s', s.recordEvent device e = (.ok (e.encode device).length, s') ∧
      Represents s' (q.recorded (e.encode device)) := by
  obtain ⟨result, next⟩ := h.recordEvent device e
  rw [writeRecord_of_fits closed fits, if_pos rfl] at result
  rw [writeRecord_of_fits closed fits] at next
  generalize s.recordEvent device e = outcome at result next
  obtain ⟨outcome, s'⟩ := outcome
  cases outcome with
  | ok n =>
      obtain rfl := Option.some.inj result
      exact ⟨s', rfl, next⟩
  | error error => cases result

theorem recordEvent_of_not_fits (h : Represents s q) {device : Device} {e : Event}
    (closed : q.opened = none) (large : ¬q.Fits (e.encode device)) :
    ∃ error s', s.recordEvent device e = (.error error, s') ∧ Represents s' q := by
  obtain ⟨result, next⟩ := h.recordEvent device e
  rw [writeRecord_of_not_fits closed large, if_neg (by simp)] at result
  rw [writeRecord_of_not_fits closed large] at next
  generalize s.recordEvent device e = outcome at result next
  obtain ⟨outcome, s'⟩ := outcome
  cases outcome with
  | ok n => cases result
  | error error => exact ⟨error, s', rfl, next⟩

end Represents

end DeviceTelemetry.RecordQueue
