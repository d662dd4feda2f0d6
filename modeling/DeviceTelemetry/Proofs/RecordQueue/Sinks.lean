import DeviceTelemetry.Proofs.LargestEvent
import DeviceTelemetry.Proofs.RecordQueue.Encoding

/-!
# Encoders over different sinks

What an item that is refused leaves behind (`refused_items_leave_nothing`): nothing, except over a
transaction whose capacity exceeds the limit of a record, where the head of a text can stay
(`refused_text_leaves_its_head`). Within that limit encoders over all sinks do the same
(`sinks_agree`).
-/

set_option autoImplicit false

namespace DeviceTelemetry

open RecordStore (headerSize maxRecordSize)
open RecordQueue (Represents Carries Undone)
open Cbor (Item Encoder Tally encodeAll sizeOf)

variable {ν : Type}

theorem RecordStore.Reachable.exists_begun [Nonvolatile ν] {s s' : RecordStore ν} {budget : Nat}
    (reachable : s.Reachable) (begun : s.beginWrite = (budget, s')) (positive : 0 < budget) :
    ∃ q, Represents s q ∧ Represents s' { q with opened := some [] } ∧
      q.capacity = (q.records.flatMap RecordQueue.frame).length + headerSize + budget := by
  obtain ⟨q, h⟩ := reachable.exists_represents
  exact ⟨q, h, h.begun begun positive⟩

/-- An encoder never exceeds its capacity. An item that it refuses leaves nothing behind if the
encoder counts or writes to a buffer. Over a transaction with a budget that no record can use up,
an item whose head alone still fits into the record leaves its head; every other leaves nothing. -/
theorem refused_items_leave_nothing [Nonvolatile ν] (before : List Item) (item : Item)
    (capacity : Nat) :
    (let e := ((Encoder.ofSink Tally.mk capacity).putEach before).2
     e.size ≤ capacity ∧ ∀ error, (e.put item).1 = .error error → (e.put item).2 = e) ∧
    (∀ buffer : Array UInt8,
      let e := ((Encoder.ofSink buffer capacity).putEach before).2
      e.size ≤ capacity ∧ ∀ error, (e.put item).1 = .error error → (e.put item).2 = e) ∧
    ∀ (s s' : RecordStore ν) (budget : Nat), s.Reachable → s.beginWrite = (budget, s') →
      0 < budget → capacity ≤ budget →
        let e := ((Encoder.ofSink s' capacity).putEach before).2
        e.size ≤ capacity ∧ ∀ error, (e.put item).1 = .error error → Undone e item := by
  refine ⟨?counting, ?buffer, ?transaction⟩
  case counting => exact (Encoder.faithful_tally capacity).leaves_nothing rfl before item
  case buffer =>
    intro buffer
    exact (Encoder.faithful_buffer buffer capacity).leaves_nothing Array.append_empty.symm before
      item
  case transaction =>
    intro s s' budget reachable begun positive within e
    obtain ⟨q, -, opened, space⟩ := reachable.exists_begun begun positive
    have start : Carries q capacity (Encoder.ofSink s' capacity) :=
      ⟨rfl, Nat.zero_le _, [], opened, rfl⟩
    have reached : Carries q capacity e := start.putEach space within before
    refine ⟨reached.within, fun error refused => ?_⟩
    rcases (reached.put space within item).2 with taken | ⟨-, undone⟩
    · rw [taken] at refused
      cases refused
    · exact undone

/-- A transaction behind a record, a text that is refused and one that is taken before. -/
theorem refused_items_leave_nothing_over_16 :
    ∃ fresh : RecordStore Empty, RecordStore.ofCapacity 16 = .ok fresh ∧
      let s := (fresh.performAll [.writeRecord [1]]).2
      let e := ((Encoder.ofSink s.beginWrite.2 5).putEach [.text "too long", .text "abc", .null]).2
      s.beginWrite.1 = 11 ∧ e.size = 5 ∧
        (e.put (.unsigned 1000)).1 = .error (.outOfSpace 3 0) ∧ (e.put (.unsigned 1000)).2 = e := by
  refine ⟨_, rfl, ?_⟩
  intro s e
  have budget : s.beginWrite.1 = 11 := by decide +kernel
  have size : e.size = 5 := by decide +kernel
  have refused : (e.put (.unsigned 1000)).1 = .error (.outOfSpace 3 0) := by decide +kernel
  have stays : ¬e.HeadStays (.unsigned 1000) := by decide +kernel
  have reachable : s.Reachable := ⟨16, _, [.writeRecord [1]], rfl, rfl⟩
  have begun : s.beginWrite = (11, s.beginWrite.2) := Prod.ext budget rfl
  have law : e.size ≤ 5 ∧ ∀ error, (e.put (.unsigned 1000)).1 = .error error →
      Undone e (.unsigned 1000) :=
    (refused_items_leave_nothing [.text "too long", .text "abc", .null] (.unsigned 1000) 5).2.2
      s s.beginWrite.2 11 reachable begun (by decide) (by decide)
  clear_value e
  have undone := law.2 _ refused
  rw [Undone, if_neg stays] at undone
  exact ⟨budget, size, refused, undone⟩

theorem head_of_long_text_stays {text : String} (long : Text.byteLength text = 65530)
    {s s' : RecordStore ν} (made : RecordStore.ofCapacity 70000 = .ok s)
    (begun : s.beginWrite = (69998, s')) :
    let e := Encoder.ofSink s' 69998
    (e.put (.text text)).1 = .error (.outOfSpace 65530 69995) ∧
      e.size = 0 ∧ (e.sink.finishWrite false).payloads = [[]] ∧
      (e.put (.text text)).2.size = 3 ∧
      ((e.put (.text text)).2.sink.finishWrite false).payloads = [[0x79, 0xFF, 0xFA]] := by
  obtain ⟨opened, space⟩ := (RecordQueue.represents_ofCapacity made).begun begun (by decide)
  have size : (Item.text text).size = 65533 := by
    show Cbor.headSize (Text.byteLength text) + Text.byteLength text = 65533
    rw [long]
    rfl
  have head : (Item.text text).headBytes = [0x79, 0xFF, 0xFA] := by
    show Cbor.head .text (Text.byteLength text) = _
    rw [long]
    rfl
  have stays : (Encoder.ofSink s' 69998).HeadStays (.text text) := by
    rw [Encoder.HeadStays, size, head]
    show 65533 ≤ 69998 - 0 ∧ 2 + 0 + 3 ≤ 65534 ∧ 65534 < 2 + 0 + 65533
    decide
  obtain ⟨s'', -, next, refused⟩ :=
    RecordQueue.put_of_headStays space (Nat.le_refl 69998) opened stays
  rw [size, head] at refused
  rw [head] at next
  have stopped : (Encoder.ofSink s' 69998).put (.text text) =
      (.error (.outOfSpace 65530 69995), ⟨s'', 69998, 3⟩) := refused
  intro e
  rw [stopped]
  refine ⟨rfl, rfl, ?_, rfl, ?_⟩
  · exact (opened.finishWrite false).payloads_eq
  · exact (next.finishWrite false).payloads_eq

/-- A text of 65530 bytes is refused for want of record, and its head of three bytes becomes the
payload of a record. -/
theorem refused_text_leaves_its_head :
    ∃ s s' : RecordStore Empty, RecordStore.ofCapacity 70000 = .ok s ∧
      s.beginWrite = (69998, s') ∧
      let e := Encoder.ofSink s' 69998
      let item := Item.text (String.ofList (List.replicate 65530 'x'))
      (e.put item).1 = .error (.outOfSpace 65530 69995) ∧
        e.size = 0 ∧ (e.sink.finishWrite false).payloads = [[]] ∧
        (e.put item).2.size = 3 ∧
        ((e.put item).2.sink.finishWrite false).payloads = [[0x79, 0xFF, 0xFA]] := by
  obtain ⟨s, made⟩ : ∃ s : RecordStore Empty, RecordStore.ofCapacity 70000 = .ok s := ⟨_, rfl⟩
  have budget : s.beginWrite.1 = 69998 := (RecordQueue.represents_ofCapacity made).beginWrite.1
  have begun : s.beginWrite = (69998, s.beginWrite.2) := Prod.ext budget rfl
  exact ⟨s, s.beginWrite.2, made, begun,
    head_of_long_text_stays (Text.byteLength_replicate 65530) made begun⟩

/-! ### Agreement -/

/-- What fits an encoder is told by an encoder that only counts. -/
theorem Cbor.Item.size_le_iff_counted {item : Item} {room : Nat}
    (machine : room ≤ Encoder.maxCapacity) :
    item.size ≤ room ↔ (Encoder.counting.put item).1 = .ok () ∧ sizeOf [item] ≤ room := by
  have outcome : (Encoder.counting.put item).1 = .ok () ↔ item.size ≤ Encoder.maxCapacity :=
    (Encoder.faithful_tally Encoder.maxCapacity).takes_iff rfl [] item
  rw [outcome]
  by_cases small : item.size ≤ Encoder.maxCapacity
  · have total : Cbor.totalSize [item] = item.size := Nat.add_zero _
    rw [Cbor.sizeOf_eq (by rw [total]; exact small), total]
    exact (and_iff_right small).symm
  · exact iff_of_false (by omega) fun counted => small counted.1

/-- An encoder takes an item behind others exactly if its encoding, counted for itself, fits into
what the accepted ones have left of the capacity. -/
def Cbor.Encoder.TakesWhatFits {σ : Type} [Cbor.Sink σ] (e : Encoder σ) : Prop :=
  ∀ before item, ((e.putEach before).2.put item).1 = .ok () ↔
    (Encoder.counting.put item).1 = .ok () ∧
      sizeOf [item] ≤ e.capacity - (encodeAll (e.accepted before)).length

theorem Cbor.Encoder.Faithful.takesWhatFits {σ : Type} [Cbor.Sink σ] {received : σ → Bytes → Prop}
    {capacity : Nat} (h : Encoder.Faithful received capacity) {sink : σ} (new : received sink [])
    (machine : capacity ≤ Encoder.maxCapacity) : (Encoder.ofSink sink capacity).TakesWhatFits := by
  intro before item
  rw [h.takes_iff new, h.accepted_eq new]
  exact Item.size_le_iff_counted (Nat.le_trans (Nat.sub_le _ _) machine)

/-- Encoders over different sinks do the same. One that counts counts what a buffer receives. One
that writes to a buffer takes what fits, and the buffer receives the encodings of what it takes. One
over a transaction, within its budget and the limit of a record, answers as one that writes to a
buffer does, and the record that is committed is what the buffer received. -/
theorem sinks_agree [Nonvolatile ν] (items : List Item) (buffer : Array UInt8) :
    (let counted := Encoder.counting.putEach items
     let written := (Encoder.ofSink buffer Encoder.maxCapacity).putEach items
     counted.1 = written.1 ∧ written.2.sink.size = buffer.size + counted.2.size) ∧
    (∀ capacity ≤ Encoder.maxCapacity,
      let e := Encoder.ofSink buffer capacity
      e.TakesWhatFits ∧
        (e.putEach items).2.sink = buffer ++ (encodeAll (e.accepted items)).toArray) ∧
    ∀ (s s' : RecordStore ν) (budget capacity : Nat), s.Reachable →
      s.beginWrite = (budget, s') → 0 < budget →
      capacity ≤ min budget (maxRecordSize - headerSize) →
        let e := Encoder.ofSink s' capacity
        let stored := e.putEach items
        let written := (Encoder.ofSink buffer capacity).putEach items
        stored.1 = written.1 ∧ stored.2.size = written.2.size ∧ e.TakesWhatFits ∧
          written.2.sink = buffer ++ (encodeAll (e.accepted items)).toArray ∧
          (stored.2.sink.finishWrite false).payloads =
            s.payloads ++ [encodeAll (e.accepted items)] := by
  have empty : buffer = buffer ++ ([] : Bytes).toArray := Array.append_empty.symm
  refine ⟨?counting, ?buffer, ?transaction⟩
  case counting =>
    have counts := Encoder.faithful_tally Encoder.maxCapacity
    have writes := Encoder.faithful_buffer buffer Encoder.maxCapacity
    obtain ⟨-, _, -, counted⟩ := counts.exists_received rfl items
    obtain ⟨-, _, rfl, written⟩ := writes.exists_received empty items
    refine ⟨(counts.steps_eq rfl items).trans (writes.steps_eq empty items).symm, ?_⟩
    rw [written, show Encoder.counting = Encoder.ofSink Tally.mk Encoder.maxCapacity from rfl,
      counted, Array.size_append]
    exact congrArg (buffer.size + ·) List.size_toArray
  case buffer =>
    intro capacity machine
    have writes := Encoder.faithful_buffer buffer capacity
    obtain ⟨-, _, rfl, written⟩ := writes.exists_received empty items
    refine ⟨writes.takesWhatFits empty machine, ?_⟩
    rw [written, writes.accepted_eq empty]
  case transaction =>
    intro s s' budget capacity reachable begun positive within e
    obtain ⟨q, h, opened, space⟩ := reachable.exists_begun begun positive
    have machine : capacity ≤ Encoder.maxCapacity :=
      Nat.le_trans (Nat.le_trans within (Nat.min_le_right _ _)) (by decide)
    have stores := RecordQueue.faithful_store space within
    have writes := Encoder.faithful_buffer buffer capacity
    obtain ⟨-, last, received, stored⟩ := stores.exists_received opened items
    obtain ⟨-, _, rfl, written⟩ := writes.exists_received empty items
    have accepted : e.accepted items = Encoder.fitting capacity 0 items :=
      stores.accepted_eq opened items
    have steps : (e.putEach items).1 = ((Encoder.ofSink buffer capacity).putEach items).1 :=
      (stores.steps_eq opened items).trans (writes.steps_eq empty items).symm
    have committed := (received.finishWrite false).payloads_eq
    refine ⟨steps, ?_, stores.takesWhatFits opened machine, ?_, ?_⟩
    · rw [stored, written]
    · rw [written, accepted]
    · rw [stored, accepted, h.payloads_eq, committed]
      exact RecordQueue.records_recorded _ _

/-- The text fits neither at first nor later, and the number of three bytes does not fit behind the
text of four; the record holds what fits between them. -/
theorem sinks_agree_over_24 :
    ∃ fresh : RecordStore Empty, RecordStore.ofCapacity 24 = .ok fresh ∧
      let s := (fresh.performAll [.writeRecord [1], .hasMore]).2
      let items : List Item := [.text "too long", .mapHead 1, .text "abc", .unsigned 1000, .null]
      let stored := (Encoder.ofSink s.beginWrite.2 6).putEach items
      s.beginWrite.1 = 19 ∧
        stored.1 = [(.error (.outOfSpace 9 6), 0), (.ok (), 1), (.ok (), 5),
          (.error (.outOfSpace 3 1), 5), (.ok (), 6)] ∧
        (stored.2.sink.finishWrite false).payloads =
          [[1], [0xA1, 0x63, 0x61, 0x62, 0x63, 0xF6]] := by
  refine ⟨_, rfl, ?_⟩
  intro s items
  have budget : s.beginWrite.1 = 19 := by decide +kernel
  have begun : s.beginWrite = (19, s.beginWrite.2) := Prod.ext budget rfl
  have reachable : s.Reachable := ⟨24, _, [.writeRecord [1], .hasMore], rfl, rfl⟩
  have payloads : s.payloads = [[1]] := by decide +kernel
  have answers : ((Encoder.ofSink (#[] : Array UInt8) 6).putEach items).1 =
      [(.error (.outOfSpace 9 6), 0), (.ok (), 1), (.ok (), 5), (.error (.outOfSpace 3 1), 5),
        (.ok (), 6)] := by decide +kernel
  have bytes : ((Encoder.ofSink (#[] : Array UInt8) 6).putEach items).2.sink =
      #[0xA1, 0x63, 0x61, 0x62, 0x63, 0xF6] := by decide +kernel
  generalize s.beginWrite.2 = s' at begun ⊢
  clear_value s
  obtain ⟨steps, -, -, sent, committed⟩ :=
    (sinks_agree items #[]).2.2 s s' 19 6 reachable begun (by decide) (by decide)
  rw [bytes, Array.empty_append] at sent
  have payload : [0xA1, 0x63, 0x61, 0x62, 0x63, 0xF6] =
      encodeAll ((Encoder.ofSink s' 6).accepted items) := congrArg Array.toList sent
  rw [payloads, ← payload] at committed
  exact ⟨budget, steps.trans answers, committed⟩

end DeviceTelemetry
