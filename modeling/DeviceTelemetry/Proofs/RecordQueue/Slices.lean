import DeviceTelemetry.Proofs.RecordQueue.Window
import DeviceTelemetry.Proofs.StrictRing

/-!
# A record as slices of the storage

A record that is handed out alone can be looked at where it lies: as two runs of consecutive cells,
of which the second begins at the first cell and is empty unless the payload goes around the end.
`recordSlices_agree_with_read` says that these are the bytes that a read copies.
-/

set_option autoImplicit false

namespace DeviceTelemetry

open RecordStore (headerSize)

variable {ν : Type}

namespace RecordStore

def payloadCell (s : RecordStore ν) : Nat := (s.ring.start + headerSize) % s.capacity

/-- Some byte behind the first one of a payload of this length lies in the first cell. -/
def GoesAround (s : RecordStore ν) (length : Nat) : Prop :=
  ∃ i, 0 < i ∧ i < length ∧ (s.ring.start + headerSize + i) % s.capacity = 0

theorem payloadCell_lt (s : RecordStore ν) : s.payloadCell < s.capacity := by
  apply Nat.mod_lt
  exact s.ring.size_cells_pos

theorem goesAround_iff (s : RecordStore ν) (length : Nat) :
    s.GoesAround length ↔ s.capacity < s.payloadCell + length := by
  have inside := s.payloadCell_lt
  have cell (i : Nat) : (s.ring.start + headerSize + i) % s.capacity =
      (s.payloadCell + i) % s.capacity := by
    rw [payloadCell, Nat.mod_add_mod]
  constructor
  · rintro ⟨i, pos, short, first⟩
    by_contra within
    rw [cell, Nat.mod_eq_of_lt (by omega)] at first
    omega
  · intro beyond
    refine ⟨s.capacity - s.payloadCell, by omega, by omega, ?_⟩
    rw [cell, Nat.add_sub_cancel' (Nat.le_of_lt inside), Nat.mod_self]

end RecordStore

namespace RecordQueue.Represents

variable {s : RecordStore ν} {q : RecordQueue ν}

theorem recordSlices_isSome_iff (h : Represents s q) :
    s.recordSlices.isSome = true ↔ q.handed = some 1 := by
  rw [h.recordSlices, RecordQueue.recordSlices]
  constructor
  · intro found
    split at found
    · assumption
    · cases found
  · intro alone
    obtain ⟨-, positive⟩ := h.handed 1 alone
    obtain ⟨p, ps, queue⟩ := List.exists_cons_of_length_pos positive
    simp [alone, queue]

/-- The record that the slices show is the oldest one, cut where the cells end. -/
theorem exists_of_recordSlices (h : Represents s q) {first second : Bytes}
    (found : s.recordSlices = some (first, second)) :
    ∃ p ps, q.records = p :: ps ∧ q.handed = some 1 ∧
      first = p.take (s.capacity - s.payloadCell) ∧
        second = p.drop (s.capacity - s.payloadCell) := by
  have alone : q.handed = some 1 := h.recordSlices_isSome_iff.mp (by rw [found]; rfl)
  obtain ⟨-, positive⟩ := h.handed 1 alone
  obtain ⟨p, ps, queue⟩ := List.exists_cons_of_length_pos positive
  have capacity : q.capacity = s.capacity := h.capacity.symm
  rw [h.recordSlices] at found
  simp only [RecordQueue.recordSlices, alone, queue, Option.some.injEq, Prod.mk.injEq] at found
  rw [capacity, ← h.start] at found
  exact ⟨p, ps, queue, alone, found.1.symm, found.2.symm⟩

/-- The first slice ends at the last cell at the latest, and the second begins at the first. -/
theorem slices_in_cells (h : Represents s q) {p : Bytes} {ps : List Bytes}
    (queue : q.records = p :: ps) :
    ∃ n, p.take (s.capacity - s.payloadCell) =
        (s.ring.cells.toList.drop s.payloadCell).take n ∧
      p.drop (s.capacity - s.payloadCell) = s.ring.cells.toList.take (p.length - n) := by
  have oldest : q.records[0]? = some p := by rw [queue]; rfl
  have stored := h.span_succ_le oldest
  rw [show span q.records 0 = 0 from rfl, Nat.zero_add] at stored
  have within : p.length ≤ s.ring.cells.size := by
    have := s.ring.count_le
    omega
  have payload : s.ring.slice headerSize p.length = p := by
    have all : 0 + p.length ≤ p.length := by omega
    have read := h.read_payload oldest all
    rw [show span q.records 0 = 0 from rfl, Nat.zero_add, Nat.add_zero, List.drop_zero,
      List.take_length, Ring.read, if_pos (by omega)] at read
    exact Except.ok.inj read
  obtain ⟨n, isFirst, short, room, around⟩ := Strict.exists_first p.length s.payloadCell_lt
  have parts := s.ring.slice_around headerSize short within room around
  rw [payload] at parts
  have cut := (List.take_append_drop (s.capacity - s.payloadCell) p).trans parts
  have capacity : s.capacity = s.ring.cells.size := rfl
  have left : (s.ring.cells.toList.drop s.payloadCell).length =
      s.ring.cells.size - s.payloadCell := by
    simp
  refine ⟨n, List.append_inj cut ?_⟩
  rw [List.length_take, List.length_take, left, capacity, ← isFirst]
  omega

end RecordQueue.Represents

/-! ### Reachable stores -/

variable [Nonvolatile ν]

/-- The slices of a reachable store are there if and only if one record is handed out. Whatever
lies behind that record, they are its payload: the one that a read of the whole copies, and that
of the oldest record. They lie in the cells, the first from the payload's first cell on and the
second from the first cell of all on; the second is empty unless the payload goes around. -/
theorem recordSlices_agree_with_read {s : RecordStore ν} (reachable : s.Reachable) :
    (s.recordSlices.isSome = true ↔ ∃ handout, s.handout = some handout ∧ handout.records = 1) ∧
    ∀ first second, s.recordSlices = some (first, second) →
      ∃ p, s.payloads.head? = some p ∧ s.hasRecord = (some p.length, s) ∧
        first ++ second = p ∧ s.readRecord 0 p.length = some p ∧
        (second ≠ [] ↔ s.GoesAround p.length) ∧
        first = (s.ring.cells.toList.drop s.payloadCell).take first.length ∧
        second = s.ring.cells.toList.take second.length := by
  obtain ⟨q, h⟩ := reachable.exists_represents
  constructor
  · rw [h.recordSlices_isSome_iff, h.handout]
    cases q.handed with
    | none => simp
    | some n => simp [RecordQueue.handoutOf]
  · intro first second found
    obtain ⟨p, ps, queue, alone, rfl, rfl⟩ := h.exists_of_recordSlices found
    obtain ⟨n, before, behind⟩ := h.slices_in_cells queue
    have handout := h.handout
    rw [alone, queue] at handout
    have text : s.handedText = some p := by
      rw [h.handedText_eq, alone, queue]
      simp [RecordQueue.batchText, RecordQueue.leadOf]
    refine ⟨p, by rw [h.payloads_eq, queue]; rfl, ?_, List.take_append_drop _ _, ?_, ?_, ?_, ?_⟩
    · simpa using RecordQueue.hasRecord_of_alone s handout
    · rw [h.readRecord_eq_some_iff]
      exact ⟨p, text, by simp, by simp⟩
    · have inside := s.payloadCell_lt
      rw [s.goesAround_iff, ne_eq, List.drop_eq_nil_iff]
      omega
    · rw [before]
      simp
    · rw [behind]
      simp

/-- Two records in sixteen cells, each with a record and an open transaction behind it. The payload
of the first goes around the end of the cells, and only the header of the second does. -/
theorem recordSlices_agree_with_read_around :
    ∃ fresh : RecordStore Empty, RecordStore.ofCapacity 16 = .ok fresh ∧
      let s := (fresh.performAll [.writeRecord [1, 2, 3, 4, 5, 6], .hasMore, .markRead,
        .writeRecord [1, 2, 3, 4, 5, 6, 7], .writeRecord [8], .beginWrite, .append [9],
        .hasMore]).2
      let t := (fresh.performAll [.writeRecord [1, 2, 3, 4, 5, 6, 7, 8, 9, 10, 11, 12, 13],
        .hasMore, .markRead, .writeRecord [1, 2, 3], .writeRecord [8], .beginWrite, .append [9],
        .hasMore]).2
      (s.recordSlices = some ([1, 2, 3, 4, 5, 6], [7]) ∧
        s.readRecord 0 7 = some [1, 2, 3, 4, 5, 6, 7] ∧ s.GoesAround 7) ∧
      t.recordSlices = some ([1, 2, 3], []) ∧ t.readRecord 0 3 = some [1, 2, 3] ∧
        ¬ t.GoesAround 3 := by
  refine ⟨_, rfl, ?_⟩
  intro s t
  have cut : s.recordSlices = some ([1, 2, 3, 4, 5, 6], [7]) := by decide +kernel
  have whole : t.recordSlices = some ([1, 2, 3], []) := by decide +kernel
  obtain ⟨p, -, -, rfl, read, around, -⟩ :=
    (recordSlices_agree_with_read (s := s) ⟨16, _, _, rfl, rfl⟩).2 _ _ cut
  obtain ⟨p, -, -, rfl, read', around', -⟩ :=
    (recordSlices_agree_with_read (s := t) ⟨16, _, _, rfl, rfl⟩).2 _ _ whole
  exact ⟨⟨cut, read, around.mp (by simp)⟩, whole, read', fun inside => around'.mpr inside rfl⟩

end DeviceTelemetry
