import DeviceTelemetry.Proofs.RecordQueue.Writing

/-!
# Reading from a store that represents a queue

Where a record starts is found by its place in the queue (`recordAt_span`): the headers lead from
one record to the next, and neither an open transaction nor the end of the unread bytes passes for
a record. From this follow the answers of the reading side.
-/

set_option autoImplicit false

namespace DeviceTelemetry.RecordQueue

open RecordStore (headerSize openMark maxRecordSize)

variable {ν : Type}

/-! ### Places of records -/

theorem span_succ (records : List Bytes) {n : Nat} {p : Bytes} (h : records[n]? = some p) :
    span records (n + 1) = span records n + (p.length + headerSize) := by
  rw [span, span, List.take_add_one, h, Option.toList_some, List.flatMap_append,
    List.length_append, List.flatMap_singleton, length_frame]

theorem flatten_take_succ (records : List Bytes) {n : Nat} {p : Bytes}
    (h : records[n]? = some p) :
    (records.take (n + 1)).flatten = (records.take n).flatten ++ p := by
  rw [List.take_add_one, h, Option.toList_some, List.flatten_append, List.flatten_singleton]

theorem drop_eq_cons (records : List Bytes) {n : Nat} {p : Bytes} (h : records[n]? = some p) :
    records.drop n = p :: records.drop (n + 1) := by
  obtain ⟨lt, rfl⟩ := List.getElem?_eq_some_iff.mp h
  exact List.drop_eq_getElem_cons lt

theorem drop_frame (p rest : Bytes) (offset : Nat) :
    (frame p ++ rest).drop (headerSize + offset) = (p ++ rest).drop offset := by
  rw [Nat.add_comm]
  rfl

theorem recordAt_cons (s : RecordStore ν) {offset : Nat} {lo hi : UInt8} {rest : Bytes}
    (left : s.ring.toList.drop offset = lo :: hi :: rest) :
    s.recordAt offset =
      if Bytes.toWord lo hi ≠ openMark ∧ headerSize ≤ Bytes.toWord lo hi ∧
          offset + Bytes.toWord lo hi ≤ s.ring.count then some (Bytes.toWord lo hi)
      else none := by
  have length := congrArg List.length left
  simp only [List.length_drop, Ring.length_toList, List.length_cons] at length
  have header : s.ring.read offset headerSize = .ok [lo, hi] := by
    have two : headerSize = 2 := rfl
    rw [Ring.read, if_pos (by omega), Ring.slice_eq _ _ _ (by omega), left]
    rfl
  rw [RecordStore.recordAt, header]

/-- No record starts where fewer bytes are left than a header takes. -/
theorem recordAt_end (s : RecordStore ν) {offset : Nat}
    (left : s.ring.count < offset + headerSize) : s.recordAt offset = none := by
  rw [RecordStore.recordAt, Ring.read, if_neg (by omega)]

/-- Every record takes at least one byte of the ring. -/
theorem length_le_image (records : List Bytes) (opened : Option Bytes) :
    records.length ≤ (imageOf records opened).length := by
  rw [imageOf, List.length_append]
  apply Nat.le_trans _ (Nat.le_add_right _ _)
  induction records with
  | nil => exact Nat.le_refl _
  | cons p ps ih =>
    simp only [List.length_cons, List.flatMap_cons, List.length_append, length_frame, headerSize]
    omega

theorem hasRecord_of_alone (s : RecordStore ν) {span payload : Nat} {lead : Bytes}
    (alone : s.handout = some ⟨1, span, payload, lead⟩) : s.hasRecord = (some payload, s) := by
  simp only [RecordStore.hasRecord]
  split
  · rename_i same
    cases alone.symm.trans same
    rfl
  · rename_i other
    exact absurd alone (other _ _ _)

/-- Anything else that is handed out gives way to the oldest record, if there is one. -/
theorem hasRecord_of_not_alone (s : RecordStore ν)
    (other : ∀ span payload lead, s.handout ≠ some ⟨1, span, payload, lead⟩) :
    (s.recordAt 0 = none → s.hasRecord = (none, s)) ∧
      ∀ size, s.recordAt 0 = some size →
        s.hasRecord = (some (size - headerSize),
          { s with handout := some (Handout.empty.push size) }) := by
  unfold RecordStore.hasRecord
  split
  · rename_i alone
    exact absurd alone (other _ _ _)
  · constructor
    · intro first
      rw [first]
    · intro size first
      rw [first]
      simp [Handout.empty, Handout.push]

theorem hasRecord_nil {q : RecordQueue ν} (queue : q.records = []) : q.hasRecord = (none, q) := by
  rw [RecordQueue.hasRecord, queue]

theorem hasRecord_cons {q : RecordQueue ν} {p : Bytes} {ps : List Bytes}
    (queue : q.records = p :: ps) :
    q.hasRecord = (some p.length, { q with handed := some 1 }) := by
  simp only [RecordQueue.hasRecord]
  split
  · rename_i empty
    cases queue.symm.trans empty
  · rename_i same
    cases queue.symm.trans same
    rfl

theorem hasRecord_handed (q : RecordQueue ν) (found : q.hasRecord.1.isSome = true) :
    q.hasRecord.2 = { q with handed := some 1 } := by
  by_cases empty : q.records = []
  · rw [hasRecord_nil empty] at found
    cases found
  · obtain ⟨p, ps, queue⟩ := List.exists_cons_of_ne_nil empty
    rw [hasRecord_cons queue]

namespace Represents

variable {s : RecordStore ν} {q : RecordQueue ν}

/-- The unread bytes from the record at place `n` on. -/
theorem drop_span (h : Represents s q) (n : Nat) :
    s.ring.toList.drop (span q.records n) = imageOf (q.records.drop n) q.opened := by
  rw [h.bytes, RecordQueue.image, imageOf_drop]

theorem span_succ_le (h : Represents s q) {n : Nat} {p : Bytes} (here : q.records[n]? = some p) :
    span q.records n + (p.length + headerSize) ≤ s.ring.count := by
  rw [h.count_eq, ← span_succ q.records here]
  exact span_le q.records q.opened (n + 1)

theorem read_payload (h : Represents s q) {n : Nat} {p : Bytes} (here : q.records[n]? = some p)
    {offset length : Nat} (inside : offset + length ≤ p.length) :
    s.ring.read (span q.records n + headerSize + offset) length =
      .ok ((p.drop offset).take length) := by
  have room := h.span_succ_le here
  rw [Ring.read, if_pos (by omega), Ring.slice_eq _ _ _ (by omega), Nat.add_assoc,
    ← List.drop_drop, h.drop_span, drop_eq_cons q.records here, imageOf, List.flatMap_cons,
    List.append_assoc, drop_frame, List.drop_append_of_le_length (by omega),
    List.take_append_of_le_length (by rw [List.length_drop]; omega)]

/-- The header of the record at place `n` holds its size; behind the last record no record
starts. -/
theorem recordAt_span (h : Represents s q) {n : Nat} (place : n ≤ q.records.length) :
    s.recordAt (span q.records n) = (q.records[n]?).map fun p => p.length + headerSize := by
  have rest := h.drop_span n
  have below := span_le q.records q.opened n
  rw [← RecordQueue.image, ← h.count_eq] at below
  cases here : q.records[n]? with
  | some p =>
    have small := h.fits p (List.mem_append_left _ (List.mem_of_getElem? here))
    have room := h.span_succ_le here
    have header : Bytes.toWord (UInt8.ofNat (p.length + headerSize))
        (UInt8.ofNat ((p.length + headerSize) / 256)) = p.length + headerSize := by
      simp only [maxRecordSize, openMark] at small
      exact Bytes.toWord_ofNat (by omega)
    have finished : p.length + headerSize ≠ openMark := by
      simp only [maxRecordSize] at small
      have : 0 < openMark := by decide
      omega
    rw [drop_eq_cons q.records here] at rest
    rw [recordAt_cons s rest, header, if_pos ⟨finished, by omega, room⟩]
    rfl
  | none =>
    have last : n = q.records.length := by
      have := List.getElem?_eq_none_iff.mp here
      omega
    have behind : q.records.drop n = [] := List.drop_eq_nil_of_le (by omega)
    rw [behind] at rest
    cases underway : q.opened with
    | none =>
      rw [underway] at rest
      have beyond := congrArg List.length rest
      rw [List.length_drop, Ring.length_toList] at beyond
      have nothing : (imageOf [] none).length = 0 := rfl
      have two : headerSize = 2 := rfl
      exact recordAt_end s (by omega)
    | some p =>
      rw [underway] at rest
      have mark : Bytes.toWord (UInt8.ofNat openMark) (UInt8.ofNat (openMark / 256)) =
          openMark := by decide
      rw [recordAt_cons s rest, mark, if_neg (by simp)]
      rfl

/-! ### Single records -/

theorem handed_of_nil (h : Represents s q) (empty : q.records = []) : q.handed = none := by
  cases held : q.handed with
  | none => rfl
  | some n =>
    have := h.handed n (by rw [held]; rfl)
    rw [empty, List.length_nil] at this
    omega

theorem not_alone (h : Represents s q) (more : q.handed ≠ some 1) (span payload : Nat)
    (lead : Bytes) : s.handout ≠ some ⟨1, span, payload, lead⟩ := by
  intro single
  rw [h.handout] at single
  obtain ⟨n, held, same⟩ := Option.map_eq_some_iff.mp single
  have one : n = 1 := congrArg Handout.records same
  exact more (one ▸ held)

theorem hasRecord (h : Represents s q) : Agrees s.hasRecord q.hasRecord := by
  have first := h.recordAt_span (n := 0) (Nat.zero_le _)
  have handout := h.handout
  cases queue : q.records with
  | nil =>
    rw [queue] at first
    rw [h.handed_of_nil queue] at handout
    rw [(hasRecord_of_not_alone s (by rw [handout]; simp)).1 first, hasRecord_nil queue]
    exact ⟨rfl, h⟩
  | cons p ps =>
    rw [queue] at first
    rw [hasRecord_cons queue]
    by_cases alone : q.handed = some 1
    · have same : { q with handed := some 1 } = q := by rw [← alone]
      rw [alone, queue] at handout
      rw [hasRecord_of_alone s handout, same]
      exact ⟨by simp, h⟩
    · rw [(hasRecord_of_not_alone s (h.not_alone alone)).2 _ first]
      refine ⟨by simp, { h with handout := ?_, handed := ?_ }⟩
      · rw [queue]
        simp [handoutOf, Handout.empty, Handout.push, span, leadOf]
      · intro n member
        have one : n = 1 := by simpa using member.symm
        simp only [queue, List.length_cons]
        omega

end Represents

/-! ### Batches -/

/-- A batch of `n` records before its lead is known. -/
def gathered (records : List Bytes) (n : Nat) : Handout :=
  { handoutOf records n with lead := [] }

theorem push_gathered (records : List Bytes) {n : Nat} {p : Bytes} (here : records[n]? = some p) :
    (gathered records n).push (p.length + headerSize) = gathered records (n + 1) := by
  simp only [gathered, handoutOf, Handout.push, span_succ records here,
    flatten_take_succ records here, List.length_append, Nat.add_sub_cancel]

theorem withLead_gathered (records : List Bytes) (n : Nat) :
    (gathered records n).withLead = handoutOf records n := by
  simp only [Handout.withLead]
  by_cases more : (gathered records n).records > 1
  · have lead : leadOf n = Cbor.arrayHead n := if_pos more
    rw [if_pos more, handoutOf, lead]
    rfl
  · have lead : leadOf n = [] := if_neg more
    rw [if_neg more, handoutOf, lead, gathered]
    rfl

theorem size_handoutOf (records : List Bytes) (n : Nat) :
    (handoutOf records n).size = (batchText records n).length := by
  simp only [Handout.size, handoutOf, batchText, List.length_append]

theorem hasBatch_handed (q : RecordQueue ν) (limit : Nat)
    (found : (q.hasBatch limit).1.isSome = true) :
    ∃ k, (q.hasBatch limit).2 = { q with handed := some k } := by
  cases held : q.handed with
  | some n =>
      have same : { q with handed := some n } = q := by rw [← held]
      refine ⟨n, ?_⟩
      rw [same, hasBatch, held]
  | none =>
      simp only [hasBatch] at found ⊢
      rw [held] at found ⊢
      dsimp only at found ⊢
      cases count : batchCount limit q.records with
      | zero =>
          rw [count] at found
          cases found
      | succ n => exact ⟨n + 1, rfl⟩

theorem furtherCount_le (limit total : Nat) (records : List Bytes) :
    furtherCount limit total records ≤ records.length := by
  induction records generalizing total with
  | nil => exact Nat.le_refl _
  | cons p ps ih =>
    rw [furtherCount]
    split
    · exact Nat.succ_le_succ (ih _)
    · exact Nat.zero_le _

theorem batchCount_le (limit : Nat) (records : List Bytes) :
    batchCount limit records ≤ records.length := by
  cases records with
  | nil => exact Nat.le_refl _
  | cons p ps => exact Nat.succ_le_succ (furtherCount_le limit _ ps)

namespace Represents

variable {s : RecordStore ν} {q : RecordQueue ν}

/-- A batch that has a record grows as long as the payloads stay within the limit. -/
theorem extend_gathered (h : Represents s q) (limit : Nat) {n : Nat} (pos : 0 < n)
    (place : n ≤ q.records.length) {count : Nat} (enough : q.records.length ≤ n + count) :
    s.extend limit (gathered q.records n) count =
      gathered q.records
        (n + furtherCount limit (q.records.take n).flatten.length (q.records.drop n)) := by
  induction count generalizing n with
  | zero =>
    have behind : q.records.drop n = [] := List.drop_eq_nil_of_le (by omega)
    rw [RecordStore.extend, behind, furtherCount, Nat.add_zero]
  | succ count ih =>
    have next : s.recordAt (gathered q.records n).span = _ := h.recordAt_span place
    rw [RecordStore.extend, next]
    cases here : q.records[n]? with
    | none =>
      have behind : q.records.drop n = [] :=
        List.drop_eq_nil_of_le (List.getElem?_eq_none_iff.mp here)
      rw [behind, furtherCount, Nat.add_zero]
      rfl
    | some p =>
      obtain ⟨lt, -⟩ := List.getElem?_eq_some_iff.mp here
      rw [drop_eq_cons q.records here, furtherCount]
      simp only [Option.map_some, Nat.add_sub_cancel]
      by_cases within : (q.records.take n).flatten.length + p.length ≤ limit
      · rw [if_pos within, if_neg (by simp only [gathered, handoutOf]; omega),
          push_gathered q.records here, ih (n := n + 1) (Nat.succ_pos n) lt (by omega),
          flatten_take_succ q.records here, List.length_append]
        congr 1
        omega
      · rw [if_neg within, if_pos (by simp only [gathered, handoutOf]; omega), Nat.add_zero]

/-- The records that are looked at suffice for the whole batch. -/
theorem extend_empty (h : Represents s q) (limit : Nat) {count : Nat}
    (enough : q.records.length ≤ count) :
    s.extend limit .empty count = gathered q.records (batchCount limit q.records) := by
  have first := h.recordAt_span (n := 0) (Nat.zero_le _)
  cases count with
  | zero =>
    have nothing : q.records = [] := List.eq_nil_of_length_eq_zero (by omega)
    rw [nothing]
    rfl
  | succ count =>
    have start : s.recordAt Handout.empty.span = _ := first
    rw [RecordStore.extend, start]
    cases queue : q.records with
    | nil => rfl
    | cons p ps =>
      have here : q.records[0]? = some p := by rw [queue]; rfl
      have one : Handout.empty.push (p.length + headerSize) = gathered q.records 1 :=
        push_gathered q.records here
      have rest : s.extend limit (gathered q.records 1) count = _ :=
        h.extend_gathered limit Nat.one_pos (by rw [queue]; simp) (by omega)
      simp only [List.getElem?_cons_zero, Option.map_some]
      rw [if_neg (by simp [Handout.empty]), one, rest, queue, batchCount]
      simp [Nat.add_comm]

theorem hasBatch (h : Represents s q) (limit : Nat) :
    Agrees (s.hasBatch limit) (q.hasBatch limit) := by
  have handout := h.handout
  have enough : q.records.length ≤ s.ring.count := by
    rw [h.count_eq]
    exact length_le_image q.records q.opened
  simp only [RecordStore.hasBatch, RecordQueue.hasBatch]
  cases held : q.handed with
  | some n =>
    rw [held] at handout
    rw [handout]
    exact ⟨congrArg some (size_handoutOf q.records n), h⟩
  | none =>
    rw [held] at handout
    rw [handout]
    simp only [Option.map_none]
    rw [h.extend_empty limit enough]
    have upper := batchCount_le limit q.records
    cases total : batchCount limit q.records with
    | zero => exact ⟨rfl, h⟩
    | succ n =>
      rw [total] at upper
      rw [if_neg (by simp [gathered, handoutOf]), withLead_gathered]
      refine ⟨congrArg some (size_handoutOf q.records (n + 1)), { h with
        handout := rfl, handed := ?_ }⟩
      intro m member
      have same : m = n + 1 := by simpa using member.symm
      subst same
      exact ⟨Nat.succ_pos n, upper⟩

/-! ### Reading ranges -/

/-- The payloads of consecutive records are read as one text. -/
theorem gather_eq (h : Represents s q) (n count offset length : Nat)
    (place : n + count ≤ q.records.length)
    (inside : offset + length ≤ ((q.records.drop n).take count).flatten.length) :
    s.gather (span q.records n) offset length count =
      some ((((q.records.drop n).take count).flatten.drop offset).take length) := by
  induction count generalizing n offset length with
  | zero =>
    simp only [List.take_zero, List.flatten_nil, List.length_nil] at inside ⊢
    rw [RecordStore.gather, if_pos (by omega)]
    simp
  | succ count ih =>
    rw [RecordStore.gather]
    by_cases nothing : length = 0
    · rw [if_pos nothing, nothing, List.take_zero]
    · rw [if_neg nothing, h.recordAt_span (by omega)]
      have here : q.records[n]? = some q.records[n] := List.getElem?_eq_getElem (by omega)
      generalize q.records[n] = p at here
      rw [drop_eq_cons q.records here] at inside ⊢
      rw [here]
      simp only [List.take_succ_cons, List.flatten_cons, List.length_append, Option.map_some,
        Nat.add_sub_cancel] at inside ⊢
      rw [← span_succ q.records here]
      by_cases past : p.length ≤ offset
      · rw [if_pos past, ih _ _ _ (by omega) (by omega), List.drop_append,
          List.drop_eq_nil_of_le past, List.nil_append]
      · rw [if_neg past, h.read_payload here (by omega), ih _ _ _ (by omega) (by omega)]
        simp only [Option.map_some, List.drop_zero]
        rw [List.drop_append_of_le_length (by omega), List.take_append, List.length_drop]
        congr 2
        · rw [List.take_eq_take_iff, List.length_drop]
          omega
        · congr 1
          omega

theorem readRecord (h : Represents s q) (offset length : Nat) :
    s.readRecord offset length = q.readRecord offset length := by
  have handout := h.handout
  simp only [RecordStore.readRecord, RecordQueue.readRecord]
  cases held : q.handed with
  | none =>
    rw [held] at handout
    rw [handout]
    rfl
  | some n =>
    rw [held] at handout
    rw [handout]
    have inside := (h.handed n (by rw [held]; rfl)).2
    simp only [Option.map_some]
    rw [size_handoutOf]
    split
    · rename_i room
      simp only [batchText, List.length_append] at room
      have lead : (handoutOf q.records n).lead = leadOf n := rfl
      have count : (handoutOf q.records n).records = n := rfl
      have range := h.gather_eq 0 n (offset - (leadOf n).length)
        (length - (((leadOf n).drop offset).take length).length) (by omega)
        (by simp only [List.drop_zero, List.length_take, List.length_drop]; omega)
      rw [show span q.records 0 = 0 from rfl, List.drop_zero] at range
      rw [lead, count, range, Option.map_some, batchText, List.drop_append, List.take_append]
      congr 3
      simp only [List.length_take, List.length_drop]
      omega
    · rfl

/-! ### Runs of cells -/

theorem slice_payload (h : Represents s q) {p : Bytes} (first : q.records[0]? = some p)
    {offset length : Nat} (inside : offset + length ≤ p.length) :
    s.ring.slice (headerSize + offset) length = (p.drop offset).take length := by
  have room := h.span_succ_le first
  have read := h.read_payload first inside
  rw [show span q.records 0 = 0 from rfl, Nat.zero_add] at read room
  rw [Ring.read, if_pos (by omega)] at read
  exact Except.ok.inj read

theorem run?_payload (h : Represents s q) {p : Bytes} (first : q.records[0]? = some p)
    (offset : Nat) (inside : offset ≤ p.length) :
    ∃ run, s.ring.run? (headerSize + offset) = some run ∧
      run.length = min (s.ring.count - (headerSize + offset))
        (q.capacity - (q.start + (headerSize + offset)) % q.capacity) ∧
      ∀ length, offset + length ≤ p.length → length ≤ run.length →
        run.take length = (p.drop offset).take length := by
  have room := h.span_succ_le first
  rw [show span q.records 0 = 0 from rfl, Nat.zero_add] at room
  have size : s.ring.cells.size = q.capacity := h.capacity
  refine ⟨_, by rw [Ring.run?, if_pos (by omega)], ?_, ?_⟩
  · rw [Ring.length_slice, Ring.runLength, size, h.start]
  · intro length within short
    rw [Ring.length_slice] at short
    rw [← h.slice_payload first within]
    apply List.ext_getElem
    · rw [List.length_take, Ring.length_slice, Ring.length_slice]
      omega
    · intro i _ _
      rw [List.getElem_take, Ring.getElem_slice, Ring.getElem_slice]

theorem add_room_mod (x : Nat) {capacity : Nat} (pos : 0 < capacity) :
    (x + (capacity - x % capacity)) % capacity = 0 := by
  have below := Nat.mod_lt x pos
  have parts := Nat.div_add_mod x capacity
  have whole : x + (capacity - x % capacity) = capacity * (x / capacity + 1) := by
    rw [Nat.mul_add, Nat.mul_one]
    omega
  rw [whole, Nat.mul_mod_right]

theorem recordSlices_of_not_alone (h : Represents s q) (many : q.handed ≠ some 1) :
    s.recordSlices = q.recordSlices := by
  have left : s.recordSlices = none := by
    simp only [RecordStore.recordSlices]
    split
    · rename_i single
      exact absurd single (h.not_alone many _ _ _)
    · rfl
  have right : q.recordSlices = none := by
    simp only [RecordQueue.recordSlices]
    split
    · rename_i single _
      exact absurd single many
    · rfl
  rw [left, right]

theorem recordSlices_of_alone (h : Represents s q) (alone : q.handed = some 1) :
    s.recordSlices = q.recordSlices := by
  have handout := h.handout
  rw [alone] at handout
  have inside := (h.handed 1 alone).2
  obtain ⟨p, ps, queue⟩ := List.exists_cons_of_length_pos inside
  have first : q.records[0]? = some p := by rw [queue]; rfl
  have room := h.span_succ_le first
  rw [show span q.records 0 = 0 from rfl, Nat.zero_add] at room
  have bound := s.ring.count_le
  have size : s.ring.cells.size = q.capacity := h.capacity
  obtain ⟨front, isFront, frontLength, frontTake⟩ := h.run?_payload first 0 (Nat.zero_le _)
  rw [Nat.add_zero] at isFront frontLength
  have cut : q.recordSlices =
      some (p.take (q.capacity - (q.start + headerSize) % q.capacity),
        p.drop (q.capacity - (q.start + headerSize) % q.capacity)) := by
    simp only [RecordQueue.recordSlices, alone, queue]
  have payload : (q.records.take 1).flatten.length = p.length := by rw [queue]; simp
  have around := add_room_mod (q.start + headerSize) (Nat.zero_lt_of_lt h.start_lt)
  rw [cut]
  generalize q.capacity - (q.start + headerSize) % q.capacity = k at frontLength around
  simp only [RecordStore.recordSlices, handout, Option.map_some, handoutOf, isFront, payload]
  by_cases whole : p.length ≤ front.length
  · rw [if_pos whole, frontTake _ (by omega) whole, List.drop_zero, List.take_length,
      List.take_of_length_le (by omega), List.drop_eq_nil_of_le (by omega)]
  · -- the payload goes on in cell zero
    have frontIs : front.length = k := by omega
    obtain ⟨back, isBack, backLength, backTake⟩ := h.run?_payload first k (by omega)
    rw [if_neg whole, frontIs, isBack]
    dsimp only
    rw [← Nat.add_assoc, around] at backLength
    rw [backTake _ (by omega) (by omega)]
    have frontBytes := frontTake k (by omega) (by omega)
    rw [List.take_of_length_le (by omega), List.drop_zero] at frontBytes
    have rest : (p.drop k).take (p.length - k) = p.drop k :=
      List.take_of_length_le (by rw [List.length_drop])
    rw [rest, frontBytes]

theorem recordSlices (h : Represents s q) : s.recordSlices = q.recordSlices := by
  by_cases alone : q.handed = some 1
  · exact h.recordSlices_of_alone alone
  · exact h.recordSlices_of_not_alone alone

/-! ### Dropping what was handed out -/

theorem dropOldest (h : Represents s q) {n : Nat} :
    Represents { s with ring := s.ring.dropFront (span q.records n), handout := none }
      (q.dropOldest n) := by
  have size : s.ring.cells.size = q.capacity := h.capacity
  refine { h with bytes := ?_, start := ?_, handout := rfl, fits := ?_, handed := ?_ }
  · rw [Ring.toList_dropFront, h.drop_span]
    rfl
  · simp only [Ring.dropFront, RecordQueue.dropOldest, size, h.start]
  · intro p member
    rcases List.mem_append.mp member with old | new
    · exact h.fits p (List.mem_append_left _ (List.mem_of_mem_drop old))
    · exact h.fits p (List.mem_append_right _ new)
  · intro n member
    cases member

theorem markRecordRead (h : Represents s q) :
    Represents s.markRecordRead q.markRecordRead := by
  have handout := h.handout
  simp only [RecordStore.markRecordRead, RecordQueue.markRecordRead]
  cases held : q.handed with
  | none =>
    rw [held] at handout
    rw [handout]
    exact h
  | some n =>
    rw [held] at handout
    have inside : span q.records n ≤ s.ring.count := by
      rw [h.count_eq]
      exact span_le q.records q.opened n
    have dropped : s.ring.consume (span q.records n) =
        .ok (s.ring.dropFront (span q.records n)) := by
      rw [Ring.consume, if_pos inside]
    rw [handout]
    simp only [Option.map_some, handoutOf, dropped]
    exact h.dropOldest

end Represents

end DeviceTelemetry.RecordQueue
