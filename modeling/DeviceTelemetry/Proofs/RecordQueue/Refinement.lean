import DeviceTelemetry.Proofs.RecordQueue.Reading

/-!
# A record store is a queue of records

Draining, moving records into a non-volatile store, and whole histories: a store that represents a
queue answers every operation as the queue does, and represents the queue that the operation
leaves (`Represents.perform`). So a store is told apart from a queue by no history of operations
(`Represents.performAll`).

For the store that a ring is made for, `performAll_refines_queue` says this from the start.
-/

set_option autoImplicit false

namespace DeviceTelemetry.RecordQueue

open RecordStore (headerSize openMark maxRecordSize Operation Answer Round)

variable {ν : Type}

/-! ### Dropping in portions -/

theorem span_add (records : List Bytes) (m n : Nat) :
    span records (m + n) = span records m + span (records.drop m) n := by
  rw [span, span, span, List.take_add, List.flatMap_append, List.length_append]

theorem dropOldest_add (q : RecordQueue ν) (m n : Nat) :
    (q.dropOldest m).dropOldest n = q.dropOldest (m + n) := by
  simp only [dropOldest, List.drop_drop, span_add, Nat.mod_add_mod, Nat.add_assoc]

theorem dropOldest_zero {q : RecordQueue ν} (start : q.start < q.capacity) :
    q.dropOldest 0 = { q with handed := none } := by
  simp only [dropOldest, span, List.take_zero, List.flatMap_nil, List.length_nil, Nat.add_zero,
    List.drop_zero, Nat.mod_eq_of_lt start]

theorem moveOldest_zero_nil {q : RecordQueue ν} (b : ν) (queue : q.records = [])
    (idle : q.handed = none) (start : q.start < q.capacity) :
    q.moveOldest b 0 = { q with backing := some b } := by
  have same : { q with backing := some b, handed := none } = { q with backing := some b } := by
    rw [← idle]
  have unmoved : { q with backing := some b }.dropOldest 0 =
      { q with backing := some b, handed := none } := dropOldest_zero start
  rw [moveOldest, unmoved, same, hasRecord_nil (by exact queue)]

theorem moveOldest_zero_cons {q : RecordQueue ν} (b : ν) {p : Bytes} {ps : List Bytes}
    (queue : q.records = p :: ps) (start : q.start < q.capacity) :
    q.moveOldest b 0 = { q with backing := some b, handed := some 1 } := by
  have unmoved : { q with backing := some b }.dropOldest 0 =
      { q with backing := some b, handed := none } := dropOldest_zero start
  rw [moveOldest, unmoved, hasRecord_cons (by exact queue)]

theorem moveOldest_succ (q : RecordQueue ν) (b : ν) (n : Nat) :
    q.moveOldest b (n + 1) = (q.dropOldest 1).moveOldest b n := by
  have order := dropOldest_add { q with backing := some b } 1 n
  rw [Nat.add_comm 1 n] at order
  rw [moveOldest, ← order]
  rfl

namespace Represents

variable {s : RecordStore ν} {q : RecordQueue ν}

theorem clearHandout (h : Represents s q) :
    Represents { s with handout := none } { q with handed := none } :=
  { h with handout := rfl, handed := by intro n member; cases member }

theorem payloadSource (h : Represents s q) {p : Bytes} {ps : List Bytes}
    (queue : q.records = p :: ps) : s.payloadSource p.length = window p := by
  have first : q.records[0]? = some p := by rw [queue]; rfl
  funext offset length
  simp only [RecordStore.payloadSource, window]
  by_cases inside : offset + length ≤ p.length
  · have read := h.read_payload first inside
    rw [show span q.records 0 = 0 from rfl, Nat.zero_add] at read
    rw [if_pos inside, if_pos inside, read]
    rfl
  · rw [if_neg inside, if_neg inside]

end Represents

/-! ### The non-volatile store -/

variable [Nonvolatile ν]

theorem spill_nil (b : ν) {records : List Bytes} (empty : records = []) :
    spill b records = (0, b) := by
  rw [empty, spill]

theorem spill_refused {b b' : ν} {p : Bytes}
    (refused : Nonvolatile.write b p.length (window p) = (false, b')) (ps : List Bytes) :
    spill b (p :: ps) = (0, b') := by
  rw [spill, refused]

theorem spill_taken {b b' : ν} {p : Bytes}
    (taken : Nonvolatile.write b p.length (window p) = (true, b')) (ps : List Bytes) :
    spill b (p :: ps) = ((spill b' ps).1 + 1, (spill b' ps).2) := by
  rw [spill, taken]

namespace Represents

variable {s : RecordStore ν} {q : RecordQueue ν}

theorem pollBacking (h : Represents s q) : Agrees s.pollBacking q.pollBacking := by
  cases s with
  | mk ring opened handout limit backing seen observed reports =>
    cases q with
    | mk capacity start records opened' handed limit' backing' seen' observed' reports' =>
      obtain rfl : backing = backing' := h.backing
      obtain rfl : seen = seen' := h.backingSeen
      cases backing with
      | none =>
        cases seen with
        | false => exact ⟨rfl, h⟩
        | true => exact ⟨rfl, { h.clearHandout with backingSeen := rfl }⟩
      | some b =>
        simp only [RecordStore.pollBacking, RecordQueue.pollBacking]
        generalize Nonvolatile.poll b = answer
        obtain ⟨usable, b⟩ := answer
        cases usable with
        | true => exact ⟨rfl, { h.setBacking b with backingSeen := rfl }⟩
        | false =>
          cases seen with
          | false => exact ⟨rfl, { h.setBacking b with backingSeen := rfl }⟩
          | true => exact ⟨rfl, { (h.setBacking b).clearHandout with backingSeen := rfl }⟩

theorem hasMore (h : Represents s q) : Agrees s.hasMore q.hasMore := by
  obtain ⟨same, polled⟩ := h.pollBacking
  simp only [RecordStore.hasMore, RecordQueue.hasMore]
  generalize s.pollBacking = x at same polled
  generalize q.pollBacking = y at same polled
  obtain ⟨usable, s⟩ := x
  obtain ⟨usable', q⟩ := y
  dsimp only at same polled
  subst same
  cases usable with
  | some b => exact ⟨rfl, polled.setBacking _⟩
  | none =>
    have handout := polled.handout
    dsimp only
    rw [polled.batchLimit]
    cases q.batchLimit with
    | some limit => exact polled.hasBatch limit
    | none =>
      cases held : q.handed with
      | none =>
        rw [held] at handout
        rw [handout]
        exact polled.hasRecord
      | some n =>
        rw [held] at handout
        rw [handout]
        exact ⟨congrArg some (size_handoutOf q.records n), polled⟩

theorem read (h : Represents s q) (offset length : Nat) :
    Agrees (s.read offset length) (q.read offset length) := by
  obtain ⟨same, polled⟩ := h.pollBacking
  simp only [RecordStore.read, RecordQueue.read]
  generalize s.pollBacking = x at same polled
  generalize q.pollBacking = y at same polled
  obtain ⟨usable, s⟩ := x
  obtain ⟨usable', q⟩ := y
  dsimp only at same polled
  subst same
  cases usable with
  | some b => exact ⟨rfl, polled.setBacking _⟩
  | none => exact ⟨polled.readRecord offset length, polled⟩

theorem markRead (h : Represents s q) : Represents s.markRead q.markRead := by
  obtain ⟨same, polled⟩ := h.pollBacking
  simp only [RecordStore.markRead, RecordQueue.markRead]
  generalize s.pollBacking = x at same polled
  generalize q.pollBacking = y at same polled
  obtain ⟨usable, s⟩ := x
  obtain ⟨usable', q⟩ := y
  dsimp only at same polled
  subst same
  cases usable with
  | none => exact polled.markRecordRead
  | some b =>
    obtain ⟨found, next⟩ := (polled.setBacking (Nonvolatile.discard b)).hasRecord
    dsimp only
    generalize RecordStore.hasRecord _ = x at found next
    generalize RecordQueue.hasRecord _ = y at found next
    obtain ⟨size, s⟩ := x
    obtain ⟨size', q⟩ := y
    dsimp only at found next
    subst found
    cases size with
    | some n => exact next.report
    | none => exact next

/-- Records are offered oldest first; looking at as many as there are is enough. -/
theorem offer (h : Represents s q) (b : ν) {count : Nat} (enough : q.records.length ≤ count) :
    Agrees (s.offer b count)
      ((spill b q.records).1, q.moveOldest (spill b q.records).2 (spill b q.records).1) := by
  induction count generalizing s q b with
  | zero =>
    have empty : q.records = [] := List.eq_nil_of_length_eq_zero (by omega)
    rw [spill_nil b empty, moveOldest_zero_nil b empty (h.handed_of_nil empty) h.start_lt]
    exact ⟨rfl, h.setBacking b⟩
  | succ count ih =>
    obtain ⟨found, next⟩ := h.hasRecord
    rw [RecordStore.offer]
    generalize s.hasRecord = x at found next
    obtain ⟨size, s'⟩ := x
    dsimp only at found next
    subst found
    cases queue : q.records with
    | nil =>
      rw [hasRecord_nil queue] at next ⊢
      rw [spill_nil b rfl, moveOldest_zero_nil b queue (h.handed_of_nil queue) h.start_lt]
      exact ⟨rfl, next.setBacking b⟩
    | cons p ps =>
      rw [hasRecord_cons queue] at next ⊢
      dsimp only at next ⊢
      rw [next.payloadSource (by exact queue)]
      cases answer : Nonvolatile.write b p.length (window p) with
      | mk taken b' =>
        cases taken with
        | false =>
          rw [spill_refused answer, moveOldest_zero_cons b' queue h.start_lt]
          exact ⟨rfl, next.setBacking b'⟩
        | true =>
          have dropped : Represents s'.markRecordRead (q.dropOldest 1) := next.markRecordRead
          have behind : (q.dropOldest 1).records = ps := by
            simp only [RecordQueue.dropOldest, queue, List.drop_one, List.tail_cons]
          have fewer : (q.dropOldest 1).records.length ≤ count := by
            rw [behind]
            rw [queue, List.length_cons] at enough
            omega
          obtain ⟨saved, moved⟩ := ih dropped b' fewer
          rw [behind] at saved moved
          rw [spill_taken answer, moveOldest_succ]
          exact ⟨congrArg (· + 1) saved, moved⟩

theorem persist (h : Represents s q) : Agrees s.persist q.persist := by
  obtain ⟨same, polled⟩ := h.pollBacking
  simp only [RecordStore.persist, RecordQueue.persist]
  generalize s.pollBacking = x at same polled
  generalize q.pollBacking = y at same polled
  obtain ⟨usable, s⟩ := x
  obtain ⟨usable', q⟩ := y
  dsimp only at same polled
  subst same
  cases usable with
  | none => exact ⟨rfl, polled⟩
  | some b =>
    apply polled.offer b
    rw [polled.count_eq]
    exact length_le_image q.records q.opened

/-! ### Histories -/

theorem drainOne (h : Represents s q) : Agrees s.drainOne q.drainOne := by
  obtain ⟨found, handed⟩ := h.hasMore
  simp only [RecordStore.drainOne, RecordQueue.drainOne]
  generalize s.hasMore = x at found handed
  generalize q.hasMore = y at found handed
  obtain ⟨size, s⟩ := x
  obtain ⟨size', q⟩ := y
  dsimp only at found handed
  subst found
  cases size with
  | none => exact ⟨rfl, handed⟩
  | some n =>
    obtain ⟨bytes, read⟩ := handed.read 0 n
    exact ⟨congrArg (fun bs : Option Bytes => (bs.map Round.event).getD .unreadable) bytes,
      read.markRead⟩

theorem drain (h : Represents s q) (count : Nat) : Agrees (s.drain count) (q.drain count) := by
  induction count generalizing s q with
  | zero => exact ⟨rfl, h⟩
  | succ count ih =>
    obtain ⟨same, next⟩ := h.drainOne
    simp only [RecordStore.drain, RecordQueue.drain]
    generalize s.drainOne = x at same next
    generalize q.drainOne = y at same next
    obtain ⟨round, s⟩ := x
    obtain ⟨round', q⟩ := y
    dsimp only at same next
    subst same
    obtain ⟨rounds, rest⟩ := ih next
    cases round with
    | nothing => exact ⟨rfl, next⟩
    | unreadable => exact ⟨congrArg (Round.unreadable :: ·) rounds, rest⟩
    | event bs => exact ⟨congrArg (Round.event bs :: ·) rounds, rest⟩

theorem perform (h : Represents s q) (op : Operation ν) : Agrees (s.perform op) (q.perform op) := by
  cases op with
  | beginWrite => exact h.beginWrite.map _
  | append bs => exact (h.append bs).map _
  | finishWrite undo => exact ⟨rfl, h.finishWrite undo⟩
  | writeRecord payload => exact (h.writeRecord payload).map _
  | hasMore => exact h.hasMore.map _
  | hasRecord => exact h.hasRecord.map _
  | read offset length => exact (h.read offset length).map _
  | readRecord offset length => exact ⟨congrArg Answer.bytes (h.readRecord offset length), h⟩
  | recordSlices => exact ⟨congrArg Answer.slices h.recordSlices, h⟩
  | markRead => exact ⟨rfl, h.markRead⟩
  | markRecordRead => exact ⟨rfl, h.markRecordRead⟩
  | setBatchLimit limit => exact ⟨rfl, h.setBatchLimit limit⟩
  | observe => exact ⟨rfl, h.observe⟩
  | attach b => exact ⟨rfl, h.attach b⟩
  | alterBacking f => exact ⟨rfl, h.alterBacking f⟩
  | persist => exact h.persist.map _
  | drainOne => exact h.drainOne.map _
  | drain rounds => exact (h.drain rounds).map _

theorem performAll (h : Represents s q) (ops : List (Operation ν)) :
    Agrees (s.performAll ops) (q.performAll ops) := by
  induction ops generalizing s q with
  | nil => exact ⟨rfl, h⟩
  | cons op ops ih =>
    obtain ⟨answer, next⟩ := h.perform op
    obtain ⟨answers, last⟩ := ih next
    simp only [RecordStore.performAll, RecordQueue.performAll]
    exact ⟨by simp only [answer, answers], last⟩

end Represents

/-- A store over any number of bytes is a queue of records: a history of operations in any order,
also of operations that have no place at some point, is answered by the store as by the queue. At
its end the unread bytes of the store are the records of the queue in their order, each behind
its size, and then the open transaction behind the mark; what is handed out is a number of the
oldest records. -/
theorem performAll_refines_queue (capacity : Nat) (pos : 0 < capacity)
    (ops : List (Operation ν)) :
    ∃ s : RecordStore ν, RecordStore.ofCapacity capacity = .ok s ∧
      Agrees (s.performAll ops) ((RecordQueue.ofCapacity capacity).performAll ops) := by
  refine ⟨RecordStore.ofRing (Ring.zeroed capacity pos), ?_, ?_⟩
  · rw [RecordStore.ofCapacity, Ring.ofCapacity, dif_pos pos]
    rfl
  · exact (represents_ofRing capacity pos).performAll ops

/-- A transaction that goes around the end of eight cells, while the record before it is read,
marked and marked again. -/
theorem performAll_refines_queue_around :
    0 < 8 ∧ ∃ s : RecordStore Empty, RecordStore.ofCapacity 8 = .ok s ∧
      Agrees
        (s.performAll [.beginWrite, .append [1, 2, 3], .finishWrite false, .beginWrite, .hasMore,
          .append [4], .markRead, .markRecordRead, .append [5, 6], .beginWrite])
        ([.amount 6, .flag true, .done, .amount 1, .size (some 3), .flag true, .done, .done,
          .flag true, .amount 0],
          { capacity := 8, start := 5, opened := some [4, 5, 6] }) :=
  ⟨by decide, performAll_refines_queue 8 (by decide) _⟩

end DeviceTelemetry.RecordQueue
