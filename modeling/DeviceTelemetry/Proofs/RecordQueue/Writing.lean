import DeviceTelemetry.Proofs.RecordQueue.Basic
import DeviceTelemetry.Proofs.RingView

/-!
# Writing to a store that represents a queue

`Represents s q` says that the store `s` holds the queue `q`: its unread bytes are the image of
the queue, and its counters are those of the open transaction and of the records handed out. Every
operation on the writing side returns what it returns on the queue and leaves a store that
represents the queue left behind.
-/

set_option autoImplicit false

namespace DeviceTelemetry.RecordQueue

open RecordStore (headerSize openMark maxRecordSize)

variable {ν : Type}

def handoutOf (records : List Bytes) (n : Nat) : Handout where
  records := n
  span := span records n
  payload := (records.take n).flatten.length
  lead := leadOf n

structure Represents (s : RecordStore ν) (q : RecordQueue ν) : Prop where
  bytes : s.ring.toList = q.image
  capacity : s.ring.capacity = q.capacity
  start : s.ring.start = q.start
  opened : s.opened = q.opened.map fun p => p.length + headerSize
  handout : s.handout = q.handed.map (handoutOf q.records)
  /-- No header of a finished record reads like the mark of an open one. -/
  fits : ∀ p ∈ q.records ++ q.opened.toList, p.length + headerSize ≤ maxRecordSize
  /-- The reader holds finished records only. -/
  handed : ∀ n ∈ q.handed, 0 < n ∧ n ≤ q.records.length
  batchLimit : s.batchLimit = q.batchLimit
  backing : s.backing = q.backing
  backingSeen : s.backingSeen = q.backingSeen
  observed : s.observed = q.observed
  reports : s.reports = q.reports

/-- The same result, and a store that represents the queue. -/
def Agrees {α : Type} (x : α × RecordStore ν) (y : α × RecordQueue ν) : Prop :=
  x.1 = y.1 ∧ Represents x.2 y.2

theorem Agrees.map {α β : Type} {x : α × RecordStore ν} {y : α × RecordQueue ν} (f : α → β)
    (h : Agrees x y) : Agrees (x.map f id) (y.map f id) :=
  ⟨congrArg f h.1, h.2⟩

/-! ### Images -/

@[simp] theorem length_ofWord (n : Nat) : (Bytes.ofWord n).length = headerSize := rfl

@[simp] theorem length_frame (p : Bytes) : (frame p).length = p.length + headerSize := by
  simp only [frame, List.length_append, length_ofWord, Nat.add_comm]

@[simp] theorem length_openFrame (p : Bytes) : (openFrame p).length = p.length + headerSize := by
  simp only [openFrame, List.length_append, length_ofWord, Nat.add_comm]

theorem imageOf_none (records : List Bytes) : imageOf records none = records.flatMap frame := by
  simp [imageOf]

theorem imageOf_some (records : List Bytes) (p : Bytes) :
    imageOf records (some p) = records.flatMap frame ++ openFrame p := rfl

theorem imageOf_append_frame (records : List Bytes) (p : Bytes) :
    imageOf (records ++ [p]) none = records.flatMap frame ++ frame p := by
  simp [imageOf]

theorem imageOf_drop (records : List Bytes) (opened : Option Bytes) (n : Nat) :
    imageOf (records.drop n) opened = (imageOf records opened).drop (span records n) := by
  have cut : records.flatMap frame =
      (records.take n).flatMap frame ++ (records.drop n).flatMap frame := by
    rw [← List.flatMap_append, List.take_append_drop]
  rw [imageOf, imageOf, cut, List.append_assoc, span, List.drop_left]

theorem span_le (records : List Bytes) (opened : Option Bytes) (n : Nat) :
    span records n ≤ (imageOf records opened).length := by
  have cut : records.flatMap frame =
      (records.take n).flatMap frame ++ (records.drop n).flatMap frame := by
    rw [← List.flatMap_append, List.take_append_drop]
  rw [imageOf, cut, List.length_append, List.length_append, span]
  omega

theorem takeBack_eq (ring : Ring) {length : Nat} (h : length ≤ ring.count) :
    RecordStore.takeBack ring length = ring.dropBack length := by
  rw [RecordStore.takeBack, Ring.consumeBack, if_pos h]

/-! ### Levels -/

namespace Represents

variable {s : RecordStore ν} {q : RecordQueue ν}

theorem count_eq (h : Represents s q) : s.ring.count = q.image.length := by
  rw [← h.bytes, Ring.length_toList]

theorem count_of_opened (h : Represents s q) {p : Bytes} (underway : q.opened = some p) :
    s.ring.count = (q.records.flatMap frame).length + (p.length + headerSize) := by
  rw [h.count_eq, RecordQueue.image, underway, imageOf_some, List.length_append, length_openFrame]

theorem levels_eq (h : Represents s q) : s.levels = q.levels := by
  have size := h.capacity
  simp only [Ring.capacity] at size
  simp only [RecordStore.levels, RecordQueue.levels, Ring.free, h.count_eq, size]

theorem free_eq (h : Represents s q) : s.ring.free = q.free :=
  congrArg Levels.free h.levels_eq

theorem start_lt (h : Represents s q) : q.start < q.capacity := by
  rw [← h.start, ← h.capacity]
  exact s.ring.start_lt

theorem report (h : Represents s q) : Represents s.report q.report := by
  have levels := h.levels_eq
  have past := h.reports
  simp only [RecordStore.report, RecordQueue.report]
  split
  · rename_i seen
    rw [if_pos (h.observed ▸ seen)]
    exact { h with reports := by rw [levels, past] }
  · rename_i unseen
    rw [if_neg (h.observed ▸ unseen)]
    exact h

theorem setBatchLimit (h : Represents s q) (limit : Option Nat) :
    Represents (s.setBatchLimit limit) { q with batchLimit := limit } :=
  { h with batchLimit := rfl }

theorem observe (h : Represents s q) : Represents s.observe { q with observed := true } :=
  { h with observed := rfl }

theorem attach (h : Represents s q) (b : ν) :
    Represents (s.attach b) { q with backing := some b, backingSeen := false } :=
  { h with backing := rfl, backingSeen := rfl }

theorem alterBacking (h : Represents s q) (f : ν → ν) :
    Represents (s.alterBacking f) { q with backing := q.backing.map f } :=
  { h with backing := congrArg (Option.map f) h.backing }

theorem setBacking (h : Represents s q) (b : ν) :
    Represents { s with backing := some b } { q with backing := some b } :=
  { h with backing := rfl }

/-! ### Transactions -/

theorem beginWrite (h : Represents s q) : Agrees s.beginWrite q.beginWrite := by
  have free := h.free_eq
  have opened := h.opened
  unfold RecordStore.beginWrite RecordQueue.beginWrite
  cases closed : q.opened with
  | some p =>
    have isOpen : s.opened.isSome := by rw [opened, closed]; rfl
    rw [if_pos isOpen, if_neg (by simp)]
    exact ⟨rfl, h⟩
  | none =>
    have isClosed : ¬s.opened.isSome := by rw [opened, closed]; simp
    have image : q.image = q.records.flatMap frame := by
      rw [RecordQueue.image, closed, imageOf_none]
    rw [if_neg isClosed]
    split
    · rename_i room
      have header : headerSize ≤ s.ring.free := room
      have grown : (s.ring.append (Bytes.ofWord openMark) room).toList =
          q.image ++ Bytes.ofWord openMark := by
        rw [Ring.toList_append, h.bytes]
      have left : (s.ring.append (Bytes.ofWord openMark) room).free = q.free - headerSize := by
        simp only [Ring.append, Ring.free, Ring.size_store, length_ofWord, ← free]
        omega
      dsimp only
      split
      · -- only the header fits: the mark is written and dropped again
        rename_i full
        have count := congrArg List.length grown
        rw [Ring.length_toList, List.length_append, length_ofWord] at count
        rw [if_neg (by omega), takeBack_eq _ (by omega)]
        refine ⟨rfl, { h with
          bytes := ?_, capacity := (Ring.size_store ..).trans h.capacity }⟩
        rw [Ring.toList_dropBack, grown, count, Nat.add_sub_cancel, List.take_left]
      · rename_i some_left
        rw [if_pos ⟨rfl, by omega⟩]
        refine ⟨left, { h with
          bytes := ?_, capacity := (Ring.size_store ..).trans h.capacity, opened := rfl,
          fits := ?_ }⟩
        · rw [grown, image]
          rfl
        · intro p member
          rcases List.mem_append.mp member with old | new
          · exact h.fits p (List.mem_append_left _ old)
          · have empty : p = [] := by simpa using new
            subst empty
            decide
    · rename_i full
      simp only [length_ofWord] at full
      rw [if_neg (by omega)]
      exact ⟨rfl, h⟩

theorem append (h : Represents s q) (bs : Bytes) : Agrees (s.append bs) (q.append bs) := by
  have free := h.free_eq
  have opened := h.opened
  simp only [RecordStore.append, RecordQueue.append]
  cases underway : q.opened with
  | none =>
    rw [underway] at opened
    rw [opened]
    exact ⟨rfl, h⟩
  | some p =>
    rw [underway] at opened
    rw [opened]
    have swap : (p.length + headerSize + bs.length ≤ maxRecordSize ∧ bs.length ≤ s.ring.free) ↔
        (bs.length ≤ q.free ∧ p.length + headerSize + bs.length ≤ maxRecordSize) := by
      rw [free]
      exact And.comm
    simp only [Option.map_some]
    split
    · rename_i room
      rw [if_pos (swap.mp room)]
      refine ⟨rfl, { h with
        bytes := ?_, capacity := (Ring.size_store ..).trans h.capacity, opened := ?_,
        fits := ?_ }⟩
      · rw [Ring.toList_append, h.bytes, RecordQueue.image, underway, RecordQueue.image]
        simp only [imageOf_some, openFrame, List.append_assoc]
      · simp only [Option.map_some, List.length_append]
        congr 1
        omega
      · intro p' member
        rcases List.mem_append.mp member with old | new
        · exact h.fits p' (List.mem_append_left _ old)
        · have grown : p' = p ++ bs := by simpa using new
          subst grown
          have := room.1
          rw [List.length_append]
          omega
    · rename_i full
      rw [if_neg (mt swap.mpr full)]
      exact ⟨rfl, h⟩

theorem rollback (h : Represents s q) {p : Bytes} (underway : q.opened = some p) :
    Represents s.rollback { q with opened := none } := by
  have opened := h.opened
  rw [underway] at opened
  have count := h.count_of_opened underway
  simp only [RecordStore.rollback]
  rw [opened]
  simp only [Option.map_some]
  rw [takeBack_eq _ (by omega)]
  refine { h with bytes := ?_, opened := rfl, fits := ?_ }
  · rw [Ring.toList_dropBack, h.bytes, count, Nat.add_sub_cancel, RecordQueue.image, underway,
      imageOf_some, List.take_left]
    exact (imageOf_none q.records).symm
  · intro p' member
    have old : p' ∈ q.records := by simpa using member
    exact h.fits p' (List.mem_append_left _ old)

theorem commit (h : Represents s q) {p : Bytes} (underway : q.opened = some p) :
    Represents s.commit { q with records := q.records ++ [p], opened := none }.report := by
  have opened := h.opened
  rw [underway] at opened
  have image : q.image = q.records.flatMap frame ++ openFrame p := by
    rw [RecordQueue.image, underway, imageOf_some]
  have count := h.count_of_opened underway
  simp only [RecordStore.commit]
  rw [opened]
  have room : p.length + headerSize ≤ s.ring.count ∧
      (Bytes.ofWord (p.length + headerSize)).length - (p.length + headerSize) ≤ s.ring.free := by
    constructor
    · omega
    · rw [length_ofWord]
      omega
  simp only [Option.map_some, RecordStore.putSize]
  rw [dif_pos room]
  apply Represents.report
  refine { h with
    bytes := ?_, capacity := (Ring.size_store ..).trans h.capacity, opened := rfl,
    handout := ?_, fits := ?_, handed := ?_ }
  · -- the mark gives way to the size, and the payload behind it stays
    rw [Ring.toList_patch _ _ _ _ room.1, h.bytes, image, count, Nat.add_sub_cancel,
      length_ofWord, List.take_left, ← List.drop_drop, List.drop_left]
    show _ = imageOf (q.records ++ [p]) none
    rw [imageOf_append_frame, openFrame, frame]
    rfl
  · rw [h.handout]
    cases held : q.handed with
    | none => rfl
    | some n =>
      have inside := (h.handed n (by rw [held]; rfl)).2
      simp only [Option.map_some, handoutOf, span]
      rw [List.take_append_of_le_length inside]
  · intro p' member
    simp only [Option.toList_none, List.append_nil] at member
    rcases List.mem_append.mp member with old | new
    · exact h.fits p' (List.mem_append_left _ old)
    · have same : p' = p := by simpa using new
      subst same
      exact h.fits p' (List.mem_append_right _ (by rw [underway]; simp))
  · intro n member
    have inside := h.handed n member
    rw [List.length_append]
    omega

theorem finishWrite (h : Represents s q) (undo : Bool) :
    Represents (s.finishWrite undo) (q.finishWrite undo) := by
  simp only [RecordStore.finishWrite, RecordQueue.finishWrite]
  cases underway : q.opened with
  | none =>
    have opened := h.opened
    rw [underway] at opened
    cases undo with
    | true => simpa [RecordStore.rollback, opened] using h
    | false => simpa [RecordStore.commit, opened] using h
  | some p =>
    cases undo with
    | true => exact h.rollback underway
    | false => exact h.commit underway

theorem writeRecord (h : Represents s q) (payload : Bytes) :
    Agrees (s.writeRecord payload) (q.writeRecord payload) := by
  obtain ⟨budget, begun⟩ := h.beginWrite
  simp only [RecordStore.writeRecord, RecordQueue.writeRecord]
  generalize s.beginWrite = x at budget begun
  generalize q.beginWrite = y at budget begun
  obtain ⟨m, s'⟩ := x
  obtain ⟨n, q'⟩ := y
  dsimp only at budget begun
  subst budget
  cases m with
  | zero => exact ⟨rfl, begun⟩
  | succ m =>
    obtain ⟨kept, appended⟩ := begun.append payload
    refine ⟨kept, ?_⟩
    show Represents ((s'.append payload).2.finishWrite (!(s'.append payload).1))
      ((q'.append payload).2.finishWrite (!(q'.append payload).1))
    rw [kept]
    exact appended.finishWrite _

end Represents

theorem represents_ofRing (capacity : Nat) (h : 0 < capacity) :
    Represents (RecordStore.ofRing (Ring.zeroed capacity h) : RecordStore ν)
      (RecordQueue.ofCapacity capacity) where
  bytes := rfl
  capacity := Array.size_replicate
  start := rfl
  opened := rfl
  handout := rfl
  fits := by intro p member; cases member
  handed := by intro n member; cases member
  batchLimit := rfl
  backing := rfl
  backingSeen := rfl
  observed := rfl
  reports := rfl

theorem represents_ofCapacity {capacity : Nat} {s : RecordStore ν}
    (fresh : RecordStore.ofCapacity capacity = .ok s) :
    Represents s (RecordQueue.ofCapacity capacity) := by
  rw [RecordStore.ofCapacity, Ring.ofCapacity] at fresh
  split at fresh
  · rename_i pos
    cases fresh
    exact represents_ofRing capacity pos
  · cases fresh

end DeviceTelemetry.RecordQueue
