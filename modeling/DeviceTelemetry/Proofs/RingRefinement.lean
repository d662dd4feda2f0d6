import DeviceTelemetry.Proofs.RingView
import DeviceTelemetry.Ring.Operation

/-!
# A ring is a bounded list of bytes

Operations on a ring are told by the list of its unread bytes and by its capacity: which of them
are possible (`Operation.Allowed`), what they leave (`Operation.result`) and what they answer
(`Operation.Answers`). A ring keeps to this whatever has been done to it before, and wherever its
bytes go around the end of the cells (`performAll_refines_list`).
-/

set_option autoImplicit false

namespace DeviceTelemetry.Ring

namespace Operation

variable {capacity : Nat} {c : Bytes}

def Allowed (capacity : Nat) (c : Bytes) : Operation → Prop
  | write bs => bs.length ≤ capacity - c.length
  | writeBack back bs => back ≤ c.length ∧ bs.length - back ≤ capacity - c.length
  | read offset length => offset + length ≤ c.length
  | run _ => True
  | consume length => length ≤ c.length
  | consumeBack length => length ≤ c.length

instance (capacity : Nat) (c : Bytes) : (op : Operation) → Decidable (op.Allowed capacity c)
  | write _ => inferInstanceAs (Decidable (_ ≤ _))
  | writeBack _ _ => inferInstanceAs (Decidable (_ ∧ _))
  | read _ _ => inferInstanceAs (Decidable (_ ≤ _))
  | run _ => inferInstanceAs (Decidable True)
  | consume _ => inferInstanceAs (Decidable (_ ≤ _))
  | consumeBack _ => inferInstanceAs (Decidable (_ ≤ _))

def result (c : Bytes) : Operation → Bytes
  | write bs => c ++ bs
  | writeBack back bs =>
    c.take (c.length - back) ++ (bs ++ c.drop (c.length - back + bs.length))
  | read _ _ => c
  | run _ => c
  | consume length => c.drop length
  | consumeBack length => c.take (c.length - length)

/-- The list of bytes that an operation leaves; one that is not possible changes nothing. -/
def apply (capacity : Nat) (c : Bytes) (op : Operation) : Bytes :=
  if op.Allowed capacity c then op.result c else c

/-- A run from a place in the list on: a beginning of what stands there, and not an empty one
before the end of the list. -/
def RunFrom (c : Bytes) (offset : Nat) (bs : Bytes) : Prop :=
  bs <+: c.drop offset ∧ (bs = [] ↔ offset = c.length)

def Answers (c : Bytes) (answer : Answer) : Operation → Prop
  | read offset length => answer = .bytes ((c.drop offset).take length)
  | run offset =>
    if offset ≤ c.length then ∃ bs, answer = .run (some bs) ∧ RunFrom c offset bs
    else answer = .run none
  | _ => answer = .done

end Operation

def listAfter (capacity : Nat) (ops : List Operation) : Bytes :=
  ops.foldl (Operation.apply capacity) []

structure Represents (capacity : Nat) (r : Ring) (c : Bytes) : Prop where
  capacity_eq : r.capacity = capacity
  toList_eq : r.toList = c

section Runs

variable (r : Ring) {offset : Nat}

theorem run?_of_le (inside : offset ≤ r.count) :
    r.run? offset = some ((r.toList.drop offset).take (r.runLength offset)) := by
  have short : offset + r.runLength offset ≤ r.count := by
    unfold runLength
    omega
  rw [run?, if_pos inside, r.slice_eq offset _ short]

theorem runLength_pos (inside : offset < r.count) : 0 < r.runLength offset := by
  have cell := Nat.mod_lt (r.start + offset) r.size_cells_pos
  unfold runLength
  omega

/-- A run that does not reach the last unread byte ends at the last cell, so the next one starts at
the first cell and reaches it. -/
theorem runLength_next (inside : offset ≤ r.count) :
    r.runLength (offset + r.runLength offset) = r.count - (offset + r.runLength offset) := by
  have cell := Nat.mod_lt (r.start + offset) r.size_cells_pos
  have bound := r.count_le
  by_cases whole : r.count - offset ≤ r.cells.size - (r.start + offset) % r.cells.size
  · have all : r.runLength offset = r.count - offset := Nat.min_eq_left whole
    rw [all, runLength]
    omega
  · have cut : r.runLength offset = r.cells.size - (r.start + offset) % r.cells.size :=
      Nat.min_eq_right (by omega)
    have around : (r.start + (offset + r.runLength offset)) % r.cells.size = 0 := by
      have parts := Nat.div_add_mod (r.start + offset) r.cells.size
      have place : r.start + (offset + r.runLength offset) =
          r.cells.size * ((r.start + offset) / r.cells.size + 1) := by
        rw [Nat.mul_add]
        omega
      rw [place, Nat.mul_mod_right]
    rw [runLength, around]
    omega

/-- Two runs in a row hold all unread bytes from a place on. -/
theorem exists_runs (inside : offset ≤ r.count) :
    ∃ first second, r.run? offset = some first ∧ r.run? (offset + first.length) = some second ∧
      first ++ second = r.toList.drop offset ∧ (first = [] ↔ offset = r.count) := by
  have short : r.runLength offset ≤ r.count - offset := Nat.min_le_left _ _
  have size : ((r.toList.drop offset).take (r.runLength offset)).length = r.runLength offset := by
    simp only [List.length_take, List.length_drop, length_toList]
    omega
  have inside' : offset + r.runLength offset ≤ r.count := by omega
  have next := r.run?_of_le inside'
  refine ⟨_, _, r.run?_of_le inside, by rw [size]; exact next, ?_, ?_⟩
  · have rest : (r.toList.drop (offset + r.runLength offset)).length =
        r.runLength (offset + r.runLength offset) := by
      rw [r.runLength_next inside, List.length_drop, length_toList]
    rw [← rest, List.take_length, ← List.drop_drop, List.take_append_drop]
  · rw [← List.length_eq_zero_iff, size]
    constructor
    · intro outside
      by_contra before
      have before' : offset < r.count := by omega
      have := r.runLength_pos before'
      omega
    · intro last
      omega

end Runs

namespace Represents

variable {capacity : Nat} {r : Ring} {c : Bytes}

theorem count_eq (h : r.Represents capacity c) : r.count = c.length := by
  rw [← h.toList_eq, length_toList]

theorem free_eq (h : r.Represents capacity c) : r.free = capacity - c.length := by
  rw [free, h.count_eq, ← h.capacity_eq]
  rfl

theorem perform_of_allowed (h : r.Represents capacity c) {op : Operation}
    (allowed : op.Allowed capacity c) :
    ∃ answer, (r.perform op).1 = .ok answer ∧ op.Answers c answer ∧
      (r.perform op).2.Represents capacity (op.result c) := by
  have size := h.count_eq
  cases op with
  | write bs =>
      have room : bs.length ≤ r.free := by rw [h.free_eq]; exact allowed
      have done : r.perform (.write bs) = (.ok .done, r.append bs room) := by
        simp only [perform, write]
        rw [dif_pos room]
        rfl
      rw [done]
      refine ⟨_, rfl, rfl, (size_store _ _ _).trans h.capacity_eq, ?_⟩
      rw [toList_append, h.toList_eq]
      rfl
  | writeBack back bs =>
      obtain ⟨inside, room⟩ := allowed
      rw [← size] at inside
      rw [← h.free_eq] at room
      have done : r.perform (.writeBack back bs) = (.ok .done, r.patch back bs room) := by
        simp only [perform, writeBack]
        rw [if_pos inside, dif_pos room]
        rfl
      rw [done]
      refine ⟨_, rfl, rfl, (size_store _ _ _).trans h.capacity_eq, ?_⟩
      rw [toList_patch r back bs room inside, h.toList_eq, size]
      rfl
  | read offset length =>
      have inside : offset + length ≤ r.count := by rw [size]; exact allowed
      have done : r.perform (.read offset length) = (.ok (.bytes (r.slice offset length)), r) := by
        simp only [perform, read]
        rw [if_pos inside]
        rfl
      rw [done]
      refine ⟨_, rfl, ?_, h⟩
      rw [r.slice_eq offset length inside, h.toList_eq]
      rfl
  | run offset =>
      refine ⟨_, rfl, ?_, h⟩
      simp only [Operation.Answers]
      split
      · rename_i inside
        rw [← size] at inside
        obtain ⟨first, second, found, -, whole, outside⟩ := r.exists_runs inside
        rw [h.toList_eq] at whole
        rw [size] at outside
        exact ⟨first, congrArg Answer.run found, ⟨second, whole⟩, outside⟩
      · rename_i beyond
        rw [← size] at beyond
        exact congrArg Answer.run (if_neg beyond)
  | consume length =>
      have inside : length ≤ r.count := by rw [size]; exact allowed
      have done : r.perform (.consume length) = (.ok .done, r.dropFront length) := by
        simp only [perform, consume]
        rw [if_pos inside]
        rfl
      rw [done]
      refine ⟨_, rfl, rfl, h.capacity_eq, ?_⟩
      rw [toList_dropFront, h.toList_eq]
      rfl
  | consumeBack length =>
      have inside : length ≤ r.count := by rw [size]; exact allowed
      have done : r.perform (.consumeBack length) = (.ok .done, r.dropBack length) := by
        simp only [perform, consumeBack]
        rw [if_pos inside]
        rfl
      rw [done]
      refine ⟨_, rfl, rfl, h.capacity_eq, ?_⟩
      rw [toList_dropBack, h.toList_eq, size]
      rfl

theorem perform_of_not_allowed (h : r.Represents capacity c) {op : Operation}
    (refused : ¬op.Allowed capacity c) : ∃ e, r.perform op = (.error e, r) := by
  have size := h.count_eq
  have room := h.free_eq
  cases op with
  | write bs =>
      rw [Operation.Allowed, ← room] at refused
      simp only [perform, write]
      rw [dif_neg refused]
      exact ⟨_, rfl⟩
  | writeBack back bs =>
      rw [Operation.Allowed, ← room, ← size] at refused
      simp only [perform, writeBack]
      split
      · rename_i inside
        rw [dif_neg fun fits => refused ⟨inside, fits⟩]
        exact ⟨_, rfl⟩
      · exact ⟨_, rfl⟩
  | read offset length =>
      rw [Operation.Allowed, ← size] at refused
      simp only [perform, read]
      rw [if_neg refused]
      exact ⟨_, rfl⟩
  | run offset => exact absurd trivial refused
  | consume length =>
      rw [Operation.Allowed, ← size] at refused
      simp only [perform, consume]
      rw [if_neg refused]
      exact ⟨_, rfl⟩
  | consumeBack length =>
      rw [Operation.Allowed, ← size] at refused
      simp only [perform, consumeBack]
      rw [if_neg refused]
      exact ⟨_, rfl⟩

theorem perform (h : r.Represents capacity c) (op : Operation) :
    (r.perform op).2.Represents capacity (op.apply capacity c) := by
  unfold Operation.apply
  split
  · rename_i allowed
    obtain ⟨_, -, -, next⟩ := h.perform_of_allowed allowed
    exact next
  · rename_i refused
    obtain ⟨e, same⟩ := h.perform_of_not_allowed refused
    rw [same]
    exact h

theorem performAll (h : r.Represents capacity c) (ops : List Operation) :
    (r.performAll ops).Represents capacity (ops.foldl (Operation.apply capacity) c) := by
  induction ops generalizing r c with
  | nil => exact h
  | cons op ops ih => exact ih (h.perform op)

end Represents

theorem represents_ofCapacity {capacity : Nat} {r : Ring} (made : ofCapacity capacity = .ok r) :
    r.Represents capacity [] := by
  unfold ofCapacity at made
  split at made
  · cases made
    exact ⟨Array.size_replicate, rfl⟩
  · cases made

/-- Every capacity but none makes a ring. Whatever has been done to it, it goes on as the list of
bytes does that has been through the same: it performs an operation if that is possible on the
list, with the answer and the bytes that the list has, and otherwise refuses it and stays as it
was. The unread bytes from any place on are at most two runs in a row. -/
theorem performAll_refines_list {capacity : Nat} (positive : 1 ≤ capacity) :
    ∃ fresh, ofCapacity capacity = .ok fresh ∧ ∀ ops : List Operation,
      let r := fresh.performAll ops
      let c := listAfter capacity ops
      r.toList = c ∧ c.length = r.count ∧ r.count ≤ capacity ∧ r.count + r.free = capacity ∧
        (∀ op : Operation,
          if op.Allowed capacity c then
            ∃ answer, (r.perform op).1 = .ok answer ∧ op.Answers c answer ∧
              (r.perform op).2.toList = op.result c
          else ∃ e, r.perform op = (.error e, r)) ∧
        ∀ offset ≤ c.length, ∃ first second, r.run? offset = some first ∧
          r.run? (offset + first.length) = some second ∧ first ++ second = c.drop offset := by
  have made : ofCapacity capacity = .ok (zeroed capacity positive) := dif_pos positive
  refine ⟨_, made, ?_⟩
  intro ops r c
  have h : r.Represents capacity c := (represents_ofCapacity made).performAll ops
  have bound : r.count ≤ r.capacity := r.count_le
  rw [h.capacity_eq] at bound
  have size := h.count_eq
  refine ⟨h.toList_eq, size.symm, bound, ?_, ?_, ?_⟩
  · rw [h.free_eq]
    omega
  · intro op
    split
    · rename_i allowed
      obtain ⟨answer, performed, answers, next⟩ := h.perform_of_allowed allowed
      exact ⟨answer, performed, answers, next.toList_eq⟩
    · rename_i refused
      exact h.perform_of_not_allowed refused
  · intro offset inside
    rw [← size] at inside
    obtain ⟨first, second, found, next, whole, -⟩ := r.exists_runs inside
    rw [h.toList_eq] at whole
    exact ⟨first, second, found, next, whole⟩

/-- In four cells, a write is refused and a header is overwritten where it goes around the end; the
overwriting bytes then reach beyond the end of the list, and five bytes do not fit. -/
theorem performAll_refines_list_around :
    1 ≤ 4 ∧ ∃ fresh, ofCapacity 4 = .ok fresh ∧
      let ops : List Operation := [.write [1, 2, 3], .consume 3, .write [255, 255, 4],
        .write [5, 6], .writeBack 3 [3, 0], .writeBack 1 [7, 8]]
      let r := fresh.performAll ops
      r.toList = [3, 0, 7, 8] ∧ r.free = 0 ∧
        (∃ e, r.perform (.writeBack 2 [1, 2, 3]) = (.error e, r)) ∧
        ∃ first second, r.run? 0 = some first ∧ r.run? first.length = some second ∧
          first ++ second = [3, 0, 7, 8] := by
  have positive : 1 ≤ 4 := by decide
  refine ⟨positive, ?_⟩
  obtain ⟨fresh, made, all⟩ := performAll_refines_list positive
  refine ⟨fresh, made, ?_⟩
  intro ops r
  have list : listAfter 4 ops = [3, 0, 7, 8] := by decide
  obtain ⟨bytes, size, -, room, performs, runs⟩ := all ops
  rw [list] at bytes size performs runs
  have four : r.count = 4 := size.symm
  have full : r.free = 0 := by
    have total : r.count + r.free = 4 := room
    omega
  have refused := performs (.writeBack 2 [1, 2, 3])
  rw [if_neg (by decide)] at refused
  obtain ⟨first, second, found, next, whole⟩ := runs 0 (by decide)
  rw [Nat.zero_add] at next
  exact ⟨bytes, full, refused, first, second, found, next, whole⟩

end DeviceTelemetry.Ring
