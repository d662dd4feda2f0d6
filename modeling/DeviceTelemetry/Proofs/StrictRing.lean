import DeviceTelemetry.Proofs.RingView

/-!
# Rings that stop at a fault

The operations of a ring once more, with the index arithmetic that they stand for: bytes are copied
between slices, at most two in a row, and every size, remainder and slice is computed before it is
used. `Fault` lists what can be wrong with one of these. An operation told this way stops at the
first fault.

No ring has one: each strict operation answers what the operation answers (`strictWrite_eq` and
those behind it), since a ring starts in one of its cells and has no more unread bytes than cells.
-/

set_option autoImplicit false

namespace DeviceTelemetry

/-- What a strict operation stops at. -/
inductive Fault where
  /-- A size from which more is taken than there is. -/
  | underflow (size taken : Nat)
  /-- A remainder of a division by zero. -/
  | division
  /-- A slice that is not within what it is cut from. -/
  | range (start stop length : Nat)
  /-- A copy from a slice into one of another length. -/
  | lengths (destination source : Nat)
  /-- A number that is too large for the header of a record. -/
  | wide (n : Nat)
  /-- A ring that refuses what it was relied upon for. -/
  | refused (e : RingError)
  /-- A position without the record or the bytes that were relied upon. -/
  | missing (position : Nat)
  /-- A loop that has not ended after as many rounds as it may take. -/
  | endless
deriving DecidableEq, Repr

namespace Strict

@[simp] theorem ok_bind {α β : Type} (a : α) (f : α → Except Fault β) :
    (Except.ok a >>= f) = f a := rfl

/-! ### Sizes and slices -/

def less (size taken : Nat) : Except Fault Nat :=
  if taken ≤ size then .ok (size - taken) else .error (.underflow size taken)

def modulo (position size : Nat) : Except Fault Nat :=
  if size = 0 then .error .division else .ok (position % size)

def cut (bs : Bytes) (start stop : Nat) : Except Fault Bytes :=
  if start ≤ stop ∧ stop ≤ bs.length then .ok ((bs.drop start).take (stop - start))
  else .error (.range start stop bs.length)

/-- The bytes `bs` with `source` in place of those from `start` up to `stop`. -/
def paste (bs : Bytes) (start stop : Nat) (source : Bytes) : Except Fault Bytes :=
  if start ≤ stop ∧ stop ≤ bs.length then
    if source.length = stop - start then .ok (bs.take start ++ (source ++ bs.drop stop))
    else .error (.lengths (stop - start) source.length)
  else .error (.range start stop bs.length)

theorem less_eq {size taken : Nat} (h : taken ≤ size) : less size taken = .ok (size - taken) :=
  if_pos h

theorem modulo_eq (position : Nat) {size : Nat} (pos : 0 < size) :
    modulo position size = .ok (position % size) :=
  if_neg (Nat.ne_of_gt pos)

theorem cut_eq {bs : Bytes} {start stop : Nat} (order : start ≤ stop) (inside : stop ≤ bs.length) :
    cut bs start stop = .ok ((bs.drop start).take (stop - start)) :=
  if_pos ⟨order, inside⟩

theorem cut_take {bs : Bytes} {stop : Nat} (inside : stop ≤ bs.length) :
    cut bs 0 stop = .ok (bs.take stop) := by
  rw [cut_eq (Nat.zero_le _) inside, List.drop_zero, Nat.sub_zero]

theorem cut_drop {bs : Bytes} {start : Nat} (inside : start ≤ bs.length) :
    cut bs start bs.length = .ok (bs.drop start) := by
  rw [cut_eq inside (Nat.le_refl _), List.take_of_length_le (by rw [List.length_drop])]

theorem paste_eq {bs source : Bytes} {start stop : Nat} (order : start ≤ stop)
    (inside : stop ≤ bs.length) (same : source.length = stop - start) :
    paste bs start stop source = .ok (bs.take start ++ (source ++ bs.drop stop)) := by
  rw [paste, if_pos ⟨order, inside⟩, if_pos same]

/-- The first of two slices either is all, and nothing is left for the second, or ends at the last
cell. -/
theorem exists_first (length : Nat) {start size : Nat} (start_lt : start < size) :
    ∃ first, min length (size - start) = first ∧ first ≤ length ∧ start + first ≤ size ∧
      (first = length ∨ start + first = size) :=
  ⟨_, rfl, Nat.min_le_left _ _, by omega, by omega⟩

end Strict

namespace Ring

open Strict

/-! ### The operations -/

/-- A ring, if it starts in a cell and has no more unread bytes than cells. -/
def assemble (cells : Array UInt8) (start count : Nat) : Except Fault Ring :=
  if h : start < cells.size ∧ count ≤ cells.size then .ok ⟨cells, start, count, h.1, h.2⟩
  else .error (.range start count cells.size)

def strictFree (r : Ring) : Except Fault Nat := less r.cells.size r.count

/-- Copies bytes into the cells from `start` on: up to the last cell, then from the first one. -/
def copyIn (cells : Array UInt8) (start : Nat) (bs : Bytes) : Except Fault (Array UInt8) := do
  let room ← less cells.size start
  let first := min bs.length room
  let front ← cut bs 0 first
  let back ← cut bs first bs.length
  let once ← paste cells.toList start (start + first) front
  let rest ← less bs.length first
  let twice ← paste once 0 rest back
  return twice.toArray

def strictWrite (r : Ring) (bs : Bytes) : Except Fault (Except RingError Ring) := do
  let available ← r.strictFree
  if available < bs.length then return .error (.insufficientSpace bs.length available)
  else
    let start ← modulo (r.start + r.count) r.cells.size
    let cells ← copyIn r.cells start bs
    return .ok (← assemble cells r.start (r.count + bs.length))

def strictWriteBack (r : Ring) (back : Nat) (bs : Bytes) :
    Except Fault (Except RingError Ring) := do
  if r.count < back then return .error (.outOfBounds back bs.length r.count)
  else
    let available ← r.strictFree
    if available < bs.length - back then
      return .error (.insufficientSpace (bs.length - back) available)
    else
      let start ← modulo (← less (r.start + r.count) back) r.cells.size
      let cells ← copyIn r.cells start bs
      return .ok (← assemble cells r.start (r.count + (bs.length - back)))

def strictRead (r : Ring) (offset : Nat) (out : Bytes) : Except Fault (Except RingError Bytes) := do
  if r.count < offset + out.length then return .error (.outOfBounds offset out.length r.count)
  else
    let start ← modulo (r.start + offset) r.cells.size
    let room ← less r.cells.size start
    let first := min out.length room
    let front ← cut r.cells.toList start (start + first)
    let once ← paste out 0 first front
    let rest ← less out.length first
    let back ← cut r.cells.toList 0 rest
    return .ok (← paste once first out.length back)

def strictRun? (r : Ring) (offset : Nat) : Except Fault (Option Bytes) := do
  if r.count < offset then return none
  else
    let start ← modulo (r.start + offset) r.cells.size
    let unread ← less r.count offset
    let room ← less r.cells.size start
    return some (← cut r.cells.toList start (start + min unread room))

def strictConsume (r : Ring) (length : Nat) : Except Fault (Except RingError Ring) := do
  if r.count < length then return .error (.outOfBounds 0 length r.count)
  else
    let start ← modulo (r.start + length) r.cells.size
    let count ← less r.count length
    return .ok (← assemble r.cells start count)

def strictConsumeBack (r : Ring) (length : Nat) : Except Fault (Except RingError Ring) := do
  if r.count < length then return .error (.outOfBounds 0 length r.count)
  else
    let count ← less r.count length
    return .ok (← assemble r.cells r.start count)

/-! ### Stored bytes -/

theorem store_append (cells : Array UInt8) (position : Nat) (xs ys : Bytes) :
    store cells position (xs ++ ys) =
      store (store cells position xs) (position + xs.length) ys := by
  induction xs generalizing cells position with
  | nil => rfl
  | cons x xs ih =>
    rw [List.cons_append, store, store, ih, List.length_cons]
    congr 1
    omega

/-- Positions that differ by a whole number of rounds lead to the same cells. -/
theorem store_mod (cells : Array UInt8) {position position' : Nat} (bs : Bytes)
    (same : position % cells.size = position' % cells.size) :
    store cells position bs = store cells position' bs := by
  induction bs generalizing cells position position' with
  | nil => rfl
  | cons b bs ih =>
    rw [store, store, same]
    apply ih
    rw [Array.size_setIfInBounds, Nat.add_mod, same, ← Nat.add_mod]

theorem store_within (cells : Array UInt8) (position : Nat) (bs : Bytes)
    (inside : position + bs.length ≤ cells.size) :
    (store cells position bs).toList =
      cells.toList.take position ++ (bs ++ cells.toList.drop (position + bs.length)) := by
  induction bs generalizing cells position with
  | nil => simp [store]
  | cons b bs ih =>
    rw [List.length_cons] at inside ⊢
    have here : position % cells.size = position := Nat.mod_eq_of_lt (by omega)
    have before : (cells.toList.take position).length = position := by
      rw [List.length_take, Array.length_toList]
      omega
    have stored : (cells.setIfInBounds position b).toList =
        (cells.toList.take position ++ [b]) ++ cells.toList.drop (position + 1) := by
      rw [Array.toList_setIfInBounds, List.set_eq_take_append_cons_drop, if_pos, List.append_assoc,
        List.singleton_append]
      rw [Array.length_toList]
      omega
    have one : (cells.toList.take position ++ [b]).length = position + 1 := by
      rw [List.length_append, before, List.length_singleton]
    rw [store, here, ih _ _ (by rw [Array.size_setIfInBounds]; omega), stored,
      List.take_left' one, Nat.add_assoc, List.drop_append, one,
      List.drop_eq_nil_of_le (by omega), List.nil_append, List.drop_drop, List.append_assoc,
      List.singleton_append, List.cons_append]
    congr 4
    omega

/-- Copying up to the last cell and then from the first one on stores all bytes. -/
theorem copyIn_eq {cells : Array UInt8} {position : Nat} {bs : Bytes} (pos : 0 < cells.size)
    (fits : bs.length ≤ cells.size) :
    copyIn cells (position % cells.size) bs = .ok (store cells position bs) := by
  have start_lt := Nat.mod_lt position pos
  rw [store_mod cells bs (Nat.mod_mod position cells.size).symm]
  generalize position % cells.size = start at start_lt
  obtain ⟨first, isFirst, short, room, around⟩ := exists_first bs.length start_lt
  rw [copyIn, less_eq (Nat.le_of_lt start_lt), ok_bind]
  dsimp only
  rw [isFirst]
  have front : (bs.take first).length = first := by rw [List.length_take, Nat.min_eq_left short]
  have within := store_within cells start (bs.take first) (by rw [front]; exact room)
  rw [front] at within
  have rest : store cells start bs =
      store (store cells start (bs.take first)) 0 (bs.drop first) := by
    have parts := store_append cells start (bs.take first) (bs.drop first)
    rw [List.take_append_drop, front] at parts
    rw [parts]
    rcases around with all | last
    · rw [List.drop_eq_nil_of_le (Nat.le_of_eq all.symm)]
      rfl
    · apply store_mod
      rw [last, size_store, Nat.mod_self, Nat.zero_mod]
  have again := store_within (store cells start (bs.take first)) 0 (bs.drop first)
    (by rw [List.length_drop, size_store]; omega)
  rw [← rest, List.take_zero, List.nil_append, Nat.zero_add, List.length_drop] at again
  have length : (store cells start (bs.take first)).toList.length = cells.size := by
    rw [Array.length_toList, size_store]
  rw [cut_take short, ok_bind, cut_drop short, ok_bind,
    paste_eq (Nat.le_add_right _ _) (by rw [Array.length_toList]; exact room)
      (by rw [front, Nat.add_sub_cancel_left]),
    ok_bind, ← within, less_eq short, ok_bind,
    paste_eq (Nat.zero_le _) (by omega) (by rw [List.length_drop, Nat.sub_zero]), ok_bind,
    List.take_zero, List.nil_append, ← again]
  rfl

/-! ### Copied bytes -/

theorem slice_within (r : Ring) (offset : Nat) {length : Nat}
    (inside : (r.start + offset) % r.cells.size + length ≤ r.cells.size) :
    r.slice offset length =
      (r.cells.toList.drop ((r.start + offset) % r.cells.size)).take length := by
  apply List.ext_getElem
  · rw [length_slice, List.length_take, List.length_drop, Array.length_toList]
    omega
  · intro i here _
    rw [length_slice] at here
    have cell : (r.start + (offset + i)) % r.cells.size =
        (r.start + offset) % r.cells.size + i := by
      rw [← Nat.add_assoc, Nat.add_mod, Nat.mod_eq_of_lt (a := i) (by omega),
        Nat.mod_eq_of_lt (by omega)]
    rw [getElem_slice, List.getElem_take, List.getElem_drop]
    apply Option.some.inj
    rw [← getElem?_cells, cell, Array.getElem_toList, ← Array.getElem?_eq_getElem]

theorem slice_add (r : Ring) (offset first rest : Nat) :
    r.slice offset (first + rest) = r.slice offset first ++ r.slice (offset + first) rest := by
  rw [slice, slice, slice, ← List.map_append, List.range'_append_1]

/-- Unread bytes are at most two slices: one that ends at the last cell or holds them all, and one
that begins at the first cell. -/
theorem slice_around (r : Ring) (offset : Nat) {first length : Nat} (short : first ≤ length)
    (fits : length ≤ r.cells.size)
    (room : (r.start + offset) % r.cells.size + first ≤ r.cells.size)
    (around : first = length ∨ (r.start + offset) % r.cells.size + first = r.cells.size) :
    r.slice offset length = (r.cells.toList.drop ((r.start + offset) % r.cells.size)).take first ++
      r.cells.toList.take (length - first) := by
  have parts := slice_add r offset first (length - first)
  rw [Nat.add_sub_cancel' short, slice_within r offset room] at parts
  rw [parts]
  congr 1
  rcases around with all | last
  · rw [all, Nat.sub_self, List.take_zero]
    rfl
  · have place : (r.start + (offset + first)) % r.cells.size = 0 := by
      rw [← Nat.add_assoc, ← Nat.mod_add_mod, last, Nat.mod_self]
    rw [slice_within r _ (by rw [place]; omega), place, List.drop_zero]

/-! ### No ring has a fault -/

variable (r : Ring)

theorem assemble_eq : assemble r.cells r.start r.count = .ok r :=
  dif_pos ⟨r.start_lt, r.count_le⟩

theorem strictFree_eq : r.strictFree = .ok r.free := less_eq r.count_le

theorem strictWrite_eq (bs : Bytes) : r.strictWrite bs = .ok (r.write bs) := by
  have pos := r.size_cells_pos
  rw [strictWrite, strictFree_eq, ok_bind, write]
  by_cases full : r.free < bs.length
  · rw [if_pos full, dif_neg (Nat.not_le_of_lt full)]
    rfl
  · have room := Nat.le_of_not_lt full
    have fits : bs.length ≤ r.cells.size := Nat.le_trans room (Nat.sub_le _ _)
    rw [if_neg full, dif_pos room, modulo_eq _ pos, ok_bind, copyIn_eq pos fits, ok_bind]
    exact congrArg (· >>= _) (assemble_eq (r.append bs room))

theorem strictWriteBack_eq (back : Nat) (bs : Bytes) :
    r.strictWriteBack back bs = .ok (r.writeBack back bs) := by
  have pos := r.size_cells_pos
  rw [strictWriteBack, writeBack]
  by_cases short : r.count < back
  · rw [if_pos short, if_neg (Nat.not_le_of_lt short)]
    rfl
  · have inside := Nat.le_of_not_lt short
    rw [if_neg short, if_pos inside, strictFree_eq, ok_bind]
    by_cases full : r.free < bs.length - back
    · rw [if_pos full, dif_neg (Nat.not_le_of_lt full)]
      rfl
    · have room := Nat.le_of_not_lt full
      have fits : bs.length ≤ r.cells.size := by
        have := r.count_le
        simp only [Ring.free] at room
        omega
      rw [if_neg full, dif_pos room, less_eq (by omega), ok_bind, modulo_eq _ pos, ok_bind,
        copyIn_eq pos fits, ok_bind]
      exact congrArg (· >>= _) (assemble_eq (r.patch back bs room))

theorem strictRead_eq (offset : Nat) (out : Bytes) :
    r.strictRead offset out = .ok (r.read offset out.length) := by
  rw [strictRead, read]
  by_cases beyond : r.count < offset + out.length
  · rw [if_pos beyond, if_neg (Nat.not_le_of_lt beyond)]
    rfl
  · have inside := Nat.le_of_not_lt beyond
    have start_lt := Nat.mod_lt (r.start + offset) r.size_cells_pos
    have bound := r.count_le
    have size : r.cells.toList.length = r.cells.size := Array.length_toList
    rw [if_neg beyond, if_pos inside, modulo_eq _ r.size_cells_pos, ok_bind,
      less_eq (Nat.le_of_lt start_lt), ok_bind]
    dsimp only
    obtain ⟨first, isFirst, short, room, around⟩ := exists_first out.length start_lt
    rw [isFirst]
    have slices := slice_around r offset short (by omega) room around
    have front : cut r.cells.toList _ _ = _ :=
      cut_eq (Nat.le_add_right ((r.start + offset) % r.cells.size) first) (by omega)
    rw [Nat.add_sub_cancel_left] at front
    rw [front, ok_bind]
    have filled : ((r.cells.toList.drop ((r.start + offset) % r.cells.size)).take first).length =
        first := by
      rw [List.length_take, List.length_drop]
      omega
    have rest : (r.cells.toList.take (out.length - first)).length = out.length - first := by
      rw [List.length_take]
      omega
    generalize (r.cells.toList.drop ((r.start + offset) % r.cells.size)).take first = bs
      at slices filled
    rw [paste_eq (Nat.zero_le _) short (by omega), ok_bind, less_eq short, ok_bind,
      cut_take (by omega), ok_bind,
      paste_eq short (by simp only [List.take_zero, List.nil_append, List.length_append,
        List.length_drop]; omega) rest, ok_bind, slices, List.take_zero, List.nil_append,
      List.take_left' filled, List.drop_append, filled, List.drop_drop,
      List.drop_eq_nil_of_le (by omega), List.drop_eq_nil_of_le (by omega), List.append_nil,
      List.append_nil]
    rfl

theorem strictRun?_eq (offset : Nat) : r.strictRun? offset = .ok (r.run? offset) := by
  rw [strictRun?, run?]
  by_cases beyond : r.count < offset
  · rw [if_pos beyond, if_neg (Nat.not_le_of_lt beyond)]
    rfl
  · have inside := Nat.le_of_not_lt beyond
    have start_lt := Nat.mod_lt (r.start + offset) r.size_cells_pos
    have room : (r.start + offset) % r.cells.size + r.runLength offset ≤ r.cells.size := by
      unfold runLength
      omega
    rw [if_neg beyond, if_pos inside, modulo_eq _ r.size_cells_pos, ok_bind, less_eq inside,
      ok_bind, less_eq (Nat.le_of_lt start_lt), ok_bind, slice_within r offset room]
    rw [← runLength, cut_eq (Nat.le_add_right _ _) (by rw [Array.length_toList]; exact room),
      Nat.add_sub_cancel_left]
    rfl

theorem strictConsume_eq (length : Nat) : r.strictConsume length = .ok (r.consume length) := by
  rw [strictConsume, consume]
  by_cases short : r.count < length
  · rw [if_pos short, if_neg (Nat.not_le_of_lt short)]
    rfl
  · have inside := Nat.le_of_not_lt short
    rw [if_neg short, if_pos inside, modulo_eq _ r.size_cells_pos, ok_bind, less_eq inside, ok_bind]
    exact congrArg (· >>= _) (assemble_eq (r.dropFront length))

theorem strictConsumeBack_eq (length : Nat) :
    r.strictConsumeBack length = .ok (r.consumeBack length) := by
  rw [strictConsumeBack, consumeBack]
  by_cases short : r.count < length
  · rw [if_pos short, if_neg (Nat.not_le_of_lt short)]
    rfl
  · have inside := Nat.le_of_not_lt short
    rw [if_neg short, if_pos inside, less_eq inside, ok_bind]
    exact congrArg (· >>= _) (assemble_eq (r.dropBack length))

end Ring

end DeviceTelemetry
