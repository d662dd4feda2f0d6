import DeviceTelemetry.Cbor.Encoder
import Mathlib.Algebra.GroupWithZero.Nat

/-!
# The size of an encoding

The size of an item is the number of bytes that it takes, so an encoder that only counts counts
what is written. It counts up to `Encoder.maxCapacity`; below that its result is the sum of the
sizes (`sizeOf_eq`), and in any case it depends on the sizes alone (`sizeOf_congr`).
-/

set_option autoImplicit false

namespace DeviceTelemetry.Cbor

namespace Item

theorem sum_pieces (item : Item) : (item.pieces.map List.length).sum = item.size := by
  cases item with
  | text s =>
      simp only [pieces, size, headBytes, List.map_cons, List.map_nil, List.sum_cons, List.sum_nil,
        length_head, Text.byteLength, Nat.add_zero]
  | unsigned n => exact Nat.add_zero _
  | signed n => exact Nat.add_zero _
  | null => rfl
  | mapHead pairs => exact Nat.add_zero _
  | arrayHead length => exact Nat.add_zero _

theorem length_encode (item : Item) : item.encode.length = item.size := by
  rw [encode, List.length_flatten, sum_pieces]

theorem length_headBytes_pos (item : Item) : 0 < item.headBytes.length := by
  cases item with
  | null => decide
  | signed n =>
      rw [headBytes]
      split
      · rw [length_head]
        exact headSize_pos _
      · rw [length_head]
        exact headSize_pos _
  | unsigned n =>
      rw [headBytes, length_head]
      exact headSize_pos _
  | text s =>
      rw [headBytes, length_head]
      exact headSize_pos _
  | mapHead pairs =>
      rw [headBytes, length_head]
      exact headSize_pos _
  | arrayHead length =>
      rw [headBytes, length_head]
      exact headSize_pos _

theorem size_pos (item : Item) : 0 < item.size := by
  have pos := item.length_headBytes_pos
  cases item with
  | text s => exact Nat.lt_of_lt_of_le (headSize_pos _) (Nat.le_add_right _ _)
  | unsigned n => exact pos
  | signed n => exact pos
  | null => exact pos
  | mapHead pairs => exact pos
  | arrayHead length => exact pos

end Item

def totalSize (items : List Item) : Nat := (items.map Item.size).sum

@[simp] theorem totalSize_nil : totalSize [] = 0 := rfl

@[simp] theorem totalSize_cons (item : Item) (items : List Item) :
    totalSize (item :: items) = item.size + totalSize items := rfl

theorem totalSize_append (items items' : List Item) :
    totalSize (items ++ items') = totalSize items + totalSize items' := by
  rw [totalSize, List.map_append, List.sum_append]
  rfl

theorem length_encodeAll (items : List Item) : (encodeAll items).length = totalSize items := by
  induction items with
  | nil => rfl
  | cons item items ih =>
      rw [encodeAll, List.flatMap_cons, List.length_append, Item.length_encode, totalSize_cons]
      exact congrArg (item.size + ·) ih

namespace Encoder

/-- Nothing is ever refused by a sink that only counts. -/
theorem send_tally (pieces : List Bytes) (tally : Tally) (capacity size : Nat) :
    send pieces ⟨tally, capacity, size⟩ =
      (.ok (), ⟨tally, capacity, size + (pieces.map List.length).sum⟩) := by
  induction pieces generalizing size with
  | nil => rfl
  | cons piece pieces ih =>
      rw [List.map_cons, List.sum_cons, ← Nat.add_assoc]
      exact ih (size + piece.length)

theorem put_tally (item : Item) (tally : Tally) (capacity size : Nat) :
    put ⟨tally, capacity, size⟩ item =
      if item.size ≤ capacity - size then (.ok (), ⟨tally, capacity, size + item.size⟩)
      else (.error (.outOfSpace item.size (capacity - size)), ⟨tally, capacity, size⟩) := by
  rw [put]
  dsimp only
  rw [send_tally, Item.sum_pieces]

theorem putAll_tally {items : List Item} (tally : Tally) {capacity size : Nat}
    (room : size + totalSize items ≤ capacity) :
    putAll ⟨tally, capacity, size⟩ items =
      (.ok (), ⟨tally, capacity, size + totalSize items⟩) := by
  induction items generalizing size with
  | nil => rfl
  | cons item items ih =>
      rw [totalSize_cons] at room ⊢
      rw [putAll, put_tally, if_pos (by omega)]
      dsimp only
      rw [ih (by omega), Nat.add_assoc]

/-- Two sequences with the same sizes are counted alike, also where the counting ends early. -/
theorem putAll_tally_congr {items items' : List Item}
    (same : items.map Item.size = items'.map Item.size) (tally : Tally) (capacity size : Nat) :
    (putAll ⟨tally, capacity, size⟩ items).2 = (putAll ⟨tally, capacity, size⟩ items').2 := by
  induction items generalizing items' size with
  | nil =>
      rw [List.map_nil] at same
      rw [List.map_eq_nil_iff.mp same.symm]
  | cons item items ih =>
      cases items' with
      | nil => cases same
      | cons item' items' =>
          obtain ⟨head, tail⟩ := List.cons.inj same
          rw [putAll, putAll, put_tally, put_tally, head]
          by_cases room : item'.size ≤ capacity - size
          · rw [if_pos room]
            exact ih tail (size + item'.size)
          · rw [if_neg room]

end Encoder

theorem sizeOf_eq {items : List Item} (room : totalSize items ≤ Encoder.maxCapacity) :
    sizeOf items = totalSize items := by
  have all : 0 + totalSize items ≤ Encoder.maxCapacity := by
    rw [Nat.zero_add]
    exact room
  rw [sizeOf, Encoder.counting, Encoder.ofSink, Encoder.putAll_tally {} all, Nat.zero_add]

theorem sizeOf_congr {items items' : List Item}
    (same : items.map Item.size = items'.map Item.size) : sizeOf items = sizeOf items' :=
  congrArg Encoder.size (Encoder.putAll_tally_congr same {} Encoder.maxCapacity 0)

end DeviceTelemetry.Cbor
