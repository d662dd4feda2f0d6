import DeviceTelemetry.Ring.Basic
import Mathlib.Data.Nat.ModEq

/-!
# The bytes of a ring

What each operation of a ring does to `Ring.toList`, wherever the unread bytes go around the end
of the cells. Distances below the number of cells lead to different cells (`add_mod_inj`), so
storing up to that many bytes changes the cells meant and no others.
-/

set_option autoImplicit false

namespace DeviceTelemetry.Ring

/-- Two distances from one position that lead to the same cell are equal if they differ by less
than the number of cells. -/
theorem add_mod_inj {cells position a b : Nat}
    (same : (position + a) % cells = (position + b) % cells)
    (ha : a < b + cells) (hb : b < a + cells) : a = b := by
  have aligned : a % cells = b % cells := Nat.ModEq.add_left_cancel' position same
  rcases Nat.le_total a b with le | le
  · have divides := (Nat.modEq_iff_dvd' le).mp aligned
    have := Nat.eq_zero_of_dvd_of_lt divides (by omega)
    omega
  · have divides := (Nat.modEq_iff_dvd' le).mp aligned.symm
    have := Nat.eq_zero_of_dvd_of_lt divides (by omega)
    omega

/-! ### Stored bytes -/

theorem getElem?_store_of_ne (cells : Array UInt8) (position i : Nat) (bs : Bytes)
    (other : ∀ k < bs.length, (position + k) % cells.size ≠ i) :
    (store cells position bs)[i]? = cells[i]? := by
  induction bs generalizing cells position with
  | nil => rfl
  | cons b bs ih =>
    rw [store, ih]
    · exact Array.getElem?_setIfInBounds_ne (other 0 (by simp))
    · intro k hk
      have := other (k + 1) (by simpa using hk)
      rw [Array.size_setIfInBounds, Nat.add_assoc, Nat.add_comm 1 k]
      exact this

theorem getElem?_store (cells : Array UInt8) (position k : Nat) (bs : Bytes)
    (hk : k < bs.length) (fits : bs.length ≤ cells.size) :
    (store cells position bs)[(position + k) % cells.size]? = some bs[k] := by
  induction bs generalizing cells position k with
  | nil => simp at hk
  | cons b bs ih =>
    simp only [List.length_cons] at hk fits
    have pos : 0 < cells.size := by omega
    cases k with
    | zero =>
      rw [store, getElem?_store_of_ne]
      · rw [Nat.add_zero, Array.getElem?_setIfInBounds_self_of_lt (Nat.mod_lt _ pos)]
        rfl
      · intro j hj same
        rw [Array.size_setIfInBounds, Nat.add_assoc] at same
        have := add_mod_inj same (by omega) (by omega)
        omega
    | succ k =>
      have := ih (cells.setIfInBounds (position % cells.size) b) (position + 1) k (by omega)
        (by rw [Array.size_setIfInBounds]; omega)
      rw [Array.size_setIfInBounds, Nat.add_assoc, Nat.add_comm 1 k] at this
      rw [store, this]
      rfl

/-! ### Slices -/

theorem size_cells_pos (r : Ring) : 0 < r.cells.size := Nat.zero_lt_of_lt r.start_lt

theorem getElem?_cells (r : Ring) (i : Nat) :
    r.cells[(r.start + i) % r.cells.size]? = some (r.byteAt i) := by
  have lt : (r.start + i) % r.cells.size < r.cells.size := Nat.mod_lt _ r.size_cells_pos
  rw [Array.getElem?_eq_getElem lt]
  rfl

@[simp] theorem length_slice (r : Ring) (offset length : Nat) :
    (r.slice offset length).length = length := by
  simp [slice]

@[simp] theorem length_toList (r : Ring) : r.toList.length = r.count := by
  simp [toList]

theorem getElem_slice (r : Ring) (offset length i : Nat) (h : i < (r.slice offset length).length) :
    (r.slice offset length)[i] = r.byteAt (offset + i) := by
  simp [slice]

theorem getElem_toList (r : Ring) (i : Nat) (h : i < r.toList.length) :
    r.toList[i] = r.byteAt i := by
  simp [toList, getElem_slice]

theorem slice_eq (r : Ring) (offset length : Nat) (h : offset + length ≤ r.count) :
    r.slice offset length = (r.toList.drop offset).take length := by
  apply List.ext_getElem
  · simp only [length_slice, List.length_take, List.length_drop, length_toList]
    omega
  · intro i _ _
    rw [getElem_slice, List.getElem_take, List.getElem_drop, getElem_toList]

/-! ### Changes -/

/-- Bytes written `back` places before the end are found there, and nothing else changes. -/
theorem byteAt_patch (r : Ring) (back : Nat) (bs : Bytes) (h : bs.length - back ≤ r.free)
    (hback : back ≤ r.count) (i : Nat) (hi : i < (r.patch back bs h).count) :
    (r.patch back bs h).byteAt i =
      if hk : r.count - back ≤ i ∧ i - (r.count - back) < bs.length then
        bs.get ⟨i - (r.count - back), hk.2⟩
      else r.byteAt i := by
  have room := r.count_le
  simp only [free] at h
  have total : (r.patch back bs h).count = r.count + (bs.length - back) := rfl
  rw [total] at hi
  have cell := (r.patch back bs h).getElem?_cells i
  have size : (r.patch back bs h).cells.size = r.cells.size := size_store ..
  rw [size] at cell
  apply Option.some.inj
  rw [← cell]
  show (store r.cells (r.start + r.count - back) bs)[(r.start + i) % r.cells.size]? = _
  rw [Nat.add_sub_assoc hback]
  split
  · rename_i hk
    rw [List.get_eq_getElem,
      ← getElem?_store r.cells (r.start + (r.count - back)) _ bs hk.2 (by omega)]
    congr 2
    omega
  · rename_i hk
    rw [getElem?_store_of_ne, getElem?_cells]
    intro k hlt same
    rw [Nat.add_assoc] at same
    have := add_mod_inj same (by omega) (by omega)
    omega

theorem toList_patch (r : Ring) (back : Nat) (bs : Bytes) (h : bs.length - back ≤ r.free)
    (hback : back ≤ r.count) :
    (r.patch back bs h).toList =
      r.toList.take (r.count - back) ++ (bs ++ r.toList.drop (r.count - back + bs.length)) := by
  apply List.ext_getElem
  · simp only [length_toList, List.length_append, List.length_take, List.length_drop, patch]
    omega
  · intro i hi _
    rw [getElem_toList, byteAt_patch r back bs h hback i (by simpa using hi)]
    split
    · rename_i hk
      have kept : (r.toList.take (r.count - back)).length = r.count - back := by simp
      rw [List.get_eq_getElem, List.getElem_append_right (by omega),
        List.getElem_append_left (by omega)]
      congr 1
      exact congrArg (i - ·) kept.symm
    · rename_i hk
      have kept : (r.toList.take (r.count - back)).length = r.count - back := by simp
      by_cases low : i < r.count - back
      · rw [List.getElem_append_left (by omega), List.getElem_take, getElem_toList]
      · rw [List.getElem_append_right (by omega), List.getElem_append_right (by omega),
          List.getElem_drop, getElem_toList]
        congr 1
        omega

theorem toList_append (r : Ring) (bs : Bytes) (h : bs.length ≤ r.free) :
    (r.append bs h).toList = r.toList ++ bs := by
  have whole : r.toList.take r.count = r.toList := List.take_of_length_le (by simp)
  have rest : r.toList.drop (r.count + bs.length) = [] := List.drop_eq_nil_of_le (by simp)
  have := r.toList_patch 0 bs h (Nat.zero_le _)
  rw [Nat.sub_zero, whole, rest, List.append_nil] at this
  exact this

theorem toList_dropFront (r : Ring) (length : Nat) :
    (r.dropFront length).toList = r.toList.drop length := by
  apply List.ext_getElem
  · simp [dropFront]
  · intro i _ _
    rw [getElem_toList, List.getElem_drop, getElem_toList]
    apply Option.some.inj
    rw [← getElem?_cells, ← getElem?_cells]
    simp only [dropFront, Nat.mod_add_mod, Nat.add_assoc]

theorem toList_dropBack (r : Ring) (length : Nat) :
    (r.dropBack length).toList = r.toList.take (r.count - length) := by
  apply List.ext_getElem
  · simp only [length_toList, List.length_take, dropBack]
    omega
  · intro i _ _
    rw [getElem_toList, List.getElem_take, getElem_toList]
    rfl

end DeviceTelemetry.Ring
