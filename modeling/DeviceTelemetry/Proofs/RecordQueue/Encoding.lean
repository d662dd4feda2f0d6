import DeviceTelemetry.Proofs.Cbor.Encoding
import DeviceTelemetry.Proofs.RecordQueue.Recording

/-!
# Encoding into a transaction

An encoder over an open transaction meets a limit that its own capacity does not know of, the
largest size of a record. A text is sent in two pieces, so its head may fit into the record and its
bytes not; then the head stays (`Encoder.HeadStays`). In all other cases an item that is refused
leaves the transaction as it was (`Carries.put`). With a capacity within the limit of a record the
encoder is faithful (`faithful_store`).
-/

set_option autoImplicit false

namespace DeviceTelemetry

open RecordStore (headerSize maxRecordSize)
open Cbor (Item Encoder)

variable {ν : Type}

theorem RecordStore.append_of_refused {s : RecordStore ν} {bs : Bytes}
    (refused : (s.append bs).1 = false) : s.append bs = (false, s) := by
  unfold append at refused ⊢
  split
  · rfl
  · rename_i written underway
    rw [underway] at refused
    dsimp only at refused
    split at refused
    · cases refused
    · rw [dif_neg ‹_›]

/-- An item whose head fits into the record and whose bytes behind the head do not, although the
encoder has capacity for the whole of it. -/
def Cbor.Encoder.HeadStays {σ : Type} (e : Encoder σ) (item : Item) : Prop :=
  item.size ≤ e.capacity - e.size ∧ headerSize + e.size + item.headBytes.length ≤ maxRecordSize ∧
    maxRecordSize < headerSize + e.size + item.size

instance {σ : Type} (e : Encoder σ) (item : Item) : Decidable (e.HeadStays item) :=
  inferInstanceAs (Decidable (_ ∧ _ ∧ _))

theorem Cbor.Item.pieces_cases (item : Item) :
    item.pieces = [item.headBytes] ∨ ∃ body, item.pieces = [item.headBytes, body] := by
  cases item with
  | text s => exact .inr ⟨_, rfl⟩
  | unsigned n => exact .inl rfl
  | signed n => exact .inl rfl
  | null => exact .inl rfl
  | mapHead pairs => exact .inl rfl
  | arrayHead length => exact .inl rfl

theorem Cbor.Item.exists_pieces (item : Item) : ∃ rest, item.pieces = item.headBytes :: rest := by
  rcases item.pieces_cases with alone | ⟨body, both⟩
  · exact ⟨_, alone⟩
  · exact ⟨_, both⟩

theorem Cbor.Item.length_headBytes_le (item : Item) : item.headBytes.length ≤ item.size := by
  obtain ⟨rest, pieces⟩ := item.exists_pieces
  have sum := item.sum_pieces
  rw [pieces, List.map_cons, List.sum_cons] at sum
  omega

namespace RecordQueue

variable {q : RecordQueue ν} {s : RecordStore ν} {p : Bytes} {budget capacity : Nat}

theorem room_iff (space : q.capacity = (q.records.flatMap frame).length + headerSize + budget)
    (bs : Bytes) :
    q.Room p bs ↔ bs.length ≤ budget - p.length ∧
      headerSize + p.length + bs.length ≤ maxRecordSize := by
  rw [Room, free_of_opened]
  omega

theorem append_of_room (h : Represents s { q with opened := some p }) {bs : Bytes}
    (room : q.Room p bs) :
    ∃ s', s.append bs = (true, s') ∧ Represents s' { q with opened := some (p ++ bs) } := by
  obtain ⟨taken, next⟩ := h.append bs
  rw [append_of_opened, if_pos room] at taken next
  exact ⟨_, Prod.ext taken rfl, next⟩

theorem append_of_full (h : Represents s { q with opened := some p }) {bs : Bytes}
    (full : ¬q.Room p bs) : s.append bs = (false, s) := by
  obtain ⟨taken, -⟩ := h.append bs
  rw [append_of_opened, if_neg full] at taken
  exact RecordStore.append_of_refused taken

theorem send_of_full (h : Represents s { q with opened := some p }) {piece : Bytes}
    (full : ¬q.Room p piece) (pieces : List Bytes) (capacity : Nat) :
    Encoder.send (piece :: pieces) ⟨s, capacity, p.length⟩ =
      (.error (.outOfSpace piece.length (capacity - p.length)), ⟨s, capacity, p.length⟩) := by
  rw [Encoder.send, show Cbor.Sink.append s piece = s.append piece from rfl, append_of_full h full]

/-! ### One item -/

theorem put_of_headStays
    (space : q.capacity = (q.records.flatMap frame).length + headerSize + budget)
    (within : capacity ≤ budget) (h : Represents s { q with opened := some p }) {item : Item}
    (stays : (Encoder.mk s capacity p.length).HeadStays item) :
    ∃ s', s.append item.headBytes = (true, s') ∧
      Represents s' { q with opened := some (p ++ item.headBytes) } ∧
      Encoder.put ⟨s, capacity, p.length⟩ item =
        (.error (.outOfSpace (item.size - item.headBytes.length)
          (capacity - (p ++ item.headBytes).length)),
          ⟨s', capacity, (p ++ item.headBytes).length⟩) := by
  obtain ⟨fits, short, large⟩ := stays
  dsimp only at fits short large
  have smaller := item.length_headBytes_le
  have sum := item.sum_pieces
  have head : q.Room p item.headBytes := (room_iff space _).mpr ⟨by omega, short⟩
  obtain ⟨s', taken, next⟩ := append_of_room h head
  rcases item.pieces_cases with alone | ⟨body, pieces⟩
  · rw [alone, List.map_singleton, List.sum_singleton] at sum
    omega
  · rw [pieces, List.map_cons, List.map_singleton, List.sum_cons, List.sum_singleton] at sum
    have full : ¬q.Room (p ++ item.headBytes) body := by
      rw [room_append q p _ body head, room_iff space, List.length_append]
      omega
    have stopped := send_of_full next full [] capacity
    refine ⟨s', taken, next, (if_pos fits).trans ?_⟩
    rw [pieces, Encoder.send,
      show Cbor.Sink.append s item.headBytes = s.append item.headBytes from rfl, taken, ← sum,
      Nat.add_sub_cancel_left]
    rw [List.length_append] at stopped ⊢
    exact stopped

theorem put_of_refused (h : Represents s { q with opened := some p }) {item : Item}
    (full : ¬(item.size ≤ capacity - p.length ∧ q.Room p item.headBytes)) :
    ∃ error,
      Encoder.put ⟨s, capacity, p.length⟩ item = (.error error, ⟨s, capacity, p.length⟩) := by
  by_cases fits : item.size ≤ capacity - p.length
  · obtain ⟨rest, pieces⟩ := item.exists_pieces
    have stopped := send_of_full h (fun room => full ⟨fits, room⟩) rest capacity
    rw [← pieces] at stopped
    exact ⟨_, (if_pos fits).trans stopped⟩
  · exact ⟨_, if_neg fits⟩

/-! ### Sequences of items -/

/-- An encoder over the open transaction of a store. -/
structure Carries (q : RecordQueue ν) (c : Nat) (e : Encoder (RecordStore ν)) : Prop where
  capacity : e.capacity = c
  within : e.size ≤ c
  sent : ∃ p, Represents e.sink { q with opened := some p } ∧ e.size = p.length

def Undone (e : Encoder (RecordStore ν)) (item : Item) : Prop :=
  if e.HeadStays item then
    (e.put item).2.size = e.size + item.headBytes.length ∧
      e.sink.append item.headBytes = (true, (e.put item).2.sink)
  else (e.put item).2 = e

theorem Carries.put {e : Encoder (RecordStore ν)} (h : Carries q capacity e)
    (space : q.capacity = (q.records.flatMap frame).length + headerSize + budget)
    (within : capacity ≤ budget) (item : Item) :
    Carries q capacity (e.put item).2 ∧
      ((e.put item).1 = .ok () ∨ (∃ error, (e.put item).1 = .error error) ∧ Undone e item) := by
  obtain ⟨s, c, n⟩ := e
  obtain ⟨rfl, small, p, here, rfl⟩ := h
  dsimp only at small here within
  have length := item.length_encode
  have smaller := item.length_headBytes_le
  by_cases stays : (Encoder.mk s c p.length).HeadStays item
  · obtain ⟨s', taken, next, stopped⟩ := put_of_headStays space within here stays
    have fits : item.size ≤ c - p.length := stays.1
    have counted : (p ++ item.headBytes).length = p.length + item.headBytes.length :=
      List.length_append
    rw [Undone, if_pos stays, stopped]
    exact ⟨⟨rfl, by dsimp only; omega, _, next, rfl⟩, .inr ⟨⟨_, rfl⟩, counted, taken⟩⟩
  · by_cases room : item.size ≤ c - p.length ∧ q.Room p item.encode
    · obtain ⟨s', sent, next⟩ := (put_of_fits here room.1).sent room.2
      have counted : (p ++ item.encode).length = p.length + item.encode.length :=
        List.length_append
      rw [sent]
      exact ⟨⟨rfl, by dsimp only; omega, _, next, rfl⟩, .inl rfl⟩
    · have full : ¬(item.size ≤ c - p.length ∧ q.Room p item.headBytes) := by
        rintro ⟨fits, head⟩
        rw [room_iff space] at head room
        exact stays ⟨fits, head.2, by dsimp only; omega⟩
      obtain ⟨error, refused⟩ := put_of_refused here full
      rw [Undone, if_neg stays, refused]
      exact ⟨⟨rfl, small, p, here, rfl⟩, .inr ⟨⟨_, rfl⟩, rfl⟩⟩

theorem Carries.putEach {e : Encoder (RecordStore ν)} (h : Carries q capacity e)
    (space : q.capacity = (q.records.flatMap frame).length + headerSize + budget)
    (within : capacity ≤ budget) (items : List Item) : Carries q capacity (e.putEach items).2 := by
  induction items generalizing e with
  | nil => exact h
  | cons item items ih => exact ih (h.put space within item).1

/-- With a capacity within the limit of a record, an item that fits the one fits the other. -/
theorem faithful_store
    (space : q.capacity = (q.records.flatMap frame).length + headerSize + budget)
    (within : capacity ≤ min budget (maxRecordSize - headerSize)) :
    Encoder.Faithful (fun s p => Represents s { q with opened := some p }) capacity := by
  intro s p here small item
  split
  · rename_i fits
    have limit : headerSize ≤ maxRecordSize := by decide
    have room : q.Room p item.encode := by
      rw [room_iff space, item.length_encode]
      omega
    obtain ⟨s', taken, next⟩ := (put_of_fits here fits).sent room
    rw [List.length_append, item.length_encode] at taken
    exact ⟨s', taken, next⟩
  · rename_i large
    exact if_neg large

theorem Represents.begun {s' : RecordStore ν} (h : Represents s q)
    (begun : s.beginWrite = (budget, s')) (positive : 0 < budget) :
    Represents s' { q with opened := some [] } ∧
      q.capacity = (q.records.flatMap frame).length + headerSize + budget := by
  obtain ⟨same, opened⟩ := h.beginWrite
  rw [begun] at same opened
  dsimp only at same opened
  subst same
  by_cases opens : q.opened = none ∧ headerSize < q.free
  · obtain ⟨n, answer, space⟩ := beginWrite_of_closed opens.1 opens.2
    rw [answer] at opened ⊢
    exact ⟨opened, space⟩
  · rw [RecordQueue.beginWrite, if_neg opens] at positive
    cases positive

end RecordQueue

end DeviceTelemetry
