import DeviceTelemetry.Proofs.EncodedSize

/-!
# Encoding item by item

`Encoder.putEach` goes on after an item that is refused. An encoder is faithful to the bytes that it
has sent (`Faithful`) if it takes an item exactly when the whole of it fits and otherwise does
nothing; then all that it answers and all that it sends is told by the sizes of the items
(`Faithful.putEach`). Encoders that count and encoders that write to a buffer are faithful.
-/

set_option autoImplicit false

namespace DeviceTelemetry.Cbor.Encoder

section Steps

variable {σ : Type} [Sink σ]

/-- Encodes items one after the other, going on after refusals. The size is noted behind each
outcome. -/
def putEach (encoder : Encoder σ) :
    List Item → List (Except EncodeError Unit × Nat) × Encoder σ
  | [] => ([], encoder)
  | item :: items =>
    let (outcome, encoder) := encoder.put item
    let (steps, last) := encoder.putEach items
    ((outcome, encoder.size) :: steps, last)

/-- The items that an encoder takes if it goes on after refusals. -/
def accepted (encoder : Encoder σ) : List Item → List Item
  | [] => []
  | item :: items =>
    match encoder.put item with
    | (.ok _, encoder) => item :: encoder.accepted items
    | (.error _, encoder) => encoder.accepted items

end Steps

/-! ### Taking what fits -/

/-- The steps of taking every item that fits, with `size` bytes taken before. -/
def stepsOf (capacity : Nat) : Nat → List Item → List (Except EncodeError Unit × Nat)
  | _, [] => []
  | size, item :: items =>
    if item.size ≤ capacity - size then
      (.ok (), size + item.size) :: stepsOf capacity (size + item.size) items
    else (.error (.outOfSpace item.size (capacity - size)), size) :: stepsOf capacity size items

def fitting (capacity : Nat) : Nat → List Item → List Item
  | _, [] => []
  | size, item :: items =>
    if item.size ≤ capacity - size then item :: fitting capacity (size + item.size) items
    else fitting capacity size items

theorem totalSize_fitting_le {capacity size : Nat} (within : size ≤ capacity)
    (items : List Item) : size + totalSize (fitting capacity size items) ≤ capacity := by
  induction items generalizing size with
  | nil => exact within
  | cons item items ih =>
      rw [fitting]
      split
      · have more : size + item.size ≤ capacity := by omega
        have rest := ih more
        rw [totalSize_cons]
        omega
      · exact ih within

section Faithful

variable {σ : Type} [Sink σ]

/-- An encoder over a sink that has received some bytes takes an item exactly if the whole of it
fits; then the sink receives the encoding behind those bytes, and otherwise nothing changes. -/
def Faithful (received : σ → Bytes → Prop) (capacity : Nat) : Prop :=
  ∀ ⦃sink : σ⦄ ⦃p : Bytes⦄, received sink p → p.length ≤ capacity → ∀ item : Item,
    if item.size ≤ capacity - p.length then
      ∃ sink', put ⟨sink, capacity, p.length⟩ item =
          (.ok (), ⟨sink', capacity, p.length + item.size⟩) ∧ received sink' (p ++ item.encode)
    else put ⟨sink, capacity, p.length⟩ item =
      (.error (.outOfSpace item.size (capacity - p.length)), ⟨sink, capacity, p.length⟩)

variable {received : σ → Bytes → Prop} {capacity : Nat} {sink : σ} {p : Bytes}

theorem Faithful.put_eq_ok_iff (h : Faithful received capacity) (here : received sink p)
    (within : p.length ≤ capacity) (item : Item) :
    (put ⟨sink, capacity, p.length⟩ item).1 = .ok () ↔ item.size ≤ capacity - p.length := by
  have step := h here within item
  split at step
  · obtain ⟨sink', taken, -⟩ := step
    rw [taken]
    exact iff_of_true rfl ‹_›
  · rw [step]
    exact iff_of_false nofun ‹_›

theorem Faithful.put_of_error (h : Faithful received capacity) (here : received sink p)
    (within : p.length ≤ capacity) {item : Item} {e : EncodeError}
    (refused : (put ⟨sink, capacity, p.length⟩ item).1 = .error e) :
    (put ⟨sink, capacity, p.length⟩ item).2 = ⟨sink, capacity, p.length⟩ := by
  have step := h here within item
  split at step
  · obtain ⟨sink', taken, -⟩ := step
    rw [taken] at refused
    cases refused
  · rw [step]

/-- All that a faithful encoder answers and sends behind the bytes `p`. -/
structure Run (received : σ → Bytes → Prop) (capacity : Nat) (p : Bytes) (items : List Item)
    (encoder : Encoder σ) : Prop where
  steps : (encoder.putEach items).1 = stepsOf capacity p.length items
  accepted : encoder.accepted items = fitting capacity p.length items
  last : ∃ sink, received sink (p ++ encodeAll (fitting capacity p.length items)) ∧
    (encoder.putEach items).2 =
      ⟨sink, capacity, (p ++ encodeAll (fitting capacity p.length items)).length⟩

theorem Faithful.putEach (h : Faithful received capacity) (here : received sink p)
    (within : p.length ≤ capacity) (items : List Item) :
    Run received capacity p items ⟨sink, capacity, p.length⟩ := by
  induction items generalizing sink p with
  | nil =>
      refine ⟨rfl, rfl, sink, ?_⟩
      rw [fitting, encodeAll, List.flatMap_nil, List.append_nil]
      exact ⟨here, rfl⟩
  | cons item items ih =>
      have step := h here within item
      by_cases fits : item.size ≤ capacity - p.length
      · rw [if_pos fits] at step
        obtain ⟨sink', taken, here'⟩ := step
        have counted : (p ++ item.encode).length = p.length + item.size := by
          rw [List.length_append, Item.length_encode]
        obtain ⟨steps, accepted, last⟩ := ih here' (by omega)
        rw [counted] at steps accepted last
        refine ⟨?_, ?_, ?_⟩
        · rw [Encoder.putEach, taken, stepsOf, if_pos fits]
          exact congrArg _ steps
        · rw [Encoder.accepted, taken, fitting, if_pos fits]
          exact congrArg _ accepted
        · rw [Encoder.putEach, taken, fitting, if_pos fits, encodeAll, List.flatMap_cons,
            ← List.append_assoc]
          exact last
      · rw [if_neg fits] at step
        obtain ⟨steps, accepted, last⟩ := ih here within
        refine ⟨?_, ?_, ?_⟩
        · rw [Encoder.putEach, step, stepsOf, if_neg fits]
          exact congrArg _ steps
        · rw [Encoder.accepted, step, fitting, if_neg fits]
          exact accepted
        · rw [Encoder.putEach, step, fitting, if_neg fits]
          exact last

/-! A faithful encoder that has just been made: -/

theorem Faithful.steps_eq (h : Faithful received capacity) (new : received sink [])
    (items : List Item) : ((ofSink sink capacity).putEach items).1 = stepsOf capacity 0 items :=
  (h.putEach new (Nat.zero_le _) items).steps

theorem Faithful.accepted_eq (h : Faithful received capacity) (new : received sink [])
    (items : List Item) : (ofSink sink capacity).accepted items = fitting capacity 0 items :=
  (h.putEach new (Nat.zero_le _) items).accepted

theorem Faithful.exists_received (h : Faithful received capacity) (new : received sink [])
    (items : List Item) :
    (encodeAll (fitting capacity 0 items)).length ≤ capacity ∧
      ∃ sink', received sink' (encodeAll (fitting capacity 0 items)) ∧
        ((ofSink sink capacity).putEach items).2 =
          ⟨sink', capacity, (encodeAll (fitting capacity 0 items)).length⟩ := by
  refine ⟨?_, (h.putEach new (Nat.zero_le _) items).last⟩
  have within := totalSize_fitting_le (Nat.zero_le capacity) items
  rw [length_encodeAll]
  omega

/-- Whether an item is taken is told by what the accepted ones have left of the capacity. -/
theorem Faithful.takes_iff (h : Faithful received capacity) (new : received sink [])
    (before : List Item) (item : Item) :
    (((ofSink sink capacity).putEach before).2.put item).1 = .ok () ↔
      item.size ≤ capacity - (encodeAll (fitting capacity 0 before)).length := by
  obtain ⟨within, sink', here, last⟩ := h.exists_received new before
  rw [last]
  exact h.put_eq_ok_iff here within item

theorem Faithful.leaves_nothing (h : Faithful received capacity) (new : received sink [])
    (before : List Item) (item : Item) :
    let e := ((ofSink sink capacity).putEach before).2
    e.size ≤ capacity ∧ ∀ error, (e.put item).1 = .error error → (e.put item).2 = e := by
  intro e
  obtain ⟨within, sink', here, last⟩ := h.exists_received new before
  have reached : e = _ := last
  rw [reached]
  exact ⟨within, fun error refused => h.put_of_error here within refused⟩

end Faithful

/-! ### Counting and writing to a buffer -/

theorem faithful_tally (capacity : Nat) :
    Faithful (fun (tally : Tally) _ => tally = {}) capacity := by
  rintro _ p rfl _ item
  rw [put_tally]
  split
  · exact ⟨{}, rfl, rfl⟩
  · rfl

theorem send_buffer (pieces : List Bytes) (buffer : Array UInt8) (capacity size : Nat) :
    send pieces ⟨buffer, capacity, size⟩ =
      (.ok (), ⟨buffer ++ pieces.flatten.toArray, capacity,
        size + (pieces.map List.length).sum⟩) := by
  induction pieces generalizing buffer size with
  | nil =>
      rw [List.flatten_nil, Array.append_empty]
      rfl
  | cons piece pieces ih =>
      rw [List.map_cons, List.sum_cons, ← Nat.add_assoc, List.flatten_cons, ← List.append_toArray,
        ← Array.append_assoc]
      exact ih (buffer ++ piece.toArray) (size + piece.length)

theorem faithful_buffer (buffer : Array UInt8) (capacity : Nat) :
    Faithful (fun (b : Array UInt8) p => b = buffer ++ p.toArray) capacity := by
  rintro _ p rfl _ item
  rw [put]
  dsimp only
  rw [send_buffer, Item.sum_pieces]
  split
  · refine ⟨_, rfl, ?_⟩
    rw [Array.append_assoc, List.append_toArray p]
    rfl
  · rfl

end DeviceTelemetry.Cbor.Encoder
