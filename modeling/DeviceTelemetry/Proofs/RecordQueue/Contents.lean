import DeviceTelemetry.Proofs.EventList
import DeviceTelemetry.Proofs.RecordQueue.Refinement

/-!
# What a store holds

`RecordStore.payloads` reads the finished records of a store, `RecordStore.events` those of its
non-volatile store, and `RecordStore.holdings` puts the two together in the order in which they are
read while the non-volatile store can be used. The payloads are the records of every queue that
the store represents.
-/

set_option autoImplicit false

namespace DeviceTelemetry

open RecordStore (headerSize)

variable {ν : Type}

/-- The payloads of at most `count` finished records, the first of which starts `offset` bytes
into the ring. -/
def RecordStore.payloadsFrom (s : RecordStore ν) (offset : Nat) : Nat → List Bytes
  | 0 => []
  | count + 1 =>
    match s.recordAt offset with
    | none => []
    | some size =>
      (s.ring.toList.drop (offset + headerSize)).take (size - headerSize) ::
        s.payloadsFrom (offset + size) count

def RecordStore.payloads (s : RecordStore ν) : List Bytes := s.payloadsFrom 0 s.ring.count

namespace RecordQueue.Represents

variable {s : RecordStore ν} {q : RecordQueue ν}

theorem payload_at (h : Represents s q) {n : Nat} {p : Bytes} (here : q.records[n]? = some p) :
    (s.ring.toList.drop (span q.records n + headerSize)).take p.length = p := by
  rw [← List.drop_drop, h.drop_span, drop_eq_cons q.records here, imageOf, List.flatMap_cons,
    List.append_assoc]
  exact (congrArg (List.take p.length) (drop_frame p _ 0)).trans List.take_left

theorem payloadsFrom_span (h : Represents s q) {n count : Nat} (place : n ≤ q.records.length)
    (enough : q.records.length ≤ n + count) :
    s.payloadsFrom (span q.records n) count = q.records.drop n := by
  induction count generalizing n with
  | zero =>
      rw [RecordStore.payloadsFrom, List.drop_eq_nil_of_le (by omega)]
  | succ count ih =>
      have next := h.recordAt_span place
      rw [RecordStore.payloadsFrom, next]
      cases here : q.records[n]? with
      | none =>
          rw [List.drop_eq_nil_of_le (List.getElem?_eq_none_iff.mp here)]
          rfl
      | some p =>
          obtain ⟨inside, -⟩ := List.getElem?_eq_some_iff.mp here
          have rest := ih (n := n + 1) inside (by omega)
          rw [span_succ q.records here] at rest
          simp only [Option.map_some, Nat.add_sub_cancel]
          rw [h.payload_at here, rest, drop_eq_cons q.records here]

theorem payloads_eq (h : Represents s q) : s.payloads = q.records := by
  have enough := length_le_image q.records q.opened
  rw [← RecordQueue.image, ← h.count_eq] at enough
  exact h.payloadsFrom_span (n := 0) (Nat.zero_le _) (by omega)

end RecordQueue.Represents

/-! ### Reachable stores -/

/-- A store that some history leads to. -/
def RecordStore.Reachable [Nonvolatile ν] (s : RecordStore ν) : Prop :=
  ∃ capacity fresh ops, RecordStore.ofCapacity capacity = .ok fresh ∧ s = (fresh.performAll ops).2

theorem RecordStore.Reachable.exists_represents [Nonvolatile ν] {s : RecordStore ν}
    (reachable : s.Reachable) : ∃ q, RecordQueue.Represents s q := by
  obtain ⟨capacity, fresh, ops, made, rfl⟩ := reachable
  exact ⟨_, ((RecordQueue.represents_ofCapacity made).performAll ops).2⟩

/-! ### Behind a non-volatile store -/

variable [Nonvolatile ν] [EventList ν]

def eventsOf (backing : Option ν) : List Bytes := (backing.map EventList.events).getD []

def RecordStore.events (s : RecordStore ν) : List Bytes := eventsOf s.backing

def RecordQueue.events (q : RecordQueue ν) : List Bytes := eventsOf q.backing

/-- Everything that waits to be read: the events, then the records. -/
def RecordStore.holdings (s : RecordStore ν) : List Bytes := s.events ++ s.payloads

theorem RecordQueue.Represents.events_eq {s : RecordStore ν} {q : RecordQueue ν}
    (h : Represents s q) : s.events = q.events :=
  congrArg eventsOf h.backing

theorem RecordQueue.Represents.holdings_eq {s : RecordStore ν} {q : RecordQueue ν}
    (h : Represents s q) : s.holdings = q.events ++ q.records := by
  rw [RecordStore.holdings, h.events_eq, h.payloads_eq]

end DeviceTelemetry
