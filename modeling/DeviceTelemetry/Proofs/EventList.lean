import DeviceTelemetry.Proofs.RecordQueue.Basic
import Mathlib.Algebra.GroupWithZero.Nat

/-!
# Non-volatile stores that are lists

An `EventList` is a non-volatile store whose contents can be told as a list of events: it shows and
drops the first, and an event that it takes goes to the end. Whether it can be used, and whether it
takes an event, is still its own affair. An `EventReader` also answers reads from its first event.
`EventQueue` is such a store.
-/

set_option autoImplicit false

namespace DeviceTelemetry

/-- The contents of a non-volatile store, and how its calls treat them. -/
class EventList (ν : Type) [Nonvolatile ν] where
  events : ν → List Bytes
  events_poll : ∀ b : ν, events (Nonvolatile.poll b).2 = events b
  oldest_eq : ∀ b : ν, (Nonvolatile.oldest b).1 = (events b).head?.map List.length
  events_oldest : ∀ b : ν, events (Nonvolatile.oldest b).2 = events b
  events_read : ∀ (b : ν) (offset length : Nat),
    events (Nonvolatile.read b offset length).2 = events b
  events_discard : ∀ b : ν, events (Nonvolatile.discard b) = (events b).tail
  events_write : ∀ (b : ν) (p : Bytes),
    events (Nonvolatile.write b p.length (RecordQueue.window p)).2 =
      if (Nonvolatile.write b p.length (RecordQueue.window p)).1 then events b ++ [p] else events b

class EventReader (ν : Type) [Nonvolatile ν] [EventList ν] : Prop where
  read_eq : ∀ (b : ν) (offset length : Nat), (Nonvolatile.read b offset length).1 =
    (EventList.events b).head?.bind fun e => RecordQueue.window e offset length

/-- Records taken one after the other end up behind the events in their order; the first that is
refused stays back with all behind it. -/
theorem RecordQueue.events_spill {ν : Type} [Nonvolatile ν] [EventList ν] (b : ν)
    (records : List Bytes) :
    EventList.events (spill b records).2 =
      EventList.events b ++ records.take (spill b records).1 := by
  induction records generalizing b with
  | nil => simp only [spill, List.take_nil, List.append_nil]
  | cons p ps ih =>
      have written := EventList.events_write b p
      rw [spill]
      generalize Nonvolatile.write b p.length (window p) = answer at written
      obtain ⟨taken, b'⟩ := answer
      cases taken with
      | false =>
          rw [List.take_zero, List.append_nil]
          exact written
      | true =>
          have rest := ih b'
          rw [List.take_succ_cons]
          exact rest.trans (by rw [written, if_pos rfl, List.append_assoc, List.singleton_append])

namespace EventQueue

theorem sum_pieceLengths (chunk size : Nat) : (pieceLengths chunk size).sum = size := by
  have whole := Nat.div_add_mod' size chunk
  rw [pieceLengths, List.sum_append, List.sum_replicate_nat]
  by_cases even : size % chunk = 0
  · rw [if_pos even, List.sum_nil, Nat.add_zero]
    omega
  · rw [if_neg even, List.sum_singleton]
    exact whole

theorem fetch_window (p : Bytes) (lengths : List Nat) (offset : Nat)
    (inside : offset + lengths.sum ≤ p.length) :
    fetch (RecordQueue.window p) offset lengths = some ((p.drop offset).take lengths.sum) := by
  induction lengths generalizing offset with
  | nil => rw [fetch, List.sum_nil, List.take_zero]
  | cons length lengths ih =>
      rw [List.sum_cons] at inside ⊢
      have piece : RecordQueue.window p offset length = some ((p.drop offset).take length) := by
        rw [RecordQueue.window, if_pos (by omega)]
      rw [fetch, piece]
      dsimp only
      rw [ih (offset + length) (by omega), Option.map_some, List.take_add, List.drop_drop]

theorem fetch_whole (p : Bytes) (chunk : Nat) :
    fetch (RecordQueue.window p) 0 (pieceLengths chunk p.length) = some p := by
  have total := sum_pieceLengths chunk p.length
  rw [fetch_window p _ 0 (by omega), total, List.drop_zero, List.take_length]

instance : EventList EventQueue where
  events := EventQueue.events
  events_poll := by intro b; rfl
  oldest_eq := by intro b; rfl
  events_oldest := by intro b; rfl
  events_read := by intro b offset length; rfl
  events_discard := by intro b; rfl
  events_write := by
    intro b p
    show (EventQueue.write b p.length (RecordQueue.window p)).2.events =
      if (EventQueue.write b p.length (RecordQueue.window p)).1 then _ else _
    simp only [EventQueue.write]
    split
    · rw [if_neg (by simp)]
    · rw [fetch_whole, if_pos rfl]

instance : EventReader EventQueue where
  read_eq := by
    intro b offset length
    show b.read offset length = b.events.head?.bind _
    simp only [EventQueue.read]
    cases b.events with
    | nil => rfl
    | cons e es => rfl

end EventQueue

end DeviceTelemetry
