import DeviceTelemetry.Proofs.LargestEvent
import DeviceTelemetry.Proofs.RecordQueue.Recording

/-!
# What is recorded is no larger than announced

`Catalog.sessionSize` and `Catalog.traceSize` count the bytes of the largest events. Whatever has
been called on a table, the event of a session is recorded in no more bytes, and one table needs
just as many for every session; the same holds of traces.
-/

set_option autoImplicit false

namespace DeviceTelemetry

open Cbor (Item headSize headSize_mono totalSize)
open RecordQueue (Represents Fits)

/-! ### Traces -/

namespace Event

theorem totalSize_register_le (key : UInt64) (value : Option UInt32) :
    totalSize (register key value) ≤ (Item.unsigned key).size + 5 := by
  cases value with
  | none => exact Nat.zero_le _
  | some n => exact Nat.add_le_add_left (Reading.size_unsigned_le (some n)) _

theorem totalSize_body_trace_le (t : Trace) : totalSize (trace t).body ≤ 19 := by
  have few : (Item.mapHead (1 + t.pc.toList.length + t.lr.toList.length)).size ≤ 1 := by
    have pc : t.pc.toList.length ≤ 1 := by
      cases t.pc with
      | none => exact Nat.zero_le _
      | some n => exact Nat.le_refl _
    have lr : t.lr.toList.length ≤ 1 := by
      cases t.lr with
      | none => exact Nat.zero_le _
      | some n => exact Nat.le_refl _
    show (Cbor.head .map _).length ≤ 1
    rw [Cbor.length_head]
    exact headSize_mono (n := 3) (by omega)
  have reason : (Item.unsigned t.reason.toUInt64).size ≤ 5 :=
    Reading.size_unsigned_le (some t.reason)
  have pc := totalSize_register_le 2 t.pc
  have lr := totalSize_register_le 3 t.lr
  have two : (Item.unsigned 2).size = 1 := by decide
  have three : (Item.unsigned 3).size = 1 := by decide
  have six : (Item.unsigned 6).size = 1 := by decide
  rw [body, Cbor.totalSize_append, Cbor.totalSize_append, Cbor.totalSize_cons, Cbor.totalSize_cons,
    Cbor.totalSize_cons, Cbor.totalSize_nil]
  omega

theorem totalSize_body_largest : totalSize (trace .largest).body = 19 := by decide

theorem size_eq {device : Device} {e : Event}
    (small : totalSize (e.items device) ≤ Cbor.Encoder.maxCapacity) :
    e.size device = (e.encode device).length := by
  rw [size, Cbor.sizeOf_eq small, encode, Cbor.length_encodeAll]

/-- A payload that a record can hold is far from where the counting ends. -/
theorem size_eq_of_record {device : Device} {e : Event}
    (small : (e.encode device).length + RecordStore.headerSize ≤ RecordStore.maxRecordSize) :
    e.size device = (e.encode device).length := by
  apply size_eq
  rw [encode, Cbor.length_encodeAll] at small
  have below : RecordStore.maxRecordSize ≤ Cbor.Encoder.maxCapacity := by decide
  omega

theorem length_trace_le_largest (device : Device) (t : Trace) :
    ((trace t).encode device).length ≤ ((trace .largest).encode device).length := by
  have body := totalSize_body_trace_le t
  have whole : (trace t).items device = header device 2 ++ (trace t).body := rfl
  have largest : (trace .largest).items device = header device 2 ++ (trace .largest).body := rfl
  rw [encode, encode, Cbor.length_encodeAll, Cbor.length_encodeAll, whole, largest,
    Cbor.totalSize_append, Cbor.totalSize_append, totalSize_body_largest]
  omega

theorem length_trace_le {device : Device} {t : Trace}
    (small : ((trace t).encode device).length + RecordStore.headerSize ≤ RecordStore.maxRecordSize) :
    ((trace t).encode device).length ≤ Catalog.traceSize device := by
  have above := length_trace_le_largest device t
  have room : RecordStore.maxRecordSize + 19 ≤ Cbor.Encoder.maxCapacity := by decide
  have whole : (trace t).items device = header device 2 ++ (trace t).body := rfl
  have largest : (trace .largest).items device = header device 2 ++ (trace .largest).body := rfl
  have real : ((trace t).encode device).length = _ := Cbor.length_encodeAll _
  rw [whole, Cbor.totalSize_append] at real
  rw [Catalog.traceSize, size_eq]
  · exact above
  · rw [largest, Cbor.totalSize_append, totalSize_body_largest]
    omega

end Event

/-! ### Sessions -/

theorem Table.length_sessionEvent_le_largest {s : Schema} {t : Table}
    (valid : s.catalog = .ok t.catalog) (fits : t.Fits) (device : Device) (session : Nat) :
    ((t.sessionEvent session).encode device).length ≤
      ((t.catalog.largestEvent session).encode device).length := by
  have smaller := fits.forall₂_sessionReadings (R := fun r r' => r.item.size ≤ r'.item.size)
    (fun key e slot entry fit => fit.size_le (Schema.maxLength_le valid entry)) session
  rw [Event.encode, Event.encode, Cbor.length_encodeAll, Cbor.length_encodeAll]
  exact Event.totalSize_session_le device session smaller

/-- What a session shows takes no more bytes than announced, if a record can hold it. -/
theorem Table.length_sessionEvent_le {s : Schema} {t : Table} (valid : s.catalog = .ok t.catalog)
    (fits : t.Fits) {device : Device} {session : Nat}
    (small : ((t.sessionEvent session).encode device).length + RecordStore.headerSize ≤
      RecordStore.maxRecordSize) :
    ((t.sessionEvent session).encode device).length ≤ t.catalog.sessionSize device session := by
  have above := length_sessionEvent_le_largest valid fits device session
  have bounded := fits.forall₂_sessionReadings (R := fun _ r' => r'.item.size ≤ 257)
    (fun key e slot entry _ =>
      Catalog.Entry.size_largestReading_le (Schema.maxLength_le valid entry)) session
  have below := Event.totalSize_session_le_mul device session bounded
  have room : 257 * RecordStore.maxRecordSize ≤ Cbor.Encoder.maxCapacity := by decide
  have real : ((t.sessionEvent session).encode device).length = _ := Cbor.length_encodeAll _
  rw [Table.sessionEvent] at real small
  rw [Catalog.sessionSize, Event.size_eq]
  · exact above
  · rw [Catalog.largestEvent_eq]
    omega

theorem Table.size_sessionEvent_full {s : Schema} {c : Catalog} (valid : s.catalog = .ok c)
    (device : Device) (session : Nat) :
    ((full c).sessionEvent session).size device = c.sessionSize device session := by
  apply Event.size_session_congr
  have same := forall₂_sessionReadings (t := full c)
    (R := fun r r' => r.item.size = r'.item.size) ?_ session
  · rw [full_catalog] at same
    exact same
  · rw [full_catalog]
    exact fun key e metric => full_slots valid metric

variable {ν : Type}

/-- In every store, the event of a session is recorded in at most `sessionSize` bytes and a trace
in at most `traceSize` bytes, whatever has been called on the table. One history of calls leads to
events that take exactly `sessionSize` bytes in every store that they fit, for all sessions at
once, and one trace takes exactly `traceSize` bytes. -/
theorem recorded_size_le_and_attained {s : Schema} {c : Catalog} (resolved : s.catalog = .ok c)
    (device : Device) :
    (∀ (session : Nat) (calls : List Table.Call) (store store' : RecordStore ν)
        (q : RecordQueue ν) (n : Nat), Represents store q →
        let e := ((Table.ofCatalog c).performAll calls).2.sessionEvent session
        store.recordEvent device e = (.ok n, store') →
          store'.payloads = store.payloads ++ [e.encode device] ∧
            (e.encode device).length = n ∧ n ≤ c.sessionSize device session) ∧
      (∃ calls : List Table.Call, ∀ session : Nat,
        let e := ((Table.ofCatalog c).performAll calls).2.sessionEvent session
        e.size device = c.sessionSize device session ∧
          ∀ (store : RecordStore ν) (q : RecordQueue ν), Represents store q → q.opened = none →
            q.Fits (e.encode device) →
            (store.recordEvent device e).1 = .ok (c.sessionSize device session)) ∧
      (∀ (t : Trace) (store store' : RecordStore ν) (q : RecordQueue ν) (n : Nat),
        Represents store q → store.recordEvent device (.trace t) = (.ok n, store') →
          store'.payloads = store.payloads ++ [(Event.trace t).encode device] ∧
            ((Event.trace t).encode device).length = n ∧ n ≤ Catalog.traceSize device) ∧
      ∃ t : Trace, ∀ (store : RecordStore ν) (q : RecordQueue ν), Represents store q →
        q.opened = none → q.Fits ((Event.trace t).encode device) →
        (store.recordEvent device (.trace t)).1 = .ok (Catalog.traceSize device) := by
  refine ⟨?_, ⟨c.fill c.size, ?_⟩, ?_, ⟨.largest, ?_⟩⟩
  · intro session calls store store' q n h e recorded
    obtain ⟨size, closed, fits, next⟩ := h.recordEvent_ok recorded
    refine ⟨?_, size.symm, ?_⟩
    · rw [next.payloads_eq, h.payloads_eq, RecordQueue.records_recorded]
    · have catalog := (Table.follows_performAll (Table.ofCatalog c) calls).catalog
      have bound := Table.length_sessionEvent_le (s := s)
        (t := ((Table.ofCatalog c).performAll calls).2) (by rw [catalog]; exact resolved)
        (Table.fits_performAll c calls) fits.2.2
      rw [catalog] at bound
      rw [size]
      exact bound
  · intro session e
    have size : e.size device = c.sessionSize device session :=
      Table.size_sessionEvent_full resolved device session
    refine ⟨size, ?_⟩
    intro store q h closed fits
    obtain ⟨store', recorded, -⟩ := h.recordEvent_of_fits closed fits
    rw [recorded, ← size, Event.size_eq_of_record fits.2.2]
  · intro t store store' q n h recorded
    obtain ⟨size, closed, fits, next⟩ := h.recordEvent_ok recorded
    refine ⟨?_, size.symm, ?_⟩
    · rw [next.payloads_eq, h.payloads_eq, RecordQueue.records_recorded]
    · rw [size]
      exact Event.length_trace_le fits.2.2
  · intro store q h closed fits
    obtain ⟨store', recorded, -⟩ := h.recordEvent_of_fits closed fits
    rw [recorded, Catalog.traceSize, Event.size_eq_of_record fits.2.2]

/-- Two sessions, of which the second has its duration timer only. -/
theorem recorded_size_le_and_attained_at_22 :
    ∃ c, ({ sessions := ["run"], metrics := [.text "state" 3] } : Schema).catalog = .ok c ∧
      ∃ calls : List Table.Call,
        (((Table.ofCatalog c).performAll calls).2.sessionEvent 0).size {} = 21 ∧
          (((Table.ofCatalog c).performAll calls).2.sessionEvent 1).size {} = 22 := by
  refine ⟨_, rfl, ?_⟩
  obtain ⟨-, ⟨calls, attained⟩, -⟩ := @recorded_size_le_and_attained Empty
    { sessions := ["run"], metrics := [.text "state" 3] } _ rfl {}
  refine ⟨calls, ?_, ?_⟩
  · rw [(attained 0).1]
    decide
  · rw [(attained 1).1]
    decide

end DeviceTelemetry
