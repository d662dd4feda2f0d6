import DeviceTelemetry.Proofs.EventValue
import DeviceTelemetry.Proofs.RecordQueue.Contents
import DeviceTelemetry.Proofs.RecordQueue.Recording

/-!
# What is recorded can be read

The events of a device have numbers that can be written, and the kinds of their readings are in the
catalog. So every payload that recording an event adds to a store says all that there is to say
about the event (`events_decode_without_loss`).
-/

set_option autoImplicit false

namespace DeviceTelemetry

open Cbor (Value Item)

/-- A value in an event is what a metric shows, and the kind of the metric is enough to tell what
that is. -/
def Table.Shows (t : Table) (key : Nat) (v : Value) : Prop :=
  ∃ entry reading, t.catalog.metric? key = some entry ∧ t.value key = .ok reading ∧
    v = reading.value ∧ Reading.ofValue? entry.kind v = some reading

/-- The events that a device with a catalog reports. -/
inductive Catalog.Reports (c : Catalog) : Event → Prop
  | session (calls : List Table.Call) {number : Nat} (known : number < c.sessionCount) :
      c.Reports (((Table.ofCatalog c).performAll calls).2.sessionEvent number)
  | trace (t : Trace) : c.Reports (.trace t)

/-- The payload that some store gets when an event is recorded in it. -/
def Event.Written (device : Device) (e : Event) (payload : Bytes) : Prop :=
  ∃ (ν : Type) (_ : Nonvolatile ν) (s : RecordStore ν) (n : Nat), s.Reachable ∧
    (s.recordEvent device e).1 = .ok n ∧
      (s.recordEvent device e).2.payloads = s.payloads ++ [payload]

open Event (Written)

theorem Event.Written.eq_encode {device : Device} {e : Event} {payload : Bytes}
    (written : Written device e payload) :
    payload = e.encode device ∧ (e.encode device).length < 2 ^ 64 := by
  obtain ⟨ν, _, s, n, reachable, recorded, gained⟩ := written
  obtain ⟨q, h⟩ := reachable.exists_represents
  obtain ⟨-, -, fits, next⟩ := h.recordEvent_ok (Prod.ext recorded rfl)
  have small := fits.2.2
  have room : RecordStore.maxRecordSize < 2 ^ 64 := by decide
  rw [next.payloads_eq, h.payloads_eq, RecordQueue.records_recorded] at gained
  have same := List.append_cancel_left gained
  exact ⟨(List.singleton_inj.mp same).symm, by omega⟩

namespace Table

variable {t : Table}

theorem Fits.exists_slot_of_mem (fits : t.Fits) {session key : Nat}
    (member : key ∈ t.catalog.sessionKeys session) :
    ∃ e slot, t.catalog.metric? key = some e ∧ t.slots[key]? = some slot ∧ Slot.Fits e slot := by
  obtain ⟨e, metric, -⟩ := (Catalog.mem_sessionKeys.mp member).exists_metric
  obtain ⟨slot, found, fit⟩ := fits.exists_slot metric
  exact ⟨e, slot, metric, found, fit⟩

theorem value_of_slot {key : Nat} {slot : Slot} (found : t.slots[key]? = some slot) :
    t.value key = .ok slot.reading := by
  rw [value, slot_eq_ok.mpr found]
  rfl

end Table

theorem Slot.Fits.kind_reading {e : Catalog.Entry} {slot : Slot} (fits : Slot.Fits e slot) :
    slot.reading.kind = e.kind := by
  cases slot with
  | unsigned n => exact fits.symm
  | signed n => exact fits.symm
  | timer t => exact fits.1.symm
  | text limit s => exact fits.1.symm

theorem Slot.Fits.inRange {e : Catalog.Entry} {slot : Slot} (fits : Slot.Fits e slot) :
    slot.reading.InRange := by
  cases slot with
  | unsigned n => trivial
  | signed n => trivial
  | timer t =>
      have bound : Timer.maxElapsed < 2 ^ 64 := by decide
      simp only [Slot.reading, Timer.shown]
      split
      · exact Nat.lt_of_le_of_lt fits.2 bound
      · trivial
  | text limit s => trivial

namespace Table

variable {t : Table}

theorem Fits.forall₂_readings (fits : t.Fits) (session : Nat) :
    List.Forall₂ (fun key r => ∃ e slot, t.catalog.metric? key = some e ∧
        t.slots[key]? = some slot ∧ Slot.Fits e slot ∧ r = slot.reading)
      (t.catalog.sessionKeys session) (t.sessionReadings session) := by
  have each := fun key (mem : key ∈ t.catalog.sessionKeys session) => fits.exists_slot_of_mem mem
  rw [sessionReadings]
  generalize t.catalog.sessionKeys session = keys at each
  induction keys with
  | nil => exact .nil
  | cons key keys ih =>
      obtain ⟨e, slot, entry, found, fit⟩ := each key List.mem_cons_self
      rw [List.map_cons, found]
      exact .cons ⟨e, slot, entry, found, fit, rfl⟩
        (ih fun key' mem => each key' (List.mem_cons_of_mem key mem))

theorem Fits.forall₂_shows (fits : t.Fits) (session : Nat) :
    List.Forall₂ t.Shows (t.catalog.sessionKeys session)
      ((t.sessionReadings session).map Reading.value) := by
  rw [List.forall₂_map_right_iff]
  refine (fits.forall₂_readings session).imp ?_
  rintro key r ⟨e, slot, entry, found, fit, rfl⟩
  refine ⟨e, slot.reading, entry, value_of_slot found, rfl, ?_⟩
  rw [← fit.kind_reading]
  exact slot.reading.ofValue?_value

theorem Fits.kinds_eq (fits : t.Fits) (session : Nat) :
    ((t.sessionEvent session).kinds).map some =
      (t.catalog.sessionKeys session).map fun key =>
        (t.catalog.metric? key).map Catalog.Entry.kind := by
  rw [← List.forall₂_eq_eq_eq, List.forall₂_map_right_iff]
  show List.Forall₂ _ (((t.sessionReadings session).map Reading.kind).map some) _
  rw [List.map_map, List.forall₂_map_left_iff]
  refine (fits.forall₂_readings session).flip.imp ?_
  rintro r key ⟨e, slot, entry, found, fit, rfl⟩
  rw [entry, Option.map_some, ← fit.kind_reading]
  rfl

theorem Fits.inRange (fits : t.Fits) {session : Nat} (small : session < 2 ^ 64) :
    (t.sessionEvent session).InRange := by
  refine ⟨small, ?_⟩
  intro r mem
  obtain ⟨key, -, e, slot, -, -, fit, rfl⟩ := exists_of_forall₂ (fits.forall₂_readings session) mem
  exact fit.inRange

end Table

theorem Schema.session_lt {schema : Schema} {c : Catalog} (resolved : schema.catalog = .ok c)
    {session : Nat} (known : session < c.sessionCount) : session < 2 ^ 64 := by
  obtain ⟨declared, checked⟩ := Schema.exists_checked resolved
  have few := checked.fewSessions
  have bound : Catalog.maxSessions < 2 ^ 64 := by decide
  rw [Schema.sessionCount_eq resolved] at known
  omega

namespace Catalog.Reports

variable {schema : Schema} {c : Catalog} {e e' : Event}

theorem inRange (resolved : schema.catalog = .ok c) (reports : c.Reports e) : e.InRange := by
  cases reports with
  | session calls known =>
      exact (Table.fits_performAll c calls).inRange (Schema.session_lt resolved known)
  | trace t => trivial

/-- Events with the same contents have readings of the same kinds if the catalog is the same. -/
theorem kinds_eq (reports : c.Reports e) (reports' : c.Reports e') (same : e'.info = e.info) :
    e'.kinds = e.kinds := by
  cases reports with
  | session calls known =>
      cases reports' with
      | session calls' known' =>
          have catalog := (Table.follows_performAll (Table.ofCatalog c) calls).catalog
          have catalog' := (Table.follows_performAll (Table.ofCatalog c) calls').catalog
          have kinds := (Table.fits_performAll c calls).kinds_eq
          have kinds' := (Table.fits_performAll c calls').kinds_eq
          rw [catalog] at kinds
          rw [catalog'] at kinds'
          simp only [Event.info, Table.sessionEvent, Value.map.injEq, List.cons.injEq,
            Prod.mk.injEq, Value.unsigned.injEq] at same
          obtain ⟨⟨rfl, -⟩, -⟩ := same
          exact List.map_injective_iff.mpr (Option.some_injective _)
            ((kinds' _).trans (kinds _).symm)
      | trace t => simp [Event.info, Table.sessionEvent] at same
  | trace t =>
      cases reports' with
      | session calls' known' => simp [Event.info, Table.sessionEvent] at same
      | trace t' => rfl

end Catalog.Reports

theorem Event.Written.decode {device : Device} {e : Event} {payload : Bytes}
    (written : Written device e payload) (inRange : e.InRange) :
    Cbor.decode payload = some (e.value device) := by
  obtain ⟨rfl, small⟩ := written.eq_encode
  exact Event.decode_encode inRange small

/-- For all devices whose schema is valid, what is recorded can be decoded, and nothing is lost.
The event of a session is a map of seven pairs that ends in the session's number with an array of
one element for each metric of the session, from which the metric's present value is got back. A
trace ends in a map of its reason and those registers that are there. The bytes of two events are
the same only if their device and contents are, and then they are one event if they have one
catalog. -/
theorem events_decode_without_loss {schema : Schema} {c : Catalog}
    (resolved : schema.catalog = .ok c) :
    (∀ (calls : List Table.Call) (device : Device) (session : Nat) (payload : Bytes),
      session < c.sessionCount →
        let t := ((Table.ofCatalog c).performAll calls).2
        Written device (t.sessionEvent session) payload →
          ∃ elements, Cbor.decode payload = some (Event.document device 1
              (.map [(.unsigned session, .array elements)])) ∧
            List.Forall₂ t.Shows (c.sessionKeys session) elements) ∧
      (∀ (device : Device) (t : Trace) (payload : Bytes), Written device (.trace t) payload →
        Cbor.decode payload = some (Event.document device 2
          (.map ((.unsigned 6, .unsigned t.reason.toNat) ::
            Event.registerPairs 2 t.pc ++ Event.registerPairs 3 t.lr)))) ∧
      ∀ (schema' : Schema) (c' : Catalog) (device device' : Device) (e e' : Event)
        (payload : Bytes), schema'.catalog = .ok c' → c.Reports e → c'.Reports e' →
          Written device e payload → Written device' e' payload →
            device' = device ∧ e'.info = e.info ∧ (c' = c → e' = e) := by
  refine ⟨?_, ?_, ?_⟩
  · intro calls device session payload known t written
    have fits : t.Fits := Table.fits_performAll c calls
    have catalog : t.catalog = c := (Table.follows_performAll (Table.ofCatalog c) calls).catalog
    have shown := fits.forall₂_shows session
    rw [catalog] at shown
    exact ⟨_, written.decode (fits.inRange (Schema.session_lt resolved known)), shown⟩
  · intro device t payload written
    exact written.decode trivial
  · intro schema' c' device device' e e' payload resolved' reports reports' written written'
    have read := written.decode (reports.inRange resolved)
    rw [written'.decode (reports'.inRange resolved')] at read
    obtain ⟨rfl, info⟩ := Event.document_inj (Option.some.inj read).symm
    refine ⟨rfl, info, ?_⟩
    rintro rfl
    exact Event.eq_of_info_eq (reports.kinds_eq reports' info) info

/-- A session with a number below zero, a text outside of ASCII, a number that is not set and its
duration timer, which has never run. -/
theorem events_decode_without_loss_of_23 :
    let schema : Schema := {
      sessions := ["run"]
      metrics := [(MetricDef.signed "drift").inSession "run",
        (MetricDef.text "state" 4).inSession "run", (MetricDef.unsigned "count").inSession "run"] }
    ∃ c, schema.catalog = .ok c ∧
      let t := ((Table.ofCatalog c).performAll [.setSigned 0 (-5), .setText 1 "é"]).2
      let payload : Bytes := [0xA7, 2, 1, 3, 1, 7, 0x60, 10, 0x60, 9, 0x60, 6, 0x60, 4, 0xA1, 1,
        0x84, 0x24, 0x62, 0xC3, 0xA9, 0xF6, 0xF6]
      Written {} (t.sessionEvent 1) payload ∧
        ∃ elements, Cbor.decode payload = some (Event.document {} 1
            (.map [(.unsigned 1, .array elements)])) ∧
          List.Forall₂ t.Shows [0, 1, 2, 3] elements := by
  intro schema
  have resolved : schema.catalog = .ok _ := rfl
  refine ⟨_, resolved, ?_⟩
  intro t payload
  let s : RecordStore Empty := RecordStore.ofRing (Ring.zeroed 32 (by decide))
  have size : (s.recordEvent {} (t.sessionEvent 1)).1 = .ok 23 := by decide +kernel
  have gained : (s.recordEvent {} (t.sessionEvent 1)).2.payloads = s.payloads ++ [payload] := by
    decide +kernel
  have written : Written {} (t.sessionEvent 1) payload :=
    ⟨Empty, inferInstance, s, 23, ⟨32, s, [], rfl, rfl⟩, size, gained⟩
  refine ⟨written, ?_⟩
  exact (events_decode_without_loss resolved).1 _ {} 1 payload (by decide +kernel) written

end DeviceTelemetry
