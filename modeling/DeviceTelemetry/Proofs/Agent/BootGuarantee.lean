import DeviceTelemetry.Proofs.Agent.EmptyStore

/-!
# What a successful boot promises

Boot compares the largest event with the capacity of the store, but not with the largest record.
So after a boot with status `ok` an empty store takes every event that a record can hold
(`reports_after_boot`), hence all events if the largest ones are short enough
(`commits_after_boot`); a device with a long serial number can still be refused for ever.
-/

set_option autoImplicit false

namespace DeviceTelemetry.Agent

open RecordStore (headerSize maxRecordSize)

variable {ν : Type} [Nonvolatile ν]

/-- After a boot with status `ok`, whatever has happened since, an operation that reports an event
into an empty store records it exactly if the event fits a record; else it refuses the event. -/
theorem reports_after_boot {configuration : Configuration} {capacity : Nat} {platform : Platform}
    {a : Agent ν} (booted : boot configuration capacity platform = .ok a)
    (ok : a.bootStatus = .ok) {ops : List (Operation ν)} (calls : ∀ op ∈ ops, op.CallsOnly)
    (clear : (a.performAll ops).2.Clear) :
    let b := (a.performAll ops).2
    Reports configuration.device (b.currentEvent Catalog.heartbeat) Answer.done
        (Failure.metric (.outOfSpace Catalog.heartbeat)) (b.perform .heartbeat) ∧
      (∀ session key : Nat, b.durationKey session = .ok key →
        (b.afterEndHook session).table.isRunning key = .ok true →
          Reports configuration.device (b.endEvent session key) Answer.done
            (Failure.metric (.outOfSpace session)) (b.perform (.endSession session))) ∧
      ∀ t : Trace, Reports configuration.device (.trace t) Answer.done
        (Failure.trace .outOfSpace) (b.perform (.capture t)) := by
  intro b
  obtain ⟨c, valid, sound, status⟩ := boot_eq_ok booted
  have enough := status.mp ok
  have now : Sound c configuration.device capacity b := sound.performAll calls
  refine ⟨now.reports_heartbeat valid enough clear, ?_, ?_⟩
  · intro session key duration running
    exact now.reports_endSession valid enough clear duration running
  · intro t
    exact now.reports_capture enough clear t

/-- A session that has just begun over a store of 64 bytes. -/
theorem reports_after_boot_over_64 :
    let configuration : Configuration :=
      { device := {}, schema := { sessions := ["run"], metrics := [.unsigned "count"] } }
    ∃ a : Agent Empty, boot configuration 64 {} = .ok a ∧ a.bootStatus = .ok ∧
      let b := (a.performAll [.startSession 1]).2
      (b.perform .heartbeat).1 = .ok .done ∧ (b.perform (.endSession 1)).1 = .ok .done ∧
        (b.perform (.capture { reason := 7 })).1 = .ok .done := by
  intro configuration
  refine ⟨_, rfl, by decide, ?_⟩
  obtain ⟨beat, ended, captured⟩ := @reports_after_boot Empty _ configuration 64 {} _ rfl
    (by decide) [.startSession 1] (by simp [Operation.CallsOnly])
    ⟨by decide +kernel, by decide +kernel⟩
  refine ⟨?_, ?_, ?_⟩
  · exact (beat.kept (by decide +kernel)).1
  · exact ((ended 1 1 (by decide +kernel) (by decide +kernel)).kept (by decide +kernel)).1
  · exact ((captured { reason := 7 }).kept (by decide +kernel)).1

/-- If no event of the configuration can be too long for a record, all of them are recorded. -/
theorem commits_after_boot {configuration : Configuration} {capacity : Nat} {platform : Platform}
    {a : Agent ν} {c : Catalog} (booted : boot configuration capacity platform = .ok a)
    (ok : a.bootStatus = .ok) (valid : configuration.effectiveSchema.catalog = .ok c)
    (sessions : ∀ session, (c.largestEvent session).FitsRecord configuration.device)
    (traces : (Event.trace .largest).FitsRecord configuration.device)
    {ops : List (Operation ν)} (calls : ∀ op ∈ ops, op.CallsOnly)
    (clear : (a.performAll ops).2.Clear) :
    let b := (a.performAll ops).2
    (b.perform .heartbeat).1 = .ok .done ∧
      (∀ session key : Nat, b.durationKey session = .ok key →
        (b.afterEndHook session).table.isRunning key = .ok true →
          (b.perform (.endSession session)).1 = .ok .done) ∧
      ∀ t : Trace, (b.perform (.capture t)).1 = .ok .done := by
  intro b
  obtain ⟨c', valid', sound, status⟩ := boot_eq_ok booted
  obtain rfl : c' = c := Except.ok.inj (valid'.symm.trans valid)
  have enough := status.mp ok
  have now : Sound c' configuration.device capacity b := sound.performAll calls
  refine ⟨?_, ?_, ?_⟩
  · exact ((now.reports_heartbeat valid enough clear).kept
      (now.fitsRecord_currentEvent valid (sessions _))).1
  · intro session key duration running
    exact ((now.reports_endSession valid enough clear duration running).kept
      (now.fitsRecord_endEvent valid key (sessions session))).1
  · intro t
    have below := Event.length_trace_le_largest configuration.device t
    exact ((now.reports_capture enough clear t).kept
      (Nat.le_trans (Nat.add_le_add_right below _) traces)).1

/-! ### A device that is refused for ever -/

theorem size_of_long {serial : String} (long : Text.byteLength serial = 65600) {e : Event}
    (rest : Cbor.totalSize (e.items {}) ≤ 100) :
    e.size { serial := serial } = Cbor.totalSize (e.items {}) + 65604 := by
  have whole := Event.totalSize_items_serial serial e
  have text : (Cbor.Item.text serial).size = Cbor.headSize 65600 + 65600 := by
    rw [← long]
    rfl
  have head : Cbor.headSize 65600 = 5 := by decide
  have counted : 100 + 65604 ≤ Cbor.Encoder.maxCapacity := by decide
  rw [Event.size, Cbor.sizeOf_eq (by omega)]
  omega

theorem largestSize_of_long {c : Catalog} {serial : String}
    (valid : ({ metrics := [.unsigned "count"] } : Schema).catalog = .ok c)
    (long : Text.byteLength serial = 65600) : c.largestSize { serial := serial } = 65637 := by
  cases valid
  rw [Catalog.largestSize, Catalog.traceSize, size_of_long long (by decide)]
  show max _ (Event.size _ _) = _
  rw [size_of_long long (by decide)]
  decide

/-- A serial number of 65600 characters: the store is large enough for the largest event, but no
record is. -/
theorem boot_ok_refuses_heartbeat :
    let configuration : Configuration :=
      { device := { serial := String.ofList (List.replicate 65600 'x') }
        schema := { metrics := [.unsigned "count"] } }
    ∃ a : Agent Empty, boot configuration 70000 {} = .ok a ∧ a.bootStatus = .ok ∧ a.Clear ∧
      (a.perform .heartbeat).1 = .error (.metric (.outOfSpace Catalog.heartbeat)) := by
  have long := Text.byteLength_replicate 65600
  generalize String.ofList (List.replicate 65600 'x') = serial at long
  intro configuration
  obtain ⟨a, booted⟩ : ∃ a : Agent Empty, boot configuration 70000 {} = .ok a := ⟨_, rfl⟩
  obtain ⟨c, valid, sound, status⟩ := boot_eq_ok booted
  have named : Text.byteLength configuration.device.serial = 65600 := long
  have enough : c.largestSize configuration.device + headerSize ≤ 70000 := by
    rw [largestSize_of_long valid long]
    decide
  refine ⟨a, booted, status.mpr enough, clear_of_boot booted, ?_⟩
  apply ((sound.reports_heartbeat valid enough (clear_of_boot booted)).refused ?_).1
  intro short
  have above := Event.length_serial_le configuration.device (a.currentEvent Catalog.heartbeat)
  have limit : maxRecordSize = 65534 := rfl
  unfold Event.FitsRecord at short
  omega

end DeviceTelemetry.Agent
