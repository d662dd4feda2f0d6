import DeviceTelemetry.Proofs.CatalogLaws
import DeviceTelemetry.Proofs.TableSteps

/-!
# What calls of a table answer and change

A call on one metric is told by the slot of the metric alone: which kinds it works on
(`Call.kinds`), and what it answers and leaves there (`Call.onSlot`). So it is refused for reasons
that can be named beforehand (`Table.refusal?`), and no other slot changes. The calls on whole
sessions are told slot by slot.
-/

set_option autoImplicit false

namespace DeviceTelemetry

namespace Slot

/-- Additions to a number are exact and end at its bounds. -/
theorem toNat_addUnsigned (n : UInt32) (amount : Int32) :
    ((addUnsigned n amount).toNat : Int) = max 0 (min (n.toNat + amount.toInt) 0xFFFFFFFF) := by
  have small : (min (n.toNat + amount.toInt) 0xFFFFFFFF).toNat < UInt32.size := by
    have size : UInt32.size = 0x100000000 := rfl
    omega
  rw [addUnsigned, UInt32.toNat_ofNat_of_lt' small]
  omega

theorem toInt_addSigned (n amount : Int32) :
    (addSigned n amount).toInt = max (-0x80000000) (min (n.toInt + amount.toInt) 0x7FFFFFFF) := by
  rw [addSigned, Int32.toInt_ofInt_of_le]
  · omega
  · omega

end Slot

theorem MetricKind.mem_all (k : MetricKind) : k ∈ MetricKind.all := by
  cases k <;> decide

namespace Table

/-! ### Calls on one slot -/

namespace Call

def key? : Call → Option Nat
  | setUnsigned key _ | setSigned key _ | setText key _ | add key _ => some key
  | startTimer key _ | stopTimer key _ | isRunning key | readTimer key _ => some key
  | readUnsigned key | readSigned key | readText key | kindOf key | value key => some key
  | tallySession _ _ | resetSession _ | resetAll => none

/-- The kinds of metric that a call works on. The first one is named when it is refused. -/
def kinds : Call → List MetricKind
  | setUnsigned _ _ | readUnsigned _ => [.unsigned]
  | setSigned _ _ | readSigned _ => [.signed]
  | setText _ _ | readText _ => [.text]
  | add _ _ => [.unsigned, .signed]
  | startTimer _ _ | stopTimer _ _ | isRunning _ | readTimer _ _ => [.timer]
  | kindOf _ | value _ | tallySession _ _ | resetSession _ | resetAll => MetricKind.all

/-- What a call answers and leaves on a slot of one of its kinds; nothing if a timer is in the
requested state already. -/
def onSlot : Call → Slot → Option (Answer × Slot)
  | setUnsigned _ n, .unsigned _ => some (.done, .unsigned (some n))
  | setSigned _ n, .signed _ => some (.done, .signed (some n))
  | setText _ s, .text limit _ => some (.done, .text limit (Text.truncate s limit))
  | add _ amount, .unsigned n =>
    some (.done, .unsigned (some (Slot.addUnsigned (n.getD 0) amount)))
  | add _ amount, .signed n => some (.done, .signed (some (Slot.addSigned (n.getD 0) amount)))
  | startTimer _ now, .timer t => (t.start? now).map fun t => (.done, .timer t)
  | stopTimer _ now, .timer t => (t.stop? now).map fun t => (.done, .timer t)
  | isRunning _, .timer t => some (.flag t.isRunning, .timer t)
  | readTimer _ now, .timer t => some (.time (t.tally now).elapsed, .timer (t.tally now))
  | readUnsigned _, .unsigned n => some (.unsigned n, .unsigned n)
  | readSigned _, .signed n => some (.signed n, .signed n)
  | readText _, .text limit s => some (.text s, .text limit s)
  | kindOf _, slot => some (.kind slot.kind, slot)
  | value _, slot => some (.reading slot.reading, slot)
  | _, _ => none

end Call

variable {t : Table} {call : Call} {key : Nat}

theorem slot_of_missing (missing : t.slots[key]? = none) :
    t.slot key = .error (.keyNotFound key) := by
  rw [slot, missing]

theorem set_self {slot : Slot} (found : t.slots[key]? = some slot) : t.set key slot = t := by
  have same : t.slots.setIfInBounds key slot = t.slots := by
    apply Array.ext_getElem?
    intro key'
    have := slots_set found slot key'
    rw [set] at this
    rw [this]
    split
    · rename_i here
      rw [here, found]
    · rfl
  rw [set, same]

theorem perform_of_missing (keyed : call.key? = some key) (missing : t.slots[key]? = none) :
    t.perform call = (.error (.keyNotFound key), t) := by
  have absent := slot_of_missing missing
  cases call with
  | tallySession session now => cases keyed
  | resetSession session => cases keyed
  | resetAll => cases keyed
  | _ =>
      cases keyed
      simp only [perform, setUnsigned, setSigned, setText, add, startTimer, stopTimer,
        Table.isRunning, readTimer, readUnsigned, readSigned, readText, Table.kindOf, Table.value]
      rw [absent]
      rfl

theorem perform_of_other_kind {slot : Slot} (keyed : call.key? = some key)
    (found : t.slots[key]? = some slot) (other : slot.kind ∉ call.kinds) :
    ∃ expected ∈ call.kinds.head?,
      t.perform call = (.error (.typeMismatch key expected slot.kind), t) := by
  have here := slot_eq_ok.mpr found
  cases call with
  | tallySession session now => cases keyed
  | resetSession session => cases keyed
  | resetAll => cases keyed
  | kindOf key => exact absurd (MetricKind.mem_all slot.kind) other
  | value key => exact absurd (MetricKind.mem_all slot.kind) other
  | _ =>
      cases keyed
      refine ⟨_, rfl, ?_⟩
      simp only [perform, setUnsigned, setSigned, setText, add, startTimer, stopTimer,
        Table.isRunning, readTimer, readUnsigned, readSigned, readText]
      rw [here]
      -- the slots that the call works on are not of another kind
      cases slot <;> simp [Call.kinds, Slot.kind] at other <;> rfl

/-- A call on a metric of a kind that it works on is told by the slot alone. -/
theorem perform_of_kind {slot : Slot} (keyed : call.key? = some key)
    (found : t.slots[key]? = some slot) (works : slot.kind ∈ call.kinds) :
    t.perform call =
      match call.onSlot slot with
      | some (answer, slot') => (.ok answer, t.set key slot')
      | none => (.error (.noChange key), t) := by
  have here := slot_eq_ok.mpr found
  have kept := set_self found
  cases call with
  | tallySession session now => cases keyed
  | resetSession session => cases keyed
  | resetAll => cases keyed
  | startTimer key now =>
      cases keyed
      simp only [perform, startTimer]
      rw [here]
      cases slot with
      | timer timer =>
          simp only [bind, Except.bind, Call.onSlot]
          cases timer.start? now with
          | none => rfl
          | some timer' => rfl
      | _ => simp [Call.kinds, Slot.kind] at works
  | stopTimer key now =>
      cases keyed
      simp only [perform, stopTimer]
      rw [here]
      cases slot with
      | timer timer =>
          simp only [bind, Except.bind, Call.onSlot]
          cases timer.stop? now with
          | none => rfl
          | some timer' => rfl
      | _ => simp [Call.kinds, Slot.kind] at works
  | kindOf key =>
      cases keyed
      simp only [perform, Table.kindOf, Call.onSlot]
      rw [here, kept]
      rfl
  | value key =>
      cases keyed
      simp only [perform, Table.value, Call.onSlot]
      rw [here, kept]
      rfl
  | _ =>
      cases keyed
      simp only [perform, setUnsigned, setSigned, setText, add, Table.isRunning, readTimer,
        readUnsigned, readSigned, readText]
      rw [here]
      -- reading leaves the slot that it finds
      cases slot <;> simp [Call.kinds, Slot.kind] at works <;> simp [Call.onSlot, kept] <;> rfl

/-! ### Refusals -/

/-- Whether a call asks a timer for the state in which it is. -/
def Call.Asks (t : Table) : Call → Prop
  | startTimer key _ => t.isRunning key = .ok true
  | stopTimer key _ => t.isRunning key = .ok false
  | _ => False

instance (t : Table) : (call : Call) → Decidable (call.Asks t)
  | .startTimer _ _ => inferInstanceAs (Decidable (_ = _))
  | .stopTimer _ _ => inferInstanceAs (Decidable (_ = _))
  | .setUnsigned _ _ | .setSigned _ _ | .setText _ _ | .add _ _ | .isRunning _ | .readTimer _ _
  | .readUnsigned _ | .readSigned _ | .readText _ | .kindOf _ | .value _ | .tallySession _ _
  | .resetSession _ | .resetAll => inferInstanceAs (Decidable False)

def refusal? (t : Table) (call : Call) (key : Nat) : Option MetricError :=
  match t.catalog.metric? key with
  | none => some (.keyNotFound key)
  | some e =>
    if e.kind ∈ call.kinds then if call.Asks t then some (.noChange key) else none
    else call.kinds.head?.map fun expected => .typeMismatch key expected e.kind

theorem onSlot_eq_none_iff {slot : Slot} (keyed : call.key? = some key)
    (found : t.slots[key]? = some slot) (works : slot.kind ∈ call.kinds) :
    call.onSlot slot = none ↔ call.Asks t := by
  cases call with
  | tallySession session now => cases keyed
  | resetSession session => cases keyed
  | resetAll => cases keyed
  | startTimer key now =>
      cases keyed
      cases slot with
      | timer timer =>
          have running : t.isRunning key = .ok timer.isRunning :=
            isRunning_eq_ok.mpr ⟨_, found, rfl⟩
          simp only [Call.onSlot, Call.Asks, Option.map_eq_none_iff]
          rw [running, Timer.start?, Timer.isRunning]
          cases timer.startedAt with
          | none => simp
          | some start => simp
      | _ => simp [Call.kinds, Slot.kind] at works
  | stopTimer key now =>
      cases keyed
      cases slot with
      | timer timer =>
          have running : t.isRunning key = .ok timer.isRunning :=
            isRunning_eq_ok.mpr ⟨_, found, rfl⟩
          simp only [Call.onSlot, Call.Asks, Option.map_eq_none_iff]
          rw [running, Timer.stop?, Timer.isRunning]
          cases timer.startedAt with
          | none => simp
          | some start => simp
      | _ => simp [Call.kinds, Slot.kind] at works
  | kindOf key => simp [Call.onSlot, Call.Asks]
  | value key => simp [Call.onSlot, Call.Asks]
  | _ =>
      cases slot <;> simp [Call.kinds, Slot.kind] at works <;> simp [Call.onSlot, Call.Asks]

/-- The slot of a metric is of the metric's kind, and there is none without a metric. -/
theorem Fits.kind_eq (fits : t.Fits) (key : Nat) :
    t.slots[key]?.map Slot.kind = (t.catalog.metric? key).map Catalog.Entry.kind := by
  have fit := fits key
  generalize t.catalog.metric? key = e at fit ⊢
  generalize t.slots[key]? = slot at fit ⊢
  cases fit with
  | none => rfl
  | some fit =>
      rename_i e slot
      cases slot with
      | unsigned n => exact congrArg some fit.symm
      | signed n => exact congrArg some fit.symm
      | timer timer => exact congrArg some fit.1.symm
      | text limit s => exact congrArg some fit.1.symm

/-- A call on a metric is refused for the reason that can be named beforehand, and otherwise
answers. -/
theorem Fits.perform_cases (fits : t.Fits) (keyed : call.key? = some key) :
    (∃ e ∈ t.refusal? call key, t.perform call = (.error e, t)) ∨
      t.refusal? call key = none ∧ ∃ answer slot slot', t.slots[key]? = some slot ∧
        slot.kind ∈ call.kinds ∧ call.onSlot slot = some (answer, slot') ∧
          t.perform call = (.ok answer, t.set key slot') := by
  have kind := fits.kind_eq key
  cases found : t.slots[key]? with
  | none =>
      rw [found, Option.map_none, eq_comm, Option.map_eq_none_iff] at kind
      refine .inl ⟨.keyNotFound key, ?_, perform_of_missing keyed found⟩
      rw [refusal?, kind]
      rfl
  | some slot =>
      rw [found, Option.map_some, eq_comm, Option.map_eq_some_iff] at kind
      obtain ⟨e, entry, kind⟩ := kind
      by_cases works : slot.kind ∈ call.kinds
      · have performed := perform_of_kind keyed found works
        have asks := onSlot_eq_none_iff keyed found works
        cases outcome : call.onSlot slot with
        | none =>
            rw [outcome] at performed
            refine .inl ⟨.noChange key, ?_, performed⟩
            rw [refusal?, entry]
            dsimp only
            rw [kind, if_pos works, if_pos (asks.mp outcome)]
            rfl
        | some pair =>
            obtain ⟨answer, slot'⟩ := pair
            rw [outcome] at performed
            have free : ¬call.Asks t := by
              rw [← asks, outcome]
              exact nofun
            refine .inr ⟨?_, answer, slot, slot', rfl, works, outcome, performed⟩
            rw [refusal?, entry]
            dsimp only
            rw [kind, if_pos works, if_neg free]
      · obtain ⟨expected, first, performed⟩ := perform_of_other_kind keyed found works
        refine .inl ⟨.typeMismatch key expected slot.kind, ?_, performed⟩
        rw [refusal?, entry]
        dsimp only
        rw [kind, if_neg works, Option.mem_def.mp first]
        rfl

theorem Fits.perform_eq_error_iff (fits : t.Fits) (keyed : call.key? = some key)
    (e : MetricError) : (t.perform call).1 = .error e ↔ t.refusal? call key = some e := by
  rcases fits.perform_cases keyed with
    ⟨e', refused, performed⟩ | ⟨free, answer, slot, slot', -, -, -, performed⟩
  · rw [performed, Option.mem_def.mp refused, Except.error.injEq, Option.some.injEq]
  · rw [performed, free]
    constructor
    · intro bad
      cases bad
    · intro bad
      cases bad

theorem Fits.perform_of_error (fits : t.Fits) (keyed : call.key? = some key) {e : MetricError}
    (refused : (t.perform call).1 = .error e) : (t.perform call).2 = t := by
  rcases fits.perform_cases keyed with
    ⟨e', -, performed⟩ | ⟨-, answer, slot, slot', -, -, -, performed⟩
  · rw [performed]
  · rw [performed] at refused
    cases refused

theorem Fits.slots_perform_of_ne (fits : t.Fits) (keyed : call.key? = some key) {other : Nat}
    (elsewhere : other ≠ key) : (t.perform call).2.slots[other]? = t.slots[other]? := by
  rcases fits.perform_cases keyed with
    ⟨e', -, performed⟩ | ⟨-, answer, slot, slot', found, -, -, performed⟩
  · rw [performed]
  · rw [performed, slots_set found, if_neg elsewhere]

/-! ### Calls on whole sessions -/

theorem slots_mapSession (t : Table) (session : Nat) (f : Slot → Slot) (key : Nat) :
    (t.mapSession session f).slots[key]? =
      if t.catalog.InSession session key then t.slots[key]?.map f else t.slots[key]? := by
  rw [getElem?_mapSession]
  split
  · rfl
  · exact Option.map_id'

/-- Adding up times changes the timers that are running and nothing else. -/
theorem isRunning_of_tally_ne {slot : Slot} {now : UInt64} (found : t.slots[key]? = some slot)
    (changed : slot.tally now ≠ slot) : t.isRunning key = .ok true := by
  cases slot with
  | timer timer =>
      refine isRunning_eq_ok.mpr ⟨timer, found, ?_⟩
      by_contra stopped
      rw [Timer.isRunning, Bool.not_eq_true, Option.isSome_eq_false_iff, Option.isNone_iff_eq_none]
        at stopped
      apply changed
      rw [Slot.tally, Timer.tally, stopped]
  | unsigned n => exact absurd rfl changed
  | signed n => exact absurd rfl changed
  | text limit s => exact absurd rfl changed

end Table

def Slot.startedAt? : Slot → Option Nat
  | timer t => t.startedAt
  | _ => none

namespace Table

/-- A table is a typed map, whatever is called. There is a slot for each metric of the catalog, of
the metric's kind. A call on a key is refused for the reason that the catalog and the state of the
timer give (`refusal?`), and then the table stays as it was; if it succeeds, no other slot changes.
Additions are exact up to the bounds of their kind. Adding up the times of a session changes
running timers of that session only; resetting it leaves nothing recorded in its slots, with
running timers going on from where they were, and changes no other slot. -/
theorem performAll_typed_map (c : Catalog) (calls : List Call) :
    let t := ((ofCatalog c).performAll calls).2
    t.catalog = c ∧
      (∀ key : Nat, t.slots[key]?.map Slot.kind = (c.metric? key).map Catalog.Entry.kind) ∧
      (∀ (call : Call) (key : Nat), call.key? = some key →
        (∀ e, (t.perform call).1 = .error e ↔ t.refusal? call key = some e) ∧
          (∀ e, (t.perform call).1 = .error e → (t.perform call).2 = t) ∧
          ∀ other : Nat, other ≠ key → (t.perform call).2.slots[other]? = t.slots[other]?) ∧
      (∀ (key : Nat) (amount : Int32),
        (∀ n, t.slots[key]? = some (.unsigned n) → ∃ sum : UInt32,
          t.perform (.add key amount) = (.ok .done, t.set key (.unsigned (some sum))) ∧
            (sum.toNat : Int) = max 0 (min ((n.getD 0).toNat + amount.toInt) 0xFFFFFFFF)) ∧
        ∀ n, t.slots[key]? = some (.signed n) → ∃ sum : Int32,
          t.perform (.add key amount) = (.ok .done, t.set key (.signed (some sum))) ∧
            sum.toInt = max (-0x80000000) (min ((n.getD 0).toInt + amount.toInt) 0x7FFFFFFF)) ∧
      (∀ (session : Nat) (now : UInt64) (key : Nat),
        (t.tallySession session now).slots[key]? ≠ t.slots[key]? →
          key ∈ c.sessionKeys session ∧ t.isRunning key = .ok true) ∧
      ∀ (session key : Nat) (slot : Slot), t.slots[key]? = some slot →
        ∃ slot', (t.resetSession session).slots[key]? = some slot' ∧
          if key ∈ c.sessionKeys session then
            slot'.reading = (Slot.empty slot.kind 0).reading ∧ slot'.startedAt? = slot.startedAt?
          else slot' = slot := by
  intro t
  have fits : t.Fits := fits_performAll c calls
  have catalog : t.catalog = c := (follows_performAll (ofCatalog c) calls).catalog
  refine ⟨catalog, ?_, ?_, ?_, ?_, ?_⟩
  · intro key
    rw [fits.kind_eq, catalog]
  · intro call key keyed
    exact ⟨fits.perform_eq_error_iff keyed, fun _ => fits.perform_of_error keyed,
      fun _ => fits.slots_perform_of_ne keyed⟩
  · intro key amount
    have keyed : (Call.add key amount).key? = some key := rfl
    constructor
    · intro n found
      exact ⟨_, perform_of_kind keyed found List.mem_cons_self, Slot.toNat_addUnsigned _ amount⟩
    · intro n found
      exact ⟨_, perform_of_kind keyed found (List.mem_cons_of_mem _ List.mem_cons_self),
        Slot.toInt_addSigned _ amount⟩
  · intro session now key changed
    rw [tallySession, slots_mapSession, catalog] at changed
    by_cases inSession : c.InSession session key
    · rw [if_pos inSession] at changed
      refine ⟨Catalog.mem_sessionKeys.mpr inSession, ?_⟩
      cases found : t.slots[key]? with
      | none =>
          rw [found] at changed
          exact absurd rfl changed
      | some slot =>
          rw [found] at changed
          exact isRunning_of_tally_ne found fun same => changed (congrArg some same)
    · rw [if_neg inSession] at changed
      exact absurd rfl changed
  · intro session key slot found
    rw [resetSession, slots_mapSession, catalog, found]
    by_cases inSession : c.InSession session key
    · rw [if_pos inSession]
      refine ⟨slot.reset, rfl, ?_⟩
      rw [if_pos (Catalog.mem_sessionKeys.mpr inSession)]
      cases slot with
      | unsigned n => exact ⟨rfl, rfl⟩
      | signed n => exact ⟨rfl, rfl⟩
      | timer timer => exact ⟨rfl, rfl⟩
      | text limit s => exact ⟨rfl, rfl⟩
    · rw [if_neg inSession]
      refine ⟨slot, rfl, ?_⟩
      rw [if_neg fun member => inSession (Catalog.mem_sessionKeys.mp member)]

/-- A number at its bound, a timer that is started twice and belongs to a session of its own, and a
key beyond the last metric. -/
theorem performAll_typed_map_of_mixed :
    let schema : Schema := {
      sessions := ["run"]
      metrics := [.unsigned "count", (MetricDef.timer "busy").inSession "run", .text "state" 2] }
    ∃ c, schema.catalog = .ok c ∧
      let t := ((ofCatalog c).performAll [.add 0 7, .startTimer 1 100, .setText 2 "éa"]).2
      (t.perform (.startTimer 1 300)).1 = .error (.noChange 1) ∧
        (t.perform (.add 2 1)).1 = .error (.typeMismatch 2 .unsigned .text) ∧
        (t.perform (.value 4)).1 = .error (.keyNotFound 4) ∧
        (t.perform (.readTimer 1 300)).2.slots[0]? = some (.unsigned (some 7)) ∧
        (∃ sum : UInt32, t.perform (.add 0 (-9)) = (.ok .done, t.set 0 (.unsigned (some sum))) ∧
          (sum.toNat : Int) = 0) ∧
        (t.tallySession 0 300).slots[1]? = t.slots[1]? ∧
        ∃ slot', (t.resetSession 1).slots[1]? = some slot' ∧ slot'.startedAt? = some 100 := by
  intro schema
  have resolved : schema.catalog = .ok _ := rfl
  refine ⟨_, resolved, ?_⟩
  intro t
  obtain ⟨-, -, keyed, added, tallied, reset⟩ := performAll_typed_map _
    [.add 0 7, .startTimer 1 100, .setText 2 "éa"]
  refine ⟨?_, ?_, ?_, ?_, ?_, ?_, ?_⟩
  · exact ((keyed (.startTimer 1 300) 1 rfl).1 _).mpr (by decide +kernel)
  · exact ((keyed (.add 2 1) 2 rfl).1 _).mpr (by decide +kernel)
  · exact ((keyed (.value 4) 4 rfl).1 _).mpr (by decide +kernel)
  · exact ((keyed (.readTimer 1 300) 1 rfl).2.2 0 (by decide)).trans (by decide +kernel)
  · obtain ⟨sum, performed, same⟩ := (added 0 (-9)).1 (some 7) (by decide +kernel)
    exact ⟨sum, performed, same.trans (by decide)⟩
  · by_contra changed
    exact absurd (tallied 0 300 1 changed).1 (by decide +kernel)
  · obtain ⟨slot', found, kept⟩ := reset 1 1 (.timer { startedAt := some 100 }) (by decide +kernel)
    rw [if_pos (by decide +kernel)] at kept
    exact ⟨slot', found, kept.2⟩

end Table

end DeviceTelemetry
