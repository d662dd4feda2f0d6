import DeviceTelemetry.Proofs.TableFrames

/-!
# What happens to one number

Which unsigned number a slot holds behind a call is told by the number before, the call and the
catalog (`Table.Call.count`), since a call that the table refuses leaves the number as it is.
-/

set_option autoImplicit false

namespace DeviceTelemetry

namespace Table

/-- The slot of a key holds a number, which may not be set. -/
def HasCount (t : Table) (key : Nat) (n : Option UInt32) : Prop :=
  t.slots[key]? = some (.unsigned n)

namespace Call

def count (c : Catalog) (key : Nat) (n : Option UInt32) : Call → Option UInt32
  | .setUnsigned key' m => if key' = key then some m else n
  | .add key' amount => if key' = key then some (Slot.addUnsigned (n.getD 0) amount) else n
  | .resetSession session => if c.InSession session key then none else n
  | .resetAll => none
  | _ => n

def Sets (key : Nat) : Call → Prop
  | .setUnsigned key' _ | .add key' _ => key' = key
  | _ => False

def Forgets (c : Catalog) (key : Nat) : Call → Prop
  | .resetSession session => c.InSession session key
  | .resetAll => True
  | _ => False

instance (key : Nat) : (call : Call) → Decidable (call.Sets key)
  | .setUnsigned _ _ | .add _ _ => inferInstanceAs (Decidable (_ = _))
  | .setSigned _ _ | .setText _ _ | .startTimer _ _ | .stopTimer _ _ | .isRunning _
  | .readTimer _ _ | .readUnsigned _ | .readSigned _ | .readText _ | .kindOf _ | .value _
  | .tallySession _ _ | .resetSession _ | .resetAll => inferInstanceAs (Decidable False)

instance (c : Catalog) (key : Nat) : (call : Call) → Decidable (call.Forgets c key)
  | .resetSession session => inferInstanceAs (Decidable (c.InSession session key))
  | .resetAll => inferInstanceAs (Decidable True)
  | .setUnsigned _ _ | .add _ _ | .setSigned _ _ | .setText _ _ | .startTimer _ _
  | .stopTimer _ _ | .isRunning _ | .readTimer _ _ | .readUnsigned _ | .readSigned _
  | .readText _ | .kindOf _ | .value _ | .tallySession _ _ => inferInstanceAs (Decidable False)

variable {c : Catalog} {key key' : Nat} {n : Option UInt32} {call : Call}

theorem count_of_not_sets (other : ¬call.Sets key) (kept : ¬call.Forgets c key) :
    call.count c key n = n := by
  cases call <;> simp_all [count, Sets, Forgets]

/-- What is not set stays so as long as no call sets it. -/
theorem count_none (other : ¬call.Sets key) : call.count c key none = none := by
  cases call <;> simp_all [count, Sets]

theorem not_sets_of_key_ne (keyed : call.key? = some key') (elsewhere : key' ≠ key) :
    ¬call.Sets key ∧ ¬call.Forgets c key := by
  cases call <;> simp_all [key?, Sets, Forgets]

theorem count_of_key_ne (keyed : call.key? = some key') (elsewhere : key' ≠ key) :
    call.count c key n = n := by
  obtain ⟨other, kept⟩ := not_sets_of_key_ne (c := c) keyed elsewhere
  exact count_of_not_sets other kept

theorem onSlot_unsigned (keyed : call.key? = some key) (works : .unsigned ∈ call.kinds) :
    ∃ answer, call.onSlot (.unsigned n) = some (answer, .unsigned (call.count c key n)) := by
  cases call <;> simp_all [key?, kinds, onSlot, count]

theorem count_of_other_kind (keyed : call.key? = some key) (other : .unsigned ∉ call.kinds) :
    call.count c key n = n := by
  cases call <;> simp_all [key?, kinds, count, MetricKind.mem_all]

end Call

section Counts

variable {t : Table} {key : Nat} {n : Option UInt32}

theorem hasCount_ofCatalog {c : Catalog} {e : Catalog.Entry} (metric : c.metric? key = some e)
    (kind : e.kind = .unsigned) : (ofCatalog c).HasCount key none := by
  show (c.entries.map _)[key]? = _
  rw [Array.getElem?_map, show c.entries[key]? = some e from metric, Option.map_some, kind]
  rfl

theorem HasCount.mapSession (here : t.HasCount key n) (session : Nat) {f : Slot → Slot}
    {m : Option UInt32} (step : f (.unsigned n) = .unsigned m) :
    (t.mapSession session f).HasCount key (if t.catalog.InSession session key then m else n) := by
  rw [HasCount, slots_mapSession, here]
  split
  · rw [Option.map_some, step]
  · rfl

theorem HasCount.perform (fits : t.Fits) (here : t.HasCount key n) (call : Call) :
    (t.perform call).2.HasCount key (call.count t.catalog key n) := by
  cases keyed : call.key? with
  | some key' =>
      by_cases same : key' = key
      · subst same
        by_cases works : .unsigned ∈ call.kinds
        · obtain ⟨answer, outcome⟩ := Call.onSlot_unsigned (c := t.catalog) (n := n) keyed works
          rw [perform_of_kind keyed here works, outcome]
          simp [HasCount, slots_set here]
        · obtain ⟨expected, -, refused⟩ := perform_of_other_kind keyed here works
          rw [refused, Call.count_of_other_kind keyed works]
          exact here
      · rw [Call.count_of_key_ne keyed same]
        exact (fits.slots_perform_of_ne keyed fun bad => same bad.symm).trans here
  | none =>
      cases call with
      | tallySession session now =>
          have tallied := here.mapSession session (f := Slot.tally now) rfl
          rwa [ite_self] at tallied
      | resetSession session => exact here.mapSession session (f := Slot.reset) rfl
      | resetAll =>
          show (t.slots.map Slot.clear)[key]? = _
          rw [Array.getElem?_map, here]
          rfl
      | _ => simp [Call.key?] at keyed

theorem HasCount.performAll (fits : t.Fits) (here : t.HasCount key n) (calls : List Call) :
    (t.performAll calls).2.HasCount key (calls.foldl (Call.count t.catalog key) n) := by
  induction calls generalizing t n with
  | nil => exact here
  | cons call calls ih =>
      have step := follows_perform t call
      have rest := ih (fits.follows step) (here.perform fits call)
      rwa [step.catalog] at rest

end Counts

/-! ### Calls in a row -/

section Rows

variable {c : Catalog} {key : Nat} {n : Option UInt32} {calls : List Call}

theorem foldl_count_of_not_sets
    (spared : ∀ call ∈ calls, ¬call.Sets key ∧ ¬call.Forgets c key) :
    calls.foldl (Call.count c key) n = n := by
  induction calls with
  | nil => rfl
  | cons call calls ih =>
      obtain ⟨other, kept⟩ := spared call List.mem_cons_self
      rw [List.foldl_cons, Call.count_of_not_sets other kept]
      exact ih fun call' member => spared call' (List.mem_cons_of_mem call member)

theorem foldl_count_none (other : ∀ call ∈ calls, ¬call.Sets key) :
    calls.foldl (Call.count c key) none = none := by
  induction calls with
  | nil => rfl
  | cons call calls ih =>
      rw [List.foldl_cons, Call.count_none (other call List.mem_cons_self)]
      exact ih fun call' member => other call' (List.mem_cons_of_mem call member)

/-- Calls on other keys, as they are made by a collector of other metrics. -/
theorem foldl_count_of_key_ne {keys : List Nat} (apart : key ∉ keys)
    (keyed : ∀ call ∈ calls, ∃ key' ∈ keys, call.key? = some key') :
    calls.foldl (Call.count c key) n = n := by
  apply foldl_count_of_not_sets
  intro call member
  obtain ⟨key', among, here⟩ := keyed call member
  exact Call.not_sets_of_key_ne here (by rintro rfl; exact apart among)

end Rows

end Table

end DeviceTelemetry
