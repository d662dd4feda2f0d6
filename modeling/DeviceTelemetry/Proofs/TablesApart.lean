import DeviceTelemetry.Proofs.Agent.Steps
import DeviceTelemetry.Proofs.TableFrames

/-!
# Tables that differ in one session

Two tables are apart in a session if they differ in the slots of that session only, and there not in
kind (`Table.Apart`). A call on a metric of the session leads to a table apart from the one it was
made on. All other calls, and the collectors of the built-in metrics, keep two tables apart, and the
calls on metrics of other sessions answer the same on both.
-/

set_option autoImplicit false

namespace DeviceTelemetry

namespace Slot

theorem kind_tally (now : UInt64) (slot : Slot) : (slot.tally now).kind = slot.kind := by
  cases slot with
  | unsigned n => rfl
  | signed n => rfl
  | timer t => rfl
  | text limit s => rfl

theorem kind_reset (slot : Slot) : slot.reset.kind = slot.kind := by
  cases slot with
  | unsigned n => rfl
  | signed n => rfl
  | timer t => rfl
  | text limit s => rfl

theorem kind_clear (slot : Slot) : slot.clear.kind = slot.kind := by
  cases slot with
  | unsigned n => rfl
  | signed n => rfl
  | timer t => rfl
  | text limit s => rfl

end Slot

namespace Table

/-! ### The effect of a call on its slot -/

/-- What a call on a key answers and what it writes there, by the slot that it finds. -/
def Call.effect (call : Call) (key : Nat) :
    Option Slot → Except MetricError Answer × Option Slot
  | none => (.error (.keyNotFound key), none)
  | some slot =>
    if slot.kind ∈ call.kinds then
      match call.onSlot slot with
      | some (answer, slot') => (.ok answer, some slot')
      | none => (.error (.noChange key), none)
    else (.error (.typeMismatch key (call.kinds.headD slot.kind) slot.kind), none)

def put (t : Table) (key : Nat) : Option Slot → Table
  | none => t
  | some slot => t.set key slot

variable {t t' : Table} {call : Call} {key : Nat}

theorem perform_eq_effect (keyed : call.key? = some key) :
    t.perform call =
      ((call.effect key t.slots[key]?).1, t.put key (call.effect key t.slots[key]?).2) := by
  cases found : t.slots[key]? with
  | none => exact perform_of_missing keyed found
  | some slot =>
      by_cases works : slot.kind ∈ call.kinds
      · rw [perform_of_kind keyed found works, Call.effect, if_pos works]
        cases call.onSlot slot with
        | none => rfl
        | some pair => rfl
      · obtain ⟨expected, first, refused⟩ := perform_of_other_kind keyed found works
        have named : call.kinds.headD slot.kind = expected := by
          rw [List.headD_eq_head?_getD, Option.mem_def.mp first]
          rfl
        rw [refused, Call.effect, if_neg works, named]
        rfl

theorem kind_onSlot {slot slot' : Slot} {answer : Answer}
    (done : call.onSlot slot = some (answer, slot')) : slot'.kind = slot.kind := by
  cases call with
  | startTimer key now =>
      cases slot with
      | timer timer =>
          obtain ⟨timer', -, same⟩ := Option.map_eq_some_iff.mp done
          cases same
          rfl
      | _ => cases done
  | stopTimer key now =>
      cases slot with
      | timer timer =>
          obtain ⟨timer', -, same⟩ := Option.map_eq_some_iff.mp done
          cases same
          rfl
      | _ => cases done
  | kindOf key =>
      cases done
      rfl
  | value key =>
      cases done
      rfl
  | _ =>
      -- each works on slots of its own kinds, and writes one of the same kind
      cases slot <;> cases done <;> rfl

theorem kind_effect {found : Option Slot} {slot' : Slot}
    (written : (call.effect key found).2 = some slot') :
    found.map Slot.kind = some slot'.kind := by
  cases found with
  | none => cases written
  | some slot =>
      rw [Call.effect] at written
      split at written
      · cases done : call.onSlot slot with
        | none =>
            rw [done] at written
            cases written
        | some pair =>
            obtain ⟨answer, slot''⟩ := pair
            rw [done] at written
            cases written
            exact congrArg some (kind_onSlot done).symm
      · cases written

/-! ### Tables apart -/

/-- Two tables that differ in the slots of one session only, and there not in kind. -/
structure Apart (session : Nat) (t t' : Table) : Prop where
  catalog : t'.catalog = t.catalog
  elsewhere : ∀ key : Nat, ¬t.catalog.InSession session key → t'.slots[key]? = t.slots[key]?
  kinds : ∀ key : Nat, t'.slots[key]?.map Slot.kind = t.slots[key]?.map Slot.kind

namespace Apart

variable {t'' : Table} {session : Nat}

theorem refl (session : Nat) (t : Table) : Apart session t t :=
  ⟨rfl, fun _ _ => rfl, fun _ => rfl⟩

theorem symm (h : Apart session t t') : Apart session t' t where
  catalog := h.catalog.symm
  elsewhere key free := (h.elsewhere key (h.catalog ▸ free)).symm
  kinds key := (h.kinds key).symm

theorem trans (h : Apart session t t') (h' : Apart session t' t'') : Apart session t t'' where
  catalog := h'.catalog.trans h.catalog
  elsewhere key free :=
    (h'.elsewhere key (h.catalog.symm ▸ free)).trans (h.elsewhere key free)
  kinds key := (h'.kinds key).trans (h.kinds key)

/-- Slots are written in both tables; out of the session it is the same slot. -/
theorem set (h : Apart session t t') {slot slot' new new' : Slot}
    (found : t.slots[key]? = some slot) (found' : t'.slots[key]? = some slot')
    (kind : new'.kind = new.kind) (same : ¬t.catalog.InSession session key → new' = new) :
    Apart session (t.set key new) (t'.set key new') where
  catalog := h.catalog
  elsewhere := by
    intro key' free
    rw [slots_set found, slots_set found']
    by_cases here : key' = key
    · subst here
      rw [if_pos rfl, if_pos rfl, same free]
    · rw [if_neg here, if_neg here]
      exact h.elsewhere key' free
  kinds := by
    intro key'
    rw [slots_set found, slots_set found']
    by_cases here : key' = key
    · rw [if_pos here, if_pos here]
      exact congrArg some kind
    · rw [if_neg here, if_neg here]
      exact h.kinds key'

theorem of_slots (h : Apart session t t') {s s' : Table} {f : Nat → Slot → Slot}
    (catalog : s.catalog = t.catalog) (catalog' : s'.catalog = t'.catalog)
    (slots : ∀ key : Nat, s.slots[key]? = t.slots[key]?.map (f key))
    (slots' : ∀ key : Nat, s'.slots[key]? = t'.slots[key]?.map (f key))
    (kind : ∀ key slot, (f key slot).kind = slot.kind) : Apart session s s' where
  catalog := catalog'.trans (h.catalog.trans catalog.symm)
  elsewhere := by
    intro key free
    rw [catalog] at free
    rw [slots, slots', h.elsewhere key free]
  kinds := by
    intro key
    have kept : (Slot.kind ∘ f key) = Slot.kind := funext (kind key)
    rw [slots, slots', Option.map_map, Option.map_map, kept]
    exact h.kinds key

theorem mapSession (h : Apart session t t') (session' : Nat) {f : Slot → Slot}
    (kind : ∀ slot, (f slot).kind = slot.kind) :
    Apart session (t.mapSession session' f) (t'.mapSession session' f) := by
  refine h.of_slots
    (f := fun key slot => if t.catalog.InSession session' key then f slot else slot) rfl rfl
    (t.getElem?_mapSession session' f) ?_ ?_
  · intro key
    rw [← h.catalog]
    exact t'.getElem?_mapSession session' f key
  · intro key slot
    split
    · exact kind slot
    · rfl

theorem resetAll (h : Apart session t t') : Apart session t.resetAll t'.resetAll :=
  h.of_slots (f := fun _ => Slot.clear) rfl rfl (fun _ => Array.getElem?_map)
    (fun _ => Array.getElem?_map) fun _ => Slot.kind_clear

theorem of_mapSession (session : Nat) (t : Table) {f : Slot → Slot}
    (kind : ∀ slot, (f slot).kind = slot.kind) : Apart session t (t.mapSession session f) where
  catalog := rfl
  elsewhere := by
    intro key free
    rw [slots_mapSession, if_neg free]
  kinds := by
    intro key
    have kept : (Slot.kind ∘ f) = Slot.kind := funext kind
    rw [slots_mapSession]
    split
    · rw [Option.map_map, kept]
    · rfl

theorem of_tallySession (session : Nat) (t : Table) (now : UInt64) :
    Apart session t (t.tallySession session now) :=
  of_mapSession session t (Slot.kind_tally now)

theorem of_resetSession (session : Nat) (t : Table) : Apart session t (t.resetSession session) :=
  of_mapSession session t Slot.kind_reset

/-- A call on a metric of the session is not seen outside of it. -/
theorem of_perform (keyed : call.key? = some key) (mine : t.catalog.InSession session key) :
    Apart session t (t.perform call).2 := by
  rw [perform_eq_effect keyed]
  cases written : (call.effect key t.slots[key]?).2 with
  | none => exact refl session t
  | some slot' =>
      obtain ⟨slot, found, kind⟩ := Option.map_eq_some_iff.mp (kind_effect written)
      have kept : t.set key slot = t := set_self found
      have both := (refl session t).set found found kind.symm fun free => absurd mine free
      rwa [kept] at both

theorem answer_eq (h : Apart session t t') (keyed : call.key? = some key)
    (free : ¬t.catalog.InSession session key) : (t'.perform call).1 = (t.perform call).1 := by
  rw [perform_eq_effect keyed, perform_eq_effect keyed, h.elsewhere key free]

theorem slot_eq (h : Apart session t t') (free : ¬t.catalog.InSession session key) :
    t'.slot key = t.slot key := by
  rw [slot, slot, h.elsewhere key free]

theorem isRunning_eq (h : Apart session t t') (free : ¬t.catalog.InSession session key) :
    t'.isRunning key = t.isRunning key := by
  simp only [isRunning]
  rw [h.slot_eq free]

theorem readText_eq (h : Apart session t t') (free : ¬t.catalog.InSession session key) :
    t'.readText key = t.readText key := by
  simp only [readText]
  rw [h.slot_eq free]

theorem perform (h : Apart session t t') (call : Call) :
    Apart session (t.perform call).2 (t'.perform call).2 := by
  cases keyed : call.key? with
  | none =>
      cases call with
      | tallySession session' now => exact h.mapSession session' (Slot.kind_tally now)
      | resetSession session' => exact h.mapSession session' Slot.kind_reset
      | resetAll => exact h.resetAll
      | _ => cases keyed
  | some key =>
      by_cases mine : t.catalog.InSession session key
      · have mine' : t'.catalog.InSession session key := h.catalog.symm ▸ mine
        exact (of_perform keyed mine).symm.trans (h.trans (of_perform keyed mine'))
      · rw [perform_eq_effect keyed, perform_eq_effect keyed, h.elsewhere key mine]
        cases written : (call.effect key t.slots[key]?).2 with
        | none => exact h
        | some slot' =>
            obtain ⟨slot, found, -⟩ := Option.map_eq_some_iff.mp (kind_effect written)
            have found' := (h.elsewhere key mine).trans found
            exact h.set found found' rfl fun _ => rfl

theorem performAll (h : Apart session t t') (calls : List Call) :
    Apart session (t.performAll calls).2 (t'.performAll calls).2 := by
  induction calls generalizing t t' with
  | nil => exact h
  | cons call calls ih => exact ih (h.perform call)

theorem tallySession (h : Apart session t t') (session' : Nat) (now : UInt64) :
    Apart session (t.tallySession session' now) (t'.tallySession session' now) :=
  h.perform (.tallySession session' now)

theorem resetSession (h : Apart session t t') (session' : Nat) :
    Apart session (t.resetSession session') (t'.resetSession session') :=
  h.perform (.resetSession session')

theorem sessionEvent_eq (h : Apart session t t') {session' : Nat} (other : session' ≠ session) :
    t'.sessionEvent session' = t.sessionEvent session' := by
  refine congrArg (Event.session session') ?_
  unfold sessionReadings
  rw [h.catalog]
  apply List.map_congr_left
  intro key member
  have inSession := Catalog.mem_sessionKeys.mp member
  rw [h.elsewhere key fun mine => other (mine.unique inSession)]

end Apart

/-! ### Writes of collectors -/

/-- Both succeed, with tables that are apart, or both fail. -/
inductive Alike (session : Nat) : Except MetricError Table → Except MetricError Table → Prop
  | ok {t t' : Table} (h : Apart session t t') : Alike session (.ok t) (.ok t')
  | error (e e' : MetricError) : Alike session (.error e) (.error e')

variable {session : Nat}

/-- It is enough that whenever one of them succeeds, so does the other. -/
theorem Alike.of_exists {r r' : Except MetricError Table}
    (forth : ∀ s, r = .ok s → ∃ s', r' = .ok s' ∧ Apart session s s')
    (back : ∀ s', r' = .ok s' → ∃ s, r = .ok s ∧ Apart session s' s) : Alike session r r' := by
  cases r with
  | ok s =>
      obtain ⟨s', same, h⟩ := forth s rfl
      rw [same]
      exact .ok h
  | error e =>
      cases r' with
      | ok s' =>
          obtain ⟨s, bad, -⟩ := back s' rfl
          cases bad
      | error e' => exact .error e e'

theorem Apart.exists_slot (h : Apart session t t') {slot : Slot}
    (found : t.slots[key]? = some slot) :
    ∃ slot', t'.slots[key]? = some slot' ∧ slot'.kind = slot.kind ∧
      (¬t.catalog.InSession session key → slot' = slot) := by
  have kinds := h.kinds key
  rw [found, Option.map_some, Option.map_eq_some_iff] at kinds
  obtain ⟨slot', found', kind⟩ := kinds
  refine ⟨slot', found', kind, ?_⟩
  intro free
  have same := h.elsewhere key free
  rw [found, found'] at same
  exact Option.some.inj same

theorem Apart.exists_add (h : Apart session t t') {amount : Int32} {s : Table}
    (ok : t.add key amount = .ok s) :
    ∃ s', t'.add key amount = .ok s' ∧ Apart session s s' := by
  rcases add_eq_ok.mp ok with ⟨n, found, rfl⟩ | ⟨n, found, rfl⟩
  · obtain ⟨slot', found', kind, same⟩ := h.exists_slot found
    cases slot' with
    | unsigned n' =>
        refine ⟨_, add_eq_ok.mpr (.inl ⟨n', found', rfl⟩), h.set found found' ?_ ?_⟩
        · simp only [Slot.kind]
        · intro free
          cases same free
          rfl
    | _ => cases kind
  · obtain ⟨slot', found', kind, same⟩ := h.exists_slot found
    cases slot' with
    | signed n' =>
        refine ⟨_, add_eq_ok.mpr (.inr ⟨n', found', rfl⟩), h.set found found' ?_ ?_⟩
        · simp only [Slot.kind]
        · intro free
          cases same free
          rfl
    | _ => cases kind

/-- Whether an addition succeeds is told by the kind of the metric. -/
theorem Apart.add (h : Apart session t t') (key : Nat) (amount : Int32) :
    Alike session (t.add key amount) (t'.add key amount) :=
  .of_exists (fun _ ok => h.exists_add ok) fun _ ok => h.symm.exists_add ok

theorem Apart.exists_setUnsigned (h : Apart session t t') {n : UInt32} {s : Table}
    (ok : t.setUnsigned key n = .ok s) :
    ∃ s', t'.setUnsigned key n = .ok s' ∧ Apart session s s' := by
  obtain ⟨m, found, rfl⟩ := setUnsigned_eq_ok.mp ok
  obtain ⟨slot', found', kind, -⟩ := h.exists_slot found
  cases slot' with
  | unsigned m' =>
      exact ⟨_, setUnsigned_eq_ok.mpr ⟨m', found', rfl⟩, h.set found found' rfl fun _ => rfl⟩
  | _ => cases kind

theorem Apart.setUnsigned (h : Apart session t t') (key : Nat) (n : UInt32) :
    Alike session (t.setUnsigned key n) (t'.setUnsigned key n) :=
  .of_exists (fun _ ok => h.exists_setUnsigned ok) fun _ ok => h.symm.exists_setUnsigned ok

end Table

open Table (Apart Alike)

variable {session : Nat} {t t' : Table}

namespace Table

theorem Alike.isOk_settle {r r' : Except MetricError Table} (h : Alike session r r') :
    (t'.settle r').1.isOk = (t.settle r).1.isOk := by
  cases h with
  | ok h => rfl
  | error e e' => rfl

theorem Apart.made_eq (h : Apart session t t') {calls : List Call}
    (numbers : ∀ call ∈ calls,
      (∃ key amount, call = .add key amount) ∨ ∃ key n, call = .setUnsigned key n) :
    t'.made calls = t.made calls := by
  induction calls generalizing t t' with
  | nil => rfl
  | cons call calls ih =>
      have later := ih (h.perform call) fun call' member => numbers call' (.tail _ member)
      have same : (t'.perform call).1.isOk = (t.perform call).1.isOk := by
        rcases numbers call (.head _) with ⟨key, amount, rfl⟩ | ⟨key, n, rfl⟩
        · exact (h.add key amount).isOk_settle
        · exact (h.setUnsigned key n).isOk_settle
      rw [made, made, same, later]

end Table

namespace Collectors

theorem made_eq_of_apart (c : Collectors) (h : Apart session t t') (gauge : Gauge)
    (now : UInt64) : c.made t' gauge now = c.made t gauge now := by
  unfold made
  have hours : (c.reliability.elim [] fun r => t'.made (r.calls now)) =
      c.reliability.elim [] fun r => t.made (r.calls now) := by
    cases c.reliability with
    | none => rfl
    | some r =>
        exact h.made_eq fun call member => .inl (Reliability.eq_add_of_mem_calls member)
  rw [hours]
  refine congrArg (_ ++ ·) ?_
  cases c.battery with
  | none => rfl
  | some b =>
      exact (h.performAll _).made_eq fun call member =>
        .inr (Battery.eq_setUnsigned_of_mem_calls member)

/-- What the collectors remember does not come from the table. -/
theorem apart_collect (c : Collectors) (h : Apart session t t') (gauge : Gauge) (now : UInt64) :
    Apart session (c.collect t gauge now).1 (c.collect t' gauge now).1 ∧
      (c.collect t' gauge now).2 = (c.collect t gauge now).2 := by
  rw [collect_eq, collect_eq, c.made_eq_of_apart h]
  exact ⟨h.performAll _, rfl⟩

theorem apart_changeConnection (c : Collectors) (h : Apart session t t')
    (state : ConnectionState) (now : UInt64) :
    Apart session (c.changeConnection t state now).2 (c.changeConnection t' state now).2 := by
  unfold changeConnection
  cases c.connectivity with
  | none => exact h
  | some connectivity => exact h.performAll (connectivity.calls now state)

theorem alike_countSync (c : Collectors) (h : Apart session t t') (success : Bool) :
    Alike session (c.countSync t success) (c.countSync t' success) := by
  unfold countSync
  cases c.sync with
  | none => exact .error _ _
  | some counters => exact h.add _ _

end Collectors

end DeviceTelemetry
