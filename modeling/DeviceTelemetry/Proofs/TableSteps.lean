import DeviceTelemetry.Metric.Call
import DeviceTelemetry.Proofs.CatalogLaws
import DeviceTelemetry.Proofs.Truncation

/-!
# What operations do to a table

Each operation that changes a table is told by the slot that it finds and the one that it leaves.
In all of them a slot keeps its kind and its limit, a text stays within the limit and a timer within
its range (`Slot.Follows`), and no slot comes or goes (`Table.Follows`). So the slots of a table fit
the metrics of its catalog whatever is called (`Table.fits_performAll`).
-/

set_option autoImplicit false

namespace DeviceTelemetry

/-! ### Slots -/

namespace Slot

inductive Follows : Slot → Slot → Prop
  | refl (slot : Slot) : Follows slot slot
  | unsigned (n n' : Option UInt32) : Follows (.unsigned n) (.unsigned n')
  | signed (n n' : Option Int32) : Follows (.signed n) (.signed n')
  | timer (t t' : Timer) (range : t.elapsed ≤ Timer.maxElapsed → t'.elapsed ≤ Timer.maxElapsed) :
      Follows (.timer t) (.timer t')
  | text (limit : Nat) (s s' : String) (short : Text.byteLength s' ≤ limit) :
      Follows (.text limit s) (.text limit s')

theorem Follows.trans {a b c : Slot} (first : Follows a b) (second : Follows b c) :
    Follows a c := by
  cases first with
  | refl => exact second
  | unsigned n n' =>
      cases second with
      | refl => exact .unsigned n n'
      | unsigned _ n'' => exact .unsigned n n''
  | signed n n' =>
      cases second with
      | refl => exact .signed n n'
      | signed _ n'' => exact .signed n n''
  | timer t t' range =>
      cases second with
      | refl => exact .timer t t' range
      | timer _ t'' range' => exact .timer t t'' fun within => range' (range within)
  | text limit s s' short =>
      cases second with
      | refl => exact .text limit s s' short
      | text _ _ s'' short' => exact .text limit s s'' short'

def Fits (e : Catalog.Entry) : Slot → Prop
  | .unsigned _ => e.kind = .unsigned
  | .signed _ => e.kind = .signed
  | .timer t => e.kind = .timer ∧ t.elapsed ≤ Timer.maxElapsed
  | .text limit s => e.kind = .text ∧ limit = e.maxLength ∧ Text.byteLength s ≤ limit

theorem Fits.follows {e : Catalog.Entry} {slot slot' : Slot} (fits : Fits e slot)
    (step : Follows slot slot') : Fits e slot' := by
  cases step with
  | refl => exact fits
  | unsigned n n' => exact fits
  | signed n n' => exact fits
  | timer t t' range => exact ⟨fits.1, range fits.2⟩
  | text limit s s' short => exact ⟨fits.1, fits.2.1, short⟩

theorem fits_empty (e : Catalog.Entry) : Fits e (empty e.kind e.maxLength) := by
  cases kind : e.kind with
  | unsigned => exact kind
  | signed => exact kind
  | timer => exact ⟨kind, Nat.zero_le _⟩
  | text => exact ⟨kind, rfl, Nat.zero_le _⟩

theorem follows_reset (slot : Slot) : Follows slot slot.reset := by
  cases slot with
  | unsigned n => exact .unsigned n none
  | signed n => exact .signed n none
  | timer t => exact .timer t t.reset fun _ => Nat.zero_le _
  | text limit s => exact .text limit s "" (Nat.zero_le _)

theorem follows_tally (now : UInt64) (slot : Slot) : Follows slot (slot.tally now) := by
  cases slot with
  | unsigned n => exact .refl _
  | signed n => exact .refl _
  | text limit s => exact .refl _
  | timer t =>
      apply Follows.timer
      intro within
      simp only [Timer.tally]
      split
      · exact within
      · exact Nat.min_le_right _ _

theorem follows_clear (slot : Slot) : Follows slot slot.clear := by
  cases slot with
  | unsigned n => exact .unsigned n none
  | signed n => exact .signed n none
  | timer t => exact .timer t _ fun _ => Nat.zero_le _
  | text limit s => exact .text limit s "" (Nat.zero_le _)

end Slot

/-! ### Operations on one slot -/

namespace Table

theorem slot_eq_ok {t : Table} {key : Nat} {slot : Slot} :
    t.slot key = .ok slot ↔ t.slots[key]? = some slot := by
  simp only [Table.slot]
  cases t.slots[key]? with
  | none => exact ⟨fun bad => (nomatch bad), fun bad => (nomatch bad)⟩
  | some slot' => rw [Except.ok.injEq, Option.some.injEq]

theorem mismatch_ne_ok {α : Type} {key : Nat} {expected : MetricKind} {slot : Slot} {a : α} :
    mismatch key expected slot ≠ .ok a :=
  nofun

/-- A change to the slot of a key, as far as the slot is one that the operation works on. -/
theorem change_eq_ok {α : Type} {t : Table} {key : Nat} {f : Slot → Except MetricError α} {a : α} :
    t.slot key >>= f = .ok a ↔ ∃ slot, t.slots[key]? = some slot ∧ f slot = .ok a := by
  rw [bind_eq_ok]
  exact exists_congr fun slot => and_congr_left fun _ => slot_eq_ok

variable {t t' : Table} {key : Nat}

theorem setUnsigned_eq_ok {n : UInt32} :
    t.setUnsigned key n = .ok t' ↔
      ∃ m, t.slots[key]? = some (.unsigned m) ∧ t' = t.set key (.unsigned (some n)) := by
  simp only [setUnsigned]
  rw [change_eq_ok]
  constructor
  · rintro ⟨slot, found, done⟩
    cases slot with
    | unsigned m => exact ⟨m, found, (pure_eq_ok.mp done).symm⟩
    | signed m => exact absurd done mismatch_ne_ok
    | timer timer => exact absurd done mismatch_ne_ok
    | text limit s => exact absurd done mismatch_ne_ok
  · rintro ⟨m, found, rfl⟩
    exact ⟨_, found, rfl⟩

theorem setSigned_eq_ok {n : Int32} :
    t.setSigned key n = .ok t' ↔
      ∃ m, t.slots[key]? = some (.signed m) ∧ t' = t.set key (.signed (some n)) := by
  simp only [setSigned]
  rw [change_eq_ok]
  constructor
  · rintro ⟨slot, found, done⟩
    cases slot with
    | signed m => exact ⟨m, found, (pure_eq_ok.mp done).symm⟩
    | unsigned m => exact absurd done mismatch_ne_ok
    | timer timer => exact absurd done mismatch_ne_ok
    | text limit s => exact absurd done mismatch_ne_ok
  · rintro ⟨m, found, rfl⟩
    exact ⟨_, found, rfl⟩

theorem setText_eq_ok {s : String} :
    t.setText key s = .ok t' ↔
      ∃ limit s', t.slots[key]? = some (.text limit s') ∧
        t' = t.set key (.text limit (Text.truncate s limit)) := by
  simp only [setText]
  rw [change_eq_ok]
  constructor
  · rintro ⟨slot, found, done⟩
    cases slot with
    | text limit s' => exact ⟨limit, s', found, (pure_eq_ok.mp done).symm⟩
    | unsigned m => exact absurd done mismatch_ne_ok
    | signed m => exact absurd done mismatch_ne_ok
    | timer timer => exact absurd done mismatch_ne_ok
  · rintro ⟨limit, s', found, rfl⟩
    exact ⟨_, found, rfl⟩

theorem add_eq_ok {amount : Int32} :
    t.add key amount = .ok t' ↔
      (∃ n, t.slots[key]? = some (.unsigned n) ∧
          t' = t.set key (.unsigned (some (Slot.addUnsigned (n.getD 0) amount)))) ∨
        ∃ n, t.slots[key]? = some (.signed n) ∧
          t' = t.set key (.signed (some (Slot.addSigned (n.getD 0) amount))) := by
  simp only [add]
  rw [change_eq_ok]
  constructor
  · rintro ⟨slot, found, done⟩
    cases slot with
    | unsigned n => exact .inl ⟨n, found, (pure_eq_ok.mp done).symm⟩
    | signed n => exact .inr ⟨n, found, (pure_eq_ok.mp done).symm⟩
    | timer timer => exact absurd done mismatch_ne_ok
    | text limit s => exact absurd done mismatch_ne_ok
  · rintro (⟨n, found, rfl⟩ | ⟨n, found, rfl⟩)
    · exact ⟨_, found, rfl⟩
    · exact ⟨_, found, rfl⟩

/-- Starting and stopping a timer: the one is `Timer.start?` and the other `Timer.stop?`. -/
def moveTimer (t : Table) (key : Nat) (move : Timer → Option Timer) : Except MetricError Table := do
  match ← t.slot key with
  | .timer timer =>
    match move timer with
    | some timer => return t.set key (.timer timer)
    | none => throw (.noChange key)
  | slot => mismatch key .timer slot

theorem moveTimer_eq_ok {move : Timer → Option Timer} :
    t.moveTimer key move = .ok t' ↔
      ∃ timer timer', t.slots[key]? = some (.timer timer) ∧ move timer = some timer' ∧
        t' = t.set key (.timer timer') := by
  simp only [moveTimer]
  rw [change_eq_ok]
  constructor
  · rintro ⟨slot, found, done⟩
    cases slot with
    | timer timer =>
        dsimp only at done
        cases moved : move timer with
        | none =>
            rw [moved] at done
            cases done
        | some timer' =>
            rw [moved] at done
            exact ⟨timer, timer', found, moved, (pure_eq_ok.mp done).symm⟩
    | unsigned m => exact absurd done mismatch_ne_ok
    | signed m => exact absurd done mismatch_ne_ok
    | text limit s => exact absurd done mismatch_ne_ok
  · rintro ⟨timer, timer', found, moved, rfl⟩
    refine ⟨_, found, ?_⟩
    dsimp only
    rw [moved]
    rfl

theorem startTimer_eq_ok {now : UInt64} :
    t.startTimer key now = .ok t' ↔
      ∃ timer timer', t.slots[key]? = some (.timer timer) ∧ timer.start? now = some timer' ∧
        t' = t.set key (.timer timer') :=
  moveTimer_eq_ok

theorem stopTimer_eq_ok {now : UInt64} :
    t.stopTimer key now = .ok t' ↔
      ∃ timer timer', t.slots[key]? = some (.timer timer) ∧ timer.stop? now = some timer' ∧
        t' = t.set key (.timer timer') :=
  moveTimer_eq_ok

theorem isRunning_eq_ok {b : Bool} :
    t.isRunning key = .ok b ↔
      ∃ timer, t.slots[key]? = some (.timer timer) ∧ timer.isRunning = b := by
  simp only [isRunning]
  rw [change_eq_ok]
  constructor
  · rintro ⟨slot, found, done⟩
    cases slot with
    | timer timer => exact ⟨timer, found, pure_eq_ok.mp done⟩
    | unsigned m => exact absurd done mismatch_ne_ok
    | signed m => exact absurd done mismatch_ne_ok
    | text limit s => exact absurd done mismatch_ne_ok
  · rintro ⟨timer, found, rfl⟩
    exact ⟨_, found, rfl⟩

theorem exists_stopTimer (running : t.isRunning key = .ok true) (now : UInt64) :
    ∃ t', t.stopTimer key now = .ok t' := by
  obtain ⟨timer, found, started⟩ := isRunning_eq_ok.mp running
  obtain ⟨start, origin⟩ := Option.isSome_iff_exists.mp started
  have stopped := congrArg (Option.map fun start =>
    { timer.accumulate start (Timer.phase now) with startedAt := none }) origin
  exact ⟨_, stopTimer_eq_ok.mpr ⟨timer, _, found, stopped, rfl⟩⟩

theorem exists_startTimer (still : t.isRunning key = .ok false) (now : UInt64) :
    ∃ t', t.startTimer key now = .ok t' := by
  obtain ⟨timer, found, stopped⟩ := isRunning_eq_ok.mp still
  obtain ⟨elapsed, recorded, startedAt⟩ := timer
  cases startedAt with
  | some start => cases stopped
  | none => exact ⟨_, startTimer_eq_ok.mpr ⟨_, _, found, rfl, rfl⟩⟩

theorem isRunning_of_stopTimer {now : UInt64} (stopped : t.stopTimer key now = .ok t') :
    t.isRunning key = .ok true := by
  obtain ⟨timer, timer', found, moved, -⟩ := stopTimer_eq_ok.mp stopped
  refine isRunning_eq_ok.mpr ⟨timer, found, ?_⟩
  obtain ⟨start, origin, -⟩ := Option.map_eq_some_iff.mp moved
  rw [Timer.isRunning, origin]
  rfl

theorem stopTimer_ne_outOfSpace (key : Nat) (now : UInt64) (session : Nat) :
    t.stopTimer key now ≠ .error (.outOfSpace session) := by
  intro bad
  simp only [stopTimer, Table.slot] at bad
  cases found : t.slots[key]? with
  | none =>
      rw [found] at bad
      cases bad
  | some slot =>
      rw [found] at bad
      cases slot with
      | unsigned n => cases bad
      | signed n => cases bad
      | text limit s => cases bad
      | timer timer =>
          simp only [bind, Except.bind] at bad
          cases moved : timer.stop? now with
          | none =>
              rw [moved] at bad
              cases bad
          | some timer' =>
              rw [moved] at bad
              cases bad

theorem readTimer_eq_ok {now : UInt64} {ms : Nat} :
    t.readTimer key now = .ok (ms, t') ↔
      ∃ timer, t.slots[key]? = some (.timer timer) ∧ ms = (timer.tally now).elapsed ∧
        t' = t.set key (.timer (timer.tally now)) := by
  simp only [readTimer]
  rw [change_eq_ok]
  constructor
  · rintro ⟨slot, found, done⟩
    cases slot with
    | timer timer =>
        obtain ⟨rfl, rfl⟩ := Prod.mk.inj (pure_eq_ok.mp done)
        exact ⟨timer, found, rfl, rfl⟩
    | unsigned m => exact absurd done mismatch_ne_ok
    | signed m => exact absurd done mismatch_ne_ok
    | text limit s => exact absurd done mismatch_ne_ok
  · rintro ⟨timer, found, rfl, rfl⟩
    exact ⟨_, found, rfl⟩

/-! ### Whole tables -/

/-- What may become of a table. -/
structure Follows (t t' : Table) : Prop where
  catalog : t'.catalog = t.catalog
  slots : ∀ key : Nat, Option.Rel Slot.Follows t.slots[key]? t'.slots[key]?

theorem rel_refl (slot : Option Slot) : Option.Rel Slot.Follows slot slot := by
  cases slot with
  | none => exact .none
  | some slot => exact .some (.refl slot)

theorem Follows.refl (t : Table) : Follows t t :=
  ⟨rfl, fun _ => rel_refl _⟩

theorem Follows.trans {t t' t'' : Table} (first : Follows t t') (second : Follows t' t'') :
    Follows t t'' where
  catalog := second.catalog.trans first.catalog
  slots := by
    intro key
    have before := first.slots key
    have after := second.slots key
    generalize t'.slots[key]? = middle at before after
    generalize t.slots[key]? = start at before
    cases before with
    | none => exact after
    | some step =>
        generalize t''.slots[key]? = last at after
        cases after with
        | some step' => exact .some (step.trans step')

theorem follows_set {slot slot' : Slot} (found : t.slots[key]? = some slot)
    (step : Slot.Follows slot slot') : Follows t (t.set key slot') := by
  refine ⟨rfl, ?_⟩
  intro key'
  show Option.Rel _ _ (t.slots.setIfInBounds key slot')[key']?
  rw [Array.getElem?_setIfInBounds]
  by_cases same : key = key'
  · subst same
    obtain ⟨inside, -⟩ := Array.getElem?_eq_some_iff.mp found
    rw [if_pos rfl, if_pos inside, found]
    exact .some step
  · rw [if_neg same]
    exact rel_refl _

theorem slots_set {t : Table} {key : Nat} {slot : Slot} (found : t.slots[key]? = some slot)
    (slot' : Slot) (key' : Nat) :
    (t.set key slot').slots[key']? = if key' = key then some slot' else t.slots[key']? := by
  show (t.slots.setIfInBounds key slot')[key']? = _
  obtain ⟨inside, -⟩ := Array.getElem?_eq_some_iff.mp found
  rw [Array.getElem?_setIfInBounds]
  by_cases same : key' = key
  · rw [if_pos same.symm, if_pos same, if_pos inside]
  · rw [if_neg fun h => same h.symm, if_neg same]

theorem follows_setUnsigned {n : UInt32} (ok : t.setUnsigned key n = .ok t') : Follows t t' := by
  obtain ⟨m, found, rfl⟩ := setUnsigned_eq_ok.mp ok
  exact follows_set found (.unsigned m _)

theorem follows_setSigned {n : Int32} (ok : t.setSigned key n = .ok t') : Follows t t' := by
  obtain ⟨m, found, rfl⟩ := setSigned_eq_ok.mp ok
  exact follows_set found (.signed m _)

theorem follows_setText {s : String} (ok : t.setText key s = .ok t') : Follows t t' := by
  obtain ⟨limit, s', found, rfl⟩ := setText_eq_ok.mp ok
  exact follows_set found (.text limit s' _ (Text.byteLength_truncate_le s limit))

theorem follows_add {amount : Int32} (ok : t.add key amount = .ok t') : Follows t t' := by
  rcases add_eq_ok.mp ok with ⟨n, found, rfl⟩ | ⟨n, found, rfl⟩
  · exact follows_set found (.unsigned n _)
  · exact follows_set found (.signed n _)

theorem follows_startTimer {now : UInt64} (ok : t.startTimer key now = .ok t') :
    Follows t t' := by
  obtain ⟨timer, timer', found, started, rfl⟩ := startTimer_eq_ok.mp ok
  refine follows_set found (.timer timer timer' ?_)
  intro within
  simp only [Timer.start?] at started
  split at started
  · cases started
  · cases started
    exact within

theorem follows_stopTimer {now : UInt64} (ok : t.stopTimer key now = .ok t') : Follows t t' := by
  obtain ⟨timer, timer', found, stopped, rfl⟩ := stopTimer_eq_ok.mp ok
  refine follows_set found (.timer timer timer' ?_)
  intro _
  obtain ⟨start, -, rfl⟩ := Option.map_eq_some_iff.mp stopped
  exact Nat.min_le_right _ _

theorem follows_readTimer {now : UInt64} {ms : Nat} (ok : t.readTimer key now = .ok (ms, t')) :
    Follows t t' := by
  obtain ⟨timer, found, -, rfl⟩ := readTimer_eq_ok.mp ok
  exact follows_set found (Slot.follows_tally now (.timer timer))

/-- Changing the members of an array at some places, each once, changes it at these places. -/
theorem getElem?_foldl_modify {α : Type} {f : α → α} {keys : List Nat} (once : keys.Nodup)
    (xs : Array α) (key : Nat) :
    (keys.foldl (fun xs key => xs.modify key f) xs)[key]? =
      xs[key]?.map fun x => if key ∈ keys then f x else x := by
  induction keys generalizing xs with
  | nil => exact Option.map_id'.symm
  | cons first keys ih =>
      obtain ⟨new, once⟩ := List.nodup_cons.mp once
      rw [List.foldl_cons, ih once, Array.getElem?_modify]
      by_cases here : first = key
      · subst here
        rw [if_pos rfl, Option.map_map]
        refine congrArg (Option.map · _) (funext fun x => ?_)
        rw [Function.comp_apply, if_neg new, if_pos List.mem_cons_self]
      · rw [if_neg here]
        refine congrArg (Option.map · _) (funext fun x => ?_)
        simp only [List.mem_cons, Ne.symm here, false_or]

theorem getElem?_mapSession (t : Table) (session : Nat) (f : Slot → Slot) (key : Nat) :
    (t.mapSession session f).slots[key]? =
      t.slots[key]?.map fun slot => if t.catalog.InSession session key then f slot else slot := by
  refine (getElem?_foldl_modify (t.catalog.nodup_sessionKeys session) t.slots key).trans ?_
  simp only [Catalog.mem_sessionKeys]

theorem follows_mapSession (t : Table) (session : Nat) {f : Slot → Slot}
    (step : ∀ slot, Slot.Follows slot (f slot)) : Follows t (t.mapSession session f) := by
  refine ⟨rfl, ?_⟩
  intro key
  rw [getElem?_mapSession]
  cases t.slots[key]? with
  | none => exact .none
  | some slot =>
      apply Option.Rel.some
      split
      · exact step slot
      · exact .refl slot

theorem follows_tallySession (t : Table) (session : Nat) (now : UInt64) :
    Follows t (t.tallySession session now) :=
  follows_mapSession t session (Slot.follows_tally now)

theorem follows_resetSession (t : Table) (session : Nat) : Follows t (t.resetSession session) :=
  follows_mapSession t session Slot.follows_reset

theorem follows_resetAll (t : Table) : Follows t t.resetAll := by
  refine ⟨rfl, ?_⟩
  intro key
  show Option.Rel _ _ (t.slots.map Slot.clear)[key]?
  rw [Array.getElem?_map]
  cases t.slots[key]? with
  | none => exact .none
  | some slot => exact .some (Slot.follows_clear slot)

theorem follows_settle (t : Table) {result : Except MetricError Table}
    (step : ∀ t', result = .ok t' → Follows t t') : Follows t (t.settle result).2 := by
  cases result with
  | ok t' => exact step t' rfl
  | error e => exact Follows.refl t

theorem follows_perform (t : Table) (call : Call) : Follows t (t.perform call).2 := by
  cases call with
  | setUnsigned key n => exact follows_settle t fun _ ok => follows_setUnsigned ok
  | setSigned key n => exact follows_settle t fun _ ok => follows_setSigned ok
  | setText key s => exact follows_settle t fun _ ok => follows_setText ok
  | add key amount => exact follows_settle t fun _ ok => follows_add ok
  | startTimer key now => exact follows_settle t fun _ ok => follows_startTimer ok
  | stopTimer key now => exact follows_settle t fun _ ok => follows_stopTimer ok
  | readTimer key now =>
      simp only [perform]
      cases result : t.readTimer key now with
      | ok pair =>
          obtain ⟨ms, t'⟩ := pair
          exact follows_readTimer result
      | error e => exact Follows.refl t
  | isRunning key => exact Follows.refl t
  | readUnsigned key => exact Follows.refl t
  | readSigned key => exact Follows.refl t
  | readText key => exact Follows.refl t
  | kindOf key => exact Follows.refl t
  | value key => exact Follows.refl t
  | tallySession session now => exact follows_tallySession t session now
  | resetSession session => exact follows_resetSession t session
  | resetAll => exact follows_resetAll t

theorem follows_performAll (t : Table) (calls : List Call) : Follows t (t.performAll calls).2 := by
  induction calls generalizing t with
  | nil => exact Follows.refl t
  | cons call calls ih => exact (follows_perform t call).trans (ih _)

/-! ### Calls in a row -/

theorem performAll_append (t : Table) (calls calls' : List Call) :
    (t.performAll (calls ++ calls')).2 = ((t.performAll calls).2.performAll calls').2 := by
  induction calls generalizing t with
  | nil => rfl
  | cons call calls ih => exact ih _

/-- The calls that are made: all of them, or those up to the first that is refused. -/
def made (t : Table) : List Call → List Call
  | [] => []
  | call :: calls => call :: if (t.perform call).1.isOk then (t.perform call).2.made calls else []

theorem made_sublist (t : Table) (calls : List Call) : (t.made calls).Sublist calls := by
  induction calls generalizing t with
  | nil => exact .slnil
  | cons call calls ih =>
      rw [made]
      split
      · exact (ih _).cons_cons call
      · exact (List.nil_sublist calls).cons_cons call

theorem performUntilRefused_table (t : Table) (calls : List Call) :
    (t.performUntilRefused calls).2 = (t.performAll (t.made calls)).2 := by
  induction calls generalizing t with
  | nil => rfl
  | cons call calls ih =>
      rw [performUntilRefused, made, performAll]
      cases answered : t.perform call with
      | mk answer t' =>
          cases answer with
          | ok a => exact ih t'
          | error e => rfl

/-! ### Slots that fit the catalog -/

/-- Every metric of the catalog has a slot that fits it, and there are no other slots. -/
def Fits (t : Table) : Prop :=
  ∀ key : Nat, Option.Rel Slot.Fits (t.catalog.metric? key) t.slots[key]?

theorem Fits.exists_slot (fits : t.Fits) {key : Nat} {e : Catalog.Entry}
    (metric : t.catalog.metric? key = some e) :
    ∃ slot, t.slots[key]? = some slot ∧ Slot.Fits e slot := by
  have fit := fits key
  rw [metric] at fit
  generalize t.slots[key]? = slot at fit
  cases fit with
  | some fit => exact ⟨_, rfl, fit⟩

theorem fits_ofCatalog (c : Catalog) : (ofCatalog c).Fits := by
  intro key
  show Option.Rel _ c.entries[key]? (c.entries.map _)[key]?
  rw [Array.getElem?_map]
  cases c.entries[key]? with
  | none => exact .none
  | some e => exact .some (Slot.fits_empty e)

theorem Fits.follows (fits : t.Fits) (step : Follows t t') : t'.Fits := by
  intro key
  have before := fits key
  have after := step.slots key
  rw [step.catalog]
  generalize t.slots[key]? = slot at before after
  generalize t'.slots[key]? = slot' at after
  cases after with
  | none => exact before
  | some moved =>
      generalize t.catalog.metric? key = e at before
      cases before with
      | some fit => exact .some (fit.follows moved)

theorem fits_performAll (c : Catalog) (calls : List Call) :
    ((ofCatalog c).performAll calls).2.Fits :=
  (fits_ofCatalog c).follows (follows_performAll _ calls)

end Table

end DeviceTelemetry
