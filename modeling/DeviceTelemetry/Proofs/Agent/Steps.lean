import DeviceTelemetry.Agent.Operation
import DeviceTelemetry.Proofs.TableSteps

/-!
# What the steps of an agent do

Collectors and hooks change the table as operations on a table do, and apart from the table they
change what is theirs only. `refresh_eq` says this of all that happens before a session is
reported.
-/

set_option autoImplicit false

namespace DeviceTelemetry

open Table (Follows)

/-! ### Collectors -/

/-- What the collectors do to the table at a heartbeat, told as calls. -/
def Collectors.made (c : Collectors) (t : Table) (gauge : Gauge) (now : UInt64) :
    List Table.Call :=
  let first := c.reliability.elim [] fun r => t.made (r.calls now)
  first ++ c.battery.elim [] fun b => (t.performAll first).2.made (b.calls gauge now)

theorem Collectors.collect_eq (c : Collectors) (t : Table) (gauge : Gauge) (now : UInt64) :
    c.collect t gauge now =
      ((t.performAll (c.made t gauge now)).2, c.collected gauge now) := by
  unfold Collectors.collect Collectors.made Reliability.collect Battery.collect
  rw [Table.performAll_append]
  cases c.reliability with
  | none => cases c.battery <;> simp [Table.performUntilRefused_table, Table.performAll]
  | some r => cases c.battery <;> simp [Table.performUntilRefused_table, Table.performAll]

theorem Reliability.eq_add_of_mem_calls {r : Reliability} {now : UInt64} {call : Table.Call}
    (member : call ∈ r.calls now) : ∃ key amount, call = .add key amount := by
  unfold calls at member
  split at member
  · cases member
  · rcases List.mem_pair.mp member with rfl | rfl
    · exact ⟨_, _, rfl⟩
    · exact ⟨_, _, rfl⟩

theorem Battery.eq_setUnsigned_of_mem_calls {b : Battery} {gauge : Gauge} {now : UInt64}
    {call : Table.Call} (member : call ∈ b.calls gauge now) :
    ∃ key n, call = .setUnsigned key n := by
  unfold calls at member
  split at member
  · split at member
    · simp only [List.cons_append, List.nil_append, List.mem_cons, List.not_mem_nil, or_false]
        at member
      rcases member with rfl | rfl | rfl <;> exact ⟨_, _, rfl⟩
    · rw [List.nil_append, List.mem_singleton] at member
      exact ⟨_, _, member⟩
  · cases member

theorem Collectors.eq_of_mem_made {c : Collectors} {t : Table} {gauge : Gauge} {now : UInt64}
    {call : Table.Call} (member : call ∈ c.made t gauge now) :
    (∃ key amount, call = .add key amount) ∨ ∃ key n, call = .setUnsigned key n := by
  rcases List.mem_append.mp member with hours | charge
  · cases enabled : c.reliability with
    | none => simp [enabled] at hours
    | some r =>
        rw [enabled] at hours
        exact .inl (Reliability.eq_add_of_mem_calls ((t.made_sublist _).mem hours))
  · cases enabled : c.battery with
    | none => simp [enabled] at charge
    | some b =>
        rw [enabled] at charge
        exact .inr (Battery.eq_setUnsigned_of_mem_calls ((Table.made_sublist _ _).mem charge))

theorem Collectors.follows_collect (c : Collectors) (t : Table) (gauge : Gauge) (now : UInt64) :
    Follows t (c.collect t gauge now).1 := by
  rw [collect_eq]
  exact Table.follows_performAll t _

theorem Collectors.follows_changeConnection (c : Collectors) (t : Table) (state : ConnectionState)
    (now : UInt64) : Follows t (c.changeConnection t state now).2 := by
  unfold Collectors.changeConnection
  split
  · exact Follows.refl t
  · exact Table.follows_performAll t _

theorem Collectors.follows_countSync {c : Collectors} {t t' : Table} {success : Bool}
    (ok : c.countSync t success = .ok t') : Follows t t' := by
  unfold Collectors.countSync at ok
  split at ok
  · cases ok
  · exact Table.follows_add ok

/-! ### Hooks -/

def CallsOnly (hook : Hook) : Prop := ∀ step ∈ hook, ∃ call, step = HookStep.call call

namespace Agent

variable {ν : Type}

theorem record_of_ok {a : Agent ν} {e : Event} {n : Nat} {s : RecordStore ν}
    (recorded : a.store.recordEvent a.device e = (.ok n, s)) :
    a.record e = (true, { a with store := s }) := by
  simp only [record, withStore, recorded]

theorem record_of_error {a : Agent ν} {e : Event} {error : EncodeError} {s : RecordStore ν}
    (refused : a.store.recordEvent a.device e = (.error error, s)) :
    a.record e = (false, { a with store := s }.drop) := by
  simp only [record, withStore, refused]

theorem record_eq (a : Agent ν) (e : Event) :
    ∃ s n, (a.record e).2 = { a with store := s, droppedEvents := n } := by
  cases answer : a.store.recordEvent a.device e with
  | mk result s =>
      cases result with
      | ok n => exact ⟨s, a.droppedEvents, by rw [record_of_ok answer]⟩
      | error error => exact ⟨s, _, by rw [record_of_error answer]; rfl⟩

theorem flushStaged_of_none {a : Agent ν} (unstaged : a.mailbox.staged = none) :
    a.flushStaged = (0, a) := by
  rw [flushStaged, Mailbox.take_eq, unstaged]

theorem flushStaged_of_some {a : Agent ν} {t : Trace} (staged : a.mailbox.staged = some t) :
    a.flushStaged.2 = ({ a with mailbox := a.mailbox.take.2 }.record (.trace t)).2 := by
  rw [flushStaged, Mailbox.take_eq, staged]
  dsimp only
  generalize Agent.record _ _ = answer
  obtain ⟨kept, a'⟩ := answer
  cases kept with
  | true => rfl
  | false => rfl

theorem flushStaged_eq (a : Agent ν) :
    ∃ s n m, a.flushStaged.2 = { a with store := s, droppedEvents := n, mailbox := m } := by
  cases staged : a.mailbox.staged with
  | none => exact ⟨a.store, a.droppedEvents, a.mailbox, by rw [flushStaged_of_none staged]⟩
  | some t =>
      obtain ⟨s, n, same⟩ := record_eq { a with mailbox := a.mailbox.take.2 } (.trace t)
      exact ⟨s, n, _, (flushStaged_of_some staged).trans same⟩

/-- An attempt to change the table leaves it as it is or as it is to be. -/
theorem alterTable_eq (a : Agent ν) (f : Table → Except MetricError Table) :
    a.alterTable f = ((a.table.settle (f a.table)).1.map fun _ => (),
      { a with table := (a.table.settle (f a.table)).2 }) := by
  unfold alterTable
  cases f a.table with
  | ok t => rfl
  | error e => rfl

theorem performHook_eq (a : Agent ν) (hook : Hook) :
    ∃ t m, (a.performHook hook).2 = { a with table := t, mailbox := m } ∧ Follows a.table t ∧
      (CallsOnly hook → m = a.mailbox) := by
  induction hook generalizing a with
  | nil => exact ⟨a.table, a.mailbox, rfl, Follows.refl _, fun _ => rfl⟩
  | cons step steps ih =>
      cases step with
      | call c =>
          obtain ⟨t, m, same, step, kept⟩ := ih { a with table := (a.table.perform c).2 }
          refine ⟨t, m, ?_, (Table.follows_perform a.table c).trans step, ?_⟩
          · rw [performHook]
            exact same
          · intro calls
            exact kept fun step later => calls step (List.mem_cons_of_mem _ later)
      | stage trace =>
          obtain ⟨t, m, same, step, -⟩ := ih { a with mailbox := (a.mailbox.stage trace).2 }
          refine ⟨t, m, ?_, step, ?_⟩
          · rw [performHook]
            exact same
          · intro calls
            obtain ⟨call, bad⟩ := calls _ List.mem_cons_self
            cases bad

theorem runHook_eq (a : Agent ν) (point : HookPoint) (hook : Option Hook) :
    ∃ t m runs, a.runHook point hook = { a with table := t, mailbox := m, hookRuns := runs } ∧
      Follows a.table t ∧ ((∀ h ∈ hook, CallsOnly h) → m = a.mailbox) := by
  cases hook with
  | none => exact ⟨a.table, a.mailbox, a.hookRuns, rfl, Follows.refl _, fun _ => rfl⟩
  | some hook =>
      obtain ⟨t, m, same, step, kept⟩ := a.performHook_eq hook
      refine ⟨t, m, ⟨point, a.table.readings, (a.performHook hook).1⟩ :: a.hookRuns, ?_, step,
        fun calls => kept (calls hook rfl)⟩
      rw [runHook]
      dsimp only
      rw [same]

theorem refresh_eq (a : Agent ν) (session : Nat) :
    ∃ t c m runs, a.refresh session =
        { a with table := t, collectors := c, mailbox := m, hookRuns := runs } ∧
      Follows a.table t ∧ ((∀ h ∈ a.collectHook, CallsOnly h) → m = a.mailbox) := by
  have tallied := Table.follows_tallySession a.table session a.now
  unfold refresh
  dsimp only
  split
  · have collected := a.collectors.follows_collect (a.table.tallySession session a.now)
      a.platform.gauge a.now
    obtain ⟨t, m, runs, same, step, kept⟩ := runHook_eq
      { a with
        table := (a.collectors.collect (a.table.tallySession session a.now) a.platform.gauge
          a.now).1
        collectors := (a.collectors.collect (a.table.tallySession session a.now) a.platform.gauge
          a.now).2 } .heartbeat a.collectHook
    exact ⟨t, _, m, runs, same, tallied.trans (collected.trans step), kept⟩
  · exact ⟨_, a.collectors, a.mailbox, a.hookRuns, rfl, tallied, fun _ => rfl⟩

/-! ### Duration timers -/

theorem durationKey_eq_ok {a : Agent ν} {number key : Nat} :
    a.durationKey number = .ok key ↔ a.table.catalog.durationKey? number = some key := by
  unfold durationKey
  cases a.table.catalog.durationKey? number with
  | none => exact ⟨nofun, nofun⟩
  | some key' => rw [Except.ok.injEq, Option.some.injEq]

theorem durationKey_ne_outOfSpace (a : Agent ν) (number session : Nat) :
    a.durationKey number ≠ .error (.outOfSpace session) := by
  unfold durationKey
  cases a.table.catalog.durationKey? number with
  | none => exact nofun
  | some key => exact nofun

theorem known_of_durationKey {a : Agent ν} {number key : Nat}
    (duration : a.durationKey number = .ok key) : number < a.table.catalog.sessionCount := by
  rw [durationKey_eq_ok] at duration
  exact (Catalog.user_of_durationKey? duration).2

theorem durationKey_ne_heartbeat {a : Agent ν} {session key : Nat}
    (duration : a.durationKey session = .ok key) : session ≠ Catalog.heartbeat := by
  rw [durationKey_eq_ok] at duration
  exact (Catalog.user_of_durationKey? duration).1

/-! ### Operations in a row -/

theorem performAll_append [Nonvolatile ν] (a : Agent ν)
    (first second : List (Operation ν)) :
    (a.performAll (first ++ second)).2 = ((a.performAll first).2.performAll second).2 := by
  induction first generalizing a with
  | nil => rfl
  | cons op first ih => exact ih (a.perform op).2

end Agent

end DeviceTelemetry
