import Mathlib.Logic.Function.Basic
import DeviceTelemetry.Trace

/-!
# Calls that race for the mailbox

Any number of parties call the mailbox, and a party may be interrupted by the others after each of
its steps. A `Race` is the shared cell together with how far every party has come; beside them it
keeps lists of what became of the traces. A call that is not interrupted is a call of the cell
(`Race.cell_stage`, `Race.cell_take`).

The state word keeps all but one party away from the slot (`Race.Owned`). So a trace comes out as
it was put in, at most once and in its turn, and those that could not be staged are counted
(`Race.traces_are_handed_on`).
-/

set_option autoImplicit false

namespace DeviceTelemetry.Mailbox

open Function (update)

/-- How far a party has come in its call. -/
inductive Progress where
  | idle
  /-- The slot is claimed for the trace. -/
  | writing (t : Trace)
  /-- The trace is in the slot. -/
  | written (t : Trace)
  /-- The slot is claimed for what is in it. -/
  | reading
  | read (t : Trace)
deriving DecidableEq, Repr

inductive Move where
  | stage (party : Nat) (t : Trace)
  | take (party : Nat)
  /-- The next step of the call that the party has begun. -/
  | proceed (party : Nat)

structure Race where
  cell : Cell := {}
  progress : Nat → Progress := fun _ => .idle
  /-- The traces that the slot was claimed for, in their order. -/
  accepted : List Trace := []
  refused : List Trace := []
  published : List Trace := []
  taken : List Trace := []

namespace Race

def stage (r : Race) (party : Nat) (t : Trace) : Race :=
  match r.cell.claim with
  | (.ok (), cell) =>
    { r with cell, progress := update r.progress party (.writing t), accepted := r.accepted ++ [t] }
  | (.error _, cell) => { r with cell, refused := r.refused ++ [t] }

def take (r : Race) (party : Nat) : Race :=
  match r.cell.seize with
  | (true, cell) => { r with cell, progress := update r.progress party .reading }
  | (false, cell) => { r with cell }

def proceed (r : Race) (party : Nat) : Race :=
  match r.progress party with
  | .idle => r
  | .writing t =>
    { r with cell := r.cell.write t, progress := update r.progress party (.written t) }
  | .written t =>
    { r with
      cell := r.cell.publish
      progress := update r.progress party .idle
      published := r.published ++ [t] }
  | .reading => { r with progress := update r.progress party (.read r.cell.slot) }
  | .read t =>
    { r with
      cell := r.cell.release
      progress := update r.progress party .idle
      taken := r.taken ++ [t] }

/-- A party begins a call only if it has none under way. -/
def step (r : Race) : Move → Race
  | .stage party t => if r.progress party = .idle then r.stage party t else r
  | .take party => if r.progress party = .idle then r.take party else r
  | .proceed party => r.proceed party

def run (r : Race) (moves : List Move) : Race := moves.foldl step r

variable {r : Race} {party : Nat} {p : Progress}

/-! ### Calls that are not interrupted -/

theorem cell_stage (idle : r.progress party = .idle) (t : Trace) :
    (r.run [.stage party t, .proceed party, .proceed party]).cell = (r.cell.stage t).2 := by
  cases phase : r.cell.phase <;>
    simp [run, step, stage, proceed, Cell.stage, Cell.claim, idle, phase]

theorem cell_take (idle : r.progress party = .idle) :
    (r.run [.take party, .proceed party, .proceed party]).cell = r.cell.take.2 := by
  cases phase : r.cell.phase <;>
    simp [run, step, take, proceed, Cell.take, Cell.seize, idle, phase]

/-! ### Who may touch the slot -/

/-- One party has come so far in its call, and no other has one under way. -/
def Alone (r : Race) (party : Nat) (p : Progress) : Prop :=
  r.progress = update (fun _ => .idle) party p

/-- The trace in the slot was published last and has not been taken. -/
def Waits (r : Race) : Prop :=
  r.published = r.accepted ∧
    ∃ earlier, r.published = earlier ++ [r.cell.slot] ∧ r.taken.Sublist earlier

/-- What the state word says is so: between a claim and the step that hands the slot over, the
party that claimed it is the only one with a call under way. -/
inductive Owned (r : Race) : Prop where
  | empty (word : r.cell.phase = .empty) (idle : r.progress = fun _ => .idle)
      (all : r.published = r.accepted) (order : r.taken.Sublist r.published)
  | writing (word : r.cell.phase = .writing) (party : Nat) (t : Trace)
      (alone : r.Alone party (.writing t)) (all : r.published ++ [t] = r.accepted)
      (order : r.taken.Sublist r.published)
  | written (word : r.cell.phase = .writing) (party : Nat)
      (alone : r.Alone party (.written r.cell.slot))
      (all : r.published ++ [r.cell.slot] = r.accepted) (order : r.taken.Sublist r.published)
  | full (word : r.cell.phase = .full) (idle : r.progress = fun _ => .idle) (waits : r.Waits)
  | reading (word : r.cell.phase = .taking) (party : Nat) (alone : r.Alone party .reading)
      (waits : r.Waits)
  | read (word : r.cell.phase = .taking) (party : Nat) (alone : r.Alone party (.read r.cell.slot))
      (waits : r.Waits)

theorem Waits.order (h : r.Waits) : r.taken.Sublist r.published := by
  obtain ⟨-, earlier, last, order⟩ := h
  rw [last]
  exact order.trans (List.sublist_append_left _ _)

namespace Alone

theorem of_idle (idle : r.progress = fun _ => .idle) (party : Nat) (p : Progress) :
    update r.progress party p = update (fun _ => .idle) party p := by
  rw [idle]

theorem next (h : r.Alone party p) (p' : Progress) :
    update r.progress party p' = update (fun _ => .idle) party p' := by
  rw [h, Function.update_idem]

theorem finish (h : r.Alone party p) : update r.progress party .idle = fun _ => .idle := by
  rw [h.next]
  exact Function.update_eq_self party _

theorem own (h : r.Alone party p) : r.progress party = p := by
  rw [h, Function.update_self]

theorem eq_of_progress (h : r.Alone party p) {other : Nat} (busy : r.progress other ≠ .idle) :
    other = party := by
  by_contra different
  rw [h, Function.update_of_ne different] at busy
  exact busy rfl

end Alone

/-! ### One step -/

/-- A call that is refused leaves the slot and the other parties alone. -/
theorem Owned.refuse (h : r.Owned) (dropped : UInt32) (refused : List Trace) :
    Owned { r with cell := { r.cell with dropped }, refused } := by
  cases h with
  | empty word idle all order => exact .empty word idle all order
  | writing word party t alone all order => exact .writing word party t alone all order
  | written word party alone all order => exact .written word party alone all order
  | full word idle waits => exact .full word idle waits
  | reading word party alone waits => exact .reading word party alone waits
  | read word party alone waits => exact .read word party alone waits

theorem stage_of_claimed (claimed : r.cell.phase = .writing ∨ r.cell.phase = .taking) (t : Trace) :
    r.stage party t =
      { r with
        cell := { r.cell with dropped := r.cell.dropped + 1 }
        refused := r.refused ++ [t] } := by
  rcases claimed with word | word <;> simp [stage, Cell.claim, word]

theorem stage_of_atRest (rest : r.cell.AtRest) (t : Trace) :
    r.stage party t =
      { r with
        cell := { r.cell with phase := .writing }
        progress := update r.progress party (.writing t)
        accepted := r.accepted ++ [t] } := by
  rcases rest with word | word <;> simp [stage, Cell.claim, word]

theorem Owned.stage (h : r.Owned) (party : Nat) (t : Trace) : (r.stage party t).Owned := by
  have refused (claimed : r.cell.phase = .writing ∨ r.cell.phase = .taking) :
      (r.stage party t).Owned := by
    rw [stage_of_claimed claimed]
    exact h.refuse _ _
  -- only a mailbox at rest lets a party in
  cases h with
  | empty word idle all order =>
      rw [stage_of_atRest (.inl word)]
      exact .writing rfl party t (.of_idle idle party _) (congrArg (· ++ [t]) all) order
  | full word idle waits =>
      rw [stage_of_atRest (.inr word)]
      exact .writing rfl party t (.of_idle idle party _) (congrArg (· ++ [t]) waits.1) waits.order
  | writing word => exact refused (.inl word)
  | written word => exact refused (.inl word)
  | reading word => exact refused (.inr word)
  | read word => exact refused (.inr word)

theorem take_of_not_full (other : r.cell.phase ≠ .full) : r.take party = r := by
  unfold take Cell.seize
  cases word : r.cell.phase with
  | full => exact absurd word other
  | _ => rfl

theorem Owned.take (h : r.Owned) (party : Nat) : (r.take party).Owned := by
  by_cases full : r.cell.phase = .full
  · cases h with
    | full word idle waits =>
        rw [Race.take, Cell.seize, word]
        exact .reading rfl party (.of_idle idle party _) waits
    | _ => simp_all
  · rw [take_of_not_full full]
    exact h

/-- The party that has claimed the slot takes its next step, and nobody else has one to take. -/
theorem Owned.proceed (h : r.Owned) (party : Nat) : (r.proceed party).Owned := by
  rcases eq_or_ne (r.progress party) .idle with resting | busy
  · rw [Race.proceed, resting]
    exact h
  cases h with
  | empty word idle => exact absurd (congrFun idle party) busy
  | full word idle => exact absurd (congrFun idle party) busy
  | writing word owner t alone all order =>
      obtain rfl := alone.eq_of_progress busy
      rw [Race.proceed, alone.own]
      exact .written word party (alone.next _) all order
  | written word owner alone all order =>
      obtain rfl := alone.eq_of_progress busy
      rw [Race.proceed, alone.own]
      -- whatever was published before has been taken by now or is lost
      exact .full rfl alone.finish ⟨all, r.published, rfl, order⟩
  | reading word owner alone waits =>
      obtain rfl := alone.eq_of_progress busy
      rw [Race.proceed, alone.own]
      exact .read word party (alone.next _) waits
  | read word owner alone waits =>
      obtain ⟨all, earlier, last, order⟩ := waits
      obtain rfl := alone.eq_of_progress busy
      rw [Race.proceed, alone.own]
      refine .empty rfl alone.finish all ?_
      show (r.taken ++ [r.cell.slot]).Sublist r.published
      rw [last]
      exact order.append (List.Sublist.refl _)

theorem step_cases {P : Race → Prop} (move : Move) (same : P r)
    (stage : ∀ party t, P (r.stage party t)) (take : ∀ party, P (r.take party))
    (proceed : ∀ party, P (r.proceed party)) : P (r.step move) := by
  cases move with
  | stage party t =>
      rw [step]
      split
      · exact stage party t
      · exact same
  | take party =>
      rw [step]
      split
      · exact take party
      · exact same
  | proceed party => exact proceed party

theorem Owned.step (h : r.Owned) (move : Move) : (r.step move).Owned :=
  step_cases move h h.stage h.take h.proceed

/-- Every trace that was refused has been counted. -/
def Counted (r : Race) : Prop := r.cell.dropped = UInt32.ofNat r.refused.length

theorem Counted.stage (h : r.Counted) (party : Nat) (t : Trace) : (r.stage party t).Counted := by
  unfold Counted at h ⊢
  cases word : r.cell.phase <;> simp [Race.stage, Cell.claim, word, h]

theorem Counted.take (h : r.Counted) (party : Nat) : (r.take party).Counted := by
  unfold Race.take Cell.seize
  cases r.cell.phase <;> exact h

theorem Counted.proceed (h : r.Counted) (party : Nat) : (r.proceed party).Counted := by
  unfold Race.proceed
  cases r.progress party <;> exact h

theorem Counted.step (h : r.Counted) (move : Move) : (r.step move).Counted :=
  step_cases move h h.stage h.take h.proceed

/-! ### Whole races -/

theorem run_cases {P : Race → Prop} (step : ∀ r move, P r → P (step r move)) (start : P r)
    (moves : List Move) : P (r.run moves) := by
  induction moves generalizing r with
  | nil => exact start
  | cons move moves ih => exact ih (step r move start)

theorem Owned.exists_alone (h : r.Owned) : ∃ owner p, r.Alone owner p := by
  have resting (idle : r.progress = fun _ => .idle) : ∃ owner p, r.Alone owner p :=
    ⟨0, .idle, idle.trans (Function.update_eq_self 0 _).symm⟩
  cases h with
  | empty word idle => exact resting idle
  | full word idle => exact resting idle
  | writing word owner t alone => exact ⟨owner, _, alone⟩
  | written word owner alone => exact ⟨owner, _, alone⟩
  | reading word owner alone => exact ⟨owner, _, alone⟩
  | read word owner alone => exact ⟨owner, _, alone⟩

theorem Owned.order (h : r.Owned) : r.taken.Sublist r.published ∧ r.published <+: r.accepted := by
  cases h with
  | empty word idle all order => exact ⟨order, all ▸ List.prefix_rfl⟩
  | writing word owner t alone all order => exact ⟨order, [t], all⟩
  | written word owner alone all order => exact ⟨order, [r.cell.slot], all⟩
  | full word idle waits => exact ⟨waits.order, waits.1 ▸ List.prefix_rfl⟩
  | reading word owner alone waits => exact ⟨waits.order, waits.1 ▸ List.prefix_rfl⟩
  | read word owner alone waits => exact ⟨waits.order, waits.1 ▸ List.prefix_rfl⟩

theorem Owned.settled (h : r.Owned) (idle : ∀ party, r.progress party = .idle) :
    r.cell.AtRest ∧ r.published = r.accepted ∧ (r.cell.isPending = true → r.Waits) := by
  have busy {owner : Nat} {p : Progress} (alone : r.Alone owner p) : p = .idle :=
    alone.own.symm.trans (idle owner)
  cases h with
  | empty word _ all =>
      refine ⟨.inl word, all, fun pending => ?_⟩
      rw [Cell.isPending, word] at pending
      cases pending
  | full word _ waits => exact ⟨.inr word, waits.1, fun _ => waits⟩
  | writing word owner t alone => cases busy alone
  | written word owner alone => cases busy alone
  | reading word owner alone => cases busy alone
  | read word owner alone => cases busy alone

/-- However the steps of the calls come, only one call at a time is past its claim. What is taken
was published before, each trace at most once and in the same order, and traces are published in
the order in which the slot was claimed for them; the others are counted. Once no call is under
way, every trace that was not refused has been published, and one that is still waiting is the one
for which the slot was claimed last. -/
theorem traces_are_handed_on (moves : List Move) :
    let r := run {} moves
    (∀ party other, r.progress party ≠ .idle → r.progress other ≠ .idle → party = other) ∧
      r.taken.Sublist r.published ∧ r.published <+: r.accepted ∧
      r.cell.dropped = UInt32.ofNat r.refused.length ∧
      ((∀ party, r.progress party = .idle) → r.cell.AtRest ∧ r.published = r.accepted ∧
        (r.cell.isPending = true →
          ∃ earlier, r.accepted = earlier ++ [r.cell.slot] ∧ r.taken.Sublist earlier)) := by
  intro r
  have owned : r.Owned := run_cases (fun _ move h => h.step move) (.empty rfl rfl rfl .slnil) moves
  have counted : r.Counted :=
    run_cases (fun _ move h => h.step move) (show Counted {} from rfl) moves
  obtain ⟨order, claims⟩ := owned.order
  refine ⟨?_, order, claims, counted, ?_⟩
  · intro party other busy busy'
    obtain ⟨owner, p, alone⟩ := owned.exists_alone
    exact (alone.eq_of_progress busy).trans (alone.eq_of_progress busy').symm
  · intro idle
    obtain ⟨rest, all, waits⟩ := owned.settled idle
    exact ⟨rest, all, fun pending => all ▸ (waits pending).2⟩

/-- One party finds the slot claimed by another that stages, and then by one that takes. -/
example :
    let r := run {} [.stage 0 { reason := 1 }, .proceed 0, .stage 1 { reason := 2 }, .take 2,
      .proceed 0, .take 2, .proceed 2, .stage 1 { reason := 3 }, .proceed 2]
    r.taken = [{ reason := 1 }] ∧ r.cell.dropped = 2 ∧ r.cell.phase = .empty := by
  decide

end Race

end DeviceTelemetry.Mailbox
