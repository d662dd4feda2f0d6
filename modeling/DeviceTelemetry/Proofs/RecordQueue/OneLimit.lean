import DeviceTelemetry.Proofs.RecordQueue.Batching
import Mathlib.Data.List.Chain
import Mathlib.Data.List.Forall2

/-!
# Draining under one limit

A store that is drained under the limit it has hands its records out one by one exactly if no two
neighbours fit into one batch (`Batches.texts_eq_iff`); else it hands out fewer texts than it holds
records (`Batches.length_texts_eq_iff`).
-/

set_option autoImplicit false

namespace DeviceTelemetry

open RecordQueue (Represents)

/-- No two neighbouring records have payloads within the limit. -/
def NoTwoFit (limit : Option Nat) (records : List Bytes) : Prop :=
  records.IsChain fun p p' => ∀ l ∈ limit, l < p.length + p'.length

instance (limit : Option Nat) (records : List Bytes) : Decidable (NoTwoFit limit records) :=
  inferInstanceAs (Decidable (List.IsChain _ records))

@[simp]
theorem noTwoFit_none (records : List Bytes) : NoTwoFit none records :=
  List.Pairwise.isChain (List.pairwise_of_forall fun _ _ _ bad => nomatch bad)

section Batches

variable {limit : Option Nat} {limits : List (Option Nat)} {records texts : List Bytes}
  {batches : List (List Bytes)}

theorem BatchText.eq_of_single {p text : Bytes} (h : BatchText [p] text) : text = p := by
  cases h with
  | single => rfl
  | several more head => exact absurd more (Nat.not_succ_le_self 1)

theorem Batches.length_le (h : Batches limits records batches) :
    batches.length ≤ records.length := by
  induction h with
  | done limits => exact Nat.zero_le _
  | more size rest ih =>
      obtain ⟨pos, inside, -⟩ := size.1
      rw [List.length_drop] at ih
      rw [List.length_cons]
      omega

theorem batch_eq_one (apart : NoTwoFit limit records) {k : Nat}
    (allowed : k ∈ batchSizes limit records) : k = 1 := by
  obtain ⟨pos, inside, one | ⟨l, member, fits⟩⟩ := allowed
  · exact one
  · match records, k with
    | p :: p' :: rest, k + 2 =>
        have long := (List.isChain_cons_cons.mp apart).1 l member
        simp only [List.take_succ_cons, List.flatten_cons, List.length_append] at fits
        omega
    | _, 1 => rfl
    | [p], k + 2 => simp at inside
    | [], k + 2 => simp at inside

theorem Batches.eq_of_noTwoFit (h : Batches limits records batches)
    (same : ∀ l ∈ limits, l = limit) (apart : NoTwoFit limit records)
    (written : List.Forall₂ BatchText batches texts) : texts = records := by
  induction h generalizing texts with
  | done limits =>
      cases written
      rfl
  | @more limit' limits records batches k size rest ih =>
      obtain rfl := same _ List.mem_cons_self
      obtain rfl := batch_eq_one apart size.1
      obtain ⟨p, ps, rfl⟩ := List.exists_cons_of_length_pos size.1.2.1
      cases written with
      | cons text others =>
          have tail := ih (fun l later => same l (List.mem_cons_of_mem _ later)) apart.tail others
          rw [tail, text.eq_of_single]
          rfl

theorem Batches.noTwoFit_of_length (h : Batches limits records batches)
    (same : ∀ l ∈ limits, l = limit) (count : batches.length = records.length) :
    NoTwoFit limit records := by
  induction h with
  | done limits => exact .nil
  | @more limit' limits records batches k size rest ih =>
      obtain rfl := same _ List.mem_cons_self
      obtain ⟨pos, inside, -⟩ := size.1
      have fewer := rest.length_le
      rw [List.length_drop] at fewer
      rw [List.length_cons] at count
      obtain rfl : k = 1 := by omega
      obtain ⟨p, ps, rfl⟩ := List.exists_cons_of_length_pos inside
      have tail := ih (fun l later => same l (List.mem_cons_of_mem _ later)) (Nat.succ.inj count)
      cases ps with
      | nil => exact .singleton p
      | cons p' ps =>
          refine List.isChain_cons_cons.mpr ⟨?_, tail⟩
          intro l member
          by_contra fit
          have two : 2 ∈ batchSizes limit' (p :: p' :: ps) := by
            refine ⟨by decide, by simp, .inr ⟨l, member, ?_⟩⟩
            simp only [List.take_succ_cons, List.take_zero, List.flatten_cons, List.flatten_nil,
              List.append_nil, List.length_append]
            omega
          exact absurd (size.2 two) (by decide)

/-- As many texts as records are read exactly if no two neighbours fit into one batch. -/
theorem Batches.length_texts_eq_iff (h : Batches limits records batches)
    (same : ∀ l ∈ limits, l = limit) (written : List.Forall₂ BatchText batches texts) :
    texts.length = records.length ↔ NoTwoFit limit records := by
  constructor
  · intro count
    exact h.noTwoFit_of_length same (written.length_eq.trans count)
  · intro apart
    exact congrArg List.length (h.eq_of_noTwoFit same apart written)

theorem Batches.texts_eq_iff (h : Batches limits records batches)
    (same : ∀ l ∈ limits, l = limit) (written : List.Forall₂ BatchText batches texts) :
    texts = records ↔ NoTwoFit limit records := by
  constructor
  · intro whole
    exact (h.length_texts_eq_iff same written).mp (congrArg List.length whole)
  · intro apart
    exact h.eq_of_noTwoFit same apart written

end Batches

/-- Draining a store is draining it under the limit that it has, again and again. -/
theorem RecordQueue.Represents.drain_eq {ν : Type} [Nonvolatile ν] {s : RecordStore ν}
    {q : RecordQueue ν} (h : Represents s q) (ready : q.Ready) (count : Nat) :
    s.drain count = s.drainUnder (List.replicate count s.batchLimit) := by
  induction count generalizing s q with
  | zero => rfl
  | succ count ih =>
      have unchanged : s.setBatchLimit s.batchLimit = s := rfl
      have limit := h.batchLimit
      obtain ⟨same, next⟩ := h.drainOne
      rw [RecordStore.drain, List.replicate_succ, RecordStore.drainUnder, unchanged]
      generalize s.drainOne = outcome at same next
      obtain ⟨round, s'⟩ := outcome
      dsimp only at same next
      by_cases empty : q.records = []
      · rw [ready.drainOne_nil empty] at same
        subst same
        rfl
      · obtain ⟨k, -, drained⟩ := ready.exists_drainOne empty
        rw [drained] at same next
        subst same
        have rest := ih next ⟨ready.backing, rfl⟩
        have kept : s'.batchLimit = q.batchLimit := next.batchLimit
        rw [kept, ← limit] at rest
        dsimp only
        rw [rest]

end DeviceTelemetry
