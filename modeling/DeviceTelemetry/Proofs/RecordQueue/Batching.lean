import DeviceTelemetry.Proofs.Cbor.WellFormed
import DeviceTelemetry.Proofs.RecordQueue.Contents
import Mathlib.Order.Bounds.Defs

/-!
# Draining in batches

A reader that holds nothing is handed the largest batch of the oldest records that the limit allows
(`isGreatest_batchCount`), and reads them as one CBOR array, or a record alone as it is
(`BatchText`). Round after round, under limits that may change, the batches are all records in
their order (`batched_drain_delivers`).
-/

set_option autoImplicit false

namespace DeviceTelemetry

open RecordStore (headerSize Round)

/-- The numbers of oldest records that may be handed out together: one, or as many as have payloads
within the limit. Without a limit it is one. -/
def batchSizes (limit : Option Nat) (records : List Bytes) : Set Nat :=
  {k | 0 < k ∧ k ≤ records.length ∧ (k = 1 ∨ ∃ l ∈ limit, (records.take k).flatten.length ≤ l)}

inductive BatchText : List Bytes → Bytes → Prop
  | single (p : Bytes) : BatchText [p] p
  | several {batch : List Bytes} {lead : Bytes} (more : 2 ≤ batch.length)
      (head : Cbor.ShortestHead .array batch.length lead) : BatchText batch (lead ++ batch.flatten)

/-- Batches of records, each as large as the next of the limits allows, until there are no records
left. -/
inductive Batches : List (Option Nat) → List Bytes → List (List Bytes) → Prop
  | done (limits : List (Option Nat)) : Batches limits [] []
  | more {limit : Option Nat} {limits : List (Option Nat)} {records : List Bytes}
      {batches : List (List Bytes)} {k : Nat} (size : IsGreatest (batchSizes limit records) k)
      (rest : Batches limits (records.drop k) batches) :
      Batches (limit :: limits) records (records.take k :: batches)

def RecordStore.drainUnder {ν : Type} [Nonvolatile ν] (s : RecordStore ν) :
    List (Option Nat) → List Round × RecordStore ν
  | [] => ([], s)
  | limit :: limits =>
    match (s.setBatchLimit limit).drainOne with
    | (.nothing, s) => ([], s)
    | (round, s) =>
      let (rounds, s) := s.drainUnder limits
      (round :: rounds, s)

/-- The oldest `k` records are reported, read as `text`, and gone once they are marked as read. -/
structure RecordStore.Delivers {ν : Type} [Nonvolatile ν] (s : RecordStore ν) (k : Nat)
    (text : Bytes) : Prop where
  largest : IsGreatest (batchSizes s.batchLimit s.payloads) k
  written : BatchText (s.payloads.take k) text
  reported : s.hasMore.1 = some text.length
  read : (s.hasMore.2.read 0 text.length).1 = some text
  marked : (s.hasMore.2.read 0 text.length).2.markRead.payloads = s.payloads.drop k

/-- The batches are all the records, each once and in their order. -/
theorem Batches.flatten_eq {limits : List (Option Nat)} {records : List Bytes}
    {batches : List (List Bytes)} (h : Batches limits records batches) :
    batches.flatten = records := by
  induction h with
  | done limits => rfl
  | more size rest ih => rw [List.flatten_cons, ih, List.take_append_drop]

namespace RecordQueue

/-! ### The size of a batch -/

/-- Further records go in as long as all payloads together stay within the limit. -/
theorem le_furtherCount_iff (limit total : Nat) (records : List Bytes) (m : Nat) :
    m ≤ furtherCount limit total records ↔
      m ≤ records.length ∧ (m = 0 ∨ total + (records.take m).flatten.length ≤ limit) := by
  induction records generalizing total m with
  | nil =>
      rw [furtherCount, List.length_nil]
      constructor
      · intro zero
        exact ⟨zero, .inl (Nat.le_zero.mp zero)⟩
      · rintro ⟨zero, -⟩
        exact zero
  | cons p ps ih =>
      cases m with
      | zero => exact iff_of_true (Nat.zero_le _) ⟨Nat.zero_le _, .inl rfl⟩
      | succ m =>
          rw [furtherCount, List.take_succ_cons, List.flatten_cons, List.length_append,
            List.length_cons]
          by_cases within : total + p.length ≤ limit
          · rw [if_pos within, Nat.add_le_add_iff_right, ih]
            constructor
            · rintro ⟨inside, rfl | fits⟩
              · refine ⟨by omega, .inr ?_⟩
                rw [List.take_zero, List.flatten_nil, List.length_nil]
                omega
              · exact ⟨by omega, .inr (by omega)⟩
            · rintro ⟨inside, bad | fits⟩
              · cases bad
              · exact ⟨by omega, .inr (by omega)⟩
          · rw [if_neg within]
            constructor
            · intro bad
              cases bad
            · rintro ⟨-, bad | fits⟩
              · cases bad
              · omega

theorem isGreatest_batchCount (limit : Nat) {records : List Bytes} (nonempty : records ≠ []) :
    IsGreatest (batchSizes (some limit) records) (batchCount limit records) := by
  obtain ⟨p, ps, rfl⟩ := List.exists_cons_of_ne_nil nonempty
  have count (m : Nat) := le_furtherCount_iff limit p.length ps m
  have text (m : Nat) : ((p :: ps).take (m + 1)).flatten.length =
      p.length + (ps.take m).flatten.length := by
    rw [List.take_succ_cons, List.flatten_cons, List.length_append]
  rw [batchCount]
  constructor
  · obtain ⟨inside, one | fits⟩ := (count _).mp (Nat.le_refl _)
    · exact ⟨Nat.succ_pos _, Nat.succ_le_succ inside, .inl (congrArg (· + 1) one)⟩
    · exact ⟨Nat.succ_pos _, Nat.succ_le_succ inside, .inr ⟨limit, rfl, by rw [text]; exact fits⟩⟩
  · rintro k ⟨pos, inside, allowed⟩
    obtain ⟨m, rfl⟩ := Nat.exists_eq_add_one.mpr pos
    apply Nat.succ_le_succ
    apply (count m).mpr
    refine ⟨Nat.le_of_succ_le_succ inside, ?_⟩
    rcases allowed with one | ⟨l, same, fits⟩
    · exact .inl (Nat.succ.inj one)
    · cases same
      rw [text] at fits
      exact .inr fits

theorem isGreatest_one {records : List Bytes} (nonempty : records ≠ []) :
    IsGreatest (batchSizes none records) 1 := by
  constructor
  · exact ⟨Nat.one_pos, List.length_pos_iff.mpr nonempty, .inl rfl⟩
  · rintro k ⟨-, -, one | ⟨l, bad, -⟩⟩
    · exact Nat.le_of_eq one
    · cases bad

theorem batchText_take {records : List Bytes} {k : Nat} (pos : 0 < k)
    (inside : k ≤ records.length) (small : k < 2 ^ 64) :
    BatchText (records.take k) (batchText records k) := by
  have size : (records.take k).length = k := by rw [List.length_take, Nat.min_eq_left inside]
  rw [batchText, leadOf]
  by_cases several : k > 1
  · rw [if_pos several]
    apply BatchText.several (by omega)
    rw [size]
    exact Cbor.shortestHead_head .array small
  · obtain rfl : k = 1 := by omega
    obtain ⟨p, ps, rfl⟩ := List.exists_cons_of_length_pos inside
    rw [if_neg several, List.nil_append, List.take_succ_cons, List.take_zero,
      List.flatten_singleton]
    exact .single p

/-! ### Rounds of a queue -/

section Rounds

variable {ν : Type} [Nonvolatile ν]

/-- A queue without a non-volatile store whose reader holds nothing. -/
structure Ready (q : RecordQueue ν) : Prop where
  backing : q.backing = none
  handed : q.handed = none

variable {q : RecordQueue ν}

theorem pollBacking_of_none (ram : q.backing = none) (unseen : q.backingSeen = false) :
    q.pollBacking = (none, q) := by
  simp only [pollBacking]
  rw [ram, unseen]
  rfl

theorem Ready.pollBacking (ready : q.Ready) :
    q.pollBacking = (none, { q with backingSeen := false }) := by
  obtain ⟨capacity, start, records, opened, handed, limit, backing, seen, observed, reports⟩ := q
  obtain ⟨rfl, rfl⟩ := ready
  cases seen with
  | true => rfl
  | false => rfl

theorem Ready.hasMore_nil (ready : q.Ready) (empty : q.records = []) :
    q.hasMore = (none, { q with backingSeen := false }) := by
  simp only [hasMore]
  rw [ready.pollBacking]
  dsimp only
  rw [ready.handed]
  cases q.batchLimit with
  | none => exact hasRecord_nil (by exact empty)
  | some limit =>
      simp only [hasBatch]
      rw [empty]
      rfl

theorem Ready.exists_hasMore (ready : q.Ready) (nonempty : q.records ≠ []) :
    ∃ k, IsGreatest (batchSizes q.batchLimit q.records) k ∧
      q.hasMore = (some (batchText q.records k).length,
        { q with backingSeen := false, handed := some k }) := by
  simp only [hasMore]
  rw [ready.pollBacking]
  dsimp only
  rw [ready.handed]
  cases q.batchLimit with
  | none =>
      obtain ⟨p, ps, queue⟩ := List.exists_cons_of_ne_nil nonempty
      refine ⟨1, isGreatest_one nonempty, ?_⟩
      dsimp only
      rw [hasRecord_cons (by exact queue), queue]
      simp [batchText, leadOf]
  | some limit =>
      have greatest := isGreatest_batchCount limit nonempty
      refine ⟨_, greatest, ?_⟩
      obtain ⟨k, count⟩ := Nat.exists_eq_add_one.mpr greatest.1.1
      simp only [hasBatch]
      rw [count]

theorem read_of_handed {k : Nat} (ram : q.backing = none) (unseen : q.backingSeen = false)
    (held : q.handed = some k) :
    q.read 0 (batchText q.records k).length = (some (batchText q.records k), q) := by
  simp only [read]
  rw [pollBacking_of_none ram unseen]
  simp only [readRecord]
  rw [held]
  dsimp only
  rw [if_pos (by omega), List.drop_zero, List.take_length]

theorem markRead_of_handed {k : Nat} (ram : q.backing = none) (unseen : q.backingSeen = false)
    (held : q.handed = some k) : q.markRead = q.dropOldest k := by
  simp only [markRead]
  rw [pollBacking_of_none ram unseen]
  simp only [markRecordRead]
  rw [held]

theorem Ready.drainOne_nil (ready : q.Ready) (empty : q.records = []) :
    q.drainOne = (.nothing, { q with backingSeen := false }) := by
  simp only [drainOne]
  rw [ready.hasMore_nil empty]

theorem Ready.exists_drainOne (ready : q.Ready) (nonempty : q.records ≠ []) :
    ∃ k, IsGreatest (batchSizes q.batchLimit q.records) k ∧
      q.drainOne = (.event (batchText q.records k),
        { q with backingSeen := false }.dropOldest k) := by
  obtain ⟨k, size, asked⟩ := ready.exists_hasMore nonempty
  refine ⟨k, size, ?_⟩
  have read := @read_of_handed _ _ { q with backingSeen := false, handed := some k } k
    ready.backing rfl rfl
  simp only [drainOne]
  rw [asked]
  dsimp only at read ⊢
  rw [read, markRead_of_handed (by exact ready.backing) rfl rfl]
  rfl

end Rounds

/-! ### Rounds of a store -/

section Stores

variable {ν : Type} [Nonvolatile ν] {s : RecordStore ν} {q : RecordQueue ν}

theorem Represents.drainUnder (h : Represents s q) (ready : q.Ready) {limits : List (Option Nat)}
    (enough : q.records.length ≤ limits.length) (small : q.records.length < 2 ^ 64) :
    ∃ batches texts q', Batches limits q.records batches ∧ List.Forall₂ BatchText batches texts ∧
      (s.drainUnder limits).1 = texts.map Round.event ∧
      Represents (s.drainUnder limits).2 q' ∧ q'.Ready ∧ q'.records = [] ∧
        q'.opened = q.opened := by
  induction limits generalizing s q with
  | nil =>
      have empty : q.records = [] := List.eq_nil_of_length_eq_zero (Nat.le_zero.mp enough)
      exact ⟨[], [], q, empty ▸ .done [], .nil, rfl, h, ready, empty, rfl⟩
  | cons limit limits ih =>
      have limited := h.setBatchLimit limit
      obtain ⟨same, next⟩ := limited.drainOne
      have ready' : { q with batchLimit := limit }.Ready := ⟨ready.backing, ready.handed⟩
      rw [RecordStore.drainUnder]
      generalize (s.setBatchLimit limit).drainOne = outcome at same next
      obtain ⟨round, s'⟩ := outcome
      dsimp only at same next
      by_cases empty : q.records = []
      · rw [ready'.drainOne_nil empty] at same next
        subst same
        exact ⟨[], [], _, empty ▸ .done _, .nil, rfl, next, ⟨ready.backing, ready.handed⟩, empty,
          rfl⟩
      · obtain ⟨k, size, drained⟩ := ready'.exists_drainOne empty
        obtain ⟨pos, inside, -⟩ := size.1
        dsimp only at size inside
        rw [drained] at same next
        subst same
        have fewer : (q.records.drop k).length ≤ limits.length := by
          rw [List.length_drop]
          rw [List.length_cons] at enough
          omega
        obtain ⟨batches, texts, q', rest, read, rounds, last, idle, drained, opened⟩ :=
          ih next ⟨ready.backing, rfl⟩ fewer
            (Nat.lt_of_le_of_lt (List.drop_sublist k _).length_le small)
        have text := batchText_take pos inside (by omega)
        exact ⟨_ :: batches, _ :: texts, q', .more size rest, .cons text read,
          congrArg (_ :: ·) rounds, last, idle, drained, opened⟩

theorem Represents.exists_delivers (h : Represents s q) (ready : q.Ready)
    (nonempty : q.records ≠ []) (small : q.records.length < 2 ^ 64) : ∃ k text, s.Delivers k text := by
  obtain ⟨k, size, asked⟩ := ready.exists_hasMore nonempty
  obtain ⟨pos, inside, -⟩ := size.1
  obtain ⟨reported, next⟩ := h.hasMore
  rw [asked] at reported next
  have read := next.read 0 (batchText q.records k).length
  have read' := @read_of_handed _ _ { q with backingSeen := false, handed := some k } k
    ready.backing rfl rfl
  dsimp only at read read' next
  rw [read'] at read
  have marked := read.2.markRead
  rw [markRead_of_handed (by exact ready.backing) rfl rfl] at marked
  refine ⟨k, batchText q.records k, ?_, ?_, reported, read.1, ?_⟩
  · rw [h.batchLimit, h.payloads_eq]
    exact size
  · rw [h.payloads_eq]
    exact batchText_take pos inside (by omega)
  · rw [marked.payloads_eq, h.payloads_eq]
    rfl

end Stores

end RecordQueue

open RecordQueue (Represents)

variable {ν : Type} [Nonvolatile ν]

/-- A store without a non-volatile store, whose reader holds nothing, reports the largest batch of
its records that the limit allows, or nothing if it has no record. Rounds of draining, at most as
many as there are records, deliver all of them in their order, and leave the open transaction alone.
If the records of a batch are CBOR items, the batch is an array with just these elements. -/
theorem batched_drain_delivers {s : RecordStore ν} (reachable : s.Reachable)
    (addressable : s.capacity < 2 ^ 64) (ram : s.backing = none) (idle : s.handout = none) :
    (∀ limit : Option Nat, ((s.setBatchLimit limit).hasMore.1 = none ↔ s.payloads = []) ∧
      (s.payloads ≠ [] → ∃ k text, (s.setBatchLimit limit).Delivers k text)) ∧
    (∀ limits : List (Option Nat), s.payloads.length ≤ limits.length →
      let drained := s.drainUnder limits
      ∃ batches texts, Batches limits s.payloads batches ∧ batches.flatten = s.payloads ∧
        List.Forall₂ BatchText batches texts ∧ drained.1 = texts.map Round.event ∧
        (∀ limit : Option Nat, (drained.2.setBatchLimit limit).hasMore.1 = none) ∧
        drained.2.opened = s.opened ∧ drained.2.levels.used = s.opened.getD 0) ∧
    ∀ batch text, BatchText batch text → 2 ≤ batch.length → (∀ p ∈ batch, Cbor.WellFormed p) →
      Cbor.WellFormed text ∧ Cbor.elements? text = some batch := by
  obtain ⟨q, h⟩ := reachable.exists_represents
  have ready : q.Ready := by
    refine ⟨h.backing.symm.trans ram, ?_⟩
    rw [h.handout, Option.map_eq_none_iff] at idle
    exact idle
  have few : q.records.length < 2 ^ 64 := by
    have bytes := RecordQueue.length_le_image q.records q.opened
    rw [← RecordQueue.image, ← h.count_eq] at bytes
    have cells := s.ring.count_le
    exact Nat.lt_of_le_of_lt (Nat.le_trans bytes cells) addressable
  have nothing {s : RecordStore ν} {q : RecordQueue ν} (h : Represents s q) (ready : q.Ready)
      (empty : q.records = []) : s.hasMore.1 = none := by
    rw [h.hasMore.1, ready.hasMore_nil empty]
  refine ⟨?_, ?_, ?_⟩
  · intro limit
    have limited := h.setBatchLimit limit
    have ready' : { q with batchLimit := limit }.Ready := ⟨ready.backing, ready.handed⟩
    refine ⟨⟨?_, ?_⟩, ?_⟩
    · intro silent
      by_contra nonempty
      rw [h.payloads_eq] at nonempty
      obtain ⟨k, -, asked⟩ := ready'.exists_hasMore nonempty
      rw [limited.hasMore.1, asked] at silent
      cases silent
    · intro empty
      rw [h.payloads_eq] at empty
      exact nothing limited ready' empty
    · intro nonempty
      rw [h.payloads_eq] at nonempty
      exact limited.exists_delivers ready' nonempty few
  · intro limits enough
    rw [h.payloads_eq] at enough ⊢
    obtain ⟨batches, texts, q', all, read, rounds, last, ready', empty, opened⟩ :=
      h.drainUnder ready enough few
    refine ⟨batches, texts, all, all.flatten_eq, read, rounds, ?_, ?_, ?_⟩
    · intro limit
      exact nothing (last.setBatchLimit limit) ⟨ready'.backing, ready'.handed⟩ empty
    · rw [last.opened, opened, h.opened]
    · have used : (s.drainUnder limits).2.levels.used = q'.image.length := last.count_eq
      rw [used, RecordQueue.image, empty, opened, h.opened]
      cases q.opened with
      | none => rfl
      | some p => exact RecordQueue.length_openFrame p
  · intro batch text written several items
    cases written with
    | single p => exact absurd several (Nat.not_succ_le_self 1)
    | several _ head =>
        exact ⟨Cbor.wellFormed_array head.reads items, Cbor.elements?_array head.reads items⟩

/-- Five records around the end of 24 cells, one of them empty, in front of an open transaction. The
limit is raised, turned off and set below the size of a record. -/
theorem batched_drain_delivers_around :
    ∃ fresh : RecordStore Empty, RecordStore.ofCapacity 24 = .ok fresh ∧
      let s := (fresh.performAll [.writeRecord [1, 2, 3, 4, 5, 6], .drainOne, .writeRecord [1],
        .writeRecord [0x82, 2, 3], .writeRecord [], .writeRecord [0x18, 0x64], .writeRecord [5],
        .beginWrite, .append [6, 7]]).2
      let limits := [some 4, none, some 1, some 9, none]
      let drained := s.drainUnder limits
      s.payloads = [[1], [0x82, 2, 3], [], [0x18, 0x64], [5]] ∧
        drained.1 = [.event [0x83, 1, 0x82, 2, 3], .event [0x18, 0x64], .event [5]] ∧
        (∃ batches, Batches limits s.payloads batches ∧ batches.flatten = s.payloads) ∧
        (∃ k text, (s.setBatchLimit (some 4)).Delivers k text) ∧ drained.2.levels.used = 4 ∧
        Cbor.elements? [0x82, 1, 0x82, 2, 3] = some [[1], [0x82, 2, 3]] := by
  refine ⟨_, rfl, ?_⟩
  intro s limits drained
  have payloads : s.payloads = [[1], [0x82, 2, 3], [], [0x18, 0x64], [5]] := by decide +kernel
  obtain ⟨asked, rounds, array⟩ := batched_drain_delivers (s := s) ⟨24, _, _, rfl, rfl⟩
    (by decide +kernel) (by decide +kernel) (by decide +kernel)
  obtain ⟨batches, -, all, whole, -, -, -, -, used⟩ := rounds limits (by decide +kernel)
  have nonempty : s.payloads ≠ [] := payloads ▸ List.cons_ne_nil _ _
  have text : BatchText [[1], [0x82, 2, 3]] [0x82, 1, 0x82, 2, 3] :=
    @BatchText.several [[1], [0x82, 2, 3]] _ (Nat.le_refl 2)
      (Cbor.shortestHead_head .array (by decide))
  exact ⟨payloads, by decide +kernel, ⟨batches, all, whole⟩, (asked (some 4)).2 nonempty,
    used.trans (by decide +kernel), (array _ _ text (by decide) (by decide)).2⟩

end DeviceTelemetry
