import DeviceTelemetry.Proofs.RecordQueue.Reading

/-!
# What operations leave alone

The writing side adds records at the end and leaves the reader and the non-volatile store alone
(`Grows`). The reading side drops records from the front and leaves the open transaction alone
(`Serves`).
-/

set_option autoImplicit false

namespace DeviceTelemetry.RecordQueue

variable {ν : Type}

theorem hasRecord_keeps (q : RecordQueue ν) :
    ∃ handed, q.hasRecord.2 = { q with handed := handed } := by
  by_cases empty : q.records = []
  · exact ⟨q.handed, by rw [hasRecord_nil empty]⟩
  · obtain ⟨p, ps, queue⟩ := List.exists_cons_of_ne_nil empty
    exact ⟨some 1, by rw [hasRecord_cons queue]⟩

theorem hasBatch_keeps (q : RecordQueue ν) (limit : Nat) :
    ∃ handed, (q.hasBatch limit).2 = { q with handed := handed } := by
  simp only [hasBatch]
  split
  · exact ⟨q.handed, rfl⟩
  · split
    · exact ⟨q.handed, rfl⟩
    · exact ⟨_, rfl⟩

theorem report_eq (q : RecordQueue ν) : ∃ reports, q.report = { q with reports := reports } := by
  simp only [report]
  split
  · exact ⟨_, rfl⟩
  · exact ⟨q.reports, rfl⟩

/-! ### The writing side -/

structure Grows (q q' : RecordQueue ν) : Prop where
  records : q.records <+: q'.records
  capacity : q'.capacity = q.capacity
  handed : q'.handed = q.handed
  backing : q'.backing = q.backing
  backingSeen : q'.backingSeen = q.backingSeen

theorem Grows.refl (q : RecordQueue ν) : Grows q q :=
  ⟨List.prefix_rfl, rfl, rfl, rfl, rfl⟩

theorem Grows.trans {q q' q'' : RecordQueue ν} (first : Grows q q') (second : Grows q' q'') :
    Grows q q'' where
  records := first.records.trans second.records
  capacity := second.capacity.trans first.capacity
  handed := second.handed.trans first.handed
  backing := second.backing.trans first.backing
  backingSeen := second.backingSeen.trans first.backingSeen

theorem grows_report (q : RecordQueue ν) : Grows q q.report := by
  obtain ⟨reports, same⟩ := q.report_eq
  rw [same]
  exact ⟨List.prefix_rfl, rfl, rfl, rfl, rfl⟩

theorem grows_beginWrite (q : RecordQueue ν) : Grows q q.beginWrite.2 := by
  simp only [beginWrite]
  split
  · exact ⟨List.prefix_rfl, rfl, rfl, rfl, rfl⟩
  · exact Grows.refl q

theorem grows_append (q : RecordQueue ν) (bs : Bytes) : Grows q (q.append bs).2 := by
  simp only [append]
  split
  · exact Grows.refl q
  · split
    · exact ⟨List.prefix_rfl, rfl, rfl, rfl, rfl⟩
    · exact Grows.refl q

theorem grows_finishWrite (q : RecordQueue ν) (undo : Bool) : Grows q (q.finishWrite undo) := by
  simp only [finishWrite]
  split
  · exact Grows.refl q
  · split
    · exact ⟨List.prefix_rfl, rfl, rfl, rfl, rfl⟩
    · apply Grows.trans _ (grows_report _)
      exact ⟨List.prefix_append _ _, rfl, rfl, rfl, rfl⟩

theorem grows_writeRecord (q : RecordQueue ν) (payload : Bytes) :
    Grows q (q.writeRecord payload).2 := by
  have begun := grows_beginWrite q
  simp only [writeRecord]
  generalize q.beginWrite = answer at begun
  obtain ⟨budget, q'⟩ := answer
  cases budget with
  | zero => exact begun
  | succ budget =>
      exact begun.trans ((grows_append q' payload).trans (grows_finishWrite _ _))

theorem opened_finishWrite (q : RecordQueue ν) (undo : Bool) :
    (q.finishWrite undo).opened = none := by
  simp only [finishWrite]
  split
  · assumption
  · split
    · rfl
    · obtain ⟨reports, same⟩ := report_eq { q with records := q.records ++ [_], opened := none }
      rw [same]

theorem opened_writeRecord {q : RecordQueue ν} (closed : q.opened = none) (payload : Bytes) :
    (q.writeRecord payload).2.opened = none := by
  simp only [writeRecord]
  split
  · rename_i q' refused
    simp only [beginWrite] at refused
    split at refused
    · rename_i room
      have none_left : q.free - RecordStore.headerSize = 0 := congrArg Prod.fst refused
      omega
    · cases refused
      exact closed
  · exact opened_finishWrite _ _

/-! ### The reading side -/

structure Serves (q q' : RecordQueue ν) : Prop where
  records : q'.records <:+ q.records
  capacity : q'.capacity = q.capacity
  opened : q'.opened = q.opened

theorem Serves.refl (q : RecordQueue ν) : Serves q q :=
  ⟨List.suffix_rfl, rfl, rfl⟩

theorem Serves.trans {q q' q'' : RecordQueue ν} (first : Serves q q') (second : Serves q' q'') :
    Serves q q'' where
  records := second.records.trans first.records
  capacity := second.capacity.trans first.capacity
  opened := second.opened.trans first.opened

theorem serves_report (q : RecordQueue ν) : Serves q q.report := by
  obtain ⟨reports, same⟩ := q.report_eq
  rw [same]
  exact ⟨List.suffix_rfl, rfl, rfl⟩

theorem serves_hasRecord (q : RecordQueue ν) : Serves q q.hasRecord.2 := by
  obtain ⟨handed, same⟩ := q.hasRecord_keeps
  rw [same]
  exact ⟨List.suffix_rfl, rfl, rfl⟩

theorem serves_hasBatch (q : RecordQueue ν) (limit : Nat) : Serves q (q.hasBatch limit).2 := by
  obtain ⟨handed, same⟩ := q.hasBatch_keeps limit
  rw [same]
  exact ⟨List.suffix_rfl, rfl, rfl⟩

theorem serves_dropOldest (q : RecordQueue ν) (n : Nat) : Serves q (q.dropOldest n) :=
  ⟨List.drop_suffix _ _, rfl, rfl⟩

theorem serves_markRecordRead (q : RecordQueue ν) : Serves q q.markRecordRead := by
  simp only [markRecordRead]
  split
  · exact Serves.refl q
  · exact serves_dropOldest q _

variable [Nonvolatile ν]

theorem serves_pollBacking (q : RecordQueue ν) : Serves q q.pollBacking.2 := by
  simp only [pollBacking]
  split
  · dsimp only
    split
    · exact ⟨List.suffix_rfl, rfl, rfl⟩
    · exact Serves.refl q
  · split
    · exact ⟨List.suffix_rfl, rfl, rfl⟩
    · exact ⟨List.suffix_rfl, rfl, rfl⟩

theorem serves_hasMore (q : RecordQueue ν) : Serves q q.hasMore.2 := by
  have polled := serves_pollBacking q
  simp only [hasMore]
  generalize q.pollBacking = answer at polled
  obtain ⟨usable, q'⟩ := answer
  cases usable with
  | some b => exact polled.trans ⟨List.suffix_rfl, rfl, rfl⟩
  | none =>
      dsimp only at polled ⊢
      split
      · exact polled.trans (serves_hasBatch q' _)
      · exact polled
      · exact polled.trans (serves_hasRecord q')

theorem serves_read (q : RecordQueue ν) (offset length : Nat) :
    Serves q (q.read offset length).2 := by
  have polled := serves_pollBacking q
  simp only [read]
  generalize q.pollBacking = answer at polled
  obtain ⟨usable, q'⟩ := answer
  cases usable with
  | some b => exact polled.trans ⟨List.suffix_rfl, rfl, rfl⟩
  | none => exact polled

theorem serves_markRead (q : RecordQueue ν) : Serves q q.markRead := by
  have polled := serves_pollBacking q
  simp only [markRead]
  generalize q.pollBacking = answer at polled
  obtain ⟨usable, q'⟩ := answer
  cases usable with
  | none => exact polled.trans (serves_markRecordRead q')
  | some b =>
      have next := serves_hasRecord { q' with backing := some (Nonvolatile.discard b) }
      have here : Serves q' { q' with backing := some (Nonvolatile.discard b) } :=
        ⟨List.suffix_rfl, rfl, rfl⟩
      dsimp only
      generalize hasRecord { q' with backing := some (Nonvolatile.discard b) } = found at next
      obtain ⟨size, q''⟩ := found
      cases size with
      | none => exact polled.trans (here.trans next)
      | some n => exact polled.trans (here.trans (next.trans (serves_report q'')))

theorem serves_persist (q : RecordQueue ν) : Serves q q.persist.2 := by
  have polled := serves_pollBacking q
  simp only [persist]
  generalize q.pollBacking = answer at polled
  obtain ⟨usable, q'⟩ := answer
  cases usable with
  | none => exact polled
  | some b =>
      have here (b' : ν) : Serves q' { q' with backing := some b' } := ⟨List.suffix_rfl, rfl, rfl⟩
      exact polled.trans ((here _).trans ((serves_dropOldest _ _).trans (serves_hasRecord _)))

end DeviceTelemetry.RecordQueue
