import DeviceTelemetry.Proofs.RecordQueue.Recording

/-!
# What the operations of a queue do not look at

`RecordQueue.under` puts another open transaction and other past reports under a queue. No
operation of a reader looks at either of them: its answer is the same and it reports as often
(`parallel_performAll`). No operation at all looks at past reports (`forgetful_performAll`).
-/

set_option autoImplicit false

namespace DeviceTelemetry

open RecordStore (Operation Answer Round)

variable {ν : Type}

/-- The operations of a reader, and the changes that a non-volatile store makes on its own. -/
def RecordStore.Operation.reads : Operation ν → Bool
  | .hasMore | .hasRecord | .read _ _ | .readRecord _ _ | .recordSlices | .markRead
  | .markRecordRead | .setBatchLimit _ | .alterBacking _ | .persist | .drainOne | .drain _ => true
  | _ => false

namespace RecordQueue

/-- The queue with another open transaction and other past reports. -/
def under (q : RecordQueue ν) (opened : Option Bytes) (reports : List Levels) : RecordQueue ν :=
  { q with opened := opened, reports := reports }

/-- A use of a queue that neither looks at the open transaction and the past reports nor changes
them. -/
def Blind {α : Type} (f : RecordQueue ν → α × RecordQueue ν) : Prop :=
  ∀ q o r, f (q.under o r) = ((f q).1, (f q).2.under o r)

/-- From `q` to `q₁` there are as many new reports as from `r` to `r₁`; they are the same ones if
the transaction of `q` is `o`. -/
def KeepsPace (q q₁ : RecordQueue ν) (o : Option Bytes) (r r₁ : List Levels) : Prop :=
  q₁.opened = q.opened ∧ ∃ new new', q₁.reports = new ++ q.reports ∧ r₁ = new' ++ r ∧
    new'.length = new.length ∧ (q.opened = o → new' = new)

theorem KeepsPace.trans {q q₁ q₂ : RecordQueue ν} {o : Option Bytes} {r r₁ r₂ : List Levels}
    (first : KeepsPace q q₁ o r r₁) (second : KeepsPace q₁ q₂ o r₁ r₂) :
    KeepsPace q q₂ o r r₂ := by
  obtain ⟨same, new, new', reports, rfl, count, equal⟩ := first
  obtain ⟨same', more, more', reports', rfl, count', equal'⟩ := second
  refine ⟨same'.trans same, more ++ new, more' ++ new', ?_, ?_, ?_, ?_⟩
  · rw [reports', reports, List.append_assoc]
  · rw [List.append_assoc]
  · rw [List.length_append, List.length_append, count, count']
  · intro opened
    rw [equal opened, equal' (same.trans opened)]

theorem KeepsPace.length_eq {q q₁ : RecordQueue ν} {o : Option Bytes} {r r₁ : List Levels}
    (pace : KeepsPace q q₁ o r r₁) (count : r.length = q.reports.length) :
    r₁.length = q₁.reports.length := by
  obtain ⟨-, new, new', reports, rfl, equal, -⟩ := pace
  rw [reports, List.length_append, List.length_append, equal, count]

/-- Putting under a queue what it has already changes nothing; so whatever is blind to it keeps
it. -/
theorem Blind.keepsPace {α : Type} {f : RecordQueue ν → α × RecordQueue ν} (blind : Blind f)
    (q : RecordQueue ν) (o : Option Bytes) (r : List Levels) : KeepsPace q (f q).2 o r r := by
  have same : f q = ((f q).1, (f q).2.under q.opened q.reports) := blind q q.opened q.reports
  refine ⟨congrArg (fun x => x.2.opened) same, [], [], congrArg (fun x => x.2.reports) same, rfl,
    rfl, fun _ => rfl⟩

/-- A use of a queue that gives the same answer whatever lies under the queue, and reports as
often. -/
def Parallel {α : Type} (f : RecordQueue ν → α × RecordQueue ν) : Prop :=
  ∀ q o r, ∃ r₁, f (q.under o r) = ((f q).1, (f q).2.under o r₁) ∧ KeepsPace q (f q).2 o r r₁

theorem Blind.parallel {α : Type} {f : RecordQueue ν → α × RecordQueue ν} (blind : Blind f) :
    Parallel f := by
  intro q o r
  exact ⟨r, blind q o r, blind.keepsPace q o r⟩

theorem Parallel.map {α β : Type} {f : RecordQueue ν → α × RecordQueue ν} (parallel : Parallel f)
    (g : α → β) : Parallel fun q => (f q).map g id := by
  intro q o r
  obtain ⟨r₁, same, pace⟩ := parallel q o r
  refine ⟨r₁, ?_, pace⟩
  dsimp only
  rw [same]
  rfl

theorem Parallel.bind {α β : Type} {f : RecordQueue ν → α × RecordQueue ν}
    {g : α → RecordQueue ν → β × RecordQueue ν} (first : Parallel f)
    (next : ∀ a, Parallel (g a)) : Parallel fun q => g (f q).1 (f q).2 := by
  intro q o r
  obtain ⟨r₁, same, pace⟩ := first q o r
  obtain ⟨r₂, same', pace'⟩ := next (f q).1 (f q).2 o r₁
  refine ⟨r₂, ?_, pace.trans pace'⟩
  dsimp only
  rw [same]
  exact same'

/-- A use of a queue to which past reports make no difference. -/
def Forgetful {α : Type} (f : RecordQueue ν → α × RecordQueue ν) : Prop :=
  ∀ q r, ∃ new, (f q).2.reports = new ++ q.reports ∧
    f { q with reports := r } = ((f q).1, { (f q).2 with reports := new ++ r })

theorem Parallel.forgetful {α : Type} {f : RecordQueue ν → α × RecordQueue ν}
    (parallel : Parallel f) : Forgetful f := by
  intro q r
  obtain ⟨r₁, same, opened, new, new', reports, rfl, -, equal⟩ := parallel q q.opened r
  rw [equal rfl] at same
  refine ⟨new, reports, ?_⟩
  rw [show { q with reports := r } = q.under q.opened r from rfl, same]
  rw [← opened]
  rfl

theorem Forgetful.quiet {α : Type} {f : RecordQueue ν → α × RecordQueue ν}
    (same : ∀ q r, f { q with reports := r } = ((f q).1, { (f q).2 with reports := r })) :
    Forgetful f := by
  intro q r
  have kept : f q = ((f q).1, { (f q).2 with reports := q.reports }) := same q q.reports
  exact ⟨[], congrArg (fun x => x.2.reports) kept, same q r⟩

theorem Forgetful.bind {α β : Type} {f : RecordQueue ν → α × RecordQueue ν}
    {g : α → RecordQueue ν → β × RecordQueue ν} (first : Forgetful f)
    (next : ∀ a, Forgetful (g a)) : Forgetful fun q => g (f q).1 (f q).2 := by
  intro q r
  obtain ⟨new, reports, same⟩ := first q r
  obtain ⟨more, reports', same'⟩ := next (f q).1 (f q).2 (new ++ r)
  refine ⟨more ++ new, ?_, ?_⟩
  · rw [reports', reports, List.append_assoc]
  · dsimp only
    rw [same, List.append_assoc]
    exact same'

theorem Forgetful.map {α β : Type} {f : RecordQueue ν → α × RecordQueue ν}
    (forgetful : Forgetful f) (g : α → β) : Forgetful fun q => (f q).map g id := by
  intro q r
  obtain ⟨new, reports, same⟩ := forgetful q r
  refine ⟨new, reports, ?_⟩
  dsimp only
  rw [same]
  rfl

/-! ### Reading -/

theorem blind_hasRecord : Blind (hasRecord (ν := ν)) := by
  intro q o r
  obtain ⟨capacity, start, records, opened, handed, limit, backing, seen, observed, reports⟩ := q
  cases records with
  | nil => rfl
  | cons p ps => rfl

theorem blind_hasBatch (limit : Nat) : Blind (ν := ν) fun q => q.hasBatch limit := by
  intro q o r
  obtain ⟨capacity, start, records, opened, handed, limit', backing, seen, observed, reports⟩ := q
  cases handed with
  | some n => rfl
  | none =>
      simp only [hasBatch, under]
      cases batchCount limit records with
      | zero => rfl
      | succ n => rfl

theorem blind_markRecordRead {α : Type} (a : α) :
    Blind (ν := ν) fun q => (a, q.markRecordRead) := by
  intro q o r
  obtain ⟨capacity, start, records, opened, handed, limit, backing, seen, observed, reports⟩ := q
  cases handed with
  | none => rfl
  | some n => rfl

theorem parallel_report {α : Type} (a : α) : Parallel (ν := ν) fun q => (a, q.report) := by
  intro q o r
  obtain ⟨capacity, start, records, opened, handed, limit, backing, seen, observed, reports⟩ := q
  cases observed with
  | false => exact ⟨r, rfl, rfl, [], [], rfl, rfl, rfl, fun _ => rfl⟩
  | true =>
      refine ⟨_, rfl, rfl, [_], [_], rfl, rfl, rfl, ?_⟩
      rintro rfl
      rfl

/-! ### Writing -/

theorem forgetful_beginWrite : Forgetful (beginWrite (ν := ν)) := by
  apply Forgetful.quiet
  intro q r
  have free : { q with reports := r }.free = q.free := rfl
  simp only [beginWrite]
  rw [free]
  by_cases room : q.opened = none ∧ RecordStore.headerSize < q.free
  · rw [if_pos room, if_pos room]
  · rw [if_neg room, if_neg room]

theorem forgetful_append (bs : Bytes) : Forgetful (ν := ν) fun q => q.append bs := by
  apply Forgetful.quiet
  intro q r
  obtain closed | ⟨p, underway⟩ := Option.eq_none_or_eq_some q.opened
  · rw [append_of_closed closed]
    exact append_of_closed (q := { q with reports := r }) closed bs
  · obtain ⟨q, rfl⟩ : ∃ q₀, q = { q₀ with opened := some p } := ⟨q, by rw [← underway]⟩
    have here := append_of_opened q p bs
    have there := append_of_opened { q with reports := r } p bs
    by_cases room : q.Room p bs
    · rw [if_pos room] at here
      rw [here]
      exact there.trans (if_pos room)
    · rw [if_neg room] at here
      rw [here]
      exact there.trans (if_neg room)

theorem forgetful_report {α : Type} (a : α) : Forgetful (ν := ν) fun q => (a, q.report) :=
  (parallel_report a).forgetful

theorem forgetful_finishWrite {α : Type} (a : α) (undo : Bool) :
    Forgetful (ν := ν) fun q => (a, q.finishWrite undo) := by
  intro q r
  obtain ⟨capacity, start, records, opened, handed, limit, backing, seen, observed, reports⟩ := q
  cases opened with
  | none => exact ⟨[], rfl, rfl⟩
  | some p =>
      cases undo with
      | true => exact ⟨[], rfl, rfl⟩
      | false => exact forgetful_report a ⟨capacity, start, records ++ [p], none, handed, limit,
          backing, seen, observed, reports⟩ r

theorem forgetful_writeRecord (payload : Bytes) :
    Forgetful (ν := ν) fun q => q.writeRecord payload := by
  intro q r
  obtain ⟨new, reports, same⟩ := forgetful_beginWrite q r
  dsimp only
  cases begun : q.beginWrite with
  | mk room q₁ =>
      rw [begun] at reports same
      cases room with
      | zero =>
          rw [writeRecord, writeRecord, begun, same]
          exact ⟨new, reports, rfl⟩
      | succ room =>
          have fill := (forgetful_append (ν := ν) payload).bind fun kept =>
            forgetful_finishWrite kept (!kept)
          rw [writeRecord_of_begun begun, writeRecord_of_begun same]
          obtain ⟨more, reports', same'⟩ := fill q₁ (new ++ r)
          refine ⟨more ++ new, ?_, ?_⟩
          · exact reports'.trans (by rw [reports, List.append_assoc])
          · rw [List.append_assoc]
            exact same'

variable [Nonvolatile ν]

theorem blind_pollBacking : Blind (pollBacking (ν := ν)) := by
  intro q o r
  obtain ⟨capacity, start, records, opened, handed, limit, backing, seen, observed, reports⟩ := q
  cases backing with
  | none =>
      cases seen with
      | false => rfl
      | true => rfl
  | some b =>
      simp only [pollBacking, under]
      generalize Nonvolatile.poll b = answer
      obtain ⟨usable, b'⟩ := answer
      cases usable with
      | true => rfl
      | false => rfl

theorem blind_hasMore : Blind (hasMore (ν := ν)) := by
  intro q o r
  simp only [hasMore]
  rw [blind_pollBacking]
  generalize q.pollBacking = answer
  obtain ⟨usable, q⟩ := answer
  cases usable with
  | some b => rfl
  | none =>
      dsimp only
      rw [show (q.under o r).batchLimit = q.batchLimit from rfl,
        show (q.under o r).handed = q.handed from rfl]
      cases q.batchLimit with
      | some limit => exact blind_hasBatch limit q o r
      | none =>
          cases q.handed with
          | some n => rfl
          | none => exact blind_hasRecord q o r

theorem blind_read (offset length : Nat) : Blind (ν := ν) fun q => q.read offset length := by
  intro q o r
  simp only [read]
  rw [blind_pollBacking]
  generalize q.pollBacking = answer
  obtain ⟨usable, q⟩ := answer
  cases usable with
  | some b => rfl
  | none => rfl

theorem blind_persist : Blind (persist (ν := ν)) := by
  intro q o r
  simp only [persist]
  rw [blind_pollBacking]
  generalize q.pollBacking = answer
  obtain ⟨usable, q⟩ := answer
  cases usable with
  | none => rfl
  | some b =>
      dsimp only
      have moved := blind_hasRecord
        ({ q with backing := some (spill b q.records).2 }.dropOldest (spill b q.records).1) o r
      exact congrArg (Prod.mk (spill b q.records).1) (congrArg Prod.snd moved)

theorem parallel_markRead {α : Type} (a : α) : Parallel (ν := ν) fun q => (a, q.markRead) := by
  intro q o r
  have polled := blind_pollBacking.keepsPace q o r
  simp only [markRead]
  rw [blind_pollBacking]
  generalize q.pollBacking = answer at polled
  obtain ⟨usable, q'⟩ := answer
  cases usable with
  | none =>
      have marked := blind_markRecordRead a q' o r
      exact ⟨r, marked, polled.trans ((blind_markRecordRead a).keepsPace q' o r)⟩
  | some b =>
      dsimp only at polled ⊢
      have found : { q'.under o r with backing := some (Nonvolatile.discard b) }.hasRecord = _ :=
        blind_hasRecord { q' with backing := some (Nonvolatile.discard b) } o r
      have kept := blind_hasRecord.keepsPace { q' with backing := some (Nonvolatile.discard b) } o r
      rw [found]
      have whole : KeepsPace q _ o r r := polled.trans kept
      generalize hasRecord { q' with backing := some (Nonvolatile.discard b) } = outcome at whole
      obtain ⟨size, q''⟩ := outcome
      cases size with
      | none => exact ⟨r, rfl, whole⟩
      | some n =>
          obtain ⟨r₁, same, pace⟩ := parallel_report a q'' o r
          exact ⟨r₁, same, whole.trans pace⟩

theorem parallel_drainOne : Parallel (drainOne (ν := ν)) := by
  intro q o r
  have asked := blind_hasMore.keepsPace q o r
  simp only [drainOne]
  rw [blind_hasMore]
  generalize q.hasMore = answer at asked
  obtain ⟨size, q'⟩ := answer
  cases size with
  | none => exact ⟨r, rfl, asked⟩
  | some n =>
      have fetch := (blind_read (ν := ν) 0 n).parallel.bind fun bs =>
        parallel_markRead ((bs.map Round.event).getD .unreadable)
      obtain ⟨r₁, marked, pace⟩ := fetch q' o r
      exact ⟨r₁, marked, asked.trans pace⟩

theorem parallel_drain (count : Nat) : Parallel (ν := ν) fun q => q.drain count := by
  induction count with
  | zero =>
      intro q o r
      exact ⟨r, rfl, rfl, [], [], rfl, rfl, rfl, fun _ => rfl⟩
  | succ count ih =>
      intro q o r
      obtain ⟨r₁, one, pace⟩ := parallel_drainOne q o r
      simp only [drain]
      rw [one]
      generalize q.drainOne = answer at pace
      obtain ⟨round, q'⟩ := answer
      obtain ⟨r₂, rest, further⟩ := ih q' o r₁
      cases round with
      | nothing => exact ⟨r₁, rfl, pace⟩
      | unreadable =>
          have more := congrArg (fun x => (Round.unreadable :: x.1, x.2)) rest
          exact ⟨r₂, more, pace.trans further⟩
      | event bs =>
          have more := congrArg (fun x => (Round.event bs :: x.1, x.2)) rest
          exact ⟨r₂, more, pace.trans further⟩

theorem parallel_perform {op : Operation ν} (reading : op.reads = true) :
    Parallel fun q => q.perform op := by
  cases op with
  | hasMore => exact blind_hasMore.parallel.map Answer.size
  | hasRecord => exact blind_hasRecord.parallel.map Answer.size
  | read offset length => exact (blind_read offset length).parallel.map Answer.bytes
  | readRecord offset length => exact Blind.parallel fun q o r => rfl
  | recordSlices => exact Blind.parallel fun q o r => rfl
  | markRead => exact parallel_markRead Answer.done
  | markRecordRead => exact (blind_markRecordRead Answer.done).parallel
  | setBatchLimit limit => exact Blind.parallel fun q o r => rfl
  | alterBacking f => exact Blind.parallel fun q o r => rfl
  | persist => exact blind_persist.parallel.map Answer.amount
  | drainOne => exact parallel_drainOne.map Answer.round
  | drain rounds => exact (parallel_drain rounds).map Answer.rounds
  | beginWrite => cases reading
  | append bs => cases reading
  | finishWrite undo => cases reading
  | writeRecord payload => cases reading
  | observe => cases reading
  | attach b => cases reading

/-! ### Other past reports -/

theorem forgetful_perform (op : Operation ν) : Forgetful fun q => q.perform op := by
  by_cases reading : op.reads = true
  · exact (parallel_perform reading).forgetful
  · cases op with
    | beginWrite => exact forgetful_beginWrite.map Answer.amount
    | append bs => exact (forgetful_append bs).map Answer.flag
    | finishWrite undo => exact forgetful_finishWrite Answer.done undo
    | writeRecord payload => exact (forgetful_writeRecord payload).map Answer.flag
    | observe => exact Forgetful.quiet fun q r => rfl
    | attach b => exact Forgetful.quiet fun q r => rfl
    | _ => exact absurd rfl reading

/-! ### Histories -/

theorem performAll_append (q : RecordQueue ν) (ops ops' : List (Operation ν)) :
    q.performAll (ops ++ ops') =
      ((q.performAll ops).1 ++ ((q.performAll ops).2.performAll ops').1,
        ((q.performAll ops).2.performAll ops').2) := by
  induction ops generalizing q with
  | nil => rfl
  | cons op ops ih =>
      simp only [List.cons_append, performAll]
      rw [ih]

theorem length_performAll (q : RecordQueue ν) (ops : List (Operation ν)) :
    (q.performAll ops).1.length = ops.length := by
  induction ops generalizing q with
  | nil => rfl
  | cons op ops ih =>
      simp only [performAll, List.length_cons]
      rw [ih]

theorem forgetful_performAll (ops : List (Operation ν)) : Forgetful fun q => q.performAll ops := by
  induction ops with
  | nil => exact Forgetful.quiet fun q r => rfl
  | cons op ops ih => exact (forgetful_perform op).bind fun answer => ih.map (answer :: ·)

theorem parallel_performAll {ops : List (Operation ν)} (reading : ∀ op ∈ ops, op.reads = true) :
    Parallel fun q => q.performAll ops := by
  induction ops with
  | nil => exact Blind.parallel fun q o r => rfl
  | cons op ops ih =>
      have rest := ih fun op' mem => reading op' (List.mem_cons_of_mem op mem)
      exact (parallel_perform (reading op List.mem_cons_self)).bind fun answer =>
        rest.map (answer :: ·)

end RecordQueue

end DeviceTelemetry
