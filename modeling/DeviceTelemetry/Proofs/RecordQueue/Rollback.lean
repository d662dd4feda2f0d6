import DeviceTelemetry.Proofs.RecordQueue.Contents
import DeviceTelemetry.Proofs.RecordQueue.Parallel

/-!
# A transaction that is taken back leaves no trace

Two histories of one store are compared: in one a reader works alone, in the other a transaction
is opened among the reader's operations, extended and taken back. While it is open, its store is
the other one with a transaction put under it, so the reader is answered alike. Once it is taken
back the two differ in past reports alone, and no operation tells them apart
(`rolledBack_unobservable`).
-/

set_option autoImplicit false

namespace DeviceTelemetry

open RecordStore (Operation Answer)

variable {ν : Type}

namespace RecordStore

def readAnswers (ops : List (Operation ν)) (answers : List Answer) : List Answer :=
  ((ops.zip answers).filter fun pair => pair.1.reads).map Prod.snd

theorem readAnswers_cons_of_reads {op : Operation ν} (reading : op.reads = true)
    (ops : List (Operation ν)) (answer : Answer) (answers : List Answer) :
    readAnswers (op :: ops) (answer :: answers) = answer :: readAnswers ops answers := by
  simp only [readAnswers, List.zip_cons_cons, List.filter_cons, reading, if_true, List.map_cons]

theorem readAnswers_cons_of_not_reads {op : Operation ν} (writing : ¬op.reads = true)
    (ops : List (Operation ν)) (answer : Answer) (answers : List Answer) :
    readAnswers (op :: ops) (answer :: answers) = readAnswers ops answers := by
  simp only [readAnswers, List.zip_cons_cons, List.filter_cons, writing, Bool.false_eq_true,
    if_false]

theorem readAnswers_append {ops : List (Operation ν)} {answers : List Answer}
    (count : answers.length = ops.length) (ops' : List (Operation ν)) (answers' : List Answer) :
    readAnswers (ops ++ ops') (answers ++ answers') =
      readAnswers ops answers ++ readAnswers ops' answers' := by
  rw [readAnswers, List.zip_append count.symm, List.filter_append, List.map_append]
  rfl

theorem readAnswers_of_reads {ops : List (Operation ν)} (reading : ∀ op ∈ ops, op.reads = true)
    {answers : List Answer} (count : answers.length = ops.length) :
    readAnswers ops answers = answers := by
  have all : ∀ pair ∈ ops.zip answers, pair.1.reads = true :=
    fun pair mem => reading pair.1 (List.of_mem_zip mem).1
  rw [readAnswers, List.filter_eq_self.mpr all, List.map_snd_zip (Nat.le_of_eq count)]

end RecordStore

namespace RecordQueue

open RecordStore (readAnswers)

theorem beginWrite_eq {q : RecordQueue ν} (begun : q.beginWrite.1 ≠ 0) :
    q.beginWrite.2 = q.under (some []) q.reports := by
  obtain refused | ⟨n, begun'⟩ := beginWrite_cases q
  · rw [refused] at begun
    exact absurd rfl begun
  · rw [begun']
    rfl

theorem append_under (q : RecordQueue ν) (p : Bytes) (r : List Levels) (bs : Bytes) :
    ∃ p', ((q.under (some p) r).append bs).2 = q.under (some p') r := by
  obtain refused | ⟨p', -, taken⟩ := append_cases (q.under (some p) r) bs
  · exact ⟨p, by rw [refused]⟩
  · exact ⟨p' ++ bs, by rw [taken]; rfl⟩

/-- `tried` is `plain` with another open transaction and as many past reports. -/
def Beside (plain : RecordQueue ν) (opened : Option Bytes) (tried : RecordQueue ν) : Prop :=
  ∃ r, tried = plain.under opened r ∧ r.length = plain.reports.length

variable {plain tried : RecordQueue ν}

theorem Beside.parallel {α : Type} {f : RecordQueue ν → α × RecordQueue ν} (parallel : Parallel f)
    {o : Option Bytes} (beside : Beside plain o tried) :
    (f tried).1 = (f plain).1 ∧ Beside (f plain).2 o (f tried).2 := by
  obtain ⟨r, rfl, count⟩ := beside
  obtain ⟨r₁, same, pace⟩ := parallel plain o r
  rw [same]
  exact ⟨rfl, r₁, rfl, pace.length_eq count⟩

variable [Nonvolatile ν]

theorem Beside.beginWrite {q : RecordQueue ν} (begun : q.beginWrite.1 ≠ 0) :
    Beside q (some []) (q.perform .beginWrite).2 :=
  ⟨q.reports, beginWrite_eq begun, rfl⟩

theorem Beside.append {p : Bytes} (beside : Beside plain (some p) tried) (bs : Bytes) :
    ∃ p', Beside plain (some p') (tried.perform (.append bs)).2 := by
  obtain ⟨r, rfl, count⟩ := beside
  obtain ⟨p', same⟩ := append_under plain p r bs
  exact ⟨p', r, same, count⟩

theorem Beside.rollback {p : Bytes} (beside : Beside plain (some p) tried) :
    Beside plain none (tried.perform (.finishWrite true)).2 := by
  obtain ⟨r, rfl, count⟩ := beside
  exact ⟨r, rfl, count⟩

/-- While a transaction is extended, the reader is answered as without the transaction. -/
theorem Beside.performAll_extending {p : Bytes} (beside : Beside plain (some p) tried)
    {ops : List (Operation ν)} (only : ∀ op ∈ ops, op.reads = true ∨ ∃ bs, op = .append bs) :
    readAnswers ops (tried.performAll ops).1 = (plain.performAll (ops.filter (·.reads))).1 ∧
      ∃ p', Beside (plain.performAll (ops.filter (·.reads))).2 (some p')
        (tried.performAll ops).2 := by
  induction ops generalizing plain tried p with
  | nil => exact ⟨rfl, p, beside⟩
  | cons op ops ih =>
      have only' := fun op' mem => only op' (List.mem_cons_of_mem op mem)
      obtain reading | ⟨bs, rfl⟩ := only op List.mem_cons_self
      · obtain ⟨answer, next⟩ := beside.parallel (parallel_perform reading)
        obtain ⟨answers, p', last⟩ := ih next only'
        rw [List.filter_cons_of_pos reading]
        simp only [RecordQueue.performAll]
        rw [RecordStore.readAnswers_cons_of_reads reading, answer, answers]
        exact ⟨rfl, p', last⟩
      · obtain ⟨p₁, next⟩ := beside.append bs
        obtain ⟨answers, p', last⟩ := ih next only'
        rw [List.filter_cons_of_neg Bool.false_ne_true]
        simp only [RecordQueue.performAll]
        rw [RecordStore.readAnswers_cons_of_not_reads (by exact Bool.false_ne_true)]
        exact ⟨answers, p', last⟩

theorem opened_performAll {ops : List (Operation ν)} (reading : ∀ op ∈ ops, op.reads = true)
    (q : RecordQueue ν) : (q.performAll ops).2.opened = q.opened := by
  obtain ⟨_, -, pace⟩ := parallel_performAll reading q q.opened q.reports
  exact pace.1

theorem mem_zip_performAll (q : RecordQueue ν) (before : List (Operation ν)) (op : Operation ν)
    (after : List (Operation ν)) :
    (op, ((q.performAll before).2.perform op).1) ∈
      (before ++ op :: after).zip (q.performAll (before ++ op :: after)).1 := by
  rw [performAll_append, List.zip_append (length_performAll q before).symm]
  exact List.mem_append_right _ List.mem_cons_self

theorem performAll_rolledBack {q : RecordQueue ν} (closed : q.opened = none)
    {before during after : List (Operation ν)} (reading : ∀ op ∈ before, op.reads = true)
    (only : ∀ op ∈ during, op.reads = true ∨ ∃ bs, op = .append bs)
    (reading' : ∀ op ∈ after, op.reads = true)
    (begun : (q.performAll before).2.beginWrite.1 ≠ 0) :
    let tried := q.performAll (before ++ .beginWrite :: (during ++ .finishWrite true :: after))
    let plain := q.performAll (before ++ (during.filter (·.reads) ++ after))
    readAnswers (before ++ .beginWrite :: (during ++ .finishWrite true :: after)) tried.1 =
        plain.1 ∧
      ∃ r, tried.2 = { plain.2 with reports := r } ∧ r.length = plain.2.reports.length := by
  obtain ⟨answers, p, underway⟩ := (Beside.beginWrite begun).performAll_extending only
  obtain ⟨answers', r, state, count⟩ := underway.rollback.parallel (parallel_performAll reading')
  have still : (q.performAll (before ++ (during.filter (·.reads) ++ after))).2.opened = none := by
    simp only [performAll_append]
    rw [opened_performAll reading', opened_performAll (fun _ mem => (List.mem_filter.mp mem).2),
      opened_performAll reading, closed]
  simp only [performAll_append, performAll] at still ⊢
  refine ⟨?_, r, ?_, count⟩
  · rw [RecordStore.readAnswers_append (length_performAll _ _),
      RecordStore.readAnswers_of_reads reading (length_performAll _ _),
      RecordStore.readAnswers_cons_of_not_reads (by exact Bool.false_ne_true),
      RecordStore.readAnswers_append (length_performAll _ _), answers,
      RecordStore.readAnswers_cons_of_not_reads (by exact Bool.false_ne_true),
      RecordStore.readAnswers_of_reads reading' (length_performAll _ _), answers']
  · rw [state, under, ← still]

end RecordQueue

/-! ### Stores -/

/-- Where the one transaction among the operations of a reader begins and ends. -/
theorem RecordStore.exists_parts {ops : List (Operation ν)} {pieces : List Bytes}
    (one : ops.filter (!·.reads) = .beginWrite :: (pieces.map .append ++ [.finishWrite true])) :
    ∃ before during after, ops = before ++ .beginWrite :: (during ++ .finishWrite true :: after) ∧
      (∀ op ∈ before, op.reads = true) ∧
      (∀ op ∈ during, op.reads = true ∨ ∃ bs, op = .append bs) ∧
      ∀ op ∈ after, op.reads = true := by
  obtain ⟨before, rest, rfl, reading, -, one⟩ := List.filter_eq_cons_iff.mp one
  obtain ⟨extending, rest, rfl, appends, one⟩ := List.filter_eq_append_iff.mp one
  obtain ⟨gap, after, rfl, reading', -, one⟩ := List.filter_eq_cons_iff.mp one
  have reading'' := List.filter_eq_nil_iff.mp one
  simp only [Bool.not_eq_true', Bool.not_eq_false] at reading reading' reading''
  refine ⟨before, extending ++ gap, after, by rw [List.append_assoc], reading, ?_, reading''⟩
  intro op mem
  obtain mem | mem := List.mem_append.mp mem
  · cases kind : op.reads with
    | true => exact .inl rfl
    | false =>
        have mem' : op ∈ extending.filter (!·.reads) := List.mem_filter.mpr ⟨mem, by simp [kind]⟩
        rw [appends] at mem'
        obtain ⟨bs, -, rfl⟩ := List.mem_map.mp mem'
        exact .inr ⟨bs, rfl⟩
  · exact .inl (reading' op mem)

/-- Two histories of a store without an open transaction: the operations of a reader alone, and
the same operations around a transaction that is opened with room, extended as far as it may be
and taken back. The reader has the same answers and as many reports in both. From then on the two
stores give the same answers and reports and have the same levels. -/
theorem rolledBack_unobservable [Nonvolatile ν] {s : RecordStore ν} (reachable : s.Reachable)
    (closed : s.opened = none) {ops : List (Operation ν)} {pieces : List Bytes}
    (one : ops.filter (!·.reads) = .beginWrite :: (pieces.map .append ++ [.finishWrite true]))
    (begun : (.beginWrite, .amount 0) ∉ ops.zip (s.performAll ops).1) :
    let tried := s.performAll ops
    let plain := s.performAll (ops.filter (·.reads))
    RecordStore.readAnswers ops tried.1 = plain.1 ∧
      tried.2.reports.length = plain.2.reports.length ∧
      ∀ further,
        let tried' := tried.2.performAll further
        let plain' := plain.2.performAll further
        tried'.1 = plain'.1 ∧ tried'.2.levels = plain'.2.levels ∧
          ∃ new, tried'.2.reports = new ++ tried.2.reports ∧
            plain'.2.reports = new ++ plain.2.reports := by
  intro tried plain
  obtain ⟨q, h⟩ := reachable.exists_represents
  obtain ⟨before, during, after, rfl, reading, only, reading'⟩ := RecordStore.exists_parts one
  obtain ⟨answers, h₁⟩ : RecordQueue.Agrees tried _ := h.performAll _
  obtain ⟨answers', h₂⟩ : RecordQueue.Agrees plain _ := h.performAll _
  have closed' : q.opened = none := by
    rw [h.opened] at closed
    exact Option.map_eq_none_iff.mp closed
  have room : (q.performAll before).2.beginWrite.1 ≠ 0 := by
    intro refused
    apply begun
    rw [(h.performAll _).1]
    have mem := q.mem_zip_performAll before .beginWrite (during ++ .finishWrite true :: after)
    rwa [show ((q.performAll before).2.perform .beginWrite).1 = .amount 0 from
      congrArg Answer.amount refused] at mem
  have parts : (before ++ .beginWrite :: (during ++ .finishWrite true :: after)).filter (·.reads) =
      before ++ (during.filter (·.reads) ++ after) := by
    rw [List.filter_append, List.filter_eq_self.mpr reading,
      List.filter_cons_of_neg Bool.false_ne_true, List.filter_append,
      List.filter_cons_of_neg Bool.false_ne_true, List.filter_eq_self.mpr reading']
  rw [parts] at answers' h₂
  obtain ⟨same, r, state, count⟩ :=
    RecordQueue.performAll_rolledBack closed' reading only reading' room
  rw [state] at h₁
  refine ⟨?_, ?_, ?_⟩
  · rw [answers, same, answers']
  · rw [h₁.reports, h₂.reports]
    exact count
  · intro further tried' plain'
    obtain ⟨answers₁, h₁'⟩ : RecordQueue.Agrees tried' _ := h₁.performAll further
    obtain ⟨answers₂, h₂'⟩ : RecordQueue.Agrees plain' _ := h₂.performAll further
    obtain ⟨new, reports, forgot⟩ := RecordQueue.forgetful_performAll further _ r
    dsimp only at reports forgot
    rw [forgot] at answers₁ h₁'
    refine ⟨answers₁.trans answers₂.symm, h₁'.levels_eq.trans h₂'.levels_eq.symm, new, ?_, ?_⟩
    · rw [h₁'.reports, h₁.reports]
    · rw [h₂'.reports, h₂.reports, reports]

/-- A transaction that goes around the end of ten cells; while it is open, the oldest record is
moved into a non-volatile store that takes one event, and is read and marked there. -/
theorem rolledBack_unobservable_around :
    ∃ fresh : RecordStore EventQueue, RecordStore.ofCapacity 10 = .ok fresh ∧
      let s := (fresh.performAll [.attach { limit := some 1 }, .observe, .writeRecord [1, 2],
        .writeRecord [3]]).2
      let ops : List (Operation EventQueue) := [.hasRecord, .beginWrite, .append [4], .persist,
        .append [5, 6, 7, 8, 9], .append [5, 6, 7], .hasMore, .markRead, .finishWrite true,
        .read 0 1]
      let tried := s.performAll ops
      let plain := s.performAll (ops.filter (·.reads))
      tried.1 = [.size (some 2), .amount 1, .flag true, .amount 1, .flag false, .flag true,
        .size (some 2), .done, .done, .bytes none] ∧
        plain.1 = [.size (some 2), .amount 1, .size (some 2), .done, .bytes none] ∧
        tried.2.reports.length = plain.2.reports.length ∧
        ∀ further, (tried.2.performAll further).1 = (plain.2.performAll further).1 := by
  refine ⟨_, rfl, ?_⟩
  intro s ops tried plain
  have answers : tried.1 = [.size (some 2), .amount 1, .flag true, .amount 1, .flag false,
      .flag true, .size (some 2), .done, .done, .bytes none] := by decide +kernel
  have begun : (.beginWrite, .amount 0) ∉ ops.zip tried.1 := by
    rw [answers]
    simp [ops]
  have one : ops.filter (!·.reads) = .beginWrite ::
      ([[4], [5, 6, 7, 8, 9], [5, 6, 7]].map .append ++ [.finishWrite true]) := rfl
  obtain ⟨same, count, further⟩ :=
    rolledBack_unobservable (s := s) ⟨10, _, _, rfl, rfl⟩ (by decide +kernel) one begun
  refine ⟨answers, ?_, count, fun more => (further more).1⟩
  rw [← same, answers]
  rfl

end DeviceTelemetry
