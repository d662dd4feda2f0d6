import DeviceTelemetry.Proofs.RecordQueue.Contents
import DeviceTelemetry.Proofs.RecordQueue.Frame

/-!
# Moving records into a non-volatile store

`RecordStore.Persists` tells how records are moved as it runs: the loop has no bound on its rounds,
and a non-volatile store asks for ranges whose ends are machine words. What is offered in each round
is kept, together with the function that answers the store.

`persist_moves_accepted_prefix` says that on a reachable store the loop ends, that each record up to
the first one refused is offered once and in its order with its payload behind it and nothing else,
and that the records taken leave the ring while all that is behind them stays.
-/

set_option autoImplicit false

namespace DeviceTelemetry

open RecordStore (headerSize)
open RecordQueue (Represents)

variable {ν : Type}

/-! ### The loop -/

def RecordStore.pending (s : RecordStore ν) : Option Bytes :=
  s.opened.map fun written => s.ring.toList.drop (s.ring.count - written + headerSize)

/-- The answer to a non-volatile store that asks for a range of the oldest record's payload, on a
machine whose words are the numbers below `word`. -/
def RecordStore.callback (s : RecordStore ν) (word payload offset length : Nat) : Option Bytes :=
  if offset + length < word ∧ offset + length ≤ payload then
    (s.ring.read (headerSize + offset) length).toOption
  else none

/-- The store `t` is `s` after the records in `taken` have left the ring. -/
structure RecordStore.Moved (s t : RecordStore ν) (taken rest : List Bytes) : Prop where
  before : s.payloads = taken ++ rest
  after : t.payloads = rest
  bytes : s.ring.toList = taken.flatMap RecordQueue.frame ++ t.ring.toList
  opened : t.opened = s.opened
  pending : t.pending = s.pending
  /-- The open transaction can be closed as before. -/
  finished : ∀ undo, (t.finishWrite undo).payloads =
    rest ++ if undo then [] else s.pending.toList
  capacity : t.capacity = s.capacity
  batchLimit : t.batchLimit = s.batchLimit
  observed : t.observed = s.observed
  reports : t.reports = s.reports

namespace RecordStore

/-- No range within a payload that can be addressed is refused for its end. -/
theorem callback_eq (s : RecordStore ν) {word payload : Nat} (addressable : payload < word) :
    s.callback word payload = s.payloadSource payload := by
  funext offset length
  rw [callback, payloadSource]
  by_cases inside : offset + length ≤ payload
  · rw [if_pos ⟨by omega, inside⟩, if_pos inside]
  · rw [if_neg (mt And.right inside), if_neg inside]

end RecordStore

namespace RecordQueue

theorem records_finishWrite (q : RecordQueue ν) (undo : Bool) :
    (q.finishWrite undo).records = q.records ++ if undo then [] else q.opened.toList := by
  rw [finishWrite]
  cases q.opened with
  | none => cases undo <;> simp
  | some p =>
    cases undo with
    | true => exact (List.append_nil _).symm
    | false =>
      obtain ⟨reports, same⟩ := report_eq { q with records := q.records ++ [p], opened := none }
      exact congrArg RecordQueue.records same

/-- Only the records taken, the place of the first byte and what the reader holds change. -/
theorem moveOldest_keeps (q : RecordQueue ν) (b : ν) (n : Nat) :
    ∃ start handed, q.moveOldest b n =
      { q with start := start, records := q.records.drop n, handed := handed, backing := some b } := by
  obtain ⟨handed, same⟩ := hasRecord_keeps ({ q with backing := some b }.dropOldest n)
  exact ⟨_, handed, same⟩

namespace Represents

variable {s : RecordStore ν} {q : RecordQueue ν}

theorem pending_eq (h : Represents s q) : s.pending = q.opened := by
  rw [RecordStore.pending, h.opened]
  cases underway : q.opened with
  | none => rfl
  | some p =>
    have image : q.image = q.records.flatMap frame ++ openFrame p := by
      rw [RecordQueue.image, underway, imageOf_some]
    rw [Option.map_some, Option.map_some, h.bytes, image, h.count_of_opened underway,
      Nat.add_sub_cancel, ← List.drop_drop, List.drop_left]
    rfl

theorem hasRecord_of_nil (h : Represents s q) (queue : q.records = []) :
    s.hasRecord = (none, s) := by
  have first := h.recordAt_span (n := 0) (Nat.zero_le _)
  have handout := h.handout
  rw [queue] at first
  rw [h.handed_of_nil queue] at handout
  exact (hasRecord_of_not_alone s (by rw [handout]; simp)).1 first

theorem hasRecord_of_cons (h : Represents s q) {p : Bytes} {ps : List Bytes}
    (queue : q.records = p :: ps) :
    ∃ s', s.hasRecord = (some p.length, s') ∧ Represents s' { q with handed := some 1 } := by
  obtain ⟨found, next⟩ := h.hasRecord
  rw [hasRecord_cons queue] at found next
  exact ⟨s.hasRecord.2, Prod.ext found rfl, next⟩

theorem callback_eq (h : Represents s q) {p : Bytes} {ps : List Bytes}
    (queue : q.records = p :: ps) {word : Nat} (addressable : q.capacity < word) :
    s.callback word p.length = window p := by
  have first : q.records[0]? = some p := by rw [queue]; rfl
  have room := h.span_succ_le first
  have cells : s.ring.count ≤ q.capacity := by
    rw [← h.capacity]
    exact s.ring.count_le
  rw [s.callback_eq (by omega), h.payloadSource queue]

theorem moved (h : Represents s q) {b : ν} {taken rest : List Bytes} {start : Nat}
    {handed : Option Nat} (parts : q.records = taken ++ rest) {t : RecordStore ν}
    (h' : Represents t { q with
      start := start, records := rest, handed := handed, backing := some b, backingSeen := true }) :
    s.Moved t taken rest where
  before := h.payloads_eq.trans parts
  after := h'.payloads_eq
  bytes := by
    rw [h.bytes, h'.bytes, RecordQueue.image, parts]
    show imageOf (taken ++ rest) q.opened = _ ++ imageOf rest q.opened
    rw [imageOf, imageOf, List.flatMap_append, List.append_assoc]
  opened := h'.opened.trans h.opened.symm
  pending := h'.pending_eq.trans h.pending_eq.symm
  finished := by
    intro undo
    rw [(h'.finishWrite undo).payloads_eq, records_finishWrite, h.pending_eq]
  capacity := h'.capacity.trans h.capacity.symm
  batchLimit := h'.batchLimit.trans h.batchLimit.symm
  observed := h'.observed.trans h.observed.symm
  reports := h'.reports.trans h.reports.symm

end Represents

end RecordQueue

variable [Nonvolatile ν]

/-- The rounds in which records are offered: the size and the callback of each, the number of
records taken, and the store at the end. -/
inductive RecordStore.Moves (word : Nat) :
    RecordStore ν → ν → List (Nat × (Nat → Nat → Option Bytes)) → Nat → RecordStore ν → Prop where
  | empty {s s' : RecordStore ν} (b : ν) (nothing : s.hasRecord = (none, s')) :
      Moves word s b [] 0 { s' with backing := some b }
  | refused {s s' : RecordStore ν} {b b' : ν} {payload : Nat}
      (found : s.hasRecord = (some payload, s'))
      (answer : Nonvolatile.write b payload (s'.callback word payload) = (false, b')) :
      Moves word s b [(payload, s'.callback word payload)] 0 { s' with backing := some b' }
  | taken {s s' t : RecordStore ν} {b b' : ν} {payload n : Nat}
      {calls : List (Nat × (Nat → Nat → Option Bytes))}
      (found : s.hasRecord = (some payload, s'))
      (answer : Nonvolatile.write b payload (s'.callback word payload) = (true, b'))
      (rounds : Moves word s'.markRecordRead b' calls n t) :
      Moves word s b ((payload, s'.callback word payload) :: calls) (n + 1) t

/-- A whole call: nothing is offered unless the non-volatile store can be used. -/
inductive RecordStore.Persists (word : Nat) (s : RecordStore ν) :
    List (Nat × (Nat → Nat → Option Bytes)) → Nat → RecordStore ν → Prop where
  | off {t : RecordStore ν} (polled : s.pollBacking = (none, t)) : Persists word s [] 0 t
  | on {s' t : RecordStore ν} {b : ν} {calls : List (Nat × (Nat → Nat → Option Bytes))} {n : Nat}
      (polled : s.pollBacking = (some b, s')) (rounds : s'.Moves word b calls n t) :
      Persists word s calls n t

/-- Payloads are offered one after the other: those in `taken` are taken, the first of `rest` is
refused, and `final` is the non-volatile store after that. -/
inductive Nonvolatile.Takes : ν → List Bytes → List Bytes → ν → Prop where
  | done (b : ν) : Takes b [] [] b
  | refused {b b' : ν} {p : Bytes} (ps : List Bytes)
      (answer : Nonvolatile.write b p.length (RecordQueue.window p) = (false, b')) :
      Takes b [] (p :: ps) b'
  | taken {b b' final : ν} {p : Bytes} {ps rest : List Bytes}
      (answer : Nonvolatile.write b p.length (RecordQueue.window p) = (true, b'))
      (others : Takes b' ps rest final) : Takes b (p :: ps) rest final

def RecordQueue.offerOf (p : Bytes) : Nat × (Nat → Nat → Option Bytes) :=
  (p.length, RecordQueue.window p)

namespace RecordStore

theorem Moves.unique {word : Nat} {s t t' : RecordStore ν} {b : ν}
    {calls calls' : List (Nat × (Nat → Nat → Option Bytes))} {n n' : Nat}
    (first : s.Moves word b calls n t) (second : s.Moves word b calls' n' t') :
    calls = calls' ∧ n = n' ∧ t = t' := by
  induction first generalizing calls' n' t' with
  | empty b nothing =>
    cases second with
    | empty _ nothing' =>
      cases nothing.symm.trans nothing'
      exact ⟨rfl, rfl, rfl⟩
    | refused found | taken found => cases nothing.symm.trans found
  | refused found answer =>
    cases second with
    | empty _ nothing => cases found.symm.trans nothing
    | refused found' answer' =>
      cases found.symm.trans found'
      cases answer.symm.trans answer'
      exact ⟨rfl, rfl, rfl⟩
    | taken found' answer' =>
      cases found.symm.trans found'
      cases answer.symm.trans answer'
  | taken found answer _ ih =>
    cases second with
    | empty _ nothing => cases found.symm.trans nothing
    | refused found' answer' =>
      cases found.symm.trans found'
      cases answer.symm.trans answer'
    | taken found' answer' rounds =>
      cases found.symm.trans found'
      cases answer.symm.trans answer'
      obtain ⟨rfl, rfl, rfl⟩ := ih rounds
      exact ⟨rfl, rfl, rfl⟩

end RecordStore

namespace RecordQueue

theorem exists_takes (b : ν) (records : List Bytes) :
    ∃ taken rest, records = taken ++ rest ∧ (spill b records).1 = taken.length ∧
      Nonvolatile.Takes b taken rest (spill b records).2 := by
  induction records generalizing b with
  | nil => exact ⟨[], [], rfl, rfl, .done b⟩
  | cons p ps ih =>
    cases answer : Nonvolatile.write b p.length (window p) with
    | mk accepted b' =>
      cases accepted with
      | false =>
        rw [spill_refused answer]
        exact ⟨[], p :: ps, rfl, rfl, .refused ps answer⟩
      | true =>
        obtain ⟨taken, rest, parts, count, others⟩ := ih b'
        rw [spill_taken answer]
        exact ⟨p :: taken, rest, congrArg (p :: ·) parts, congrArg (· + 1) count,
          .taken answer others⟩

namespace Represents

variable {s : RecordStore ν} {q : RecordQueue ν}

/-- A round that offers the record `p`, from the store that has handed it out. -/
theorem exists_round (h : Represents s q) {word : Nat} (addressable : q.capacity < word)
    {p : Bytes} {ps : List Bytes} (queue : q.records = p :: ps) :
    ∃ s', s.hasRecord = (some p.length, s') ∧ s'.callback word p.length = window p ∧
      Represents s'.markRecordRead (q.dropOldest 1) ∧
      (∀ (b b' : ν) (count : Nat), Nonvolatile.write b p.length (window p) = (false, b') →
        s.offer b (count + 1) = (0, { s' with backing := some b' })) ∧
      ∀ (b b' : ν) (count : Nat), Nonvolatile.write b p.length (window p) = (true, b') →
        s.offer b (count + 1) =
          ((s'.markRecordRead.offer b' count).1 + 1, (s'.markRecordRead.offer b' count).2) := by
  obtain ⟨s', found, next⟩ := h.hasRecord_of_cons queue
  have source := next.payloadSource (by exact queue)
  refine ⟨s', found, next.callback_eq (by exact queue) addressable, next.markRecordRead, ?_, ?_⟩
  · intro b b' count answer
    rw [RecordStore.offer, found]
    dsimp only
    rw [source, answer]
  · intro b b' count answer
    rw [RecordStore.offer, found]
    dsimp only
    rw [source, answer]

/-- The rounds without a bound move what the rounds with a bound move. -/
theorem moves_offer (h : Represents s q) {word : Nat} (addressable : q.capacity < word)
    {b final : ν} {taken rest : List Bytes} (takes : Nonvolatile.Takes b taken rest final)
    (parts : q.records = taken ++ rest) {count : Nat} (enough : q.records.length ≤ count) :
    s.Moves word b ((taken ++ rest.take 1).map offerOf) (s.offer b count).1
      (s.offer b count).2 := by
  induction takes generalizing s q count with
  | done b =>
    have nothing := h.hasRecord_of_nil parts
    have offered : s.offer b count = (0, { s with backing := some b }) := by
      cases count with
      | zero => rfl
      | succ count => rw [RecordStore.offer, nothing]
    rw [offered]
    exact .empty b nothing
  | @refused b b' p ps answer =>
    obtain ⟨s', found, callback, -, refused, -⟩ := h.exists_round addressable parts
    rw [parts, List.nil_append, List.length_cons] at enough
    obtain ⟨count, rfl⟩ := Nat.exists_eq_succ_of_ne_zero (Nat.ne_of_gt (Nat.zero_lt_of_lt enough))
    rw [refused b b' count answer]
    rw [← callback] at answer
    have round := RecordStore.Moves.refused found answer
    rw [callback] at round
    exact round
  | @taken b b' final p ps rest answer others ih =>
    obtain ⟨s', found, callback, dropped, -, accepted⟩ := h.exists_round addressable parts
    have behind : (q.dropOldest 1).records = ps ++ rest := by
      rw [RecordQueue.dropOldest, parts]
      rfl
    rw [parts, List.cons_append, List.length_cons, ← behind] at enough
    obtain ⟨count, rfl⟩ := Nat.exists_eq_succ_of_ne_zero (Nat.ne_of_gt (Nat.zero_lt_of_lt enough))
    have rounds := ih dropped addressable behind (Nat.le_of_succ_le_succ enough)
    rw [accepted b b' count answer]
    rw [← callback] at answer
    have round := RecordStore.Moves.taken found answer rounds
    rw [callback] at round
    exact round

end Represents

end RecordQueue

/-- Records of a reachable store are moved into a non-volatile store that can be used, whatever it
asks for and whichever records it takes. The loop ends, on a machine whose words count the cells of
the ring. Each record up to the first one refused is offered once, oldest first, and a range that
the non-volatile store asks for is answered with the bytes of the record's payload, or refused if it
is not within the payload. The records taken are counted and leave the ring with their headers; the
records behind them, the open transaction and how it can be closed stay as they were. -/
theorem persist_moves_accepted_prefix {s : RecordStore ν} (reachable : s.Reachable) {b : ν}
    (attached : s.backing = some b) (usable : (Nonvolatile.poll b).1 = true) :
    ∃ taken rest final, Nonvolatile.Takes (Nonvolatile.poll b).2 taken rest final ∧
      s.persist.1 = taken.length ∧ s.Moved s.persist.2 taken rest ∧
      s.persist.2.backing = some final ∧
      ∀ word, s.capacity < word → ∀ calls n t, s.Persists word calls n t ↔
        calls = (taken ++ rest.take 1).map RecordQueue.offerOf ∧
          n = s.persist.1 ∧ t = s.persist.2 := by
  obtain ⟨q, h⟩ := reachable.exists_represents
  have answer : Nonvolatile.poll b = (true, (Nonvolatile.poll b).2) := Prod.ext usable rfl
  generalize (Nonvolatile.poll b).2 = b' at answer
  have polled : s.pollBacking = (some b', { s with backing := some b', backingSeen := true }) := by
    rw [RecordStore.pollBacking, attached]
    dsimp only
    rw [answer]
  have h' : Represents { s with backing := some b', backingSeen := true }
      { q with backing := some b', backingSeen := true } :=
    { h.setBacking b' with backingSeen := rfl }
  have persist : s.persist = RecordStore.offer
      { s with backing := some b', backingSeen := true } b' s.ring.count := by
    rw [RecordStore.persist, polled]
  have enough : q.records.length ≤ s.ring.count := by
    rw [h.count_eq]
    exact RecordQueue.length_le_image q.records q.opened
  obtain ⟨taken, rest, parts, count, takes⟩ := RecordQueue.exists_takes b' q.records
  obtain ⟨saved, left⟩ := h'.offer b' enough
  obtain ⟨start, handed, same⟩ := RecordQueue.moveOldest_keeps
    { q with backing := some b', backingSeen := true } (RecordQueue.spill b' q.records).2
    taken.length
  have behind : q.records.drop taken.length = rest := by rw [parts, List.drop_left]
  rw [count] at saved left
  rw [← persist] at saved left
  dsimp only at saved left
  rw [same] at left
  dsimp only at left
  rw [behind] at left
  refine ⟨taken, rest, _, takes, saved, h.moved parts left, left.backing, ?_⟩
  intro word addressable calls n t
  rw [RecordStore.capacity, h.capacity] at addressable
  have rounds := h'.moves_offer addressable takes parts enough
  rw [← persist] at rounds
  constructor
  · rintro (polled' | ⟨polled', rounds'⟩)
    · cases polled.symm.trans polled'
    · cases polled.symm.trans polled'
      exact rounds'.unique rounds
  · rintro ⟨rfl, rfl, rfl⟩
    exact .on polled rounds

/-- Three records around the end of sixteen cells, held by the reader as a batch, in front of an
open transaction. The non-volatile store looks at two bytes of each record, of which the first has
one, takes two records byte by byte and refuses the third. -/
theorem persist_moves_accepted_prefix_around :
    ∃ fresh : RecordStore EventQueue, RecordStore.ofCapacity 16 = .ok fresh ∧
      let b : EventQueue := { limit := some 2, chunk := some 1, probes := [(0, 2)] }
      let s := (fresh.performAll [.writeRecord [1, 2, 3, 4, 5, 6, 7, 8], .drainOne,
        .setBatchLimit (some 8), .writeRecord [9], .writeRecord [10, 11], .writeRecord [],
        .hasMore, .beginWrite, .append [12], .attach b]).2
      s.backing = some b ∧ (Nonvolatile.poll b).1 = true ∧
        (∃ final, Nonvolatile.Takes b [[9], [10, 11]] [[]] final ∧
          s.persist.2.backing = some final ∧ final.events = [[9], [10, 11]] ∧
          final.probed = [none, some [10, 11], none]) ∧
        s.persist.1 = 2 ∧ s.persist.2.payloads = [[]] ∧ s.persist.2.pending = some [12] ∧
        (s.persist.2.finishWrite false).payloads = [[], [12]] ∧
        (s.persist.2.finishWrite true).payloads = [[]] ∧
        s.Persists (2 ^ 64) ([[9], [10, 11], []].map RecordQueue.offerOf) 2 s.persist.2 := by
  refine ⟨_, rfl, ?_⟩
  intro b s
  obtain ⟨taken, rest, final, takes, saved, moved, backing, runs⟩ :=
    persist_moves_accepted_prefix (s := s) ⟨16, _, _, rfl, rfl⟩ (b := b) rfl rfl
  have two : s.persist.1 = 2 := by decide +kernel
  have payloads : s.payloads = [[9], [10, 11], []] := by decide +kernel
  have pending : s.pending = some [12] := by decide +kernel
  have parts := moved.before.symm.trans payloads
  obtain rfl : taken = [[9], [10, 11]] := by
    have front := congrArg (List.take taken.length) parts
    rw [List.take_left, ← saved, two] at front
    exact front
  obtain rfl : rest = [[]] := List.append_cancel_left parts
  have shown : s.persist.2.backing.map (fun q => (q.events, q.probed)) =
      some ([[9], [10, 11]], [none, some [10, 11], none]) := by decide +kernel
  rw [backing, Option.map_some, Option.some.injEq, Prod.mk.injEq] at shown
  refine ⟨rfl, rfl, ⟨final, takes, backing, shown⟩, two, moved.after, moved.pending.trans pending,
    ?_, moved.finished true, ?_⟩
  · rw [moved.finished, pending]
    rfl
  · exact (runs (2 ^ 64) (by decide +kernel) _ _ _).mpr ⟨rfl, two.symm, rfl⟩

end DeviceTelemetry
