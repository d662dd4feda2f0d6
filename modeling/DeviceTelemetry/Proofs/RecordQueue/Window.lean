import DeviceTelemetry.Proofs.RecordQueue.Contents
import DeviceTelemetry.Proofs.RecordQueue.Frame

/-!
# Windows of what is handed out

`RecordStore.handedText` is the text behind a read: the array head of a batch, then the payloads of
the records handed out. `RecordStore.Reads` tells a read as it runs: the end of the range is a
machine word or the read is refused, and the walk from record to record (`RecordStore.Walks`) has no
bound on its steps. `readRecord_serves_windows` says that every read of a reachable store ends, and
that it answers with the bytes of the text in the range or, if the range is not within the text,
with nothing.
-/

set_option autoImplicit false

namespace DeviceTelemetry

open RecordStore (headerSize Operation)

variable {ν : Type}

/-- What the reader can read, if records are handed out: the array head of a batch, then the
payloads of the records. -/
def RecordStore.handedText (s : RecordStore ν) : Option Bytes :=
  s.handout.map fun handout => RecordQueue.batchText s.payloads handout.records

def RecordStore.Operation.Writes : Operation ν → Prop
  | .beginWrite | .append _ | .finishWrite _ | .writeRecord _ => True
  | _ => False

/-! ### The walk along the records -/

/-- The walk from the record at `position` on that collects `length` bytes of payloads from `offset`
on; `none` if it meets something that is no record, or bytes that it cannot read. -/
inductive RecordStore.Walks (s : RecordStore ν) : Nat → Nat → Nat → Option Bytes → Prop where
  | full (position offset : Nat) : Walks s position offset 0 (some [])
  | lost {position length : Nat} (offset : Nat) (more : 0 < length)
      (missing : s.recordAt position = none) : Walks s position offset length none
  | past {position offset length size : Nat} {rest : Option Bytes} (more : 0 < length)
      (found : s.recordAt position = some size) (behind : size - headerSize ≤ offset)
      (walk : Walks s (position + size) (offset - (size - headerSize)) length rest) :
      Walks s position offset length rest
  | unreadable {position offset length size : Nat} {e : RingError} (more : 0 < length)
      (found : s.recordAt position = some size) (inside : offset < size - headerSize)
      (refused : s.ring.read (position + headerSize + offset)
        (min (size - headerSize - offset) length) = .error e) :
      Walks s position offset length none
  | copied {position offset length size : Nat} {bs : Bytes} {rest : Option Bytes}
      (more : 0 < length) (found : s.recordAt position = some size)
      (inside : offset < size - headerSize)
      (read : s.ring.read (position + headerSize + offset)
        (min (size - headerSize - offset) length) = .ok bs)
      (walk : Walks s (position + size) 0 (length - min (size - headerSize - offset) length) rest) :
      Walks s position offset length (rest.map (bs ++ ·))

/-- A read of a range on a machine whose words are the numbers below `word`. -/
inductive RecordStore.Reads (s : RecordStore ν) (word offset length : Nat) :
    Option Bytes → Prop where
  | idle (unoffered : s.handout = none) : Reads s word offset length none
  | beyond {handout : Handout} (offered : s.handout = some handout)
      (outside : word ≤ offset + length ∨ handout.size < offset + length) :
      Reads s word offset length none
  | within {handout : Handout} {payloads : Option Bytes} (offered : s.handout = some handout)
      (representable : offset + length < word) (inside : offset + length ≤ handout.size)
      (walk : s.Walks 0 (offset - handout.lead.length)
        (length - ((handout.lead.drop offset).take length).length) payloads) :
      Reads s word offset length (payloads.map ((handout.lead.drop offset).take length ++ ·))

namespace RecordStore

variable {s : RecordStore ν} {position offset length : Nat}

theorem Walks.unique {a b : Option Bytes} (first : s.Walks position offset length a)
    (second : s.Walks position offset length b) : a = b := by
  induction first generalizing b with
  | full => cases second <;> first | rfl | contradiction
  | lost offset more missing =>
    cases second with
    | full => contradiction
    | lost => rfl
    | past _ found | unreadable _ found | copied _ found => cases missing.symm.trans found
  | past more found behind _ ih =>
    cases second with
    | full => contradiction
    | lost _ _ missing => cases found.symm.trans missing
    | past _ found' _ walk =>
      cases found.symm.trans found'
      exact ih walk
    | unreadable _ found' inside | copied _ found' inside =>
      cases found.symm.trans found'
      omega
  | unreadable more found inside refused =>
    cases second with
    | full => contradiction
    | lost => rfl
    | past _ found' behind =>
      cases found.symm.trans found'
      omega
    | unreadable => rfl
    | copied _ found' _ read =>
      cases found.symm.trans found'
      cases refused.symm.trans read
  | copied more found inside read _ ih =>
    cases second with
    | full => contradiction
    | lost _ _ missing => cases found.symm.trans missing
    | past _ found' behind =>
      cases found.symm.trans found'
      omega
    | unreadable _ found' _ refused =>
      cases found.symm.trans found'
      cases read.symm.trans refused
    | copied _ found' _ read' walk =>
      cases found.symm.trans found'
      cases read.symm.trans read'
      rw [ih walk]

/-- What is gathered from a number of records is what the walk without a bound collects. -/
theorem walks_of_gather {count : Nat} {bs : Bytes}
    (gathered : s.gather position offset length count = some bs) :
    s.Walks position offset length (some bs) := by
  induction count generalizing position offset length bs with
  | zero =>
    rw [gather] at gathered
    split at gathered
    · rename_i nothing
      cases gathered
      exact nothing ▸ .full position offset
    · cases gathered
  | succ count ih =>
    rw [gather] at gathered
    split at gathered
    · rename_i nothing
      cases gathered
      exact nothing ▸ .full position offset
    · rename_i nonzero
      have more : 0 < length := Nat.pos_of_ne_zero nonzero
      cases found : s.recordAt position with
      | none =>
        rw [found] at gathered
        cases gathered
      | some size =>
        rw [found] at gathered
        dsimp only at gathered
        by_cases behind : size - headerSize ≤ offset
        · rw [if_pos behind] at gathered
          exact .past more found behind (ih gathered)
        · rw [if_neg behind] at gathered
          cases read : s.ring.read (position + headerSize + offset)
              (min (size - headerSize - offset) length) with
          | error e =>
            rw [read] at gathered
            cases gathered
          | ok piece =>
            rw [read] at gathered
            obtain ⟨rest, walked, rfl⟩ := Option.map_eq_some_iff.mp gathered
            exact .copied more found (Nat.lt_of_not_le behind) read (ih walked)

end RecordStore

/-! ### The text of a queue -/

namespace RecordQueue

theorem length_leadOf_le (n : Nat) : (leadOf n).length ≤ headerSize * n := by
  rw [leadOf]
  split
  · rename_i several
    rw [Cbor.arrayHead, Cbor.length_head, Cbor.headSize, headerSize]
    repeat' split
    all_goals omega
  · exact Nat.zero_le _

theorem length_flatMap_frame (records : List Bytes) :
    (records.flatMap frame).length = records.flatten.length + headerSize * records.length := by
  induction records with
  | nil => rfl
  | cons p ps ih =>
    rw [List.flatMap_cons, List.flatten_cons, List.length_append, List.length_append, ih,
      length_frame, List.length_cons, Nat.mul_add, Nat.mul_one]
    omega

theorem length_batchText_le (records : List Bytes) {n : Nat} (inside : n ≤ records.length) :
    (batchText records n).length ≤ span records n := by
  have lead := length_leadOf_le n
  rw [batchText, List.length_append, span, length_flatMap_frame, List.length_take,
    Nat.min_eq_left inside]
  omega

theorem fetch_eq_window (p : Bytes) (offset : Nat) {lengths : List Nat} (nonempty : lengths ≠ []) :
    EventQueue.fetch (window p) offset lengths = window p offset lengths.sum := by
  by_cases inside : offset + lengths.sum ≤ p.length
  · rw [EventQueue.fetch_window p lengths offset inside, window, if_pos inside]
  · rw [window, if_neg inside]
    induction lengths generalizing offset with
    | nil => contradiction
    | cons length lengths ih =>
      rw [EventQueue.fetch]
      cases piece : window p offset length with
      | none => rfl
      | some bs =>
        -- the first piece is within the text, so it is not the only one
        have first : offset + length ≤ p.length := by
          by_contra outside
          rw [window, if_neg outside] at piece
          cases piece
        rw [List.sum_cons] at inside
        have others : lengths ≠ [] := by
          rintro rfl
          exact inside first
        dsimp only
        rw [ih (offset + length) others (by omega), Option.map_none]

/-- Records added at the end do not change what the oldest ones read like. -/
theorem batchText_of_grown {records more : List Bytes} {n : Nat} (grown : records <+: more)
    (inside : n ≤ records.length) : batchText more n = batchText records n := by
  obtain ⟨added, rfl⟩ := grown
  rw [batchText, batchText, List.take_append_of_le_length inside]

namespace Represents

variable {s : RecordStore ν} {q : RecordQueue ν}

theorem handedText_eq (h : Represents s q) :
    s.handedText = q.handed.map (batchText q.records) := by
  rw [RecordStore.handedText, h.payloads_eq, h.handout, Option.map_map]
  rfl

theorem length_handedText_le (h : Represents s q) {text : Bytes}
    (handed : s.handedText = some text) : text.length ≤ s.levels.used := by
  rw [h.handedText_eq] at handed
  obtain ⟨n, held, rfl⟩ := Option.map_eq_some_iff.mp handed
  have inside := (h.handed n held).2
  have used : s.levels.used = q.image.length := h.count_eq
  rw [used]
  exact (length_batchText_le q.records inside).trans (span_le q.records q.opened n)

theorem size_handout (h : Represents s q) {handout : Handout}
    (offered : s.handout = some handout) :
    ∃ text, s.handedText = some text ∧ text.length = handout.size := by
  rw [h.handout] at offered
  obtain ⟨n, held, rfl⟩ := Option.map_eq_some_iff.mp offered
  refine ⟨_, by rw [h.handedText_eq, held]; rfl, (size_handoutOf q.records n).symm⟩

/-- A read answers with a window of the text. -/
theorem readRecord_eq_some_iff (h : Represents s q) (offset length : Nat) (bs : Bytes) :
    s.readRecord offset length = some bs ↔
      ∃ text, s.handedText = some text ∧ offset + length ≤ text.length ∧
        bs = (text.drop offset).take length := by
  rw [h.readRecord, h.handedText_eq, RecordQueue.readRecord]
  cases q.handed with
  | none => simp
  | some n =>
    simp only [Option.map_some, Option.some.injEq, exists_eq_left', Option.ite_none_right_eq_some]
    exact and_congr_right fun _ => eq_comm

/-- Within the text, all records that the walk needs are found and read. -/
theorem exists_gather (h : Represents s q) {handout : Handout} (offered : s.handout = some handout)
    {offset length : Nat} (inside : offset + length ≤ handout.size) :
    ∃ payloads, s.gather 0 (offset - handout.lead.length)
      (length - ((handout.lead.drop offset).take length).length) handout.records =
        some payloads := by
  obtain ⟨text, handed, size⟩ := h.size_handout offered
  have read := (h.readRecord_eq_some_iff offset length _).mpr
    ⟨text, handed, by rw [size]; exact inside, rfl⟩
  simp only [RecordStore.readRecord, offered, if_pos inside] at read
  obtain ⟨payloads, gathered, -⟩ := Option.map_eq_some_iff.mp read
  exact ⟨payloads, gathered⟩

/-- A read as it runs has one outcome, which is that of the read with a bound on its steps. -/
theorem reads_iff (h : Represents s q) {word : Nat} (addressable : s.capacity < word)
    (offset length : Nat) (r : Option Bytes) :
    s.Reads word offset length r ↔ r = s.readRecord offset length := by
  have short {handout : Handout} (offered : s.handout = some handout) : handout.size < word := by
    obtain ⟨text, handed, size⟩ := h.size_handout offered
    have used := h.length_handedText_le handed
    have cells : s.levels.used ≤ s.capacity := s.ring.count_le
    omega
  constructor
  · rintro (unoffered | ⟨offered, outside⟩ | ⟨offered, representable, inside, walk⟩)
    · rw [RecordStore.readRecord, unoffered]
    · have size := short offered
      simp only [RecordStore.readRecord, offered]
      rw [if_neg (by omega)]
    · obtain ⟨payloads, gathered⟩ := h.exists_gather offered inside
      simp only [RecordStore.readRecord, offered, if_pos inside]
      rw [walk.unique (RecordStore.walks_of_gather gathered), gathered]
  · rintro rfl
    cases offered : s.handout with
    | none =>
      rw [RecordStore.readRecord, offered]
      exact .idle offered
    | some handout =>
      simp only [RecordStore.readRecord, offered]
      by_cases inside : offset + length ≤ handout.size
      · obtain ⟨payloads, gathered⟩ := h.exists_gather offered inside
        have size := short offered
        rw [if_pos inside, gathered]
        exact .within offered (by omega) inside (RecordStore.walks_of_gather gathered)
      · rw [if_neg inside]
        exact .beyond offered (.inr (by omega))

theorem readRecord_eq_window (h : Represents s q) {text : Bytes}
    (handed : s.handedText = some text) : s.readRecord = window text := by
  rw [h.handedText_eq] at handed
  obtain ⟨n, held, rfl⟩ := Option.map_eq_some_iff.mp handed
  funext offset length
  rw [h.readRecord, RecordQueue.readRecord, held]
  rfl

/-- Pieces that follow one another, read one by one, are the window that they form. -/
theorem fetch_readRecord (h : Represents s q) (offset : Nat) {lengths : List Nat}
    (nonempty : lengths ≠ []) :
    EventQueue.fetch s.readRecord offset lengths = s.readRecord offset lengths.sum := by
  cases handed : s.handedText with
  | some text =>
    rw [h.readRecord_eq_window handed]
    exact fetch_eq_window text offset nonempty
  | none =>
    have idle : s.handout = none := Option.map_eq_none_iff.mp handed
    have refused (offset length : Nat) : s.readRecord offset length = none := by
      rw [RecordStore.readRecord, idle]
    obtain ⟨length, lengths, rfl⟩ := List.exists_cons_of_ne_nil nonempty
    rw [EventQueue.fetch, refused, refused]

variable [Nonvolatile ν]

theorem handedText_perform (h : Represents s q) {op : Operation ν} (writes : op.Writes) :
    (s.perform op).2.handedText = s.handedText := by
  have grown : Grows q (q.perform op).2 := by
    cases op with
    | beginWrite => exact grows_beginWrite q
    | append bs => exact grows_append q bs
    | finishWrite undo => exact grows_finishWrite q undo
    | writeRecord payload => exact grows_writeRecord q payload
    | _ => exact writes.elim
  rw [(h.perform op).2.handedText_eq, h.handedText_eq, grown.handed]
  cases held : q.handed with
  | none => rfl
  | some n => exact congrArg some (batchText_of_grown grown.records (h.handed n held).2)

end Represents

end RecordQueue

/-! ### Reachable stores -/

variable [Nonvolatile ν]

/-- A read of a reachable store answers if and only if records are handed out and the range is
within their text, the array head of a batch included; the answer is the bytes of the text in the
range. The text is never longer than the used bytes, so a range whose end is no machine word is
refused. Pieces that follow one another are the window that they form. The read as it runs, whose
walk along the records has no bound, ends with the same answer and with no other. Neither an open
transaction nor a record that is added changes the text. -/
theorem readRecord_serves_windows {s : RecordStore ν} (reachable : s.Reachable) :
    (∀ offset length bs, s.readRecord offset length = some bs ↔
      ∃ text, s.handedText = some text ∧ offset + length ≤ text.length ∧
        bs = (text.drop offset).take length) ∧
    (∀ text ∈ s.handedText, text.length ≤ s.levels.used) ∧
    (∀ offset lengths, lengths ≠ [] →
      EventQueue.fetch s.readRecord offset lengths = s.readRecord offset lengths.sum) ∧
    (∀ word, s.capacity < word → ∀ offset length r,
      s.Reads word offset length r ↔ r = s.readRecord offset length) ∧
    ∀ op : Operation ν, op.Writes → (s.perform op).2.handedText = s.handedText := by
  obtain ⟨q, h⟩ := reachable.exists_represents
  exact ⟨h.readRecord_eq_some_iff, fun _ handed => h.length_handedText_le handed,
    fun offset _ nonempty => h.fetch_readRecord offset nonempty,
    fun _ addressable => h.reads_iff addressable, fun _ writes => h.handedText_perform writes⟩

/-- A batch of three records around the end of sixteen cells, one of them empty, with a record
committed after it was handed out and an open transaction behind. The windows lie in the array head,
across the end of the cells, and on a boundary between records. -/
theorem readRecord_serves_windows_around :
    ∃ fresh : RecordStore Empty, RecordStore.ofCapacity 16 = .ok fresh ∧
      let s := (fresh.performAll [.writeRecord [1, 2, 3, 4, 5, 6], .hasMore, .markRead,
        .setBatchLimit (some 8), .writeRecord [10], .writeRecord [], .writeRecord [1, 2, 3],
        .hasMore, .writeRecord [9], .beginWrite, .append []]).2
      s.handedText = some [0x83, 10, 1, 2, 3] ∧ s.levels.used = 15 ∧
        s.readRecord 0 2 = some [0x83, 10] ∧ s.readRecord 1 3 = some [10, 1, 2] ∧
        s.readRecord 2 3 = some [1, 2, 3] ∧ s.readRecord 2 4 = none ∧
        s.readRecord (2 ^ 64 - 1) 2 = none ∧
        EventQueue.fetch s.readRecord 0 [1, 2, 2] = some [0x83, 10, 1, 2, 3] ∧
        s.Reads (2 ^ 64) 1 3 (some [10, 1, 2]) ∧
        (s.perform (.finishWrite false)).2.handedText = some [0x83, 10, 1, 2, 3] := by
  refine ⟨_, rfl, ?_⟩
  intro s
  have text : s.handedText = some [0x83, 10, 1, 2, 3] := by decide +kernel
  obtain ⟨window, -, pieces, runs, kept⟩ := readRecord_serves_windows (s := s) ⟨16, _, _, rfl, rfl⟩
  have middle := (window 1 3 _).mpr ⟨_, text, by decide, rfl⟩
  have refused {offset length : Nat} (outside : 5 < offset + length) :
      s.readRecord offset length = none := by
    rw [Option.eq_none_iff_forall_ne_some]
    intro bs read
    obtain ⟨text', handed, inside, -⟩ := (window offset length bs).mp read
    cases handed.symm.trans text
    exact absurd inside (Nat.not_le_of_lt outside)
  refine ⟨text, by decide +kernel, (window 0 2 _).mpr ⟨_, text, by decide, rfl⟩, middle,
    (window 2 3 _).mpr ⟨_, text, by decide, rfl⟩, refused (by decide), refused (by decide), ?_,
    (runs _ (by decide +kernel) 1 3 _).mpr middle.symm,
    (kept (.finishWrite false) trivial).trans text⟩
  exact (pieces 0 [1, 2, 2] (by decide)).trans
    ((window 0 5 _).mpr ⟨_, text, by decide, rfl⟩)

end DeviceTelemetry
