import DeviceTelemetry.Proofs.RecordQueue.Persisting
import DeviceTelemetry.Proofs.RecordQueue.Window
import DeviceTelemetry.Proofs.RingRefinement
import DeviceTelemetry.Proofs.StrictRing

/-!
# Stores that stop at a fault

The operations of a record store once more, over the strict operations of its ring. They also stop
where the store would recover from something that should not happen: a ring that refuses to drop a
header, to take back or to close a transaction or to drop what was handed out, a walk along the
records that meets no record or cannot read one, and a loop that goes on for too long.

`performAll_without_fault` says that no history of a store comes to a fault, whatever its
non-volatile store does.
-/

set_option autoImplicit false

namespace DeviceTelemetry

open Strict

namespace Strict

def relied {α : Type} : Except RingError α → Except Fault α
  | .ok a => .ok a
  | .error e => .error (.refused e)

def header (n : Nat) : Except Fault Bytes :=
  if n < 0x10000 then .ok (Bytes.ofWord n) else .error (.wide n)

end Strict

def Handout.strictPush (h : Handout) (size : Nat) : Except Fault Handout := do
  let payload ← less size RecordStore.headerSize
  return { h with
    records := h.records + 1
    span := h.span + size
    payload := h.payload + payload }

namespace RecordStore

variable {ν : Type}

/-! ### Writing -/

def strictReport (s : RecordStore ν) : Except Fault (RecordStore ν) := do
  let free ← s.ring.strictFree
  return if s.observed then { s with reports := ⟨s.ring.count, free⟩ :: s.reports } else s

def strictBeginWrite (s : RecordStore ν) : Except Fault (Nat × RecordStore ν) := do
  if s.opened.isSome then return (0, s)
  else
    match ← s.ring.strictWrite (Bytes.ofWord openMark) with
    | .error _ => return (0, s)
    | .ok ring =>
      let budget ← ring.strictFree
      if budget = 0 then return (0, { s with ring := ← relied (← ring.strictConsumeBack headerSize) })
      else return (budget, { s with ring := ring, opened := some headerSize })

def strictAppend (s : RecordStore ν) (bs : Bytes) : Except Fault (Bool × RecordStore ν) := do
  match s.opened with
  | none => return (false, s)
  | some written =>
    if maxRecordSize < written + bs.length then return (false, s)
    else
      match ← s.ring.strictWrite bs with
      | .error _ => return (false, s)
      | .ok ring => return (true, { s with ring := ring, opened := some (written + bs.length) })

def strictFinishWrite (s : RecordStore ν) (undo : Bool) : Except Fault (RecordStore ν) := do
  match s.opened with
  | none => return s
  | some written =>
    if undo then
      let ring ← relied (← s.ring.strictConsumeBack written)
      return { s with ring := ring, opened := none }
    else
      let ring ← relied (← s.ring.strictWriteBack written (← header written))
      { s with ring := ring, opened := none }.strictReport

def strictWriteRecord (s : RecordStore ν) (payload : Bytes) :
    Except Fault (Bool × RecordStore ν) := do
  match ← s.strictBeginWrite with
  | (0, s) => return (false, s)
  | (_, s) =>
    let (kept, s) ← s.strictAppend payload
    return (kept, ← s.strictFinishWrite (!kept))

/-! ### Reading -/

def strictRecordAt (s : RecordStore ν) (offset : Nat) : Except Fault (Option Nat) := do
  match ← s.ring.strictRead offset [0, 0] with
  | .ok [lo, hi] =>
    let size := Bytes.toWord lo hi
    return if size ≠ openMark ∧ headerSize ≤ size ∧ offset + size ≤ s.ring.count then some size
      else none
  | _ => return none

def strictHasRecord (s : RecordStore ν) : Except Fault (Option Nat × RecordStore ν) := do
  match s.handout with
  | some ⟨1, _, payload, _⟩ => return (some payload, s)
  | _ =>
    match ← s.strictRecordAt 0 with
    | none => return (none, s)
    | some size =>
      let handout ← Handout.empty.strictPush size
      return (some handout.payload, { s with handout := some handout })

def strictExtend (s : RecordStore ν) (limit : Nat) (batch : Handout) : Nat → Except Fault Handout
  | 0 => .error .endless
  | rounds + 1 => do
    match ← s.strictRecordAt batch.span with
    | none => return batch
    | some size =>
      let payload ← less size headerSize
      if 0 < batch.records ∧ batch.payload + payload > limit then return batch
      else s.strictExtend limit (← batch.strictPush size) rounds

def strictHasBatch (s : RecordStore ν) (limit : Nat) :
    Except Fault (Option Nat × RecordStore ν) := do
  match s.handout with
  | some handout => return (some handout.size, s)
  | none =>
    let batch ← s.strictExtend limit .empty (s.ring.count + 1)
    if batch.records = 0 then return (none, s)
    else return (some batch.withLead.size, { s with handout := some batch.withLead })

/-- Fills `out` with the payloads from `offset` on, one record in each round at most. -/
def strictGather (s : RecordStore ν) (position offset : Nat) (out : Bytes) :
    Nat → Except Fault Bytes
  | 0 => if out.length = 0 then .ok [] else .error .endless
  | rounds + 1 => do
    if out.length = 0 then return []
    else
      match ← s.strictRecordAt position with
      | none => .error (.missing position)
      | some size =>
        let payload ← less size headerSize
        if payload ≤ offset then
          s.strictGather (position + size) (← less offset payload) out rounds
        else
          let left ← less payload offset
          let here := min left out.length
          let front ← cut out 0 here
          let back ← cut out here out.length
          let bs ← relied (← s.ring.strictRead (position + headerSize + offset) front)
          return bs ++ (← s.strictGather (position + size) 0 back rounds)

def strictReadRecord (s : RecordStore ν) (offset : Nat) (out : Bytes) :
    Except Fault (Option Bytes) := do
  match s.handout with
  | none => return none
  | some handout =>
    if handout.size < offset + out.length then return none
    else if offset < handout.lead.length then
      let left ← less handout.lead.length offset
      let here := min left out.length
      let front ← cut out 0 here
      let back ← cut out here out.length
      let lead ← paste front 0 front.length (← cut handout.lead offset (offset + here))
      return some (lead ++ (← s.strictGather 0 0 back handout.records))
    else
      return some (← s.strictGather 0 (← less offset handout.lead.length) out handout.records)

def strictRecordSlices (s : RecordStore ν) : Except Fault (Option (Bytes × Bytes)) := do
  match s.handout with
  | some ⟨1, _, payload, _⟩ =>
    match ← s.ring.strictRun? headerSize with
    | none => .error (.missing headerSize)
    | some first =>
      if payload ≤ first.length then return some (← cut first 0 payload, [])
      else
        match ← s.ring.strictRun? (headerSize + first.length) with
        | none => .error (.missing (headerSize + first.length))
        | some second =>
          let rest ← less payload first.length
          return some (first, ← cut second 0 rest)
  | _ => return none

def strictMarkRecordRead (s : RecordStore ν) : Except Fault (RecordStore ν) := do
  match s.handout with
  | none => return s
  | some handout =>
    let ring ← relied (← s.ring.strictConsume handout.span)
    return { s with ring := ring, handout := none }

/-! ### Draining -/

def strictSource (s : RecordStore ν) (payload offset length : Nat) :
    Except Fault (Option Bytes) := do
  if offset + length ≤ payload then
    return (← s.ring.strictRead (headerSize + offset) (List.replicate length 0)).toOption
  else return none

variable [Nonvolatile ν]

def strictHasMore (s : RecordStore ν) : Except Fault (Option Nat × RecordStore ν) := do
  match s.pollBacking with
  | (some backing, s) =>
    let (size, backing) := Nonvolatile.oldest backing
    return (size, { s with backing := some backing })
  | (none, s) =>
    match s.batchLimit, s.handout with
    | some limit, _ => s.strictHasBatch limit
    | none, some handout => return (some handout.size, s)
    | none, none => s.strictHasRecord

def strictRead (s : RecordStore ν) (offset length : Nat) :
    Except Fault (Option Bytes × RecordStore ν) := do
  match s.pollBacking with
  | (some backing, s) =>
    let (bs, backing) := Nonvolatile.read backing offset length
    return (bs, { s with backing := some backing })
  | (none, s) => return (← s.strictReadRecord offset (List.replicate length 0), s)

def strictMarkRead (s : RecordStore ν) : Except Fault (RecordStore ν) := do
  match s.pollBacking with
  | (some backing, s) =>
    match ← { s with backing := some (Nonvolatile.discard backing) }.strictHasRecord with
    | (some _, s) => s.strictReport
    | (none, s) => return s
  | (none, s) => s.strictMarkRecordRead

/-- A fault in the source cannot be seen here, so `strictSource_eq` shows that there is none. -/
def strictOffer (s : RecordStore ν) (backing : ν) : Nat → Except Fault (Nat × RecordStore ν)
  | 0 => .error .endless
  | rounds + 1 => do
    match ← s.strictHasRecord with
    | (none, s) => return (0, { s with backing := some backing })
    | (some payload, s) =>
      match Nonvolatile.write backing payload
          fun offset length => (s.strictSource payload offset length).toOption.join with
      | (false, backing) => return (0, { s with backing := some backing })
      | (true, backing) =>
        let (saved, s) ← (← s.strictMarkRecordRead).strictOffer backing rounds
        return (saved + 1, s)

def strictPersist (s : RecordStore ν) : Except Fault (Nat × RecordStore ν) := do
  match s.pollBacking with
  | (none, s) => return (0, s)
  | (some backing, s) => s.strictOffer backing (s.ring.count + 1)

def strictDrainOne (s : RecordStore ν) : Except Fault (Round × RecordStore ν) := do
  match ← s.strictHasMore with
  | (none, s) => return (.nothing, s)
  | (some size, s) =>
    let (bs, s) ← s.strictRead 0 size
    return ((bs.map .event).getD .unreadable, ← s.strictMarkRead)

def strictDrain (s : RecordStore ν) : Nat → Except Fault (List Round × RecordStore ν)
  | 0 => return ([], s)
  | count + 1 => do
    match ← s.strictDrainOne with
    | (.nothing, s) => return ([], s)
    | (round, s) =>
      let (rounds, s) ← s.strictDrain count
      return (round :: rounds, s)

def strictPerform (s : RecordStore ν) : Operation ν → Except Fault (Answer × RecordStore ν)
  | .beginWrite => return (← s.strictBeginWrite).map .amount id
  | .append bs => return (← s.strictAppend bs).map .flag id
  | .finishWrite undo => return (.done, ← s.strictFinishWrite undo)
  | .writeRecord payload => return (← s.strictWriteRecord payload).map .flag id
  | .hasMore => return (← s.strictHasMore).map .size id
  | .hasRecord => return (← s.strictHasRecord).map .size id
  | .read offset length => return (← s.strictRead offset length).map .bytes id
  | .readRecord offset length =>
    return (.bytes (← s.strictReadRecord offset (List.replicate length 0)), s)
  | .recordSlices => return (.slices (← s.strictRecordSlices), s)
  | .markRead => return (.done, ← s.strictMarkRead)
  | .markRecordRead => return (.done, ← s.strictMarkRecordRead)
  | .setBatchLimit limit => return (.done, s.setBatchLimit limit)
  | .observe => return (.done, s.observe)
  | .attach backing => return (.done, s.attach backing)
  | .alterBacking f => return (.done, s.alterBacking f)
  | .persist => return (← s.strictPersist).map .amount id
  | .drainOne => return (← s.strictDrainOne).map .round id
  | .drain rounds => return (← s.strictDrain rounds).map .rounds id

def strictPerformAll (s : RecordStore ν) :
    List (Operation ν) → Except Fault (List Answer × RecordStore ν)
  | [] => return ([], s)
  | op :: ops => do
    let (answer, s) ← s.strictPerform op
    let (answers, s) ← s.strictPerformAll ops
    return (answer :: answers, s)

end RecordStore

/-! ### Stores without faults -/

namespace RecordStore

variable {ν : Type} (s : RecordStore ν)

/-- A record has a header and does not reach beyond the unread bytes. -/
theorem recordAt_bounds {offset size : Nat} (found : s.recordAt offset = some size) :
    headerSize ≤ size ∧ offset + size ≤ s.ring.count := by
  rw [recordAt] at found
  split at found
  · dsimp only at found
    split at found
    · rename_i bounds
      cases found
      exact bounds.2
    · cases found
  · cases found

theorem strictRecordAt_eq (offset : Nat) : s.strictRecordAt offset = .ok (s.recordAt offset) := by
  rw [strictRecordAt, Ring.strictRead_eq, ok_bind, recordAt]
  show _ = Except.ok (match s.ring.read offset [(0 : UInt8), 0].length with
    | .ok [lo, hi] => _
    | _ => none)
  generalize s.ring.read offset [0, 0].length = answer
  split <;> rfl

theorem strictPush_eq (h : Handout) {size : Nat} (header : headerSize ≤ size) :
    h.strictPush size = .ok (h.push size) := by
  rw [Handout.strictPush, less_eq header]
  rfl

theorem strictReport_eq : s.strictReport = .ok s.report := by
  rw [strictReport, Ring.strictFree_eq]
  rfl

theorem strictBeginWrite_eq : s.strictBeginWrite = .ok s.beginWrite := by
  rw [strictBeginWrite, beginWrite]
  by_cases isOpen : s.opened.isSome
  · rw [if_pos isOpen, if_pos isOpen]
    rfl
  · rw [if_neg isOpen, if_neg isOpen, Ring.strictWrite_eq, ok_bind, Ring.write]
    by_cases room : (Bytes.ofWord openMark).length ≤ s.ring.free
    · rw [dif_pos room, dif_pos room]
      dsimp only
      rw [Ring.strictFree_eq, ok_bind]
      split
      · -- the header that was just written can be dropped
        have written : headerSize ≤ (s.ring.append (Bytes.ofWord openMark) room).count :=
          Nat.le_add_left _ _
        rw [Ring.strictConsumeBack_eq, ok_bind, takeBack, Ring.consumeBack, if_pos written]
        rfl
      · rfl
    · rw [dif_neg room, dif_neg room]
      rfl

theorem strictAppend_eq (bs : Bytes) : s.strictAppend bs = .ok (s.append bs) := by
  rw [strictAppend, append]
  cases s.opened with
  | none => rfl
  | some written =>
    dsimp only
    by_cases large : maxRecordSize < written + bs.length
    · rw [if_pos large, dif_neg (by omega)]
      rfl
    · rw [if_neg large, Ring.strictWrite_eq, ok_bind, Ring.write]
      by_cases room : bs.length ≤ s.ring.free
      · rw [dif_pos room, dif_pos ⟨by omega, room⟩]
        rfl
      · rw [dif_neg room, dif_neg (mt And.right room)]
        rfl

theorem strictHasRecord_eq : s.strictHasRecord = .ok s.hasRecord := by
  unfold strictHasRecord
  split
  · rename_i alone
    rw [RecordQueue.hasRecord_of_alone s alone]
    rfl
  · rename_i other
    obtain ⟨missing, present⟩ := RecordQueue.hasRecord_of_not_alone s other
    rw [strictRecordAt_eq, ok_bind]
    cases found : s.recordAt 0 with
    | none =>
      rw [missing found]
      rfl
    | some size =>
      dsimp only
      rw [present size found, strictPush_eq _ (s.recordAt_bounds found).1]
      simp [Handout.empty, Handout.push]

/-- Every round goes at least one header further, so the unread bytes bound their number. -/
theorem strictExtend_eq (limit : Nat) (batch : Handout) {rounds : Nat}
    (enough : s.ring.count ≤ batch.span + rounds) :
    s.strictExtend limit batch (rounds + 1) = .ok (s.extend limit batch rounds) := by
  induction rounds generalizing batch with
  | zero =>
    have last : s.recordAt batch.span = none := by
      rw [Option.eq_none_iff_forall_ne_some]
      intro size found
      have bounds := s.recordAt_bounds found
      have two : headerSize = 2 := rfl
      omega
    rw [strictExtend, strictRecordAt_eq, ok_bind, last]
    rfl
  | succ rounds ih =>
    rw [strictExtend, strictRecordAt_eq, ok_bind, extend]
    cases found : s.recordAt batch.span with
    | none => rfl
    | some size =>
      have header := (s.recordAt_bounds found).1
      dsimp only
      rw [less_eq header, ok_bind]
      split
      · rfl
      · have two : headerSize = 2 := rfl
        have further : (batch.push size).span = batch.span + size := rfl
        rw [strictPush_eq _ header, ok_bind, ih _ (by omega)]

theorem strictHasBatch_eq (limit : Nat) : s.strictHasBatch limit = .ok (s.hasBatch limit) := by
  rw [strictHasBatch, hasBatch]
  cases s.handout with
  | some handout => rfl
  | none =>
    dsimp only
    rw [s.strictExtend_eq limit .empty (Nat.le_add_left _ _), ok_bind]
    split <;> rfl

theorem strictGather_eq {position offset : Nat} {out bs : Bytes} {rounds : Nat}
    (gathered : s.gather position offset out.length rounds = some bs) :
    s.strictGather position offset out rounds = .ok bs := by
  induction rounds generalizing position offset out bs with
  | zero =>
    rw [gather] at gathered
    rw [strictGather]
    split at gathered
    · rename_i nothing
      cases gathered
      rw [if_pos nothing]
    · cases gathered
  | succ rounds ih =>
    rw [gather] at gathered
    rw [strictGather]
    split at gathered
    · rename_i nothing
      cases gathered
      rw [if_pos nothing]
      rfl
    · rename_i more
      rw [if_neg more, strictRecordAt_eq, ok_bind]
      cases found : s.recordAt position with
      | none =>
        rw [found] at gathered
        cases gathered
      | some size =>
        rw [found] at gathered
        dsimp only at gathered ⊢
        rw [less_eq (s.recordAt_bounds found).1, ok_bind]
        by_cases behind : size - headerSize ≤ offset
        · rw [if_pos behind] at gathered ⊢
          rw [less_eq behind, ok_bind, ih gathered]
        · have short : min (size - headerSize - offset) out.length ≤ out.length :=
            Nat.min_le_right _ _
          rw [if_neg behind] at gathered ⊢
          rw [less_eq (by omega), ok_bind]
          generalize min (size - headerSize - offset) out.length = here at gathered short
          have front : (out.take here).length = here := by
            rw [List.length_take, Nat.min_eq_left short]
          rw [cut_take short, ok_bind, cut_drop short, ok_bind, Ring.strictRead_eq, ok_bind, front]
          cases read : s.ring.read (position + headerSize + offset) here with
          | error e =>
            rw [read] at gathered
            cases gathered
          | ok piece =>
            rw [read] at gathered
            obtain ⟨rest, walked, rfl⟩ := Option.map_eq_some_iff.mp gathered
            rw [← List.length_drop] at walked
            rw [relied, ok_bind, ih walked]
            rfl

/-- Whatever range a non-volatile store asks for, it is answered without a fault. -/
theorem strictSource_eq (payload offset length : Nat) :
    s.strictSource payload offset length = .ok (s.payloadSource payload offset length) := by
  rw [strictSource, payloadSource]
  split
  · rw [Ring.strictRead_eq, ok_bind, List.length_replicate]
    rfl
  · rfl

theorem strictHasMore_eq [Nonvolatile ν] : s.strictHasMore = .ok s.hasMore := by
  rw [strictHasMore, hasMore]
  generalize s.pollBacking = answer
  obtain ⟨usable, s⟩ := answer
  cases usable with
  | some b => rfl
  | none =>
    dsimp only
    cases s.batchLimit with
    | some limit => exact s.strictHasBatch_eq limit
    | none =>
      cases s.handout with
      | some handout => rfl
      | none => exact s.strictHasRecord_eq

end RecordStore

namespace RecordQueue.Represents

open RecordStore (headerSize openMark maxRecordSize Operation Answer Round)

variable {ν : Type} {s : RecordStore ν} {q : RecordQueue ν}

/-! ### Writing -/

/-- The bytes of an open transaction are unread, and their number fits a header. -/
theorem strictFinishWrite (h : Represents s q) (undo : Bool) :
    s.strictFinishWrite undo = .ok (s.finishWrite undo) := by
  have opened := h.opened
  rw [RecordStore.strictFinishWrite, RecordStore.finishWrite, RecordStore.rollback,
    RecordStore.commit]
  cases underway : q.opened with
  | none =>
    rw [underway] at opened
    rw [opened]
    cases undo <;> rfl
  | some p =>
    have count := h.count_of_opened underway
    have small := h.fits p (List.mem_append_right _ (by rw [underway]; simp))
    have largest : maxRecordSize = 65534 := rfl
    rw [underway] at opened
    rw [opened]
    cases undo with
    | true =>
      have dropped : s.ring.consumeBack (p.length + headerSize) =
          .ok (s.ring.dropBack (p.length + headerSize)) := if_pos (by omega)
      simp only [Option.map_some, if_true]
      rw [Ring.strictConsumeBack_eq, ok_bind, dropped, takeBack_eq _ (by omega)]
      rfl
    | false =>
      have within : p.length + headerSize ≤ s.ring.count := by omega
      have room : (Bytes.ofWord (p.length + headerSize)).length - (p.length + headerSize) ≤
          s.ring.free := by
        rw [length_ofWord]
        omega
      have word : header (p.length + headerSize) = .ok (Bytes.ofWord (p.length + headerSize)) :=
        if_pos (by omega)
      simp only [Option.map_some, Bool.false_eq_true, if_false]
      rw [word, ok_bind, Ring.strictWriteBack_eq, ok_bind, Ring.writeBack, if_pos within,
        dif_pos room, RecordStore.putSize, dif_pos ⟨within, room⟩, relied, ok_bind,
        RecordStore.strictReport_eq]

theorem strictWriteRecord (h : Represents s q) (payload : Bytes) :
    s.strictWriteRecord payload = .ok (s.writeRecord payload) := by
  obtain ⟨budget, begun⟩ := h.beginWrite
  rw [RecordStore.strictWriteRecord, RecordStore.strictBeginWrite_eq, ok_bind,
    RecordStore.writeRecord]
  generalize s.beginWrite = answer at begun
  obtain ⟨budget', s'⟩ := answer
  cases budget' with
  | zero => rfl
  | succ n =>
    obtain ⟨-, appended⟩ := begun.append payload
    show (s'.strictAppend payload >>= fun kept =>
      kept.2.strictFinishWrite (!kept.1) >>= fun s => pure (kept.1, s)) = _
    rw [RecordStore.strictAppend_eq, ok_bind, appended.strictFinishWrite]
    rfl

/-! ### Reading -/

theorem span_handout_le (h : Represents s q) {handout : Handout}
    (offered : s.handout = some handout) : handout.span ≤ s.ring.count := by
  rw [h.handout] at offered
  obtain ⟨n, -, rfl⟩ := Option.map_eq_some_iff.mp offered
  rw [h.count_eq]
  exact span_le q.records q.opened n

theorem span_handout (h : Represents s q) {handout : Handout}
    (offered : s.handout = some handout) :
    handout.span = handout.payload + headerSize * handout.records := by
  rw [h.handout] at offered
  obtain ⟨n, held, rfl⟩ := Option.map_eq_some_iff.mp offered
  have inside := (h.handed n held).2
  simp only [handoutOf]
  rw [span, length_flatMap_frame, List.length_take, Nat.min_eq_left inside]

/-- Within what is handed out, the walk finds every record and reads it. -/
theorem strictReadRecord (h : Represents s q) (offset : Nat) (out : Bytes) :
    s.strictReadRecord offset out = .ok (s.readRecord offset out.length) := by
  rw [RecordStore.strictReadRecord]
  cases offered : s.handout with
  | none =>
    rw [RecordStore.readRecord, offered]
    rfl
  | some handout =>
    simp only [RecordStore.readRecord, offered]
    by_cases beyond : handout.size < offset + out.length
    · rw [if_pos beyond, if_neg (Nat.not_le_of_lt beyond)]
      rfl
    · have inside := Nat.le_of_not_lt beyond
      obtain ⟨payloads, gathered⟩ := h.exists_gather offered inside
      rw [if_neg beyond, if_pos inside, gathered, Option.map_some]
      by_cases ahead : offset < handout.lead.length
      · have short : min (handout.lead.length - offset) out.length ≤ out.length :=
          Nat.min_le_right _ _
        have enough :
            min (handout.lead.length - offset) out.length ≤ handout.lead.length - offset :=
          Nat.min_le_left _ _
        have lead : (handout.lead.drop offset).take out.length =
            (handout.lead.drop offset).take (min (handout.lead.length - offset) out.length) := by
          rw [List.take_eq_take_iff, List.length_drop]
          omega
        rw [if_pos ahead, less_eq (Nat.le_of_lt ahead), ok_bind]
        rw [lead] at gathered ⊢
        generalize min (handout.lead.length - offset) out.length = here at gathered short enough
        have front : (out.take here).length = here := by
          rw [List.length_take, Nat.min_eq_left short]
        have source : ((handout.lead.drop offset).take here).length = here := by
          rw [List.length_take, List.length_drop, Nat.min_eq_left enough]
        rw [source, Nat.sub_eq_zero_of_le (Nat.le_of_lt ahead), ← List.length_drop] at gathered
        rw [cut_take short, ok_bind, cut_drop short, ok_bind,
          cut_eq (Nat.le_add_right _ _) (by omega), ok_bind, Nat.add_sub_cancel_left,
          paste_eq (Nat.zero_le _) (Nat.le_refl _) (by rw [source, front, Nat.sub_zero]), ok_bind,
          RecordStore.strictGather_eq s gathered, ok_bind, List.take_zero, List.nil_append,
          List.drop_length, List.append_nil]
        rfl
      · have behind := Nat.le_of_not_lt ahead
        rw [List.drop_eq_nil_of_le behind, List.take_nil, List.length_nil, Nat.sub_zero] at gathered
        rw [if_neg ahead, less_eq behind, ok_bind, RecordStore.strictGather_eq s gathered,
          List.drop_eq_nil_of_le behind, List.take_nil]
        rfl

theorem strictRecordSlices (h : Represents s q) :
    s.strictRecordSlices = .ok s.recordSlices := by
  unfold RecordStore.strictRecordSlices
  split
  · rename_i span payload lead alone
    have room : headerSize + payload ≤ s.ring.count := by
      have within := h.span_handout_le alone
      have parts := h.span_handout alone
      dsimp only at within parts
      omega
    have inside : headerSize ≤ s.ring.count := by omega
    -- two runs hold all that is behind the header
    obtain ⟨first, second, isFirst, isSecond, whole, -⟩ := s.ring.exists_runs inside
    have total := congrArg List.length whole
    rw [List.length_append, List.length_drop, Ring.length_toList] at total
    simp only [RecordStore.recordSlices, alone, isFirst]
    rw [Ring.strictRun?_eq, ok_bind, isFirst]
    dsimp only
    by_cases all : payload ≤ first.length
    · rw [if_pos all, if_pos all, cut_take all]
      rfl
    · rw [if_neg all, if_neg all, Ring.strictRun?_eq, ok_bind, isSecond]
      dsimp only
      rw [less_eq (by omega), ok_bind, cut_take (by omega)]
      rfl
  · simp only [RecordStore.recordSlices]
    rfl

theorem strictMarkRecordRead (h : Represents s q) :
    s.strictMarkRecordRead = .ok s.markRecordRead := by
  rw [RecordStore.strictMarkRecordRead, RecordStore.markRecordRead]
  cases offered : s.handout with
  | none => rfl
  | some handout =>
    have consumed : s.ring.consume handout.span = .ok (s.ring.dropFront handout.span) :=
      if_pos (h.span_handout_le offered)
    dsimp only
    rw [Ring.strictConsume_eq, ok_bind, consumed]
    rfl

/-! ### Draining -/

variable [Nonvolatile ν]

theorem strictRead (h : Represents s q) (offset length : Nat) :
    s.strictRead offset length = .ok (s.read offset length) := by
  have polled := h.pollBacking.2
  rw [RecordStore.strictRead, RecordStore.read]
  generalize s.pollBacking = answer at polled
  obtain ⟨usable, s⟩ := answer
  cases usable with
  | some b => rfl
  | none =>
    dsimp only at polled ⊢
    rw [polled.strictReadRecord, List.length_replicate]
    rfl

theorem strictMarkRead (h : Represents s q) : s.strictMarkRead = .ok s.markRead := by
  have polled := h.pollBacking.2
  rw [RecordStore.strictMarkRead, RecordStore.markRead]
  generalize s.pollBacking = answer at polled
  obtain ⟨usable, s⟩ := answer
  cases usable with
  | none => exact polled.strictMarkRecordRead
  | some b =>
    dsimp only
    rw [RecordStore.strictHasRecord_eq, ok_bind]
    generalize RecordStore.hasRecord _ = found
    obtain ⟨size, s⟩ := found
    cases size with
    | none => rfl
    | some n => exact s.strictReport_eq

theorem strictOffer (h : Represents s q) (b : ν) {rounds : Nat}
    (enough : q.records.length ≤ rounds) :
    s.strictOffer b (rounds + 1) = .ok (s.offer b rounds) := by
  induction rounds generalizing s q b with
  | zero =>
    have empty : q.records = [] := List.eq_nil_of_length_eq_zero (by omega)
    rw [RecordStore.strictOffer, RecordStore.strictHasRecord_eq, ok_bind, h.hasRecord_of_nil empty]
    rfl
  | succ rounds ih =>
    rw [RecordStore.strictOffer, RecordStore.strictHasRecord_eq, ok_bind, RecordStore.offer]
    cases queue : q.records with
    | nil =>
      rw [h.hasRecord_of_nil queue]
      rfl
    | cons p ps =>
      obtain ⟨s', found, next⟩ := h.hasRecord_of_cons queue
      rw [found]
      dsimp only
      have source : (fun offset length => (s'.strictSource p.length offset length).toOption.join) =
          s'.payloadSource p.length := by
        funext offset length
        rw [RecordStore.strictSource_eq]
        rfl
      rw [source]
      generalize Nonvolatile.write b p.length (s'.payloadSource p.length) = answer
      obtain ⟨taken, b'⟩ := answer
      cases taken with
      | false => rfl
      | true =>
        have dropped : Represents s'.markRecordRead (q.dropOldest 1) := next.markRecordRead
        have fewer : (q.dropOldest 1).records.length ≤ rounds := by
          rw [RecordQueue.dropOldest, List.length_drop]
          omega
        dsimp only
        rw [next.strictMarkRecordRead, ok_bind, ih dropped b' fewer]
        rfl

theorem strictPersist (h : Represents s q) : s.strictPersist = .ok s.persist := by
  have polled := h.pollBacking.2
  rw [RecordStore.strictPersist, RecordStore.persist]
  generalize s.pollBacking = answer at polled
  obtain ⟨usable, s⟩ := answer
  cases usable with
  | none => rfl
  | some b =>
    apply polled.strictOffer
    rw [polled.count_eq]
    exact length_le_image _ _

theorem strictDrainOne (h : Represents s q) : s.strictDrainOne = .ok s.drainOne := by
  have asked := h.hasMore.2
  rw [RecordStore.strictDrainOne, RecordStore.strictHasMore_eq, ok_bind,
    RecordStore.drainOne]
  generalize s.hasMore = answer at asked
  obtain ⟨size, s⟩ := answer
  cases size with
  | none => rfl
  | some n =>
    have read := (asked.read 0 n).2
    dsimp only at asked read ⊢
    rw [asked.strictRead, ok_bind, read.strictMarkRead]
    rfl

theorem strictDrain (h : Represents s q) (count : Nat) :
    s.strictDrain count = .ok (s.drain count) := by
  induction count generalizing s q with
  | zero => rfl
  | succ count ih =>
    have next := h.drainOne.2
    rw [RecordStore.strictDrain, h.strictDrainOne, ok_bind, RecordStore.drain]
    generalize s.drainOne = answer at next
    obtain ⟨round, s⟩ := answer
    cases round with
    | nothing => rfl
    | unreadable =>
      dsimp only
      rw [ih next]
      rfl
    | event bs =>
      dsimp only
      rw [ih next]
      rfl

/-! ### Histories -/

theorem strictPerform (h : Represents s q) (op : Operation ν) :
    s.strictPerform op = .ok (s.perform op) := by
  cases op with
  | beginWrite => exact congrArg (· >>= _) s.strictBeginWrite_eq
  | append bs => exact congrArg (· >>= _) (s.strictAppend_eq bs)
  | finishWrite undo => exact congrArg (· >>= _) (h.strictFinishWrite undo)
  | writeRecord payload => exact congrArg (· >>= _) (h.strictWriteRecord payload)
  | hasMore => exact congrArg (· >>= _) s.strictHasMore_eq
  | hasRecord => exact congrArg (· >>= _) s.strictHasRecord_eq
  | read offset length => exact congrArg (· >>= _) (h.strictRead offset length)
  | readRecord offset length =>
    have read := h.strictReadRecord offset (List.replicate length 0)
    rw [List.length_replicate] at read
    exact congrArg (· >>= _) read
  | recordSlices => exact congrArg (· >>= _) h.strictRecordSlices
  | markRead => exact congrArg (· >>= _) h.strictMarkRead
  | markRecordRead => exact congrArg (· >>= _) h.strictMarkRecordRead
  | setBatchLimit limit => rfl
  | observe => rfl
  | attach b => rfl
  | alterBacking f => rfl
  | persist => exact congrArg (· >>= _) h.strictPersist
  | drainOne => exact congrArg (· >>= _) h.strictDrainOne
  | drain rounds => exact congrArg (· >>= _) (h.strictDrain rounds)

theorem strictPerformAll (h : Represents s q) (ops : List (Operation ν)) :
    s.strictPerformAll ops = .ok (s.performAll ops) := by
  induction ops generalizing s q with
  | nil => rfl
  | cons op ops ih =>
    have next := (h.perform op).2
    rw [RecordStore.strictPerformAll, h.strictPerform, ok_bind, RecordStore.performAll]
    generalize s.perform op = answer at next
    obtain ⟨answer, s⟩ := answer
    dsimp only at next ⊢
    rw [ih next]
    rfl

end RecordQueue.Represents

open RecordStore (headerSize Operation)

variable {ν : Type} [Nonvolatile ν]

/-- No history of a store over at least one byte comes to a fault, whatever its operations are
given and whatever the non-volatile store does: it answers as if nothing could go wrong. No record
is found that reaches beyond the unread bytes, and no range for which a non-volatile store may ask
comes to a fault. -/
theorem performAll_without_fault {capacity : Nat} (pos : 0 < capacity) (ops : List (Operation ν)) :
    ∃ s : RecordStore ν, RecordStore.ofCapacity capacity = .ok s ∧
      s.strictPerformAll ops = .ok (s.performAll ops) ∧
      (∀ offset size, (s.performAll ops).2.recordAt offset = some size →
        headerSize ≤ size ∧ offset + size ≤ (s.performAll ops).2.levels.used) ∧
      ∀ payload offset length, (s.performAll ops).2.strictSource payload offset length =
        .ok ((s.performAll ops).2.payloadSource payload offset length) := by
  have made : RecordStore.ofCapacity capacity =
      .ok (RecordStore.ofRing (Ring.zeroed capacity pos) : RecordStore ν) := by
    rw [RecordStore.ofCapacity, Ring.ofCapacity, dif_pos pos]
    rfl
  exact ⟨_, made, (RecordQueue.represents_ofCapacity made).strictPerformAll ops,
    fun _ _ found => RecordStore.recordAt_bounds _ found, RecordStore.strictSource_eq _⟩

/-- Sixteen cells, which records go around twice: a batch is read in part and moved from under its
reader into a non-volatile store that refuses the last record, behind which a transaction is taken
back. -/
theorem performAll_without_fault_around :
    0 < 16 ∧ ∃ s : RecordStore EventQueue, RecordStore.ofCapacity 16 = .ok s ∧
      (s.strictPerformAll [.writeRecord [1, 2, 3, 4, 5, 6, 7, 8, 9], .drainOne,
        .setBatchLimit (some 9), .writeRecord [10, 11, 12, 13], .writeRecord [], .hasMore,
        .readRecord 2 3, .recordSlices, .writeRecord [14, 15], .beginWrite, .append [16],
        .attach { limit := some 2, chunk := some 3, probes := [(3, 9)] }, .persist,
        .finishWrite true, .recordSlices, .readRecord 1 1, .markRecordRead, .beginWrite]).map
          Prod.fst =
        .ok [.flag true, .round (.event [1, 2, 3, 4, 5, 6, 7, 8, 9]), .done, .flag true, .flag true,
          .size (some 5), .bytes (some [11, 12, 13]), .slices none, .flag true, .amount 2,
          .flag true, .done, .amount 2, .done, .slices (some ([14, 15], [])), .bytes (some [15]),
          .done, .amount 14] := by
  refine ⟨by decide, ?_⟩
  obtain ⟨s, made, safe, -⟩ := @performAll_without_fault EventQueue _ 16 (by decide) _
  refine ⟨s, made, ?_⟩
  cases made
  rw [safe]
  decide +kernel

/-- A store whose reader holds a record that is not there would come to a fault. -/
example :
    let s : RecordStore Empty :=
      { ring := Ring.zeroed 4 (by decide), handout := some ⟨1, 5, 3, []⟩ }
    s.strictMarkRecordRead = .error (.refused (.outOfBounds 0 5 0)) ∧
      s.strictReadRecord 0 [0] = .error (.missing 0) := ⟨rfl, rfl⟩

end DeviceTelemetry
