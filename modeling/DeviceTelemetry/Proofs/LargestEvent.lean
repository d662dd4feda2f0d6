import DeviceTelemetry.Event
import DeviceTelemetry.Proofs.CatalogLaws
import DeviceTelemetry.Proofs.EncodedSize
import DeviceTelemetry.Proofs.TableSteps

/-!
# The largest events are largest

Reading by reading, what a metric shows takes no more bytes than its largest reading, since a
larger argument never has a shorter head and every slot stays within its bounds. On the other side
`Catalog.fill` calls for values that take as many bytes as the largest readings, for all metrics at
once.
-/

set_option autoImplicit false

namespace DeviceTelemetry

open Cbor (Item headSize headSize_mono totalSize)

/-! ### Sizes of readings -/

theorem Text.byteLength_replicate (n : Nat) :
    Text.byteLength (String.ofList (List.replicate n 'x')) = n := by
  rw [Text.byteLength, Text.bytes, String.toList_ofList]
  induction n with
  | zero => rfl
  | succ n ih =>
      rw [List.replicate_succ, Text.length_encode_cons, ih]
      exact Nat.add_comm 1 n

namespace Reading

theorem size_unsigned_le (n : Option UInt32) : (unsigned n).item.size ≤ 5 := by
  cases n with
  | none => decide
  | some n =>
      have bound := n.toNat_lt
      show (Cbor.head .unsigned n.toUInt64.toNat).length ≤ 5
      rw [Cbor.length_head, UInt32.toNat_toUInt64]
      exact headSize_mono (n := 0xFFFFFFFF) (by omega)

theorem size_signed_le (n : Option Int32) : (signed n).item.size ≤ 5 := by
  cases n with
  | none => decide
  | some n =>
      have low := n.le_toInt
      have high := n.toInt_lt
      show (if n.toInt64.toInt < 0 then Cbor.head .negative (-1 - n.toInt64.toInt).toNat
        else Cbor.head .unsigned n.toInt64.toInt.toNat).length ≤ 5
      rw [Int32.toInt_toInt64]
      split
      · rw [Cbor.length_head]
        exact headSize_mono (n := 0xFFFFFFFF) (by omega)
      · rw [Cbor.length_head]
        exact headSize_mono (n := 0xFFFFFFFF) (by omega)

theorem size_timer_le {t : Timer} (range : t.elapsed ≤ Timer.maxElapsed) :
    (timer t.shown).item.size ≤ 5 := by
  simp only [Timer.shown]
  split
  · have bound : t.elapsed < 2 ^ 64 := by
      have : Timer.maxElapsed < 2 ^ 64 := by decide
      omega
    show (Cbor.head .unsigned (UInt64.ofNat t.elapsed).toNat).length ≤ 5
    rw [Cbor.length_head, UInt64.toNat_ofNat_of_lt' bound]
    exact headSize_mono (n := 0xFFFFFFFF) (Nat.le_trans range (by decide))
  · decide

theorem size_text (s : String) :
    (text s).item.size = headSize (Text.byteLength s) + Text.byteLength s := rfl

end Reading

namespace Catalog.Entry

theorem size_largestReading_of_kind {e : Catalog.Entry} (other : e.kind ≠ .text) :
    e.largestReading.item.size = 5 := by
  simp only [largestReading]
  cases kind : e.kind with
  | unsigned => rfl
  | signed => rfl
  | timer => rfl
  | text => exact absurd kind other

theorem size_largestReading_of_text {e : Catalog.Entry} (kind : e.kind = .text)
    (short : e.maxLength ≤ maxTextLength) :
    e.largestReading.item.size = headSize e.maxLength + e.maxLength := by
  have all : Nat.min e.maxLength maxTextLength = e.maxLength := Nat.min_eq_left short
  simp only [largestReading]
  rw [kind, all]
  dsimp only
  rw [Reading.size_text, Text.byteLength_replicate]

theorem size_largestReading_le {e : Catalog.Entry} (short : e.maxLength ≤ maxTextLength) :
    e.largestReading.item.size ≤ 257 := by
  by_cases kind : e.kind = .text
  · have head := headSize_mono short
    have largest : headSize maxTextLength + maxTextLength = 257 := by decide
    rw [size_largestReading_of_text kind short]
    omega
  · rw [size_largestReading_of_kind kind]
    decide

end Catalog.Entry

theorem Slot.Fits.size_le {e : Catalog.Entry} {slot : Slot} (fits : Slot.Fits e slot)
    (short : e.maxLength ≤ Catalog.maxTextLength) :
    slot.reading.item.size ≤ e.largestReading.item.size := by
  cases slot with
  | unsigned n =>
      rw [Catalog.Entry.size_largestReading_of_kind (by rw [show e.kind = _ from fits]; decide)]
      exact Reading.size_unsigned_le n
  | signed n =>
      rw [Catalog.Entry.size_largestReading_of_kind (by rw [show e.kind = _ from fits]; decide)]
      exact Reading.size_signed_le n
  | timer t =>
      rw [Catalog.Entry.size_largestReading_of_kind (by rw [fits.1]; decide)]
      exact Reading.size_timer_le fits.2
  | text limit s =>
      obtain ⟨kind, limited, within⟩ := fits
      rw [limited] at within
      have head := headSize_mono within
      rw [Catalog.Entry.size_largestReading_of_text kind short]
      show headSize (Text.byteLength s) + Text.byteLength s ≤ _
      omega

/-! ### Sizes of events -/

def Event.sessionHead (device : Device) (number length : Nat) : List Item :=
  header device 1 ++ [.mapHead 1, .unsigned (UInt64.ofNat number), .arrayHead length]

theorem Event.items_session (device : Device) (number : Nat) (readings : List Reading) :
    (session number readings).items device =
      sessionHead device number readings.length ++ readings.map Reading.item := by
  rw [items, body, sessionHead, List.append_assoc]
  rfl

theorem Event.totalSize_session_le (device : Device) (number : Nat)
    {readings readings' : List Reading}
    (smaller : List.Forall₂ (fun r r' => r.item.size ≤ r'.item.size) readings readings') :
    totalSize ((session number readings).items device) ≤
      totalSize ((session number readings').items device) := by
  rw [items_session, items_session, Cbor.totalSize_append, Cbor.totalSize_append,
    smaller.length_eq]
  apply Nat.add_le_add_left
  induction smaller with
  | nil => exact Nat.le_refl _
  | cons first rest ih => exact Nat.add_le_add first ih

theorem Event.size_session_congr (device : Device) (number : Nat)
    {readings readings' : List Reading}
    (same : List.Forall₂ (fun r r' => r.item.size = r'.item.size) readings readings') :
    (session number readings).size device = (session number readings').size device := by
  apply Cbor.sizeOf_congr
  rw [items_session, items_session, same.length_eq, List.map_append, List.map_append]
  congr 1
  induction same with
  | nil => rfl
  | cons first rest ih => exact congrArg₂ List.cons first ih

/-- No reading takes more than 257 times the bytes of another, so neither does an event. -/
theorem Event.totalSize_session_le_mul (device : Device) (number : Nat)
    {readings readings' : List Reading}
    (bounded : List.Forall₂ (fun _ r' => r'.item.size ≤ 257) readings readings') :
    totalSize ((session number readings').items device) ≤
      257 * totalSize ((session number readings).items device) := by
  have rest :
      totalSize (readings'.map Reading.item) ≤ 257 * totalSize (readings.map Reading.item) := by
    induction bounded with
    | nil => exact Nat.zero_le _
    | @cons r r' rs rs' first rest ih =>
        have pos := r.item.size_pos
        rw [List.map_cons, List.map_cons, Cbor.totalSize_cons, Cbor.totalSize_cons]
        omega
  rw [items_session, items_session, Cbor.totalSize_append, Cbor.totalSize_append,
    bounded.length_eq]
  omega

theorem Event.length_encode_pos (device : Device) (e : Event) : 0 < (e.encode device).length := by
  have first := (Item.mapHead 7).size_pos
  rw [encode, Cbor.length_encodeAll, items, header, List.cons_append, Cbor.totalSize_cons]
  omega

/-- A longer serial number is all that makes an event longer. -/
theorem Event.totalSize_items_serial (serial : String) (e : Event) :
    totalSize (e.items { serial := serial }) + 1 =
      totalSize (e.items {}) + (Item.text serial).size := by
  have nothing : (Item.text "").size = 1 := by decide
  simp only [items, header]
  simp only [List.cons_append, List.nil_append, Cbor.totalSize_cons, nothing]
  omega

theorem Event.length_serial_le (device : Device) (e : Event) :
    Text.byteLength device.serial ≤ (e.encode device).length := by
  have text : (Item.text device.serial).size =
      headSize (Text.byteLength device.serial) + Text.byteLength device.serial := rfl
  rw [encode, Cbor.length_encodeAll]
  simp only [items, header]
  simp only [List.cons_append, List.nil_append, Cbor.totalSize_cons]
  omega

def Catalog.largestReadings (c : Catalog) (session : Nat) : List Reading :=
  (c.sessionKeys session).map fun key => ((c.metric? key).map Entry.largestReading).getD .missing

theorem Catalog.largestEvent_eq (c : Catalog) (session : Nat) :
    c.largestEvent session = .session session (c.largestReadings session) := rfl

theorem Table.forall₂_sessionReadings {t : Table} {R : Reading → Reading → Prop}
    (related : ∀ (key : Nat) (e : Catalog.Entry), t.catalog.metric? key = some e →
      ∃ slot, t.slots[key]? = some slot ∧ R slot.reading e.largestReading) (session : Nat) :
    List.Forall₂ R (t.sessionReadings session) (t.catalog.largestReadings session) := by
  rw [sessionReadings, Catalog.largestReadings, List.forall₂_map_left_iff,
    List.forall₂_map_right_iff, List.forall₂_same]
  intro key member
  obtain ⟨e, metric, -⟩ := (Catalog.mem_sessionKeys.mp member).exists_metric
  obtain ⟨slot, here, related⟩ := related key e metric
  rw [here, metric]
  exact related

theorem Table.Fits.forall₂_sessionReadings {t : Table} {R : Reading → Reading → Prop}
    (fits : t.Fits) (related : ∀ (key : Nat) (e : Catalog.Entry) (slot : Slot),
      t.catalog.metric? key = some e → Slot.Fits e slot → R slot.reading e.largestReading)
    (session : Nat) :
    List.Forall₂ R (t.sessionReadings session) (t.catalog.largestReadings session) := by
  refine Table.forall₂_sessionReadings (fun key e metric => ?_) session
  obtain ⟨slot, here, fit⟩ := fits.exists_slot metric
  exact ⟨slot, here, related key e slot metric fit⟩

/-! ### The largest event of all -/

theorem le_foldl_max {sizes : List Nat} {first size : Nat} (known : size ≤ first ∨ size ∈ sizes) :
    size ≤ sizes.foldl max first := by
  induction sizes generalizing first with
  | nil =>
      rcases known with below | member
      · exact below
      · cases member
  | cons next sizes ih =>
      apply ih
      rcases known with below | member
      · exact .inl (Nat.le_trans below (Nat.le_max_left first next))
      · rcases List.mem_cons.mp member with rfl | later
        · exact .inl (Nat.le_max_right first size)
        · exact .inr later

theorem Catalog.sessionSize_le_largestSize (c : Catalog) (device : Device) {session : Nat}
    (known : session < c.sessionCount) : c.sessionSize device session ≤ c.largestSize device := by
  apply le_foldl_max
  right
  exact List.mem_map_of_mem (mem_sessionNumbers.mpr known)

theorem Catalog.traceSize_le_largestSize (c : Catalog) (device : Device) :
    traceSize device ≤ c.largestSize device :=
  le_foldl_max (.inl (Nat.le_refl _))

/-! ### A table with the largest readings -/

def Slot.Full (e : Catalog.Entry) (slot : Slot) : Prop :=
  slot.reading.item.size = e.largestReading.item.size

/-- Calls that fill the slot of a metric in which nothing has been recorded. -/
def Catalog.Entry.fill (key : Nat) (e : Catalog.Entry) : List Table.Call :=
  match e.kind with
  | .unsigned => [.setUnsigned key 0xFFFFFFFF]
  | .signed => [.setSigned key Int32.minValue]
  | .timer => [.startTimer key 0, .stopTimer key 0x7FFFFFFF]
  | .text => [.setText key (String.ofList (List.replicate e.maxLength 'x'))]

def Catalog.fill (c : Catalog) (n : Nat) : List Table.Call :=
  (List.range n).flatMap fun key => (c.metric? key).toList.flatMap (Entry.fill key)

theorem Catalog.fill_succ (c : Catalog) (n : Nat) :
    c.fill (n + 1) = c.fill n ++ (c.metric? n).toList.flatMap (Entry.fill n) := by
  rw [fill, List.range_succ, List.flatMap_append, List.flatMap_singleton]
  rfl

theorem Text.truncate_replicate (n : Nat) :
    Text.truncate (String.ofList (List.replicate n 'x')) n =
      String.ofList (List.replicate n 'x') :=
  Text.truncate_of_short (Nat.le_of_eq (Text.byteLength_replicate n))

namespace Table

/-- Starting a new timer and stopping it after the longest time that it can tell. -/
theorem performAll_startStop {t : Table} {key : Nat} (found : t.slots[key]? = some (.timer {}))
    (key' : Nat) :
    (t.performAll [.startTimer key 0, .stopTimer key 0x7FFFFFFF]).2.slots[key']? =
      if key' = key then some (.timer { elapsed := Timer.maxElapsed, recorded := true })
      else t.slots[key']? := by
  have started : t.startTimer key 0 = .ok (t.set key (.timer { startedAt := some 0 })) :=
    startTimer_eq_ok.mpr ⟨{}, _, found, rfl, rfl⟩
  have running := slots_set found (.timer { startedAt := some 0 }) key
  rw [if_pos rfl] at running
  have stopped : (t.set key (.timer { startedAt := some 0 })).stopTimer key 0x7FFFFFFF = _ :=
    stopTimer_eq_ok.mpr ⟨_, { elapsed := Timer.maxElapsed, recorded := true }, running,
      by decide, rfl⟩
  dsimp only [performAll, perform]
  rw [started]
  dsimp only [settle]
  rw [stopped]
  show (set _ key _).slots[key']? = _
  rw [slots_set running, slots_set found]
  by_cases same : key' = key
  · rw [if_pos same, if_pos same]
  · rw [if_neg same, if_neg same, if_neg same]

theorem performAll_set {t : Table} {key : Nat} {slot slot' : Slot} {call : Call}
    (found : t.slots[key]? = some slot) (done : t.perform call = (.ok .done, t.set key slot'))
    (key' : Nat) :
    (t.performAll [call]).2.slots[key']? = if key' = key then some slot' else t.slots[key']? := by
  simp only [performAll, done]
  exact slots_set found slot' key'

/-- The calls for a metric fill its slot and leave all others alone. -/
theorem performAll_fill {t : Table} {key : Nat} {e : Catalog.Entry}
    (found : t.slots[key]? = some (Slot.empty e.kind e.maxLength))
    (short : e.maxLength ≤ Catalog.maxTextLength) :
    ∃ slot, Slot.Full e slot ∧ ∀ key' : Nat, (t.performAll (e.fill key)).2.slots[key']? =
      if key' = key then some slot else t.slots[key']? := by
  simp only [Catalog.Entry.fill]
  cases kind : e.kind with
  | unsigned =>
      rw [kind] at found
      have written : t.setUnsigned key 0xFFFFFFFF = _ := setUnsigned_eq_ok.mpr ⟨none, found, rfl⟩
      refine ⟨.unsigned (some 0xFFFFFFFF), ?_, ?_⟩
      · rw [Slot.Full, Catalog.Entry.size_largestReading_of_kind (by rw [kind]; decide)]
        rfl
      · exact performAll_set found (congrArg t.settle written)
  | signed =>
      rw [kind] at found
      have written : t.setSigned key Int32.minValue = _ := setSigned_eq_ok.mpr ⟨none, found, rfl⟩
      refine ⟨.signed (some Int32.minValue), ?_, ?_⟩
      · rw [Slot.Full, Catalog.Entry.size_largestReading_of_kind (by rw [kind]; decide)]
        rfl
      · exact performAll_set found (congrArg t.settle written)
  | text =>
      rw [kind] at found
      have written : t.setText key (String.ofList (List.replicate e.maxLength 'x')) = _ :=
        setText_eq_ok.mpr ⟨e.maxLength, "", found, rfl⟩
      rw [Text.truncate_replicate] at written
      refine ⟨.text e.maxLength (String.ofList (List.replicate e.maxLength 'x')), ?_, ?_⟩
      · rw [Slot.Full, Catalog.Entry.size_largestReading_of_text kind short]
        show (Reading.text _).item.size = _
        rw [Reading.size_text, Text.byteLength_replicate]
      · exact performAll_set found (congrArg t.settle written)
  | timer =>
      rw [kind] at found
      refine ⟨.timer { elapsed := Timer.maxElapsed, recorded := true }, ?_, ?_⟩
      · rw [Slot.Full, Catalog.Entry.size_largestReading_of_kind (by rw [kind]; decide)]
        rfl
      · exact performAll_startStop found

theorem performAll_fills {s : Schema} {c : Catalog} (valid : s.catalog = .ok c) (n key : Nat)
    {e : Catalog.Entry} (found : c.metric? key = some e) :
    ∃ slot, ((ofCatalog c).performAll (c.fill n)).2.slots[key]? = some slot ∧
      (key < n → Slot.Full e slot) ∧ (n ≤ key → slot = Slot.empty e.kind e.maxLength) := by
  induction n generalizing key e with
  | zero =>
      refine ⟨Slot.empty e.kind e.maxLength, ?_, fun early => absurd early (Nat.not_lt_zero key),
        fun _ => rfl⟩
      show (c.entries.map _)[key]? = _
      rw [Array.getElem?_map, show c.entries[key]? = some e from found]
      rfl
  | succ n ih =>
      obtain ⟨slot, here, early, late⟩ := ih key found
      rw [Catalog.fill_succ, performAll_append]
      cases entry : c.metric? n with
      | none =>
          have other : key ≠ n := by
            rintro rfl
            rw [entry] at found
            cases found
          exact ⟨slot, here, fun below => early (by omega), fun above => late (by omega)⟩
      | some e' =>
          obtain ⟨slot', next, -, untouched⟩ := ih n entry
          rw [untouched (Nat.le_refl n)] at next
          obtain ⟨full, filled, others⟩ := performAll_fill next (Schema.maxLength_le valid entry)
          rw [Option.toList_some, List.flatMap_singleton, others key]
          by_cases same : key = n
          · subst same
            rw [entry] at found
            cases found
            exact ⟨full, if_pos rfl, fun _ => filled, fun above => absurd above (by omega)⟩
          · rw [if_neg same]
            exact ⟨slot, here, fun below => early (by omega), fun above => late (by omega)⟩

def full (c : Catalog) : Table := ((ofCatalog c).performAll (c.fill c.size)).2

theorem full_catalog (c : Catalog) : (full c).catalog = c :=
  (follows_performAll (ofCatalog c) _).catalog

theorem full_slots {s : Schema} {c : Catalog} (valid : s.catalog = .ok c) {key : Nat}
    {e : Catalog.Entry} (metric : c.metric? key = some e) :
    ∃ slot, (full c).slots[key]? = some slot ∧ Slot.Full e slot := by
  obtain ⟨slot, here, filled, -⟩ := performAll_fills valid c.size key metric
  exact ⟨slot, here, filled (Catalog.lt_size_iff.mpr ⟨e, metric⟩)⟩

end Table

end DeviceTelemetry
