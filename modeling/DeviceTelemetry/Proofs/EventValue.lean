import DeviceTelemetry.Proofs.Cbor.Decoding
import DeviceTelemetry.Proofs.LargestEvent

/-!
# What an event says

`Event.value` is an event as one CBOR value: a map that names the type, the version of the layout
and the device and ends in `Event.info`, which is what the event has to tell. An event whose
numbers can be written is the encoding of its value (`encode_eq`), so it can be read back
(`decode_encode`). The kinds of its readings are all that a value leaves out (`eq_of_info_eq`).
-/

set_option autoImplicit false

namespace DeviceTelemetry

open Cbor (Value Item)

/-! ### Readings -/

def Cbor.Value.ofInt (n : Int) : Value :=
  if n < 0 then .negative (-1 - n).toNat else .unsigned n.toNat

namespace Reading

def kind : Reading → MetricKind
  | unsigned _ => .unsigned
  | signed _ => .signed
  | timer _ => .timer
  | text _ => .text

/-- What a reading is in an event; nothing recorded is null. -/
def value : Reading → Value
  | unsigned (some n) => .unsigned n.toNat
  | signed (some n) => .ofInt n.toInt
  | timer (some ms) => .unsigned ms
  | text s => .text s
  | unsigned none | signed none | timer none => .null

/-- The reading of a metric of a given kind that a value stands for. -/
def ofValue? : MetricKind → Value → Option Reading
  | .unsigned, .unsigned n => some (unsigned (some (UInt32.ofNat n)))
  | .unsigned, .null => some (unsigned none)
  | .signed, .unsigned n => some (signed (some (Int32.ofInt n)))
  | .signed, .negative n => some (signed (some (Int32.ofInt (-1 - n))))
  | .signed, .null => some (signed none)
  | .timer, .unsigned n => some (timer (some n))
  | .timer, .null => some (timer none)
  | .text, .text s => some (text s)
  | _, _ => none

theorem ofValue?_value (r : Reading) : ofValue? r.kind r.value = some r := by
  cases r with
  | unsigned n =>
      cases n with
      | none => rfl
      | some n => exact congrArg (fun n => some (unsigned (some n))) UInt32.ofNat_toNat
  | signed n =>
      cases n with
      | none => rfl
      | some n =>
          simp only [kind, value, Value.ofInt]
          split
          · have same : -1 - ((-1 - n.toInt).toNat : Int) = n.toInt := by omega
            simp only [ofValue?]
            rw [same, Int32.ofInt_toInt]
          · have same : (n.toInt.toNat : Int) = n.toInt := by omega
            simp only [ofValue?]
            rw [same, Int32.ofInt_toInt]
  | timer ms =>
      cases ms with
      | none => rfl
      | some ms => rfl
  | text s => rfl

theorem eq_of_value_eq {rs rs' : List Reading} (kinds : rs.map kind = rs'.map kind)
    (values : rs.map value = rs'.map value) : rs = rs' := by
  induction rs generalizing rs' with
  | nil => exact (List.map_eq_nil_iff.mp kinds.symm).symm
  | cons r rs ih =>
      cases rs' with
      | nil => cases kinds
      | cons r' rs' =>
          obtain ⟨headKind, kinds⟩ := List.cons.inj kinds
          obtain ⟨headValue, values⟩ := List.cons.inj values
          have first := r.ofValue?_value
          rw [headKind, headValue, ofValue?_value] at first
          rw [← Option.some.inj first, ih kinds values]

def InRange : Reading → Prop
  | timer (some ms) => ms < 2 ^ 64
  | _ => True

end Reading

namespace Cbor.Item

@[simp] theorem encode_unsigned (n : UInt64) : (unsigned n).encode = head .unsigned n.toNat :=
  List.append_nil _

@[simp] theorem encode_signed (n : Int64) : (signed n).encode = (Value.ofInt n.toInt).encode := by
  have whole : (signed n).encode = (signed n).headBytes := List.append_nil _
  rw [whole, headBytes, Value.ofInt]
  split
  · rfl
  · rfl

@[simp] theorem encode_text (s : String) : (text s).encode = (Value.text s).encode :=
  congrArg (head .text (Text.byteLength s) ++ ·) (List.append_nil _)

@[simp] theorem encode_mapHead (pairs : Nat) : (mapHead pairs).encode = head .map pairs :=
  List.append_nil _

@[simp] theorem encode_arrayHead (length : Nat) : (arrayHead length).encode = head .array length :=
  List.append_nil _

end Cbor.Item

theorem Reading.encode_item {r : Reading} (inRange : r.InRange) :
    r.item.encode = r.value.encode := by
  cases r with
  | unsigned n =>
      cases n with
      | none => rfl
      | some n => rw [item, value, Item.encode_unsigned, UInt32.toNat_toUInt64, Value.encode]
  | signed n =>
      cases n with
      | none => rfl
      | some n => rw [item, value, Item.encode_signed, Int32.toInt_toInt64]
  | timer ms =>
      cases ms with
      | none => rfl
      | some ms =>
          rw [item, value, Item.encode_unsigned, UInt64.toNat_ofNat_of_lt' inRange, Value.encode]
  | text s => rw [item, value, Item.encode_text]

theorem Reading.fits_value {r : Reading} {depth : Nat} (inRange : r.InRange)
    (short : ∀ s, r = .text s → Text.byteLength s < 2 ^ 64) : r.value.Fits (depth + 1) := by
  cases r with
  | unsigned n =>
      cases n with
      | none => trivial
      | some n => exact Nat.lt_trans n.toNat_lt (by decide)
  | signed n =>
      cases n with
      | none => trivial
      | some n =>
          have above := n.le_toInt
          have below := n.toInt_lt
          simp only [value, Value.ofInt]
          split
          · show (-1 - n.toInt).toNat < 2 ^ 64
            omega
          · show n.toInt.toNat < 2 ^ 64
            omega
  | timer ms =>
      cases ms with
      | none => trivial
      | some ms => exact inRange
  | text s => exact short s rfl

/-! ### Events -/

namespace Event

/-- What an event of a device is if it ends in `info`. -/
def document (device : Device) (typeCode : Nat) (info : Value) : Value :=
  .map [
    (.unsigned 2, .unsigned typeCode),
    (.unsigned 3, .unsigned 1),
    (.unsigned 7, .text device.serial),
    (.unsigned 10, .text device.softwareType),
    (.unsigned 9, .text device.softwareVersion),
    (.unsigned 6, .text device.hardwareVersion),
    (.unsigned 4, info)]

def registerPairs (key : Nat) (register : Option UInt32) : List (Value × Value) :=
  register.toList.map fun n => (.unsigned key, .unsigned n.toNat)

def info : Event → Value
  | session number readings => .map [(.unsigned number, .array (readings.map Reading.value))]
  | trace t =>
    .map ((.unsigned 6, .unsigned t.reason.toNat) :: registerPairs 2 t.pc ++ registerPairs 3 t.lr)

def value (device : Device) (e : Event) : Value := document device e.typeCode.toNat e.info

def InRange : Event → Prop
  | session number readings => number < 2 ^ 64 ∧ ∀ r ∈ readings, r.InRange
  | trace _ => True

theorem encode_document (device : Device) (typeCode : UInt64) (info : Value) :
    (document device typeCode.toNat info).encode =
      Cbor.encodeAll (header device typeCode) ++ info.encode := by
  simp only [document, header, Cbor.encodeAll, Value.encode, Value.encodePairs, Value.encodePair,
    List.flatMap_cons, List.flatMap_nil, List.append_assoc, List.append_nil, List.length_cons,
    List.length_nil, Item.encode_unsigned, Item.encode_text, Item.encode_mapHead]
  rfl

theorem encode_readings {readings : List Reading} (inRange : ∀ r ∈ readings, r.InRange) :
    Cbor.encodeAll (readings.map Reading.item) = Value.encodeAll (readings.map Reading.value) := by
  rw [Value.encodeAll_eq, Cbor.encodeAll, List.flatMap_map, List.flatMap_map]
  exact List.flatMap_congr fun r mem => Reading.encode_item (inRange r mem)

theorem encode_register (key : UInt64) (register : Option UInt32) :
    Cbor.encodeAll (Event.register key register) =
      Value.encodePairs (registerPairs key.toNat register) := by
  cases register with
  | none => rfl
  | some n =>
      simp only [Event.register, registerPairs, Cbor.encodeAll, Option.toList_some, List.map_cons,
        List.map_nil, List.flatMap_cons, List.flatMap_nil, Value.encodePairs, Value.encodePair,
        Value.encode, Item.encode_unsigned, UInt32.toNat_toUInt64, List.append_assoc]

theorem length_registerPairs (key : Nat) (register : Option UInt32) :
    (registerPairs key register).length = register.toList.length :=
  List.length_map _

theorem encode_body {e : Event} (inRange : e.InRange) :
    Cbor.encodeAll e.body = e.info.encode := by
  cases e with
  | session number readings =>
      obtain ⟨small, each⟩ := inRange
      have values := encode_readings each
      have numberWord : (UInt64.ofNat number).toNat = number := UInt64.toNat_ofNat_of_lt' small
      rw [Cbor.encodeAll] at values
      simp only [body, info, Cbor.encodeAll, Value.encode, Value.encodePairs, Value.encodePair,
        List.flatMap_append, List.flatMap_cons, List.flatMap_nil, List.append_assoc,
        List.append_nil, List.length_cons, List.length_nil, List.length_map, Item.encode_unsigned,
        Item.encode_mapHead, Item.encode_arrayHead, numberWord, values]
  | trace t =>
      have pc := encode_register 2 t.pc
      have lr := encode_register 3 t.lr
      have count : (registerPairs 2 t.pc ++ registerPairs 3 t.lr).length + 1 =
          1 + t.pc.toList.length + t.lr.toList.length := by
        rw [List.length_append, length_registerPairs, length_registerPairs]
        omega
      have pairs : Value.encodePairs (registerPairs 2 t.pc ++ registerPairs 3 t.lr) =
          Cbor.encodeAll (register 2 t.pc) ++ Cbor.encodeAll (register 3 t.lr) := by
        rw [pc, lr, Value.encodePairs_eq, List.flatMap_append, ← Value.encodePairs_eq,
          ← Value.encodePairs_eq]
        rfl
      rw [info, List.cons_append, Value.encode, List.length_cons, count, Value.encodePairs, pairs]
      simp only [body, Cbor.encodeAll, Value.encodePair, Value.encode, List.flatMap_append,
        List.flatMap_cons, List.flatMap_nil, List.append_assoc, List.append_nil,
        Item.encode_unsigned, Item.encode_mapHead, UInt32.toNat_toUInt64]
      rfl

theorem encode_eq {e : Event} (inRange : e.InRange) (device : Device) :
    e.encode device = (e.value device).encode := by
  rw [value, encode_document, ← encode_body inRange, encode, items, Cbor.encodeAll,
    List.flatMap_append]
  rfl

/-! ### Sizes that can be written -/

theorem length_items_le (device : Device) (e : Event) :
    (e.items device).length ≤ (e.encode device).length := by
  rw [encode, Cbor.length_encodeAll]
  induction e.items device with
  | nil => exact Nat.le_refl _
  | cons item items ih =>
      have pos := item.size_pos
      rw [List.length_cons, Cbor.totalSize_cons]
      omega

theorem byteLength_le {device : Device} {e : Event} {s : String}
    (mem : Item.text s ∈ e.items device) : Text.byteLength s ≤ (e.encode device).length := by
  have text : Text.byteLength s ≤ (Item.text s).size := Nat.le_add_left _ _
  rw [← Item.length_encode] at text
  exact Nat.le_trans text (Cbor.length_le_flatMap Item.encode mem)

theorem fits_document {device : Device} {typeCode depth : Nat} {info : Value}
    (texts : ∀ s ∈ [device.serial, device.softwareType, device.softwareVersion,
      device.hardwareVersion], Text.byteLength s < 2 ^ 64)
    (code : typeCode < 2 ^ 64) (fits : info.Fits (depth + 1)) :
    (document device typeCode info).Fits (depth + 2) := by
  simp only [List.forall_mem_cons, List.not_mem_nil, false_imp_iff, implies_true, and_true] at texts
  obtain ⟨serial, softwareType, softwareVersion, hardwareVersion⟩ := texts
  have seven : 7 < 2 ^ 64 := by decide
  have number {n : Nat} (below : n < 16) : Value.Fits (depth + 1) (.unsigned n) :=
    Nat.lt_trans below (by decide)
  refine ⟨seven, ?_⟩
  simp only [List.forall_mem_cons, List.not_mem_nil, false_imp_iff, implies_true, and_true]
  exact ⟨⟨number (by decide), code⟩, ⟨number (by decide), number (by decide)⟩,
    ⟨number (by decide), serial⟩, ⟨number (by decide), softwareType⟩,
    ⟨number (by decide), softwareVersion⟩, ⟨number (by decide), hardwareVersion⟩,
    number (by decide), fits⟩

theorem fits_registerPairs {key depth : Nat} (small : key < 2 ^ 64) (register : Option UInt32)
    {pair : Value × Value} (mem : pair ∈ registerPairs key register) :
    pair.1.Fits (depth + 1) ∧ pair.2.Fits (depth + 1) := by
  obtain ⟨n, -, rfl⟩ := List.mem_map.mp mem
  exact ⟨small, Nat.lt_trans n.toNat_lt (by decide)⟩

theorem fits_info {device : Device} {e : Event} (inRange : e.InRange)
    (small : (e.encode device).length < 2 ^ 64) : e.info.Fits 3 := by
  cases e with
  | session number readings =>
      obtain ⟨narrow, each⟩ := inRange
      have count := length_items_le device (session number readings)
      rw [items_session, List.length_append, List.length_map] at count
      have elements : (Value.array (readings.map Reading.value)).Fits 2 := by
        refine ⟨by rw [List.length_map]; omega, ?_⟩
        intro v mem
        obtain ⟨r, member, rfl⟩ := List.mem_map.mp mem
        apply Reading.fits_value (each r member)
        rintro s rfl
        have inside : Item.text s ∈ (session number readings).items device := by
          rw [items_session]
          exact List.mem_append_right _ (List.mem_map_of_mem member)
        exact Nat.lt_of_le_of_lt (byteLength_le inside) small
      have one : 1 < 2 ^ 64 := by decide
      refine ⟨one, ?_⟩
      intro pair mem
      obtain rfl := List.mem_singleton.mp mem
      exact ⟨narrow, elements⟩
  | trace t =>
      have reason : t.reason.toNat < 2 ^ 64 := Nat.lt_trans t.reason.toNat_lt (by decide)
      have count : (registerPairs 2 t.pc ++ registerPairs 3 t.lr).length + 1 < 2 ^ 64 := by
        have pc := Option.length_toList_le (o := t.pc)
        have lr := Option.length_toList_le (o := t.lr)
        rw [List.length_append, length_registerPairs, length_registerPairs]
        omega
      refine ⟨count, ?_⟩
      rw [List.cons_append, List.forall_mem_cons, List.forall_mem_append]
      have six : 6 < 2 ^ 64 := by decide
      exact ⟨⟨six, reason⟩, fun pair => fits_registerPairs (by decide) t.pc,
        fun pair => fits_registerPairs (by decide) t.lr⟩

theorem decode_encode {device : Device} {e : Event} (inRange : e.InRange)
    (small : (e.encode device).length < 2 ^ 64) :
    Cbor.decode (e.encode device) = some (e.value device) := by
  have fits : (e.value device).Fits 4 := by
    apply fits_document
    · have inside {s : String} (mem : Item.text s ∈ header device e.typeCode) :
          Text.byteLength s < 2 ^ 64 :=
        Nat.lt_of_le_of_lt (byteLength_le (List.mem_append_left _ mem)) small
      intro s mem
      apply inside
      simpa [header] using mem
    · exact e.typeCode.toNat_lt
    · exact fits_info inRange small
  rw [encode_eq inRange]
  exact Cbor.decode_encode fits

/-! ### What tells events apart -/

theorem document_inj {device device' : Device} {typeCode typeCode' : Nat} {info info' : Value}
    (same : document device typeCode info = document device' typeCode' info') :
    device' = device ∧ info' = info := by
  obtain ⟨serial, softwareType, softwareVersion, hardwareVersion⟩ := device
  obtain ⟨serial', softwareType', softwareVersion', hardwareVersion'⟩ := device'
  simp only [document, Value.map.injEq, List.cons.injEq, Prod.mk.injEq, Value.text.injEq] at same
  obtain ⟨-, -, ⟨-, rfl⟩, ⟨-, rfl⟩, ⟨-, rfl⟩, ⟨-, rfl⟩, ⟨-, rfl⟩, -⟩ := same
  exact ⟨rfl, rfl⟩

theorem registerPairs_inj {pc pc' lr lr' : Option UInt32}
    (same : registerPairs 2 pc ++ registerPairs 3 lr = registerPairs 2 pc' ++ registerPairs 3 lr') :
    pc' = pc ∧ lr' = lr := by
  -- the keys tell the registers apart where only one of them is there
  cases pc <;> cases pc' <;> cases lr <;> cases lr' <;>
    simp_all [registerPairs, UInt32.toNat_inj]

def kinds : Event → List MetricKind
  | session _ readings => readings.map Reading.kind
  | trace _ => []

theorem eq_of_info_eq {e e' : Event} (kinds : e'.kinds = e.kinds) (same : e'.info = e.info) :
    e' = e := by
  cases e with
  | session number readings =>
      cases e' with
      | session number' readings' =>
          simp only [info, Value.map.injEq, List.cons.injEq, Prod.mk.injEq, Value.unsigned.injEq,
            Value.array.injEq, and_true] at same
          obtain ⟨rfl, values⟩ := same
          rw [Reading.eq_of_value_eq kinds values]
      | trace t => simp [info] at same
  | trace t =>
      cases e' with
      | session number' readings' => simp [info] at same
      | trace t' =>
          obtain ⟨reason, pc, lr⟩ := t
          obtain ⟨reason', pc', lr'⟩ := t'
          simp only [info, List.cons_append, Value.map.injEq, List.cons.injEq, Prod.mk.injEq,
            Value.unsigned.injEq, true_and, UInt32.toNat_inj] at same
          obtain ⟨rfl, registers⟩ := same
          obtain ⟨rfl, rfl⟩ := registerPairs_inj registers
          rfl

end Event

end DeviceTelemetry
