import DeviceTelemetry.Cbor.Item
import Mathlib.Algebra.GroupWithZero.Nat

/-!
# Reading CBOR

A `Value` is a CBOR item together with all that belongs to it. `Value.encode` gives its bytes, each
head in the shortest form. `decode` reads bytes that are one item as a whole, whatever the form of
their heads is, and gets back every value that was written (`decode_encode`).
-/

set_option autoImplicit false

namespace DeviceTelemetry

def Text.decode? (bs : Bytes) : Option String :=
  bs.toByteArray.utf8Decode?.map fun cs => String.ofList cs.toList

theorem Text.decode?_bytes (s : String) : Text.decode? (Text.bytes s) = some s := by
  have whole : (Text.bytes s).toByteArray = s.toList.utf8Encode := rfl
  rw [Text.decode?, whole, List.utf8Decode?_utf8Encode, Option.map_some, List.toList_toArray,
    String.ofList_toList]

namespace Cbor

/-- A CBOR item with its members. -/
inductive Value where
  | unsigned (n : Nat)
  /-- The number `-1 - n`. -/
  | negative (n : Nat)
  | text (s : String)
  | null
  | array (elements : List Value)
  | map (pairs : List (Value × Value))

namespace Value

mutual

def encode : Value → Bytes
  | unsigned n => head .unsigned n
  | negative n => head .negative n
  | text s => head .text (Text.byteLength s) ++ Text.bytes s
  | null => [Item.nullByte]
  | array elements => head .array elements.length ++ encodeAll elements
  | map pairs => head .map pairs.length ++ encodePairs pairs

def encodeAll : List Value → Bytes
  | [] => []
  | v :: vs => encode v ++ encodeAll vs

def encodePairs : List (Value × Value) → Bytes
  | [] => []
  | pair :: pairs => encodePair pair ++ encodePairs pairs

def encodePair : Value × Value → Bytes
  | (key, v) => encode key ++ encode v

end

/-- Whether a value is nested at most `depth` deep, and all its numbers and sizes are arguments
that a head can have. -/
def Fits : Nat → Value → Prop
  | 0, _ => False
  | _ + 1, unsigned n => n < 2 ^ 64
  | _ + 1, negative n => n < 2 ^ 64
  | _ + 1, text s => Text.byteLength s < 2 ^ 64
  | _ + 1, null => True
  | depth + 1, array elements => elements.length < 2 ^ 64 ∧ ∀ v ∈ elements, Fits depth v
  | depth + 1, map pairs =>
    pairs.length < 2 ^ 64 ∧ ∀ pair ∈ pairs, Fits depth pair.1 ∧ Fits depth pair.2

theorem encodeAll_eq (vs : List Value) : encodeAll vs = vs.flatMap encode := by
  induction vs with
  | nil => rfl
  | cons v vs ih => rw [encodeAll, ih, List.flatMap_cons]

theorem encodePairs_eq (pairs : List (Value × Value)) :
    encodePairs pairs = pairs.flatMap encodePair := by
  induction pairs with
  | nil => rfl
  | cons pair pairs ih => rw [encodePairs, ih, List.flatMap_cons]

end Value

/-! ### The decoder -/

def Major.ofCode? : Nat → Option Major
  | 0 => some .unsigned
  | 1 => some .negative
  | 3 => some .text
  | 4 => some .array
  | 5 => some .map
  | _ => none

def ofBigEndian (bs : Bytes) : Nat := bs.foldl (fun n b => 256 * n + b.toNat) 0

def readNumber (width : Nat) (bs : Bytes) : Option (Nat × Bytes) :=
  if width ≤ bs.length then some (ofBigEndian (bs.take width), bs.drop width) else none

/-- The argument of a head, of whose first byte `low` are the low five bits. -/
def readArgument (low : Nat) (bs : Bytes) : Option (Nat × Bytes) :=
  if low < 24 then some (low, bs)
  else if low = 24 then readNumber 1 bs
  else if low = 25 then readNumber 2 bs
  else if low = 26 then readNumber 4 bs
  else if low = 27 then readNumber 8 bs
  else none

def readHead : Bytes → Option (Major × Nat × Bytes)
  | [] => none
  | b :: bs =>
    (Major.ofCode? (b.toNat / 32)).bind fun major =>
      (readArgument (b.toNat % 32) bs).map fun (n, rest) => (major, n, rest)

def readMany {α : Type} (read : Bytes → Option (α × Bytes)) : Nat → Bytes → Option (List α × Bytes)
  | 0, bs => some ([], bs)
  | count + 1, bs =>
    (read bs).bind fun (a, bs) => (readMany read count bs).map fun (as, bs) => (a :: as, bs)

def readPair (read : Bytes → Option (Value × Bytes)) (bs : Bytes) :
    Option ((Value × Value) × Bytes) :=
  (read bs).bind fun (key, bs) => (read bs).map fun (v, bs) => ((key, v), bs)

/-- What belongs to a head, if `read` reads the members. -/
def readMembers (read : Bytes → Option (Value × Bytes)) :
    Major → Nat → Bytes → Option (Value × Bytes)
  | .unsigned, n, bs => some (.unsigned n, bs)
  | .negative, n, bs => some (.negative n, bs)
  | .text, size, bs =>
    if size ≤ bs.length then
      (Text.decode? (bs.take size)).map fun s => (.text s, bs.drop size)
    else none
  | .array, count, bs => (readMany read count bs).map fun (vs, bs) => (.array vs, bs)
  | .map, count, bs => (readMany (readPair read) count bs).map fun (ps, bs) => (.map ps, bs)

def readNull : Bytes → Option (Value × Bytes)
  | [] => none
  | b :: bs => if b = Item.nullByte then some (.null, bs) else none

/-- A value that is nested at most `depth` deep, and the bytes behind it. -/
def readValue : Nat → Bytes → Option (Value × Bytes)
  | 0, _ => none
  | depth + 1, bs =>
    match readHead bs with
    | some (major, n, rest) => readMembers (readValue depth) major n rest
    | none => readNull bs

def decode (bs : Bytes) : Option Value :=
  match readValue bs.length bs with
  | some (v, []) => some v
  | _ => none

/-! ### Heads -/

theorem ofBigEndian_bigEndian (width n : Nat) :
    ofBigEndian (bigEndian width n) = n % 256 ^ width := by
  induction width generalizing n with
  | zero => rw [bigEndian, Nat.pow_zero, Nat.mod_one]; rfl
  | succ width ih =>
      have last : (UInt8.ofNat n).toNat = n % 256 := UInt8.toNat_ofNat'
      have step : ofBigEndian (bigEndian (width + 1) n) =
          256 * ofBigEndian (bigEndian width (n / 256)) + (UInt8.ofNat n).toNat := by
        simp only [ofBigEndian, bigEndian, List.foldl_append, List.foldl_cons, List.foldl_nil]
      rw [step, ih, last, Nat.pow_succ', Nat.mod_mul]
      omega

theorem readNumber_bigEndian {width n : Nat} (small : n < 256 ^ width) (rest : Bytes) :
    readNumber width (bigEndian width n ++ rest) = some (n, rest) := by
  have whole := length_bigEndian width n
  rw [readNumber, if_pos (by rw [List.length_append]; omega), List.take_left' whole,
    List.drop_left' whole, ofBigEndian_bigEndian, Nat.mod_eq_of_lt small]

theorem readHead_first (major : Major) {low : Nat} (small : low < 32) (bs : Bytes) :
    readHead (UInt8.ofNat (32 * major.code + low) :: bs) =
      (readArgument low bs).map fun (n, rest) => (major, n, rest) := by
  have code : major.code ≤ 5 := by cases major <;> decide
  have first : (UInt8.ofNat (32 * major.code + low)).toNat = 32 * major.code + low := by
    rw [UInt8.toNat_ofNat']
    omega
  have high : (32 * major.code + low) / 32 = major.code := by omega
  have rest : (32 * major.code + low) % 32 = low := by omega
  have known : Major.ofCode? major.code = some major := by cases major <;> rfl
  rw [readHead, first, high, rest, known, Option.bind_some]

theorem readHead_wide (major : Major) {low width n : Nat} (small : low < 32)
    (form : ∀ bs, readArgument low bs = readNumber width bs) (fits : n < 256 ^ width)
    (rest : Bytes) :
    readHead (UInt8.ofNat (32 * major.code + low) :: (bigEndian width n ++ rest)) =
      some (major, n, rest) := by
  rw [readHead_first major small, form, readNumber_bigEndian fits, Option.map_some]

theorem readHead_head (major : Major) {n : Nat} (small : n < 2 ^ 64) (rest : Bytes) :
    readHead (head major n ++ rest) = some (major, n, rest) := by
  by_cases direct : n < 24
  · rw [head, if_pos direct, List.singleton_append, readHead_first major (by omega), readArgument,
      if_pos direct, Option.map_some]
  · by_cases one : n < 0x100
    · rw [head, if_neg direct, if_pos one]
      exact readHead_wide major (by decide) (fun _ => rfl) one rest
    · by_cases two : n < 0x10000
      · rw [head, if_neg direct, if_neg one, if_pos two]
        exact readHead_wide major (by decide) (fun _ => rfl) two rest
      · by_cases four : n < 0x100000000
        · rw [head, if_neg direct, if_neg one, if_neg two, if_pos four]
          exact readHead_wide major (by decide) (fun _ => rfl) four rest
        · rw [head, if_neg direct, if_neg one, if_neg two, if_neg four]
          exact readHead_wide major (by decide) (fun _ => rfl) small rest

/-! ### Members -/

theorem readMany_flatMap {α : Type} {read : Bytes → Option (α × Bytes)} {write : α → Bytes}
    {as : List α} (inverse : ∀ a ∈ as, ∀ rest, read (write a ++ rest) = some (a, rest))
    (rest : Bytes) : readMany read as.length (as.flatMap write ++ rest) = some (as, rest) := by
  induction as with
  | nil => rfl
  | cons a as ih =>
      have first := inverse a List.mem_cons_self (as.flatMap write ++ rest)
      have others := ih fun a' mem => inverse a' (List.mem_cons_of_mem a mem)
      rw [List.flatMap_cons, List.append_assoc, List.length_cons, readMany, first,
        Option.bind_some]
      dsimp only
      rw [others, Option.map_some]

theorem readValue_encode {depth : Nat} {v : Value} (fits : v.Fits depth) (rest : Bytes) :
    readValue depth (v.encode ++ rest) = some (v, rest) := by
  induction depth generalizing v rest with
  | zero => exact absurd fits id
  | succ depth ih =>
      cases v with
      | unsigned n =>
          rw [Value.encode, readValue, readHead_head _ fits]
          rfl
      | negative n =>
          rw [Value.encode, readValue, readHead_head _ fits]
          rfl
      | text s =>
          rw [Value.encode, readValue, List.append_assoc, readHead_head _ fits]
          have size : (Text.bytes s).length = Text.byteLength s := rfl
          dsimp only [readMembers]
          rw [if_pos (by rw [List.length_append]; omega), List.take_left' size,
            List.drop_left' size, Text.decode?_bytes, Option.map_some]
      | null => rfl
      | array elements =>
          obtain ⟨short, members⟩ := fits
          have read := readMany_flatMap (fun v mem => ih (members v mem)) rest
          rw [Value.encode, readValue, Value.encodeAll_eq, List.append_assoc,
            readHead_head _ short]
          dsimp only [readMembers]
          rw [read, Option.map_some]
      | map pairs =>
          obtain ⟨short, members⟩ := fits
          have pair : ∀ p ∈ pairs, ∀ rest,
              readPair (readValue depth) (Value.encodePair p ++ rest) = some (p, rest) := by
            rintro ⟨key, v⟩ mem rest
            obtain ⟨keyFits, valueFits⟩ := members _ mem
            rw [Value.encodePair, List.append_assoc, readPair, ih keyFits, Option.bind_some]
            dsimp only
            rw [ih valueFits, Option.map_some]
          rw [Value.encode, readValue, Value.encodePairs_eq, List.append_assoc,
            readHead_head _ short]
          dsimp only [readMembers]
          rw [readMany_flatMap pair, Option.map_some]

/-! ### Whole values -/

theorem length_le_flatMap {α : Type} {a : α} {as : List α} (write : α → Bytes) (mem : a ∈ as) :
    (write a).length ≤ (as.flatMap write).length := by
  obtain ⟨before, after, rfl⟩ := List.append_of_mem mem
  rw [List.flatMap_append, List.flatMap_cons, List.length_append, List.length_append]
  omega

namespace Value

theorem Fits.mono {depth depth' : Nat} {v : Value} (fits : v.Fits depth) (more : depth ≤ depth') :
    v.Fits depth' := by
  induction depth generalizing v depth' with
  | zero => exact absurd fits id
  | succ depth ih =>
      obtain ⟨further, rfl⟩ : ∃ further, depth' = further + 1 := ⟨depth' - 1, by omega⟩
      have deeper : depth ≤ further := by omega
      cases v with
      | unsigned n => exact fits
      | negative n => exact fits
      | text s => exact fits
      | null => exact fits
      | array elements => exact ⟨fits.1, fun v mem => ih (fits.2 v mem) deeper⟩
      | map pairs =>
          exact ⟨fits.1, fun pair mem =>
            ⟨ih (fits.2 pair mem).1 deeper, ih (fits.2 pair mem).2 deeper⟩⟩

theorem length_encode_pos (v : Value) : 0 < v.encode.length := by
  have first (major : Major) (n : Nat) : 0 < (head major n).length := by
    rw [length_head]
    exact headSize_pos n
  cases v with
  | unsigned n => exact first _ _
  | negative n => exact first _ _
  | text s => exact Nat.lt_of_lt_of_le (first _ _) (List.prefix_append _ _).length_le
  | null => exact Nat.zero_lt_one
  | array elements => exact Nat.lt_of_lt_of_le (first _ _) (List.prefix_append _ _).length_le
  | map pairs => exact Nat.lt_of_lt_of_le (first _ _) (List.prefix_append _ _).length_le

theorem length_lt_array {v : Value} {elements : List Value} (mem : v ∈ elements) :
    v.encode.length < (array elements).encode.length := by
  have inside := length_le_flatMap encode mem
  have head := headSize_pos elements.length
  rw [encode, encodeAll_eq, List.length_append, length_head]
  omega

theorem length_lt_map {pair : Value × Value} {pairs : List (Value × Value)} (mem : pair ∈ pairs) :
    pair.1.encode.length < (map pairs).encode.length ∧
      pair.2.encode.length < (map pairs).encode.length := by
  have inside := length_le_flatMap encodePair mem
  have head := headSize_pos pairs.length
  rw [encode, encodePairs_eq, List.length_append, length_head]
  rw [encodePair, List.length_append] at inside
  omega

/-- A value is no deeper than it has bytes, since each level has a head of its own. -/
theorem Fits.of_length {depth : Nat} {v : Value} (fits : v.Fits depth) :
    v.Fits v.encode.length := by
  induction depth generalizing v with
  | zero => exact absurd fits id
  | succ depth ih =>
      cases v with
      | unsigned n => exact @mono 1 _ _ fits (length_encode_pos _)
      | negative n => exact @mono 1 _ _ fits (length_encode_pos _)
      | text s => exact @mono 1 _ _ fits (length_encode_pos _)
      | null => exact @mono 1 _ _ fits (length_encode_pos _)
      | array elements =>
          have inside {v : Value} := @length_lt_array v elements
          have pos := length_encode_pos (array elements)
          generalize (array elements).encode.length = length at inside pos
          obtain ⟨length, rfl⟩ := Nat.exists_eq_add_one.mpr pos
          exact ⟨fits.1, fun v mem => (ih (fits.2 v mem)).mono (Nat.le_of_lt_succ (inside mem))⟩
      | map pairs =>
          have inside {pair : Value × Value} := @length_lt_map pair pairs
          have pos := length_encode_pos (map pairs)
          generalize (map pairs).encode.length = length at inside pos
          obtain ⟨length, rfl⟩ := Nat.exists_eq_add_one.mpr pos
          exact ⟨fits.1, fun pair mem =>
            ⟨(ih (fits.2 pair mem).1).mono (Nat.le_of_lt_succ (inside mem).1),
              (ih (fits.2 pair mem).2).mono (Nat.le_of_lt_succ (inside mem).2)⟩⟩

end Value

theorem decode_encode {depth : Nat} {v : Value} (fits : v.Fits depth) :
    decode v.encode = some v := by
  have read := readValue_encode fits.of_length []
  rw [List.append_nil] at read
  rw [decode, read]

end Cbor
end DeviceTelemetry
