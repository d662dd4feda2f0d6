import DeviceTelemetry.Proofs.Cbor.Decoding
import Mathlib.Data.List.Induction

/-!
# Well-formed CBOR

`skipItem` finds the end of the CBOR item that some bytes start with: a number, a string or an array
of definite or indefinite length, a tagged item, a simple value or a float. Bytes are well formed if
they are one item from the first to the last. Where an item ends does not depend on what stands
behind it (`skipItem_extends`), so well-formed items in a row behind the head of an array are one
well-formed item (`wellFormed_array`), and its elements are just these (`elements?_array`).
-/

set_option autoImplicit false

namespace DeviceTelemetry.Cbor

/-! ### The end of an item -/

def breakByte : UInt8 := 0xFF

def skipBytes (n : Nat) (bs : Bytes) : Option Bytes :=
  if n ≤ bs.length then some (bs.drop n) else none

def skipMany (skip : Bytes → Option Bytes) : Nat → Bytes → Option Bytes
  | 0, bs => some bs
  | count + 1, bs => (skip bs).bind (skipMany skip count)

/-- What is behind the first break that stands where a piece could start. At most `count` places
are looked at. -/
def skipToBreak (skip : Bytes → Option Bytes) : Nat → Bytes → Option Bytes
  | 0, _ => none
  | _ + 1, [] => none
  | count + 1, b :: bs =>
    if b = breakByte then some bs else (skip (b :: bs)).bind (skipToBreak skip count)

def skipString (major : Nat) : Bytes → Option Bytes
  | [] => none
  | b :: bs =>
    if b.toNat / 32 = major then
      (readArgument (b.toNat % 32) bs).bind fun (n, rest) => skipBytes n rest
    else none

/-- What is behind the contents of an item of definite length, if `skip` gets past its members. The
head has the major type `major`, the argument `n` and the low bits `low` in its first byte. -/
def skipContents (skip : Bytes → Option Bytes) (major low n : Nat) (bs : Bytes) : Option Bytes :=
  match major with
  | 0 | 1 => some bs
  | 2 | 3 => skipBytes n bs
  | 4 => skipMany skip n bs
  | 5 => skipMany skip (2 * n) bs
  | 6 => skip bs
  -- a simple value in two bytes is none of those that take one
  | _ => if low = 24 ∧ n < 32 then none else some bs

def skipOpenEnded (skip : Bytes → Option Bytes) (major : Nat) (bs : Bytes) : Option Bytes :=
  match major with
  | 2 | 3 => skipToBreak (skipString major) bs.length bs
  | 4 => skipToBreak skip bs.length bs
  | 5 => skipToBreak (skipMany skip 2) bs.length bs
  | _ => none

/-- What is behind the item at the beginning, if it is nested at most `depth` deep. -/
def skipItem : Nat → Bytes → Option Bytes
  | 0, _ => none
  | _ + 1, [] => none
  | depth + 1, b :: bs =>
    if b.toNat % 32 = 31 then skipOpenEnded (skipItem depth) (b.toNat / 32) bs
    else
      (readArgument (b.toNat % 32) bs).bind fun (n, rest) =>
        skipContents (skipItem depth) (b.toNat / 32) (b.toNat % 32) n rest

/-- Whether some bytes are one CBOR item. An item is no deeper than it has bytes. -/
def WellFormed (bs : Bytes) : Prop := skipItem bs.length bs = some []

instance (bs : Bytes) : Decidable (WellFormed bs) := inferInstanceAs (Decidable (_ = _))

/-- The `count` items of which some bytes consist, each nested at most `depth` deep. -/
def splitItems (depth : Nat) : Nat → Bytes → Option (List Bytes)
  | 0, bs => if bs = [] then some [] else none
  | count + 1, bs =>
    (skipItem depth bs).bind fun rest =>
      (splitItems depth count rest).map (bs.take (bs.length - rest.length) :: ·)

def elements? (bs : Bytes) : Option (List Bytes) :=
  match readHead bs with
  | some (.array, n, rest) => splitItems bs.length n rest
  | _ => none

structure ShortestHead (major : Major) (n : Nat) (h : Bytes) : Prop where
  reads : readHead h = some (major, n, [])
  shortest : ∀ h', readHead h' = some (major, n, []) → h.length ≤ h'.length

/-! ### Heads -/

theorem Major.ofCode?_eq_some {code : Nat} {major : Major} (known : ofCode? code = some major) :
    code = major.code := by
  unfold ofCode? at known
  split at known
  · cases known
    rfl
  · cases known
    rfl
  · cases known
    rfl
  · cases known
    rfl
  · cases known
    rfl
  · cases known

theorem readArgument_cases (low : Nat) :
    (low < 24 ∧ ∀ bs, readArgument low bs = some (low, bs)) ∨
      (∃ width ∈ [1, 2, 4, 8], ∀ bs, readArgument low bs = readNumber width bs) ∨
        ∀ bs, readArgument low bs = none := by
  by_cases direct : low < 24
  · exact .inl ⟨direct, fun _ => if_pos direct⟩
  · right
    unfold readArgument
    simp only [if_neg direct]
    by_cases one : low = 24
    · exact .inl ⟨1, by decide, fun _ => if_pos one⟩
    · simp only [if_neg one]
      by_cases two : low = 25
      · exact .inl ⟨2, by decide, fun _ => if_pos two⟩
      · simp only [if_neg two]
        by_cases four : low = 26
        · exact .inl ⟨4, by decide, fun _ => if_pos four⟩
        · simp only [if_neg four]
          by_cases eight : low = 27
          · exact .inl ⟨8, by decide, fun _ => if_pos eight⟩
          · exact .inr fun _ => if_neg eight

theorem readHead_eq_some {bs rest : Bytes} {major : Major} {n : Nat}
    (read : readHead bs = some (major, n, rest)) :
    ∃ b tail, bs = b :: tail ∧ b.toNat / 32 = major.code ∧
      readArgument (b.toNat % 32) tail = some (n, rest) := by
  cases bs with
  | nil => cases read
  | cons b tail =>
      obtain ⟨major', known, argument⟩ := Option.bind_eq_some_iff.mp read
      obtain ⟨⟨n', rest'⟩, argument, same⟩ := Option.map_eq_some_iff.mp argument
      cases same
      exact ⟨b, tail, rfl, Major.ofCode?_eq_some known, argument⟩

theorem ofBigEndian_lt (bs : Bytes) : ofBigEndian bs < 256 ^ bs.length := by
  induction bs using List.reverseRecOn with
  | nil => decide
  | append_singleton bs b ih =>
      have byte := b.toNat_lt
      have last : ofBigEndian (bs ++ [b]) = 256 * ofBigEndian bs + b.toNat := by
        rw [ofBigEndian, List.foldl_append, List.foldl_cons, List.foldl_nil]
        rfl
      rw [last, List.length_append, List.length_singleton, Nat.pow_succ']
      omega

/-- A number in so many bytes has a head that takes no more behind its first byte. -/
theorem headSize_le_of_lt {width n : Nat} (known : width ∈ [1, 2, 4, 8]) (small : n < 256 ^ width) :
    headSize n ≤ width + 1 := by
  simp only [List.mem_cons, List.not_mem_nil, or_false] at known
  rcases known with rfl | rfl | rfl | rfl
  · unfold headSize
    repeat' split
    all_goals omega
  · unfold headSize
    repeat' split
    all_goals omega
  · unfold headSize
    repeat' split
    all_goals omega
  · exact headSize_le n

theorem shortestHead_head (major : Major) {n : Nat} (small : n < 2 ^ 64) :
    ShortestHead major n (head major n) := by
  have read := readHead_head major small []
  rw [List.append_nil] at read
  refine ⟨read, ?_⟩
  intro h' read'
  obtain ⟨b, tail, rfl, -, argument⟩ := readHead_eq_some read'
  rw [length_head, List.length_cons]
  rcases readArgument_cases (b.toNat % 32) with ⟨low, direct⟩ | ⟨width, known, wide⟩ | reserved
  · rw [direct] at argument
    cases argument
    rw [headSize, if_pos low]
    omega
  · rw [wide, readNumber] at argument
    by_cases enough : width ≤ tail.length
    · rw [if_pos enough] at argument
      obtain ⟨rfl, -⟩ := Prod.mk.inj (Option.some.inj argument)
      have bound := ofBigEndian_lt (tail.take width)
      rw [List.length_take, Nat.min_eq_left enough] at bound
      have size := headSize_le_of_lt known bound
      omega
    · rw [if_neg enough] at argument
      cases argument
  · rw [reserved] at argument
    cases argument

/-! ### Bytes behind an item -/

/-- `further` gets as far as `skip` does, whatever stands behind. -/
def Extends (skip further : Bytes → Option Bytes) : Prop :=
  ∀ bs rest more, skip bs = some rest → further (bs ++ more) = some (rest ++ more)

theorem readNumber_append {width n : Nat} {bs rest : Bytes}
    (read : readNumber width bs = some (n, rest)) (more : Bytes) :
    readNumber width (bs ++ more) = some (n, rest ++ more) := by
  rw [readNumber] at read
  by_cases enough : width ≤ bs.length
  · rw [if_pos enough] at read
    cases read
    rw [readNumber, if_pos (by rw [List.length_append]; omega),
      List.take_append_of_le_length enough, List.drop_append_of_le_length enough]
  · rw [if_neg enough] at read
    cases read

theorem readArgument_append {low n : Nat} {bs rest : Bytes}
    (read : readArgument low bs = some (n, rest)) (more : Bytes) :
    readArgument low (bs ++ more) = some (n, rest ++ more) := by
  rcases readArgument_cases low with ⟨-, direct⟩ | ⟨width, -, wide⟩ | reserved
  · rw [direct] at read ⊢
    cases read
    rfl
  · rw [wide] at read ⊢
    exact readNumber_append read more
  · rw [reserved] at read
    cases read

theorem readHead_append {bs rest : Bytes} {major : Major} {n : Nat}
    (read : readHead bs = some (major, n, rest)) (more : Bytes) :
    readHead (bs ++ more) = some (major, n, rest ++ more) := by
  obtain ⟨b, tail, rfl, code, argument⟩ := readHead_eq_some read
  have known : Major.ofCode? major.code = some major := by cases major <;> rfl
  rw [List.cons_append, readHead, code, known, Option.bind_some, readArgument_append argument more,
    Option.map_some]

theorem skipBytes_extends (n : Nat) : Extends (skipBytes n) (skipBytes n) := by
  intro bs rest more skipped
  rw [skipBytes] at skipped
  by_cases enough : n ≤ bs.length
  · rw [if_pos enough] at skipped
    cases skipped
    rw [skipBytes, if_pos (by rw [List.length_append]; omega),
      List.drop_append_of_le_length enough]
  · rw [if_neg enough] at skipped
    cases skipped

section Members

variable {skip further : Bytes → Option Bytes}

theorem Extends.skipMany (step : Extends skip further) (count : Nat) :
    Extends (skipMany skip count) (skipMany further count) := by
  induction count with
  | zero =>
      intro bs rest more skipped
      cases skipped
      rfl
  | succ count ih =>
      intro bs rest more skipped
      obtain ⟨middle, first, others⟩ := Option.bind_eq_some_iff.mp skipped
      rw [Cbor.skipMany, step bs middle more first, Option.bind_some]
      exact ih middle rest more others

theorem Extends.skipToBreak (step : Extends skip further) {count count' : Nat}
    (enough : count ≤ count') :
    Extends (skipToBreak skip count) (skipToBreak further count') := by
  induction count generalizing count' with
  | zero =>
      intro bs rest more skipped
      cases skipped
  | succ count ih =>
      obtain ⟨left, rfl⟩ : ∃ left, count' = left + 1 := ⟨count' - 1, by omega⟩
      intro bs rest more skipped
      cases bs with
      | nil => cases skipped
      | cons b bs =>
          rw [Cbor.skipToBreak] at skipped
          rw [List.cons_append, Cbor.skipToBreak]
          by_cases last : b = breakByte
          · rw [if_pos last] at skipped ⊢
            cases skipped
            rfl
          · rw [if_neg last] at skipped ⊢
            obtain ⟨middle, first, others⟩ := Option.bind_eq_some_iff.mp skipped
            rw [← List.cons_append, step (b :: bs) middle more first, Option.bind_some]
            exact ih (by omega) middle rest more others

end Members

theorem skipString_extends (major : Nat) : Extends (skipString major) (skipString major) := by
  intro bs rest more skipped
  cases bs with
  | nil => cases skipped
  | cons b bs =>
      rw [skipString] at skipped
      rw [List.cons_append, skipString]
      by_cases same : b.toNat / 32 = major
      · rw [if_pos same] at skipped ⊢
        obtain ⟨⟨n, behind⟩, read, string⟩ := Option.bind_eq_some_iff.mp skipped
        rw [readArgument_append read more, Option.bind_some]
        exact skipBytes_extends n behind rest more string
      · rw [if_neg same] at skipped
        cases skipped

section Contents

variable {skip further : Bytes → Option Bytes}

theorem Extends.skipContents (step : Extends skip further) (major low n : Nat) :
    Extends (skipContents skip major low n) (skipContents further major low n) := by
  intro bs rest more skipped
  have passed (left : some bs = some rest) : some (bs ++ more) = some (rest ++ more) := by
    rw [Option.some.inj left]
  rcases major with _ | _ | _ | _ | _ | _ | _ | major
  · exact passed skipped
  · exact passed skipped
  · exact skipBytes_extends n bs rest more skipped
  · exact skipBytes_extends n bs rest more skipped
  · exact step.skipMany n bs rest more skipped
  · exact step.skipMany (2 * n) bs rest more skipped
  · exact step bs rest more skipped
  · unfold Cbor.skipContents at skipped ⊢
    by_cases short : low = 24 ∧ n < 32
    · rw [if_pos short] at skipped
      cases skipped
    · rw [if_neg short] at skipped ⊢
      exact passed skipped

theorem Extends.skipOpenEnded (step : Extends skip further) (major : Nat) :
    Extends (skipOpenEnded skip major) (skipOpenEnded further major) := by
  intro bs rest more skipped
  have longer : bs.length ≤ (bs ++ more).length := (List.prefix_append bs more).length_le
  unfold Cbor.skipOpenEnded at skipped ⊢
  split at skipped
  · exact (skipString_extends 2).skipToBreak longer bs rest more skipped
  · exact (skipString_extends 3).skipToBreak longer bs rest more skipped
  · exact step.skipToBreak longer bs rest more skipped
  · exact (step.skipMany 2).skipToBreak longer bs rest more skipped
  · cases skipped

end Contents

/-- Where an item ends depends neither on what stands behind it nor on how much deeper items could
be nested. -/
theorem skipItem_extends {depth depth' : Nat} (deeper : depth ≤ depth') :
    Extends (skipItem depth) (skipItem depth') := by
  induction depth generalizing depth' with
  | zero =>
      intro bs rest more skipped
      cases skipped
  | succ depth ih =>
      obtain ⟨left, rfl⟩ : ∃ left, depth' = left + 1 := ⟨depth' - 1, by omega⟩
      have members : Extends (skipItem depth) (skipItem left) := ih (by omega)
      intro bs rest more skipped
      cases bs with
      | nil => cases skipped
      | cons b bs =>
          rw [Cbor.skipItem] at skipped
          rw [List.cons_append, Cbor.skipItem]
          by_cases openEnded : b.toNat % 32 = 31
          · rw [if_pos openEnded] at skipped ⊢
            exact members.skipOpenEnded _ bs rest more skipped
          · rw [if_neg openEnded] at skipped ⊢
            obtain ⟨⟨n, behind⟩, read, contents⟩ := Option.bind_eq_some_iff.mp skipped
            rw [readArgument_append read more, Option.bind_some]
            exact members.skipContents _ _ n behind rest more contents

/-! ### Arrays -/

section Arrays

variable {items : List Bytes} {depth : Nat}

theorem WellFormed.skipItem {p : Bytes} (item : WellFormed p) (deep : p.length ≤ depth)
    (more : Bytes) : skipItem depth (p ++ more) = some more :=
  skipItem_extends deep p [] more item

theorem skipMany_flatten (wellFormed : ∀ p ∈ items, WellFormed p)
    (deep : ∀ p ∈ items, p.length ≤ depth) (more : Bytes) :
    skipMany (skipItem depth) items.length (items.flatten ++ more) = some more := by
  induction items with
  | nil => rfl
  | cons p ps ih =>
      have first := (wellFormed p List.mem_cons_self).skipItem (deep p List.mem_cons_self)
        (ps.flatten ++ more)
      rw [List.flatten_cons, List.append_assoc, List.length_cons, skipMany, first,
        Option.bind_some]
      exact ih (fun p' later => wellFormed p' (List.mem_cons_of_mem p later))
        fun p' later => deep p' (List.mem_cons_of_mem p later)

theorem splitItems_flatten (wellFormed : ∀ p ∈ items, WellFormed p)
    (deep : ∀ p ∈ items, p.length ≤ depth) :
    splitItems depth items.length items.flatten = some items := by
  induction items with
  | nil => rfl
  | cons p ps ih =>
      have first := (wellFormed p List.mem_cons_self).skipItem (deep p List.mem_cons_self)
        ps.flatten
      have others := ih (fun p' later => wellFormed p' (List.mem_cons_of_mem p later))
        fun p' later => deep p' (List.mem_cons_of_mem p later)
      have here : (p ++ ps.flatten).length - ps.flatten.length = p.length := by
        rw [List.length_append, Nat.add_sub_cancel]
      rw [List.flatten_cons, List.length_cons, splitItems, first, Option.bind_some, others,
        Option.map_some, here, List.take_left]

theorem length_le_flatten {p : Bytes} (member : p ∈ items) : p.length ≤ items.flatten.length := by
  have inside := length_le_flatMap id member
  rw [List.flatMap_id] at inside
  exact inside

theorem skipItem_array {bs rest : Bytes} {n : Nat} (read : readHead bs = some (.array, n, rest)) :
    skipItem (depth + 1) bs = skipMany (skipItem depth) n rest := by
  obtain ⟨b, tail, rfl, code, argument⟩ := readHead_eq_some read
  have definite : b.toNat % 32 ≠ 31 := by
    intro openEnded
    rw [openEnded] at argument
    cases argument
  rw [skipItem, if_neg definite, argument, Option.bind_some, code]
  rfl

/-- Well-formed items behind the head of an array are one well-formed item. -/
theorem wellFormed_array {h : Bytes} (read : readHead h = some (.array, items.length, []))
    (wellFormed : ∀ p ∈ items, WellFormed p) : WellFormed (h ++ items.flatten) := by
  have whole := readHead_append read items.flatten
  obtain ⟨b, tail, rfl, -, -⟩ := readHead_eq_some read
  have size : (b :: tail ++ items.flatten).length = (tail ++ items.flatten).length + 1 := rfl
  have deep (p : Bytes) (member : p ∈ items) : p.length ≤ (tail ++ items.flatten).length := by
    have inside := length_le_flatten member
    rw [List.length_append]
    omega
  have members := skipMany_flatten wellFormed deep []
  rw [List.append_nil] at members
  rw [WellFormed, size, skipItem_array whole, List.nil_append, members]

theorem elements?_array {h : Bytes} (read : readHead h = some (.array, items.length, []))
    (wellFormed : ∀ p ∈ items, WellFormed p) : elements? (h ++ items.flatten) = some items := by
  have deep (p : Bytes) (member : p ∈ items) : p.length ≤ (h ++ items.flatten).length := by
    have inside := length_le_flatten member
    rw [List.length_append]
    omega
  rw [elements?, readHead_append read]
  exact splitItems_flatten wellFormed deep

end Arrays

end DeviceTelemetry.Cbor
