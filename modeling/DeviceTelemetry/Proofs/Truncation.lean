import DeviceTelemetry.Text

/-!
# Texts that are cut

A text that is too long keeps its longest beginning of whole characters (`Text.isLongest_iff`). The
beginnings of what is kept are the beginnings of the text that are short enough
(`Text.isPrefix_takeBytes_iff`), so cutting twice is cutting at the smaller limit.

The same is found on the bytes alone, by going back from the limit one byte at a time until no
character is split (`Text.strictTruncate`). The walk does not leave the text, and it ends where the
characters that fit end.
-/

set_option autoImplicit false

namespace DeviceTelemetry.Text

/-! ### Bytes of characters -/

theorem length_encode_le {before cs : List Char} (beginning : before <+: cs) :
    (encode before).length ≤ (encode cs).length := by
  obtain ⟨rest, rfl⟩ := beginning
  rw [encode_append, List.length_append]
  exact Nat.le_add_right _ _

theorem bytes_truncate (s : String) (limit : Nat) :
    bytes (truncate s limit) = encode (takeBytes limit s.toList) := by
  rw [bytes, truncate, String.toList_ofList]

/-! ### The characters that fit -/

variable {limit : Nat} {cs before : List Char}

/-- What is kept is the greatest of the beginnings that are short enough. -/
theorem isPrefix_takeBytes_iff :
    before <+: takeBytes limit cs ↔ before <+: cs ∧ (encode before).length ≤ limit := by
  induction cs generalizing limit before with
  | nil =>
      rw [takeBytes, List.prefix_nil]
      constructor
      · rintro rfl
        exact ⟨rfl, Nat.zero_le _⟩
      · exact And.left
  | cons c cs ih =>
      cases before with
      | nil => exact iff_of_true List.nil_prefix (And.intro List.nil_prefix (Nat.zero_le _))
      | cons d before =>
          rw [takeBytes, length_encode_cons, List.cons_prefix_cons]
          by_cases fits : c.utf8Size ≤ limit
          · rw [if_pos fits, List.cons_prefix_cons, ih, and_assoc]
            refine and_congr_right ?_
            rintro rfl
            refine and_congr_right fun _ => ?_
            omega
          · rw [if_neg fits]
            constructor
            · intro bad
              cases List.prefix_nil.mp bad
            · rintro ⟨⟨rfl, -⟩, short⟩
              omega

theorem takeBytes_isPrefix (limit : Nat) (cs : List Char) : takeBytes limit cs <+: cs :=
  (isPrefix_takeBytes_iff.mp List.prefix_rfl).1

theorem length_encode_takeBytes (limit : Nat) (cs : List Char) :
    (encode (takeBytes limit cs)).length ≤ limit :=
  (isPrefix_takeBytes_iff.mp List.prefix_rfl).2

theorem takeBytes_takeBytes (m n : Nat) (cs : List Char) :
    takeBytes n (takeBytes m cs) = takeBytes (min m n) cs := by
  have same (before : List Char) :
      before <+: takeBytes n (takeBytes m cs) ↔ before <+: takeBytes (min m n) cs := by
    rw [isPrefix_takeBytes_iff, isPrefix_takeBytes_iff, isPrefix_takeBytes_iff, Nat.le_min,
      and_assoc]
  have shorter := (same _).mp List.prefix_rfl
  have longer := (same _).mpr List.prefix_rfl
  exact shorter.eq_of_length_le longer.length_le

/-- Either nothing is cut off, or the next character would be too much. -/
theorem takeBytes_full (limit : Nat) (cs : List Char) :
    takeBytes limit cs = cs ∨ ∃ c rest, takeBytes limit cs ++ c :: rest = cs ∧
      limit < (encode (takeBytes limit cs ++ [c])).length := by
  obtain ⟨rest, parts⟩ := takeBytes_isPrefix limit cs
  cases rest with
  | nil =>
      rw [List.append_nil] at parts
      exact .inl parts
  | cons c rest =>
      refine .inr ⟨c, rest, parts, Nat.lt_of_not_le fun short => ?_⟩
      have next : takeBytes limit cs ++ [c] <+: cs := ⟨rest, by simpa using parts⟩
      have kept := (isPrefix_takeBytes_iff.mpr ⟨next, short⟩).length_le
      rw [List.length_append, List.length_singleton] at kept
      omega

theorem byteLength_truncate_le (s : String) (limit : Nat) :
    byteLength (truncate s limit) ≤ limit := by
  rw [byteLength, bytes_truncate]
  exact length_encode_takeBytes limit s.toList

theorem truncate_truncate (s : String) (m n : Nat) :
    truncate (truncate s m) n = truncate s (min m n) := by
  rw [truncate, truncate, truncate, String.toList_ofList, takeBytes_takeBytes]

/-! ### Boundaries -/

/-- Whether a byte goes on with a character that an earlier byte begins. -/
def continues (b : UInt8) : Bool := 0x80 ≤ b && b < 0xC0

/-- Whether an offset splits no character, as the byte behind it tells. -/
def isBoundary (bs : Bytes) (offset : Nat) : Bool :=
  offset == 0 || match bs[offset]? with
    | some b => !continues b
    | none => offset == bs.length

theorem isBoundary_zero (bs : Bytes) : isBoundary bs 0 = true := rfl

theorem isBoundary_of_byte {bs : Bytes} {offset : Nat} {b : UInt8} (here : bs[offset]? = some b) :
    isBoundary bs offset = (offset == 0 || !continues b) := by
  rw [isBoundary, here]

theorem isBoundary_length (bs : Bytes) : isBoundary bs bs.length = true := by
  rw [isBoundary, List.getElem?_eq_none (Nat.le_refl _), beq_self_eq_true, Bool.or_true]

theorem isBoundary_of_length_lt {bs : Bytes} {offset : Nat} (beyond : bs.length < offset) :
    isBoundary bs offset = false := by
  rw [isBoundary, List.getElem?_eq_none (Nat.le_of_lt beyond), beq_false_of_ne (by omega),
    beq_false_of_ne (by omega)]
  rfl

theorem continues_ofNat (n : Nat) :
    continues (UInt8.ofNat n) = decide (0x80 ≤ n % 0x100 ∧ n % 0x100 < 0xC0) := by
  simp [continues, UInt8.le_iff_toNat_le, UInt8.lt_iff_toNat_lt]

/-- Of the bytes of a character, the first one alone does not go on with it. -/
theorem exists_utf8EncodeChar (c : Char) :
    ∃ first rest, String.utf8EncodeChar c = first :: rest ∧ continues first = false ∧
      ∀ b ∈ rest, continues b = true := by
  have begins {n : Nat} (outside : n % 0x100 < 0x80 ∨ 0xC0 ≤ n % 0x100) :
      continues (UInt8.ofNat n) = false := by
    rw [continues_ofNat, decide_eq_false_iff_not]
    omega
  have vacuous : ∀ b ∈ ([] : Bytes), continues b = true := List.forall_mem_nil _
  -- each further byte holds six bits of the character
  have more {bs : Bytes} (others : ∀ b ∈ bs, continues b = true) (n : Nat) :
      ∀ b ∈ UInt8.ofNat (n % 0x40 + 0x80) :: bs, continues b = true := by
    refine List.forall_mem_cons.mpr ⟨?_, others⟩
    rw [continues_ofNat, decide_eq_true_iff]
    omega
  unfold String.utf8EncodeChar
  dsimp only
  split
  · exact ⟨_, _, rfl, begins (by omega), vacuous⟩
  · split
    · exact ⟨_, _, rfl, begins (by omega), more vacuous _⟩
    · split
      · exact ⟨_, _, rfl, begins (by omega), more (more vacuous _) _⟩
      · exact ⟨_, _, rfl, begins (by omega), more (more (more vacuous _) _) _⟩

theorem continues_first {b : UInt8} (first : (encode cs)[0]? = some b) : continues b = false := by
  cases cs with
  | nil => cases first
  | cons c cs =>
      obtain ⟨b', rest, char, begins, -⟩ := exists_utf8EncodeChar c
      rw [encode_cons, char] at first
      cases first
      exact begins

theorem isBoundary_inside {c : Char} {offset : Nat} (behind : 0 < offset)
    (inside : offset < c.utf8Size) (cs : List Char) :
    isBoundary (encode (c :: cs)) offset = false := by
  obtain ⟨first, rest, char, -, others⟩ := exists_utf8EncodeChar c
  have size := String.length_utf8EncodeChar c
  rw [char, List.length_cons] at size
  have short : offset - 1 < rest.length := by omega
  have here : (encode (c :: cs))[offset]? = some rest[offset - 1] := by
    rw [encode_cons, char, List.cons_append, List.getElem?_cons, if_neg (by omega),
      List.getElem?_append_left short, List.getElem?_eq_getElem short]
  rw [isBoundary_of_byte here, others _ (List.getElem_mem short), beq_false_of_ne (by omega)]
  rfl

/-- Behind a character, the boundaries are those of the rest. -/
theorem isBoundary_behind (c : Char) (cs : List Char) (offset : Nat) :
    isBoundary (encode (c :: cs)) (c.utf8Size + offset) = isBoundary (encode cs) offset := by
  have pos := c.utf8Size_pos
  have size := length_encode_cons c cs
  have here : (encode (c :: cs))[c.utf8Size + offset]? = (encode cs)[offset]? := by
    rw [encode_cons, List.getElem?_append_right (by simp), String.length_utf8EncodeChar,
      Nat.add_sub_cancel_left]
  rcases Nat.lt_trichotomy offset (encode cs).length with within | rfl | beyond
  · have there := List.getElem?_eq_getElem within
    rw [isBoundary_of_byte there, isBoundary_of_byte (here.trans there),
      beq_false_of_ne (by omega), Bool.false_or]
    -- the rest begins with the first byte of a character
    by_cases first : offset = 0
    · subst first
      rw [continues_first there]
      rfl
    · rw [beq_false_of_ne first, Bool.false_or]
  · rw [isBoundary_length, ← size, isBoundary_length]
  · rw [isBoundary_of_length_lt beyond, isBoundary_of_length_lt (by omega)]

/-- An offset in a text is a boundary if and only if some of its characters end there. -/
theorem isBoundary_encode_iff {offset : Nat} :
    isBoundary (encode cs) offset = true ↔
      ∃ before, before <+: cs ∧ (encode before).length = offset := by
  induction cs generalizing offset with
  | nil =>
      rcases Nat.eq_zero_or_pos offset with rfl | beyond
      · exact iff_of_true (isBoundary_zero _) ⟨[], List.nil_prefix, rfl⟩
      · rw [isBoundary_of_length_lt beyond]
        refine iff_of_false Bool.false_ne_true ?_
        rintro ⟨before, beginning, rfl⟩
        obtain rfl := List.prefix_nil.mp beginning
        exact Nat.lt_irrefl 0 beyond
  | cons c cs ih =>
      by_cases first : offset = 0
      · subst first
        exact iff_of_true (isBoundary_zero _) ⟨[], List.nil_prefix, rfl⟩
      · by_cases inside : offset < c.utf8Size
        · rw [isBoundary_inside (Nat.pos_of_ne_zero first) inside]
          refine iff_of_false Bool.false_ne_true ?_
          rintro ⟨before, beginning, rfl⟩
          cases before with
          | nil => exact first rfl
          | cons d before =>
              obtain rfl := (List.cons_prefix_cons.mp beginning).1
              rw [length_encode_cons] at inside
              omega
        · obtain ⟨offset, rfl⟩ := Nat.exists_eq_add_of_le (Nat.le_of_not_lt inside)
          rw [isBoundary_behind, ih]
          constructor
          · rintro ⟨before, beginning, rfl⟩
            exact ⟨c :: before, List.cons_prefix_cons.mpr ⟨rfl, beginning⟩,
              length_encode_cons c before⟩
          · rintro ⟨before, beginning, ends⟩
            cases before with
            | nil => exact absurd ends.symm first
            | cons d before =>
                obtain ⟨rfl, shorter⟩ := List.cons_prefix_cons.mp beginning
                rw [length_encode_cons] at ends
                exact ⟨before, shorter, Nat.add_left_cancel ends⟩

/-! ### Going back to a boundary -/

/-- The last boundary up to an offset, looked for by going back one byte at a time; nothing if the
walk would leave the text. -/
def stepBack? (bs : Bytes) : Nat → Option Nat
  | 0 => if isBoundary bs 0 then some 0 else none
  | offset + 1 => if isBoundary bs (offset + 1) then some (offset + 1) else stepBack? bs offset

/-- The bytes in front of an offset, unless it splits a character. -/
def front? (bs : Bytes) (offset : Nat) : Option Bytes :=
  if isBoundary bs offset then some (bs.take offset) else none

/-- The bytes that are left of those of a text, with every step checked. -/
def strictTruncate (bs : Bytes) (limit : Nat) : Option Bytes := do
  front? bs (← stepBack? bs (min bs.length limit))

theorem stepBack?_of_last {bs : Bytes} {last offset : Nat} (boundary : isBoundary bs last = true)
    (upTo : last ≤ offset)
    (latest : ∀ later, last < later → later ≤ offset → isBoundary bs later = false) :
    stepBack? bs offset = some last := by
  induction offset with
  | zero =>
      obtain rfl := Nat.le_zero.mp upTo
      rw [stepBack?, if_pos boundary]
  | succ offset ih =>
      rw [stepBack?]
      by_cases here : last = offset + 1
      · subst here
        rw [if_pos boundary]
      · rw [latest (offset + 1) (by omega) (Nat.le_refl _), if_neg Bool.false_ne_true]
        exact ih (by omega) fun later behind within => latest later behind (by omega)

theorem strictTruncate_encode (limit : Nat) (cs : List Char) :
    strictTruncate (encode cs) limit = some (encode (takeBytes limit cs)) := by
  have beginning := takeBytes_isPrefix limit cs
  have boundary : isBoundary (encode cs) (encode (takeBytes limit cs)).length = true :=
    isBoundary_encode_iff.mpr ⟨_, beginning, rfl⟩
  have last : stepBack? (encode cs) (min (encode cs).length limit) =
      some (encode (takeBytes limit cs)).length := by
    refine stepBack?_of_last boundary ?_ fun later behind within => ?_
    · exact Nat.le_min.mpr ⟨length_encode_le beginning, length_encode_takeBytes limit cs⟩
    · refine Bool.eq_false_iff.mpr fun ends => ?_
      obtain ⟨longer, fitting, rfl⟩ := isBoundary_encode_iff.mp ends
      have kept := isPrefix_takeBytes_iff.mpr ⟨fitting, (Nat.le_min.mp within).2⟩
      exact Nat.not_lt_of_le (length_encode_le kept) behind
  obtain ⟨rest, parts⟩ := beginning
  have cut : encode cs = encode (takeBytes limit cs) ++ encode rest := by
    rw [← encode_append, parts]
  rw [strictTruncate, last, Option.bind_eq_bind, Option.bind_some, front?, if_pos boundary, cut,
    List.take_left]

theorem strictTruncate_bytes (s : String) (limit : Nat) :
    strictTruncate (bytes s) limit = some (bytes (truncate s limit)) := by
  rw [bytes, strictTruncate_encode, bytes_truncate]

/-! ### The longest beginning of a text -/

structure IsLongest (s : String) (limit : Nat) (t : String) : Prop where
  beginning : ∃ rest, t ++ rest = s
  short : byteLength t ≤ limit
  boundary : isBoundary (bytes s) (byteLength t) = true
  /-- Either it is all of the text, or the next character does not fit. -/
  full : t = s ∨ ∃ c rest, t.push c ++ rest = s ∧ limit < byteLength (t.push c)

theorem isLongest_truncate (s : String) (limit : Nat) : IsLongest s limit (truncate s limit) where
  beginning := by
    obtain ⟨rest, parts⟩ := takeBytes_isPrefix limit s.toList
    refine ⟨String.ofList rest, String.toList_injective ?_⟩
    rw [String.toList_append, truncate, String.toList_ofList, String.toList_ofList, parts]
  short := byteLength_truncate_le s limit
  boundary := by
    rw [byteLength, bytes_truncate]
    exact isBoundary_encode_iff.mpr ⟨_, takeBytes_isPrefix limit s.toList, rfl⟩
  full := by
    rcases takeBytes_full limit s.toList with whole | ⟨c, rest, parts, long⟩
    · left
      rw [truncate, whole, String.ofList_toList]
    · refine .inr ⟨c, String.ofList rest, String.toList_injective ?_, ?_⟩
      · rw [String.toList_append, String.toList_push, truncate, String.toList_ofList,
          String.toList_ofList, List.append_assoc]
        exact parts
      · rw [byteLength, bytes, String.toList_push, truncate, String.toList_ofList]
        exact long

theorem IsLongest.takeBytes_isPrefix {s t : String} (h : IsLongest s limit t) :
    takeBytes limit s.toList <+: t.toList := by
  rcases h.full with rfl | ⟨c, rest, rfl, long⟩
  · exact Text.takeBytes_isPrefix limit t.toList
  · rw [byteLength, bytes, String.toList_push] at long
    have next : t.toList ++ [c] <+: (t.push c ++ rest).toList := by
      rw [String.toList_append, String.toList_push]
      exact List.prefix_append _ _
    have misfit : ¬t.toList ++ [c] <+: takeBytes limit (t.push c ++ rest).toList :=
      fun kept => Nat.not_le_of_lt long (isPrefix_takeBytes_iff.mp kept).2
    rcases List.prefix_or_prefix_of_prefix next (Text.takeBytes_isPrefix limit _) with
      longer | shorter
    · exact absurd longer misfit
    · rcases List.prefix_concat_iff.mp shorter with same | shorter
      · exact absurd (same ▸ List.prefix_rfl) misfit
      · exact shorter

theorem isLongest_iff {s t : String} : IsLongest s limit t ↔ t = truncate s limit := by
  constructor
  · intro h
    obtain ⟨rest, parts⟩ := h.beginning
    have kept : t.toList <+: takeBytes limit s.toList := by
      refine isPrefix_takeBytes_iff.mpr ⟨⟨rest.toList, ?_⟩, h.short⟩
      rw [← String.toList_append, parts]
    apply String.toList_injective
    rw [truncate, String.toList_ofList]
    exact kept.eq_of_length_le h.takeBytes_isPrefix.length_le
  · rintro rfl
    exact isLongest_truncate s limit

theorem truncate_of_short {s : String} (short : byteLength s ≤ limit) : truncate s limit = s := by
  have whole : IsLongest s limit s :=
    ⟨⟨"", String.append_empty⟩, short, isBoundary_length _, .inl rfl⟩
  exact (isLongest_iff.mp whole).symm

end DeviceTelemetry.Text
