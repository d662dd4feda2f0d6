import DeviceTelemetry.Json.Printer
import DeviceTelemetry.Json.Reader

/-!
# Ways to write a value

A value can be written in many ways, which differ in the blanks between its parts and in how the
characters of its texts are escaped. `Written v cs` says that the characters `cs` are one of them.
Both printers write a value in such a way (`written_compactChars`, `written_prettyChars`), so what
holds of all ways holds of either.
-/

set_option autoImplicit false

namespace DeviceTelemetry.Json

def Blank (cs : List Char) : Prop := ∀ c ∈ cs, isBlank c = true

theorem blank_nil : Blank [] := List.forall_mem_nil _

/-- What stands in front of a member: a comma unless it is the first one, with blanks around. -/
inductive Lead : Bool → List Char → Prop
  | first {bs : List Char} (blank : Blank bs) : Lead true bs
  | further {bs bs' : List Char} (before : Blank bs) (behind : Blank bs') :
      Lead false (bs ++ ',' :: bs')

/-- The members from one on, up to the closing bracket and with it. -/
inductive Enclosed {α : Type} (member : α → List Char → Prop) (close : Char) :
    Bool → List α → List Char → Prop
  | close {first : Bool} {bs : List Char} (blank : Blank bs) :
      Enclosed member close first [] (bs ++ [close])
  | member {first : Bool} {a : α} {as : List α} {bs cs rest : List Char} (lead : Lead first bs)
      (here : member a cs) (further : Enclosed member close false as rest) :
      Enclosed member close first (a :: as) (bs ++ (cs ++ rest))

/-- Four hexadecimal digits of either case. -/
inductive HexCode : Nat → List Char → Prop
  | digits {a b c d : Char} {i j k l : Nat} (first : hexValue? a = some i)
      (second : hexValue? b = some j) (third : hexValue? c = some k)
      (fourth : hexValue? d = some l) :
      HexCode (4096 * i + 256 * j + 16 * k + l) [a, b, c, d]

/-- The ways to write a character of a text. -/
inductive WrittenChar : Char → List Char → Prop
  | plain {c : Char} (quote : c ≠ '"') (backslash : c ≠ '\\') (printed : ¬c.toNat < 0x20) :
      WrittenChar c [c]
  | escaped {c e : Char} (stands : plainEscape? e = some c) : WrittenChar c ['\\', e]
  | code {c : Char} {cs : List Char} (digits : HexCode c.toNat cs) :
      WrittenChar c ('\\' :: 'u' :: cs)
  | pair {c : Char} {m n : Nat} {cs cs' : List Char} (leading : isLeading m = true)
      (trailing : isTrailing n = true) (first : HexCode m cs) (second : HexCode n cs')
      (both : c.toNat = 0x10000 + 0x400 * (m - 0xD800) + (n - 0xDC00)) :
      WrittenChar c ('\\' :: 'u' :: (cs ++ '\\' :: 'u' :: cs'))

/-- The characters of a text, up to the closing quote and with it. -/
inductive Quoted : List Char → List Char → Prop
  | close : Quoted [] ['"']
  | char {c : Char} {cs chars rest : List Char} (here : WrittenChar c chars)
      (further : Quoted cs rest) : Quoted (c :: cs) (chars ++ rest)

mutual

inductive Written : Value → List Char → Prop
  | null : Written .null Value.nullChars
  | bool (b : Bool) : Written (.bool b) (Value.boolChars b)
  | unsigned (n : UInt64) : Written (.unsigned n) (Value.intChars n.toNat)
  | signed (n : Int64) : Written (.signed n) (Value.intChars n.toInt)
  | text {s : String} {cs : List Char} (chars : Quoted s.toList cs) :
      Written (.text s) ('"' :: cs)
  | list {vs : List Value} {cs : List Char} (inside : Enclosed Written ']' true vs cs) :
      Written (.list vs) ('[' :: cs)
  | object {ms : List (String × Value)} {cs : List Char}
      (inside : Enclosed WrittenMember '}' true ms cs) : Written (.object ms) ('{' :: cs)

inductive WrittenMember : String × Value → List Char → Prop
  | named {name : String} {v : Value} {quoted bs bs' cs : List Char}
      (chars : Quoted name.toList quoted) (before : Blank bs) (behind : Blank bs')
      (value : Written v cs) :
      WrittenMember (name, v) ('"' :: (quoted ++ (bs ++ ':' :: (bs' ++ cs))))

end

namespace Enclosed

variable {α : Type} {member : α → List Char → Prop} {close : Char}

/-- Every member takes a character at least: its comma, or for the first the closing bracket. -/
theorem length_le {first : Bool} {as : List α} {cs : List Char}
    (h : Enclosed member close first as cs) :
    as.length + (if first then 0 else 1) ≤ cs.length := by
  induction h with
  | close blank =>
      rw [List.length_append, List.length_singleton]
      split <;> simp
  | member lead here further ih =>
      rw [if_neg (by simp)] at ih
      rw [List.length_cons, List.length_append, List.length_append]
      cases lead with
      | first blank =>
          rw [if_pos rfl]
          omega
      | further before behind =>
          rw [if_neg (by simp), List.length_append, List.length_cons]
          omega

end Enclosed

/-! ### Printers -/

theorem hexValue?_hexChar : ∀ n < 16, hexValue? (Value.hexChar n) = some n := by decide

theorem writtenChar_control {c : Char} (control : c.toNat < 0x20) :
    WrittenChar c
      ['\\', 'u', '0', '0', Value.hexChar (c.toNat / 16), Value.hexChar (c.toNat % 16)] := by
  have zero : hexValue? '0' = some 0 := rfl
  have digits := HexCode.digits zero zero (hexValue?_hexChar (c.toNat / 16) (by omega))
    (hexValue?_hexChar (c.toNat % 16) (by omega))
  rw [show 4096 * 0 + 256 * 0 + 16 * (c.toNat / 16) + c.toNat % 16 = c.toNat by omega] at digits
  exact .code digits

theorem writtenChar_escapeChar (c : Char) : WrittenChar c (Value.escapeChar c) := by
  unfold Value.escapeChar
  split
  · rename_i same
    exact .escaped (by rw [same]; rfl)
  split
  · rename_i same
    exact .escaped (by rw [same]; rfl)
  split
  · rename_i same
    exact .escaped (by rw [same]; rfl)
  split
  · rename_i same
    exact .escaped (by rw [same]; rfl)
  split
  · rename_i same
    exact .escaped (by rw [same]; rfl)
  split
  · rename_i same
    exact .escaped (by rw [same]; rfl)
  split
  · rename_i same
    exact .escaped (by rw [same]; rfl)
  split
  · rename_i control
    exact writtenChar_control control
  · rename_i quote backslash _ _ _ _ _ printed
    exact .plain quote backslash printed

theorem quoted_flatMap (cs : List Char) : Quoted cs (cs.flatMap Value.escapeChar ++ ['"']) := by
  induction cs with
  | nil => exact .close
  | cons c cs ih =>
      rw [List.flatMap_cons, List.append_assoc]
      exact .char (writtenChar_escapeChar c) ih

theorem written_quote (s : String) : Written (.text s) (Value.quote s) :=
  .text (quoted_flatMap s.toList)

theorem written_natChars (n : UInt64) : Written (.unsigned n) (Value.natChars n.toNat) := by
  have chars : Value.intChars n.toNat = Value.natChars n.toNat := by
    rw [Value.intChars, if_neg (by omega), Int.natAbs_natCast]
  exact chars ▸ .unsigned n

/-- A name and its value with nothing in front of the colon, as both printers write them. -/
theorem writtenMember_of_gap (name : String) {v : Value} {gap cs : List Char} (blank : Blank gap)
    (value : Written v cs) :
    WrittenMember (name, v) (Value.quote name ++ ':' :: (gap ++ cs)) :=
  .named (quoted_flatMap name.toList) blank_nil blank value

theorem blank_newLine (level : Nat) : Blank (Value.newLine level) := by
  intro c member
  rcases List.mem_cons.mp member with rfl | member
  · rfl
  · rw [List.eq_of_mem_replicate member]
    rfl

mutual

theorem written_compactChars : (v : Value) → Written v v.compactChars
  | .null => .null
  | .bool b => .bool b
  | .unsigned n => written_natChars n
  | .signed n => .signed n
  | .text s => written_quote s
  | .list [] => .list (.close blank_nil)
  | .list (v :: vs) =>
      .list (.member (.first blank_nil) (written_compactChars v) (enclosed_compactList vs))
  | .object [] => .object (.close blank_nil)
  | .object ((name, v) :: ms) => by
      have member := writtenMember_of_gap name blank_nil (written_compactChars v)
      exact .object (.member (.first blank_nil) member (enclosed_compactMembers ms))

theorem enclosed_compactList :
    (vs : List Value) → Enclosed Written ']' false vs (Value.compactList vs)
  | [] => .close blank_nil
  | v :: vs =>
      .member (.further blank_nil blank_nil) (written_compactChars v) (enclosed_compactList vs)

theorem enclosed_compactMembers :
    (ms : List (String × Value)) → Enclosed WrittenMember '}' false ms (Value.compactMembers ms)
  | [] => .close blank_nil
  | (name, v) :: ms => by
      have member := writtenMember_of_gap name blank_nil (written_compactChars v)
      exact .member (.further blank_nil blank_nil) member (enclosed_compactMembers ms)

end

theorem blank_gap : Blank [' '] := by
  intro c member
  rw [List.mem_singleton.mp member]
  rfl

mutual

theorem written_prettyChars : (level : Nat) → (v : Value) → Written v (Value.prettyChars level v)
  | _, .null => .null
  | _, .bool b => .bool b
  | _, .unsigned n => written_natChars n
  | _, .signed n => .signed n
  | _, .text s => written_quote s
  | _, .list [] => .list (.close blank_nil)
  | level, .list (v :: vs) => by
      have inside := Enclosed.member (.first (blank_newLine (level + 1)))
        (written_prettyChars (level + 1) v) (enclosed_prettyList level vs)
      rw [← List.append_assoc] at inside
      exact .list inside
  | _, .object [] => .object (.close blank_nil)
  | level, .object ((name, v) :: ms) => by
      have member := writtenMember_of_gap name blank_gap (written_prettyChars (level + 1) v)
      have inside := Enclosed.member (.first (blank_newLine (level + 1))) member
        (enclosed_prettyMembers level ms)
      rw [← List.append_assoc, ← List.append_assoc] at inside
      exact .object inside

theorem enclosed_prettyList :
    (level : Nat) → (vs : List Value) → Enclosed Written ']' false vs (Value.prettyList level vs)
  | level, [] => .close (blank_newLine level)
  | level, v :: vs => by
      have inside := Enclosed.member (.further blank_nil (blank_newLine (level + 1)))
        (written_prettyChars (level + 1) v) (enclosed_prettyList level vs)
      rw [← List.append_assoc] at inside
      exact inside

theorem enclosed_prettyMembers : (level : Nat) → (ms : List (String × Value)) →
    Enclosed WrittenMember '}' false ms (Value.prettyMembers level ms)
  | level, [] => .close (blank_newLine level)
  | level, (name, v) :: ms => by
      have member := writtenMember_of_gap name blank_gap (written_prettyChars (level + 1) v)
      have inside := Enclosed.member (.further blank_nil (blank_newLine (level + 1))) member
        (enclosed_prettyMembers level ms)
      rw [← List.append_assoc, ← List.append_assoc] at inside
      exact inside

end

theorem written_compact (v : Value) : Written v v.compact.toList := by
  rw [Value.compact, String.toList_ofList]
  exact written_compactChars v

theorem written_pretty (v : Value) : Written v v.pretty.toList := by
  rw [Value.pretty, String.toList_ofList]
  exact written_prettyChars 0 v

end DeviceTelemetry.Json
