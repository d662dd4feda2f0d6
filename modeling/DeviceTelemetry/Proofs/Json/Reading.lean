import DeviceTelemetry.Json.Standard
import DeviceTelemetry.Proofs.Json.Taking
import DeviceTelemetry.Proofs.Json.Writing

/-!
# Reading what is written

`Reads r v a` says that the reader `r` takes `a` from every way to write the value `v`, whatever
follows as long as it does not go on with a number. There is one lemma for each kind of reader;
those for lists and records are told by what their members are.
-/

set_option autoImplicit false

namespace DeviceTelemetry.Json

/-- What follows does not go on with a number. -/
def Stops (cs : List Char) : Prop :=
  ∀ c ∈ cs.head?, c.isDigit = false ∧ c ≠ '.' ∧ c ≠ 'e' ∧ c ≠ 'E'

/-- From every way to write `v`, blanks in front included, the reader takes `a`. -/
def Reads {α : Type} (r : Reader α) (v : Value) (a : α) : Prop :=
  ∀ bs cs rest, Blank bs → Written v cs → Stops rest → r (bs ++ (cs ++ rest)) = .ok (a, rest)

theorem bind_of_ok {α β : Type} {r : Reader α} {f : α → Reader β} {a : α} {cs cs' : List Char}
    (read : r cs = .ok (a, cs')) : (r >>= f) cs = f a cs' := by
  show (r cs >>= fun p => f p.1 p.2) = _
  rw [read]
  rfl

/-! ### Blanks and first characters -/

theorem dropWhile_isBlank {bs : List Char} (blank : Blank bs) {c : Char} {cs : List Char}
    (visible : isBlank c = false) : (bs ++ c :: cs).dropWhile isBlank = c :: cs := by
  rw [List.dropWhile_append_of_pos blank, List.dropWhile_cons_of_neg (by rw [visible]; simp)]

theorem peek_of_blank {bs : List Char} (blank : Blank bs) {c : Char} {cs : List Char}
    (visible : isBlank c = false) : peek (bs ++ c :: cs) = .ok (c, c :: cs) := by
  have found : peek? (bs ++ c :: cs) = .ok (some c, c :: cs) := by
    rw [peek?, dropWhile_isBlank blank visible]
    rfl
  rw [peek, bind_of_ok found]
  rfl

theorem stops_nil : Stops [] := nofun

theorem stops_cons {c : Char} (other : c.isDigit = false ∧ c ≠ '.' ∧ c ≠ 'e' ∧ c ≠ 'E')
    (cs : List Char) : Stops (c :: cs) := by
  intro c' first
  obtain rfl : c = c' := Option.some.inj first
  exact other

theorem stops_blank {bs : List Char} (blank : Blank bs) {c : Char} {cs : List Char}
    (stop : Stops (c :: cs)) : Stops (bs ++ c :: cs) := by
  cases bs with
  | nil => exact stop
  | cons b bs =>
      intro c' first
      obtain rfl : b = c' := Option.some.inj first
      have here := blank b List.mem_cons_self
      rw [isBlank, Bool.or_eq_true, Bool.or_eq_true, Bool.or_eq_true, decide_eq_true_iff,
        decide_eq_true_iff, decide_eq_true_iff, decide_eq_true_iff] at here
      rcases here with ((rfl | rfl) | rfl) | rfl <;> decide

theorem Enclosed.stops {α : Type} {member : α → List Char → Prop} {close : Char} {as : List α}
    {cs : List Char} (h : Enclosed member close false as cs) (ends : Stops [close])
    (rest : List Char) : Stops (cs ++ rest) := by
  cases h with
  | close blank =>
      rw [List.append_assoc]
      exact stops_blank blank ends
  | member lead here further =>
      cases lead with
      | further before behind =>
          rw [List.append_assoc, List.append_assoc]
          exact stops_blank before (stops_cons (by decide) _)

def isNumeric (c : Char) : Bool := c = '-' || c.isDigit

theorem exists_intChars (n : Int) : ∃ c cs, Value.intChars n = c :: cs ∧ isNumeric c = true := by
  unfold Value.intChars Value.natChars
  split
  · exact ⟨'-', _, rfl, rfl⟩
  · cases digits : Nat.toDigits 10 n.natAbs with
    | nil => exact absurd digits Nat.toDigits_ne_nil
    | cons c cs =>
        have digit : c.isDigit = true :=
          Nat.isDigit_of_mem_toDigits (b := 10) (by decide) (by decide) (by rw [digits]; simp)
        exact ⟨c, cs, rfl, by rw [isNumeric, digit, Bool.or_true]⟩

theorem ne_of_isNumeric {c d : Char} (numeric : isNumeric c = true) (other : isNumeric d = false) :
    c ≠ d := by
  rintro rfl
  rw [numeric] at other
  cases other

theorem isBlank_of_isNumeric {c : Char} (numeric : isNumeric c = true) : isBlank c = false := by
  simp only [isBlank, Bool.or_eq_false_iff, decide_eq_false_iff_not]
  exact ⟨⟨⟨ne_of_isNumeric numeric rfl, ne_of_isNumeric numeric rfl⟩,
    ne_of_isNumeric numeric rfl⟩, ne_of_isNumeric numeric rfl⟩

/-- No value begins like a blank or a closing bracket, and only null like the word null. -/
theorem Written.exists_cons {v : Value} {cs : List Char} (h : Written v cs) :
    ∃ c cs', cs = c :: cs' ∧ isBlank c = false ∧ c ≠ ']' ∧ (v ≠ .null → c ≠ 'n') := by
  have whole (n : Int) : ∃ c cs', Value.intChars n = c :: cs' ∧ isBlank c = false ∧ c ≠ ']' ∧
      (v ≠ .null → c ≠ 'n') := by
    obtain ⟨c, cs', same, numeric⟩ := exists_intChars n
    exact ⟨c, cs', same, isBlank_of_isNumeric numeric, ne_of_isNumeric numeric rfl,
      fun _ => ne_of_isNumeric numeric rfl⟩
  cases h with
  | null => exact ⟨_, _, rfl, by decide, by decide, fun other => absurd rfl other⟩
  | bool b => cases b <;> exact ⟨_, _, rfl, by decide, by decide, fun _ => by decide⟩
  | unsigned n => exact whole n.toNat
  | signed n => exact whole n.toInt
  | text chars => exact ⟨'"', _, rfl, by decide, by decide, fun _ => by decide⟩
  | list inside => exact ⟨'[', _, rfl, by decide, by decide, fun _ => by decide⟩
  | object inside => exact ⟨'{', _, rfl, by decide, by decide, fun _ => by decide⟩

/-! ### Words -/

theorem word_append (cs rest : List Char) : word cs (cs ++ rest) = .ok ((), rest) := by
  induction cs with
  | nil => rfl
  | cons c cs ih =>
      rw [List.cons_append, word, if_pos rfl]
      exact ih

theorem reads_bool (b : Bool) : Reads bool (.bool b) b := by
  intro bs cs rest blank written _
  cases written
  cases b with
  | true =>
      have read : word ['t', 'r', 'u', 'e'] ('t' :: 'r' :: 'u' :: 'e' :: rest) = .ok ((), rest) :=
        word_append _ rest
      show bool (bs ++ 't' :: 'r' :: 'u' :: 'e' :: rest) = _
      rw [bool, bind_of_ok (peek_of_blank blank rfl)]
      exact bind_of_ok read
  | false =>
      have read : word ['f', 'a', 'l', 's', 'e'] ('f' :: 'a' :: 'l' :: 's' :: 'e' :: rest) =
          .ok ((), rest) := word_append _ rest
      show bool (bs ++ 'f' :: 'a' :: 'l' :: 's' :: 'e' :: rest) = _
      rw [bool, bind_of_ok (peek_of_blank blank rfl)]
      exact bind_of_ok read

/-! ### Texts -/

theorem hexCode_of_digits {n : Nat} {cs : List Char} (h : HexCode n cs) (rest : List Char) :
    hexCode (cs ++ rest) = .ok (n, rest) := by
  cases h with
  | @digits a b c d i j k l first second third fourth =>
      have enough : ¬(Text.encode ((a :: b :: c :: d :: rest).take 4)).length < 4 := by
        simp only [List.take, Text.length_encode_cons]
        have := a.utf8Size_pos
        have := b.utf8Size_pos
        have := c.utf8Size_pos
        have := d.utf8Size_pos
        omega
      show hexCode (a :: b :: c :: d :: rest) = _
      rw [hexCode, if_neg enough]
      simp only [first, second, third, fourth]

/-- No character has the code of one of the two that stand for one. -/
theorem isTrailing_toNat (c : Char) : isTrailing c.toNat = false ∧ isLeading c.toNat = false := by
  have valid : c.toNat < 0xD800 ∨ 0xDFFF < c.toNat ∧ c.toNat < 0x110000 := c.valid
  simp only [isTrailing, isLeading, Bool.and_eq_false_iff, decide_eq_false_iff_not]
  omega

theorem unicodeEscape_of_code {c : Char} {cs : List Char} (h : HexCode c.toNat cs)
    (rest : List Char) : unicodeEscape (cs ++ rest) = .ok (c, rest) := by
  obtain ⟨trailing, leading⟩ := isTrailing_toNat c
  rw [unicodeEscape, bind_of_ok (hexCode_of_digits h rest)]
  simp only [trailing, leading]
  rw [Char.ofNat_toNat]
  rfl

theorem unicodeEscape_of_pair {c : Char} {m n : Nat} {cs cs' : List Char}
    (leading : isLeading m = true) (trailing : isTrailing n = true) (first : HexCode m cs)
    (second : HexCode n cs') (both : c.toNat = 0x10000 + 0x400 * (m - 0xD800) + (n - 0xDC00))
    (rest : List Char) :
    unicodeEscape (cs ++ '\\' :: 'u' :: (cs' ++ rest)) = .ok (c, rest) := by
  have single : isTrailing m = false := by
    simp only [isLeading, Bool.and_eq_true, decide_eq_true_iff] at leading
    simp only [isTrailing, Bool.and_eq_false_iff, decide_eq_false_iff_not]
    omega
  rw [unicodeEscape, bind_of_ok (hexCode_of_digits first _)]
  simp only [single, leading]
  refine (bind_of_ok (word_append ['\\', 'u'] (cs' ++ rest))).trans ?_
  refine (bind_of_ok (hexCode_of_digits second rest)).trans ?_
  simp only [trailing]
  rw [← both, Char.ofNat_toNat]
  rfl

theorem quotedRest_of_written {c : Char} {cs : List Char} (h : WrittenChar c cs) (b : Char)
    (bound done rest : List Char) :
    quotedRest (b :: bound) done (cs ++ rest) = quotedRest bound (c :: done) rest := by
  -- behind a backslash stands what the escape reader takes for `c`
  have behind (e : Char) (es : List Char) (read : escape (e :: es) = .ok (c, rest)) :
      quotedRest (b :: bound) done ('\\' :: e :: es) = quotedRest bound (c :: done) rest := by
    rw [quotedRest, if_neg (by decide), if_pos rfl, read]
  cases h with
  | plain quote backslash printed =>
      show quotedRest (b :: bound) done (c :: rest) = _
      rw [quotedRest, if_neg quote, if_neg backslash, if_neg printed]
  | @escaped e stands =>
      refine behind e rest ?_
      unfold escape
      split
      · rename_i none
        cases none
      · rename_i unicode
        obtain ⟨rfl, -⟩ := List.cons.inj unicode
        cases stands
      · rename_i here
        obtain ⟨rfl, rfl⟩ := List.cons.inj here
        rw [stands]
  | code digits => exact behind 'u' _ (unicodeEscape_of_code digits rest)
  | @pair m n cs cs' leading trailing first second both =>
      have read := unicodeEscape_of_pair leading trailing first second both rest
      rw [List.cons_append, List.cons_append, List.append_assoc]
      exact behind 'u' _ read

theorem WrittenChar.length_pos {c : Char} {cs : List Char} (h : WrittenChar c cs) :
    0 < cs.length := by
  cases h <;> exact Nat.succ_pos _

theorem Quoted.length_lt {cs chars : List Char} (h : Quoted cs chars) :
    cs.length < chars.length := by
  induction h with
  | close => exact Nat.succ_pos 0
  | char here further ih =>
      have := here.length_pos
      rw [List.length_append, List.length_cons]
      omega

theorem quotedRest_of_quoted {cs chars : List Char} (h : Quoted cs chars) {bound : List Char}
    (enough : cs.length < bound.length) (done rest : List Char) :
    quotedRest bound done (chars ++ rest) = .ok (String.ofList (done.reverse ++ cs), rest) := by
  induction h generalizing bound done with
  | close =>
      cases bound with
      | nil => cases enough
      | cons b bound =>
          rw [List.append_nil]
          exact if_pos rfl
  | @char c cs chars rest' here further ih =>
      cases bound with
      | nil => cases enough
      | cons b bound =>
          rw [List.append_assoc, quotedRest_of_written here, ih (Nat.lt_of_succ_lt_succ enough),
            List.reverse_cons, List.append_assoc, List.singleton_append]

theorem quoted_of_quoted {s : String} {chars : List Char} (h : Quoted s.toList chars)
    (rest : List Char) : quoted (chars ++ rest) = .ok (s, rest) := by
  have enough : s.toList.length < (chars ++ rest).length := by
    have := h.length_lt
    rw [List.length_append]
    omega
  rw [quoted, quotedRest_of_quoted h enough, List.reverse_nil, List.nil_append,
    String.ofList_toList]

theorem reads_text (s : String) : Reads text (.text s) s := by
  intro bs cs rest blank written _
  cases written with
  | text chars =>
      rw [List.cons_append, text, bind_of_ok (peek_of_blank blank rfl), if_pos rfl]
      exact (bind_of_ok rfl).trans (quoted_of_quoted chars rest)

/-! ### Numbers -/

theorem isDigit_of_mem_natChars {n : Nat} {c : Char} (member : c ∈ Value.natChars n) :
    c.isDigit = true :=
  Nat.isDigit_of_mem_toDigits (by decide) (by decide) member

/-- Only zero begins with a zero. -/
theorem eq_zero_of_natChars {n : Nat} {cs : List Char} (zero : Value.natChars n = '0' :: cs) :
    n = 0 := by
  unfold Value.natChars at zero
  induction n using Nat.strongRecOn generalizing cs with
  | ind n ih =>
      by_cases small : n < 10
      · rw [Nat.toDigits_of_lt_base small] at zero
        exact Nat.digitChar_eq_zero.mp (List.cons.inj zero).1
      · rw [Nat.toDigits_of_base_le (by decide) (by omega)] at zero
        cases leading : Nat.toDigits 10 (n / 10) with
        | nil => exact absurd leading Nat.toDigits_ne_nil
        | cons d ds =>
            rw [leading] at zero
            obtain ⟨rfl, -⟩ := List.cons.inj zero
            have := ih (n / 10) (by omega) leading
            omega

theorem ofDigits_natChars (n : Nat) : ofDigits (Value.natChars n) = n := by
  have whole := Nat.ofDigitChars_ten_toDigits (n := n)
  rw [Nat.ofDigitChars_eq_foldl] at whole
  exact whole

theorem digits_natChars (n : Nat) {rest : List Char} (stop : Stops rest) (atEnd : Fault) :
    digits atEnd (Value.natChars n ++ rest) = .ok (Value.natChars n, rest) := by
  have all : ∀ c ∈ Value.natChars n, c.isDigit = true := fun c => isDigit_of_mem_natChars
  have ended : rest.takeWhile Char.isDigit = [] ∧ rest.dropWhile Char.isDigit = rest := by
    cases rest with
    | nil => exact ⟨rfl, rfl⟩
    | cons c rest =>
        have other : ¬c.isDigit = true := by
          rw [(stop c rfl).1]
          decide
        exact ⟨List.takeWhile_cons_of_neg other, List.dropWhile_cons_of_neg other⟩
  have cut : (Value.natChars n ++ rest).takeWhile Char.isDigit = Value.natChars n ∧
      (Value.natChars n ++ rest).dropWhile Char.isDigit = rest := by
    rw [List.takeWhile_append_of_pos all, List.dropWhile_append_of_pos all, ended.1, ended.2,
      List.append_nil]
    exact ⟨rfl, rfl⟩
  cases chars : Value.natChars n with
  | nil => exact absurd chars Nat.toDigits_ne_nil
  | cons c cs =>
      rw [chars] at all cut
      rw [List.cons_append] at cut ⊢
      rw [digits, if_pos (all c List.mem_cons_self), cut.1, cut.2]

theorem wholeDigits_natChars (n : Nat) {rest : List Char} (stop : Stops rest) (atEnd : Fault) :
    wholeDigits atEnd (Value.natChars n ++ rest) = .ok (Value.natChars n, rest) := by
  have read := digits_natChars n stop atEnd
  unfold wholeDigits
  split
  · -- a zero with something behind it is the number zero
    rename_i c cs same
    cases chars : Value.natChars n with
    | nil => exact absurd chars Nat.toDigits_ne_nil
    | cons d ds =>
        rw [chars, List.cons_append] at same
        obtain ⟨rfl, behind⟩ := List.cons.inj same
        obtain rfl := eq_zero_of_natChars chars
        obtain rfl : ds = [] := (List.cons.inj chars).2.symm
        obtain rfl : rest = c :: cs := behind
        rw [if_neg (by rw [(stop c rfl).1]; decide)]
  · exact read

theorem fractionPart_of_stops {rest : List Char} (stop : Stops rest) (atEnd : Fault) :
    fractionPart atEnd rest = .ok (none, rest) := by
  unfold fractionPart
  split
  · exact absurd rfl (stop '.' rfl).2.1
  · rfl

theorem exponentPart_of_stops {rest : List Char} (stop : Stops rest) (atEnd : Fault) :
    exponentPart atEnd rest = .ok (none, rest) := by
  cases rest with
  | nil => rfl
  | cons c rest =>
      obtain ⟨-, -, lower, upper⟩ := stop c rfl
      exact if_neg (not_or_intro lower upper)

theorem numeral_intChars (n : Int) {rest : List Char} (stop : Stops rest) (atEnd : Fault) :
    numeral atEnd (Value.intChars n ++ rest) =
      .ok (⟨decide (n < 0), Value.natChars n.natAbs, none, none⟩, rest) := by
  have whole := wholeDigits_natChars n.natAbs stop atEnd
  unfold numeral
  refine (bind_of_ok
    (?sign : _ = Except.ok (decide (n < 0), Value.natChars n.natAbs ++ rest))).trans ?_
  case sign =>
    by_cases negative : n < 0
    · rw [Value.intChars, if_pos negative, decide_eq_true negative]
      rfl
    · rw [Value.intChars, if_neg negative, decide_eq_false negative]
      cases chars : Value.natChars n.natAbs with
      | nil => exact absurd chars Nat.toDigits_ne_nil
      | cons c cs =>
          have digit : c.isDigit = true := isDigit_of_mem_natChars (by rw [chars]; simp)
          split
          · rename_i same
            obtain ⟨rfl, -⟩ := List.cons.inj same
            cases digit
          · rfl
  rw [bind_of_ok whole, bind_of_ok (fractionPart_of_stops stop atEnd),
    bind_of_ok (exponentPart_of_stops stop atEnd)]
  rfl

def InWords (n : Int) : Prop := -0x8000000000000000 ≤ n ∧ n ≤ maxWord

theorem number_intChars {n : Int} (fits : InWords n) {rest : List Char} (stop : Stops rest) :
    number (Value.intChars n ++ rest) = .ok (.whole n, rest) := by
  obtain ⟨low, high⟩ := fits
  unfold maxWord at high
  rw [number, bind_of_ok (numeral_intChars n stop .ended)]
  have value : Numeral.value ⟨decide (n < 0), Value.natChars n.natAbs, none, none⟩ =
      .ok (.whole n) := by
    unfold Numeral.value
    simp only [ofDigits_natChars, Option.isNone_none, Bool.true_and]
    rw [if_pos (by unfold maxWord; rw [decide_eq_true_iff]; omega)]
    by_cases negative : n < 0
    · rw [decide_eq_true negative, if_neg (by decide), if_pos (by omega)]
      congr 2
      omega
    · rw [decide_eq_false negative, if_pos (by decide)]
      congr 2
      omega
  rw [value]
  rfl

theorem Written.eq_intChars {v : Value} {cs : List Char} {n : Int} (h : Written v cs)
    (whole : v.whole? = some n) : cs = Value.intChars n ∧ InWords n := by
  unfold InWords maxWord
  cases h with
  | unsigned m =>
      obtain rfl : (m.toNat : Int) = n := Option.some.inj whole
      have := m.toNat_lt
      exact ⟨rfl, by omega⟩
  | signed m =>
      obtain rfl : m.toInt = n := Option.some.inj whole
      have := m.le_toInt
      have := m.toInt_lt
      exact ⟨rfl, by omega⟩
  | _ => cases whole

theorem reads_integer {lo hi n : Int} {v : Value} (whole : v.whole? = some n)
    (within : lo ≤ n ∧ n ≤ hi) : Reads (integer lo hi) v n := by
  intro bs cs rest blank written stop
  obtain ⟨rfl, fits⟩ := written.eq_intChars whole
  obtain ⟨c, cs', chars, numeric⟩ := exists_intChars n
  have visible := isBlank_of_isNumeric numeric
  have read := number_intChars fits stop
  rw [chars, List.cons_append] at read
  rw [chars, List.cons_append, integer, bind_of_ok (peek_of_blank blank visible)]
  rw [if_pos (by simpa [isNumeric] using numeric), bind_of_ok read]
  exact congrFun (if_pos within) rest

theorem Reads.bind_pure {α β : Type} {r : Reader α} {v : Value} {a : α} {f : α → β}
    (h : Reads r v a) : Reads (do return f (← r)) v (f a) := by
  intro bs cs rest blank written stop
  exact bind_of_ok (h bs cs rest blank written stop)

theorem reads_uint32 {v : Value} {n : UInt32} (whole : v.whole? = some (n.toNat : Int)) :
    Reads uint32 v n := by
  have range := n.toNat_lt
  have read : Reads (integer 0 0xFFFFFFFF) v n.toNat := reads_integer whole (by omega)
  have back := read.bind_pure (f := fun m => UInt32.ofNat m.toNat)
  rw [Int.toNat_natCast, UInt32.ofNat_toNat] at back
  exact back

theorem reads_uint64 {v : Value} {n : UInt64} (whole : v.whole? = some (n.toNat : Int)) :
    Reads uint64 v n := by
  have range := n.toNat_lt
  have read : Reads (integer 0 maxWord) v n.toNat :=
    reads_integer whole (by unfold maxWord; omega)
  have back := read.bind_pure (f := fun m => UInt64.ofNat m.toNat)
  rw [Int.toNat_natCast, UInt64.ofNat_toNat] at back
  exact back

theorem reads_int64 {v : Value} {n : Int64} (whole : v.whole? = some n.toInt) :
    Reads int64 v n := by
  have low := n.le_toInt
  have high := n.toInt_lt
  have read : Reads (integer Int64.minValue.toInt Int64.maxValue.toInt) v n.toInt :=
    reads_integer whole (by rw [Int64.toInt_minValue, Int64.toInt_maxValue]; omega)
  have back := read.bind_pure (f := Int64.ofInt)
  rw [Int64.ofInt_toInt] at back
  exact back

end DeviceTelemetry.Json
