import DeviceTelemetry.Json.Shape
import DeviceTelemetry.Text

/-!
# Reading JSON

A `Reader` takes a value from the beginning of a text. What is expected is known beforehand, so a
text is refused at its first problem in reading order, be it in the notation or in the kind of a
value. `Fault` tells the two apart, and a text that merely ends too early from both.

This file reads the parts of which values are made: words, numbers and quoted texts.
-/

set_option autoImplicit false

namespace DeviceTelemetry.Json

/-- Takes a value from the beginning of a text. -/
abbrev Reader (α : Type) := StateT (List Char) (Except Fault) α

def isBlank (c : Char) : Bool := c = ' ' || c = '\n' || c = '\t' || c = '\r'

def peek? : Reader (Option Char) := fun cs =>
  let rest := cs.dropWhile isBlank
  .ok (rest.head?, rest)

def peek : Reader Char := do
  match ← peek? with
  | some c => return c
  | none => throw .ended

def advance : Reader Unit := fun cs => .ok ((), cs.tail)

def word : List Char → Reader Unit
  | [], cs => .ok ((), cs)
  | _ :: _, [] => .error .ended
  | e :: es, c :: cs => if c = e then word es cs else .error .malformed

/-! ### Numbers -/

/-- A number as far as it matters here. -/
inductive Number where
  /-- A whole number, written without fraction and exponent, that fits 64 bits. -/
  | whole (n : Int)
  | other
deriving DecidableEq, Repr

structure Numeral where
  negative : Bool
  digits : List Char
  fraction : Option (List Char)
  exponent : Option (Bool × List Char)
deriving DecidableEq, Repr

def digitValue (c : Char) : Nat := c.toNat - 48

def ofDigits (cs : List Char) : Nat := cs.foldl (fun n c => 10 * n + digitValue c) 0

/-- One or more digits. The second argument is the fault if the text ends instead. -/
def digits (atEnd : Fault) : Reader (List Char) := fun cs =>
  match cs with
  | [] => .error atEnd
  | c :: _ =>
    if c.isDigit then .ok (cs.takeWhile Char.isDigit, cs.dropWhile Char.isDigit)
    else .error .malformed

def wholeDigits (atEnd : Fault) : Reader (List Char) := fun cs =>
  match cs with
  | '0' :: c :: cs => if c.isDigit then .error .malformed else .ok (['0'], c :: cs)
  | cs => digits atEnd cs

def fractionPart (atEnd : Fault) : Reader (Option (List Char)) := fun cs =>
  match cs with
  | '.' :: cs => (digits atEnd cs).map fun (ds, cs) => (some ds, cs)
  | cs => .ok (none, cs)

def exponentPart (atEnd : Fault) : Reader (Option (Bool × List Char)) := fun cs =>
  match cs with
  | c :: cs =>
    if c = 'e' ∨ c = 'E' then
      match cs with
      | '-' :: cs => (digits atEnd cs).map fun (ds, cs) => (some (true, ds), cs)
      | '+' :: cs => (digits atEnd cs).map fun (ds, cs) => (some (false, ds), cs)
      | cs => (digits atEnd cs).map fun (ds, cs) => (some (false, ds), cs)
    else .ok (none, c :: cs)
  | cs => .ok (none, cs)

/-- The notation of a number. The argument is the fault if the text ends within it. -/
def numeral (atEnd : Fault) : Reader Numeral := do
  let negative ← fun cs =>
    match cs with
    | '-' :: cs => .ok (true, cs)
    | cs => .ok (false, cs)
  let digits ← wholeDigits atEnd
  let fraction ← fractionPart atEnd
  let exponent ← exponentPart atEnd
  return { negative, digits, fraction, exponent }

def maxWord : Nat := 0xFFFFFFFFFFFFFFFF

/-- Takes digits into a 64-bit number as long as they fit; returns the number and how many digits
are left over. -/
def significand (n : Nat) : List Char → Nat × Nat
  | [] => (n, 0)
  | c :: cs =>
    let n' := 10 * n + digitValue c
    if n' ≤ maxWord then significand n' cs else (n, cs.length + 1)

/-- Whether the value of a numeral with fraction, exponent or too many digits is beyond the
largest double: 64 bits of its digits, times a power of ten, both as doubles. -/
def Numeral.isInfinite (m : Numeral) : Bool :=
  let (n, left) := significand 0 m.digits
  let fraction := m.fraction.getD []
  let (n, leftBehind) := significand n fraction
  let shift : Int := left - (fraction.length - leftBehind : Nat)
  let exponent : Int :=
    match m.exponent with
    | none => shift
    | some (true, ds) => shift - ofDigits ds
    | some (false, ds) => shift + ofDigits ds
  n ≠ 0 && (exponent > 308 ||
    (exponent ≥ 0 && (Float.ofNat n * Float.ofScientific 1 false exponent.toNat).isInf))

/-- The value of a numeral. A minus sign in front of zero makes it a fraction's kind of zero. -/
def Numeral.value (m : Numeral) : Except Fault Number :=
  let n := ofDigits m.digits
  if m.fraction.isNone && m.exponent.isNone && n ≤ maxWord then
    if !m.negative then .ok (.whole n)
    else if 0 < n ∧ n ≤ 0x8000000000000000 then .ok (.whole (-n))
    else .ok .other
  else if m.isInfinite then .error .malformed
  else .ok .other

def number : Reader Number := do
  (← numeral .ended).value

/-! ### Texts -/

def hexValue? (c : Char) : Option Nat :=
  if c.isDigit then some (c.toNat - 48)
  else if 'a' ≤ c ∧ c ≤ 'f' then some (c.toNat - 87)
  else if 'A' ≤ c ∧ c ≤ 'F' then some (c.toNat - 55)
  else none

/-- Four hexadecimal digits. The text ends too early if fewer than four bytes are left. -/
def hexCode : Reader Nat := fun cs =>
  if (Text.encode (cs.take 4)).length < 4 then .error .ended
  else
    match cs with
    | a :: b :: c :: d :: cs =>
      match hexValue? a, hexValue? b, hexValue? c, hexValue? d with
      | some a, some b, some c, some d => .ok (4096 * a + 256 * b + 16 * c + d, cs)
      | _, _, _, _ => .error .malformed
    | _ => .error .malformed

/-- Whether a code is the first of the two that stand for one character. -/
def isLeading (n : Nat) : Bool := 0xD800 ≤ n && n ≤ 0xDBFF

def isTrailing (n : Nat) : Bool := 0xDC00 ≤ n && n ≤ 0xDFFF

/-- The character behind a backslash and a `u`: one code, or two if the first is a leading one. -/
def unicodeEscape : Reader Char := do
  let n ← hexCode
  if isTrailing n then throw .malformed
  if !isLeading n then return Char.ofNat n
  word ['\\', 'u']
  let m ← hexCode
  if !isTrailing m then throw .malformed
  return Char.ofNat (0x10000 + 0x400 * (n - 0xD800) + (m - 0xDC00))

def plainEscape? : Char → Option Char
  | '"' => some '"'
  | '\\' => some '\\'
  | '/' => some '/'
  | 'b' => some '\x08'
  | 'f' => some '\x0c'
  | 'n' => some '\n'
  | 'r' => some '\r'
  | 't' => some '\t'
  | _ => none

def escape : Reader Char := fun cs =>
  match cs with
  | [] => .error .ended
  | 'u' :: cs => unicodeEscape cs
  | c :: cs =>
    match plainEscape? c with
    | some c => .ok (c, cs)
    | none => .error .malformed

/-- The characters up to the closing quote, behind those already done. Every step takes a
character and drops one of `bound`, which starts as the text itself. -/
def quotedRest (bound done cs : List Char) : Except Fault (String × List Char) :=
  match cs, bound with
  | [], _ => .error .ended
  | _, [] => .error .malformed
  | c :: cs, _ :: bound =>
    if c = '"' then .ok (String.ofList done.reverse, cs)
    else if c = '\\' then
      match escape cs with
      | .ok (c, cs) => quotedRest bound (c :: done) cs
      | .error e => .error e
    else if c.toNat < 0x20 then .error .malformed
    else quotedRest bound (c :: done) cs

def quoted : Reader String := fun cs => quotedRest cs [] cs

end DeviceTelemetry.Json
