import DeviceTelemetry.Json.Reader

/-!
# Skipping values

A value that nobody asked for is passed over. Its notation is checked, but numbers may have any
size, and codes in quoted texts need not form characters. Values may be nested to any depth.
-/

set_option autoImplicit false

namespace DeviceTelemetry.Json

/-- Passes over the characters up to the closing quote. Every step takes a character and drops
one of `bound`, which starts as the text itself. -/
def skipQuotedRest (bound cs : List Char) : Except Fault (List Char) :=
  match cs, bound with
  | [], _ => .error .ended
  | _, [] => .error .malformed
  | c :: cs, _ :: bound =>
    if c = '"' then .ok cs
    else if c = '\\' then
      match cs with
      | [] => .error .ended
      | 'u' :: cs =>
        match hexCode cs with
        | .ok (_, cs) => skipQuotedRest bound cs
        | .error e => .error e
      | c :: cs => if (plainEscape? c).isSome then skipQuotedRest bound cs else .error .malformed
    else if c.toNat < 0x20 then .error .malformed
    else skipQuotedRest bound cs

def skipQuoted : Reader Unit := fun cs => (skipQuotedRest cs cs).map ((), ·)

def skipScalar : Reader Unit := do
  match ← peek with
  | 'n' => word ['n', 'u', 'l', 'l']
  | 't' => word ['t', 'r', 'u', 'e']
  | 'f' => word ['f', 'a', 'l', 's', 'e']
  | '"' => advance; skipQuoted
  | c =>
    if c = '-' ∨ c.isDigit then discard (numeral .malformed)
    else throw .malformed

def skipName : Reader Unit := do
  let c ← peek
  if c ≠ '"' then throw .malformed
  advance
  skipQuoted
  let c ← peek
  if c ≠ ':' then throw .malformed
  advance

inductive Enclosure where
  | list
  | object
deriving DecidableEq, Repr

namespace Enclosure

def close : Enclosure → Char
  | list => ']'
  | object => '}'

def lead : Enclosure → Reader Unit
  | list => pure ()
  | object => skipName

end Enclosure

/-- Passes over an opening bracket. In an empty enclosure the closing one is passed over as well,
in any other what precedes the first value. Answers whether a value follows. -/
def skipOpening (e : Enclosure) : Reader Bool := do
  advance
  if (← peek) = e.close then
    advance
    return false
  else
    e.lead
    return true

/-- Passes over what is left of a value inside the given enclosures, in front of a value or
behind one. Every step takes a character and drops one of `bound`, which starts as the text
itself. -/
def skipRest (bound : List Char) (inFront : Bool) (around : List Enclosure) : Reader Unit :=
  match inFront, around, bound with
  | false, [], _ => pure ()
  | true, around, _ :: bound => do
    match ← peek with
    | '[' =>
      let inside ← skipOpening .list
      skipRest bound inside (if inside then .list :: around else around)
    | '{' =>
      let inside ← skipOpening .object
      skipRest bound inside (if inside then .object :: around else around)
    | _ =>
      skipScalar
      skipRest bound false around
  | false, e :: around, _ :: bound => do
    let c ← peek
    if c = ',' then
      advance
      e.lead
      skipRest bound true (e :: around)
    else if c = e.close then
      advance
      skipRest bound false around
    else throw .malformed
  | _, _, [] => discard peek

def skipValue : Reader Unit := fun cs => skipRest cs true [] cs

end DeviceTelemetry.Json
