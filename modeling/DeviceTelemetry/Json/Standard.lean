import DeviceTelemetry.Json.Printer
import DeviceTelemetry.Json.Skip

/-!
# A JSON library

Readers for the shapes that values can have, and with them and the printers a library
(`Json.standard`). Members of an object may come in any order, and unknown ones are skipped. A
record may also be written as a list of its fields in their order, of which those with a default
may be left out at the end.
-/

set_option autoImplicit false

namespace DeviceTelemetry.Json

/-- Refuses a value of the wrong kind. Words, numbers and texts are read first, so that a problem
in their notation comes before the wrong kind. -/
def refuse {α : Type} : Reader α := do
  match ← peek with
  | 'n' => word ['n', 'u', 'l', 'l']; throw .unfit
  | 't' => word ['t', 'r', 'u', 'e']; throw .unfit
  | 'f' => word ['f', 'a', 'l', 's', 'e']; throw .unfit
  | '"' => advance; discard quoted; throw .unfit
  | '[' => throw .unfit
  | '{' => throw .unfit
  | c =>
    if c = '-' ∨ c.isDigit then
      discard number
      throw .unfit
    else throw .malformed

def bool : Reader Bool := do
  match ← peek with
  | 't' => word ['t', 'r', 'u', 'e']; return true
  | 'f' => word ['f', 'a', 'l', 's', 'e']; return false
  | _ => refuse

def integer (lo hi : Int) : Reader Int := do
  let c ← peek
  if c = '-' ∨ c.isDigit then
    match ← number with
    | .whole n => if lo ≤ n ∧ n ≤ hi then return n else throw .unfit
    | .other => throw .unfit
  else refuse

def uint32 : Reader UInt32 := do return UInt32.ofNat (← integer 0 0xFFFFFFFF).toNat

def uint64 : Reader UInt64 := do return UInt64.ofNat (← integer 0 maxWord).toNat

def int64 : Reader Int64 := do
  return Int64.ofInt (← integer Int64.minValue.toInt Int64.maxValue.toInt)

def text : Reader String := do
  if (← peek) = '"' then
    advance
    quoted
  else refuse

def optional {α : Type} (value : Reader α) : Reader (Option α) := do
  if (← peek) = 'n' then
    word ['n', 'u', 'l', 'l']
    return none
  else return some (← value)

/-- Whether a list has a further member, past the comma in front of it. The closing bracket is
left in place. -/
def furtherMember (first : Bool) : Reader Bool := do
  let c ← peek
  if c = ']' then return false
  if first then return true
  if c ≠ ',' then throw .malformed
  advance
  if (← peek) = ']' then throw .malformed
  return true

/-- The members of a list from the present place on, behind those already done. Every member takes
a character and drops one of `bound`, which starts as the text itself. -/
def listRest {α : Type} (member : Reader α) (bound : List Char) (first : Bool) (done : List α) :
    Reader (List α) := do
  if ← furtherMember first then
    match bound with
    | [] => throw .malformed
    | _ :: bound => listRest member bound false ((← member) :: done)
  else
    advance
    return done.reverse

def list {α : Type} (member : Reader α) : Reader (List α) := do
  if (← peek) = '[' then
    advance
    listRest member (← get) true []
  else refuse

/-- One field of a record that is read into drafts of type `δ`. -/
structure Field (δ : Type) where
  name : String
  present : δ → Bool
  read : δ → Reader δ
  absent : δ → Option δ

def Field.first {α δ : Type} (name : String) (value : Reader α) (default : Option α) :
    Field (Option α × δ) where
  name := name
  present draft := draft.1.isSome
  read draft := do return (some (← value), draft.2)
  absent draft := default.map fun a => (some a, draft.2)

def Field.behind {α δ : Type} (f : Field δ) : Field (Option α × δ) where
  name := f.name
  present draft := f.present draft.2
  read draft := do return (draft.1, ← f.read draft.2)
  absent draft := (f.absent draft.2).map (draft.1, ·)

def colon : Reader Unit := do
  if (← peek) = ':' then advance else throw .malformed

/-- Reads the member whose name has just been read. A field must not come twice. -/
def readMember {δ : Type} (fields : List (Field δ)) (name : String) (draft : δ) : Reader δ := do
  match fields.find? (·.name == name) with
  | some f =>
    if f.present draft then throw .unfit
    colon
    f.read draft
  | none =>
    colon
    skipValue
    return draft

/-- Whether an object has a further member, past the comma and the opening quote in front of it.
The closing brace is left in place. -/
def furtherName (first : Bool) : Reader Bool := do
  let c ← peek
  if c = '}' then return false
  let mut c := c
  if !first then
    if c ≠ ',' then throw .malformed
    advance
    c ← peek
  if c ≠ '"' then throw .malformed
  advance
  return true

/-- The members of an object from the present place on. Every member takes a character and drops
one of `bound`, which starts as the text itself. -/
def membersRest {δ : Type} (fields : List (Field δ)) (bound : List Char) (first : Bool)
    (draft : δ) : Reader δ := do
  if ← furtherName first then
    match bound with
    | [] => throw .malformed
    | _ :: bound =>
      let name ← quoted
      membersRest fields bound false (← readMember fields name draft)
  else return draft

def fieldsRest {δ : Type} : List (Field δ) → Bool → δ → Reader δ
  | [], _, draft => return draft
  | f :: fields, first, draft => do
    if ← furtherMember first then fieldsRest fields false (← f.read draft)
    else
      match f.absent draft with
      | some draft => fieldsRest fields first draft
      | none => throw .unfit

def record {α δ : Type} (fields : List (Field δ)) (empty : δ) (complete : δ → Option α) :
    Reader α := do
  let c ← peek
  if c = '{' then
    advance
    let draft ← membersRest fields (← get) true empty
    match complete draft with
    | some a => advance; return a
    | none => throw .unfit
  else if c = '[' then
    advance
    let draft ← fieldsRest fields true empty
    match complete draft with
    | none => throw .unfit
    | some a =>
      if (← peek) = ']' then
        advance
        return a
      else throw .malformed
  else refuse

/-- One of several names, written as a text or as an object whose only member has that name and
is null. -/
def choice {α : Type} (ofName? : String → Option α) : Reader α := do
  match ← peek with
  | '"' =>
    advance
    match ofName? (← quoted) with
    | some a => return a
    | none => throw .unfit
  | '{' =>
    advance
    if (← peek) ≠ '"' then throw .malformed
    advance
    match ofName? (← quoted) with
    | none => throw .unfit
    | some a =>
      colon
      if (← peek) ≠ 'n' then refuse
      word ['n', 'u', 'l', 'l']
      if (← peek) ≠ '}' then throw .malformed
      advance
      return a
  | _ => throw .malformed

/-! ### Shapes -/

def Fields.empty : {τ δ : Type} → Fields τ δ → δ
  | _, _, .none => ()
  | _, _, .field _ _ _ _ others => (Option.none, others.empty)

def Fields.complete : {τ δ : Type} → Fields τ δ → δ → Option τ
  | _, _, .none, _ => some ()
  | _, _, .field _ _ default _ others, (a, draft) => do
    return (← a.or default, ← others.complete draft)

mutual

def Shape.reader : {α : Type} → Shape α → Reader α
  | _, .bool => Json.bool
  | _, .uint32 => Json.uint32
  | _, .uint64 => Json.uint64
  | _, .int64 => Json.int64
  | _, .text => Json.text
  | _, .optional value => Json.optional value.reader
  | _, .list member => Json.list member.reader
  | _, .choice _ ofName? => Json.choice ofName?
  | _, .record fields _ join =>
    Json.record fields.readers fields.empty fun draft => (fields.complete draft).map join

def Fields.readers : {τ δ : Type} → Fields τ δ → List (Field δ)
  | _, _, .none => []
  | _, _, .field name value default _ others =>
    Field.first name value.reader default :: others.readers.map Field.behind

end

/-- The value of a whole text, behind which nothing but blanks may stand. -/
def readAll {α : Type} (value : Reader α) (s : String) : Except Fault α :=
  match value s.toList with
  | .error e => .error e
  | .ok (a, cs) => if (cs.dropWhile isBlank).isEmpty then .ok a else .error .malformed

def standard : Library where
  read shape text := readAll shape.reader text
  compact := Value.compact
  pretty := Value.pretty

end DeviceTelemetry.Json
