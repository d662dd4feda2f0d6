/-!
# Documents of known shape

What is kept as JSON has a shape, which is declared once for writing and for reading. The value of a
shape is written as a `Value`, a JSON document. A record is written as an object; a field may be
left out where the declaration says so, and one with a default may be missing.

A `Library` prints documents and reads texts for such shapes.
-/

set_option autoImplicit false

namespace DeviceTelemetry.Json

inductive Fault where
  | ended
  | malformed
  /-- The text is JSON so far, but not of the shape that is expected. -/
  | unfit
deriving DecidableEq, Repr

/-- A JSON document. Its numbers are whole and fit in 64 bits. -/
inductive Value where
  | null
  | bool (b : Bool)
  | unsigned (n : UInt64)
  | signed (n : Int64)
  | text (s : String)
  | list (members : List Value)
  | object (members : List (String × Value))

def Value.nat (n : Nat) : Value := unsigned (UInt64.ofNat n)

mutual

/-- How the values of a type are written and read. -/
inductive Shape : Type → Type 1 where
  | bool : Shape Bool
  | uint32 : Shape UInt32
  | uint64 : Shape UInt64
  | int64 : Shape Int64
  | text : Shape String
  /-- A value that may be null. -/
  | optional {α : Type} (value : Shape α) : Shape (Option α)
  | list {α : Type} (member : Shape α) : Shape (List α)
  /-- One of several names. -/
  | choice {α : Type} (name : α → String) (ofName? : String → Option α) : Shape α
  | record {α τ δ : Type} (fields : Fields τ δ) (split : α → τ) (join : τ → α) : Shape α

/-- The fields of a record, in their order. The second type is that of the values read so far. -/
inductive Fields : Type → Type → Type 1 where
  | none : Fields Unit Unit
  | field {α τ δ : Type} (name : String) (value : Shape α) (default : Option α)
      (omitted : α → Bool) (others : Fields τ δ) : Fields (α × τ) (Option α × δ)

end

namespace Fields

variable {α τ δ : Type}

def required (name : String) (value : Shape α) (others : Fields τ δ) :
    Fields (α × τ) (Option α × δ) :=
  field name value .none (fun _ => false) others

/-- A field that is always written, but may be missing. -/
def withDefault (name : String) (value : Shape α) (default : α) (others : Fields τ δ) :
    Fields (α × τ) (Option α × δ) :=
  field name value (some default) (fun _ => false) others

/-- A field that is written only if it has a value. -/
def optional (name : String) (value : Shape α) (others : Fields τ δ) :
    Fields (Option α × τ) (Option (Option α) × δ) :=
  field name (.optional value) (some .none) Option.isNone others

end Fields

mutual

def Shape.document : {α : Type} → Shape α → α → Value
  | _, .bool, b => .bool b
  | _, .uint32, n => .unsigned n.toUInt64
  | _, .uint64, n => .unsigned n
  | _, .int64, n => .signed n
  | _, .text, s => .text s
  | _, .optional value, a => (a.map value.document).getD .null
  | _, .list member, as => .list (as.map member.document)
  | _, .choice name _, a => .text (name a)
  | _, .record fields split _, a => .object (fields.members (split a))

def Fields.members : {τ δ : Type} → Fields τ δ → τ → List (String × Value)
  | _, _, .none, _ => []
  | _, _, .field name value _ omitted others, (a, t) =>
    if omitted a then others.members t else (name, value.document a) :: others.members t

end

structure Library where
  /-- Reads a value of a shape from a text. -/
  read : {α : Type} → Shape α → String → Except Fault α
  /-- A document without blanks. -/
  compact : Value → String
  /-- A document on lines of its own. -/
  pretty : Value → String

end DeviceTelemetry.Json
