import DeviceTelemetry.Json.Shape

/-!
# Schemas

A `Schema` declares metrics and the sessions that they belong to. It is what a device's owner
writes, as JSON; `DeviceTelemetry.Catalog` is what comes of it once it is found valid.
-/

set_option autoImplicit false

namespace DeviceTelemetry

inductive MetricKind where
  | unsigned
  | signed
  /-- A time in milliseconds that can be started and stopped. -/
  | timer
  | text
deriving DecidableEq, Repr

namespace MetricKind

def name : MetricKind → String
  | unsigned => "unsigned"
  | signed => "signed"
  | timer => "timer"
  | text => "string"

def title : MetricKind → String
  | unsigned => "Unsigned"
  | signed => "Signed"
  | timer => "Timer"
  | text => "String"

def all : List MetricKind := [unsigned, signed, timer, text]

def ofName? (s : String) : Option MetricKind := all.find? (·.name == s)

theorem ofName?_name (k : MetricKind) : ofName? k.name = some k := by
  cases k <;> decide

end MetricKind

structure MetricDef where
  name : String
  kind : MetricKind
  min : Option Int64 := none
  max : Option Int64 := none
  maxLength : Option UInt64 := none
  /-- The session to which the metric belongs, or `none` for the heartbeat. -/
  session : Option String := none
deriving DecidableEq, Repr

namespace MetricDef

def unsigned (name : String) : MetricDef := { name := name, kind := .unsigned }

def signed (name : String) : MetricDef := { name := name, kind := .signed }

def timer (name : String) : MetricDef := { name := name, kind := .timer }

def text (name : String) (maxLength : UInt64) : MetricDef :=
  { name := name, kind := .text, maxLength := some maxLength }

def withRange (d : MetricDef) (min max : Int64) : MetricDef :=
  { d with min := some min, max := some max }

def inSession (d : MetricDef) (session : String) : MetricDef :=
  { d with session := some session }

end MetricDef

structure Schema where
  sessions : List String := []
  metrics : List MetricDef := []
deriving DecidableEq, Repr

inductive SchemaError where
  | empty
  | duplicateMetric (name : String)
  | duplicateSession (name : String)
  | unknownSession (metric session : String)
  | invalidRange (metric : String) (min max : Int64)
  | stringTooLong (metric : String) (maxLength : Nat)
  | tooManyMetrics (count : Nat)
  | tooManySessions (count : Nat)
  | invalidName (name : String)
  | missingBuiltin (name : String)
deriving DecidableEq, Repr

def SchemaError.message : SchemaError → String
  | empty => "at least one metric must be declared"
  | duplicateMetric name => s!"duplicate metric name '{name}'"
  | duplicateSession name => s!"duplicate session name '{name}'"
  | unknownSession metric session =>
    s!"metric '{metric}' references unknown session '{session}'"
  | invalidRange metric min max =>
    s!"metric '{metric}' has invalid range {min.toInt}..={max.toInt}"
  | stringTooLong metric maxLength =>
    s!"string metric '{metric}' has invalid max length {maxLength}"
  | tooManyMetrics count => s!"too many metrics: {count}"
  | tooManySessions count => s!"too many sessions: {count}"
  | invalidName name => s!"invalid name '{name}'"
  | missingBuiltin name => s!"built-in metric '{name}' is not declared"

/-! ### As JSON -/

open Json (Library Shape)

def MetricKind.shape : Shape MetricKind := .choice name ofName?

/-- Fields that a metric does not have are left out when it is written, and may be null or left
out when it is read. -/
def MetricDef.shape : Shape MetricDef :=
  .record
    (.required "name" .text <|
      .required "type" MetricKind.shape <|
      .optional "min" .int64 <|
      .optional "max" .int64 <|
      .optional "max_length" .uint64 <|
      .optional "session" .text .none)
    (fun d => (d.name, d.kind, d.min, d.max, d.maxLength, d.session, ()))
    (fun (name, kind, min, max, maxLength, session, _) =>
      { name, kind, min, max, maxLength, session })

namespace Schema

/-- A session is a record of its name alone. -/
def sessionShape : Shape String :=
  .record (.required "name" .text .none) (fun name => (name, ())) Prod.fst

def shape : Shape Schema :=
  .record
    (.withDefault "sessions" (.list sessionShape) [] <|
      .required "metrics" (.list MetricDef.shape) .none)
    (fun s => (s.sessions, s.metrics, ()))
    (fun (sessions, metrics, _) => { sessions, metrics })

def ofText (library : Library) (text : String) : Except Json.Fault Schema :=
  library.read shape text

def toText (library : Library) (s : Schema) : String := library.compact (shape.document s)

end Schema

end DeviceTelemetry
