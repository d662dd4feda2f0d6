import DeviceTelemetry.Schema.Resolution

/-!
# Catalogs

A `Catalog` is what a valid schema is resolved to, together with the fact that its vectors agree. It
is asked for metrics by key and by name, and for sessions by number and by name.
-/

set_option autoImplicit false

namespace DeviceTelemetry

structure Catalog extends Catalog.Vectors where
  consistent : toVectors.Consistent
deriving DecidableEq, Repr

namespace Catalog

def size (c : Catalog) : Nat := c.entries.size

def sessionCount (c : Catalog) : Nat := c.sessions.size

def metric? (c : Catalog) (key : Nat) : Option Entry := c.entries[key]?

/-- The key of the first metric with a given name. -/
def keyOf? (c : Catalog) (name : String) : Option Nat :=
  (c.entries.find? (·.name == name)).map (·.key.toNat)

def sessionKey? (c : Catalog) (name : String) : Option Nat :=
  (c.sessions.findIdx? (· == name)).map fun place => (sessionAt place).toNat

def sessionName? (c : Catalog) (session : Nat) : Option String := c.sessions[session]?

def sessionNumbers (c : Catalog) : List Nat :=
  (List.range c.sessionCount).map fun place => (sessionAt place).toNat

def InSession (c : Catalog) (session key : Nat) : Prop :=
  (c.metric? key).any (·.session = session) = true

instance (c : Catalog) (session key : Nat) : Decidable (c.InSession session key) :=
  inferInstanceAs (Decidable (_ = true))

/-- The keys of a session's metrics; a session that is not known has none. -/
def sessionKeys (c : Catalog) (session : Nat) : List Nat :=
  (c.sessionMetrics[session]?.getD #[]).toList.map UInt16.toNat

def durationKey? (c : Catalog) (session : Nat) : Option Nat :=
  c.sessionTimers[session]?.join.map UInt16.toNat

end Catalog

namespace Schema

def catalog (s : Schema) : Except SchemaError Catalog :=
  match resolved : s.resolve with
  | .ok v => .ok { v with consistent := consistent_of_resolve resolved }
  | .error e => .error e

def validate (s : Schema) : Except SchemaError Unit := s.catalog.map fun _ => ()

end Schema

end DeviceTelemetry
