import DeviceTelemetry.Proofs.Agent.BootSuccess
import DeviceTelemetry.Proofs.CatalogIndex
import DeviceTelemetry.Proofs.EventFormat

/-!
# Schemas that grow

When metrics and sessions are appended to a schema and groups of built-in metrics are enabled or
disabled, no declared metric changes its key, its declaration, its session or its place among the
values that are written for its session (`appended_metrics_keep_places`). The place of a metric is
the number of metrics of its session in front of it, and in front of a declared metric stand only
declared ones.
-/

set_option autoImplicit false

namespace DeviceTelemetry

open Catalog (Entry heartbeatName)
open Event (Written)

/-- Whenever the session is written, the value at this place is what the metric shows, and so it is
in what is recorded. -/
structure Catalog.WritesAt (c : Catalog) (key session place : Nat) : Prop where
  items : ∀ (calls : List Table.Call) (device : Device),
    let t := ((Table.ofCatalog c).performAll calls).2
    ∃ values reading, t.value key = .ok reading ∧ values[place]? = some reading.item ∧
      (t.sessionEvent session).items device = Event.header device 1 ++
        [.mapHead 1, .unsigned (UInt64.ofNat session), .arrayHead values.length] ++ values
  recorded : ∀ (calls : List Table.Call) (device : Device) (payload : Bytes),
    let t := ((Table.ofCatalog c).performAll calls).2
    Written device (t.sessionEvent session) payload →
      ∃ elements v, elements[place]? = some v ∧ t.Shows key v ∧
        Cbor.decode payload =
          some (Event.document device 1 (.map [(.unsigned session, .array elements)]))

/-- The metric that `d` declares has this key and is the entry `e`, and its value has this place
among those of its session. -/
structure Catalog.Places (c : Catalog) (d : MetricDef) (key : Nat) (e : Entry) (place : Nat) :
    Prop where
  metric : c.metric? key = some e
  declares : c.Declares d e
  keyOf : c.keyOf? d.name = some key
  listed : (c.sessionKeys e.session)[place]? = some key
  writes : c.WritesAt key e.session place

/-! ### Places -/

namespace Catalog

/-- How many metrics of the session are in front of the key. -/
def place (c : Catalog) (session key : Nat) : Nat :=
  ((List.range key).filter (c.InSession session)).length

theorem sessionKeys_place {c : Catalog} {key : Nat} {e : Entry} (found : c.metric? key = some e) :
    (c.sessionKeys e.session)[c.place e.session key]? = some key := by
  obtain ⟨later, split, -⟩ := exists_sessionKeys_eq found
  rw [split, place, List.getElem?_append_right (Nat.le_refl _), Nat.sub_self]
  rfl

theorem place_congr {c c' : Catalog} {key : Nat} (session : Nat)
    (same : ∀ key' < key, c'.metric? key' = c.metric? key') :
    c'.place session key = c.place session key := by
  refine congrArg List.length (List.filter_congr fun key' front => ?_)
  rw [decide_eq_decide, InSession, InSession, same key' (List.mem_range.mp front)]

theorem writesAt {schema : Schema} {c : Catalog} (resolved : schema.catalog = .ok c)
    {session place key : Nat} (known : session < c.sessionCount)
    (here : (c.sessionKeys session)[place]? = some key) : c.WritesAt key session place := by
  have catalog (calls : List Table.Call) :
      ((Table.ofCatalog c).performAll calls).2.catalog = c :=
    (Table.follows_performAll (Table.ofCatalog c) calls).catalog
  have fits (calls : List Table.Call) : ((Table.ofCatalog c).performAll calls).2.Fits :=
    Table.fits_performAll c calls
  constructor
  · intro calls device t
    have readings := (fits calls).forall₂_readings session
    rw [catalog calls] at readings
    obtain ⟨reading, read, e, slot, -, found, -, rfl⟩ := exists_getElem?_of_forall₂ readings here
    refine ⟨(t.sessionReadings session).map Reading.item, slot.reading, Table.value_of_slot found,
      ?_, ?_⟩
    · rw [List.getElem?_map, read]
      rfl
    · rw [List.length_map, List.append_assoc]
      rfl
  · intro calls device payload t written
    have shown := (fits calls).forall₂_shows session
    rw [catalog calls] at shown
    obtain ⟨v, element, shows⟩ := exists_getElem?_of_forall₂ shown here
    exact ⟨_, v, element, shows,
      written.decode ((fits calls).inRange (Schema.session_lt resolved known))⟩

end Catalog

namespace Schema

variable {s s' : Schema} {c c' : Catalog} {sessions sessions' : List String} {d : MetricDef}
  {e : Entry} {key : Nat}

theorem places (valid : s.catalog = .ok c) (declared : s.metrics[key]? = some d)
    (found : c.metric? key = some e) : c.Places d key e (c.place e.session key) := by
  obtain ⟨e', found', ok⟩ := metric?_declared valid declared
  obtain rfl := Option.some.inj (found.symm.trans found')
  have listed := Catalog.sessionKeys_place found
  exact ⟨found, declares_of_entry valid ok, keyOf?_declared valid declared, listed,
    Catalog.writesAt valid (Catalog.session_lt found) listed⟩

/-! ### Growth -/

theorem sessionOf_of_prefix (grown : sessions <+: sessions') {owner : UInt8}
    (ok : sessionOf sessions d = .ok owner) : sessionOf sessions' d = .ok owner := by
  refine sessionOf_eq_ok.mpr ((sessionOf_eq_ok.mp ok).imp_right ?_)
  rintro ⟨name, place, owned, found, rfl⟩
  exact ⟨name, place, owned, grown.findIdx?_eq_some found, rfl⟩

theorem entry_of_prefix {word : UInt16} (grown : sessions <+: sessions')
    (ok : entry sessions word d = .ok e) : entry sessions' word d = .ok e := by
  obtain ⟨name, range, owner, maxLength, number, limit, rfl⟩ := entry_eq_ok.mp ok
  exact entry_eq_ok.mpr
    ⟨name, range, owner, maxLength, sessionOf_of_prefix grown number, limit, rfl⟩

/-- A metric that both schemas declare at one place is the same in both catalogs. -/
theorem metric?_of_prefix (valid : s.catalog = .ok c) (valid' : s'.catalog = .ok c')
    (grown : s.sessions <+: s'.sessions) (declared : s.metrics[key]? = some d)
    (declared' : s'.metrics[key]? = some d) :
    ∃ e, c.metric? key = some e ∧ c'.metric? key = some e := by
  obtain ⟨e, found, ok⟩ := metric?_declared valid declared
  obtain ⟨e', found', ok'⟩ := metric?_declared valid' declared'
  have kept := entry_of_prefix (List.cons_prefix_cons.mpr ⟨rfl, grown⟩) ok
  obtain rfl := Except.ok.inj (kept.symm.trans ok')
  exact ⟨e, found, found'⟩

theorem exists_places {common : List MetricDef} (valid : s.catalog = .ok c)
    (valid' : s'.catalog = .ok c') (sessions : s.sessions <+: s'.sessions)
    (metrics : common <+: s.metrics) (metrics' : common <+: s'.metrics)
    (declared : common[key]? = some d) :
    ∃ e place, c.Places d key e place ∧ c'.Places d key e place := by
  have both (key : Nat) (d : MetricDef) (declared : common[key]? = some d) :
      s.metrics[key]? = some d ∧ s'.metrics[key]? = some d := by
    obtain ⟨within, rfl⟩ := List.getElem?_eq_some_iff.mp declared
    exact ⟨List.prefix_iff_getElem?.mp metrics key within,
      List.prefix_iff_getElem?.mp metrics' key within⟩
  obtain ⟨here, here'⟩ := both key d declared
  obtain ⟨e, found, found'⟩ := metric?_of_prefix valid valid' sessions here here'
  have same (key' : Nat) (front : key' < key) : c'.metric? key' = c.metric? key' := by
    have within := Nat.lt_trans front (List.getElem?_eq_some_iff.mp declared).1
    obtain ⟨before, before'⟩ := both key' _ (List.getElem?_eq_getElem within)
    obtain ⟨e, found, found'⟩ := metric?_of_prefix valid valid' sessions before before'
    exact found'.trans found.symm
  refine ⟨e, c.place e.session key, places valid here found, ?_⟩
  rw [← Catalog.place_congr e.session same]
  exact places valid' here' found'

end Schema

/-- When metrics and sessions are appended to the schema of a configuration, and groups of built-in
metrics are enabled or disabled, every metric that was declared keeps its key, its declaration, its
session and its place among the values that are written for the session. -/
theorem appended_metrics_keep_places {configuration configuration' : Configuration} {c c' : Catalog}
    (valid : configuration.catalog = .ok c) (valid' : configuration'.catalog = .ok c')
    (metrics : configuration.schema.metrics <+: configuration'.schema.metrics)
    (sessions : configuration.schema.sessions <+: configuration'.schema.sessions) {key : Nat}
    {d : MetricDef} (declared : configuration.schema.metrics[key]? = some d) :
    ∃ e place, c.Places d key e place ∧ c'.Places d key e place :=
  Schema.exists_places (Configuration.catalog_eq_ok valid) (Configuration.catalog_eq_ok valid')
    sessions (List.prefix_append _ _) (metrics.trans (List.prefix_append _ _)) declared

/-- An old session gets another metric, a session is added, and other groups are enabled. -/
theorem appended_metrics_keep_places_among_built_in :
    let schema : Schema := {
      sessions := ["run"]
      metrics := [(MetricDef.unsigned "laps").inSession "run", .signed "drift",
        (MetricDef.timer "busy").inSession "run"] }
    let schema' : Schema := {
      sessions := schema.sessions ++ ["trip"]
      metrics := schema.metrics ++ [(MetricDef.text "state" 8).inSession "run",
        (MetricDef.unsigned "far").inSession "trip"] }
    let configuration : Configuration := { device := {}, schema, builtins := { battery := true } }
    let configuration' : Configuration :=
      { device := { serial := "7" }, schema := schema', builtins := { connectivity := true } }
    ∃ c c', configuration.catalog = .ok c ∧ configuration'.catalog = .ok c' ∧
      c.sessionKeys 1 = [0, 2, 6] ∧ c'.sessionKeys 1 = [0, 2, 3, 7] ∧
      ∃ e place, c.Places ((MetricDef.timer "busy").inSession "run") 2 e place ∧
        c'.Places ((MetricDef.timer "busy").inSession "run") 2 e place := by
  intro schema schema' configuration configuration'
  have effective : configuration.effectiveSchema.catalog = .ok _ := rfl
  have effective' : configuration'.effectiveSchema.catalog = .ok _ := rfl
  have resolved := Configuration.catalog_of_effectiveSchema (by decide) effective
  have resolved' := Configuration.catalog_of_effectiveSchema (by decide) effective'
  exact ⟨_, _, resolved, resolved', by decide, by decide,
    appended_metrics_keep_places resolved resolved' ⟨_, rfl⟩ ⟨_, rfl⟩ rfl⟩

end DeviceTelemetry
