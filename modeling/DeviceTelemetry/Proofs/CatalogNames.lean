import Mathlib.Data.List.Nodup
import DeviceTelemetry.Proofs.CatalogLaws
import Std.Data.TreeSet.Lemmas

/-!
# Names in a catalog

No two metrics of a catalog have the same name (`Schema.names_nodup`), so the key that is found for
a name is the key of the metric with that name (`Schema.keyOf?_eq_some_iff`).
-/

set_option autoImplicit false

namespace DeviceTelemetry.Schema

open Catalog (Entry)

theorem firstRepeated_eq_none {seen : Std.TreeSet String} {names : List String}
    (unique : firstRepeated seen names = none) : (∀ name ∈ names, name ∉ seen) ∧ names.Nodup := by
  induction names generalizing seen with
  | nil => exact ⟨nofun, List.nodup_nil⟩
  | cons name names ih =>
      rw [firstRepeated] at unique
      split at unique
      · cases unique
      · rename_i new
        obtain ⟨unseen, rest⟩ := ih unique
        have other (later : String) (member : later ∈ names) : name ≠ later ∧ later ∉ seen := by
          have absent := unseen later member
          rw [Std.TreeSet.mem_insert, not_or] at absent
          exact ⟨fun same => absent.1 (Std.LawfulEqCmp.compare_eq_iff_eq.mpr same), absent.2⟩
        refine ⟨?_, List.nodup_cons.mpr ⟨fun again => (other name again).1 rfl, rest⟩⟩
        intro name' member
        rcases List.mem_cons.mp member with rfl | later
        · exact new
        · exact (other name' later).2

theorem names_nodup {s : Schema} {c : Catalog} (valid : s.catalog = .ok c) :
    (c.entries.toList.map Entry.name).Nodup := by
  obtain ⟨declared, checked⟩ := exists_checked valid
  rw [checked.entries]
  exact (firstRepeated_eq_none checked.unique).2

/-- Where no value comes twice, a value is found at its place. -/
theorem findIdx?_eq_some_iff_of_nodup {α β : Type} [BEq β] [LawfulBEq β] {xs : Array α} {f : α → β}
    (unique : (xs.toList.map f).Nodup) {b : β} {i : Nat} :
    xs.findIdx? (f · == b) = some i ↔ xs[i]?.map f = some b := by
  rw [Array.findIdx?_eq_some_iff_getElem]
  constructor
  · rintro ⟨inside, here, -⟩
    rw [Array.getElem?_eq_getElem inside]
    exact congrArg some (eq_of_beq here)
  · intro here
    obtain ⟨a, found, rfl⟩ := Option.map_eq_some_iff.mp here
    obtain ⟨inside, rfl⟩ := Array.getElem?_eq_some_iff.mp found
    refine ⟨inside, beq_self_eq_true _, fun j before same => ?_⟩
    have within : j < (xs.toList.map f).length := by
      rw [List.length_map, Array.length_toList]
      exact Nat.lt_trans before inside
    have twice : (xs.toList.map f)[j]? = (xs.toList.map f)[i]? := by
      rw [List.getElem?_map, List.getElem?_map, Array.getElem?_toList, Array.getElem?_toList,
        Array.getElem?_eq_getElem (Nat.lt_trans before inside), found]
      exact congrArg some (eq_of_beq same)
    exact absurd ((List.getElem?_inj within unique).mp twice) (Nat.ne_of_lt before)

/-- The search through a list, which can be evaluated. -/
theorem keyOf?_eq_findIdx? (c : Catalog) (name : String) :
    c.keyOf? name = c.entries.toList.findIdx? (·.name == name) := by
  rw [Catalog.keyOf?_eq, List.findIdx?_toArray]

theorem keyOf?_eq_some_iff {s : Schema} {c : Catalog} (valid : s.catalog = .ok c) {name : String}
    {key : Nat} : c.keyOf? name = some key ↔ ∃ e, c.metric? key = some e ∧ e.name = name := by
  rw [Catalog.keyOf?_eq]
  exact (findIdx?_eq_some_iff_of_nodup (names_nodup valid)).trans Option.map_eq_some_iff

theorem keyOf?_declared {s : Schema} {c : Catalog} (valid : s.catalog = .ok c) {key : Nat}
    {d : MetricDef} (declared : s.metrics[key]? = some d) : c.keyOf? d.name = some key := by
  obtain ⟨e, here, ok⟩ := metric?_declared valid declared
  obtain ⟨-, -, owner, maxLength, -, -, rfl⟩ := entry_eq_ok.mp ok
  exact (keyOf?_eq_some_iff valid).mpr ⟨_, here, rfl⟩

theorem metric?_of_keyOf? {s : Schema} {c : Catalog} (valid : s.catalog = .ok c) {d : MetricDef}
    (declared : d ∈ s.metrics) {key : Nat} (found : c.keyOf? d.name = some key) :
    ∃ e, c.metric? key = some e ∧ e.name = d.name ∧ e.kind = d.kind ∧
      (d.session = none → e.session = Catalog.heartbeat) := by
  obtain ⟨place, here⟩ := List.mem_iff_getElem?.mp declared
  obtain rfl := Option.some.inj ((keyOf?_declared valid here).symm.trans found)
  obtain ⟨e, entry, ok⟩ := metric?_declared valid here
  obtain ⟨-, -, owner, maxLength, number, -, rfl⟩ := entry_eq_ok.mp ok
  refine ⟨_, entry, rfl, rfl, ?_⟩
  intro ofHeartbeat
  rcases sessionOf_eq_ok.mp number with ⟨-, rfl⟩ | ⟨name, place, owned, -⟩
  · rfl
  · cases ofHeartbeat.symm.trans owned

end DeviceTelemetry.Schema
