import DeviceTelemetry.Agent.Basic
import DeviceTelemetry.Proofs.CatalogNames

/-!
# When an agent boots

An agent boots exactly if its configuration has a catalog and its storage has a byte
(`exists_boot_iff`): the metrics of the enabled groups are declared along with the others, so none
of them is missing.
-/

set_option autoImplicit false

namespace DeviceTelemetry

theorem BuiltinGroups.mem_metrics {g : BuiltinGroups} {group : BuiltinGroup}
    (enabled : g.enabled group = true) {d : MetricDef} (member : d ∈ metricsOf group) :
    d ∈ g.metrics := by
  have listed : group ∈ [BuiltinGroup.connectivity, .sync, .reliability, .battery] := by
    cases group <;> decide
  exact List.mem_flatMap.mpr ⟨group, List.mem_filter.mpr ⟨listed, enabled⟩, member⟩

namespace Collectors

theorem exists_whenEnabled {α : Type} {enabled : Bool} {value : Except SchemaError α}
    (found : enabled = true → ∃ x, value = .ok x) : ∃ x, whenEnabled enabled value = .ok x := by
  cases enabled with
  | false => exact ⟨none, rfl⟩
  | true =>
      obtain ⟨x, rfl⟩ := found rfl
      exact ⟨some x, rfl⟩

theorem exists_key {configuration : Configuration} {c : Catalog}
    (valid : configuration.effectiveSchema.catalog = .ok c) {group : BuiltinGroup}
    (enabled : configuration.builtins.enabled group = true) {d : MetricDef}
    (member : d ∈ BuiltinGroups.metricsOf group) : ∃ key, Collectors.key c d.name = .ok key := by
  have declared : d ∈ configuration.effectiveSchema.metrics :=
    List.mem_append_right _ (BuiltinGroups.mem_metrics enabled member)
  obtain ⟨key, here⟩ := List.mem_iff_getElem?.mp declared
  exact ⟨key, by rw [Collectors.key, Schema.keyOf?_declared valid here]⟩

theorem exists_ofCatalog {configuration : Configuration} {c : Catalog}
    (valid : configuration.effectiveSchema.catalog = .ok c) (now : UInt64) :
    ∃ collectors, ofCatalog configuration.builtins c now = .ok collectors := by
  have found (group : BuiltinGroup) (on : configuration.builtins.enabled group = true)
      {d : MetricDef} (member : d ∈ BuiltinGroups.metricsOf group) :
      ∃ key, Collectors.key c d.name = .ok key := exists_key valid on member
  unfold ofCatalog
  refine exists_bind_ok (exists_whenEnabled fun on => ?connectivity) fun _ =>
    exists_bind_ok (exists_whenEnabled fun on => ?sync) fun _ =>
      exists_bind_ok (exists_whenEnabled fun on => ?reliability) fun _ =>
        exists_bind_ok (exists_whenEnabled fun on => ?battery) fun _ => ⟨_, rfl⟩
  case connectivity =>
    exact exists_bind_ok (found .connectivity on (.head _)) fun _ =>
      exists_bind_ok (found .connectivity on (.tail _ (.head _))) fun _ => ⟨_, rfl⟩
  case sync =>
    exact exists_bind_ok (found .sync on (.head _)) fun _ =>
      exists_bind_ok (found .sync on (.tail _ (.head _))) fun _ => ⟨_, rfl⟩
  case reliability =>
    exact exists_bind_ok (found .reliability on (.head _)) fun _ =>
      exists_bind_ok (found .reliability on (.tail _ (.head _))) fun _ => ⟨_, rfl⟩
  case battery =>
    exact exists_bind_ok (found .battery on (.head _)) fun _ =>
      exists_bind_ok (found .battery on (.tail _ (.head _))) fun _ =>
        exists_bind_ok (found .battery on (.tail _ (.tail _ (.head _)))) fun _ => ⟨_, rfl⟩

end Collectors

theorem RecordStore.exists_ofCapacity_iff {ν : Type} {capacity : Nat} :
    (∃ s : RecordStore ν, ofCapacity capacity = .ok s) ↔ 0 < capacity := by
  unfold ofCapacity Ring.ofCapacity
  split
  · rename_i positive
    exact iff_of_true ⟨_, rfl⟩ positive
  · rename_i empty
    exact iff_of_false nofun empty

theorem Configuration.catalog_eq_ok {configuration : Configuration} {c : Catalog}
    (valid : configuration.catalog = .ok c) : configuration.effectiveSchema.catalog = .ok c := by
  unfold catalog at valid
  split at valid
  · cases valid
  · exact mapError_eq_ok.mp valid

theorem Configuration.catalog_of_effectiveSchema {configuration : Configuration} {c : Catalog}
    (positive : configuration.heartbeatInterval ≠ 0)
    (valid : configuration.effectiveSchema.catalog = .ok c) : configuration.catalog = .ok c := by
  rw [catalog, if_neg positive]
  exact mapError_eq_ok.mpr valid

theorem Agent.exists_boot_iff {ν : Type} {configuration : Configuration} {capacity : Nat}
    {platform : Platform} :
    (∃ a : Agent ν, boot configuration capacity platform = .ok a) ↔
      (∃ c, configuration.catalog = .ok c) ∧ 0 < capacity := by
  constructor
  · rintro ⟨a, booted⟩
    unfold boot at booted
    obtain ⟨c, resolved, booted⟩ := bind_eq_ok.mp booted
    obtain ⟨collectors, -, booted⟩ := bind_eq_ok.mp booted
    obtain ⟨s, made, -⟩ := bind_eq_ok.mp booted
    exact ⟨⟨c, resolved⟩, RecordStore.exists_ofCapacity_iff.mp ⟨s, mapError_eq_ok.mp made⟩⟩
  · rintro ⟨⟨c, resolved⟩, positive⟩
    obtain ⟨collectors, found⟩ := Collectors.exists_ofCatalog
      (Configuration.catalog_eq_ok resolved) platform.clock
    obtain ⟨s, made⟩ := RecordStore.exists_ofCapacity_iff (ν := ν).mpr positive
    unfold boot
    exact ⟨_, bind_eq_ok.mpr ⟨c, resolved, bind_eq_ok.mpr ⟨collectors, mapError_eq_ok.mpr found,
      bind_eq_ok.mpr ⟨s, mapError_eq_ok.mpr made, rfl⟩⟩⟩⟩

end DeviceTelemetry
