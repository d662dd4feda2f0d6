import DeviceTelemetry.Configuration
import DeviceTelemetry.Proofs.Json.Conformance

/-!
# Documents are read back

Nothing is lost when a configuration or a schema is written (`Configuration.lossless_shape`,
`Schema.lossless_shape`). So whatever conforming library prints and reads them, a configuration
that is valid survives being written and read, and every schema does (`documents_survive_text`).
-/

set_option autoImplicit false

namespace DeviceTelemetry

open Json (Fields Library)

theorem BuiltinGroups.lossless_shape : BuiltinGroups.shape.Lossless := by
  refine ⟨by decide, ?_, fun _ => rfl⟩
  refine Fields.lossless_withDefault trivial ?_
  refine Fields.lossless_withDefault trivial ?_
  refine Fields.lossless_withDefault trivial ?_
  exact Fields.lossless_withDefault trivial trivial

theorem MetricDef.lossless_shape : MetricDef.shape.Lossless := by
  refine ⟨by decide, ?_, fun _ => rfl⟩
  refine Fields.lossless_required trivial ?_
  refine Fields.lossless_required MetricKind.ofName?_name ?_
  refine Fields.lossless_optional trivial nofun ?_
  refine Fields.lossless_optional trivial nofun ?_
  refine Fields.lossless_optional trivial nofun ?_
  exact Fields.lossless_optional trivial nofun trivial

theorem Schema.lossless_sessionShape : Schema.sessionShape.Lossless :=
  ⟨by decide, Fields.lossless_required trivial trivial, fun _ => rfl⟩

theorem Schema.lossless_shape : Schema.shape.Lossless := by
  refine ⟨by decide, ?_, fun _ => rfl⟩
  refine Fields.lossless_withDefault Schema.lossless_sessionShape ?_
  exact Fields.lossless_required MetricDef.lossless_shape trivial

theorem Device.lossless_shape : Device.shape.Lossless := by
  refine ⟨by decide, ?_, fun _ => rfl⟩
  refine Fields.lossless_required trivial ?_
  refine Fields.lossless_required trivial ?_
  refine Fields.lossless_required trivial ?_
  exact Fields.lossless_required trivial trivial

theorem Configuration.lossless_shape : Configuration.shape.Lossless := by
  refine ⟨by decide, ?_, fun _ => rfl⟩
  refine Fields.lossless_required Device.lossless_shape ?_
  refine Fields.lossless_withDefault trivial ?_
  refine Fields.lossless_required Schema.lossless_shape ?_
  refine Fields.lossless_withDefault BuiltinGroups.lossless_shape ?_
  exact Fields.lossless_optional trivial nofun trivial

/-- What a shape loses nothing of is read back from what a conforming library writes. -/
theorem Json.Library.Conforms.read_document {library : Library} (conforms : library.Conforms)
    {α : Type} {shape : Json.Shape α} (lossless : shape.Lossless) (shallow : shape.depth < 128)
    (a : α) :
    library.read shape (library.compact (shape.document a)) = .ok a ∧
      library.read shape (library.pretty (shape.document a)) = .ok a := by
  have stands := shape.takes_document lossless a
  exact ⟨conforms.read shallow stands (conforms.compact _),
    conforms.read shallow stands (conforms.pretty _)⟩

/-- A valid configuration is the same after it has been written and read, and so is every
schema. -/
theorem documents_survive_text {library : Library} (conforms : library.Conforms)
    (c : Configuration) (s : Schema) :
    (c.validate = .ok () → Configuration.ofText library (c.toText library) = .ok c) ∧
      Schema.ofText library (s.toText library) = .ok s := by
  constructor
  · intro valid
    have read : library.read Configuration.shape (c.toText library) = .ok c :=
      (conforms.read_document Configuration.lossless_shape (by decide) c).2
    rw [Configuration.ofText, Configuration.ofFileText, read]
    show (c.validate >>= fun _ => pure c) = _
    rw [valid]
    rfl
  · exact (conforms.read_document Schema.lossless_shape (by decide) s).1

/-- The device's names hold characters that are escaped and some of four bytes, and the numbers are
the largest and the smallest that there are. -/
theorem documents_survive_text_around :
    let s : Schema := ⟨["ride"], [⟨"count", .signed, some Int64.minValue, some Int64.maxValue,
      some 18446744073709551615, some "ride"⟩, .text "note" 255]⟩
    let c : Configuration :=
      { device := ⟨"\"\\/", "\x01\t\n\x7f", "é\u2028𝄞", ""⟩, heartbeatInterval := 4294967295,
        schema := s, builtins := { battery := true }, batchLimit := some 0 }
    c.validate = .ok () ∧
      Configuration.ofText Json.standard (c.toText Json.standard) = .ok c ∧
      Schema.ofText Json.standard (s.toText Json.standard) = .ok s := by
  intro s c
  have valid : c.validate = .ok () := by rfl
  exact ⟨valid, (documents_survive_text Json.standard_conforms c s).1 valid,
    (documents_survive_text Json.standard_conforms c s).2⟩

end DeviceTelemetry
