import DeviceTelemetry.Proofs.Agent.Collecting
import DeviceTelemetry.Proofs.Agent.Invariant
import DeviceTelemetry.Proofs.TableFrames
import DeviceTelemetry.Proofs.Truncation

/-!
# Reading texts into buffers

A text is cut twice on its way into a buffer: at the limit of its metric when it is set, and at the
end of the buffer when it is read. `texts_are_cut_between_characters` says what arrives: the longest
beginning of whole characters within both, with the rest of the buffer as it was.
-/

set_option autoImplicit false

namespace DeviceTelemetry

open Text (byteLength bytes truncate)

namespace Table

variable {t : Table} {key : Nat}

theorem Fits.exists_text (fits : t.Fits) {e : Catalog.Entry}
    (metric : t.catalog.metric? key = some e) (kind : e.kind = .text) :
    ∃ s, t.slots[key]? = some (.text e.maxLength s) := by
  have fit := fits key
  rw [metric] at fit
  generalize t.slots[key]? = slot at fit ⊢
  cases fit with
  | some fit =>
      rename_i slot
      cases slot with
      | text limit s =>
          obtain ⟨-, rfl, -⟩ := fit
          exact ⟨s, rfl⟩
      | unsigned n => exact absurd (kind.symm.trans fit) (by decide)
      | signed n => exact absurd (kind.symm.trans fit) (by decide)
      | timer timer => exact absurd (kind.symm.trans fit.1) (by decide)

theorem readText_of_slot {limit : Nat} {s : String} (found : t.slots[key]? = some (.text limit s)) :
    t.readText key = .ok s := by
  rw [readText, slot_eq_ok.mpr found]
  rfl

end Table

/-- A buffer to the front of which the bytes of a text have been copied. -/
structure CopiedInto (buffer : Bytes) (t : String) (out : Bytes) : Prop where
  length : out.length = buffer.length
  front : out.take (byteLength t) = bytes t
  rest : out.drop (byteLength t) = buffer.drop (byteLength t)

theorem copiedInto_of_le {buffer : Bytes} {t : String} (short : byteLength t ≤ buffer.length) :
    CopiedInto buffer t (bytes t ++ buffer.drop (byteLength t)) where
  length := by
    rw [List.length_append, List.length_drop]
    exact Nat.add_sub_cancel' short
  front := List.take_left
  rest := List.drop_left

namespace Agent

variable {ν : Type} [Nonvolatile ν] {a : Agent ν} {key limit : Nat} {s : String}

theorem perform_setText {old : String} (found : a.table.slots[key]? = some (.text limit old))
    (s : String) :
    (a.perform (.setText key s)).1 = .ok (.metric .done) ∧
      (a.perform (.setText key s)).2.table.slots[key]? =
        some (.text limit (truncate s limit)) := by
  have keyed : (Table.Call.setText key s).key? = some key := rfl
  have set := Table.perform_of_kind keyed found List.mem_cons_self
  constructor
  · show ((a.table.perform (.setText key s)).1.map Answer.metric).mapError Failure.metric = _
    rw [set]
    rfl
  · show (a.table.perform (.setText key s)).2.slots[key]? = _
    rw [set]
    exact (Table.slots_set found _ key).trans (if_pos rfl)

theorem perform_readTextInto (found : a.table.slots[key]? = some (.text limit s)) {buffer : Bytes}
    (nonempty : buffer ≠ []) :
    (a.perform (.readTextInto key buffer)).1 =
      .ok (.buffer (byteLength (truncate s buffer.length))
        (bytes (truncate s buffer.length) ++
          buffer.drop (byteLength (truncate s buffer.length)))) := by
  have read : { a with platform.lock := a.platform.lock.enter }.table.readText key = .ok s :=
    Table.readText_of_slot found
  show (a.readTextInto key buffer).1 = _
  rw [readTextInto, if_neg (by simpa using nonempty), locked]
  simp only [read]
  rfl

/-- What arrives in a buffer is the text within the limit of the metric and of the buffer. -/
theorem setText_readTextInto (fits : a.table.Fits) {e : Catalog.Entry}
    (metric : a.table.catalog.metric? key = some e) (kind : e.kind = .text) (s : String)
    {buffer : Bytes} (nonempty : buffer ≠ []) :
    let kept := truncate s (min e.maxLength buffer.length)
    ∃ out : Bytes, CopiedInto buffer kept out ∧
      (a.performAll [.setText key s, .readTextInto key buffer]).1 =
        [.ok (.metric .done), .ok (.buffer (byteLength kept) out)] := by
  intro kept
  obtain ⟨old, found⟩ := fits.exists_text metric kind
  obtain ⟨done, set⟩ := perform_setText found s
  have read := perform_readTextInto set nonempty
  rw [Text.truncate_truncate] at read
  have short : byteLength kept ≤ buffer.length :=
    Nat.le_trans (Text.byteLength_truncate_le s _) (Nat.min_le_right _ _)
  exact ⟨_, copiedInto_of_le short, congrArg₂ (fun x y => [x, y]) done read⟩

/-- Texts are cut between characters. What is left of a text within a limit is its longest
beginning of whole characters, and nothing else is: the next character would not fit. Going back
from the limit to a boundary finds it without leaving the text, and cutting twice is cutting at the
smaller limit. So a text that is set, whatever was done before, and then read into a buffer with a
byte at least, arrives there within the limit of its metric and of the buffer. The number of its
bytes is returned, and the rest of the buffer stays as it was. -/
theorem texts_are_cut_between_characters :
    (∀ (s t : String) (limit : Nat), Text.IsLongest s limit t ↔ t = truncate s limit) ∧
    (∀ (s : String) (limit : Nat),
      Text.strictTruncate (bytes s) limit = some (bytes (truncate s limit))) ∧
    (∀ (s : String) (m n : Nat), truncate (truncate s m) n = truncate s (min m n)) ∧
    ∀ {configuration : Configuration} {capacity : Nat} {platform : Platform} {a : Agent ν},
      boot configuration capacity platform = .ok a →
        ∀ (ops : List (Operation ν)) (key : Nat) (e : Catalog.Entry),
          a.table.catalog.metric? key = some e → e.kind = .text →
            ∀ (s : String) (buffer : Bytes), buffer ≠ [] →
              let kept := truncate s (min e.maxLength buffer.length)
              ∃ out : Bytes, CopiedInto buffer kept out ∧
                ((a.performAll ops).2.performAll [.setText key s, .readTextInto key buffer]).1 =
                  [.ok (.metric .done), .ok (.buffer (byteLength kept) out)] := by
  refine ⟨fun _ _ _ => Text.isLongest_iff, Text.strictTruncate_bytes, Text.truncate_truncate, ?_⟩
  intro configuration capacity platform a booted ops key e metric kind s buffer nonempty
  obtain ⟨c, -, sound, -⟩ := boot_eq_ok booted
  have later := (Retains.performAll a ops).table
  exact setText_readTextInto (sound.slots.follows later) (later.catalog ▸ metric) kind s nonempty

/-- Of nine bytes, three are kept in the metric, as the third character would end at the sixth, and
one in the buffer, as the second would end at the third. -/
theorem texts_are_cut_between_characters_twice :
    let configuration : Configuration :=
      { device := {}, schema := { metrics := [.unsigned "count", .text "label" 5] } }
    let s := "añ€bcd"
    ∃ a : Agent Empty, boot configuration 64 {} = .ok a ∧
      (∃ e, a.table.catalog.metric? 1 = some e ∧ e.kind = .text ∧ e.maxLength = 5) ∧
      Text.IsLongest s 5 "añ" ∧ Text.strictTruncate (bytes s) 5 = some [0x61, 0xC3, 0xB1] ∧
      truncate "añ" 2 = "a" ∧
      ((a.performAll [.setText 1 "before", .heartbeat]).2.performAll
        [.setText 1 s, .readTextInto 1 [0xEE, 0xEE]]).1 =
          [.ok (.metric .done), .ok (.buffer 1 [0x61, 0xEE])] := by
  intro configuration s
  obtain ⟨longest, walk, twice, arrives⟩ := texts_are_cut_between_characters (ν := Empty)
  have once : truncate s 5 = "añ" := by decide +kernel
  have shorter : truncate s (min 5 2) = "a" := by decide +kernel
  obtain ⟨a, booted, e, metric, kind, limit⟩ : ∃ a : Agent Empty,
      boot configuration 64 {} = .ok a ∧ ∃ e, a.table.catalog.metric? 1 = some e ∧
        e.kind = .text ∧ e.maxLength = 5 :=
    ⟨_, rfl, _, rfl, rfl, rfl⟩
  obtain ⟨out, ⟨-, front, rest⟩, answers⟩ := arrives booted [.setText 1 "before", .heartbeat] 1 e
    metric kind s [0xEE, 0xEE] (by decide)
  have one : byteLength "a" = 1 := by decide +kernel
  have same : truncate s (min e.maxLength [(0xEE : UInt8), 0xEE].length) = "a" := by
    rw [limit]
    exact shorter
  rw [same, one] at answers front rest
  have filled : out = [0x61, 0xEE] := by
    rw [← List.take_append_drop 1 out, front, rest]
    decide +kernel
  refine ⟨a, booted, ⟨e, metric, kind, limit⟩, (longest s "añ" 5).mpr once.symm,
    (walk s 5).trans ?_, ?_, filled ▸ answers⟩
  · rw [once]
    decide +kernel
  · rw [← once]
    exact (twice s 5 2).trans shorter

end Agent

end DeviceTelemetry
