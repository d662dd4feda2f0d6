import DeviceTelemetry.Proofs.Json.Records

/-!
# What a library promises

A library conforms (`Library.Conforms`) if its printers write a document in one of the ways in which
it can be written, and if it reads from every way to write a document what the document stands for.
Printing and reading are held to the notation, and not to each other.

The library of this project conforms (`standard_conforms`).
-/

set_option autoImplicit false

namespace DeviceTelemetry.Json

variable {α τ δ : Type}

/-- What can be relied on when documents are written and read. -/
structure Library.Conforms (library : Library) : Prop where
  compact (v : Value) : Written v (library.compact v).toList
  pretty (v : Value) : Written v (library.pretty v).toList
  /-- A library may refuse what is nested too deep. -/
  read {β : Type} {shape : Shape β} {v : Value} {b : β} {text : String}
    (shallow : shape.depth < 128) (stands : shape.Takes v b) (written : Written v text.toList) : library.read shape text = .ok b

/-! ### Drafts of records -/

/-- The draft of a record of which the fields of some names have been read. -/
def Fields.draft : {τ δ : Type} → Fields τ δ → List String → τ → δ
  | _, _, .none, _, _ => ()
  | _, _, .field name _ _ _ others, filled, (a, t) =>
    (if name ∈ filled then some a else Option.none, others.draft filled t)

theorem Fields.draft_nil : {τ δ : Type} → (fields : Fields τ δ) → (t : τ) →
    fields.draft [] t = fields.empty
  | _, _, .none, _ => rfl
  | _, _, .field _ _ _ _ others, (_, t) => by
      unfold draft empty
      rw [if_neg List.not_mem_nil, others.draft_nil t]

theorem Fields.draft_cons : {τ δ : Type} → (fields : Fields τ δ) → {name : String} →
    name ∉ fields.names → (filled : List String) → (t : τ) →
    fields.draft (name :: filled) t = fields.draft filled t
  | _, _, .none, _, _, _, _ => rfl
  | _, _, .field first _ _ _ others, name, new, filled, (a, t) => by
      obtain ⟨differs, new⟩ := List.ne_and_not_mem_of_not_mem_cons new
      unfold draft
      rw [others.draft_cons new]
      simp only [List.mem_cons, or_iff_right (Ne.symm differs)]

theorem Fields.complete_draft : {τ δ : Type} → (fields : Fields τ δ) →
    {ms : List (String × Value)} → {t : τ} → fields.Take ms t → {filled : List String} →
    (∀ name, name ∈ filled ↔ name ∈ ms.map Prod.fst) →
    fields.complete (fields.draft filled t) = some t
  | _, _, .none, _, _, _, _, _ => rfl
  | _, _, .field name _ default _ others, ms, (a, t), taken, filled, all => by
      obtain ⟨here, further⟩ := taken
      unfold draft complete
      rw [others.complete_draft further all]
      split
      · rfl
      · rename_i missing
        rw [lookup_eq_none_of_notMem fun member => missing ((all name).mpr member)] at here
        obtain rfl : default = some a := here
        rfl

/-- The member is read into every draft in which its field is still empty. -/
def Fields.ReadsMember (fields : Fields τ δ) (t : τ) (m : String × Value) : Prop :=
  ∀ filled, m.1 ∉ filled → ∃ f, fields.readers.find? (·.name == m.1) = some f ∧
    f.present (fields.draft filled t) = false ∧
    Reads (f.read (fields.draft filled t)) m.2 (fields.draft (m.1 :: filled) t)

section Member

variable {name : String} {v : Value} {value : Shape α} {default : Option α} {omitted : α → Bool}
  {others : Fields τ δ} {a : α} {t : τ}

theorem Fields.readsMember_first (new : name ∉ others.names) (read : Reads value.reader v a) :
    (field name value default omitted others).ReadsMember (a, t) (name, v) := by
  intro filled empty
  refine ⟨Field.first name value.reader default, ?_, ?_, ?_⟩
  · exact List.find?_cons_of_pos (beq_self_eq_true name)
  · show (if name ∈ filled then some a else Option.none).isSome = false
    rw [if_neg empty]
    rfl
  · unfold draft
    rw [others.draft_cons new, if_pos List.mem_cons_self]
    exact read.bind_pure

theorem Fields.readsMember_behind {first : String} (differs : name ≠ first)
    (behind : others.ReadsMember t (name, v)) :
    (field first value default omitted others).ReadsMember (a, t) (name, v) := by
  intro filled empty
  obtain ⟨f, found, absent, read⟩ := behind filled empty
  refine ⟨f.behind, ?_, absent, ?_⟩
  · refine (List.find?_cons_of_neg ?other).trans ?_
    case other => simpa [Field.first] using Ne.symm differs
    rw [List.find?_map]
    exact congrArg (Option.map Field.behind) found
  · unfold draft
    simp only [List.mem_cons, or_iff_right (Ne.symm differs)]
    exact read.bind_pure

end Member

theorem Fields.fills_draft (fields : Fields τ δ) (t : τ) {ms : List (String × Value)}
    (reads : ∀ m ∈ ms, fields.ReadsMember t m) (once : (ms.map Prod.fst).Nodup)
    (filled : List String) (new : ∀ m ∈ ms, m.1 ∉ filled) :
    Fills fields.readers (fields.draft filled t) ms
      (fields.draft ((ms.map Prod.fst).reverse ++ filled) t) := by
  induction ms generalizing filled with
  | nil => exact .none _
  | cons m ms ih =>
      obtain ⟨apart, once⟩ := List.nodup_cons.mp once
      obtain ⟨f, found, absent, read⟩ :=
        reads m List.mem_cons_self filled (new m List.mem_cons_self)
      have others := ih (fun m member => reads m (List.mem_cons_of_mem _ member)) once
        (m.1 :: filled) fun m' member => List.not_mem_cons_of_ne_of_not_mem
          (fun same => apart (same ▸ List.mem_map_of_mem member))
          (new m' (List.mem_cons_of_mem _ member))
      rw [List.map_cons, List.reverse_cons, List.append_assoc, List.singleton_append]
      exact .member found absent read others

theorem lookup_of_mem {ms : List (String × Value)} (once : (ms.map Prod.fst).Nodup)
    {m : String × Value} (member : m ∈ ms) : ms.lookup m.1 = some m.2 := by
  induction ms with
  | nil => cases member
  | cons m' ms ih =>
      obtain ⟨apart, once⟩ := List.nodup_cons.mp once
      rcases List.mem_cons.mp member with rfl | member
      · exact List.lookup_cons_self
      · have differs : (m.1 == m'.1) = false := by
          rw [beq_eq_false_iff_ne]
          exact fun same => apart (same ▸ List.mem_map_of_mem member)
        rw [List.lookup_cons, differs]
        exact ih once member

/-! ### Reading a shape -/

mutual

/-- The reader of a shape takes from a document what it stands for. -/
theorem Shape.reads : {α : Type} → (shape : Shape α) → {v : Value} → {a : α} → shape.Takes v a →
    Reads shape.reader v a
  | _, .bool, _, b, stands => by
      obtain rfl := stands
      exact reads_bool b
  | _, .uint32, _, _, stands => reads_uint32 stands
  | _, .uint64, _, _, stands => reads_uint64 stands
  | _, .int64, _, _, stands => reads_int64 stands
  | _, .text, _, s, stands => by
      obtain rfl := stands
      exact reads_text s
  | _, .optional _, _, none, stands => by
      obtain rfl := stands
      exact reads_null
  | _, .optional value, _, some _, stands => reads_optional stands.1 (value.reads stands.2)
  | _, .list member, _, _, stands => by
      obtain ⟨vs, rfl, each⟩ := stands
      exact reads_list (each.imp fun _ _ stands => member.reads stands)
  | _, .choice _ _, _, _, stands => by
      obtain ⟨name, rfl, named⟩ := stands
      exact reads_choice named
  | _, .record fields _ join, _, _, stands => by
      obtain ⟨ms, t, rfl, nodup, once, known, taken, rfl⟩ := stands
      -- the members come in any order, but each fills a field of its own
      have fills := fields.fills_draft t (fun m member => fields.readsMember nodup taken
        (lookup_of_mem once member) (known (List.mem_map_of_mem member))) once [] (fun _ _ => nofun)
      rw [fields.draft_nil, List.append_nil] at fills
      refine reads_record fills ?_
      rw [fields.complete_draft taken fun _ => List.mem_reverse]
      rfl

theorem Fields.readsMember : {τ δ : Type} → (fields : Fields τ δ) → fields.names.Nodup →
    {ms : List (String × Value)} → {t : τ} → fields.Take ms t → {name : String} → {v : Value} →
    ms.lookup name = some v → name ∈ fields.names → fields.ReadsMember t (name, v)
  | _, _, .none, _, _, _, _, _, _, _, known => absurd known List.not_mem_nil
  | _, _, .field first value _ _ others, nodup, ms, (a, t), taken, name, v, found, known => by
      obtain ⟨new, nodup⟩ := List.nodup_cons.mp nodup
      obtain ⟨here, further⟩ := taken
      by_cases same : name = first
      · subst same
        rw [found] at here
        exact Fields.readsMember_first new (value.reads here)
      · exact Fields.readsMember_behind same
          (others.readsMember nodup further found (List.mem_of_ne_of_mem same known))

end

theorem standard_conforms : standard.Conforms where
  compact := written_compact
  pretty := written_pretty
  read _ stands written := readAll_of_written (Shape.reads _ stands) written

end DeviceTelemetry.Json
