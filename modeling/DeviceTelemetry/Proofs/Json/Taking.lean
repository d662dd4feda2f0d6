import DeviceTelemetry.Json.Shape
import Mathlib.Data.List.Forall2

/-!
# Which value a document stands for

`Shape.Takes` says what a document stands for when it is read as a shape: the members of an object
may come in any order, and a missing one stands for the default of its field. A shape is `Lossless`
if nothing is lost in what is left out or renamed; the document of a value then stands for that
value (`Shape.takes_document`).
-/

set_option autoImplicit false

namespace DeviceTelemetry.Json

variable {α τ δ : Type}

def Value.whole? : Value → Option Int
  | unsigned n => some n.toNat
  | signed n => some n.toInt
  | _ => none

def Fields.names : {τ δ : Type} → Fields τ δ → List String
  | _, _, .none => []
  | _, _, .field name _ _ _ others => name :: others.names

mutual

/-- What a document stands for as a value of a shape. -/
def Shape.Takes : {α : Type} → Shape α → Value → α → Prop
  | _, .bool, v, b => v = .bool b
  | _, .uint32, v, n => v.whole? = some (n.toNat : Int)
  | _, .uint64, v, n => v.whole? = some (n.toNat : Int)
  | _, .int64, v, n => v.whole? = some n.toInt
  | _, .text, v, s => v = .text s
  | _, .optional _, v, none => v = .null
  | _, .optional value, v, some a => v ≠ .null ∧ value.Takes v a
  | _, .list member, v, as => ∃ vs, v = .list vs ∧ List.Forall₂ (fun v a => member.Takes v a) vs as
  | _, .choice _ ofName?, v, a => ∃ name, v = .text name ∧ ofName? name = some a
  | _, .record fields _ join, v, a =>
    ∃ ms t, v = .object ms ∧ fields.names.Nodup ∧ (ms.map Prod.fst).Nodup ∧
      ms.map Prod.fst ⊆ fields.names ∧ fields.Take ms t ∧ join t = a

def Fields.Take : {τ δ : Type} → Fields τ δ → List (String × Value) → τ → Prop
  | _, _, .none, _, _ => True
  | _, _, .field name value default _ others, ms, (a, t) =>
    (match ms.lookup name with
      | some v => value.Takes v a
      | none => default = some a) ∧ others.Take ms t

end

mutual

/-- Whether every value comes back from its document: a choice knows its own names, a value that
may be null is not written as null, and what is left out is the default. -/
def Shape.Lossless : {α : Type} → Shape α → Prop
  | _, .bool => True
  | _, .uint32 => True
  | _, .uint64 => True
  | _, .int64 => True
  | _, .text => True
  | _, .optional value => value.Lossless ∧ ∀ a, value.document a ≠ .null
  | _, .list member => member.Lossless
  | _, .choice name ofName? => ∀ a, ofName? (name a) = some a
  | _, .record fields split join =>
    fields.names.Nodup ∧ fields.Lossless ∧ ∀ a, join (split a) = a

def Fields.Lossless : {τ δ : Type} → Fields τ δ → Prop
  | _, _, .none => True
  | _, _, .field _ value default omitted others =>
    value.Lossless ∧ (∀ a, omitted a = true → default = some a) ∧ others.Lossless

end

mutual

def Shape.depth : {α : Type} → Shape α → Nat
  | _, .bool => 0
  | _, .uint32 => 0
  | _, .uint64 => 0
  | _, .int64 => 0
  | _, .text => 0
  | _, .optional value => value.depth
  | _, .list member => member.depth + 1
  | _, .choice _ _ => 0
  | _, .record fields _ _ => fields.depth + 1

def Fields.depth : {τ δ : Type} → Fields τ δ → Nat
  | _, _, .none => 0
  | _, _, .field _ value _ _ others => max value.depth others.depth

end

namespace Fields

variable {name : String} {value : Shape α} {others : Fields τ δ}

theorem lossless_required (here : value.Lossless) (further : others.Lossless) :
    (required name value others).Lossless :=
  ⟨here, nofun, further⟩

theorem lossless_withDefault {default : α} (here : value.Lossless) (further : others.Lossless) :
    (withDefault name value default others).Lossless :=
  ⟨here, nofun, further⟩

theorem lossless_optional (here : value.Lossless) (notNull : ∀ a, value.document a ≠ .null)
    (further : others.Lossless) : (optional name value others).Lossless :=
  ⟨⟨here, notNull⟩, fun _ absent => congrArg some (Option.isNone_iff_eq_none.mp absent).symm,
    further⟩

end Fields

/-! ### The members of a record's document -/

theorem Fields.names_members_sublist : {τ δ : Type} → (fields : Fields τ δ) → (t : τ) →
    ((fields.members t).map Prod.fst).Sublist fields.names
  | _, _, .none, _ => List.Sublist.slnil
  | _, _, .field name value default omitted others, (a, t) => by
      have further := others.names_members_sublist t
      unfold members names
      split
      · exact further.cons name
      · exact further.cons_cons name

/-- Members in front of those of the other fields do not matter to these. -/
theorem Fields.take_cons : {τ δ : Type} → (fields : Fields τ δ) → {ms : List (String × Value)} →
    {t : τ} → {name : String} → (v : Value) → name ∉ fields.names → fields.Take ms t →
    fields.Take ((name, v) :: ms) t
  | _, _, .none, _, _, _, _, _, _ => trivial
  | _, _, .field first _ _ _ others, ms, (a, t), name, v, other, taken => by
      obtain ⟨here, further⟩ := taken
      obtain ⟨differs, other⟩ := List.ne_and_not_mem_of_not_mem_cons other
      refine ⟨?_, others.take_cons v other further⟩
      rw [List.lookup_cons, beq_eq_false_iff_ne.mpr (Ne.symm differs)]
      exact here

theorem lookup_eq_none_of_notMem {ms : List (String × Value)} {name : String}
    (missing : name ∉ ms.map Prod.fst) : ms.lookup name = none := by
  rw [List.lookup_eq_none_iff]
  intro m member
  rw [bne_iff_ne]
  rintro rfl
  exact missing (List.mem_map_of_mem member)

mutual

theorem Shape.takes_document : {α : Type} → (shape : Shape α) → shape.Lossless → (a : α) →
    shape.Takes (shape.document a) a
  | _, .bool, _, _ => rfl
  | _, .uint32, _, n => by
      show some (n.toUInt64.toNat : Int) = _
      rw [UInt32.toNat_toUInt64]
  | _, .uint64, _, _ => rfl
  | _, .int64, _, _ => rfl
  | _, .text, _, _ => rfl
  | _, .optional _, _, none => rfl
  | _, .optional value, lossless, some a => ⟨lossless.2 a, value.takes_document lossless.1 a⟩
  | _, .list member, lossless, as => by
      refine ⟨as.map member.document, rfl, ?_⟩
      rw [List.forall₂_map_left_iff, List.forall₂_same]
      exact fun a _ => member.takes_document lossless a
  | _, .choice name _, known, a => ⟨name a, rfl, known a⟩
  | _, .record fields split _, lossless, a => by
      obtain ⟨nodup, lossless, joined⟩ := lossless
      have sublist := fields.names_members_sublist (split a)
      exact ⟨fields.members (split a), split a, rfl, nodup, sublist.nodup nodup, sublist.subset,
        fields.take_members nodup lossless (split a), joined a⟩

theorem Fields.take_members : {τ δ : Type} → (fields : Fields τ δ) → fields.names.Nodup →
    fields.Lossless → (t : τ) → fields.Take (fields.members t) t
  | _, _, .none, _, _, _ => trivial
  | _, _, .field name value default omitted others, nodup, lossless, (a, t) => by
      obtain ⟨lossless, leftOut, further⟩ := lossless
      obtain ⟨new, nodup⟩ := List.nodup_cons.mp nodup
      have behind := others.take_members nodup further t
      unfold Fields.members
      split
      · rename_i left
        have missing := lookup_eq_none_of_notMem fun member =>
          new ((others.names_members_sublist t).subset member)
        refine ⟨?_, behind⟩
        rw [missing]
        exact leftOut a left
      · refine ⟨?_, others.take_cons _ new behind⟩
        rw [List.lookup_cons_self]
        exact value.takes_document lossless a

end

end DeviceTelemetry.Json
