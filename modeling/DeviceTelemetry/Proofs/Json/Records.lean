import DeviceTelemetry.Proofs.Json.Reading

/-!
# Reading lists and records

A list is read back if its members are (`reads_list`). A record is read back from an object whose
members fill the fields of the draft one after the other (`Fills`, `reads_record`).
-/

set_option autoImplicit false

namespace DeviceTelemetry.Json

variable {α δ : Type}

/-! ### Optional values and choices -/

theorem reads_null {value : Reader α} : Reads (optional value) .null none := by
  intro bs cs rest blank written _
  cases written
  have read : word ['n', 'u', 'l', 'l'] ('n' :: 'u' :: 'l' :: 'l' :: rest) = .ok ((), rest) :=
    word_append _ rest
  show optional value (bs ++ 'n' :: 'u' :: 'l' :: 'l' :: rest) = _
  rw [optional, bind_of_ok (peek_of_blank blank rfl), if_pos rfl]
  exact bind_of_ok read

theorem reads_optional {value : Reader α} {v : Value} {a : α} (other : v ≠ .null)
    (h : Reads value v a) : Reads (optional value) v (some a) := by
  intro bs cs rest blank written stop
  have read := h [] cs rest blank_nil written stop
  obtain ⟨c, cs', rfl, visible, -, notNull⟩ := written.exists_cons
  rw [List.nil_append, List.cons_append] at read
  rw [List.cons_append]
  rw [optional, bind_of_ok (peek_of_blank blank visible), if_neg (notNull other), bind_of_ok read]
  rfl

theorem reads_choice {ofName? : String → Option α} {name : String} {a : α}
    (named : ofName? name = some a) : Reads (choice ofName?) (.text name) a := by
  intro bs cs rest blank written _
  cases written with
  | text chars =>
      rw [List.cons_append, choice, bind_of_ok (peek_of_blank blank rfl)]
      refine (bind_of_ok rfl).trans ((bind_of_ok (quoted_of_quoted chars rest)).trans ?_)
      rw [named]
      rfl

/-! ### Lists -/

theorem furtherMember_of_close {first : Bool} {bs : List Char} (blank : Blank bs)
    (rest : List Char) : furtherMember first (bs ++ ']' :: rest) = .ok (false, ']' :: rest) := by
  rw [furtherMember, bind_of_ok (peek_of_blank blank rfl)]
  rfl

theorem furtherMember_of_lead {first : Bool} {bs : List Char} (lead : Lead first bs) {c : Char}
    (visible : isBlank c = false) (inside : c ≠ ']') (cs : List Char) :
    furtherMember first (bs ++ c :: cs) = .ok (true, c :: cs) := by
  cases lead with
  | first blank =>
      rw [furtherMember, bind_of_ok (peek_of_blank blank visible), if_neg inside]
      rfl
  | further before behind =>
      rw [List.append_assoc, List.cons_append, furtherMember,
        bind_of_ok (peek_of_blank before rfl)]
      refine (bind_of_ok rfl).trans ((bind_of_ok (peek_of_blank behind visible)).trans ?_)
      rw [if_neg inside]
      rfl

theorem listRest_enclosed {member : Reader α} {vs : List Value} {as : List α}
    (reads : List.Forall₂ (Reads member) vs as) {first : Bool} {cs bound : List Char}
    (written : Enclosed Written ']' first vs cs) (enough : vs.length ≤ bound.length)
    (done : List α) (rest : List Char) :
    listRest member bound first done (cs ++ rest) = .ok (done.reverse ++ as, rest) := by
  induction reads generalizing first cs bound done with
  | nil =>
      cases written with
      | close blank =>
          rw [List.append_assoc, List.append_nil]
          unfold listRest
          exact (bind_of_ok (furtherMember_of_close blank rest)).trans rfl
  | cons read reads ih =>
      cases written with
      | member lead here further =>
          have stop := further.stops (stops_cons (by decide) []) rest
          have read := read [] _ _ blank_nil here stop
          obtain ⟨c, cs', rfl, visible, inside, -⟩ := here.exists_cons
          cases bound with
          | nil => cases enough
          | cons b bound =>
              rw [List.append_assoc, List.append_assoc, listRest]
              refine (bind_of_ok (furtherMember_of_lead lead visible inside _)).trans ?_
              refine (bind_of_ok read).trans ?_
              rw [ih further (Nat.le_of_succ_le_succ enough), List.reverse_cons,
                List.append_assoc, List.singleton_append]

theorem reads_list {member : Reader α} {vs : List Value} {as : List α}
    (reads : List.Forall₂ (Reads member) vs as) : Reads (list member) (.list vs) as := by
  intro bs cs rest blank written _
  cases written with
  | @list _ cs inside =>
      have enough : vs.length ≤ (cs ++ rest).length := by
        have each := inside.length_le
        rw [List.length_append]
        omega
      rw [List.cons_append, list, bind_of_ok (peek_of_blank blank rfl)]
      exact (bind_of_ok rfl).trans
        ((bind_of_ok rfl).trans (listRest_enclosed reads inside enough [] rest))

/-! ### Records -/

/-- The members fill fields of a draft that are still empty, one after the other. -/
inductive Fills (fields : List (Field δ)) : δ → List (String × Value) → δ → Prop
  | none (draft : δ) : Fills fields draft [] draft
  | member {draft draft' draft'' : δ} {name : String} {v : Value} {ms : List (String × Value)}
      {f : Field δ} (found : fields.find? (·.name == name) = some f)
      (new : f.present draft = false) (read : Reads (f.read draft) v draft')
      (others : Fills fields draft' ms draft'') : Fills fields draft ((name, v) :: ms) draft''

theorem furtherName_of_close {first : Bool} {bs : List Char} (blank : Blank bs)
    (rest : List Char) :
    furtherName first (bs ++ '\x7d' :: rest) = .ok (false, '\x7d' :: rest) := by
  rw [furtherName, bind_of_ok (peek_of_blank blank rfl)]
  rfl

theorem furtherName_of_lead {first : Bool} {bs : List Char} (lead : Lead first bs)
    (cs : List Char) : furtherName first (bs ++ '"' :: cs) = .ok (true, cs) := by
  cases lead with
  | first blank =>
      rw [furtherName, bind_of_ok (peek_of_blank blank rfl)]
      rfl
  | further before behind =>
      rw [List.append_assoc, List.cons_append, furtherName, bind_of_ok (peek_of_blank before rfl)]
      exact (bind_of_ok rfl).trans ((bind_of_ok (peek_of_blank behind rfl)).trans rfl)

theorem colon_of_blank {bs : List Char} (blank : Blank bs) (cs : List Char) :
    colon (bs ++ ':' :: cs) = .ok ((), cs) := by
  rw [colon, bind_of_ok (peek_of_blank blank rfl)]
  rfl

theorem membersRest_enclosed {fields : List (Field δ)} {draft draft' : δ}
    {ms : List (String × Value)} (fills : Fills fields draft ms draft') {first : Bool}
    {cs bound : List Char} (written : Enclosed WrittenMember '\x7d' first ms cs)
    (enough : ms.length ≤ bound.length) (rest : List Char) :
    membersRest fields bound first draft (cs ++ rest) = .ok (draft', '\x7d' :: rest) := by
  induction fills generalizing first cs bound with
  | none draft =>
      cases written with
      | close blank =>
          rw [List.append_assoc]
          unfold membersRest
          exact (bind_of_ok (furtherName_of_close blank rest)).trans rfl
  | @member draft draft' draft'' name v ms f found new read others ih =>
      cases written with
      | member lead here further =>
          have stop := further.stops (stops_cons (by decide) []) rest
          cases here with
          | named chars before behind value =>
              cases bound with
              | nil => cases enough
              | cons b bound =>
                  have taken := read _ _ _ behind value stop
                  simp only [List.append_assoc, List.cons_append]
                  unfold membersRest
                  refine (bind_of_ok (furtherName_of_lead lead _)).trans ?_
                  refine (bind_of_ok (quoted_of_quoted chars _)).trans ?_
                  refine (bind_of_ok (?filled : _ = Except.ok (draft', _))).trans
                    (ih further (Nat.le_of_succ_le_succ enough))
                  unfold readMember
                  rw [found]
                  dsimp only
                  rw [new]
                  exact (bind_of_ok (colon_of_blank before _)).trans taken

theorem reads_record {fields : List (Field δ)} {empty draft : δ} {complete : δ → Option α}
    {ms : List (String × Value)} {a : α} (fills : Fills fields empty ms draft)
    (done : complete draft = some a) : Reads (record fields empty complete) (.object ms) a := by
  intro bs cs rest blank written _
  cases written with
  | @object _ cs inside =>
      have enough : ms.length ≤ (cs ++ rest).length := by
        have each := inside.length_le
        rw [List.length_append]
        omega
      rw [List.cons_append, record, bind_of_ok (peek_of_blank blank rfl)]
      refine (bind_of_ok rfl).trans ((bind_of_ok rfl).trans ?_)
      refine (bind_of_ok (membersRest_enclosed fills inside enough rest)).trans ?_
      rw [done]
      rfl

/-! ### Whole texts -/

theorem readAll_of_written {r : Reader α} {v : Value} {a : α} (h : Reads r v a) {s : String}
    (written : Written v s.toList) : readAll r s = .ok a := by
  have read := h [] s.toList [] blank_nil written stops_nil
  rw [List.nil_append, List.append_nil] at read
  rw [readAll, read]
  rfl

end DeviceTelemetry.Json
