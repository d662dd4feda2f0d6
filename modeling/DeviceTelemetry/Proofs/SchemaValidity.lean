import DeviceTelemetry.Proofs.CatalogNames

/-!
# Which schemas are accepted

`Schema.Valid` says what a schema must be like, and `SchemaError.Describes` what each reason for a
refusal says of a schema. A schema has a catalog exactly if it is valid, and a refusal describes
something that is really wrong with it (`Schema.catalog_exists_iff_valid`). Whatever a reason
describes makes a schema invalid, so a valid schema cannot be refused.
-/

set_option autoImplicit false

namespace DeviceTelemetry

open Catalog (Entry)

namespace Schema

def NameChar (c : Char) : Prop :=
  ('A' ≤ c ∧ c ≤ 'Z') ∨ ('a' ≤ c ∧ c ≤ 'z') ∨ ('0' ≤ c ∧ c ≤ '9') ∨ c = '_' ∨ c = '.'

def WellNamed (name : String) : Prop := name ≠ "" ∧ ∀ c ∈ name.toList, NameChar c

/-- The names of all metrics, those of the duration timers included. -/
def metricNames (s : Schema) : List String :=
  s.metrics.map MetricDef.name ++ s.sessions.map (· ++ "__duration")

structure Valid (s : Schema) : Prop where
  someMetric : s.metrics ≠ []
  fewSessions : s.sessions.length ≤ 254
  fewMetrics : s.metrics.length + s.sessions.length ≤ 65535
  wellNamed : ∀ name ∈ s.sessions ++ s.metrics.map MetricDef.name, WellNamed name
  notReserved : "heartbeat" ∉ s.sessions
  sessions : s.sessions.Nodup
  owners : ∀ d ∈ s.metrics, ∀ session ∈ d.session, session = "heartbeat" ∨ session ∈ s.sessions
  ranges : ∀ d ∈ s.metrics, ∀ min ∈ d.min, ∀ max ∈ d.max, min ≤ max
  limits : ∀ d ∈ s.metrics, d.kind = .text →
    ∃ limit ∈ d.maxLength, 1 ≤ limit.toNat ∧ limit.toNat ≤ 255
  metrics : s.metricNames.Nodup

end Schema

/-- What a reason for the refusal of a schema says is wrong with it. -/
def SchemaError.Describes (s : Schema) : SchemaError → Prop
  | empty => s.metrics = []
  | tooManySessions count => count = s.sessions.length ∧ 254 < count
  | tooManyMetrics count => count = s.metrics.length + s.sessions.length ∧ 65535 < count
  | invalidName name =>
    name ∈ s.sessions ++ s.metrics.map MetricDef.name ∧ ¬Schema.WellNamed name
  | duplicateSession name =>
    name ∈ s.sessions ∧ 2 ≤ ("heartbeat" :: s.sessions).count name
  | unknownSession metric session => ∃ d ∈ s.metrics, d.name = metric ∧
    d.session = some session ∧ session ∉ "heartbeat" :: s.sessions
  | invalidRange metric min max => ∃ d ∈ s.metrics, d.name = metric ∧
    d.min = some min ∧ d.max = some max ∧ max < min
  | stringTooLong metric limit => ∃ d ∈ s.metrics, d.name = metric ∧ d.kind = .text ∧
    (d.maxLength.map UInt64.toNat).getD 0 = limit ∧ (limit = 0 ∨ 255 < limit)
  | duplicateMetric name => 2 ≤ s.metricNames.count name
  | missingBuiltin _ => False

theorem SchemaError.Describes.not_valid {s : Schema} {e : SchemaError} (describes : e.Describes s) :
    ¬s.Valid := by
  intro valid
  cases e with
  | empty => exact valid.someMetric describes
  | tooManySessions count =>
      obtain ⟨rfl, many⟩ := describes
      exact absurd valid.fewSessions (Nat.not_le_of_lt many)
  | tooManyMetrics count =>
      obtain ⟨rfl, many⟩ := describes
      exact absurd valid.fewMetrics (Nat.not_le_of_lt many)
  | invalidName name => exact describes.2 (valid.wellNamed name describes.1)
  | duplicateSession name =>
      have unique := List.nodup_cons.mpr ⟨valid.notReserved, valid.sessions⟩
      have once := List.nodup_iff_count_le_one.mp unique name
      exact absurd describes.2 (Nat.not_le_of_lt (Nat.lt_succ_of_le once))
  | unknownSession metric session =>
      obtain ⟨d, member, -, owner, unknown⟩ := describes
      exact unknown (List.mem_cons.mpr (valid.owners d member session owner))
  | invalidRange metric min max =>
      obtain ⟨d, member, -, lower, upper, reversed⟩ := describes
      exact absurd (valid.ranges d member min lower max upper) (Int64.not_le.mpr reversed)
  | stringTooLong metric limit =>
      obtain ⟨d, member, -, text, rfl, outside⟩ := describes
      obtain ⟨limit, given, within⟩ := valid.limits d member text
      rw [Option.mem_def.mp given, Option.map_some, Option.getD_some] at outside
      omega
  | duplicateMetric name =>
      have once := List.nodup_iff_count_le_one.mp valid.metrics name
      exact absurd describes (Nat.not_le_of_lt (Nat.lt_succ_of_le once))
  | missingBuiltin name => exact describes

namespace Schema

/-! ### The checks of names -/

theorem isAlphanum_iff (c : Char) : c.isAlphanum = true ↔
    ('A' ≤ c ∧ c ≤ 'Z') ∨ ('a' ≤ c ∧ c ≤ 'z') ∨ ('0' ≤ c ∧ c ≤ '9') := by
  show (decide ('A' ≤ c ∧ c ≤ 'Z') || (decide ('a' ≤ c) && decide (c ≤ 'z')) ||
    (decide ('0' ≤ c) && decide (c ≤ '9'))) = true ↔ _
  simp only [Bool.or_eq_true, Bool.and_eq_true, decide_eq_true_iff, or_assoc]

theorem validName_iff {name : String} : ValidName name ↔ WellNamed name := by
  refine and_congr_right fun _ => forall₂_congr fun c _ => ?_
  rw [isAlphanum_iff, NameChar, or_assoc, or_assoc]

theorem checkName_eq_ok {name : String} : checkName name = .ok () ↔ WellNamed name := by
  rw [← validName_iff, checkName]
  by_cases valid : ValidName name
  · rw [if_pos valid]
    exact iff_of_true rfl valid
  · rw [if_neg valid]
    exact iff_of_false nofun valid

theorem checkName_describes {s : Schema} {name : String} {e : SchemaError}
    (member : name ∈ s.sessions ++ s.metrics.map MetricDef.name)
    (refused : checkName name = .error e) : e.Describes s := by
  rw [checkName] at refused
  split at refused
  · cases refused
  · cases refused
    exact ⟨member, fun valid => ‹¬ValidName name› (validName_iff.mpr valid)⟩

/-- The sessions are checked one after the other; `known` are those that have passed. -/
theorem valid_of_numberSessions {known names sessions : List String} (unique : known.Nodup)
    (ok : numberSessions known names = .ok sessions) :
    (∀ name ∈ names, WellNamed name) ∧ (known ++ names).Nodup := by
  induction names generalizing known with
  | nil =>
      rw [List.append_nil]
      exact ⟨nofun, unique⟩
  | cons name names ih =>
      rw [numberSessions, bind_eq_ok] at ok
      obtain ⟨_, named, ok⟩ := ok
      obtain ⟨new, ok⟩ := guard_eq_ok.mp ok
      have extended : (known ++ [name]).Nodup :=
        List.nodup_append_comm.mp (List.nodup_cons.mpr ⟨new, unique⟩)
      obtain ⟨wellNamed, nodup⟩ := ih extended ok
      rw [List.append_assoc, List.singleton_append] at nodup
      exact ⟨List.forall_mem_cons.mpr ⟨checkName_eq_ok.mp named, wellNamed⟩, nodup⟩

theorem numberSessions_describes {s : Schema} {e : SchemaError} {known names : List String}
    (parts : known ++ names = "heartbeat" :: s.sessions)
    (declared : ∀ name ∈ names, name ∈ s.sessions)
    (refused : numberSessions known names = .error e) : e.Describes s := by
  induction names generalizing known with
  | nil => cases refused
  | cons name names ih =>
      have member := declared name List.mem_cons_self
      rw [numberSessions, bind_eq_error] at refused
      rcases refused with refused | ⟨_, -, refused⟩
      · exact checkName_describes (List.mem_append_left _ member) refused
      · rcases guard_eq_error.mp refused with ⟨again, rfl⟩ | ⟨-, refused⟩
        · refine ⟨member, ?_⟩
          rw [← parts, List.count_append, List.count_cons_self]
          exact Nat.add_le_add (List.count_pos_iff.mpr again) (Nat.le_add_left 1 _)
        · rw [List.append_cons] at parts
          exact ih parts (fun name later => declared name (List.mem_cons_of_mem _ later)) refused

/-! ### The checks of one metric -/

theorem owner_of_sessionOf {sessions : List String} {d : MetricDef} {owner : UInt8}
    (ok : sessionOf sessions d = .ok owner) : ∀ name ∈ d.session, name ∈ sessions := by
  intro name given
  rcases sessionOf_eq_ok.mp ok with ⟨unowned, -⟩ | ⟨name', place, owned, found, -⟩
  · cases unowned.symm.trans given
  · obtain rfl := Option.some.inj (owned.symm.trans given)
    exact List.isSome_idxOf?.mp (Option.isSome_of_eq_some found)

theorem sessionOf_describes {s : Schema} {d : MetricDef} {e : SchemaError} (member : d ∈ s.metrics)
    (refused : sessionOf ("heartbeat" :: s.sessions) d = .error e) : e.Describes s := by
  rw [sessionOf] at refused
  cases owner : d.session with
  | none =>
      rw [owner] at refused
      cases refused
  | some name =>
      rw [owner] at refused
      dsimp only at refused
      split at refused
      · cases refused
      · cases refused
        exact ⟨d, member, rfl, owner, List.idxOf?_eq_none_iff.mp ‹_›⟩

theorem range_of_checkRange {d : MetricDef} (ok : checkRange d = .ok ()) :
    ∀ min ∈ d.min, ∀ max ∈ d.max, min ≤ max := by
  rintro min (lower : d.min = some min) max (upper : d.max = some max)
  rw [checkRange, lower, upper] at ok
  dsimp only at ok
  split at ok
  · cases ok
  · exact Int64.not_lt.mp ‹_›

theorem checkRange_describes {s : Schema} {d : MetricDef} {e : SchemaError} (member : d ∈ s.metrics)
    (refused : checkRange d = .error e) : e.Describes s := by
  rw [checkRange] at refused
  split at refused
  · split at refused
    · cases refused
      exact ⟨d, member, rfl, ‹_›, ‹_›, ‹_›⟩
    · cases refused
  · cases refused

theorem limit_of_textLimit {d : MetricDef} {maxLength : Nat} (ok : textLimit d = .ok maxLength)
    (text : d.kind = .text) : ∃ limit ∈ d.maxLength, 1 ≤ limit.toNat ∧ limit.toNat ≤ 255 := by
  rcases textLimit_eq_ok.mp ok with ⟨-, limit, given, above, below, -⟩ | ⟨other, -⟩
  · exact ⟨limit, given, above, below⟩
  · exact absurd text other

theorem textLimit_describes {s : Schema} {d : MetricDef} {e : SchemaError} (member : d ∈ s.metrics)
    (refused : textLimit d = .error e) : e.Describes s := by
  rw [textLimit] at refused
  split at refused
  · rename_i text
    cases given : d.maxLength with
    | none =>
        rw [given] at refused
        cases refused
        exact ⟨d, member, rfl, text, by rw [given]; rfl, .inl rfl⟩
    | some limit =>
        rw [given] at refused
        dsimp only at refused
        split at refused
        · cases refused
        · rename_i outside
          cases refused
          refine ⟨d, member, rfl, text, by rw [given]; rfl, ?_⟩
          rw [Catalog.maxTextLength] at outside
          omega
  · cases refused

theorem entry_describes {s : Schema} {d : MetricDef} {e : SchemaError} {key : UInt16}
    (member : d ∈ s.metrics) (refused : entry ("heartbeat" :: s.sessions) key d = .error e) :
    e.Describes s := by
  have named : d.name ∈ s.sessions ++ s.metrics.map MetricDef.name :=
    List.mem_append_right _ (List.mem_map_of_mem member)
  rcases bind_eq_error.mp refused with refused | ⟨_, -, refused⟩
  · exact checkName_describes named refused
  rcases bind_eq_error.mp refused with refused | ⟨session, -, refused⟩
  · exact sessionOf_describes member refused
  rcases bind_eq_error.mp refused with refused | ⟨_, -, refused⟩
  · exact checkRange_describes member refused
  rcases bind_eq_error.mp refused with refused | ⟨maxLength, -, refused⟩
  · exact textLimit_describes member refused
  · cases refused

theorem exists_of_foldlM_declare {sessions : List String} {ds : List MetricDef}
    {entries : Array Entry} {e : SchemaError}
    (refused : ds.foldlM (declare sessions) entries = .error e) :
    ∃ d key, d ∈ ds ∧ entry sessions key d = .error e := by
  induction ds generalizing entries with
  | nil => cases refused
  | cons d ds ih =>
      rw [List.foldlM_cons] at refused
      rcases bind_eq_error.mp refused with first | ⟨entries', -, others⟩
      · rcases bind_eq_error.mp first with first | ⟨made, -, bad⟩
        · exact ⟨d, _, List.mem_cons_self, first⟩
        · cases bad
      · obtain ⟨d', key, member, refused⟩ := ih others
        exact ⟨d', key, List.mem_cons_of_mem d member, refused⟩

/-! ### The names of all metrics -/

theorem count_of_firstRepeated {seen : Std.TreeSet String} {names : List String} {name : String}
    (found : firstRepeated seen names = some name) :
    name ∈ names ∧ (name ∈ seen ∨ 2 ≤ names.count name) := by
  induction names generalizing seen with
  | nil => cases found
  | cons first names ih =>
      rw [firstRepeated] at found
      split at found
      · cases found
        exact ⟨List.mem_cons_self, .inl ‹_›⟩
      · obtain ⟨member, again⟩ := ih found
        refine ⟨List.mem_cons_of_mem first member, ?_⟩
        -- the name that is found again may have been new only just now
        by_cases same : first = name
        · subst same
          rw [List.count_cons_self]
          exact .inr (Nat.succ_le_succ (List.count_pos_iff.mpr member))
        · rw [List.count_cons_of_ne same]
          refine again.imp_left fun inside => ?_
          rcases Std.TreeSet.mem_insert.mp inside with equal | before
          · exact absurd (Std.LawfulEqCmp.compare_eq_iff_eq.mp equal) same
          · exact before

theorem declared_names {sessions : List String} {ds : List MetricDef} {declared : List Entry}
    (checked : Declared sessions ds declared) :
    declared.map Entry.name = ds.map MetricDef.name := by
  rw [← List.zipIdx_map_fst 0 ds, List.map_map]
  unfold Declared at checked
  generalize ds.zipIdx = numbered at checked
  induction checked with
  | nil => rfl
  | cons first _ ih =>
      obtain ⟨-, -, owner, maxLength, -, -, rfl⟩ := entry_eq_ok.mp first
      exact congrArg _ ih

theorem durations_names (s : Schema) :
    s.durations.map Entry.name = s.sessions.map (· ++ "__duration") := by
  rw [durations, List.map_map]
  conv_rhs => rw [← List.zipIdx_map_fst 1 s.sessions, List.map_map]
  rfl

theorem entries_names {s : Schema} {sessions : List String} {declared : List Entry}
    (checked : Declared sessions s.metrics declared) :
    (declared ++ s.durations).map Entry.name = s.metricNames := by
  rw [List.map_append, declared_names checked, durations_names, metricNames]

/-! ### The schema -/

theorem valid_of_catalog {s : Schema} {c : Catalog} (resolved : s.catalog = .ok c) : s.Valid := by
  obtain ⟨declared, checked⟩ := exists_checked resolved
  obtain ⟨sessionsNamed, nodup⟩ :=
    valid_of_numberSessions (List.nodup_singleton _) checked.numbered
  have each (d : MetricDef) (member : d ∈ s.metrics) :
      ∃ key e, entry ("heartbeat" :: s.sessions) key d = .ok e := by
    obtain ⟨place, here⟩ := List.mem_iff_getElem?.mp member
    obtain ⟨e, -, ok⟩ := metric?_declared resolved here
    exact ⟨_, e, ok⟩
  obtain ⟨notReserved, sessions⟩ := List.nodup_cons.mp nodup
  refine ⟨checked.someMetric, Nat.le_of_succ_le_succ checked.fewSessions, checked.fewMetrics,
    ?wellNamed, notReserved, sessions, ?owners, ?ranges, ?limits, ?metrics⟩
  case wellNamed =>
    refine List.forall_mem_append.mpr ⟨sessionsNamed, List.forall_mem_map.mpr ?_⟩
    intro d member
    obtain ⟨key, e, ok⟩ := each d member
    exact checkName_eq_ok.mp (entry_eq_ok.mp ok).1
  case owners =>
    intro d member name owned
    obtain ⟨key, e, ok⟩ := each d member
    obtain ⟨-, -, owner, maxLength, number, -, -⟩ := entry_eq_ok.mp ok
    exact List.mem_cons.mp (owner_of_sessionOf number name owned)
  case ranges =>
    intro d member
    obtain ⟨key, e, ok⟩ := each d member
    exact range_of_checkRange (entry_eq_ok.mp ok).2.1
  case limits =>
    intro d member
    obtain ⟨key, e, ok⟩ := each d member
    obtain ⟨-, -, owner, maxLength, -, limit, -⟩ := entry_eq_ok.mp ok
    exact limit_of_textLimit limit
  case metrics =>
    rw [← entries_names checked.metrics]
    exact (firstRepeated_eq_none checked.unique).2

theorem describes_of_catalog {s : Schema} {e : SchemaError} (refused : s.catalog = .error e) :
    e.Describes s := by
  -- one step for each check, in the order in which they are made
  rw [catalog_eq_error] at refused
  unfold resolve at refused
  rcases guard_eq_error.mp refused with ⟨noMetric, rfl⟩ | ⟨-, refused⟩
  · exact List.isEmpty_iff.mp noMetric
  rcases guard_eq_error.mp refused with ⟨many, rfl⟩ | ⟨-, refused⟩
  · exact ⟨rfl, Nat.lt_of_succ_lt_succ many⟩
  rcases guard_eq_error.mp refused with ⟨many, rfl⟩ | ⟨-, refused⟩
  · exact ⟨rfl, many⟩
  rcases bind_eq_error.mp refused with refused | ⟨sessions, numbered, refused⟩
  · exact numberSessions_describes rfl (fun _ member => member) refused
  obtain rfl := numberSessions_eq numbered
  rcases bind_eq_error.mp refused with refused | ⟨first, passed, refused⟩
  · obtain ⟨d, key, member, refused⟩ := exists_of_foldlM_declare refused
    exact entry_describes member refused
  obtain ⟨declared, metrics, entries⟩ :=
    exists_declared passed (Array.replicate ("heartbeat" :: s.sessions).length none)
  dsimp only at refused
  split at refused
  · rename_i name repeated
    cases refused
    have repeated : firstRepeated ∅ s.metricNames = some name := by
      rw [← entries_names metrics, ← entries]
      exact repeated
    exact (count_of_firstRepeated repeated).2.resolve_left Std.TreeSet.not_mem_emptyc
  · cases refused

theorem catalog_exists_iff {s : Schema} : (∃ c, s.catalog = .ok c) ↔ s.Valid := by
  constructor
  · rintro ⟨c, resolved⟩
    exact valid_of_catalog resolved
  · intro valid
    by_contra noCatalog
    obtain ⟨e, refused⟩ := exists_error_iff.mpr noCatalog
    exact (describes_of_catalog refused).not_valid valid

theorem validate_eq_error {s : Schema} {e : SchemaError} :
    s.validate = .error e ↔ s.catalog = .error e := by
  rw [validate]
  cases s.catalog with
  | ok c => exact iff_of_false nofun nofun
  | error e' => exact Iff.of_eq ((Except.error.injEq _ _).trans (Except.error.injEq _ _).symm)

theorem validate_eq_ok {s : Schema} : s.validate = .ok () ↔ ∃ c, s.catalog = .ok c := by
  rw [validate]
  cases s.catalog with
  | ok c => exact iff_of_true rfl ⟨c, rfl⟩
  | error e => exact iff_of_false nofun fun ⟨c, resolved⟩ => nomatch resolved

/-- A schema has a catalog, and is found valid, exactly if it is valid; otherwise it is refused, by
both checks for one reason, and the reason describes something that is wrong with the schema. -/
theorem catalog_exists_iff_valid (s : Schema) :
    ((∃ c, s.catalog = .ok c) ↔ s.Valid) ∧ (s.validate = .ok () ↔ s.Valid) ∧
      ∀ e, (s.validate = .error e ↔ s.catalog = .error e) ∧
        (s.catalog = .error e → e.Describes s) :=
  ⟨catalog_exists_iff, validate_eq_ok.trans catalog_exists_iff,
    fun _ => ⟨validate_eq_error, describes_of_catalog⟩⟩

/-- A metric may not have the name of a session's duration timer. -/
theorem catalog_exists_iff_valid_of_taken_name :
    let s : Schema := { sessions := ["s"], metrics := [.unsigned "a", .timer "s__duration"] }
    s.catalog = .error (.duplicateMetric "s__duration") ∧ 2 ≤ s.metricNames.count "s__duration" ∧
      ¬s.Valid := by
  intro s
  have refused : s.catalog = .error (.duplicateMetric "s__duration") := by decide +kernel
  obtain ⟨accepted, -, reasons⟩ := catalog_exists_iff_valid s
  have repeated := (reasons (.duplicateMetric "s__duration")).2 refused
  exact ⟨refused, repeated, fun valid => exists_error_iff.mp ⟨_, refused⟩ (accepted.mpr valid)⟩

end Schema

end DeviceTelemetry
