import DeviceTelemetry.Proofs.SchemaValidity

/-!
# Catalogs as indices

The vectors that a schema is resolved to agree with each other and with the schema, so what a
catalog finds by a number agrees with what it finds by a name (`Schema.catalog_indexes`). Everything
rests on three facts: what the loops store is what a search would find; a metric is either declared,
and then it stands where it was declared, or it is the duration timer of a session, and then it
stands behind all declared metrics in the order of the sessions (`Schema.metric?_cases`); and no
name comes twice.
-/

set_option autoImplicit false

namespace DeviceTelemetry

open Catalog (Entry heartbeatName keyAt sessionAt)

/-- The metric `e` of a catalog is the one that `d` declares. -/
structure Catalog.Declares (c : Catalog) (d : MetricDef) (e : Entry) : Prop where
  name : e.name = d.name
  kind : e.kind = d.kind
  min : e.min = d.min
  max : e.max = d.max
  maxLength : e.maxLength = if d.kind = .text then (d.maxLength.map UInt64.toNat).getD 0 else 0
  session : c.sessionName? e.session = some (d.session.getD "heartbeat")

/-- All that is found in a catalog agrees, with each other and with the schema. -/
structure Catalog.Indexes (c : Catalog) (s : Schema) : Prop where
  size : c.size = s.metrics.length + s.sessions.length
  sessionCount : c.sessionCount = s.sessions.length + 1
  timers : c.sessionTimers.size = c.sessionCount
  lists : c.sessionMetrics.size = c.sessionCount
  /-- The keys are the numbers below the size, and they fit into 16 bits. -/
  metric : ∀ key, (∃ e, c.metric? key = some e) ↔ key < c.size
  /-- The words that a metric carries. -/
  stored : ∀ key e, c.metric? key = some e → e.key.toNat = key ∧ e.owner.toNat < c.sessionCount
  narrowKey : ∀ key < c.size, (UInt16.ofNat key).toNat = key
  narrowSession : ∀ session < c.sessionCount, (UInt8.ofNat session).toNat = session
  declared : ∀ key d, s.metrics[key]? = some d → ∃ e, c.metric? key = some e ∧ c.Declares d e
  keyOf : ∀ name key, c.keyOf? name = some key ↔ ∃ e, c.metric? key = some e ∧ e.name = name
  sessionName : ∀ session, c.sessionName? session = ("heartbeat" :: s.sessions)[session]?
  sessionKey : ∀ name session,
    c.sessionKey? name = some session ↔ c.sessionName? session = some name
  ordered : ∀ session, (c.sessionKeys session).Pairwise (· < ·)
  own : ∀ session key,
    key ∈ c.sessionKeys session ↔ ∃ e, c.metric? key = some e ∧ e.session = session
  apart : ∀ session session', session ≠ session' →
    (c.sessionKeys session).Disjoint (c.sessionKeys session')
  complete : (c.sessionNumbers.flatMap c.sessionKeys).Perm (List.range c.size)
  noDuration : ∀ session, session = 0 ∨ c.sessionCount ≤ session → c.durationKey? session = none
  /-- The heartbeat has number 0, so the numbers of the user sessions are ahead of their places. -/
  duration : ∀ i name, s.sessions[i]? = some name →
    c.durationKey? (i + 1) = some (s.metrics.length + i) ∧
      (∃ e, c.metric? (s.metrics.length + i) = some e ∧ e.name = name ++ "__duration" ∧
        e.kind = .timer ∧ e.session = i + 1) ∧
      (c.sessionKeys (i + 1)).getLast? = some (s.metrics.length + i)

namespace Schema

variable {s : Schema} {c : Catalog} {key session : Nat} {d : MetricDef} {e : Entry}

/-! ### The metrics -/

/-- A metric is declared, or it is the duration timer of a session. -/
theorem metric?_cases (valid : s.catalog = .ok c) (found : c.metric? key = some e) :
    (∃ d, s.metrics[key]? = some d ∧
        entry (heartbeatName :: s.sessions) (keyAt key) d = .ok e) ∨
      ∃ i name, s.sessions[i]? = some name ∧ key = s.metrics.length + i ∧
        e = durationEntry (keyAt key) name (sessionAt (i + 1)) := by
  by_cases front : key < s.metrics.length
  · have here := List.getElem?_eq_getElem front
    obtain ⟨e', found', ok⟩ := metric?_declared valid here
    obtain rfl := Option.some.inj (found'.symm.trans found)
    exact .inl ⟨_, here, ok⟩
  · have within := Catalog.lt_size_iff.mpr ⟨e, found⟩
    rw [size_eq valid] at within
    obtain ⟨i, rfl⟩ := Nat.exists_eq_add_of_le (Nat.not_lt.mp front)
    have here := List.getElem?_eq_getElem (Nat.lt_of_add_lt_add_left within)
    have found' := metric?_duration valid here
    exact .inr ⟨i, _, here, rfl, Option.some.inj (found.symm.trans found')⟩

theorem owner_name {owner : UInt8} (valid : s.catalog = .ok c)
    (ok : sessionOf (heartbeatName :: s.sessions) d = .ok owner) :
    (heartbeatName :: s.sessions)[owner.toNat]? = some (d.session.getD "heartbeat") := by
  rcases sessionOf_eq_ok.mp ok with ⟨unowned, rfl⟩ | ⟨name, place, owned, found, rfl⟩
  · rw [unowned]
    rfl
  · obtain ⟨within, here, -⟩ := List.idxOf?_eq_some_iff.mp found
    have few := sessionCount_eq valid ▸ c.sessionCount_le_maxSessions
    rw [List.length_cons] at within
    rw [owned, Catalog.toNat_sessionAt (by omega)]
    exact List.getElem?_eq_some_iff.mpr ⟨within, here⟩

theorem textLimit_eq {maxLength : Nat} (ok : textLimit d = .ok maxLength) :
    maxLength = if d.kind = .text then (d.maxLength.map UInt64.toNat).getD 0 else 0 := by
  rcases textLimit_eq_ok.mp ok with ⟨text, limit, given, -, -, rfl⟩ | ⟨other, rfl⟩
  · rw [if_pos text, given]
    rfl
  · rw [if_neg other]

theorem sessionName?_eq (valid : s.catalog = .ok c) (session : Nat) :
    c.sessionName? session = (heartbeatName :: s.sessions)[session]? := by
  obtain ⟨declared, checked⟩ := exists_checked valid
  rw [Catalog.sessionName?, checked.sessions, List.getElem?_toArray]

theorem declares_of_entry {key : UInt16} (valid : s.catalog = .ok c)
    (ok : entry (heartbeatName :: s.sessions) key d = .ok e) : c.Declares d e := by
  obtain ⟨-, -, owner, maxLength, number, limit, rfl⟩ := entry_eq_ok.mp ok
  exact ⟨rfl, rfl, rfl, rfl, textLimit_eq limit,
    (sessionName?_eq valid _).trans (owner_name valid number)⟩

/-! ### The sessions -/

theorem sessionKey?_eq_some_iff (valid : s.catalog = .ok c) {name : String} :
    c.sessionKey? name = some session ↔ c.sessionName? session = some name := by
  have schema := valid_of_catalog valid
  obtain ⟨declared, checked⟩ := exists_checked valid
  have unique : (heartbeatName :: s.sessions).Nodup :=
    List.nodup_cons.mpr ⟨schema.notReserved, schema.sessions⟩
  rw [← List.map_id (heartbeatName :: s.sessions)] at unique
  rw [Catalog.sessionKey?_eq, checked.sessions]
  refine (findIdx?_eq_some_iff_of_nodup (f := id) unique).trans ?_
  rw [Option.map_id, Catalog.sessionName?, checked.sessions]
  rfl

theorem disjoint_sessionKeys (c : Catalog) {session session' : Nat} (other : session ≠ session') :
    (c.sessionKeys session).Disjoint (c.sessionKeys session') := by
  intro key inSession inSession'
  rw [Catalog.mem_sessionKeys] at inSession inSession'
  exact other (inSession'.unique inSession)

theorem flatMap_sessionKeys_perm (c : Catalog) :
    (c.sessionNumbers.flatMap c.sessionKeys).Perm (List.range c.size) := by
  rw [Catalog.sessionNumbers_eq]
  have unique : ((List.range c.sessionCount).flatMap c.sessionKeys).Nodup := by
    refine List.nodup_flatMap.mpr ⟨fun session _ => c.nodup_sessionKeys session, ?_⟩
    exact List.nodup_range.imp (disjoint_sessionKeys c)
  refine (List.perm_ext_iff_of_nodup unique List.nodup_range).mpr fun key => ?_
  rw [List.mem_flatMap, List.mem_range]
  constructor
  · rintro ⟨session, -, member⟩
    obtain ⟨e, found, -⟩ := (Catalog.mem_sessionKeys.mp member).exists_metric
    exact Catalog.lt_size_iff.mpr ⟨e, found⟩
  · intro within
    obtain ⟨e, found⟩ := Catalog.lt_size_iff.mp within
    refine ⟨e.session, List.mem_range.mpr (Catalog.session_lt found), ?_⟩
    exact Catalog.mem_sessionKeys.mpr ((Catalog.inSession_iff found).mpr rfl)

/-! ### The duration timers -/

/-- No metric of a session has a greater key than its duration timer. -/
theorem le_durationKey (valid : s.catalog = .ok c) {i : Nat}
    (inSession : c.InSession (i + 1) key) : key ≤ s.metrics.length + i := by
  obtain ⟨e, found, own⟩ := inSession.exists_metric
  rcases metric?_cases valid found with ⟨d, declared, -⟩ | ⟨j, name, declared, rfl, rfl⟩
  · exact Nat.le_add_right_of_le (Nat.le_of_lt (List.getElem?_eq_some_iff.mp declared).1)
  · rw [session_durationEntry valid (List.getElem?_eq_some_iff.mp declared).1] at own
    exact Nat.add_le_add_left (Nat.le_of_eq (Nat.succ.inj own)) _

theorem getLast?_sessionKeys (valid : s.catalog = .ok c) {i : Nat} {name : String}
    (declared : s.sessions[i]? = some name) :
    (c.sessionKeys (i + 1)).getLast? = some (s.metrics.length + i) := by
  obtain ⟨later, split, behind⟩ :=
    Catalog.exists_sessionKeys_eq (metric?_duration valid declared)
  rw [session_durationEntry valid (List.getElem?_eq_some_iff.mp declared).1] at split behind
  have last : later = [] := by
    refine List.eq_nil_iff_forall_not_mem.mpr fun other member => ?_
    obtain ⟨inSession, greater⟩ := behind other member
    exact absurd (le_durationKey valid inSession) (Nat.not_le_of_lt greater)
  subst last
  exact (congrArg List.getLast? split).trans List.getLast?_concat

/-- The catalog of a schema is an index of the schema. -/
theorem catalog_indexes (valid : s.catalog = .ok c) : c.Indexes s where
  size := size_eq valid
  sessionCount := sessionCount_eq valid
  timers := c.size_sessionTimers
  lists := c.size_sessionMetrics
  metric _ := Catalog.lt_size_iff.symm
  stored _ _ found := ⟨Catalog.toNat_key found, Catalog.session_lt found⟩
  narrowKey key within :=
    Catalog.toNat_keyAt (Nat.le_trans (Nat.le_of_lt within) c.size_le_maxMetrics)
  narrowSession session within :=
    Catalog.toNat_sessionAt (Nat.le_trans (Nat.le_of_lt within) c.sessionCount_le_maxSessions)
  declared key d here := by
    obtain ⟨e, found, ok⟩ := metric?_declared valid here
    exact ⟨e, found, declares_of_entry valid ok⟩
  keyOf _ _ := keyOf?_eq_some_iff valid
  sessionName := sessionName?_eq valid
  sessionKey _ _ := sessionKey?_eq_some_iff valid
  ordered session := by
    rw [Catalog.sessionKeys_eq]
    exact List.pairwise_lt_range.filter _
  own session key := by
    rw [Catalog.mem_sessionKeys]
    constructor
    · exact Catalog.InSession.exists_metric
    · rintro ⟨e, found, rfl⟩
      exact (Catalog.inSession_iff found).mpr rfl
  apart _ _ := disjoint_sessionKeys c
  complete := flatMap_sessionKeys_perm c
  noDuration session outside := by
    have count := sessionCount_eq valid
    refine Option.eq_none_iff_forall_ne_some.mpr fun key found => ?_
    obtain ⟨i, user, rfl, -⟩ := (durationKey?_eq_some_iff valid).mp found
    omega
  duration i name declared :=
    ⟨(durationKey?_eq_some_iff valid).mpr ⟨i, (List.getElem?_eq_some_iff.mp declared).1, rfl, rfl⟩,
      ⟨_, metric?_duration valid declared, rfl, rfl,
        session_durationEntry valid (List.getElem?_eq_some_iff.mp declared).1 _ _⟩,
      getLast?_sessionKeys valid declared⟩

/-- The metrics of the first session stand between those of the second and of the heartbeat. -/
theorem catalog_indexes_of_two_sessions :
    let s : Schema := {
      sessions := ["up", "down"]
      metrics := [(MetricDef.unsigned "a").inSession "down", (MetricDef.text "b" 9).inSession "up",
        .timer "c"] }
    ∃ c, s.catalog = .ok c ∧ c.Indexes s ∧ c.sessionNumbers.map c.sessionKeys =
      [[2], [1, 3], [0, 4]] := by
  intro s
  have resolved : s.catalog = .ok _ := rfl
  exact ⟨_, resolved, catalog_indexes resolved, by decide⟩

end Schema

end DeviceTelemetry
