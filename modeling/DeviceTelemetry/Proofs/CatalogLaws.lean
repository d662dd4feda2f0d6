import DeviceTelemetry.Schema.Catalog
import Mathlib.Data.List.Forall2

/-!
# What a catalog guarantees

What a catalog looks up in its vectors is what a search through its metrics would find: the stored
keys and numbers are places (`keyOf?_eq`, `sessionKey?_eq`), the list of a session's keys is a
filter of all keys (`sessionKeys_eq`), and the duration timers stand behind all other metrics
(`durationKey?_eq`). A schema that is found valid has passed every check (`catalog_eq_ok`); what the
checks promise of the numbered metrics is stated here too.
-/

set_option autoImplicit false

namespace DeviceTelemetry

section

variable {α β : Type}

theorem exists_of_forall₂ {R : α → β → Prop} {as : List α} {bs : List β}
    (all : List.Forall₂ R as bs) {b : β} (member : b ∈ bs) : ∃ a ∈ as, R a b := by
  induction all with
  | nil => cases member
  | cons first others ih =>
      rcases List.mem_cons.mp member with rfl | later
      · exact ⟨_, List.mem_cons_self, first⟩
      · obtain ⟨a, inside, related⟩ := ih later
        exact ⟨a, List.mem_cons_of_mem _ inside, related⟩

theorem exists_getElem?_of_forall₂ {R : α → β → Prop} {as : List α} {bs : List β}
    (all : List.Forall₂ R as bs) {i : Nat} {a : α} (here : as[i]? = some a) :
    ∃ b, bs[i]? = some b ∧ R a b := by
  induction all generalizing i with
  | nil => cases here
  | cons first others ih =>
      cases i with
      | zero =>
          cases here
          exact ⟨_, rfl, first⟩
      | succ i => exact ih here

end

namespace Catalog

variable {c : Catalog} {session session' key : Nat} {e : Entry}

theorem inSession_iff (metric : c.metric? key = some e) :
    c.InSession session key ↔ session = e.session := by
  unfold InSession
  rw [metric, Option.any_some, decide_eq_true_iff]
  exact eq_comm

theorem InSession.exists_metric (h : c.InSession session key) :
    ∃ e, c.metric? key = some e ∧ e.session = session := by
  cases found : c.metric? key with
  | none =>
      rw [InSession, found] at h
      cases h
  | some e => exact ⟨e, rfl, ((inSession_iff found).mp h).symm⟩

theorem InSession.unique (h : c.InSession session key) (h' : c.InSession session' key) :
    session' = session := by
  obtain ⟨e, found, rfl⟩ := h.exists_metric
  exact (inSession_iff found).mp h'

theorem lt_size_iff : key < c.size ↔ ∃ e, c.metric? key = some e := by
  constructor
  · intro within
    exact ⟨_, Array.getElem?_eq_getElem within⟩
  · rintro ⟨e, found⟩
    exact (Array.getElem?_eq_some_iff.mp found).1

/-! ### What is looked up -/

theorem size_le_maxMetrics (c : Catalog) : c.size ≤ maxMetrics := c.consistent.fewMetrics

theorem sessionCount_le_maxSessions (c : Catalog) : c.sessionCount ≤ maxSessions :=
  c.consistent.fewSessions

theorem toNat_keyAt {place : Nat} (few : place ≤ maxMetrics) : (keyAt place).toNat = place :=
  UInt16.toNat_ofNat_of_lt' (Nat.lt_succ_of_le few)

theorem toNat_sessionAt {place : Nat} (few : place ≤ maxSessions) :
    (sessionAt place).toNat = place :=
  UInt8.toNat_ofNat_of_lt' (Nat.lt_succ_of_le few)

theorem toNat_key (found : c.metric? key = some e) : e.key.toNat = key := by
  have within := Nat.le_of_lt (lt_size_iff.mpr ⟨e, found⟩)
  rw [c.consistent.key key e found, toNat_keyAt (Nat.le_trans within c.size_le_maxMetrics)]

theorem session_lt (found : c.metric? key = some e) : e.session < c.sessionCount :=
  c.consistent.owner key e found

theorem keyOf?_eq (c : Catalog) (name : String) :
    c.keyOf? name = c.entries.findIdx? (·.name == name) := by
  rw [keyOf?, Array.find?_eq_bind_findIdx?_getElem?]
  cases found : c.entries.findIdx? (·.name == name) with
  | none => rfl
  | some place =>
      obtain ⟨within, -⟩ := Array.findIdx?_eq_some_iff_getElem.mp found
      have here : c.metric? place = some c.entries[place] := Array.getElem?_eq_getElem within
      rw [Option.bind_some, show c.entries[place]? = _ from here, Option.map_some, toNat_key here]

theorem sessionKey?_eq (c : Catalog) (name : String) :
    c.sessionKey? name = c.sessions.findIdx? (· == name) := by
  rw [sessionKey?]
  cases found : c.sessions.findIdx? (· == name) with
  | none => rfl
  | some place =>
      obtain ⟨within, -⟩ := Array.findIdx?_eq_some_iff_getElem.mp found
      rw [Option.map_some, toNat_sessionAt
        (Nat.le_trans (Nat.le_of_lt within) c.sessionCount_le_maxSessions)]

theorem sessionNumbers_eq (c : Catalog) : c.sessionNumbers = List.range c.sessionCount := by
  refine (List.map_congr_left fun place member => ?_).trans (List.map_id _)
  exact toNat_sessionAt
    (Nat.le_trans (Nat.le_of_lt (List.mem_range.mp member)) c.sessionCount_le_maxSessions)

theorem mem_sessionNumbers : session ∈ c.sessionNumbers ↔ session < c.sessionCount := by
  rw [sessionNumbers_eq, List.mem_range]

/-- The stored keys, one after the other, are all the keys. -/
theorem map_key_eq_range (c : Catalog) :
    c.entries.toList.map (·.key.toNat) = List.range c.size := by
  refine List.ext_getElem (by rw [List.length_map, List.length_range]; rfl) fun place _ _ => ?_
  rw [List.getElem_map, List.getElem_range, Array.getElem_toList]
  exact toNat_key (Array.getElem?_eq_getElem _)

/-- The stored keys of a session are those that a search through the metrics finds. -/
theorem sessionKeys_eq (c : Catalog) (session : Nat) :
    c.sessionKeys session = (List.range c.size).filter (c.InSession session) := by
  have own (e : Entry) (member : e ∈ c.entries.toList) :
      decide (c.InSession session e.key.toNat) = decide (e.session = session) := by
    obtain ⟨place, here⟩ := List.mem_iff_getElem?.mp member
    rw [Array.getElem?_toList] at here
    rw [toNat_key here, decide_eq_decide, inSession_iff here]
    exact eq_comm
  calc c.sessionKeys session
      = (c.entries.toList.filter (·.session = session)).map (·.key.toNat) := ?stored
    _ = (c.entries.toList.map (·.key.toNat)).filter (c.InSession session) := by
        rw [List.filter_map]
        exact congrArg _ (List.filter_congr own).symm
    _ = (List.range c.size).filter (c.InSession session) := by rw [map_key_eq_range]
  case stored =>
    rw [sessionKeys, c.consistent.metrics]
    by_cases known : session < c.sessions.size
    · rw [if_pos known, Option.getD_some, List.map_map]
      rfl
    · have none : c.entries.toList.filter (·.session = session) = [] := by
        refine List.filter_eq_nil_iff.mpr fun e member own => ?_
        obtain ⟨place, here⟩ := List.mem_iff_getElem?.mp member
        rw [Array.getElem?_toList] at here
        exact known (of_decide_eq_true own ▸ session_lt here)
      rw [if_neg known, none]
      rfl

theorem nodup_sessionKeys (c : Catalog) (session : Nat) : (c.sessionKeys session).Nodup := by
  rw [sessionKeys_eq]
  exact List.nodup_range.filter _

theorem durationKey?_eq (c : Catalog) (session : Nat) :
    c.durationKey? session =
      if session ≠ heartbeat ∧ session < c.sessionCount then
        some (c.size + session - c.sessionCount)
      else none := by
  rw [durationKey?, c.consistent.timers]
  by_cases known : session < c.sessions.size
  · rw [if_pos known]
    by_cases beat : session = heartbeat
    · rw [if_pos beat, if_neg fun user => user.1 beat]
      rfl
    · have few : c.size + session - c.sessionCount ≤ maxMetrics := by
        have size := c.size_le_maxMetrics
        have known : session < c.sessionCount := known
        omega
      rw [if_neg beat, if_pos ⟨beat, known⟩]
      exact congrArg some (toNat_keyAt few)
  · rw [if_neg known, if_neg fun user => known user.2]
    rfl

theorem user_of_durationKey? (found : c.durationKey? session = some key) :
    session ≠ heartbeat ∧ session < c.sessionCount := by
  rw [durationKey?_eq] at found
  split at found
  · assumption
  · cases found

theorem size_eq_of_getElem? {α : Type} {xs : Array α} {n : Nat} {f : Nat → α}
    (all : ∀ i : Nat, xs[i]? = if i < n then some (f i) else none) : xs.size = n := by
  refine Nat.le_antisymm (Nat.not_lt.mp fun more => ?_) (Nat.not_lt.mp fun fewer => ?_)
  · have none := all n
    rw [if_neg (Nat.lt_irrefl n), Array.getElem?_eq_getElem more] at none
    cases none
  · have some := all xs.size
    rw [if_pos fewer, Array.getElem?_eq_none (Nat.le_refl _)] at some
    cases some

theorem size_sessionTimers (c : Catalog) : c.sessionTimers.size = c.sessionCount :=
  size_eq_of_getElem? c.consistent.timers

theorem size_sessionMetrics (c : Catalog) : c.sessionMetrics.size = c.sessionCount :=
  size_eq_of_getElem? c.consistent.metrics

theorem mem_sessionKeys : key ∈ c.sessionKeys session ↔ c.InSession session key := by
  rw [sessionKeys_eq, List.mem_filter, List.mem_range, decide_eq_true_iff]
  refine and_iff_right_of_imp fun inSession => ?_
  obtain ⟨e, found, -⟩ := inSession.exists_metric
  exact lt_size_iff.mpr ⟨e, found⟩

theorem exists_sessionKeys_eq (found : c.metric? key = some e) :
    ∃ later, c.sessionKeys e.session =
        (List.range key).filter (c.InSession e.session) ++ key :: later ∧
      ∀ other ∈ later, c.InSession e.session other ∧ key < other := by
  obtain ⟨more, size⟩ := Nat.exists_eq_add_of_le (Nat.succ_le_of_lt (lt_size_iff.mpr ⟨e, found⟩))
  have inSession : c.InSession e.session key := (inSession_iff found).mpr rfl
  refine ⟨((List.range more).map (key.succ + ·)).filter (c.InSession e.session), ?_, ?_⟩
  · rw [sessionKeys_eq, size, List.range_add, List.filter_append, List.range_succ,
      List.filter_append, List.filter_singleton, decide_eq_true inSession, List.append_assoc]
    rfl
  · intro other member
    obtain ⟨behind, inSession⟩ := List.mem_filter.mp member
    obtain ⟨i, -, rfl⟩ := List.mem_map.mp behind
    exact ⟨of_decide_eq_true inSession, by omega⟩

end Catalog

namespace Schema

open Catalog (Entry Vectors maxTextLength maxSessions maxMetrics heartbeatName keyAt sessionAt)

def durations (s : Schema) : List Entry :=
  (s.sessions.zipIdx 1).map fun (name, session) =>
    durationEntry (keyAt (s.metrics.length + session - 1)) name (sessionAt session)

/-- The declared metrics have been checked one after the other. -/
def Declared (sessions : List String) (ds : List MetricDef) (declared : List Entry) : Prop :=
  List.Forall₂ (fun (d : MetricDef × Nat) e => entry sessions (keyAt d.2) d.1 = .ok e) ds.zipIdx
    declared

theorem foldlM_declare {sessions : List String} {ds : List MetricDef}
    {entries result : Array Entry} (ok : ds.foldlM (declare sessions) entries = .ok result) :
    ∃ declared, result.toList = entries.toList ++ declared ∧
      List.Forall₂ (fun (d : MetricDef × Nat) e => entry sessions (keyAt d.2) d.1 = .ok e)
        (ds.zipIdx entries.size) declared := by
  induction ds generalizing entries with
  | nil =>
      cases ok
      exact ⟨[], (List.append_nil _).symm, .nil⟩
  | cons d ds ih =>
      rw [List.foldlM_cons] at ok
      obtain ⟨entries', first, ok⟩ := bind_eq_ok.mp ok
      obtain ⟨e, made, rfl⟩ := declare_eq_ok.mp first
      obtain ⟨declared, all, checked⟩ := ih ok
      rw [Array.size_push] at checked
      rw [Array.toList_push, List.append_assoc, List.singleton_append] at all
      exact ⟨e :: declared, all, .cons made checked⟩

theorem foldl_addTimer (names : List String) (first : Nat)
    (numbered : Array Entry × Array (Option UInt16)) :
    ((names.zipIdx first).foldl addTimer numbered).1.toList = numbered.1.toList ++
      (names.zipIdx first).map fun (name, session) =>
        durationEntry (keyAt (numbered.1.size + session - first)) name (sessionAt session) := by
  induction names generalizing first numbered with
  | nil => exact (List.append_nil _).symm
  | cons name names ih =>
      rw [List.zipIdx_cons, List.foldl_cons, ih, List.map_cons]
      simp only [addTimer, Array.toList_push, Array.size_push, List.append_assoc,
        List.singleton_append, Nat.add_sub_cancel]
      refine congrArg (_ ++ _ :: ·) (List.map_congr_left fun later _ => ?_)
      rw [show numbered.1.size + 1 + later.2 - (first + 1) = numbered.1.size + later.2 - first by
        omega]

/-- The loops put the declared metrics and then the duration timers. -/
theorem exists_declared {s : Schema} {sessions : List String} {first : Array Entry}
    (passed : s.metrics.foldlM (declare sessions) #[] = .ok first)
    (timers : Array (Option UInt16)) :
    ∃ declared, Declared sessions s.metrics declared ∧
      ((s.sessions.zipIdx 1).foldl addTimer (first, timers)).1.toList =
        declared ++ s.durations := by
  obtain ⟨declared, all, metrics⟩ := foldlM_declare passed
  rw [List.nil_append] at all
  have size : first.size = s.metrics.length := by
    rw [← Array.length_toList, all, ← metrics.length_eq, List.length_zipIdx]
  refine ⟨declared, metrics, ?_⟩
  rw [foldl_addTimer, all, size]
  rfl

theorem catalog_eq_ok {s : Schema} {c : Catalog} :
    s.catalog = .ok c ↔ s.resolve = .ok c.toVectors := by
  rw [catalog]
  constructor
  · intro ok
    split at ok
    · rename_i v resolved
      cases ok
      exact resolved
    · cases ok
  · intro resolved
    split
    · rename_i v resolved'
      cases resolved'.symm.trans resolved
      rfl
    · rename_i e refused
      cases refused.symm.trans resolved

theorem catalog_eq_error {s : Schema} {e : SchemaError} :
    s.catalog = .error e ↔ s.resolve = .error e := by
  rw [catalog]
  split
  · rename_i v resolved
    exact iff_of_false nofun fun refused => nomatch resolved.symm.trans refused
  · rename_i e' refused
    rw [refused, Except.error.injEq, Except.error.injEq]

/-- The schema has passed all checks, and so its declared metrics stand in front of the duration
timers, and the heartbeat in front of the user sessions. -/
structure Checked (s : Schema) (v : Vectors) (declared : List Entry) : Prop where
  someMetric : s.metrics ≠ []
  fewSessions : s.sessions.length + 1 ≤ maxSessions
  fewMetrics : s.metrics.length + s.sessions.length ≤ maxMetrics
  numbered : numberSessions [heartbeatName] s.sessions = .ok (heartbeatName :: s.sessions)
  metrics : Declared (heartbeatName :: s.sessions) s.metrics declared
  unique : firstRepeated ∅ ((declared ++ s.durations).map Entry.name) = none
  entries : v.entries.toList = declared ++ s.durations
  sessions : v.sessions = (heartbeatName :: s.sessions).toArray

theorem checked_of_resolve {s : Schema} {v : Vectors} (ok : s.resolve = .ok v) :
    ∃ declared, Checked s v declared := by
  unfold resolve at ok
  obtain ⟨someMetric, ok⟩ := guard_eq_ok.mp ok
  obtain ⟨fewSessions, ok⟩ := guard_eq_ok.mp ok
  obtain ⟨fewMetrics, ok⟩ := guard_eq_ok.mp ok
  obtain ⟨sessions, known, ok⟩ := bind_eq_ok.mp ok
  obtain rfl := numberSessions_eq known
  obtain ⟨first, passed, ok⟩ := bind_eq_ok.mp ok
  obtain ⟨declared, metrics, entries⟩ :=
    exists_declared passed (Array.replicate (heartbeatName :: s.sessions).length none)
  dsimp only at ok
  split at ok
  · cases ok
  · rename_i unique
    cases ok
    exact ⟨declared, fun none => someMetric (List.isEmpty_iff.mpr none), Nat.not_lt.mp fewSessions,
      Nat.not_lt.mp fewMetrics, known, metrics, entries ▸ unique, entries, rfl⟩

theorem exists_checked {s : Schema} {c : Catalog} (valid : s.catalog = .ok c) :
    ∃ declared, Checked s c.toVectors declared :=
  checked_of_resolve (catalog_eq_ok.mp valid)

theorem sessionOf_eq_ok {sessions : List String} {d : MetricDef} {owner : UInt8} :
    sessionOf sessions d = .ok owner ↔
      (d.session = none ∧ owner = sessionAt Catalog.heartbeat) ∨
        ∃ name place, d.session = some name ∧ sessions.idxOf? name = some place ∧
          owner = sessionAt place := by
  rw [sessionOf]
  cases d.session with
  | none =>
      constructor
      · rintro ⟨⟩
        exact .inl ⟨rfl, rfl⟩
      · rintro (⟨-, rfl⟩ | ⟨name, place, owned, -⟩)
        · rfl
        · cases owned
  | some name =>
      dsimp only
      constructor
      · intro ok
        split at ok
        · rename_i place found
          cases ok
          exact .inr ⟨name, place, rfl, found, rfl⟩
        · cases ok
      · rintro (⟨owned, -⟩ | ⟨name', place, owned, found, rfl⟩)
        · cases owned
        · cases owned
          rw [found]

theorem textLimit_eq_ok {d : MetricDef} {limit : Nat} :
    textLimit d = .ok limit ↔
      (d.kind = .text ∧ ∃ n, d.maxLength = some n ∧
        1 ≤ n.toNat ∧ n.toNat ≤ maxTextLength ∧ limit = n.toNat) ∨
      (d.kind ≠ .text ∧ limit = 0) := by
  rw [textLimit]
  by_cases text : d.kind = .text
  · rw [if_pos text]
    cases d.maxLength with
    | none =>
        refine iff_of_false nofun ?_
        rintro (⟨-, n, given, -⟩ | ⟨other, -⟩)
        · cases given
        · exact other text
    | some n =>
        dsimp only
        constructor
        · intro ok
          split at ok
          · rename_i within
            cases ok
            exact .inl ⟨text, n, rfl, within.1, within.2, rfl⟩
          · cases ok
        · rintro (⟨-, n', given, above, below, rfl⟩ | ⟨other, -⟩)
          · cases given
            exact if_pos ⟨above, below⟩
          · exact absurd text other
  · rw [if_neg text]
    constructor
    · rintro ⟨⟩
      exact .inr ⟨text, rfl⟩
    · rintro (⟨text', -⟩ | ⟨-, rfl⟩)
      · exact absurd text' text
      · rfl

theorem textLimit_le {d : MetricDef} {limit : Nat} (ok : textLimit d = .ok limit) :
    limit ≤ maxTextLength := by
  rcases textLimit_eq_ok.mp ok with ⟨-, n, -, -, below, rfl⟩ | ⟨-, rfl⟩
  · exact below
  · exact Nat.zero_le _

theorem sessionCount_eq {s : Schema} {c : Catalog} (valid : s.catalog = .ok c) :
    c.sessionCount = s.sessions.length + 1 := by
  obtain ⟨declared, checked⟩ := exists_checked valid
  rw [Catalog.sessionCount, checked.sessions, List.size_toArray, List.length_cons]

theorem length_durations (s : Schema) : s.durations.length = s.sessions.length := by
  rw [durations, List.length_map, List.length_zipIdx]

theorem Declared.length_eq {sessions : List String} {ds : List MetricDef} {declared : List Entry}
    (h : Declared sessions ds declared) : declared.length = ds.length := by
  rw [← List.Forall₂.length_eq h, List.length_zipIdx]

theorem size_eq {s : Schema} {c : Catalog} (valid : s.catalog = .ok c) :
    c.size = s.metrics.length + s.sessions.length := by
  obtain ⟨declared, checked⟩ := exists_checked valid
  rw [Catalog.size, ← Array.length_toList, checked.entries, List.length_append, length_durations,
    checked.metrics.length_eq]

theorem metric?_eq {s : Schema} {c : Catalog} {declared : List Entry}
    (checked : Checked s c.toVectors declared) (key : Nat) :
    c.metric? key = (declared ++ s.durations)[key]? := by
  rw [Catalog.metric?, ← Array.getElem?_toList, checked.entries]

theorem metric?_declared {s : Schema} {c : Catalog} (valid : s.catalog = .ok c) {key : Nat}
    {d : MetricDef} (declared : s.metrics[key]? = some d) :
    ∃ e, c.metric? key = some e ∧ entry (heartbeatName :: s.sessions) (keyAt key) d = .ok e := by
  obtain ⟨entries, checked⟩ := exists_checked valid
  have numbered : s.metrics.zipIdx[key]? = some (d, key) := by
    rw [List.getElem?_zipIdx, declared, Option.map_some, Nat.zero_add]
  obtain ⟨e, here, ok⟩ := exists_getElem?_of_forall₂ checked.metrics numbered
  refine ⟨e, ?_, ok⟩
  rw [metric?_eq checked, List.getElem?_append_left (List.getElem?_eq_some_iff.mp here).1, here]

theorem metric?_duration {s : Schema} {c : Catalog} (valid : s.catalog = .ok c) {i : Nat}
    {name : String} (declared : s.sessions[i]? = some name) :
    c.metric? (s.metrics.length + i) =
      some (durationEntry (keyAt (s.metrics.length + i)) name (sessionAt (i + 1))) := by
  obtain ⟨entries, checked⟩ := exists_checked valid
  rw [metric?_eq checked, ← checked.metrics.length_eq,
    List.getElem?_append_right (Nat.le_add_right _ i), Nat.add_sub_cancel_left, durations,
    List.getElem?_map, List.getElem?_zipIdx, declared, checked.metrics.length_eq]
  simp only [Option.map_some, Nat.add_comm 1 i, ← Nat.add_assoc, Nat.add_sub_cancel]

/-- The number of the duration timer's session has not been cut off. -/
theorem session_durationEntry {s : Schema} {c : Catalog} (valid : s.catalog = .ok c) {i : Nat}
    (user : i < s.sessions.length) (key : UInt16) (name : String) :
    (durationEntry key name (sessionAt (i + 1))).session = i + 1 := by
  have few := sessionCount_eq valid ▸ c.sessionCount_le_maxSessions
  exact Catalog.toNat_sessionAt (by omega)

theorem heartbeat_lt {s : Schema} {c : Catalog} (valid : s.catalog = .ok c) :
    Catalog.heartbeat < c.sessionCount := by
  rw [sessionCount_eq valid]
  exact Nat.succ_pos _

theorem maxLength_le {s : Schema} {c : Catalog} (valid : s.catalog = .ok c) {key : Nat} {e : Entry}
    (found : c.metric? key = some e) : e.maxLength ≤ maxTextLength := by
  obtain ⟨declared, checked⟩ := exists_checked valid
  rw [metric?_eq checked] at found
  rcases List.mem_append.mp (List.mem_of_getElem? found) with first | duration
  · obtain ⟨d, -, ok⟩ := exists_of_forall₂ checked.metrics first
    obtain ⟨-, -, owner, maxLength, -, limit, rfl⟩ := entry_eq_ok.mp ok
    exact textLimit_le limit
  · obtain ⟨⟨name, i⟩, -, rfl⟩ := List.mem_map.mp duration
    exact Nat.zero_le _

/-- The user sessions, and no others, have duration timers, in their order. -/
theorem durationKey?_eq_some_iff {s : Schema} {c : Catalog} (valid : s.catalog = .ok c)
    {session key : Nat} : c.durationKey? session = some key ↔
      ∃ i, i < s.sessions.length ∧ session = i + 1 ∧ key = s.metrics.length + i := by
  have count := sessionCount_eq valid
  have size := size_eq valid
  rw [Catalog.durationKey?_eq, Catalog.heartbeat]
  split
  · rename_i known
    obtain ⟨user, known⟩ := known
    rw [Option.some.injEq]
    constructor
    · rintro rfl
      exact ⟨session - 1, by omega, by omega, by omega⟩
    · rintro ⟨i, -, rfl, rfl⟩
      omega
  · rename_i unknown
    refine iff_of_false nofun ?_
    rintro ⟨i, user, rfl, -⟩
    exact unknown ⟨Nat.succ_ne_zero i, by omega⟩

theorem exists_durationEntry {s : Schema} {c : Catalog} (valid : s.catalog = .ok c)
    {session key : Nat} (found : c.durationKey? session = some key) :
    ∃ e, c.metric? key = some e ∧ e.kind = .timer ∧ e.session = session := by
  obtain ⟨i, user, rfl, rfl⟩ := (durationKey?_eq_some_iff valid).mp found
  exact ⟨_, metric?_duration valid (List.getElem?_eq_getElem user), rfl,
    session_durationEntry valid user _ _⟩

theorem inSession_durationKey? {s : Schema} {c : Catalog} (valid : s.catalog = .ok c)
    {session key : Nat} (found : c.durationKey? session = some key) : c.InSession session key := by
  obtain ⟨e, metric, -, rfl⟩ := exists_durationEntry valid found
  exact (Catalog.inSession_iff metric).mpr rfl

end Schema

end DeviceTelemetry
