import DeviceTelemetry.Schema.Basic
import DeviceTelemetry.Success
import Std.Data.TreeSet

/-!
# Resolving schemas

`Schema.resolve` checks a schema and numbers its metrics and sessions. The checks run in a fixed
order, and the first problem found is the answer.

Session 0 is the heartbeat, the user sessions follow in their order. The declared metrics keep their
order; behind them stands one duration timer for each user session. A key is a word of 16 bits and a
session's number one of 8 bits, and each metric carries both. What is looked up by session stands in
two vectors beside the metrics, which loops of their own fill. `Catalog.Vectors.Consistent` says
that all this agrees; it does for whatever is resolved (`Schema.consistent_of_resolve`), because the
checks keep both kinds of words from overflowing.
-/

set_option autoImplicit false

namespace DeviceTelemetry

namespace Catalog

/-- The number of the session that every device has. -/
def heartbeat : Nat := 0

def heartbeatName : String := "heartbeat"

/-- What follows a session's name in the name of its duration timer. -/
def durationSuffix : String := "__duration"

def maxTextLength : Nat := 255

/-- The largest number of sessions, the heartbeat included. -/
def maxSessions : Nat := 255

/-- The largest number of metrics, duration timers included. -/
def maxMetrics : Nat := 65535

/-- The key of the metric that stands behind so many others. -/
def keyAt (place : Nat) : UInt16 := UInt16.ofNat place

def sessionAt (place : Nat) : UInt8 := UInt8.ofNat place

structure Entry where
  key : UInt16
  name : String
  kind : MetricKind
  owner : UInt8
  min : Option Int64
  max : Option Int64
  maxLength : Nat
deriving DecidableEq, Repr

def Entry.session (e : Entry) : Nat := e.owner.toNat

/-- What a schema is resolved to. -/
structure Vectors where
  entries : Array Entry
  sessions : Array String
  /-- The keys of the sessions' duration timers. -/
  sessionTimers : Array (Option UInt16)
  /-- The keys of the sessions' metrics. -/
  sessionMetrics : Array (Array UInt16)
deriving DecidableEq, Repr

/-- The vectors agree, and nothing was lost in the words. -/
structure Vectors.Consistent (v : Vectors) : Prop where
  fewMetrics : v.entries.size ≤ maxMetrics
  fewSessions : v.sessions.size ≤ maxSessions
  key : ∀ (place : Nat) (e : Entry), v.entries[place]? = some e → e.key = keyAt place
  owner : ∀ (place : Nat) (e : Entry), v.entries[place]? = some e → e.session < v.sessions.size
  timers : ∀ session : Nat, v.sessionTimers[session]? =
    if session < v.sessions.size then
      some (if session = heartbeat then none
        else some (keyAt (v.entries.size + session - v.sessions.size)))
    else none
  metrics : ∀ session : Nat, v.sessionMetrics[session]? =
    if session < v.sessions.size then
      some ((v.entries.toList.filter (·.session = session)).map Entry.key).toArray
    else none

end Catalog

namespace Schema

open Catalog (Entry Vectors keyAt sessionAt)

/-! ### The checks -/

/-- Names are made of ASCII letters and digits, underscores and dots, and not empty. -/
def ValidName (name : String) : Prop :=
  name ≠ "" ∧ ∀ c ∈ name.toList, c.isAlphanum = true ∨ c = '_' ∨ c = '.'

-- Only the characters of the name are looked at, not all that there are.
instance (name : String) : Decidable (ValidName name) :=
  have : Decidable (∀ c ∈ name.toList, c.isAlphanum = true ∨ c = '_' ∨ c = '.') :=
    List.decidableBAll _ _
  inferInstanceAs (Decidable (_ ∧ _))

def checkName (name : String) : Except SchemaError Unit :=
  if ValidName name then .ok () else .error (.invalidName name)

def numberSessions (known : List String) : List String → Except SchemaError (List String)
  | [] => .ok known
  | name :: names => do
    checkName name
    if name ∈ known then throw (.duplicateSession name)
    numberSessions (known ++ [name]) names

def sessionOf (sessions : List String) (d : MetricDef) : Except SchemaError UInt8 :=
  match d.session with
  | none => .ok (sessionAt Catalog.heartbeat)
  | some name =>
    match sessions.idxOf? name with
    | some place => .ok (sessionAt place)
    | none => .error (.unknownSession d.name name)

def checkRange (d : MetricDef) : Except SchemaError Unit :=
  match d.min, d.max with
  | some min, some max => if min > max then .error (.invalidRange d.name min max) else .ok ()
  | _, _ => .ok ()

def textLimit (d : MetricDef) : Except SchemaError Nat :=
  if d.kind = .text then
    match d.maxLength with
    | some limit =>
      if 1 ≤ limit.toNat ∧ limit.toNat ≤ Catalog.maxTextLength then .ok limit.toNat
      else .error (.stringTooLong d.name limit.toNat)
    | none => .error (.stringTooLong d.name 0)
  else .ok 0

def entry (sessions : List String) (key : UInt16) (d : MetricDef) : Except SchemaError Entry := do
  checkName d.name
  let owner ← sessionOf sessions d
  checkRange d
  let maxLength ← textLimit d
  return { key, name := d.name, kind := d.kind, owner, min := d.min, max := d.max, maxLength }

def durationEntry (key : UInt16) (name : String) (session : UInt8) : Entry where
  key := key
  name := name ++ Catalog.durationSuffix
  kind := .timer
  owner := session
  min := none
  max := none
  maxLength := 0

/-- The first name that has occurred before, in the list or among those seen already. -/
def firstRepeated (seen : Std.TreeSet String) : List String → Option String
  | [] => none
  | name :: names =>
    if seen.contains name then some name else firstRepeated (seen.insert name) names

/-! ### The loops -/

def declare (sessions : List String) (entries : Array Entry) (d : MetricDef) :
    Except SchemaError (Array Entry) := do
  return entries.push (← entry sessions (keyAt entries.size) d)

/-- Adds the duration timer of a session to the metrics, and its key to those of the timers. -/
def addTimer (numbered : Array Entry × Array (Option UInt16)) (session : String × Nat) :
    Array Entry × Array (Option UInt16) :=
  let key := keyAt numbered.1.size
  (numbered.1.push (durationEntry key session.1 (sessionAt session.2)),
    numbered.2.setIfInBounds session.2 (some key))

def addMetric (lists : Array (Array UInt16)) (e : Entry) : Array (Array UInt16) :=
  lists.modify e.session (·.push e.key)

def resolve (s : Schema) : Except SchemaError Vectors := do
  if s.metrics.isEmpty then throw .empty
  if s.sessions.length + 1 > Catalog.maxSessions then
    throw (.tooManySessions s.sessions.length)
  if s.metrics.length + s.sessions.length > Catalog.maxMetrics then
    throw (.tooManyMetrics (s.metrics.length + s.sessions.length))
  let sessions ← numberSessions [Catalog.heartbeatName] s.sessions
  let declared ← s.metrics.foldlM (declare sessions) #[]
  -- the heartbeat stands first and has no duration timer
  let numbered := (sessions.zipIdx.drop 1).foldl addTimer
    (declared, Array.replicate sessions.length none)
  match firstRepeated ∅ (numbered.1.toList.map Entry.name) with
  | some name => throw (.duplicateMetric name)
  | none =>
    return {
      entries := numbered.1
      sessions := sessions.toArray
      sessionTimers := numbered.2
      sessionMetrics := numbered.1.toList.foldl addMetric (Array.replicate sessions.length #[]) }

/-! ### Consistency -/

theorem numberSessions_eq {known names sessions : List String}
    (ok : numberSessions known names = .ok sessions) : sessions = known ++ names := by
  induction names generalizing known with
  | nil =>
      cases ok
      exact (List.append_nil _).symm
  | cons name names ih =>
      simp only [numberSessions] at ok
      obtain ⟨_, -, ok⟩ := bind_eq_ok.mp ok
      obtain ⟨-, ok⟩ := guard_eq_ok.mp ok
      rw [ih ok, List.append_assoc, List.singleton_append]

theorem entry_eq_ok {sessions : List String} {key : UInt16} {d : MetricDef} {e : Entry} :
    entry sessions key d = .ok e ↔
      checkName d.name = .ok () ∧ checkRange d = .ok () ∧
        ∃ owner maxLength, sessionOf sessions d = .ok owner ∧ textLimit d = .ok maxLength ∧
          e = { key, name := d.name, kind := d.kind, owner, min := d.min, max := d.max,
                maxLength } := by
  simp only [entry, bind_eq_ok, pure_eq_ok]
  constructor
  · rintro ⟨_, name, owner, number, _, range, maxLength, limit, rfl⟩
    exact ⟨name, range, owner, maxLength, number, limit, rfl⟩
  · rintro ⟨name, range, owner, maxLength, number, limit, rfl⟩
    exact ⟨_, name, owner, number, _, range, maxLength, limit, rfl⟩

theorem toNat_sessionAt_le (place : Nat) : (sessionAt place).toNat ≤ place := by
  rw [sessionAt, UInt8.toNat_ofNat']
  exact Nat.mod_le _ _

theorem sessionOf_lt {sessions : List String} {d : MetricDef} {owner : UInt8}
    (beats : 0 < sessions.length) (ok : sessionOf sessions d = .ok owner) :
    owner.toNat < sessions.length := by
  rw [sessionOf] at ok
  split at ok
  · cases ok
    exact Nat.lt_of_le_of_lt (toNat_sessionAt_le _) beats
  · split at ok
    · rename_i place found
      cases ok
      have within : place < sessions.length := (List.findIdx?_eq_some_iff_findIdx_eq.mp found).1
      exact Nat.lt_of_le_of_lt (toNat_sessionAt_le place) within
    · cases ok

/-- The metrics so far carry their places, and numbers of sessions that there are. -/
def Numbered (count : Nat) (entries : Array Entry) : Prop :=
  ∀ (place : Nat) (e : Entry), entries[place]? = some e → e.key = keyAt place ∧ e.session < count

theorem Numbered.push {count : Nat} {entries : Array Entry} {e : Entry}
    (h : Numbered count entries) (key : e.key = keyAt entries.size) (owner : e.session < count) :
    Numbered count (entries.push e) := by
  intro place e' here
  rw [Array.getElem?_push] at here
  split at here
  · rename_i last
    cases here
    exact ⟨last ▸ key, owner⟩
  · exact h place e' here

theorem declare_eq_ok {sessions : List String} {entries entries' : Array Entry} {d : MetricDef} :
    declare sessions entries d = .ok entries' ↔
      ∃ e, entry sessions (keyAt entries.size) d = .ok e ∧ entries' = entries.push e := by
  rw [declare, bind_eq_ok]
  exact exists_congr fun e => and_congr_right fun _ => pure_eq_ok.trans eq_comm

theorem numbered_declared {sessions : List String} (beats : 0 < sessions.length)
    {ds : List MetricDef} {entries declared : Array Entry}
    (ok : ds.foldlM (declare sessions) entries = .ok declared)
    (h : Numbered sessions.length entries) :
    Numbered sessions.length declared ∧ declared.size = entries.size + ds.length := by
  induction ds generalizing entries with
  | nil =>
      cases ok
      exact ⟨h, rfl⟩
  | cons d ds ih =>
      rw [List.foldlM_cons] at ok
      obtain ⟨entries', first, ok⟩ := bind_eq_ok.mp ok
      obtain ⟨e, made, rfl⟩ := declare_eq_ok.mp first
      obtain ⟨-, -, owner, maxLength, number, -, rfl⟩ := entry_eq_ok.mp made
      obtain ⟨numbered, size⟩ := ih ok (h.push rfl (sessionOf_lt beats number))
      refine ⟨numbered, size.trans ?_⟩
      rw [Array.size_push, List.length_cons]
      omega

theorem numbered_timers {count : Nat} (names : List String) (first : Nat)
    (numbered : Array Entry × Array (Option UInt16)) (within : first + names.length ≤ count)
    (h : Numbered count numbered.1) :
    Numbered count ((names.zipIdx first).foldl addTimer numbered).1 ∧
      ((names.zipIdx first).foldl addTimer numbered).1.size =
        numbered.1.size + names.length := by
  induction names generalizing first numbered with
  | nil => exact ⟨h, rfl⟩
  | cons name names ih =>
      rw [List.length_cons] at within
      have owner : (sessionAt first).toNat < count :=
        Nat.lt_of_le_of_lt (toNat_sessionAt_le first) (by omega)
      have step : Numbered count (addTimer numbered (name, first)).1 := h.push rfl owner
      obtain ⟨all, size⟩ := ih (first + 1) _ (by omega) step
      refine ⟨all, size.trans ?_⟩
      rw [addTimer, Array.size_push, List.length_cons]
      omega

theorem getElem?_timers (names : List String) (first : Nat)
    (numbered : Array Entry × Array (Option UInt16))
    (within : first + names.length ≤ numbered.2.size) (session : Nat) :
    ((names.zipIdx first).foldl addTimer numbered).2[session]? =
      if first ≤ session ∧ session < first + names.length then
        some (some (keyAt (numbered.1.size + (session - first))))
      else numbered.2[session]? := by
  induction names generalizing first numbered with
  | nil => exact (if_neg (by rw [List.length_nil]; omega)).symm
  | cons name names ih =>
      rw [List.length_cons] at within ⊢
      -- the rest of the names leaves the place of the first one alone
      rw [List.zipIdx_cons, List.foldl_cons, ih (first + 1) _ (by
        rw [addTimer, Array.size_setIfInBounds]
        omega)]
      simp only [addTimer, Array.size_push, Array.getElem?_setIfInBounds]
      by_cases here : first = session
      · subst here
        rw [if_neg (by omega), if_pos rfl, if_pos (by omega), if_pos (by omega), Nat.sub_self]
        rfl
      · rw [if_neg here]
        by_cases later : first + 1 ≤ session ∧ session < first + 1 + names.length
        · rw [if_pos later, if_pos (by omega)]
          exact congrArg (some <| some <| keyAt ·) (by omega)
        · rw [if_neg later, if_neg (by omega)]

theorem getElem?_metrics (entries : List Entry) (lists : Array (Array UInt16)) (session : Nat) :
    (entries.foldl addMetric lists)[session]? =
      lists[session]?.map (· ++ ((entries.filter (·.session = session)).map Entry.key).toArray) := by
  induction entries generalizing lists with
  | nil =>
      show lists[session]? = lists[session]?.map fun keys => keys ++ #[]
      simp only [Array.append_empty, Option.map_id_fun', id_eq]
  | cons e entries ih =>
      rw [List.foldl_cons, ih, addMetric, Array.getElem?_modify, List.filter_cons]
      by_cases mine : e.session = session
      · rw [if_pos mine, if_pos (decide_eq_true mine), Option.map_map]
        refine congrArg (Option.map · _) (funext fun keys => ?_)
        refine Array.toList_inj.mp ?_
        simp only [Function.comp_apply, Array.toList_append, Array.toList_push, List.map_cons,
          List.append_assoc, List.singleton_append]
      · rw [if_neg mine, if_neg (fun own => mine (of_decide_eq_true own))]

/-- What the loops put into the vectors agrees. -/
theorem consistent_of_numbered {declared : Array Entry} {names : List String}
    (numbered : Numbered (names.length + 1) declared)
    (fewMetrics : declared.size + names.length ≤ Catalog.maxMetrics)
    (fewSessions : names.length + 1 ≤ Catalog.maxSessions) :
    let r := (names.zipIdx 1).foldl addTimer (declared, Array.replicate (names.length + 1) none)
    Vectors.Consistent {
      entries := r.1
      sessions := (Catalog.heartbeatName :: names).toArray
      sessionTimers := r.2
      sessionMetrics := r.1.toList.foldl addMetric (Array.replicate (names.length + 1) #[]) } := by
  intro r
  have within : 1 + names.length ≤ names.length + 1 := Nat.le_of_eq (Nat.add_comm _ _)
  have room : (Array.replicate (names.length + 1) (none : Option UInt16)).size = names.length + 1 :=
    Array.size_replicate
  obtain ⟨all, size⟩ := numbered_timers names 1
    (declared, Array.replicate (names.length + 1) none) within numbered
  refine ⟨size ▸ fewMetrics, fewSessions, fun place e here => (all place e here).1,
    fun place e here => (all place e here).2, fun session => ?timers, fun session => ?metrics⟩
  case timers =>
    have here := getElem?_timers names 1 (declared, Array.replicate (names.length + 1) none)
      (Nat.le_trans within (Nat.le_of_eq room.symm)) session
    show r.2[session]? = if session < names.length + 1 then
      some (if session = 0 then none else some (keyAt (r.1.size + session - (names.length + 1))))
      else none
    have size : r.1.size = declared.size + names.length := size
    rw [show r.2[session]? = _ from here, size, Array.getElem?_replicate]
    dsimp only
    by_cases user : 1 ≤ session ∧ session < 1 + names.length
    · rw [if_pos user, if_pos (by omega), if_neg (by omega)]
      exact congrArg (some <| some <| keyAt ·) (by omega)
    · rw [if_neg user]
      by_cases beat : session < names.length + 1
      · rw [if_pos beat, if_pos beat, if_pos (by omega)]
      · rw [if_neg beat, if_neg beat]
  case metrics =>
    show (r.1.toList.foldl addMetric _)[session]? = _
    rw [getElem?_metrics, List.size_toArray, List.length_cons, Array.getElem?_replicate]
    by_cases known : session < names.length + 1
    · rw [if_pos known, if_pos known, Option.map_some, Array.empty_append]
    · rw [if_neg known, if_neg known, Option.map_none]

theorem consistent_of_resolve {s : Schema} {v : Vectors} (ok : s.resolve = .ok v) :
    v.Consistent := by
  unfold resolve at ok
  obtain ⟨-, ok⟩ := guard_eq_ok.mp ok
  obtain ⟨fewSessions, ok⟩ := guard_eq_ok.mp ok
  obtain ⟨fewMetrics, ok⟩ := guard_eq_ok.mp ok
  obtain ⟨sessions, known, ok⟩ := bind_eq_ok.mp ok
  obtain rfl := numberSessions_eq known
  obtain ⟨declared, checked, ok⟩ := bind_eq_ok.mp ok
  have beats : 0 < ([Catalog.heartbeatName] ++ s.sessions).length := Nat.succ_pos _
  obtain ⟨numbered, size⟩ := numbered_declared beats checked (fun _ _ here => nomatch here)
  dsimp only at ok
  split at ok
  · cases ok
  · cases ok
    refine consistent_of_numbered numbered ?_ (Nat.not_lt.mp fewSessions)
    rw [size, Array.size_empty, Nat.zero_add]
    exact Nat.not_lt.mp fewMetrics

end Schema

end DeviceTelemetry
