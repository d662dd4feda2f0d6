import DeviceTelemetry.Proofs.Agent.Accounting
import DeviceTelemetry.Proofs.TablesApart
import DeviceTelemetry.Simulation

/-!
# The script of a simulation

What a simulation does to its agent is a list of operations that its catalog and the length of the
interval tell beforehand (`Simulation.script`). At most one user session is open at a time: each
operation of a script leads from the session that is open before to the one that is open behind
(`Simulation.Leads`), and a script begins and ends without one (`path_script`). It reports as many
events as its rounds have sessions (`countP_script`).
-/

set_option autoImplicit false

namespace DeviceTelemetry.Simulation

open Agent (Operation)

/-! ### Scripts -/

def driving (c : Catalog) (round key : Nat) : List (Operation Empty) :=
  ((c.metric? key).map fun e => operation round key e.kind).toList

/-- The metrics of a session but for its duration timer. -/
def drivenKeys (c : Catalog) (session : Nat) : List Nat :=
  (c.sessionKeys session).filter fun key => c.durationKey? session ≠ some key

def sessionDriving (c : Catalog) (round session : Nat) : List (Operation Empty) :=
  (drivenKeys c session).flatMap (driving c round)

def sessionScript (c : Catalog) (interval : UInt64) (round session : Nat) :
    List (Operation Empty) :=
  .startSession session :: sessionDriving c round session ++
    [.advance (interval / 4), .endSession session]

def roundScript (c : Catalog) (interval : UInt64) (round : Nat) : List (Operation Empty) :=
  sessionDriving c round Catalog.heartbeat ++
    (c.sessionNumbers.drop 1).flatMap (sessionScript c interval round) ++
    [.advance interval, .heartbeat]

def script (c : Catalog) (interval : UInt64) (round : Nat) : Nat → List (Operation Empty)
  | 0 => []
  | count + 1 => roundScript c interval round ++ script c interval (round + 1) count

/-! ### The open session -/

/-- Which user session is open before and behind an operation of a simulation. -/
inductive Leads (c : Catalog) : Option Nat → Operation Empty → Option Nat → Prop
  | drive {opened : Option Nat} (round : Nat) {key : Nat} {e : Catalog.Entry}
      (metric : c.metric? key = some e) (free : ∀ session, c.durationKey? session ≠ some key) :
      Leads c opened (operation round key e.kind) opened
  | start {session key : Nat} (duration : c.durationKey? session = some key) :
      Leads c none (.startSession session) (some session)
  | advance {opened : Option Nat} (ms : UInt64) : Leads c opened (.advance ms) opened
  | finish {session key : Nat} (duration : c.durationKey? session = some key) :
      Leads c (some session) (.endSession session) none
  | heartbeat : Leads c none .heartbeat none

inductive Path (c : Catalog) : Option Nat → List (Operation Empty) → Option Nat → Prop
  | nil (opened : Option Nat) : Path c opened [] opened
  | cons {opened next last : Option Nat} {op : Operation Empty} {ops : List (Operation Empty)}
      (first : Leads c opened op next) (rest : Path c next ops last) :
      Path c opened (op :: ops) last

variable {c : Catalog} {opened next last : Option Nat} {round session key : Nat}

theorem Leads.path {op : Operation Empty} (h : Leads c opened op next) : Path c opened [op] next :=
  .cons h (.nil next)

theorem Path.append {first second : List (Operation Empty)} (h : Path c opened first next)
    (h' : Path c next second last) : Path c opened (first ++ second) last := by
  induction h with
  | nil opened => exact h'
  | cons step rest ih => exact .cons step (ih h')

/-- Parts that end as they began follow one another. -/
theorem path_flatMap {α : Type} {xs : List α} {part : α → List (Operation Empty)}
    (each : ∀ x ∈ xs, Path c opened (part x) opened) : Path c opened (xs.flatMap part) opened := by
  induction xs with
  | nil => exact .nil opened
  | cons x xs ih =>
      rw [List.flatMap_cons]
      have rest := ih fun y later => each y (List.mem_cons_of_mem x later)
      exact (each x List.mem_cons_self).append rest

section Scripts

variable {schema : Schema}

theorem durationKey?_ne (valid : schema.catalog = .ok c) {number duration : Nat}
    (first : c.durationKey? number = some duration) (second : c.durationKey? session = some key)
    (other : number ≠ session) : duration ≠ key := by
  rintro rfl
  exact other ((Schema.inSession_durationKey? valid second).unique
    (Schema.inSession_durationKey? valid first))

/-- No metric that is driven is the duration timer of any session. -/
theorem free_of_mem_drivenKeys (valid : schema.catalog = .ok c)
    (driven : key ∈ drivenKeys c session) (other : Nat) : c.durationKey? other ≠ some key := by
  intro duration
  obtain ⟨mine, apart⟩ := List.mem_filter.mp driven
  have there := Schema.inSession_durationKey? valid duration
  obtain rfl := there.unique (Catalog.mem_sessionKeys.mp mine)
  exact of_decide_eq_true apart duration

theorem path_driving (valid : schema.catalog = .ok c) (driven : key ∈ drivenKeys c session) :
    Path c opened (driving c round key) opened := by
  unfold driving
  cases metric : c.metric? key with
  | none => exact .nil opened
  | some e => exact (Leads.drive round metric (free_of_mem_drivenKeys valid driven)).path

theorem path_sessionDriving (valid : schema.catalog = .ok c) (round session : Nat) :
    Path c opened (sessionDriving c round session) opened :=
  path_flatMap fun _ driven => path_driving valid driven

theorem exists_durationKey? (user : session ∈ c.sessionNumbers.drop 1) :
    ∃ key, c.durationKey? session = some key := by
  rw [Catalog.sessionNumbers_eq] at user
  obtain ⟨i, place, rfl⟩ := List.mem_iff_getElem.mp user
  rw [List.length_drop, List.length_range] at place
  rw [List.getElem_drop, List.getElem_range, Catalog.durationKey?_eq]
  refine ⟨_, if_pos ⟨?_, by omega⟩⟩
  rw [Catalog.heartbeat]
  omega

theorem path_sessionScript (valid : schema.catalog = .ok c)
    (duration : c.durationKey? session = some key) (interval : UInt64) :
    Path c none (sessionScript c interval round session) none := by
  refine .cons (.start duration) ((path_sessionDriving valid round session).append ?_)
  exact .cons (.advance _) (Leads.finish duration).path

theorem path_sessionScripts (valid : schema.catalog = .ok c) (interval : UInt64) (round : Nat) :
    Path c none ((c.sessionNumbers.drop 1).flatMap (sessionScript c interval round)) none := by
  apply path_flatMap
  intro session user
  obtain ⟨key, duration⟩ := exists_durationKey? user
  exact path_sessionScript valid duration interval

theorem path_roundScript (valid : schema.catalog = .ok c) (interval : UInt64) (round : Nat) :
    Path c none (roundScript c interval round) none :=
  have driven := path_sessionDriving valid round Catalog.heartbeat
  have sessions := path_sessionScripts valid interval round
  (driven.append sessions).append (.cons (.advance interval) Leads.heartbeat.path)

theorem path_script (valid : schema.catalog = .ok c) (interval : UInt64) (round count : Nat) :
    Path c none (script c interval round count) none := by
  induction count generalizing round with
  | zero => exact .nil none
  | succ count ih => exact (path_roundScript valid interval round).append (ih (round + 1))

end Scripts

/-! ### The number of reports -/

theorem countP_sessionDriving (c : Catalog) (round session : Nat) :
    (sessionDriving c round session).countP Operation.isReport = 0 := by
  rw [List.countP_eq_zero]
  intro op member
  obtain ⟨key, -, driven⟩ := List.mem_flatMap.mp member
  obtain ⟨e, -, rfl⟩ := Option.map_eq_some_iff.mp (Option.mem_toList.mp driven)
  cases e.kind <;> exact Bool.false_ne_true

theorem countP_sessionScript (c : Catalog) (interval : UInt64) (round session : Nat) :
    (sessionScript c interval round session).countP Operation.isReport = 1 := by
  rw [sessionScript, List.cons_append, List.countP_cons_of_neg Bool.false_ne_true,
    List.countP_append, countP_sessionDriving]
  rfl

theorem countP_roundScript (positive : 0 < c.sessionCount) (interval : UInt64) (round : Nat) :
    (roundScript c interval round).countP Operation.isReport = c.sessionCount := by
  have users : ((c.sessionNumbers.drop 1).flatMap (sessionScript c interval round)).countP
      Operation.isReport = c.sessionCount - 1 := by
    rw [List.countP_flatMap]
    have each : (c.sessionNumbers.drop 1).map
        (List.countP Operation.isReport ∘ sessionScript c interval round) =
          List.replicate (c.sessionCount - 1) 1 := by
      rw [List.eq_replicate_iff]
      refine ⟨?_, ?_⟩
      · rw [List.length_map, List.length_drop, Catalog.sessionNumbers_eq, List.length_range]
      · intro n member
        obtain ⟨session, -, rfl⟩ := List.mem_map.mp member
        exact countP_sessionScript c interval round session
    rw [each, List.sum_replicate_nat, Nat.mul_one]
  rw [roundScript, List.countP_append, List.countP_append, countP_sessionDriving, users]
  show 0 + (c.sessionCount - 1) + 1 = c.sessionCount
  omega

theorem countP_script (positive : 0 < c.sessionCount) (interval : UInt64) (round count : Nat) :
    (script c interval round count).countP Operation.isReport = count * c.sessionCount := by
  induction count generalizing round with
  | zero => rw [script, List.countP_nil, Nat.zero_mul]
  | succ count ih =>
      rw [script, List.countP_append, countP_roundScript positive, ih, Nat.succ_mul, Nat.add_comm]

end DeviceTelemetry.Simulation
