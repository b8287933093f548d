import Mathlib.Data.List.DropRight
import Seekwel.Catalog
import Seekwel.Error

/-!
# The log of queries

The process keeps a log of the statements that it was about to execute, at
most a hundred of them. Every statement is pushed to its end, and a full log
loses its first entry.

The log is cleared when a connection is set up. This happens before it is
known whether there is a connection already, so a call that fails because
there is one has cleared the log: the log keeps the latest entries in exactly
those runs in which such a call finds it empty (`keepsLatest_iff`).
-/

namespace Seekwel.QueryLog

/-! ## Entries -/

/-- A query on one line. -/
def normalizeQuery (query : String) : String := Text.join " " (Text.splitWhitespace query)

/-- Two hexadecimal digits. -/
def hexByte (byte : UInt8) : String :=
  String.ofList [(Nat.digitChar (byte.toNat / 16)).toUpper, (Nat.digitChar (byte.toNat % 16)).toUpper]

section

-- how a real number is displayed
variable (showReal : UInt64 → String)

def renderValue : Value → String
  | .null => "NULL"
  | .integer value => toString value
  | .real value => showReal value
  | .text value => "'" ++ Text.replace (Text.replace value '\\' "\\\\") '\'' "''" ++ "'"
  | .blob bytes => "x'" ++ String.join (bytes.map hexByte) ++ "'"

/-- Parameters with the numbers they have in the query. -/
def renderParams (params : List Value) : String :=
  Text.join ", " (params.zipIdx.map fun p =>
    "?" ++ toString (p.2 + 1) ++ "=" ++ renderValue showReal p.1)

/-! ## The log -/

/-- An entry is pushed unless it is empty. -/
def pushQueryLog (log : List String) (entry : String) : List String :=
  if entry = "" then log
  else if 100 ≤ log.length then log.tail ++ [entry]
  else log ++ [entry]

def recordQuery (log : List String) (query : String) : List String :=
  pushQueryLog log (normalizeQuery query)

def recordQueryWithParams (log : List String) (query : String) (params : List Value) :
    List String :=
  let normalized := normalizeQuery query
  if normalized = "" then log
  else if params.isEmpty then pushQueryLog log normalized
  else pushQueryLog log (normalized ++ " -- [" ++ renderParams showReal params ++ "]")

end

/-- **The state of the process**: whether a connection was set up, and the
log. -/
structure State where
  isSet : Bool
  log : List String

/-- When the process starts. -/
def State.start : State := ⟨false, []⟩

/-- Setting up a connection, with the manager that was opened for it or the
error that there was. -/
def State.setUp (s : State) (manager : Except Error Unit) : State × Except Error Unit :=
  match manager with
  | .error e => (s, .error e)
  | .ok () =>
    let s := { s with log := [] }
    if s.isSet then (s, .error .alreadyInitialized) else ({ s with isSet := true }, .ok ())

/-- **A call.** Whether a database can be opened is not up to the code. -/
inductive Call where
  | recordQuery (query : String)
  | recordQueryWithParams (query : String) (params : List Value)
  | file (manager : Except Error Unit)
  | memory (manager : Except Error Unit)

section Calls

variable (showReal : UInt64 → String)

/-- **The state after a call**, and what the call returns. -/
def State.call (s : State) : Call → State × Except Error Unit
  | .recordQuery query => ({ s with log := QueryLog.recordQuery s.log query }, .ok ())
  | .recordQueryWithParams query params =>
    ({ s with log := QueryLog.recordQueryWithParams showReal s.log query params }, .ok ())
  | .file manager => s.setUp manager
  | .memory manager => s.setUp manager

def State.recentQueries (s : State) : List String := s.log

/-- The state after some calls. -/
def State.run (s : State) (calls : List Call) : State :=
  calls.foldl (fun s c => (s.call showReal c).1) s

/-- The calls, each with what it returns. -/
def State.results (s : State) : List Call → List (Call × Except Error Unit)
  | [] => []
  | c :: calls => (c, (s.call showReal c).2) :: (s.call showReal c).1.results calls

end Calls

/-! ## What the log should be -/

/-- The manager that a call opens, if it sets up a connection. -/
def Call.manager? : Call → Option (Except Error Unit)
  | .file manager | .memory manager => some manager
  | .recordQuery _ | .recordQueryWithParams _ _ => none

section Spec

variable (showReal : UInt64 → String)

/-- A query on one line, if it is not empty. -/
def statement? (query : String) : Option String :=
  if normalizeQuery query = "" then none else some (normalizeQuery query)

/-- **The entry that a call records**, if it is not empty. -/
def Call.entry : Call → Option String
  | .recordQuery query => statement? query
  | .recordQueryWithParams query params =>
    (statement? query).map fun entry =>
      if params.isEmpty then entry else entry ++ " -- [" ++ renderParams showReal params ++ "]"
  | .file _ | .memory _ => none

/-- The entries after one more call. -/
def record (entries : List String) : Call × Except Error Unit → List String
  | (c, .ok ()) =>
    match c.manager? with
    | some _ => []
    | none => entries ++ (c.entry showReal).toList
  | (c, .error _) => entries ++ (c.entry showReal).toList

/-- **The entries that were recorded** since a connection was set up. -/
def sinceSetUp (results : List (Call × Except Error Unit)) : List String :=
  results.foldl (record showReal) []

/-- **The log keeps the latest entries** in every state of a run, and a call
that fails removes none. -/
structure KeepsLatest (calls : List Call) : Prop where
  latest : ∀ before, before <+: calls →
    (State.start.run showReal before).recentQueries
      = (sinceSetUp showReal (State.start.results showReal before)).rtake 100
  keeps : ∀ before c, before ++ [c] <+: calls → ∀ e,
    ((State.start.run showReal before).call showReal c).2 = .error e →
    (State.start.run showReal before).log
      <+: ((State.start.run showReal before).call showReal c).1.log

end Spec

/-! ## Runs -/

section Runs

variable {showReal : UInt64 → String}

theorem tail_rtake {α : Type} {xs : List α} {n : ℕ} (h : n + 1 ≤ (xs.rtake (n + 1)).length) :
    (xs.rtake (n + 1)).tail = xs.rtake n := by
  rw [List.rtake, List.length_drop] at h
  have hlength : xs.length - (n + 1) + 1 = xs.length - n := by omega
  rw [List.rtake, List.rtake, List.tail_drop, hlength]

theorem rtake_of_length_lt {α : Type} {xs : List α} {n : ℕ} (h : (xs.rtake (n + 1)).length < n + 1) :
    xs.rtake (n + 1) = xs.rtake n := by
  rw [List.rtake, List.length_drop] at h
  have hlength : xs.length - (n + 1) = xs.length - n := by omega
  rw [List.rtake, List.rtake, hlength]

/-- **Pushing an entry** to a log of the latest entries. -/
theorem pushQueryLog_rtake {entries : List String} {entry : String} (h : entry ≠ "") :
    pushQueryLog (entries.rtake 100) entry = (entries ++ [entry]).rtake 100 := by
  rw [List.rtake_concat_succ, pushQueryLog, if_neg h]
  split_ifs with hfull
  · rw [tail_rtake hfull]
  · rw [rtake_of_length_lt (Nat.lt_of_not_le hfull)]

/-- **What a call does** that sets up no connection. -/
theorem call_of_manager?_eq_none {c : Call} (h : c.manager? = none) (s : State) :
    s.call showReal c
      = ({ s with log := (c.entry showReal).toList.foldl pushQueryLog s.log }, .ok ()) := by
  cases c with
  | recordQuery query =>
    rw [State.call, recordQuery, Call.entry, statement?, pushQueryLog]
    split_ifs
    all_goals simp [*, pushQueryLog]
  | recordQueryWithParams query params =>
    rw [State.call, recordQueryWithParams, Call.entry, statement?]
    by_cases hempty : normalizeQuery query = ""
    · simp [hempty]
    · by_cases hparams : params.isEmpty = true
      · simp only [hempty, hparams, if_true, if_false]
        rfl
      · simp only [hempty, hparams, if_false]
        rfl
  | file manager => cases h
  | memory manager => cases h

theorem call_of_manager?_eq_some {c : Call} {manager : Except Error Unit}
    (h : c.manager? = some manager) (s : State) :
    s.call showReal c = s.setUp manager ∧ c.entry showReal = none := by
  cases c with
  | recordQuery query => cases h
  | recordQueryWithParams query params => cases h
  | file manager' =>
    cases h
    exact ⟨rfl, rfl⟩
  | memory manager' =>
    cases h
    exact ⟨rfl, rfl⟩

theorem entry_ne_empty {c : Call} : ∀ entry ∈ c.entry showReal, entry ≠ "" := by
  have hstatement : ∀ query, ∀ entry ∈ statement? query, entry ≠ "" := by
    intro query entry h
    rw [statement?, Option.mem_def] at h
    split_ifs at h with hne
    cases h
    exact hne
  intro entry h
  cases c with
  | recordQuery query => exact hstatement query entry h
  | recordQueryWithParams query params =>
    obtain ⟨normalized, hnormalized, rfl⟩ := Option.map_eq_some_iff.mp h
    have hne := hstatement query normalized hnormalized
    split_ifs
    · exact hne
    · simp [hne]
  | file manager => cases h
  | memory manager => cases h

/-- **One call keeps the latest entries**, unless it fails and clears some. -/
theorem call_latest {s : State} {entries : List String} (h : s.log = entries.rtake 100) {c : Call}
    (hclears : c.manager? = some (.ok ()) → s.isSet = true → s.log = []) :
    (s.call showReal c).1.log
      = (record showReal entries (c, (s.call showReal c).2)).rtake 100 := by
  cases hmanager : c.manager? with
  | none =>
    rw [call_of_manager?_eq_none hmanager, record, hmanager]
    cases hentry : c.entry showReal with
    | none => simpa using h
    | some entry =>
      show pushQueryLog s.log entry = (entries ++ [entry]).rtake 100
      rw [h, pushQueryLog_rtake (entry_ne_empty entry hentry)]
  | some manager =>
    obtain ⟨hcall, hentry⟩ := @call_of_manager?_eq_some showReal _ _ hmanager s
    rw [hcall]
    cases manager with
    | error e =>
      show s.log = (entries ++ (c.entry showReal).toList).rtake 100
      rw [hentry, Option.toList_none, List.append_nil, h]
    | ok manager =>
      cases hset : s.isSet with
      | false => simp [State.setUp, hset, record, hmanager]
      | true =>
        have hempty := hclears hmanager hset
        simp [State.setUp, hset, record, hentry, ← h, hempty]

/-- **A call that fails** keeps the log exactly if it does not clear one that
has entries. -/
theorem call_keeps_iff {s : State} {c : Call} :
    (∀ e, (s.call showReal c).2 = .error e → s.log <+: (s.call showReal c).1.log)
      ↔ (c.manager? = some (.ok ()) → s.isSet = true → s.log = []) := by
  cases hmanager : c.manager? with
  | none =>
    rw [call_of_manager?_eq_none hmanager]
    exact iff_of_true (fun e he => nomatch he) nofun
  | some manager =>
    rw [(@call_of_manager?_eq_some showReal _ _ hmanager s).1]
    cases manager with
    | error e => exact iff_of_true (fun e he => List.prefix_refl s.log) nofun
    | ok manager =>
      cases hset : s.isSet with
      | false => simp [State.setUp, hset]
      | true => simp [State.setUp, hset]

theorem run_append_singleton (calls : List Call) (c : Call) (s : State) :
    s.run showReal (calls ++ [c]) = ((s.run showReal calls).call showReal c).1 := by
  rw [State.run, List.foldl_append]
  rfl

theorem results_append_singleton (calls : List Call) (c : Call) (s : State) :
    s.results showReal (calls ++ [c])
      = s.results showReal calls ++ [(c, ((s.run showReal calls).call showReal c).2)] := by
  induction calls generalizing s with
  | nil => rfl
  | cons c' calls ih =>
    rw [List.cons_append, State.results, ih]
    rfl

/-- **The log keeps the latest entries** in exactly those runs in which no
call clears a log with entries and then finds that there is a connection. -/
theorem keepsLatest_iff (calls : List Call) :
    KeepsLatest showReal calls
      ↔ ∀ before c, before ++ [c] <+: calls → c.manager? = some (.ok ()) →
        (State.start.run showReal before).isSet = true →
        (State.start.run showReal before).log = [] := by
  refine ⟨fun h before c hprefix => call_keeps_iff.mp (h.keeps before c hprefix), fun h => ?_⟩
  refine ⟨fun before => ?_, fun before c hprefix => call_keeps_iff.mpr (h before c hprefix)⟩
  induction before using List.reverseRecOn with
  | nil => exact fun _ => rfl
  | append_singleton before c ih =>
    intro hprefix
    have hbefore := ih ((List.prefix_append before [c]).trans hprefix)
    have hstep := @call_latest showReal _ _ hbefore c (h before c hprefix)
    rw [run_append_singleton, results_append_singleton, sinceSetUp, List.foldl_append]
    exact hstep

end Runs

/-- **A connection that is set up twice** loses an entry. -/
theorem setUp_twice_loses_entry :
    ¬ KeepsLatest (fun _ => "0")
      [.memory (.ok ()), .recordQuery "SELECT 1", .memory (.ok ())] := by
  intro h
  exact absurd (h.latest _ (List.prefix_refl _)) (by decide)

end Seekwel.QueryLog
