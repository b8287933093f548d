import Mathlib.Data.List.Basic

/-!
# Transactions with savepoints

A connection to a store that executes transactions the way SQLite does. Its
state is the committed content and, inside a transaction, the content the
transaction works on together with its stack of savepoints. A savepoint is
a name and the content at the time it was set; names may repeat, and the
most recent one of a name is meant. A control statement that the store
refuses is `none`.

A savepoint set outside a transaction opens one, and releasing it commits.
A statement may fail without any effect, and it may also fail in a way that
ends the whole transaction (`Effect.aborted`), after which the connection
is outside any transaction.

The content is of an arbitrary type.
-/

namespace Savepoint

/-- An open transaction. -/
structure Tx (σ : Type) where
  /-- The content the transaction works on. -/
  working : σ
  /-- The savepoints, the most recent one first. -/
  savepoints : List (String × σ)
  /-- Whether a savepoint opened the transaction. -/
  bySavepoint : Bool

/-- **A connection**: the committed content, and the transaction that is
open, if any. -/
structure Conn (σ : Type) where
  committed : σ
  tx : Option (Tx σ)

/-- What a statement does to the content it sees. -/
inductive Effect (σ ρ ε : Type) where
  /-- It changes the content and gives an answer. -/
  | done (content : σ) (answer : ρ)
  /-- It fails and changes nothing. -/
  | failed (error : ε)
  /-- It fails and ends the transaction, undoing it. -/
  | aborted (error : ε)

variable {σ ρ ε : Type}

/-- The most recent savepoint of a name: its content, and the savepoints
set before it. -/
def findSavepoint (name : String) : List (String × σ) → Option (σ × List (String × σ))
  | [] => none
  | (n, content) :: rest =>
    if n = name then some (content, rest) else findSavepoint name rest

@[simp] theorem findSavepoint_self (name : String) (content : σ)
    (rest : List (String × σ)) :
    findSavepoint name ((name, content) :: rest) = some (content, rest) := by
  rw [findSavepoint, if_pos rfl]

namespace Conn

/-- A connection outside any transaction. -/
def idle (content : σ) : Conn σ := ⟨content, none⟩

/-- The content a statement sees. -/
def view (c : Conn σ) : σ :=
  match c.tx with
  | some t => t.working
  | none => c.committed

/-- The connection after a statement changed the content. -/
def put (c : Conn σ) (content : σ) : Conn σ :=
  match c.tx with
  | some t => { c with tx := some { t with working := content } }
  | none => { c with committed := content }

/-- Executing a statement. -/
def exec (c : Conn σ) (w : σ → Effect σ ρ ε) : Conn σ × Except ε ρ :=
  match w c.view with
  | .done content answer => (c.put content, .ok answer)
  | .failed error => (c, .error error)
  | .aborted error => ({ c with tx := none }, .error error)

theorem exec_of_done {c : Conn σ} {w : σ → Effect σ ρ ε} {content : σ} {answer : ρ}
    (h : w c.view = .done content answer) : c.exec w = (c.put content, .ok answer) := by
  rw [exec, h]

theorem exec_of_failed {c : Conn σ} {w : σ → Effect σ ρ ε} {error : ε}
    (h : w c.view = .failed error) : c.exec w = (c, .error error) := by
  rw [exec, h]

theorem exec_of_aborted {c : Conn σ} {w : σ → Effect σ ρ ε} {error : ε}
    (h : w c.view = .aborted error) : c.exec w = ({ c with tx := none }, .error error) := by
  rw [exec, h]

/-- `BEGIN`. -/
def begin (c : Conn σ) : Option (Conn σ) :=
  match c.tx with
  | some _ => none
  | none => some { c with tx := some ⟨c.committed, [], false⟩ }

/-- `COMMIT`. -/
def commit (c : Conn σ) : Option (Conn σ) :=
  c.tx.map (fun t => idle t.working)

/-- `ROLLBACK`. -/
def rollback (c : Conn σ) : Option (Conn σ) :=
  c.tx.map (fun _ => idle c.committed)

/-- `SAVEPOINT`. -/
def savepoint (c : Conn σ) (name : String) : Option (Conn σ) :=
  match c.tx with
  | some t =>
    some ⟨c.committed, some { t with savepoints := (name, t.working) :: t.savepoints }⟩
  | none => some { c with tx := some ⟨c.committed, [(name, c.committed)], true⟩ }

/-- `RELEASE`: the savepoint and those set after it are gone. -/
def release (c : Conn σ) (name : String) : Option (Conn σ) :=
  c.tx.bind (fun t =>
    (findSavepoint name t.savepoints).map (fun found =>
      if t.bySavepoint && found.2.isEmpty then idle t.working
      else { c with tx := some { t with savepoints := found.2 } }))

/-- `ROLLBACK TO`: the content is that of the savepoint, which stays. -/
def rollbackTo (c : Conn σ) (name : String) : Option (Conn σ) :=
  c.tx.bind (fun t =>
    (findSavepoint name t.savepoints).map (fun found =>
      ⟨c.committed, some
        { t with working := found.1, savepoints := (name, found.1) :: found.2 }⟩))

/-! ## The savepoint set last -/

/-- A connection whose transaction, if a savepoint opened it, still has a
savepoint. -/
def Settled (c : Conn σ) : Prop :=
  ∀ t, c.tx = some t → (t.bySavepoint && t.savepoints.isEmpty) = false

theorem settled_idle (s : σ) : (idle s).Settled := fun t ht => by cases ht

/-- Setting a savepoint opens a transaction, or adds to the one that is
open. -/
theorem savepoint_cases (c : Conn σ) (name : String) :
    ∃ t, c.savepoint name
        = some ⟨c.committed, some { t with savepoints := (name, t.working) :: t.savepoints }⟩
      ∧ ((c.tx = none ∧ (t.bySavepoint && t.savepoints.isEmpty) = true) ∨ c.tx = some t) := by
  obtain ⟨committed, tx⟩ := c
  cases tx with
  | none => exact ⟨⟨committed, [], true⟩, rfl, Or.inl ⟨rfl, rfl⟩⟩
  | some t => exact ⟨t, rfl, Or.inr rfl⟩

/-- Releasing the savepoint set last ends the transaction if the savepoint
opened it. -/
theorem release_pushed (committed v : σ) (t : Tx σ) (name : String) :
    (⟨committed, some { t with savepoints := (name, v) :: t.savepoints }⟩ : Conn σ).release name
      = some (if t.bySavepoint && t.savepoints.isEmpty then idle t.working
          else ⟨committed, some t⟩) := by
  show (findSavepoint name ((name, v) :: t.savepoints)).map _ = _
  rw [findSavepoint_self, Option.map_some]

/-- Rolling back to the savepoint set last brings its content back. -/
theorem rollbackTo_pushed (committed v : σ) (t : Tx σ) (name : String) :
    (⟨committed, some { t with savepoints := (name, v) :: t.savepoints }⟩ : Conn σ).rollbackTo
        name
      = some ⟨committed, some { t with
          working := v, savepoints := (name, v) :: t.savepoints }⟩ := by
  show (findSavepoint name ((name, v) :: t.savepoints)).map _ = _
  rw [findSavepoint_self, Option.map_some]

/-! ## A transaction that was begun -/

/-- A connection inside a transaction that `BEGIN` opened. -/
def inside (committed working : σ) (savepoints : List (String × σ)) : Conn σ :=
  ⟨committed, some ⟨working, savepoints, false⟩⟩

@[simp] theorem begin_idle (s : σ) : (idle s).begin = some (inside s s []) := rfl

@[simp] theorem view_inside (s w : σ) (sp : List (String × σ)) :
    (inside s w sp).view = w := rfl

end Conn

end Savepoint
