import Seekwel.Error
import Seekwel.Savepoint

/-!
# Transactions

`Connection::transaction` and what it keeps on the thread. The outermost
call begins a transaction on the writer and sets the transaction state; a
call inside another sets a savepoint instead, whose name is the next number
of the state. What a call does when its body is done depends on whether the
body returned a value, returned an error or panicked.

A body is a tree: it ends, or it executes a statement or calls a
transaction and goes on with what came of it (`Body`). It may ignore an
error and catch a panic, or pass them on.

A run yields `none` where the code would panic by itself: an `expect` on
the transaction state that fails, a depth that goes below zero, a lock that
is taken already.
-/

namespace Seekwel

open Savepoint (Conn Effect)

/-! ## The thread -/

/-- What a thread keeps of its transaction. -/
structure TransactionState where
  depth : ℕ
  /-- The number of the last savepoint. -/
  nextSavepoint : ℕ
  deriving DecidableEq

/-- **A thread**, with the writer's connection. -/
structure Thread (σ : Type) where
  txState : Option TransactionState
  conn : Conn σ

/-- What is seen of a run from outside. -/
inductive TxEvent (V : Type) where
  /-- SQLite refused a control statement. -/
  | refused
  /-- A nested call returned: the depth before and after it, what its body
  came to, and what the call came to. -/
  | call (before after : ℕ) (body returned : Outcome V)
  deriving DecidableEq

/-- How a run ends. -/
structure Run (σ V : Type) where
  thread : Thread σ
  outcome : Outcome V
  events : List (TxEvent V)

variable {σ ρ V : Type}

/-- The depth, zero outside a transaction. -/
def Thread.depth (th : Thread σ) : ℕ := (th.txState.map (·.depth)).getD 0

/-- Sending a control statement. -/
def Thread.send (th : Thread σ) (statement : Conn σ → Option (Conn σ)) :
    Thread σ × List (TxEvent V) :=
  match statement th.conn with
  | some conn => ({ th with conn := conn }, [])
  | none => (th, [.refused])

/-- Sending a control statement over the connection of the transaction
state, which has to be there. -/
def Thread.sendInside (th : Thread σ) (statement : Conn σ → Option (Conn σ)) :
    Option (Thread σ × List (TxEvent V)) :=
  th.txState.map (fun _ => th.send statement)

/-! ## Savepoints -/

def savepointName (n : ℕ) : String := "__seekwel_savepoint_" ++ toString n

def Thread.finishSavepoint (th : Thread σ) : Option (Thread σ) :=
  match th.txState with
  | none => none
  | some state =>
    if state.depth = 0 then none
    else some { th with txState := some { state with depth := state.depth - 1 } }

/-- Setting a savepoint; no name if SQLite refuses. -/
def Thread.beginSavepoint (th : Thread σ) :
    Option (Thread σ × Option String × List (TxEvent V)) :=
  match th.txState with
  | none => none
  | some state =>
    let name := savepointName (state.nextSavepoint + 1)
    let th := { th with txState := some ⟨state.depth + 1, state.nextSavepoint + 1⟩ }
    match th.conn.savepoint name with
    | some conn => some ({ th with conn := conn }, some name, [])
    | none => th.finishSavepoint.map (fun th => (th, none, [.refused]))

def Thread.releaseSavepoint (th : Thread σ) (name : String) :
    Option (Thread σ × List (TxEvent V)) :=
  th.sendInside (fun conn => conn.release name)

def Thread.rollbackToSavepoint (th : Thread σ) (name : String) :
    Option (Thread σ × List (TxEvent V)) :=
  th.sendInside (fun conn => conn.rollbackTo name)

/-- What a nested call does after an error and after a panic: it rolls back
to its savepoint and releases it, whether or not SQLite refuses. -/
def Thread.abandonSavepoint (th : Thread σ) (name : String) :
    Option (Thread σ × List (TxEvent V)) :=
  match th.rollbackToSavepoint name with
  | none => none
  | some (th, rolledBack) =>
    match th.releaseSavepoint name with
    | none => none
    | some (th, released) => th.finishSavepoint.map (fun th => (th, rolledBack ++ released))

/-! ## Calls -/

/-- **A call inside another.** -/
def nestedTransaction (f : Thread σ → Option (Run σ V)) (th : Thread σ) :
    Option (Run σ V) :=
  match th.beginSavepoint with
  | none => none
  | some (th', none, refused) =>
    some ⟨th', .error (.sqlite "cannot set a savepoint"), refused⟩
  | some (th', some name, _) =>
    match f th' with
    | none => none
    | some body =>
      match body.outcome with
      | .ok value =>
        match body.thread.releaseSavepoint name with
        | none => none
        | some (released, refused) =>
          released.finishSavepoint.map (fun finished =>
            let outcome :=
              if refused.isEmpty then .ok value
              else .error (.sqlite ("no such savepoint: " ++ name))
            ⟨finished, outcome, body.events ++ refused
              ++ [.call th.depth finished.depth body.outcome outcome]⟩)
      | .error error =>
        (body.thread.abandonSavepoint name).map (fun (finished, refused) =>
          ⟨finished, .error error, body.events ++ refused
            ++ [.call th.depth finished.depth body.outcome (.error error)]⟩)
      | .panic payload =>
        (body.thread.abandonSavepoint name).map (fun (finished, refused) =>
          ⟨finished, .panic payload, body.events ++ refused
            ++ [.call th.depth finished.depth body.outcome (.panic payload)]⟩)

/-- **The outermost call.** -/
def outerTransaction (f : Thread σ → Option (Run σ V)) (th : Thread σ) :
    Option (Run σ V) :=
  match th.conn.begin with
  | none =>
    some ⟨th, .error (.sqlite "cannot start a transaction within a transaction"), [.refused]⟩
  | some conn =>
    match f ⟨some ⟨1, 0⟩, conn⟩ with
    | none => none
    | some body =>
      let th := { body.thread with txState := none }
      match body.outcome with
      | .ok value =>
        match th.send (fun conn => conn.commit) with
        | (th, []) => some ⟨th, .ok value, body.events⟩
        | (th, refused) =>
          let (th, refused') := th.send (fun conn => conn.rollback)
          some ⟨th, .error (.sqlite "cannot commit - no transaction is active"),
            body.events ++ refused ++ refused'⟩
      | .error error =>
        match th.send (fun conn => conn.rollback) with
        | (th, []) => some ⟨th, .error error, body.events⟩
        | (th, refused) =>
          some ⟨th, .error (.sqlite "cannot rollback - no transaction is active"),
            body.events ++ refused⟩
      | .panic payload =>
        let (th, refused) := th.send (fun conn => conn.rollback)
        some ⟨th, .panic payload, body.events ++ refused⟩

/-- **`Connection::transaction`.** -/
def transaction (f : Thread σ → Option (Run σ V)) (th : Thread σ) : Option (Run σ V) :=
  if th.txState.isSome then nestedTransaction f th else outerTransaction f th

/-! ## Bodies -/

/-- **The body of a transaction.** -/
inductive Body (σ ρ V : Type) where
  /-- It ends. -/
  | ret (outcome : Outcome V)
  /-- It executes a statement and goes on with the answer. -/
  | exec (statement : σ → Effect σ ρ Error) (next : Except Error ρ → Body σ ρ V)
  /-- It calls a transaction and goes on with what came of the call. -/
  | transaction (body : Body σ ρ V) (next : Outcome V → Body σ ρ V)

/-- **Running a body.** -/
def Body.run : Body σ ρ V → Thread σ → Option (Run σ V)
  | .ret outcome, th => some ⟨th, outcome, []⟩
  | .exec statement next, th =>
    match th.txState with
    | none => none
    | some _ =>
      let (conn, answer) := th.conn.exec statement
      (next answer).run { th with conn := conn }
  | .transaction body next, th =>
    match Seekwel.transaction body.run th with
    | none => none
    | some called =>
      ((next called.outcome).run called.thread).map (fun r =>
        { r with events := called.events ++ r.events })

end Seekwel
