import Mathlib.Data.Fintype.Card
import Mathlib.Logic.Function.Basic
import Seekwel.Locks

/-!
# The connection manager and its locks

Four operations run a closure on a connection: `with_read`, `with_write`, the
outermost `transaction` and `with_exclusive_write`. Each asks for guards
before the closure and drops them after it, the last one first, also if the
closure panics. The guards are of three objects: a connection of the pool of
readers, if the database is a file; the gate, a lock of readers and writers;
and the mutex of the writer's connection.

The pool is a vector in a mutex with a condition variable, and its parts are
steps of their own: a thread that finds the pool empty sleeps, and one that
returns a connection wakes a sleeper, if there is any. A sleeper may also
wake up for no reason.
-/

namespace Seekwel.ConnectionManager

open Sync (Mutex RwLock)

/-! ## Operations and their guards -/

inductive Op where
  | read
  | write
  | transaction
  | exclusiveWrite
  deriving DecidableEq

/-- What a thread has to wait for. -/
inductive Request where
  | conn
  | gateRead
  | gateWrite
  | writer
  deriving DecidableEq

/-- **What an operation asks for** before it calls its closure, in order.
Without readers, a read uses the writer's connection. -/
def Op.requests (file : Bool) : Op → List Request
  | read => if file then [.conn, .gateRead] else [.gateRead, .writer]
  | write => [.gateRead, .writer]
  | transaction => [.gateRead, .writer]
  | exclusiveWrite => [.gateWrite, .writer]

/-- What a thread has got. -/
inductive Guard (Conn : Type) where
  | conn (conn : Conn)
  | gateRead
  | gateWrite
  | writer
  deriving DecidableEq

def Guard.request {Conn : Type} : Guard Conn → Request
  | conn _ => .conn
  | gateRead => .gateRead
  | gateWrite => .gateWrite
  | writer => .writer

/-! ## Threads -/

/-- **Where a thread is.** Of the guards it holds, the last one comes
first. -/
inductive Stage (Conn : Type) where
  | idle
  /-- Asking for guards. -/
  | acquire (op : Op) (held : List (Guard Conn)) (requests : List Request)
  /-- In `checkout`, with the mutex of the pool. -/
  | checkout (op : Op) (held : List (Guard Conn)) (requests : List Request)
  /-- In `checkout`, waiting for a connection to be available. -/
  | asleep (op : Op) (held : List (Guard Conn)) (requests : List Request)
  /-- In the closure. What it calls inside a transaction takes no locks. -/
  | inside (op : Op) (held : List (Guard Conn))
  /-- Dropping the guards. -/
  | drop (op : Op) (held : List (Guard Conn)) (panicking : Bool)
  /-- Dropping a connection, with the mutex of the pool. -/
  | checkin (op : Op) (conn : Conn) (held : List (Guard Conn)) (panicking : Bool)
  /-- Having returned it. -/
  | notify (op : Op) (held : List (Guard Conn)) (panicking : Bool)
  deriving DecidableEq

namespace Stage

variable {Conn : Type}

/-- The guards that the thread holds. -/
def held : Stage Conn → List (Guard Conn)
  | idle => []
  | acquire _ held _ | checkout _ held _ | asleep _ held _ | inside _ held
  | drop _ held _ | notify _ held _ => held
  | checkin _ conn held _ => .conn conn :: held

def locksPool : Stage Conn → Bool
  | checkout .. | checkin .. | notify .. => true
  | _ => false

def isAsleep : Stage Conn → Bool
  | asleep .. => true
  | _ => false

end Stage

/-- The connections in the pool, the locks, and the threads with the
operations that are before them. -/
structure State (Tid Conn : Type) where
  /-- Whether there are readers. -/
  file : Bool
  conns : List Conn
  pool : Mutex Tid
  gate : RwLock Tid
  writer : Mutex Tid
  ops : Tid → List Op
  stage : Tid → Stage Conn

/-- **A manager that was not used**, of a file with these reader connections
or of a database in memory. -/
def State.start {Tid Conn : Type} (readers : Option (List Conn)) (ops : Tid → List Op) :
    State Tid Conn where
  file := readers.isSome
  conns := readers.getD []
  pool := .new
  gate := .new
  writer := .new
  ops := ops
  stage _ := .idle

/-- What a thread may do next. -/
inductive Action (Tid : Type) where
  | start
  | acquire
  | checkout
  /-- Waking up for no reason. -/
  | wake
  /-- The closure is called, unless the transaction does not begin. -/
  | call (begun : Bool)
  | leave (panicking : Bool)
  | drop
  | checkin
  | notify (woken : Option Tid)
  /-- A thread that panicked may end here, or the panic was caught. -/
  | finish (caught : Bool)
  deriving DecidableEq

section Steps

variable {Tid Conn : Type} [DecidableEq Tid]

/-- A poisoned lock is taken all the same. -/
def lock (m : Mutex Tid) (t : Tid) : Option (Mutex Tid) := (m.lock t).map Prod.snd

def readLock (l : RwLock Tid) (t : Tid) : Option (RwLock Tid) := (l.read t).map Prod.snd

def writeLock (l : RwLock Tid) (t : Tid) : Option (RwLock Tid) := (l.write t).map Prod.snd

/-- A thread has come to the next stage. -/
def State.put (s : State Tid Conn) (t : Tid) (stage : Stage Conn) : State Tid Conn :=
  { s with stage := Function.update s.stage t stage }

/-- Getting the guard that is asked for next. -/
def State.acquire (s : State Tid Conn) (t : Tid) (op : Op) (held : List (Guard Conn))
    (requests : List Request) : Request → Option (State Tid Conn)
  | .conn =>
    (lock s.pool t).map fun pool =>
      { s.put t (.checkout op held requests) with pool := pool }
  | .gateRead =>
    (readLock s.gate t).map fun gate =>
      { s.put t (.acquire op (.gateRead :: held) requests) with gate := gate }
  | .gateWrite =>
    (writeLock s.gate t).map fun gate =>
      { s.put t (.acquire op (.gateWrite :: held) requests) with gate := gate }
  | .writer =>
    (lock s.writer t).map fun writer =>
      { s.put t (.acquire op (.writer :: held) requests) with writer := writer }

/-- Dropping a guard. A mutex or a writer of the gate that is dropped while
panicking is poisoned. -/
def State.drop (s : State Tid Conn) (t : Tid) (op : Op) (held : List (Guard Conn))
    (panicking : Bool) : Guard Conn → Option (State Tid Conn)
  | .conn conn =>
    (lock s.pool t).map fun pool =>
      { s.put t (.checkin op conn held panicking) with pool := pool }
  | .gateRead => some { s.put t (.drop op held panicking) with gate := s.gate.endRead t }
  | .gateWrite =>
    some { s.put t (.drop op held panicking) with gate := s.gate.endWrite panicking }
  | .writer =>
    some { s.put t (.drop op held panicking) with writer := s.writer.unlock panicking }

variable [Fintype Tid]

/-- **One step of a thread**, if it can take it. -/
def State.step (s : State Tid Conn) : Tid × Action Tid → Option (State Tid Conn)
  | (t, .start) =>
    match s.stage t, s.ops t with
    | .idle, op :: ops =>
      some { s.put t (.acquire op [] (op.requests s.file)) with
        ops := Function.update s.ops t ops }
    | _, _ => none
  | (t, .acquire) =>
    match s.stage t with
    | .acquire op held (request :: requests) => s.acquire t op held requests request
    | _ => none
  | (t, .checkout) =>
    match s.stage t, s.conns with
    | .checkout op held requests, conn :: conns =>
      some { s.put t (.acquire op (.conn conn :: held) requests) with
        conns := conns
        pool := s.pool.unlock false }
    | .checkout op held requests, [] =>
      -- Falling asleep and giving the mutex back are one.
      some { s.put t (.asleep op held requests) with pool := s.pool.unlock false }
    | _, _ => none
  | (t, .wake) =>
    match s.stage t with
    | .asleep op held requests => some (s.put t (.acquire op held (.conn :: requests)))
    | _ => none
  | (t, .call begun) =>
    match s.stage t with
    | .acquire op held [] =>
      if op = .transaction ∧ begun = false then some (s.put t (.drop op held false))
      else some (s.put t (.inside op held))
    | _ => none
  | (t, .leave panicking) =>
    match s.stage t with
    | .inside op held => some (s.put t (.drop op held panicking))
    | _ => none
  | (t, .drop) =>
    match s.stage t with
    | .drop op (guard :: held) panicking => s.drop t op held panicking guard
    | _ => none
  | (t, .checkin) =>
    match s.stage t with
    | .checkin op conn held panicking =>
      some { s.put t (.notify op held panicking) with conns := conn :: s.conns }
    | _ => none
  | (t, .notify woken) =>
    match s.stage t, woken with
    | .notify op held panicking, some u =>
      match s.stage u with
      | .asleep op' held' requests =>
        some { (s.put t (.drop op held panicking)).put u
          (.acquire op' held' (.conn :: requests)) with pool := s.pool.unlock false }
      | _ => none
    | .notify op held panicking, none =>
      if ∀ u, (s.stage u).isAsleep = false then
        some { s.put t (.drop op held panicking) with pool := s.pool.unlock false }
      else none
    | _, _ => none
  | (t, .finish caught) =>
    match s.stage t with
    | .drop _ [] panicking =>
      some { s.put t .idle with
        ops := if panicking = true ∧ caught = false then Function.update s.ops t []
          else s.ops }
    | _ => none

end Steps

end Seekwel.ConnectionManager
