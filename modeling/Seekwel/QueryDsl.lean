import Mathlib.Algebra.Order.Ring.Int
import Seekwel.ModelSql
import Seekwel.QueryExpression

/-!
# Queries

Queries are values that are built by chained calls and run at the end. A
`Query` runs at once, a `Lazy` query fetches one row at a time and a
`Chunked` one fetches a number of rows at a time; the last two wrap another
query and pass the calls that build on to it. `QueryDsl` is what the query
types share, `Fetch` a query that may have switched between them, and
`Call` a call that builds it.

The statements go to a `Conn`, which answers a text and its parameters with
rows or with an error.
-/

namespace Seekwel.Model

/-! ## Connections -/

/-- A connection, as far as reading is concerned: the rows a statement
returns. -/
abbrev Conn := String → List Value → Except Error (List (List Value))

def queryAllRead {α : Type} (conn : Conn) (query : String) (params : List Value)
    (f : List Value → Except Error α) : Except Error (List α) :=
  (conn query params).bind fun rows => rows.mapM f

/-- The first row, if there is one. -/
def queryOptionalRead {α : Type} (conn : Conn) (query : String) (params : List Value)
    (f : List Value → Except Error α) : Except Error (Option α) :=
  (conn query params).bind fun rows =>
    match rows with
    | [] => .ok none
    | row :: _ => (f row).map some

def queryRowRead {α : Type} (conn : Conn) (query : String) (params : List Value)
    (f : List Value → Except Error α) : Except Error α :=
  (conn query params).bind fun rows =>
    match rows with
    | [] => .error (.sqlite "Query returned no rows")
    | row :: _ => f row

/-- The first value of a row as an `i64`. -/
def getI64 : List Value → Except Error ℤ
  | .integer n :: _ => .ok n
  | _ => .error (.sqlite "Invalid column type")

/-- **A model whose records are of type `R`.** -/
structure PersistedModel (R : Type) extends ModelDef where
  /-- Builds a persisted model instance from a row. -/
  fromRow : List Value → Except Error R

/-! ## Plans -/

/-- Addition of `usize` values that stops at the greatest one. -/
def saturatingAdd (a b : ℕ) : ℕ := min (a + b) (2 ^ 64 - 1)

/-- **A query that is ready to run.** -/
structure QueryPlan where
  tableName : String
  primaryKeyName : String
  columns : List ColumnDef
  clause : Option String
  orderClause : Option String
  params : List Value
  limit : Option ℕ
  offset : ℕ

namespace QueryPlan

def select (plan : QueryPlan) (projection : Projection) (limit : Option ℕ) (offset : ℕ) :
    Select where
  projection := projection
  tableName := plan.tableName
  clause := plan.clause
  orderClause := plan.orderClause
  limit := limit
  offset := if 0 < offset then some offset else none

/-- The columns of the records. -/
def modelColumns (plan : QueryPlan) : Projection :=
  .modelColumns plan.primaryKeyName plan.columns

def allQuery (plan : QueryPlan) : String :=
  (plan.select plan.modelColumns plan.limit plan.offset).toSql

/-- The limit of a statement that asks for one row. -/
def limitOne (plan : QueryPlan) : Option ℕ :=
  match plan.limit with
  | some limit => some (min limit 1)
  | none => some 1

def firstQuery (plan : QueryPlan) : String :=
  (plan.select plan.modelColumns plan.limitOne plan.offset).toSql

def countQuery (plan : QueryPlan) : String :=
  Count.toSql ⟨plan.select .one plan.limit plan.offset⟩

def existsQuery (plan : QueryPlan) : String :=
  (plan.select .one plan.limitOne plan.offset).toSql

def remainingLimit (plan : QueryPlan) (consumed : ℕ) : Option ℕ :=
  plan.limit.map fun limit => limit - consumed

def pagedQuery (plan : QueryPlan) (pageSize consumed : ℕ) : String :=
  let limit := match plan.remainingLimit consumed with
    | some limit => some (min limit pageSize)
    | none => some pageSize
  let offset := saturatingAdd plan.offset consumed
  (plan.select plan.modelColumns limit offset).toSql

end QueryPlan

/-- An `ORDER BY` clause builder. -/
structure Order where
  terms : List OrderTerm

def buildQueryPlan (M : ModelDef) (expression : QueryExpression) (ordering : List OrderTerm)
    (limit : Option ℕ) (offset : ℕ) : Except Error QueryPlan :=
  (expression.intoClause []).map fun p =>
    { tableName := M.tableName
      primaryKeyName := M.primaryKey.name
      columns := M.columns
      clause := p.1
      orderClause := orderByClause ordering
      params := p.2
      limit := limit
      offset := offset }

/-! ## Query types -/

/-- **An eager query.** -/
structure Query where
  expression : QueryExpression
  ordering : List OrderTerm
  limit : Option ℕ
  offset : ℕ

/-- A query without any predicate. -/
def Query.root : Query := ⟨.empty, [], none, 0⟩

/-- A query with a single predicate. -/
def Query.new (column : String) (comparison : Comparison) : Query :=
  ⟨.predicate column comparison, [], none, 0⟩

/-- A query wrapper that fetches matching rows one at a time. -/
structure Lazy (Q : Type) where
  inner : Q

/-- A query wrapper that fetches matching rows in chunks. -/
structure Chunked (Q : Type) where
  inner : Q
  chunkSize : ℕ

/-- **What the query types share**, but for the ways to run them. -/
class QueryDsl (Q : Type) where
  andQuery : Q → Query → Q
  orQuery : Q → Query → Q
  orderQuery : Q → Order → Q
  limitQuery : Q → ℕ → Q
  offsetQuery : Q → ℕ → Q
  intoQueryPlan : ModelDef → Q → Except Error QueryPlan

open QueryDsl

instance : QueryDsl Query where
  andQuery q other := { q with expression := .and q.expression other.expression }
  orQuery q other := { q with expression := .or q.expression other.expression }
  orderQuery q order := { q with ordering := q.ordering ++ order.terms }
  limitQuery q limit := { q with limit := some limit }
  offsetQuery q offset := { q with offset := offset }
  intoQueryPlan M q := buildQueryPlan M q.expression q.ordering q.limit q.offset

instance {Q : Type} [QueryDsl Q] : QueryDsl (Lazy Q) where
  andQuery q other := ⟨andQuery q.inner other⟩
  orQuery q other := ⟨orQuery q.inner other⟩
  orderQuery q order := ⟨orderQuery q.inner order⟩
  limitQuery q limit := ⟨limitQuery q.inner limit⟩
  offsetQuery q offset := ⟨offsetQuery q.inner offset⟩
  intoQueryPlan M q := intoQueryPlan M q.inner

instance {Q : Type} [QueryDsl Q] : QueryDsl (Chunked Q) where
  andQuery q other := ⟨andQuery q.inner other, q.chunkSize⟩
  orQuery q other := ⟨orQuery q.inner other, q.chunkSize⟩
  orderQuery q order := ⟨orderQuery q.inner order, q.chunkSize⟩
  limitQuery q limit := ⟨limitQuery q.inner limit, q.chunkSize⟩
  offsetQuery q offset := ⟨offsetQuery q.inner offset, q.chunkSize⟩
  intoQueryPlan M q := intoQueryPlan M q.inner

/-! ## Running a query -/

section Run

variable {R Q : Type} [QueryDsl Q]

/-- The first matching row, if any. -/
def first (M : PersistedModel R) (get : Except Error Conn) (q : Q) :
    Except Error (Option R) := do
  let conn ← get
  let plan ← intoQueryPlan M.toModelDef q
  queryOptionalRead conn plan.firstQuery plan.params M.fromRow

/-- How many rows the query would return. -/
def count (M : PersistedModel R) (get : Except Error Conn) (q : Q) : Except Error ℕ := do
  let conn ← get
  let plan ← intoQueryPlan M.toModelDef q
  let count ← queryRowRead conn plan.countQuery plan.params getI64
  return (count % 2 ^ 64).toNat

/-- Whether the query would yield at least one row. -/
def «exists» (M : PersistedModel R) (get : Except Error Conn) (q : Q) :
    Except Error Bool := do
  let conn ← get
  let plan ← intoQueryPlan M.toModelDef q
  let value ← queryOptionalRead conn plan.existsQuery plan.params getI64
  return value.isSome

/-- All matching rows. -/
def all (M : PersistedModel R) (get : Except Error Conn) (q : Q) : Except Error (List R) := do
  let conn ← get
  let plan ← intoQueryPlan M.toModelDef q
  queryAllRead conn plan.allQuery plan.params M.fromRow

end Run

/-! ## Iterators -/

/-- The fallible iterator of a lazy query. -/
structure LazyTryIter where
  plan : QueryPlan
  consumed : ℕ
  done : Bool

/-- The fallible iterator of a chunked query. -/
structure ChunkedTryIter where
  plan : QueryPlan
  chunkSize : ℕ
  consumed : ℕ
  done : Bool

def Lazy.tryIter {Q : Type} [QueryDsl Q] (M : ModelDef) (q : Lazy Q) :
    Except Error LazyTryIter :=
  (intoQueryPlan M q).map fun plan => ⟨plan, 0, false⟩

def Chunked.tryIter {Q : Type} [QueryDsl Q] (M : ModelDef) (q : Chunked Q) :
    Except Error ChunkedTryIter :=
  (intoQueryPlan M q).map fun plan => ⟨plan, q.chunkSize, 0, false⟩

section Next

variable {R : Type} (M : PersistedModel R) (get : Except Error Conn)

/-- **The next row**, and the iterator after it. -/
def LazyTryIter.next (it : LazyTryIter) : Option (Except Error R) × LazyTryIter :=
  if it.done then (none, it)
  else if it.plan.remainingLimit it.consumed = some 0 then (none, { it with done := true })
  else
    let query := it.plan.pagedQuery 1 it.consumed
    match get with
    | .error error => (some (.error error), { it with done := true })
    | .ok conn =>
      match queryOptionalRead conn query it.plan.params M.fromRow with
      | .ok (some model) => (some (.ok model), { it with consumed := it.consumed + 1 })
      | .ok none => (none, { it with done := true })
      | .error error => (some (.error error), { it with done := true })

/-- The number of rows that the next chunk may have. -/
def ChunkedTryIter.chunkLimit (it : ChunkedTryIter) : ℕ :=
  match it.plan.remainingLimit it.consumed with
  | some remaining => min remaining it.chunkSize
  | none => it.chunkSize

/-- **The next chunk**, and the iterator after it. -/
def ChunkedTryIter.next (it : ChunkedTryIter) :
    Option (Except Error (List R)) × ChunkedTryIter :=
  if it.done then (none, it)
  else if it.plan.remainingLimit it.consumed = some 0 then (none, { it with done := true })
  else
    let query := it.plan.pagedQuery it.chunkLimit it.consumed
    match get with
    | .error error => (some (.error error), { it with done := true })
    | .ok conn =>
      match queryAllRead conn query it.plan.params M.fromRow with
      | .ok [] => (none, { it with done := true })
      | .ok (row :: rows) =>
        let consumed := it.consumed + (row :: rows).length
        (some (.ok (row :: rows)),
          { it with
            consumed := consumed
            done := (row :: rows).length < it.chunkLimit
              || it.plan.remainingLimit consumed = some 0 })
      | .error error => (some (.error error), { it with done := true })

end Next

/-! ## Building a query -/

/-- A query of any of the types that switching between them reaches. -/
inductive Fetch (Q : Type) where
  | eager (q : Q)
  | lazy (q : Lazy Q)
  | chunked (q : Chunked Q)

/-- A call that builds a query. Chunking by nothing panics. -/
inductive Call where
  | and (other : Query)
  | or (other : Query)
  | order (order : Order)
  | limit (limit : ℕ)
  | offset (offset : ℕ)
  | lazy
  | chunked (chunkSize : ℕ) (pos : 0 < chunkSize)

/-- Adding a predicate with `q`. -/
def Call.q (column : String) (comparison : Comparison) : Call :=
  .and (Query.new column comparison)

namespace Fetch

variable {Q : Type} [QueryDsl Q]

/-- Switching to lazy row-by-row fetching. -/
def toLazy : Fetch Q → Lazy Q
  | eager q => ⟨q⟩
  | lazy q => q
  | chunked q => ⟨q.inner⟩

/-- Switching to chunked fetching. -/
def toChunked (chunkSize : ℕ) : Fetch Q → Chunked Q
  | eager q => ⟨q, chunkSize⟩
  | lazy q => ⟨q.inner, chunkSize⟩
  | chunked q => { q with chunkSize := chunkSize }

/-- **One call.** -/
def call : Fetch Q → Call → Fetch Q
  | f, .lazy => lazy f.toLazy
  | f, .chunked chunkSize _ => chunked (f.toChunked chunkSize)
  | eager q, .and other => eager (andQuery q other)
  | eager q, .or other => eager (orQuery q other)
  | eager q, .order order => eager (orderQuery q order)
  | eager q, .limit limit => eager (limitQuery q limit)
  | eager q, .offset offset => eager (offsetQuery q offset)
  | lazy q, .and other => lazy (andQuery q other)
  | lazy q, .or other => lazy (orQuery q other)
  | lazy q, .order order => lazy (orderQuery q order)
  | lazy q, .limit limit => lazy (limitQuery q limit)
  | lazy q, .offset offset => lazy (offsetQuery q offset)
  | chunked q, .and other => chunked (andQuery q other)
  | chunked q, .or other => chunked (orQuery q other)
  | chunked q, .order order => chunked (orderQuery q order)
  | chunked q, .limit limit => chunked (limitQuery q limit)
  | chunked q, .offset offset => chunked (offsetQuery q offset)

/-- Running the query by a method of its type. -/
def run {α : Type} (method : (Q : Type) → [QueryDsl Q] → Q → α) : Fetch Q → α
  | eager q => method Q q
  | lazy q => method (Lazy Q) q
  | chunked q => method (Chunked Q) q

section Run

variable {R : Type} (M : PersistedModel R) (get : Except Error Conn)

def first (f : Fetch Q) : Except Error (Option R) := f.run fun _ _ q => Model.first M get q

def count (f : Fetch Q) : Except Error ℕ := f.run fun _ _ q => Model.count M get q

def «exists» (f : Fetch Q) : Except Error Bool := f.run fun _ _ q => Model.exists M get q

def all (f : Fetch Q) : Except Error (List R) := f.run fun _ _ q => Model.all M get q

end Run

/-- **Any sequence of calls.** -/
def calls (f : Fetch Q) (cs : List Call) : Fetch Q := cs.foldl call f

/-- The query inside the wrapper. -/
def inner : Fetch Q → Q
  | eager q => q
  | lazy q => q.inner
  | chunked q => q.inner

/-- What the wrappers pass on of a call. -/
def forward (q : Q) : Call → Q
  | .and other => andQuery q other
  | .or other => orQuery q other
  | .order order => orderQuery q order
  | .limit limit => limitQuery q limit
  | .offset offset => offsetQuery q offset
  | .lazy => q
  | .chunked _ _ => q

theorem inner_call (f : Fetch Q) (c : Call) : (f.call c).inner = forward f.inner c := by
  cases f <;> cases c <;> rfl

/-- **The wrappers change nothing** of the query they wrap. -/
theorem inner_calls (f : Fetch Q) (cs : List Call) :
    (f.calls cs).inner = cs.foldl forward f.inner := by
  induction cs generalizing f with
  | nil => rfl
  | cons c cs ih =>
    rw [calls, List.foldl_cons, List.foldl_cons, ← inner_call]
    exact ih (f.call c)

section Run

variable {R : Type} (M : PersistedModel R) (get : Except Error Conn) (f : Fetch Q)

theorem first_eq : f.first M get = Model.first M get f.inner := by cases f <;> rfl

theorem count_eq : f.count M get = Model.count M get f.inner := by cases f <;> rfl

theorem exists_eq : f.exists M get = Model.exists M get f.inner := by cases f <;> rfl

theorem all_eq : f.all M get = Model.all M get f.inner := by cases f <;> rfl

theorem tryIter_toLazy (N : ModelDef) :
    f.toLazy.tryIter N = (intoQueryPlan N f.inner).map fun plan => ⟨plan, 0, false⟩ := by
  cases f <;> rfl

theorem tryIter_toChunked (N : ModelDef) (size : ℕ) :
    (f.toChunked size).tryIter N
      = (intoQueryPlan N f.inner).map fun plan => ⟨plan, size, 0, false⟩ := by
  cases f <;> rfl

end Run

end Fetch

end Seekwel.Model
