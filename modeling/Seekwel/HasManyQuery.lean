import Mathlib.Data.List.Perm.Subperm
import Seekwel.QueryDsl
import Seekwel.QueryMeaning
import Seekwel.SqlParens

/-!
# The queries of an association

A `HasMany` association is bound to a parent and queries its children. Its
query keeps the scope, the children of the parent, apart from the filters
that calls add to it, and joins them when the query is run. The calls, with
any switches between the types of query, amount to `filters`, and the plan is
that of the scope *and* these (`intoQueryPlan_calls`).

What the statements return are rows of the table that match their `WHERE`
clause (`Selects`). The clause is read as the conjunction of the scope and
the filters, whatever the filters are, as long as the names of the columns
do not break out of their parentheses. So every row an execution returns is
the parent's own (`hasMany_scoped`).
-/

namespace Seekwel.Model

open QueryDsl
open Sql (Domain Truth)

/-! ## Associations -/

/-- A `u64` as an `i64`. -/
def asI64 (n : ℕ) : ℤ := if n < 2 ^ 63 then n else n - 2 ^ 64

/-- Runtime handlers for a specific generated foreign key. -/
structure HasManyHandlers where
  queryForParent : ℕ → Except Error Query

/-- The handlers of an association that the macro did not initialize. -/
def HasManyHandlers.missing : HasManyHandlers where
  queryForParent _ := .error (.invalidAssociation
    "HasMany association was not initialized by seekwel::model")

/-- The handlers that are generated for a foreign key in a column. -/
def HasManyHandlers.generated (column : String) : HasManyHandlers where
  queryForParent parentId :=
    .ok (Query.new column (.Eq (.field (.integer (asI64 parentId)))))

/-- **A reverse association to many child records.** -/
structure HasMany where
  parentId : Option ℕ
  handlers : HasManyHandlers

namespace HasMany

def requireParentId (association : HasMany) : Except Error ℕ :=
  match association.parentId with
  | some parentId => .ok parentId
  | none => .error (.invalidAssociation
      "HasMany association is not bound to a persisted parent record")

def queryForParent (association : HasMany) : Except Error Query :=
  association.requireParentId.bind association.handlers.queryForParent

end HasMany

/-- **A query scoped to an association.** -/
structure HasManyQuery where
  scope : Except Error Query
  filters : Option Query

/-- Starts a query scoped to the association's bound parent. -/
def HasMany.query (association : HasMany) : HasManyQuery :=
  ⟨association.queryForParent, none⟩

instance : QueryDsl HasManyQuery where
  andQuery q other :=
    { q with
      filters := some (match q.filters with
        | some filters => andQuery filters other
        | none => other) }
  orQuery q other :=
    { q with
      filters := some (match q.filters with
        | some filters => orQuery filters other
        | none => other) }
  orderQuery q order := { q with scope := q.scope.map fun scope => orderQuery scope order }
  limitQuery q limit := { q with scope := q.scope.map fun scope => limitQuery scope limit }
  offsetQuery q offset := { q with scope := q.scope.map fun scope => offsetQuery scope offset }
  intoQueryPlan M q :=
    q.scope.bind fun scope =>
      intoQueryPlan M (match q.filters with
        | some filters => andQuery scope filters
        | none => scope)

/-! ## What calls amount to -/

/-- One more filter, from the left to the right. -/
def addFilter (filters : Option QueryExpression) : Call → Option QueryExpression
  | .and other =>
    some (match filters with
      | some filters => .and filters other.expression
      | none => other.expression)
  | .or other =>
    some (match filters with
      | some filters => .or filters other.expression
      | none => other.expression)
  | _ => filters

/-- **The filters that calls add.** -/
def filters (cs : List Call) : Option QueryExpression := cs.foldl addFilter none

/-- The children of a parent. -/
def childrenOf (column : String) (parentId : ℕ) : QueryExpression :=
  .predicate column (.Eq (.field (.integer (asI64 parentId))))

/-- **The scope and the filters.** -/
def inScope (scope : QueryExpression) : Option QueryExpression → QueryExpression
  | some filters => .and scope filters
  | none => scope

/-- A query with this scope, or with this error in its place, and these
filters. -/
structure Tracks (scope : Except Error QueryExpression) (filters : Option QueryExpression)
    (q : HasManyQuery) : Prop where
  scope_eq : q.scope.map Query.expression = scope
  filters_eq : q.filters.map Query.expression = filters

/-- A call leaves the scope and adds its filter. -/
theorem Tracks.forward {scope : Except Error QueryExpression}
    {filters : Option QueryExpression} {q : HasManyQuery} (h : Tracks scope filters q)
    (c : Call) : Tracks scope (addFilter filters c) (Fetch.forward q c) := by
  obtain ⟨hscope, hfilters⟩ := h
  have hmap : ∀ f : Query → Query, (∀ q, (f q).expression = q.expression) →
      (q.scope.map f).map Query.expression = scope := by
    intro f hf
    rw [← hscope]
    cases q.scope with
    | error e => rfl
    | ok s => exact congrArg Except.ok (hf s)
  subst hfilters
  cases c with
  | and other =>
    refine ⟨hscope, ?_⟩
    simp only [Fetch.forward, andQuery, addFilter]
    cases q.filters <;> rfl
  | or other =>
    refine ⟨hscope, ?_⟩
    simp only [Fetch.forward, orQuery, addFilter]
    cases q.filters <;> rfl
  | order order => exact ⟨hmap _ fun _ => rfl, rfl⟩
  | limit limit => exact ⟨hmap _ fun _ => rfl, rfl⟩
  | offset offset => exact ⟨hmap _ fun _ => rfl, rfl⟩
  | lazy => exact ⟨hscope, rfl⟩
  | chunked chunkSize pos => exact ⟨hscope, rfl⟩

theorem Tracks.foldl {scope : Except Error QueryExpression}
    {filters : Option QueryExpression} {q : HasManyQuery} (h : Tracks scope filters q)
    (cs : List Call) :
    Tracks scope (cs.foldl addFilter filters) (cs.foldl Fetch.forward q) := by
  induction cs generalizing filters q with
  | nil => exact h
  | cons c cs ih => exact ih (h.forward c)

/-- A query of an association after any calls. -/
def HasMany.calls (association : HasMany) (cs : List Call) : Fetch HasManyQuery :=
  (Fetch.eager association.query).calls cs

theorem HasMany.tracks_calls (association : HasMany) (cs : List Call) :
    Tracks (association.queryForParent.map Query.expression) (filters cs)
      (association.calls cs).inner := by
  rw [HasMany.calls, Fetch.inner_calls]
  have hstart : Tracks (association.queryForParent.map Query.expression) none
      association.query := ⟨rfl, rfl⟩
  exact hstart.foldl cs

theorem Tracks.intoQueryPlan_eq {scope : QueryExpression} {filters : Option QueryExpression}
    {q : HasManyQuery} (h : Tracks (.ok scope) filters q) :
    ∃ ordering limit offset, ∀ N : ModelDef,
      intoQueryPlan N q = buildQueryPlan N (inScope scope filters) ordering limit offset := by
  obtain ⟨hscope, rfl⟩ := h
  obtain ⟨result, f⟩ := q
  cases result with
  | error e => cases hscope
  | ok s =>
    obtain rfl := Except.ok.inj hscope
    refine ⟨s.ordering, s.limit, s.offset, fun N => ?_⟩
    cases f <;> rfl

theorem Tracks.intoQueryPlan_eq_error {error : Error} {filters : Option QueryExpression}
    {q : HasManyQuery} (h : Tracks (.error error) filters q) (N : ModelDef) :
    intoQueryPlan N q = .error error := by
  obtain ⟨hscope, -⟩ := h
  obtain ⟨result, f⟩ := q
  cases result with
  | error e =>
    cases hscope
    rfl
  | ok s => cases hscope

/-! ## Clauses that stay in their parentheses -/

theorem Test.closed_text {column : String} (h : Sql.Closed column) (params : List Value)
    (test : Test) : Sql.Closed (test.text column params) := by
  match test with
  | null false => exact Sql.closed_isNull h
  | null true => exact Sql.closed_isNotNull h
  | compare operator operand => exact Sql.closed_compare h operator _
  | mem [] => exact Sql.closed_false
  | mem (operand :: operands) => exact Sql.closed_mem h (by simp)

theorem combineClauses_closed {left right : Option String} {word : String}
    (hw : Sql.isIdentifier word = true) (hl : ∀ text ∈ left, Sql.Closed text)
    (hr : ∀ text ∈ right, Sql.Closed text) :
    ∀ text ∈ combineClauses left right word, Sql.Closed text := by
  intro text htext
  cases left with
  | none => cases right with
    | none => cases htext
    | some r => exact hr text htext
  | some l => cases right with
    | none => exact hl text htext
    | some r =>
      cases htext
      exact Sql.closed_connected (hl l rfl) (hr r rfl) hw

/-- **Column names that stay in their parentheses** make clauses that do. -/
theorem intoClause_closed {q : QueryExpression}
    (hcol : ∀ leaf ∈ q.leaves, Sql.Closed leaf.1) {params bound : List Value}
    {clause : Option String} (h : q.intoClause params = .ok (clause, bound)) :
    params <+: bound ∧ ∀ text ∈ clause, Sql.Closed text := by
  induction q generalizing params bound clause with
  | empty =>
    cases h
    exact ⟨List.prefix_rfl, by simp⟩
  | predicate column comparison =>
    cases ht : comparison.test with
    | none =>
      rw [QueryExpression.intoClause, Comparison.intoClause_of_test_eq_none ht] at h
      cases h
    | some test =>
      rw [QueryExpression.intoClause, Comparison.intoClause_of_test ht] at h
      cases h
      refine ⟨List.prefix_append _ _, fun text htext => ?_⟩
      cases htext
      exact test.closed_text (hcol _ List.mem_cons_self) params
  | and left right ihl ihr =>
    rw [QueryExpression.intoClause] at h
    obtain ⟨l, lbound, r, hl, hr, rfl⟩ := bind_map_eq_ok h
    have hcol := List.forall_mem_append.mp hcol
    obtain ⟨hlp, hlc⟩ := ihl hcol.1 hl
    obtain ⟨hrp, hrc⟩ := ihr hcol.2 hr
    exact ⟨hlp.trans hrp, combineClauses_closed (by decide) hlc hrc⟩
  | or left right ihl ihr =>
    rw [QueryExpression.intoClause] at h
    obtain ⟨l, lbound, r, hl, hr, rfl⟩ := bind_map_eq_ok h
    have hcol := List.forall_mem_append.mp hcol
    obtain ⟨hlp, hlc⟩ := ihl hcol.1 hl
    obtain ⟨hrp, hrc⟩ := ihr hcol.2 hr
    exact ⟨hlp.trans hrp, combineClauses_closed (by decide) hlc hrc⟩

/-! ## Rows that match -/

/-- A row that the `WHERE` clause of a plan selects. -/
def QueryPlan.Matches (D : Domain Value) (plan : QueryPlan) (row : Row) : Prop :=
  ∀ text ∈ plan.clause, ∃ e, Sql.parse text = some e ∧ e.holds D row.get plan.params = .yes

/-- **A row of the parent**: its foreign key equals the parent's id. -/
def Owned (D : Domain Value) (column : String) (parentId : ℕ) (row : Row) : Prop :=
  D.compare .eq (some column) none (row.get column) (.integer (asI64 parentId)) = .yes

variable {D : Domain Value} {column : String} {parentId : ℕ} {row : Row}

/-- The text of the scope. -/
def scopeText (column : String) : String :=
  column ++ Sql.Operator.eq.text ++ ("?" ++ toString 1)

theorem owned_of_readAs {params : List Value} {e : Sql.Expr}
    (h : Sql.ReadAs [.word column, Sql.Operator.eq.token, .param ("?" ++ toString 1)] e)
    (hp : [.integer (asI64 parentId)] <+: params) (he : e.holds D row.get params = .yes) :
    Owned D column parentId row := by
  obtain ⟨more, rfl⟩ := hp
  obtain ⟨l, rfl | rfl, rfl⟩ := Sql.readAs_compare h
  · simp [Sql.Expr.holds, Sql.Expr.eval, Sql.Atom.eval, Domain.compare, D.truth_ofTruth,
      D.isNull_null] at he
  · simpa [Sql.Expr.holds, Sql.Expr.eval, Sql.Atom.eval, D.truth_ofTruth, Owned,
      Sql.Expr.column?] using he

/-- The scope as a whole clause. -/
theorem owned_of_parse (hcolumn : Sql.isIdentifier column = true) {params : List Value}
    {e : Sql.Expr} (h : Sql.parse (scopeText column) = some e)
    (hp : [.integer (asI64 parentId)] <+: params) (he : e.holds D row.get params = .yes) :
    Owned D column parentId row :=
  owned_of_readAs (Sql.readAs_of_parse
    (Sql.reads_compare (Sql.reads_identifier hcolumn) .eq 1).tokens_eq h) hp he

/-- The scope as the left part of a clause. -/
theorem owned_of_parse_and (hcolumn : Sql.isIdentifier column = true) {filter : String}
    (hf : Sql.Closed filter) {params : List Value} {e : Sql.Expr}
    (h : Sql.parse ("(" ++ scopeText column ++ ") " ++ "AND" ++ " (" ++ filter ++ ")") = some e)
    (hp : [.integer (asI64 parentId)] <+: params) (he : e.holds D row.get params = .yes) :
    Owned D column parentId row := by
  obtain ⟨rs, hrs, hrbal⟩ := hf
  have hls := Sql.reads_compare (Sql.reads_identifier hcolumn) .eq 1
  have hlbal : Sql.Balanced ([.word column] ++ ([Sql.Operator.eq.token]
      ++ [.param ("?" ++ toString 1)])) :=
    .cons (by simp [Sql.Token.IsPlain]) (.cons (by decide) (.cons (by simp [Sql.Token.IsPlain])
      Sql.balanced_nil))
  obtain ⟨l, r, hl, -, rfl⟩ :=
    Sql.parse_connected .and hls hlbal hrs hrbal (by decide) (fun _ => rfl) h
  refine owned_of_readAs hl hp ?_
  have hand : (l.holds D row.get params).and (r.holds D row.get params) = .yes := by
    simpa [Sql.Expr.holds, Sql.Expr.eval, D.truth_ofTruth, Sql.Infix.node] using he
  exact (Truth.and_eq_yes.mp hand).1

/-- **A row that matches the scope and the filters is the parent's.** -/
theorem owned_of_matches (hcolumn : Sql.isIdentifier column = true)
    {fs : Option QueryExpression} (hfs : ∀ q ∈ fs, ∀ leaf ∈ q.leaves, Sql.Closed leaf.1)
    {N : ModelDef} {ordering : List OrderTerm} {limit : Option ℕ} {offset : ℕ}
    {plan : QueryPlan} (hplan : buildQueryPlan N (inScope (childrenOf column parentId) fs)
      ordering limit offset = .ok plan) (h : plan.Matches D row) :
    Owned D column parentId row := by
  have hscope : (childrenOf column parentId).intoClause []
      = .ok (some (scopeText column), [.integer (asI64 parentId)]) := rfl
  cases hclause : (inScope (childrenOf column parentId) fs).intoClause [] with
  | error e =>
    rw [buildQueryPlan, hclause] at hplan
    cases hplan
  | ok p =>
    rw [buildQueryPlan, hclause] at hplan
    cases hplan
    cases fs with
    | none =>
      rw [inScope, hscope] at hclause
      cases hclause
      obtain ⟨e, he, hyes⟩ := h _ rfl
      exact owned_of_parse hcolumn he List.prefix_rfl hyes
    | some f =>
      rw [inScope, QueryExpression.intoClause] at hclause
      obtain ⟨l, lbound, r, hl, hr, hcombined⟩ := bind_map_eq_ok hclause
      cases hscope.symm.trans hl
      obtain ⟨hstart, hclosed⟩ := intoClause_closed (hfs f rfl) hr
      cases r with
      | none =>
        obtain ⟨e, he, hyes⟩ := h _ hcombined
        exact owned_of_parse hcolumn he hstart hyes
      | some text =>
        obtain ⟨e, he, hyes⟩ := h _ hcombined
        exact owned_of_parse_and hcolumn (hclosed text rfl) he hstart hyes

/-! ## Executions -/

/-- **What the statements of a plan return** is in the table: rows that match
the plan, rows for which something else is returned, or their number. -/
structure Selects (D : Domain Value) (table : List Row) (project : Row → List Value)
    (conn : Conn) (plan : QueryPlan) : Prop where
  records : ∀ limit offset result,
    conn (plan.select plan.modelColumns limit offset).toSql plan.params = .ok result →
      ∀ values ∈ result, ∃ row ∈ table, plan.Matches D row ∧ project row = values
  ones : ∀ limit offset result,
    conn (plan.select .one limit offset).toSql plan.params = .ok result →
      result ≠ [] → ∃ row ∈ table, plan.Matches D row
  counts : ∀ limit offset result,
    conn (Count.toSql ⟨plan.select .one limit offset⟩) plan.params = .ok result →
      ∃ picked : List Row, picked.Subperm table ∧ (∀ row ∈ picked, plan.Matches D row)
        ∧ result = [[.integer picked.length]]

/-- **The parent's own rows**: whatever an execution of the query returns
comes from them. -/
structure StaysInScope {R : Type} (D : Domain Value) (table : List Row)
    (project : Row → List Value) (M : PersistedModel R) (conn : Conn) (column : String)
    (parentId : ℕ) (f : Fetch HasManyQuery) : Prop where
  first : ∀ record, f.first M (.ok conn) = .ok (some record) →
    ∃ row ∈ table, Owned D column parentId row ∧ M.fromRow (project row) = .ok record
  all : ∀ records, f.all M (.ok conn) = .ok records → ∀ record ∈ records,
    ∃ row ∈ table, Owned D column parentId row ∧ M.fromRow (project row) = .ok record
  count : ∀ n, f.count M (.ok conn) = .ok n → ∃ picked : List Row, picked.Subperm table
    ∧ (∀ row ∈ picked, Owned D column parentId row) ∧ n = picked.length % 2 ^ 64
  «exists» : f.exists M (.ok conn) = .ok true →
    ∃ row ∈ table, Owned D column parentId row
  lazy : ∀ it, f.toLazy.tryIter M.toModelDef = .ok it → ∀ n record,
    (((fun it => (LazyTryIter.next M (.ok conn) it).2)^[n] it).next M (.ok conn)).1
        = some (.ok record) →
      ∃ row ∈ table, Owned D column parentId row ∧ M.fromRow (project row) = .ok record
  chunked : ∀ size it, (f.toChunked size).tryIter M.toModelDef = .ok it → ∀ n chunk,
    (((fun it => (ChunkedTryIter.next M (.ok conn) it).2)^[n] it).next M (.ok conn)).1
        = some (.ok chunk) → ∀ record ∈ chunk,
      ∃ row ∈ table, Owned D column parentId row ∧ M.fromRow (project row) = .ok record

/-- **Every execution fails.** -/
structure Fails {R : Type} (M : PersistedModel R) (f : Fetch HasManyQuery) : Prop where
  first : ∀ get, ∃ error, f.first M get = .error error
  all : ∀ get, ∃ error, f.all M get = .error error
  count : ∀ get, ∃ error, f.count M get = .error error
  «exists» : ∀ get, ∃ error, f.exists M get = .error error
  lazy : ∃ error, f.toLazy.tryIter M.toModelDef = .error error
  chunked : ∀ size, ∃ error, (f.toChunked size).tryIter M.toModelDef = .error error

section Executions

variable {R : Type} {M : PersistedModel R} {table : List Row} {project : Row → List Value}
  {conn : Conn} {f : Fetch HasManyQuery}

/-- A plan all of whose matching rows are the parent's. -/
structure PlanInScope (D : Domain Value) (table : List Row) (project : Row → List Value)
    (conn : Conn) (column : String) (parentId : ℕ) (plan : QueryPlan) : Prop where
  selects : Selects D table project conn plan
  owned : ∀ row, plan.Matches D row → Owned D column parentId row

variable {plan : QueryPlan}

/-- The records of any statement of the plan. -/
theorem PlanInScope.queryAllRead (h : PlanInScope D table project conn column parentId plan)
    {limit : Option ℕ} {offset : ℕ} {records : List R}
    (hr : Model.queryAllRead conn (plan.select plan.modelColumns limit offset).toSql plan.params
      M.fromRow = .ok records) :
    ∀ record ∈ records,
      ∃ row ∈ table, Owned D column parentId row ∧ M.fromRow (project row) = .ok record := by
  intro record hrecord
  obtain ⟨result, hresult, hr⟩ := bind_eq_ok hr
  -- a record is one of the rows, decoded
  obtain ⟨values, hvalues, hdec⟩ := exists_mem_of_forall₂ (mapM_ok_iff.mp hr) hrecord
  obtain ⟨row, hrow, hmatch, rfl⟩ := h.selects.records _ _ _ hresult values hvalues
  exact ⟨row, hrow, h.owned row hmatch, hdec⟩

theorem PlanInScope.queryOptionalRead
    (h : PlanInScope D table project conn column parentId plan) {limit : Option ℕ} {offset : ℕ}
    {record : R} (hr : Model.queryOptionalRead conn
      (plan.select plan.modelColumns limit offset).toSql plan.params M.fromRow
        = .ok (some record)) :
    ∃ row ∈ table, Owned D column parentId row ∧ M.fromRow (project row) = .ok record := by
  obtain ⟨result, hresult, hr⟩ := bind_eq_ok hr
  cases result with
  | nil => cases hr
  | cons values rest =>
    obtain ⟨row, hrow, hmatch, rfl⟩ :=
      h.selects.records _ _ _ hresult values List.mem_cons_self
    refine ⟨row, hrow, h.owned row hmatch, ?_⟩
    replace hr : (M.fromRow (project row)).map some = .ok (some record) := hr
    cases hdec : M.fromRow (project row) with
    | error e =>
      rw [hdec] at hr
      cases hr
    | ok r =>
      rw [hdec] at hr
      cases hr
      rfl

theorem LazyTryIter.plan_next (M : PersistedModel R) (get : Except Error Conn)
    (it : LazyTryIter) : (it.next M get).2.plan = it.plan := by
  simp only [LazyTryIter.next]
  repeat' split
  all_goals rfl

theorem ChunkedTryIter.plan_next (M : PersistedModel R) (get : Except Error Conn)
    (it : ChunkedTryIter) : (it.next M get).2.plan = it.plan := by
  simp only [ChunkedTryIter.next]
  repeat' split
  all_goals rfl

/-- A row that the lazy iterator yields was read. -/
theorem LazyTryIter.next_ok {it : LazyTryIter} {record : R}
    (h : (it.next M (.ok conn)).1 = some (.ok record)) :
    Model.queryOptionalRead conn (it.plan.pagedQuery 1 it.consumed) it.plan.params M.fromRow
      = .ok (some record) := by
  simp only [LazyTryIter.next] at h
  split at h
  · cases h
  split at h
  · cases h
  split at h
  · cases h
    assumption
  all_goals cases h

/-- A chunk that the chunked iterator yields was read. -/
theorem ChunkedTryIter.next_ok {it : ChunkedTryIter} {chunk : List R}
    (h : (it.next M (.ok conn)).1 = some (.ok chunk)) :
    Model.queryAllRead conn (it.plan.pagedQuery it.chunkLimit it.consumed) it.plan.params
      M.fromRow = .ok chunk := by
  simp only [ChunkedTryIter.next] at h
  split at h
  · cases h
  split at h
  · cases h
  split at h
  · cases h
  · cases h
    assumption
  · cases h

/-- What every step keeps, any number of steps keep. -/
theorem iterate_eq {σ τ : Type} {step : σ → σ} (part : σ → τ)
    (h : ∀ s, part (step s) = part s) (n : ℕ) (s : σ) : part (step^[n] s) = part s := by
  induction n generalizing s with
  | zero => rfl
  | succ n ih => rw [Function.iterate_succ_apply, ih, h]

theorem PlanInScope.staysInScope (h : PlanInScope D table project conn column parentId plan)
    (hplan : intoQueryPlan M.toModelDef f.inner = .ok plan) :
    StaysInScope D table project M conn column parentId f where
  first := by
    intro record hr
    rw [Fetch.first_eq, Model.first, hplan] at hr
    exact h.queryOptionalRead hr
  all := by
    intro records hr
    rw [Fetch.all_eq, Model.all, hplan] at hr
    exact h.queryAllRead hr
  count := by
    intro n hn
    rw [Fetch.count_eq, Model.count, hplan] at hn
    obtain ⟨_, ⟨⟩, hn⟩ := bind_eq_ok hn
    obtain ⟨_, ⟨⟩, hn⟩ := bind_eq_ok hn
    obtain ⟨value, hvalue, hn⟩ := bind_eq_ok hn
    obtain ⟨result, hresult, hvalue⟩ := bind_eq_ok hvalue
    obtain ⟨picked, hsub, hmatch, rfl⟩ := h.selects.counts _ _ _ hresult
    refine ⟨picked, hsub, fun row hrow => h.owned row (hmatch row hrow), ?_⟩
    cases hvalue
    cases hn
    omega
  «exists» := by
    intro hr
    rw [Fetch.exists_eq, Model.exists, hplan] at hr
    obtain ⟨_, ⟨⟩, hr⟩ := bind_eq_ok hr
    obtain ⟨_, ⟨⟩, hr⟩ := bind_eq_ok hr
    obtain ⟨value, hvalue, hr⟩ := bind_eq_ok hr
    obtain ⟨result, hresult, hvalue⟩ := bind_eq_ok hvalue
    cases result with
    | nil =>
      cases hvalue
      cases hr
    | cons values rest =>
      obtain ⟨row, hrow, hmatch⟩ := h.selects.ones _ _ _ hresult (List.cons_ne_nil _ _)
      exact ⟨row, hrow, h.owned row hmatch⟩
  lazy := by
    intro it hit n record hr
    rw [Fetch.tryIter_toLazy, hplan] at hit
    cases hit
    have hread := LazyTryIter.next_ok hr
    rw [iterate_eq LazyTryIter.plan (LazyTryIter.plan_next M (.ok conn)) n] at hread
    exact h.queryOptionalRead hread
  chunked := by
    intro size it hit n chunk hr
    rw [Fetch.tryIter_toChunked, hplan] at hit
    cases hit
    have hread := ChunkedTryIter.next_ok hr
    rw [iterate_eq ChunkedTryIter.plan (ChunkedTryIter.plan_next M (.ok conn)) n]
      at hread
    exact h.queryAllRead hread

/-- Without a plan, every execution fails. -/
theorem fails_of_error {error : Error}
    (hplan : intoQueryPlan M.toModelDef f.inner = .error error) : Fails M f where
  first := by
    intro get
    rw [Fetch.first_eq, Model.first, hplan]
    cases get <;> exact ⟨_, rfl⟩
  all := by
    intro get
    rw [Fetch.all_eq, Model.all, hplan]
    cases get <;> exact ⟨_, rfl⟩
  count := by
    intro get
    rw [Fetch.count_eq, Model.count, hplan]
    cases get <;> exact ⟨_, rfl⟩
  «exists» := by
    intro get
    rw [Fetch.exists_eq, Model.exists, hplan]
    cases get <;> exact ⟨_, rfl⟩
  lazy := by
    rw [Fetch.tryIter_toLazy, hplan]
    exact ⟨_, rfl⟩
  chunked := by
    intro size
    rw [Fetch.tryIter_toChunked, hplan]
    exact ⟨_, rfl⟩

/-- What fails returns nothing. -/
theorem Fails.staysInScope (h : Fails M f) :
    StaysInScope D table project M conn column parentId f where
  first := by
    intro record hr
    obtain ⟨_, he⟩ := h.first (.ok conn)
    cases he.symm.trans hr
  all := by
    intro records hr
    obtain ⟨_, he⟩ := h.all (.ok conn)
    cases he.symm.trans hr
  count := by
    intro n hn
    obtain ⟨_, he⟩ := h.count (.ok conn)
    cases he.symm.trans hn
  «exists» := by
    intro hr
    obtain ⟨_, he⟩ := h.exists (.ok conn)
    cases he.symm.trans hr
  lazy := by
    intro it hit
    obtain ⟨_, he⟩ := h.lazy
    cases he.symm.trans hit
  chunked := by
    intro size it hit
    obtain ⟨_, he⟩ := h.chunked size
    cases he.symm.trans hit

/-- **A query of an association never leaves its parent**, whatever the
connection knows of the statement. Its filter is the foreign key *and* the
filters added, and without a parent every execution fails. -/
theorem hasMany_scoped (D : Domain Value) (M : PersistedModel R) {column : String}
    (hcolumn : Sql.isIdentifier column = true) (parentId : ℕ) {cs : List Call}
    (hcs : ∀ q ∈ filters cs, ∀ leaf ∈ q.leaves, Sql.Closed leaf.1)
    (hconn : ∀ plan, intoQueryPlan M.toModelDef
        (HasMany.calls ⟨some parentId, .generated column⟩ cs).inner = .ok plan →
      Selects D table project conn plan) :
    (∃ ordering limit offset, ∀ N : ModelDef,
        intoQueryPlan N (HasMany.calls ⟨some parentId, .generated column⟩ cs).inner
          = buildQueryPlan N (inScope (childrenOf column parentId) (filters cs))
              ordering limit offset)
      ∧ StaysInScope D table project M conn column parentId
          (HasMany.calls ⟨some parentId, .generated column⟩ cs)
      ∧ ∀ handlers, Fails M (HasMany.calls ⟨none, handlers⟩ cs) := by
  have htracks : Tracks (.ok (childrenOf column parentId)) (filters cs)
      (HasMany.calls ⟨some parentId, .generated column⟩ cs).inner :=
    HasMany.tracks_calls ⟨some parentId, .generated column⟩ cs
  obtain ⟨ordering, limit, offset, heq⟩ := htracks.intoQueryPlan_eq
  refine ⟨⟨ordering, limit, offset, heq⟩, ?_, fun handlers => ?_⟩
  · cases hplan : intoQueryPlan M.toModelDef
        (HasMany.calls ⟨some parentId, .generated column⟩ cs).inner with
    | error e => exact (fails_of_error hplan).staysInScope
    | ok plan =>
      have hscope : PlanInScope D table project conn column parentId plan :=
        ⟨hconn plan hplan, fun row hmatch =>
          owned_of_matches hcolumn hcs ((heq M.toModelDef).symm.trans hplan) hmatch⟩
      exact hscope.staysInScope hplan
  · exact fails_of_error
      ((HasMany.tracks_calls ⟨none, handlers⟩ cs).intoQueryPlan_eq_error M.toModelDef)

end Executions

/-- Integers as SQLite has them. All other values are alike. -/
def integerDomain : Domain Value where
  null := .null
  integer := .integer
  isNull value := value = .null
  truth
    | .null => .unknown
    | .integer n => .ofBool (n ≠ 0)
    | _ => .no
  ofTruth
    | .yes => .integer 1
    | .no => .integer 0
    | .unknown => .null
  order _ _
    | .integer m, .integer n => Ord.compare m n
    | .integer _, _ => .lt
    | _, .integer _ => .gt
    | _, _ => .eq
  truth_ofTruth t := by cases t <;> rfl
  isNull_null := rfl
  isNull_integer _ := rfl
  order_integer _ _ := rfl

/-- A model of pets, whose records are its rows. -/
def petModel : PersistedModel (List Value) where
  tableName := "pet"
  primaryKey := ⟨"id", "INTEGER", true⟩
  columns := [⟨"person_id", "INTEGER", false, none⟩]
  indexes := []
  fromRow := .ok

/-- The pets of two persons. -/
def pets : List Row :=
  [[("id", .integer 1), ("person_id", .integer 7)],
    [("id", .integer 2), ("person_id", .integer 8)]]

/-- A connection that answers one statement. -/
def petConn : Conn := fun query _ =>
  if query = "SELECT id, person_id FROM pet WHERE (person_id = ?1) AND ((id = ?2) OR (id = ?3))"
  then .ok [[.integer 1, .integer 7]]
  else .error (.sqlite "no such statement")

/-- A pet, or another one. -/
def eitherPet : List Call :=
  [.q "id" (.Eq (.field (.integer 1))), .chunked 2 (by decide),
    .or (Query.new "id" (.Eq (.field (.integer 2))))]

/-- The plan of the query. -/
def petPlan : QueryPlan where
  tableName := "pet"
  primaryKeyName := "id"
  columns := petModel.columns
  clause := some "(person_id = ?1) AND ((id = ?2) OR (id = ?3))"
  orderClause := none
  params := [.integer 7, .integer 1, .integer 2]
  limit := none
  offset := 0

/-- A statement that counts says so first. -/
theorem Count.take_toSql (count : Count) :
    count.toSql.toList.take 8 = ['S', 'E', 'L', 'E', 'C', 'T', ' ', 'C'] := by
  unfold Count.toSql
  split
  · rename_i h
    simp only [Bool.and_eq_true, Option.isNone_iff_eq_none] at h
    cases hc : count.select.clause <;>
      simp [Select.toSql, appendLimitOffset, h.1, h.2, hc, Projection.toSql,
        String.toList_append]
  · simp [String.toList_append]

/-- Only the pet that matches is answered with, and no count is. -/
theorem petConn_selects (h : petPlan.Matches integerDomain
    [("id", .integer 1), ("person_id", .integer 7)]) :
    Selects integerDomain pets (fun row => row.map Prod.snd) petConn petPlan where
  records := by
    intro limit offset result hr values hvalues
    unfold petConn at hr
    split at hr
    · cases hr
      rw [List.mem_singleton.mp hvalues]
      exact ⟨_, List.mem_cons_self, h, rfl⟩
    · cases hr
  ones := by
    intro limit offset result hr hne
    exact ⟨_, List.mem_cons_self, h⟩
  counts := by
    intro limit offset result hr
    unfold petConn at hr
    split at hr
    · rename_i heq
      have hcount := Count.take_toSql ⟨petPlan.select .one limit offset⟩
      rw [heq] at hcount
      simp at hcount
    · cases hr

theorem petConn_scoped :
    petConn "SELECT id, person_id FROM pet WHERE (person_id = ?1) AND ((id = ?2) OR (id = ?3))"
        [.integer 7, .integer 1, .integer 2] = .ok [[.integer 1, .integer 7]]
      ∧ StaysInScope integerDomain pets (fun row => row.map Prod.snd) petModel petConn
          "person_id" 7 (HasMany.calls ⟨some 7, .generated "person_id"⟩ eitherPet) := by
  refine ⟨rfl, (hasMany_scoped integerDomain petModel (by decide) 7 ?_ ?_).2.1⟩
  · intro q hq leaf hleaf
    cases hq
    have hnames : ∀ leaf ∈ (QueryExpression.or (.predicate "id" (.Eq (.field (.integer 1))))
        (.predicate "id" (.Eq (.field (.integer 2))))).leaves, leaf.1 = "id" := by decide
    rw [hnames leaf hleaf]
    exact Sql.closed_identifier (by decide)
  · intro plan hplan
    cases hplan
    have hmatch : QueryPlan.Matches integerDomain petPlan
        [("id", .integer 1), ("person_id", .integer 7)] := by
      intro text htext
      cases htext
      have hclause : (inScope (childrenOf "person_id" 7) (filters eitherPet)).intoClause []
          = .ok (petPlan.clause, petPlan.params) := rfl
      obtain ⟨e, hparse, -, hholds⟩ := (intoClause_meantBy (by decide) hclause).2
      have hyes := hholds integerDomain (Row.get [("id", .integer 1), ("person_id", .integer 7)])
      exact ⟨e, hparse, (Option.some.inj hyes).symm⟩
    exact petConn_selects hmatch

end Seekwel.Model
