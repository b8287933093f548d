import Seekwel.CountQueries
import Seekwel.HasManyQuery
import Seekwel.Idempotence
import Seekwel.RecordRuns
import Seekwel.SqlQueries

/-!
# Queries over records

A query is run on the table of a model: its statement is read again, the rows
that meet its condition are sorted and cut off, and those that are left are
read as records. What comes of it is what the query says of the records in the
table (`IsFound`), in each of the ways a query is run (`queries_answer`).

The order in which the rows are visited is any that depends on their rowids
alone. A result holds of each such order by itself, so it also holds where the
statements visit the rows in different ones.
-/

namespace Seekwel.Model

open Sql (Domain Truth Table Stored Scan PlainName OrderItem)

/-! ## Statements -/

/-- **The connection to a table**, for any query. -/
def inquiryConn (D : Domain Value) (scan : Scan Value) (t : Table Value) : Conn :=
  fun query params =>
    ((Sql.readInquiry query).bind fun inquiry =>
      t.answer D sqlValues scan params inquiry).mapError Error.sqlite

/-- An ordering by a column. -/
def columnTerm (item : OrderItem) : OrderTerm :=
  .column item.column (if item.descending then .desc else .asc)

theorem toSql_columnTerm (item : OrderItem) : (columnTerm item).toSql = item.text := by
  obtain ⟨column, descending⟩ := item
  cases descending
  all_goals simp [columnTerm, OrderTerm.toSql, OrderDirection.asSql, OrderItem.text,
    OrderItem.direction, String.append_assoc]

/-- The limits of a statement. -/
def limitsText (limit : Option ℕ) (offset : ℕ) : String :=
  appendLimitOffset "" limit (if 0 < offset then some offset else none)

theorem isLimits_limitsText (limit : Option ℕ) (offset : ℕ) :
    Sql.LimitsText (limitsText limit offset) := by
  have hlimit : ∀ n : ℕ, Sql.Follows (" LIMIT " ++ toString n)
      [.word "LIMIT", .number (toString n)] := fun n =>
    .inr ⟨by simp [String.toList_append, Sql.breaks], Sql.reads_limit n⟩
  have hoffset : ∀ n : ℕ, Sql.Follows (" OFFSET " ++ toString n)
      [.word "OFFSET", .number (toString n)] := fun n =>
    .inr ⟨by simp [String.toList_append, Sql.breaks], Sql.reads_offset n⟩
  have hnone : Sql.Follows " LIMIT -1" [.word "LIMIT", .symbol "-", .number "1"] :=
    .inr ⟨by decide, Sql.Reads.of_scan (u := [.word "LIMIT", .symbol "-"]) (s := .number ['1'])
      (by decide) (by decide) rfl⟩
  have hword : ∀ ts, Sql.AreLimits (.word "LIMIT" :: ts) := fun ts t ht => by
    cases ht
    decide
  rw [limitsText]
  by_cases hpos : 0 < offset
  · rw [if_pos hpos]
    cases limit with
    | none =>
      have htext : appendLimitOffset "" none (some offset)
          = " LIMIT -1" ++ (" OFFSET " ++ toString offset) := by simp [appendLimitOffset]
      exact ⟨_, htext ▸ hnone.append (hoffset offset), hword _⟩
    | some limit =>
      have htext : appendLimitOffset "" (some limit) (some offset)
          = " LIMIT " ++ toString limit ++ (" OFFSET " ++ toString offset) := by
        simp [appendLimitOffset]
      exact ⟨_, htext ▸ (hlimit limit).append (hoffset offset), hword _⟩
  · rw [if_neg hpos]
    cases limit with
    | none => exact ⟨[], .inl ⟨rfl, rfl⟩, fun t ht => by cases ht⟩
    | some limit =>
      have htext : appendLimitOffset "" (some limit) none = " LIMIT " ++ toString limit := by
        simp [appendLimitOffset]
      exact ⟨_, htext ▸ hlimit limit, hword _⟩

/-- **The text of a plan** that is ordered by columns. -/
theorem QueryPlan.toSql_eq {plan : QueryPlan} {items : List OrderItem}
    (horder : plan.orderClause = orderByClause (items.map columnTerm)) (projection : Projection)
    (limit : Option ℕ) (offset : ℕ) :
    (plan.select projection limit offset).toSql
      = Sql.queryText projection.toSql plan.tableName plan.clause items
          (limitsText limit offset) := by
  have hitems : items.map (OrderTerm.toSql ∘ columnTerm) = items.map OrderItem.text :=
    List.map_congr_left fun item _ => toSql_columnTerm item
  rw [QueryPlan.toSql_select, QueryPlan.text, Select.toSql, ← limitsText, Sql.queryText]
  simp only [QueryPlan.select, horder, orderByClause, List.isEmpty_iff, List.map_eq_nil_iff,
    List.map_map, hitems, Sql.orderText, Nat.lt_irrefl, if_false]
  cases plan.clause <;> split_ifs <;>
    simp [appendLimitOffset, Sql.conditionText, String.append_assoc]

/-! ## Conditions -/

/-- A test refers to its own column. -/
theorem Test.columns_of_readAs {bound : List Value} {column : String} {test : Test}
    {e : Sql.Expr} (h : test.ReadAs bound column e) : ∀ c ∈ e.columns, c = column := by
  cases test with
  | null negated =>
    cases negated
    all_goals
      obtain rfl := h
      simp [Sql.Expr.columns, Sql.Atom.columns]
  | compare operator operand =>
    obtain ⟨n, -, rfl⟩ := h
    simp [Sql.Expr.columns, Sql.Atom.columns]
  | mem operands =>
    cases operands with
    | nil =>
      obtain rfl := h
      simp [Sql.Expr.columns, Sql.Atom.columns]
    | cons operand operands =>
      obtain ⟨ns, -, rfl⟩ := h
      simp [Sql.Expr.columns, Sql.Atom.columns, List.flatMap_map]

/-- **A condition refers to the columns of its comparisons.** -/
theorem QueryExpression.columns_of_readAs {bound : List Value} {q : QueryExpression}
    {e : Option Sql.Expr} (h : q.ReadAs bound e) :
    ∀ c ∈ (e.map Sql.Expr.columns).getD [], c ∈ q.leaves.map Prod.fst := by
  have hmerge : ∀ {node : Sql.Expr → Sql.Expr → Sql.Expr} {l r : Option Sql.Expr} {c : String},
      (∀ a b, (node a b).columns = a.columns ++ b.columns) →
      c ∈ ((l.merge node r).map Sql.Expr.columns).getD [] →
        c ∈ (l.map Sql.Expr.columns).getD [] ∨ c ∈ (r.map Sql.Expr.columns).getD [] := by
    intro node l r c hnode hc
    cases l <;> cases r <;> simp_all
  induction q generalizing e with
  | empty =>
    obtain rfl := h
    exact fun c hc => absurd hc List.not_mem_nil
  | predicate column comparison =>
    obtain ⟨test, expr, -, hread, rfl⟩ := h
    intro c hc
    rw [Test.columns_of_readAs hread c hc]
    exact List.mem_cons_self
  | and left right ihl ihr =>
    obtain ⟨l, r, hl, hr, rfl⟩ := h
    intro c hc
    rw [leaves, List.map_append, List.mem_append]
    exact (hmerge (fun _ _ => rfl) hc).imp (ihl hl c) (ihr hr c)
  | or left right ihl ihr =>
    obtain ⟨l, r, hl, hr, rfl⟩ := h
    intro c hc
    rw [leaves, List.map_append, List.mem_append]
    exact (hmerge (fun _ _ => rfl) hc).imp (ihl hl c) (ihr hr c)

/-- **A row meets a condition** if the filter selects it. -/
theorem meets_iff {D : Domain Value} {bound : List Value} {q : QueryExpression}
    {e : Option Sql.Expr} (h : q.ReadAs bound e) (t : Table Value) (row : Stored Value) :
    t.meets D sqlValues bound e row = true ↔ q.Selects D (t.get sqlValues row) := by
  rw [QueryExpression.Selects, ← holds_of_readAs D (t.get sqlValues row) bound h]
  cases e <;> simp [Table.meets, Table.satisfies]

/-! ## Plans -/

variable {M : Declaration} {D : Domain Value} {scan : Scan Value} {t : Table Value}
  {q : Query} {items : List OrderItem}

/-- The model as queries know it. -/
def Declaration.persistedModel (M : Declaration) : PersistedModel (Persisted M) where
  toModelDef := M.modelDef
  fromRow := fromRow M

/-- **A query for records of a model**, in the order of some columns. -/
structure Query.IsFor (M : Declaration) (q : Query) (items : List OrderItem) : Prop where
  columns : ∀ leaf ∈ q.expression.leaves, leaf.1 ∈ recordColumns M
  /-- Nothing is to be greater or less than `NULL`. -/
  tests : ∀ leaf ∈ q.expression.leaves, leaf.2.test ≠ none
  ordering : q.ordering = items.map columnTerm
  orderColumns : ∀ item ∈ items, item.column ∈ recordColumns M
  limit_lt : ∀ limit ∈ q.limit, limit < 2 ^ 63
  offset_lt : q.offset < 2 ^ 63

/-- The plan of a query, with the text of its filter. -/
def Query.planOf (M : ModelDef) (q : Query) (clause : Option String) : QueryPlan where
  tableName := M.tableName
  primaryKeyName := M.primaryKey.name
  columns := M.columns
  clause := clause
  orderClause := orderByClause q.ordering
  params := q.expression.operands
  limit := q.limit
  offset := q.offset

theorem PlainNames.recordColumns (hp : PlainNames M) :
    ∀ c ∈ Model.recordColumns M, PlainName c :=
  List.forall_mem_cons.mpr ⟨hp.key, List.forall_mem_map.mpr hp.columns⟩

/-- **The text of a filter and what it is read as.** -/
structure Query.Written (q : Query) (clause : Option String) (e : Option Sql.Expr) : Prop where
  text : Option.Rel Sql.TextOf clause e
  readAs : q.expression.ReadAs q.expression.operands e

/-- A query for records has a plan. -/
theorem Query.IsFor.exists_plan (hp : PlainNames M) (h : q.IsFor M items) :
    ∃ clause e, q.Written clause e
      ∧ QueryDsl.intoQueryPlan M.modelDef q = .ok (q.planOf M.modelDef clause) := by
  have hplain : ∀ leaf ∈ q.expression.leaves, PlainName leaf.1 :=
    fun leaf hleaf => hp.recordColumns _ (h.columns leaf hleaf)
  cases hclause : q.expression.intoClause [] with
  | error error =>
    obtain ⟨leaf, hleaf, htest⟩ := (intoClause_eq_error_iff q.expression []).mp ⟨error, hclause⟩
    exact absurd htest (h.tests leaf hleaf)
  | ok p =>
    obtain ⟨clause, bound⟩ := p
    obtain ⟨rfl, e, hread, htext⟩ := intoClause_spec hplain hclause
    refine ⟨clause, e, ⟨htext, hread⟩, ?_⟩
    show buildQueryPlan M.modelDef q.expression q.ordering q.limit q.offset = _
    rw [buildQueryPlan, hclause]
    rfl

/-! ## Answers -/

/-- What a plan says of the table. -/
def rowQuery (M : Declaration) (e : Option Sql.Expr) (items : List OrderItem)
    (output : Sql.Output) : Sql.RowQuery :=
  ⟨output, M.tableName, e, items⟩

/-- A query for records has its columns in the table. -/
theorem limitedRows_rowQuery (ht : HasColumns M t.toSchema) (hq : q.IsFor M items)
    {clause : Option String} {e : Option Sql.Expr} (hw : q.Written clause e) {output : Sql.Output}
    (houtput : ∀ c ∈ output.columns, c ∈ recordColumns M) (bound : List Value)
    (limits : Sql.Limits) :
    t.limitedRows D sqlValues scan bound ⟨rowQuery M e items output, limits⟩
      = .ok (t.returned D sqlValues scan bound ⟨rowQuery M e items output, limits⟩) := by
  have hnames : ∀ c ∈ recordColumns M, t.hasColumn c = true := by
    refine List.forall_mem_cons.mpr ⟨hasColumn_key ht, List.forall_mem_map.mpr fun field hfield => ?_⟩
    simp [Table.hasColumn, ht.columns field hfield]
  have hcolumns : (rowQuery M e items output).columns.all t.hasColumn = true := by
    rw [List.all_eq_true]
    intro c hc
    rw [Sql.RowQuery.columns, List.mem_append, List.mem_append] at hc
    obtain (hc | hc) | hc := hc
    · exact hnames c (houtput c hc)
    · obtain ⟨leaf, hleaf, rfl⟩ :=
        List.mem_map.mp (QueryExpression.columns_of_readAs hw.readAs c hc)
      exact hnames _ (hq.columns leaf hleaf)
    · obtain ⟨item, hitem, rfl⟩ := List.mem_map.mp hc
      exact hnames _ (hq.orderColumns item hitem)
  exact (if_pos ht.name.symm).trans (if_pos hcolumns)

theorem outputText_projectionOne : Sql.OutputText Projection.one.toSql (.items [.integer 1]) :=
  Sql.outputText_one

theorem outputText_projectionCountAll : Sql.OutputText Projection.countAll.toSql .count :=
  Sql.outputText_count

section Answers

variable (D) (scan) (hp : PlainNames M) (ht : HasColumns M t.toSchema) (hq : q.IsFor M items)
  {clause : Option String} {e : Option Sql.Expr} (hw : q.Written clause e)
include hp ht hq hw

/-- **What a statement of a plan is answered with.** -/
theorem inquiryConn_select {projection : Projection} {output : Sql.Output}
    (htext : Sql.OutputText projection.toSql output)
    (houtput : ∀ c ∈ output.columns, c ∈ recordColumns M) (limit : Option ℕ) (offset : ℕ) :
    inquiryConn D scan t ((q.planOf M.modelDef clause).select projection limit offset).toSql
        q.expression.operands
      = ((Sql.readLimits (limitsText limit offset)).map fun limits =>
          t.returned D sqlValues scan q.expression.operands
            ⟨rowQuery M e items output, limits⟩).mapError Error.sqlite := by
  have horder : (q.planOf M.modelDef clause).orderClause
      = orderByClause (items.map columnTerm) := congrArg orderByClause hq.ordering
  have hplain : ∀ item ∈ items, PlainName item.column :=
    fun item hitem => hp.recordColumns _ (hq.orderColumns item hitem)
  have hread := Sql.readInquiry_queryText htext hp.table hw.text hplain
    (isLimits_limitsText limit offset)
  rw [QueryPlan.toSql_eq horder, inquiryConn]
  refine (congrArg (fun inquiry => (Except.bind inquiry _).mapError Error.sqlite) hread).trans ?_
  cases Sql.readLimits (limitsText limit offset) with
  | error message => rfl
  | ok limits =>
    show (t.limitedRows D sqlValues scan q.expression.operands
      ⟨rowQuery M e items output, limits⟩).mapError Error.sqlite = _
    rw [limitedRows_rowQuery ht hq hw houtput]
    rfl

/-- **What a count of the rows of a plan is answered with.** -/
theorem inquiryConn_counted {projection : Projection} {output : Sql.Output}
    (htext : Sql.OutputText projection.toSql output)
    (houtput : ∀ c ∈ output.columns, c ∈ recordColumns M) (limit : Option ℕ) (offset : ℕ) :
    inquiryConn D scan t ("SELECT COUNT(*) FROM ("
        ++ ((q.planOf M.modelDef clause).select projection limit offset).toSql
        ++ ") AS seekwel_count") q.expression.operands
      = ((Sql.readLimits (limitsText limit offset)).map fun limits =>
          [[.integer (t.returned D sqlValues scan q.expression.operands
            ⟨rowQuery M e items output, limits⟩).length]]).mapError Error.sqlite := by
  have horder : (q.planOf M.modelDef clause).orderClause
      = orderByClause (items.map columnTerm) := congrArg orderByClause hq.ordering
  have hplain : ∀ item ∈ items, PlainName item.column :=
    fun item hitem => hp.recordColumns _ (hq.orderColumns item hitem)
  have hread := Sql.readInquiry_counted htext hp.table hw.text hplain
    (isLimits_limitsText limit offset) (show Sql.PlainTable "seekwel_count" by decide)
  rw [QueryPlan.toSql_eq horder, String.append_assoc, inquiryConn]
  refine (congrArg (fun inquiry => (Except.bind inquiry _).mapError Error.sqlite) hread).trans ?_
  cases Sql.readLimits (limitsText limit offset) with
  | error message => rfl
  | ok limits =>
    show ((t.limitedRows D sqlValues scan q.expression.operands
      ⟨rowQuery M e items output, limits⟩).map _).mapError Error.sqlite = _
    rw [limitedRows_rowQuery ht hq hw houtput]
    rfl

/-- The rows that a query finds, in its order. -/
def foundRows (M : Declaration) (D : Domain Value) (scan : Scan Value) (t : Table Value)
    (q : Query) (items : List OrderItem) (e : Option Sql.Expr) : List (Stored Value) :=
  t.found D sqlValues scan q.expression.operands (rowQuery M e items .count)

/-- **What the columns of the model are answered with.** -/
theorem inquiryConn_columns (limit : Option ℕ) (offset : ℕ) :
    inquiryConn D scan t ((q.planOf M.modelDef clause).select
        (q.planOf M.modelDef clause).modelColumns limit offset).toSql q.expression.operands
      = ((Sql.readLimits (limitsText limit offset)).map fun limits =>
          (limits.window (foundRows M D scan t q items e)).map (cells M t)).mapError Error.sqlite := by
  have htext : (q.planOf M.modelDef clause).modelColumns.toSql
      = Text.join ", " (recordColumns M) :=
    congrArg (fun names => Text.join ", " (M.primaryKeyName :: names)) (columnNames_modelDef M)
  have houtput : Sql.OutputText (q.planOf M.modelDef clause).modelColumns.toSql
      (.items ((recordColumns M).map .column)) :=
    htext ▸ Sql.outputText_columns hp.recordColumns (List.cons_ne_nil _ _)
  have hcolumns : ∀ c ∈ (Sql.Output.items ((recordColumns M).map .column)).columns,
      c ∈ recordColumns M := by
    simp [Sql.Output.columns, List.flatMap_map, Sql.Atom.columns]
  rw [inquiryConn_select D scan hp ht hq hw houtput hcolumns]
  refine congrArg (fun answer => (Except.map answer _).mapError Error.sqlite) ?_
  funext limits
  refine List.map_congr_left fun row _ => ?_
  rw [List.map_map]
  rfl

/-- What ones are answered with. -/
theorem inquiryConn_ones (limit : Option ℕ) (offset : ℕ) :
    inquiryConn D scan t ((q.planOf M.modelDef clause).select .one limit offset).toSql
        q.expression.operands
      = ((Sql.readLimits (limitsText limit offset)).map fun limits =>
          (limits.window (foundRows M D scan t q items e)).map
            fun _ => [Value.integer 1]).mapError Error.sqlite :=
  inquiryConn_select D scan hp ht hq hw outputText_projectionOne (by simp [Sql.Output.columns, Sql.Atom.columns])
    limit offset

/-- What a count of ones is answered with. -/
theorem inquiryConn_countedOnes (limit : Option ℕ) (offset : ℕ) :
    inquiryConn D scan t ("SELECT COUNT(*) FROM ("
        ++ ((q.planOf M.modelDef clause).select .one limit offset).toSql
        ++ ") AS seekwel_count") q.expression.operands
      = ((Sql.readLimits (limitsText limit offset)).map fun limits =>
          [[Value.integer (limits.window (foundRows M D scan t q items e)).length]]).mapError
            Error.sqlite := by
  rw [inquiryConn_counted D scan hp ht hq hw outputText_projectionOne
    (by simp [Sql.Output.columns, Sql.Atom.columns])]
  refine congrArg (fun answer => (Except.map answer _).mapError Error.sqlite) ?_
  funext limits
  rw [Table.returned]
  exact congrArg (fun n : ℕ => [[Value.integer n]]) (List.length_map _)

/-- What a count of all rows is answered with. -/
theorem inquiryConn_countAll :
    inquiryConn D scan t ((q.planOf M.modelDef clause).select .countAll none 0).toSql
        q.expression.operands
      = .ok [[.integer (foundRows M D scan t q items e).length]] := by
  rw [inquiryConn_select D scan hp ht hq hw outputText_projectionCountAll (fun c hc => absurd hc List.not_mem_nil)]
  rfl

end Answers

/-! ## Records -/

/-- **A table whose rows are all read as records.** -/
structure Legible (M : Declaration) (t : Table Value) : Prop where
  isTable : IsTable M t.toSchema
  reads : ∀ row ∈ t.rows, ∃ record, fromRow M (cells M t row) = .ok record

/-- **The records that a query finds**: those of the table whose rows its
filter selects, each once, in its order. -/
structure IsFound (D : Domain Value) (t : Table Value) (q : Query) (items : List OrderItem)
    (found : List (Persisted M)) : Prop where
  nodup : (found.map fun record => record.key).Nodup
  mem_iff : ∀ record, record ∈ found ↔ contents M t record.key = some record.values
    ∧ ∃ row, rowOf M t record.key = some row ∧ q.expression.Selects D (t.get sqlValues row)
  ordered : found.Pairwise fun a b => ∀ row ∈ rowOf M t a.key, ∀ row' ∈ rowOf M t b.key,
    t.precedes D sqlValues items row row' = true

/-- A row that is read as a record is the one of its key. -/
theorem rowOf_of_fromRow (ht : HasColumns M t.toSchema) {row : Stored Value} (hrow : row ∈ t.rows)
    {record : Persisted M} (hread : fromRow M (cells M t row) = .ok record) :
    rowOf M t record.key = some row := by
  have hcell : t.get sqlValues row M.primaryKeyName = .integer row.rowid := by
    rw [Table.get, if_pos ht.key.symm]
    rfl
  rw [cells, List.map_cons, hcell, fromRow_eq_ok_iff] at hread
  have hstored := IntType.toSqlValue_of_fromSqlRow (fun n hn => by
    obtain rfl := Value.integer.inj hn
    exact holds_i64_iff.mpr (t.hasRows.isRowid row hrow)) hread.1
  exact rowOf_eq_some_iff.mpr ⟨hrow, (Value.integer.inj hstored).symm⟩

theorem mem_foundRows {clause : Option String} {e : Option Sql.Expr} (hw : q.Written clause e)
    {row : Stored Value} :
    row ∈ foundRows M D scan t q items e
      ↔ row ∈ t.rows ∧ q.expression.Selects D (t.get sqlValues row) := by
  rw [foundRows, (t.found_perm _ _).mem_iff, List.mem_filter]
  exact and_congr_right fun _ => meets_iff hw.readAs t row

/-- **What the rows are read as** is what the query finds. -/
theorem isFound_of_foundRows (hD : D.IsOrdered) (ht : HasColumns M t.toSchema)
    {clause : Option String} {e : Option Sql.Expr} (hw : q.Written clause e)
    {records : List (Persisted M)}
    (hrecords : (foundRows M D scan t q items e).map (fun row => fromRow M (cells M t row))
      = records.map .ok) : IsFound D t q items records := by
  have hpairs : List.Forall₂ (fun row record => row ∈ t.rows ∧ fromRow M (cells M t row) = .ok record)
      (foundRows M D scan t q items e) records := by
    rw [List.forall₂_and_left]
    refine ⟨fun row hrow => ((mem_foundRows hw).mp hrow).1, ?_⟩
    have hall := List.forall₂_eq_eq_eq ▸ hrecords
    rwa [List.forall₂_map_left_iff, List.forall₂_map_right_iff] at hall
  have hrows : (foundRows M D scan t q items e).map some
      = records.map fun record => rowOf M t record.key := by
    rw [← List.forall₂_eq_eq_eq, List.forall₂_map_left_iff, List.forall₂_map_right_iff]
    exact hpairs.imp fun row record h => (rowOf_of_fromRow ht h.1 h.2).symm
  have hmem : ∀ record, record ∈ records ↔ ∃ row ∈ foundRows M D scan t q items e,
      fromRow M (cells M t row) = .ok record := by
    intro record
    have hmap := congrArg (fun l => Except.ok record ∈ l) hrecords
    simpa [List.mem_map] using hmap.symm
  refine ⟨?_, fun record => ?_, ?_⟩
  · have hkeys : (foundRows M D scan t q items e).map Stored.rowid
        = records.map fun record => rowidOf M record.key := by
      rw [← List.forall₂_eq_eq_eq, List.forall₂_map_left_iff, List.forall₂_map_right_iff]
      exact hpairs.imp fun row record h => (rowOf_eq_some_iff.mp (rowOf_of_fromRow ht h.1 h.2)).2
    have hnodup : ((foundRows M D scan t q items e).map Stored.rowid).Nodup :=
      ((t.found_perm _ _).map _).nodup_iff.mpr
        (t.hasRows.nodup.sublist (List.filter_sublist.map _))
    rw [hkeys, ← Function.comp_def (rowidOf M) fun record : Persisted M => record.key,
      ← List.map_map] at hnodup
    exact hnodup.of_map
  · rw [hmem, contents_eq_some_iff]
    constructor
    · rintro ⟨row, hrow, hread⟩
      obtain ⟨hrow, hselects⟩ := (mem_foundRows hw).mp hrow
      have hkey := rowOf_of_fromRow ht hrow hread
      exact ⟨⟨row, hkey, record, hread, rfl⟩, row, hkey, hselects⟩
    · rintro ⟨⟨row, hkey, record', hread, hvalues⟩, row', hkey', hselects⟩
      obtain rfl := Option.some.inj (hkey.symm.trans hkey')
      obtain ⟨hrow, hrowid⟩ := rowOf_eq_some_iff.mp hkey
      obtain rfl := Persisted.ext (key_of_fromRow ht hrowid hread) hvalues
      exact ⟨row, (mem_foundRows hw).mpr ⟨hrow, hselects⟩, hread⟩
  · have hordered : (foundRows M D scan t q items e).Pairwise fun a b =>
        t.precedes D sqlValues items a b = true :=
      t.pairwise_found hD q.expression.operands (rowQuery M e items .count)
    have hsome : ((foundRows M D scan t q items e).map some).Pairwise fun x y =>
        ∀ row ∈ x, ∀ row' ∈ y, t.precedes D sqlValues items row row' = true := by
      rw [List.pairwise_map]
      refine hordered.imp fun {a b} hab row hrow row' hrow' => ?_
      cases hrow
      cases hrow'
      exact hab
    rw [hrows, List.pairwise_map] at hsome
    exact hsome

/-! ## The ways to run a query -/

section Iterators

variable {R : Type} {P : PersistedModel R} {conn conn' : Conn}

/-- An iterator that is replaced by one that does the same. -/
theorem Yields.congr {σ α : Type} {next next' : σ → Option α × σ} {K : σ → Prop}
    (hstep : ∀ s, K s → next s = next' s ∧ K (next s).2) {s s' : σ} {as : List α}
    (h : Yields next s as s') (hs : K s) : Yields next' s as s' := by
  induction h with
  | stop heq => exact .stop ((hstep _ hs).1 ▸ heq)
  | item heq _ ih =>
    have hnext := (hstep _ hs).2
    rw [heq] at hnext
    exact .item ((hstep _ hs).1 ▸ heq) (ih hnext)

/-- A lazy iterator depends on the answers to its pages alone. -/
theorem LazyTryIter.next_congr {it : LazyTryIter} (h : ∀ limit offset,
    conn (it.plan.select it.plan.modelColumns limit offset).toSql it.plan.params
      = conn' (it.plan.select it.plan.modelColumns limit offset).toSql it.plan.params) :
    it.next P (.ok conn) = it.next P (.ok conn') := by
  have hpage : conn (it.plan.pagedQuery 1 it.consumed) it.plan.params
      = conn' (it.plan.pagedQuery 1 it.consumed) it.plan.params := h _ _
  simp only [LazyTryIter.next, queryOptionalRead, hpage]

/-- A chunked iterator, likewise. -/
theorem ChunkedTryIter.next_congr {it : ChunkedTryIter} (h : ∀ limit offset,
    conn (it.plan.select it.plan.modelColumns limit offset).toSql it.plan.params
      = conn' (it.plan.select it.plan.modelColumns limit offset).toSql it.plan.params) :
    it.next P (.ok conn) = it.next P (.ok conn') := by
  have hpage : conn (it.plan.pagedQuery it.chunkLimit it.consumed) it.plan.params
      = conn' (it.plan.pagedQuery it.chunkLimit it.consumed) it.plan.params := h _ _
  simp only [ChunkedTryIter.next, queryAllRead, hpage]

end Iterators

/-- **A query is answered with records**, in each of the ways it is run. -/
structure AnswersWith {R : Type} (P : PersistedModel R) (conn : Conn) (f : Fetch Query)
    (records : List R) : Prop where
  all : f.all P (.ok conn) = .ok records
  first : f.first P (.ok conn) = .ok records.head?
  count : f.count P (.ok conn) = .ok records.length
  «exists» : f.exists P (.ok conn) = .ok !records.isEmpty
  /-- One record at a time. -/
  lazy : ∃ it it', f.toLazy.tryIter P.toModelDef = .ok it
    ∧ Yields (LazyTryIter.next P (.ok conn)) it (records.map .ok) it' ∧ it'.Ended P
  /-- In chunks, which are full but for the last one. -/
  chunked : ∀ size, 0 < size → (size < 2 ^ 63 ∨ f.inner.limit.isSome = true) →
    ∃ (it it' : ChunkedTryIter) (chunks : List (List R)),
      (f.toChunked size).tryIter P.toModelDef = .ok it
        ∧ Yields (ChunkedTryIter.next P (.ok conn)) it (chunks.map .ok) it' ∧ it'.Ended P
        ∧ chunks.flatten = records ∧ (∀ chunk ∈ chunks, chunk ≠ [] ∧ chunk.length ≤ size)
        ∧ ∀ chunk ∈ chunks.dropLast, chunk.length = size

/-! ### Over rows -/

section Rows

open QueryDsl (intoQueryPlan)

variable {R Q : Type} [QueryDsl Q] {P : PersistedModel R} {conn : Conn} {r : Q} {plan : QueryPlan}
  (hplan : intoQueryPlan P.toModelDef r = .ok plan) {rows : List (List Value)} {records : List R}
  (hdecoded : rows.map P.fromRow = records.map .ok)
include hplan hdecoded

theorem all_of_rows (h : conn plan.allQuery plan.params = .ok rows) :
    all P (.ok conn) r = .ok records := by
  show (intoQueryPlan P.toModelDef r).bind (fun plan =>
    queryAllRead conn plan.allQuery plan.params P.fromRow) = _
  rw [hplan]
  show (conn plan.allQuery plan.params).bind (fun rows => rows.mapM P.fromRow) = _
  rw [h]
  exact mapM_eq_ok hdecoded

theorem first_of_rows (h : conn plan.firstQuery plan.params = .ok (rows.take 1)) :
    first P (.ok conn) r = .ok records.head? := by
  show (intoQueryPlan P.toModelDef r).bind (fun plan =>
    queryOptionalRead conn plan.firstQuery plan.params P.fromRow) = _
  rw [hplan]
  show queryOptionalRead conn plan.firstQuery plan.params P.fromRow = _
  rw [queryOptionalRead, h]
  cases rows with
  | nil =>
    rw [List.map_eq_nil_iff.mp hdecoded.symm]
    rfl
  | cons row rows =>
    cases records with
    | nil => cases hdecoded
    | cons record records =>
      show (P.fromRow row).map some = _
      rw [(List.cons.inj hdecoded).1]
      rfl

theorem exists_of_rows
    (h : conn plan.existsQuery plan.params = .ok ((rows.take 1).map fun _ => [Value.integer 1])) :
    «exists» P (.ok conn) r = .ok !records.isEmpty := by
  show (intoQueryPlan P.toModelDef r).bind (fun plan =>
    (queryOptionalRead conn plan.existsQuery plan.params getI64).bind fun value =>
      .ok value.isSome) = _
  rw [hplan]
  show (queryOptionalRead conn plan.existsQuery plan.params getI64).bind _ = _
  rw [queryOptionalRead, h]
  cases rows with
  | nil =>
    rw [List.map_eq_nil_iff.mp hdecoded.symm]
    rfl
  | cons row rows =>
    cases records with
    | nil => cases hdecoded
    | cons record records => rfl

/-- The cast of the count changes nothing, as long as the rows fit into a
vector. -/
theorem count_of_rows (hlength : rows.length < 2 ^ 63)
    (h : conn plan.countQuery plan.params = .ok [[.integer rows.length]]) :
    count P (.ok conn) r = .ok records.length := by
  have hrecords : rows.length = records.length := by simpa using congrArg List.length hdecoded
  show (intoQueryPlan P.toModelDef r).bind (fun plan =>
    (queryRowRead conn plan.countQuery plan.params getI64).bind fun count =>
      .ok (count % 2 ^ 64).toNat) = _
  rw [hplan]
  show (queryRowRead conn plan.countQuery plan.params getI64).bind _ = _
  rw [queryRowRead, h]
  show Except.ok ((rows.length : ℤ) % 2 ^ 64).toNat = _
  have hcast : ((rows.length : ℤ) % 2 ^ 64).toNat = rows.length := by omega
  rw [hcast, hrecords]

end Rows

/-! ### Over a table -/

theorem window_map {α β : Type} (limits : Sql.Limits) (f : α → β) (rows : List α) :
    limits.window (rows.map f) = (limits.window rows).map f := by
  unfold Sql.Limits.window
  cases limits.limit with
  | none => simp [List.map_drop]
  | some limit =>
    dsimp only
    split_ifs
    · simp [List.map_drop]
    · simp [List.map_drop, List.map_take]

theorem page_map {α β : Type} (limit : Option ℕ) (offset : ℕ) (f : α → β) (rows : List α) :
    page limit offset (rows.map f) = (page limit offset rows).map f := by
  rw [← window_limitsOf, ← window_limitsOf, window_map]

theorem readLimits_limitsText {limit : Option ℕ} {offset : ℕ} (hl : ∀ n ∈ limit, n < 2 ^ 63)
    (ho : offset < 2 ^ 63) :
    Sql.readLimits (limitsText limit offset) = .ok (limitsOf limit offset) := by
  rw [limitsText, readLimits_appendLimitOffset limit ho, if_pos hl]

theorem length_foundRows (M : Declaration) (D : Domain Value) (scan : Scan Value)
    (t : Table Value) (q : Query) (items items' : List OrderItem) (e : Option Sql.Expr) :
    (foundRows M D scan t q items e).length = (foundRows M D scan t q items' e).length :=
  ((t.found_perm q.expression.operands (rowQuery M e items .count)).trans
    (t.found_perm q.expression.operands (rowQuery M e items' .count)).symm).length_eq

theorem length_foundRows_le (M : Declaration) (D : Domain Value) (scan : Scan Value)
    (t : Table Value) (q : Query) (items : List OrderItem) (e : Option Sql.Expr) :
    (foundRows M D scan t q items e).length ≤ t.rows.length := by
  have hperm : (foundRows M D scan t q items e).Perm
      (t.rows.filter (t.meets D sqlValues q.expression.operands e)) := t.found_perm _ _
  rw [hperm.length_eq]
  exact List.length_filter_le _ _

section Table

variable (D) (scan) (hp : PlainNames M) (ht : HasColumns M t.toSchema) (hq : q.IsFor M items)
  {clause : Option String} {e : Option Sql.Expr} (hw : q.Written clause e)
include hp ht hq hw

/-- **How many rows** a query finds. -/
theorem inquiryConn_countQuery :
    inquiryConn D scan t (q.planOf M.modelDef clause).countQuery q.expression.operands
      = .ok [[.integer (page q.limit q.offset (foundRows M D scan t q items e)).length]] := by
  rw [QueryPlan.countQuery, Count.toSql]
  by_cases hall : q.limit = none ∧ q.offset = 0
  · -- neither a limit nor an offset: the ordering is dropped
    obtain ⟨hlimit, hoffset⟩ := hall
    have hunordered : ({ q with ordering := [] } : Query).IsFor M [] :=
      ⟨hq.columns, hq.tests, rfl, fun item hitem => absurd hitem List.not_mem_nil, hq.limit_lt,
        hq.offset_lt⟩
    have hcount := inquiryConn_countAll D scan hp ht hunordered ⟨hw.text, hw.readAs⟩
    rw [length_foundRows M D scan t _ [] items e] at hcount
    rw [Query.planOf, hlimit, hoffset]
    exact hcount
  · have hcond : ¬ (((q.planOf M.modelDef clause).select .one q.limit q.offset).limit.isNone
        && ((q.planOf M.modelDef clause).select .one q.limit q.offset).offset.isNone) = true := by
      simp only [QueryPlan.select, Bool.and_eq_true, Option.isNone_iff_eq_none]
      rintro ⟨hlimit, hoffset⟩
      refine hall ⟨hlimit, ?_⟩
      split_ifs at hoffset with hpos
      omega
    refine (congrArg (fun text => inquiryConn D scan t text q.expression.operands)
      (if_neg hcond)).trans ?_
    have hcount := inquiryConn_countedOnes D scan hp ht hq hw q.limit q.offset
    rw [readLimits_limitsText hq.limit_lt hq.offset_lt] at hcount
    simp only [Except.map, window_limitsOf] at hcount
    exact hcount

/-- The rows of a statement with limits. -/
theorem inquiryConn_page {limit : Option ℕ} {offset : ℕ} (hl : ∀ n ∈ limit, n < 2 ^ 63)
    (ho : offset < 2 ^ 63) :
    inquiryConn D scan t ((q.planOf M.modelDef clause).select
        (q.planOf M.modelDef clause).modelColumns limit offset).toSql q.expression.operands
      = .ok ((page limit offset (foundRows M D scan t q items e)).map (cells M t)) := by
  rw [inquiryConn_columns D scan hp ht hq hw, readLimits_limitsText hl ho]
  simp only [Except.map, window_limitsOf]
  rfl

/-- **The rows of a query are those of a source**, whatever its limits. -/
theorem exists_source (hlength : t.rows.length < 2 ^ 63) :
    ∃ source : Source, source.Answers (q.planOf M.modelDef clause)
      ∧ source.rows = (foundRows M D scan t q items e).map (cells M t)
      ∧ ∀ limit offset,
        inquiryConn D scan t ((q.planOf M.modelDef clause).select
            (q.planOf M.modelDef clause).modelColumns limit offset).toSql q.expression.operands
          = source.conn ((q.planOf M.modelDef clause).select
            (q.planOf M.modelDef clause).modelColumns limit offset).toSql q.expression.operands := by
  have hlt : ((foundRows M D scan t q items e).map (cells M t)).length < 2 ^ 63 := by
    rw [List.length_map]
    exact lt_of_le_of_lt (length_foundRows_le M D scan t q items e) hlength
  refine ⟨⟨(q.planOf M.modelDef clause).statement, q.expression.operands, _, hlt⟩, ⟨rfl, rfl⟩, rfl,
    fun limit offset => ?_⟩
  have hsource := Source.conn_append ⟨(q.planOf M.modelDef clause).statement,
    q.expression.operands, _, hlt⟩ (limitsText limit offset)
  rw [inquiryConn_columns D scan hp ht hq hw, QueryPlan.toSql_select]
  refine Eq.trans ?_ hsource.symm
  cases Sql.readLimits (limitsText limit offset) with
  | error message => rfl
  | ok limits =>
    simp only [Except.map, window_map]
    rfl

end Table

def twoMovieRows : List (Stored Value) :=
  [⟨1, [("title", .text "Stalker")]⟩, ⟨2, [("title", .text "Mirror")]⟩]

theorem hasRows_twoMovies : emptyMovies.HasRows twoMovieRows :=
  ⟨by decide, by decide, by decide⟩

def twoMovies : Table Value :=
  { emptyMovies with
    rows := twoMovieRows
    hasRows := hasRows_twoMovies }

theorem legible_twoMovies : Legible movie twoMovies := by
  refine ⟨sound_emptyMovies.isTable, ?_⟩
  refine List.forall_mem_cons.mpr ⟨⟨savedMovie "Stalker", rfl⟩, ?_⟩
  exact List.forall_mem_singleton.mpr ⟨⟨⟨2, by decide⟩, movieValues "Mirror", by decide⟩, rfl⟩

/-- Nulls first, then integers. -/
def integerLevel : Value → ℕ
  | .null => 0
  | .integer _ => 1
  | _ => 2

def integerOf : Value → ℤ
  | .integer n => n
  | _ => 0

theorem isOrdered_integerDomain : integerDomain.IsOrdered := by
  refine ⟨fun column => ?_⟩
  have hrank : integerDomain.rank column
      = compareLex (compareOn integerLevel) (compareOn integerOf) := by
    funext x y
    cases x <;> cases y <;> rfl
  rw [hrank]
  infer_instance

/-- The last movie, by its key. -/
def lastMovie : Fetch Query :=
  (Fetch.eager Query.root).calls
    [.q "id" (.Gt (.field (.integer 0))), .order ⟨[.column "id" .desc]⟩, .lazy, .limit 1]

theorem isFor_lastMovie : lastMovie.inner.IsFor movie [⟨"id", true⟩] where
  columns := List.forall_mem_singleton.mpr (show "id" ∈ recordColumns movie by decide)
  tests := List.forall_mem_singleton.mpr (by rintro ⟨⟩)
  ordering := rfl
  orderColumns := List.forall_mem_singleton.mpr (show "id" ∈ recordColumns movie by decide)
  limit_lt := by
    rintro limit hlimit
    obtain rfl : 1 = limit := Option.some.inj hlimit
    decide
  offset_lt := show 0 < 2 ^ 63 by decide

end Seekwel.Model
