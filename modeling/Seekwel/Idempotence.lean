import Seekwel.BuiltInFields
import Seekwel.HasManyQuery
import Seekwel.IntegerComparisons
import Seekwel.SavedAgain

/-!
# Creating or updating twice

A builder that creates a record, or updates one, is used again. It should
find the record that is there now and save it again, which changes nothing.

For this, the row has to match what the builder looks for. A row that matched
before it was updated still does: what the builder was given equals itself,
and what it was not given is written back as it was. A row that was inserted
matches exactly if no value that is looked up is null
(`createOrUpdateBy_again_iff`). For the
comparison tells `NULL` from other values only if it is a missing operand, so
`Some(Value::Null)` in a field of type `Option<Value>` is stored as `NULL` and
looked up by `= NULL`, and a row is inserted every time
(`null_inserted_twice`).
-/

namespace Seekwel.Model

open Sql (Domain Truth Table Stored Scan PlainTable)

variable {M : GeneratedModel} {D : Domain Value} {scan : Scan Value} {t t' : Table Value}
  {builder : Builder M} {columns : List (ModelColumn M)}

/-! ## Filters that are joined by *and* -/

/-- Whether a filter lets a row through. -/
def QueryExpression.Selects (D : Domain Value) (row : String → Value) (q : QueryExpression) :
    Prop :=
  ∀ truth ∈ q.holds D row, truth = Truth.yes

theorem QueryExpression.selects_and {row : String → Value} {l r : QueryExpression} :
    (QueryExpression.and l r).Selects D row ↔ l.Selects D row ∧ r.Selects D row := by
  show (∀ truth ∈ (l.holds D row).merge Truth.and (r.holds D row), truth = Truth.yes) ↔ _
  unfold Selects
  cases l.holds D row <;> cases r.holds D row <;> simp

theorem selects_eq {row : String → Value} {column : String} {operand : Option Value} :
    (QueryExpression.predicate column (.Eq (.option operand))).Selects D row
      ↔ match operand with
        | none => D.isNull (row column) = true
        | some value => D.compare .eq (some column) none (row column) value = .yes := by
  unfold QueryExpression.Selects
  cases operand with
  | none =>
    show (∀ truth ∈ some (Truth.ofBool (D.isNull (row column) != false)), truth = Truth.yes) ↔ _
    cases D.isNull (row column) <;> simp [Truth.ofBool]
  | some value =>
    show (∀ truth ∈ some (D.compare .eq (some column) none (row column) value),
      truth = Truth.yes) ↔ _
    simp

/-- **What a builder looks for** in a column. -/
def Builder.Wants (builder : Builder M) (D : Domain Value) (row : String → Value) :
    ModelColumn M → Prop
  | .primaryKey => ∀ key ∈ builder.key, D.compare .eq (some M.primaryKeyName) none
      (row M.primaryKeyName) (M.primaryKeyType.toSqlValue key) = .yes
  | .stored i => ∀ value,
      (M.fields.get i).lookupValue (givenAt M.fields builder.fields i) = .ok value →
      Matches D (M.fields.get i).columnName (M.fields.get i).sqlField value
        (row (M.fields.get i).columnName)

/-- A name of a column of a model. -/
def NamesColumn (M : GeneratedModel) (name : String) : Prop :=
  name = M.primaryKeyName ∨ ∃ field ∈ M.fields, field.columnName = name

/-- **A query for some columns**, as a builder makes it. -/
structure LooksFor (builder : Builder M) (columns : List (ModelColumn M)) (query : Query) :
    Prop where
  ordering : query.ordering = []
  limit : query.limit = none
  offset : query.offset = 0
  names : ∀ leaf ∈ query.expression.leaves, NamesColumn M leaf.1
  /-- A key that is generated is not looked up. -/
  manual : .primaryKey ∈ columns → M.autoIncrement = false
  isSome : columns ≠ [] → ∀ D row, (query.expression.holds D row).isSome = true
  selects : ∀ D row, query.expression.Selects D row
    ↔ ∀ column ∈ columns, builder.Wants D row column

/-- **The query for one column.** -/
theorem lookup_spec {column : ModelColumn M} {other : Query}
    (h : builder.lookup column = .ok other) :
    ∃ name comparison, other = Query.new name comparison ∧ NamesColumn M name
      ∧ (column = .primaryKey → M.autoIncrement = false)
      ∧ ∀ D row, (QueryExpression.predicate name comparison).Selects D row
        ↔ builder.Wants D row column := by
  cases column with
  | primaryKey =>
    rw [Builder.lookup] at h
    split_ifs at h with hauto
    cases hkey : builder.key with
    | none =>
      rw [hkey] at h
      cases h
    | some key =>
      rw [hkey] at h
      obtain rfl := Except.ok.inj h
      refine ⟨_, _, rfl, .inl rfl, fun _ => Bool.not_eq_true _ ▸ hauto, fun D row => ?_⟩
      show (QueryExpression.predicate M.primaryKeyName
        (.Eq (.option (some (M.primaryKeyType.toSqlValue key))))).Selects D row ↔ _
      rw [selects_eq, Builder.Wants, hkey]
      exact ⟨fun hequal _ heq => Option.some.inj heq ▸ hequal, fun hequal => hequal key rfl⟩
  | stored i =>
    obtain ⟨value, hvalue, rfl⟩ := map_eq_ok h
    refine ⟨_, _, rfl, .inr ⟨_, List.get_mem _ _, rfl⟩, fun hkey => (by cases hkey), fun D row => ?_⟩
    rw [selects_eq, Builder.Wants, hvalue]
    show Matches D _ _ value _ ↔ _
    exact ⟨fun hequal _ heq => Except.ok.inj heq ▸ hequal, fun hequal => hequal value rfl⟩

theorem looksFor_root : LooksFor builder [] Query.root where
  ordering := rfl
  limit := rfl
  offset := rfl
  names := nofun
  manual := nofun
  isSome h := absurd rfl h
  selects _ _ := ⟨fun _ => nofun, fun _ => nofun⟩

/-- One more column. -/
theorem LooksFor.and {query other : Query} (h : LooksFor builder columns query)
    {column : ModelColumn M} (hother : builder.lookup column = .ok other) :
    LooksFor builder (columns ++ [column]) (QueryDsl.andQuery query other) := by
  obtain ⟨name, comparison, rfl, hname, hmanual, hselects⟩ := lookup_spec hother
  refine ⟨h.ordering, h.limit, h.offset, ?_, fun hmem => ?_, fun _ D row => ?_, fun D row => ?_⟩
  · exact List.forall_mem_append.mpr ⟨h.names, List.forall_mem_singleton.mpr hname⟩
  · exact (List.mem_append.mp hmem).elim h.manual fun hlast =>
      hmanual (List.mem_singleton.mp hlast).symm
  · show ((query.expression.holds D row).merge Truth.and (some _)).isSome = true
    cases query.expression.holds D row <;> rfl
  · refine QueryExpression.selects_and.trans ?_
    rw [h.selects, List.forall_mem_append, List.forall_mem_singleton]
    exact and_congr_right fun _ => hselects D row

/-- **The query for all columns.** -/
theorem LooksFor.lookups {query query' : Query} {done : List (ModelColumn M)}
    (h : LooksFor builder done query) (hlookups : builder.lookups columns query = .ok query') :
    LooksFor builder (done ++ columns) query' := by
  induction columns generalizing done query with
  | nil =>
    obtain rfl := Except.ok.inj hlookups
    rwa [List.append_nil]
  | cons column columns ih =>
    obtain ⟨other, hother, hrest⟩ := bind_eq_ok hlookups
    have hall := ih (h.and hother) hrest
    rwa [List.append_assoc] at hall

/-! ## The first record -/

/-- The columns that are read of a row. -/
def recordColumns (M : Declaration) : List String :=
  M.primaryKeyName :: M.fields.map (·.columnName)

/-- **The first record that satisfies a condition**, if there is one. -/
def firstRecord (M : Declaration) (scan : Scan Value) (t : Table Value) (p : Stored Value → Bool) :
    Except Error (Option (Persisted M)) :=
  match (scan.visit t.rows).find? p with
  | some row => (fromRow M ((recordColumns M).map (t.get sqlValues row))).map some
  | none => .ok none

/-- The names of a builder's query: they are identifiers, and plain if the
names of the model are. -/
theorem LooksFor.forall_names {query : Query} (h : LooksFor builder columns query)
    {p : String → Prop} (hkey : p M.primaryKeyName)
    (hcolumns : ∀ column ∈ M.declaration.modelDef.columns, p column.name) :
    ∀ leaf ∈ query.expression.leaves, p leaf.1 := by
  intro leaf hleaf
  obtain heq | ⟨field, hfield, heq⟩ := h.names leaf hleaf
  · rwa [heq]
  · rw [← heq]
    exact hcolumns field.columnDef (List.mem_map.mpr
      ⟨field.toField, List.mem_map.mpr ⟨field, hfield, rfl⟩, rfl⟩)

/-- The statement of a builder's query. -/
def lookupText (M : Declaration) (clause : String) : String :=
  "SELECT " ++ Text.join ", " (recordColumns M) ++ " FROM " ++ M.tableName
    ++ (" WHERE " ++ clause) ++ (" LIMIT " ++ toString 1)

theorem LooksFor.first_eq_read {query : Query} (h : LooksFor builder columns query)
    {clause : String} {bound : List Value}
    (hclause : query.expression.intoClause [] = .ok (some clause, bound)) (conn : Conn) :
    first M.persistedModel (.ok conn) query
      = queryOptionalRead conn (lookupText M.declaration clause) bound (fromRow M.declaration) := by
  obtain ⟨expression, ordering, limit, offset⟩ := query
  obtain rfl : ordering = [] := h.ordering
  obtain rfl : limit = none := h.limit
  obtain rfl : offset = 0 := h.offset
  show (buildQueryPlan M.declaration.modelDef expression [] none 0).bind (fun plan =>
    queryOptionalRead conn plan.firstQuery plan.params (fromRow M.declaration)) = _
  rw [buildQueryPlan, hclause, lookupText, recordColumns, ← columnNames_modelDef]
  rfl

/-- A filter has a text exactly if it says anything. -/
theorem isSome_clause {row : String → Value} {q : QueryExpression} {params bound : List Value}
    {clause : Option String} (h : q.intoClause params = .ok (clause, bound)) :
    clause.isSome = (q.holds D row).isSome := by
  have hcombine : ∀ (l r : Option String) (word : String) (f : Truth → Truth → Truth)
      {x y : Option Truth}, l.isSome = x.isSome → r.isSome = y.isSome →
      (combineClauses l r word).isSome = (x.merge f y).isSome := by
    intro l r word f x y hl hr
    cases l <;> cases r <;> cases x <;> cases y <;> simp_all [combineClauses]
  induction q generalizing params bound clause with
  | empty =>
    cases h
    rfl
  | predicate column comparison =>
    obtain ⟨p, -, heq⟩ := map_eq_ok h
    obtain ⟨rfl, -⟩ := Prod.mk.inj heq
    rfl
  | and left right ihl ihr =>
    obtain ⟨l, lbound, r, hl, hr, rfl⟩ := bind_map_eq_ok h
    exact hcombine l r "AND" Truth.and (ihl hl) (ihr hr)
  | or left right ihl ihr =>
    obtain ⟨l, lbound, r, hl, hr, rfl⟩ := bind_map_eq_ok h
    exact hcombine l r "OR" Truth.or (ihl hl) (ihr hr)

/-- A query that is answered has been read, and its columns are there. -/
theorem exists_readSelection {query : String} {bound : List Value} {R : Type}
    {f : List Value → Except Error R} {found : Option R}
    (h : queryOptionalRead (tableConn D scan t) query bound f = .ok found) :
    ∃ selection, Sql.readSelection query = some selection
      ∧ (selection.columns ++ selection.condition.columns).all t.hasColumn = true := by
  obtain ⟨rows, hrows, -⟩ := bind_eq_ok h
  unfold tableConn at hrows
  cases hselection : Sql.readSelection query with
  | none =>
    rw [hselection] at hrows
    cases hrows
  | some selection =>
    rw [hselection] at hrows
    refine ⟨selection, rfl, ?_⟩
    by_contra hcolumns
    have herror : ∃ message, t.query D sqlValues scan bound selection = .error message := by
      unfold Table.query
      split_ifs
      · exact ⟨_, rfl⟩
      · exact ⟨_, rfl⟩
    obtain ⟨message, herror⟩ := herror
    simp only [herror] at hrows
    cases hrows

/-- **What a builder's query finds.** If it has an answer on a table, it is
read as it was meant, and so it is on any table with the same columns. -/
theorem LooksFor.first_eq {query : Query} (h : LooksFor builder columns query)
    (hne : columns ≠ []) (hids : M.declaration.names.AreFields)
    (ht : HasColumns M.declaration t.toSchema)
    (hplain : PlainTable M.tableName ∧ ∀ column ∈ M.declaration.modelDef.columns,
      PlainTable column.name)
    {found : Option (Persisted M.declaration)}
    (hfound : first M.persistedModel (.ok (tableConn D scan t)) query = .ok found) :
    PlainNames M.declaration ∧ ∃ p : Stored Value → Bool,
      (∀ row, p row = true
        ↔ ∀ column ∈ columns, builder.Wants D (t.get sqlValues row) column)
      ∧ ∀ t' : Table Value, t'.toSchema = t.toSchema →
        first M.persistedModel (.ok (tableConn D scan t')) query
          = firstRecord M.declaration scan t' p := by
  obtain ⟨plan, hplan, -⟩ := bind_eq_ok hfound
  obtain ⟨⟨clause, bound⟩, hclause, rfl⟩ := map_eq_ok hplan
  have hclosed := (intoClause_closed (h.forall_names
    (Sql.closed_identifier hids.key) fun column hcolumn =>
      Sql.closed_identifier (hids.columnDefs column hcolumn)) hclause).2
  obtain ⟨clause, rfl⟩ := Option.isSome_iff_exists.mp
    ((isSome_clause hclause).trans (h.isSome hne D fun _ => .null))
  rw [h.first_eq_read hclause] at hfound
  obtain ⟨selection, hselection, hcolumns⟩ := exists_readSelection hfound
  have hfields : ∀ c ∈ M.declaration.fields.map (·.columnName), PlainTable c := by
    rw [← columnNames_modelDef]
    exact List.forall_mem_map.mpr hplain.2
  obtain ⟨hkey, hnames⟩ := Sql.plain_of_readSelection hplain.1 hids.key hfields
    (hclosed clause rfl) hselection
  have hnames : PlainNames M.declaration := ⟨hplain.1, hkey, List.forall_mem_map.mp hnames⟩
  obtain ⟨rfl, meant, hreadAs, hrel⟩ := intoClause_spec
    (h.forall_names hnames.key hnames.columnDefs) hclause
  obtain ⟨e, rfl, htext⟩ : ∃ e, meant = some e ∧ Sql.TextOf clause e := by
    cases hrel with
    | some htext => exact ⟨_, rfl, htext⟩
  have hmeant : Sql.readSelection (lookupText M.declaration clause)
      = some ⟨recordColumns M.declaration, M.tableName, e, ⟨some 1, none⟩⟩ :=
    Sql.readSelection_of_textOf hnames.table
      (List.forall_mem_cons.mpr ⟨hnames.key, List.forall_mem_map.mpr hnames.columns⟩)
      (List.cons_ne_nil _ _) htext (by decide)
  obtain rfl := Option.some.inj (hselection.symm.trans hmeant)
  refine ⟨hnames, t.satisfies D sqlValues query.expression.operands e, fun row => ?_,
    fun t' hschema => ?_⟩
  · rw [← h.selects, Table.satisfies, decide_eq_true_iff, QueryExpression.Selects,
      ← holds_of_readAs D (t.get sqlValues row) _ hreadAs]
    exact ⟨fun hyes _ heq => Option.some.inj heq ▸ hyes, fun hall => hall _ rfl⟩
  · have hquery : tableConn D scan t' (lookupText M.declaration clause) query.expression.operands
        = .ok (((scan.visit t'.rows).find?
            (t'.satisfies D sqlValues query.expression.operands e)).toList.map
          fun row => (recordColumns M.declaration).map (t'.get sqlValues row)) := by
      have hname : M.tableName = t'.name := by rw [hschema]; exact ht.name.symm
      have hall : (recordColumns M.declaration ++ e.columns).all t'.hasColumn = true := by
        rw [← hcolumns]
        refine congrArg _ (funext fun column => ?_)
        rw [Table.hasColumn, Table.hasColumn, hschema]
      simp only [tableConn, hmeant]
      rw [hname, Table.query_one D sqlValues scan hall]
      rfl
    have hp : t'.satisfies D sqlValues query.expression.operands e
        = t.satisfies D sqlValues query.expression.operands e := by
      funext row
      rw [Table.satisfies, Table.satisfies, Table.get_of_schema_eq hschema]
    rw [h.first_eq_read hclause, queryOptionalRead, List.nil_append, hquery, firstRecord, ← hp]
    cases (scan.visit t'.rows).find? (t'.satisfies D sqlValues query.expression.operands e) with
    | none => rfl
    | some row => rfl

/-! ## Tables of a model -/

/-- **A model whose fields are of built-in types.** -/
structure GeneratedModel.IsBuiltIn (D : Domain Value) (M : GeneratedModel) : Prop where
  tellsNull : TellsNull D
  names : M.declaration.names.AreFields
  fields : ∀ field ∈ M.fields, field.IsBuiltIn D

/-- **A table with the columns of a model**, of the types that they have
there. -/
structure IsTypedTable (D : Domain Value) (M : GeneratedModel) (t : Table Value) : Prop where
  hasColumns : HasColumns M.declaration t.toSchema
  nodup : (t.key :: t.columns).Nodup
  key : ComparesIntegers D M.primaryKeyName
  columns : ∀ field ∈ M.fields,
    ColumnOfType D field.sqlField.sqlType field.columnName (t.store field.columnName)
  settled : ∀ row ∈ t.rows, ∀ p ∈ row.values, Settled (t.store p.1) p.2

section Rows

variable {row : Stored Value} {r : Persisted M.declaration}

/-- The columns of the fields are columns of the table. -/
theorem mem_columns (h : HasColumns M.declaration t.toSchema) (i : Fin M.fields.length) :
    (M.fields.get i).columnName ∈ t.columns ∧ (M.fields.get i).columnName ≠ t.key := by
  have hfield : (M.fields.get i).toField ∈ M.declaration.fields :=
    List.mem_map.mpr ⟨_, List.get_mem _ _, rfl⟩
  refine ⟨h.columns _ hfield, fun heq => h.key_not_mem ?_⟩
  exact List.mem_map.mpr ⟨_, hfield, heq.trans h.key⟩

theorem get_key (h : HasColumns M.declaration t.toSchema) :
    t.get sqlValues row M.primaryKeyName = .integer row.rowid :=
  if_pos h.key.symm

/-- What a row contains in the column of a field. -/
theorem settled_get (h : IsTypedTable D M t) (hrow : row ∈ t.rows) (i : Fin M.fields.length) :
    Settled (t.store (M.fields.get i).columnName)
      (t.get sqlValues row (M.fields.get i).columnName) := by
  obtain ⟨hmem, hne⟩ := mem_columns h.hasColumns i
  rw [← t.hasRows.columns_eq row hrow] at hmem
  obtain ⟨p, hp, hname⟩ := List.mem_map.mp hmem
  have hnodup : (row.values.map Prod.fst).Nodup := by
    rw [t.hasRows.columns_eq row hrow]
    exact (List.nodup_cons.mp h.nodup).2
  have hlookup := Sql.lookup_of_mem hnodup hp
  rw [Table.get, if_neg hne, ← hname, hlookup, Option.getD_some]
  exact h.settled row hrow p hp

/-- **The values of a record**, column by column. -/
theorem Contains.get_eq (h : Contains t row r) (i : Fin M.fields.length) :
    t.get sqlValues row (M.fields.get i).columnName
      = t.store (M.fields.get i).columnName
        ((M.fields.get i).sqlField.toSqlValue (valueAt M.fields r.values i)) := by
  have hvalues := congrArg (fun values => values[i.1]?) h.2
  have hname : (M.declaration.fields.map (·.columnName))[i.1]?
      = some (M.fields.get i).columnName := by
    simp [GeneratedModel.declaration]
  have hparam : (params M.declaration.fields r.values)[i.1]?
      = some ((M.fields.get i).sqlField.toSqlValue (valueAt M.fields r.values i)) :=
    getElem?_params M.fields r.values i
  simp only [List.getElem?_map, List.getElem?_zipWith, hname, hparam, Option.map_some] at hvalues
  exact Option.some.inj hvalues

/-- **Reading a record from a row**, column by column. -/
theorem fromRow_row_iff (h : HasColumns M.declaration t.toSchema) :
    fromRow M.declaration ((recordColumns M.declaration).map (t.get sqlValues row)) = .ok r
      ↔ M.primaryKeyType.fromSqlRow (.integer row.rowid) = .ok r.key
        ∧ ∀ i, (M.fields.get i).sqlField.fromSqlRow
            (t.get sqlValues row (M.fields.get i).columnName)
          = .ok (valueAt M.fields r.values i) := by
  have hkey : t.get sqlValues row M.declaration.primaryKeyName = .integer row.rowid := get_key h
  rw [recordColumns, List.map_cons, hkey]
  refine fromRow_eq_ok_iff.trans (and_congr Iff.rfl ?_)
  refine Iff.trans (@fromRowFields_eq_ok_iff _ M.fields _ _) (forall_congr' fun i => ?_)
  have hstored : (Value.integer row.rowid :: (M.declaration.fields.map (·.columnName)).map
      (t.get sqlValues row))[1 + i.1]?
      = some (t.get sqlValues row (M.fields.get i).columnName) := by
    rw [Nat.add_comm, List.getElem?_cons_succ]
    simp [GeneratedModel.declaration]
  rw [hstored]
  exact ⟨fun ⟨_, heq, hread⟩ => Option.some.inj heq ▸ hread, fun hread => ⟨_, rfl, hread⟩⟩

/-! ### Rows that are written again -/

/-- **A record that a builder writes again**: it has what the builder was
given, and what it was not given is read as it was stored. -/
structure Builder.Rewrites (builder : Builder M) (t : Table Value) (r : Persisted M.declaration) :
    Prop where
  given : ∀ i, ∀ value ∈ givenAt M.fields builder.fields i, valueAt M.fields r.values i = value
  kept : ∀ i, givenAt M.fields builder.fields i = none →
    (M.fields.get i).sqlField.fromSqlRow (t.store (M.fields.get i).columnName
        ((M.fields.get i).sqlField.toSqlValue (valueAt M.fields r.values i)))
      = .ok (valueAt M.fields r.values i)

/-- The key of a record is that of its row. -/
theorem Contains.fromSqlRow_rowid (h : Contains t row r) :
    M.primaryKeyType.fromSqlRow (.integer row.rowid) = .ok r.key := by
  rw [h.1]
  exact IntType.fromSqlRow_toSqlValue r.key

/-- **A record that is read** from the row of one that a builder writes again
becomes that one. -/
theorem Builder.Rewrites.assign_eq (h : builder.Rewrites t r)
    (ht : HasColumns M.declaration t.toSchema) (hrow : Contains t row r)
    {record : Persisted M.declaration} (hread : fromRow M.declaration
      ((recordColumns M.declaration).map (t.get sqlValues row)) = .ok record) :
    builder.assign record = r := by
  obtain ⟨hkey, hvalues⟩ := (fromRow_row_iff ht).mp hread
  refine Persisted.ext (Except.ok.inj (hkey.symm.trans hrow.fromSqlRow_rowid)) ?_
  refine @values_ext M.fields _ _ fun i => ?_
  refine (valueAt_assignGiven M.fields builder.fields record.values i).trans ?_
  cases hgiven : givenAt M.fields builder.fields i with
  | some value => exact (h.given i value hgiven).symm
  | none =>
    have hvalue := hvalues i
    rw [hrow.get_eq i, h.kept i hgiven] at hvalue
    exact (Except.ok.inj hvalue).symm

/-- What a row contains can be read. -/
theorem exists_fromRow (hM : M.IsBuiltIn D) (ht : HasColumns M.declaration t.toSchema)
    (hcolumns : ∀ field ∈ M.fields,
      ColumnOfType D field.sqlField.sqlType field.columnName (t.store field.columnName))
    (hrow : Contains t row r) : ∃ record, fromRow M.declaration
      ((recordColumns M.declaration).map (t.get sqlValues row)) = .ok record := by
  obtain ⟨values, hvalues⟩ := @exists_values M.fields _ fun i =>
    (hM.fields _ (List.get_mem _ i)).type.builtInType.exists_fromSqlRow_store hM.tellsNull
      (hcolumns _ (List.get_mem _ i)) (valueAt M.fields r.values i)
  refine ⟨⟨r.key, values, r.nonneg⟩, (fromRow_row_iff ht).mpr ⟨hrow.fromSqlRow_rowid, fun i => ?_⟩⟩
  rw [hrow.get_eq i]
  exact hvalues i

/-- **A record that is found is saved again.** -/
theorem Builder.Rewrites.createOrUpdateBy_eq (h : builder.Rewrites t r) (hM : M.IsBuiltIn D)
    (hplain : PlainNames M.declaration) (ht : HasColumns M.declaration t.toSchema)
    (hnodup : (t.key :: t.columns).Nodup) (hcolumns : ∀ field ∈ M.fields,
      ColumnOfType D field.sqlField.sqlType field.columnName (t.store field.columnName))
    (hrow : Holds t row r) (hvalid : M.validPersisted r.key r.values = true) {query : Query}
    (hlookups : builder.lookups columns Query.root = .ok query) (hne : columns ≠ [])
    {p : Stored Value → Bool} (hfirst : first M.persistedModel (.ok (tableConn D scan t)) query
      = firstRecord M.declaration scan t p) (hfind : (scan.visit t.rows).find? p = some row) :
    builder.createOrUpdateBy D scan columns t = (.ok r, t) := by
  obtain ⟨record, hrecord⟩ := exists_fromRow hM ht hcolumns hrow.contains
  refine Builder.createOrUpdateBy_eq_ok_iff.mpr ⟨query, hlookups, hne, .inl ⟨record, ?_, ?_, ?_⟩⟩
  · rw [hfirst, firstRecord, hfind]
    simp only [hrecord]
    rfl
  · exact (h.assign_eq ht hrow.contains hrecord).symm
  · exact save_of_contains hplain ht hnodup hrow.admits hrow.mem hrow.contains hvalid

end Rows

/-! ## Rows that match -/

/-- **No null is looked up**: what the builder was given for a column is not
null. -/
def Builder.ProperAt (builder : Builder M) (D : Domain Value) : ModelColumn M → Prop
  | .primaryKey => True
  | .stored i => ∀ value ∈ givenAt M.fields builder.fields i,
    Proper D (M.fields.get i).sqlField value

theorem FieldKind.lookupValue_given {T : Type} (kind : FieldKind T) (fieldName : String)
    (value : T) : kind.lookupValue fieldName (some value) = .ok value := by
  cases kind <;> rfl

theorem ModelField.lookupValue_given (field : ModelField) (value : field.T) :
    field.lookupValue (some value) = .ok value := by
  unfold ModelField.lookupValue
  cases field.default with
  | some default => rfl
  | none => exact field.kind.lookupValue_given field.columnName value

/-- What is looked up is in the record that is built. -/
theorem Builder.lookupValue_of_build {record : NewRecord M.declaration}
    (h : builder.build = .ok record) (i : Fin M.fields.length) :
    (M.fields.get i).lookupValue (givenAt M.fields builder.fields i)
      = .ok (valueAt M.fields record.values i) := by
  rw [ModelField.lookupValue_eq]
  exact finish_of_buildValues (Builder.build_eq_ok h).1 i

/-- **The row of a record that was built** matches what the builder looks for
exactly if that is not null. -/
theorem wants_iff_of_build (hM : M.IsBuiltIn D) (ht : HasColumns M.declaration t.toSchema)
    (hkeys : ComparesIntegers D M.primaryKeyName) (hcolumns : ∀ field ∈ M.fields,
      ColumnOfType D field.sqlField.sqlType field.columnName (t.store field.columnName))
    {row : Stored Value} {r : Persisted M.declaration} (hrow : Contains t row r)
    {record : NewRecord M.declaration} (hbuild : builder.build = .ok record)
    (hvalues : r.values = record.values) (hkey : M.autoIncrement = false → r.key = record.key)
    {column : ModelColumn M} (hmanual : column = .primaryKey → M.autoIncrement = false) :
    builder.Wants D (t.get sqlValues row) column ↔ builder.ProperAt D column := by
  cases column with
  | primaryKey =>
    have hauto := hmanual rfl
    refine iff_of_true (fun key hgiven => ?_) trivial
    obtain rfl := Option.some.inj
      (((Builder.build_eq_ok hbuild).2 hauto).symm.trans hgiven)
    have hget : t.get sqlValues row M.primaryKeyName = M.primaryKeyType.toSqlValue record.key := by
      rw [get_key ht, hrow.1, hkey hauto]
      rfl
    rw [hget]
    exact (compare_eq_yes_iff hkeys .eq _ _).mpr rfl
  | stored i =>
    have hfield := hM.fields _ (List.get_mem _ i)
    have hlookup := Builder.lookupValue_of_build hbuild i
    have hself := hfield.type.builtInType.matches_self_iff hM.tellsNull
      (hcolumns _ (List.get_mem _ i)) (valueAt M.fields record.values i)
    have hget := hrow.get_eq i
    rw [hvalues] at hget
    have hwants : builder.Wants D (t.get sqlValues row) (.stored i)
        ↔ Proper D (M.fields.get i).sqlField (valueAt M.fields record.values i) := by
      rw [Builder.Wants, hget, ← hself, hlookup]
      exact ⟨fun hall => hall _ rfl, fun hmatches _ heq => Except.ok.inj heq ▸ hmatches⟩
    rw [hwants, Builder.ProperAt]
    cases hgiven : givenAt M.fields builder.fields i with
    | some value =>
      rw [hgiven, ModelField.lookupValue_given] at hlookup
      rw [← Except.ok.inj hlookup]
      exact ⟨fun hproper _ heq => Option.some.inj heq ▸ hproper, fun hall => hall value rfl⟩
    | none =>
      rw [hgiven, ModelField.lookupValue_eq] at hlookup
      exact iff_of_true (hfield.proper_of_finish hlookup) nofun

/-- A record that is built is written again as it is. -/
theorem Builder.rewrites_of_build (hM : M.IsBuiltIn D) (hcolumns : ∀ field ∈ M.fields,
      ColumnOfType D field.sqlField.sqlType field.columnName (t.store field.columnName))
    {record : NewRecord M.declaration} (hbuild : builder.build = .ok record)
    {r : Persisted M.declaration} (hvalues : r.values = record.values) :
    builder.Rewrites t r := by
  obtain ⟨key, values, hnonneg⟩ := r
  obtain rfl : values = record.values := hvalues
  refine ⟨fun i value hgiven => ?_, fun i hgiven => ?_⟩
  · have hlookup := Builder.lookupValue_of_build hbuild i
    rw [hgiven, ModelField.lookupValue_given] at hlookup
    exact (Except.ok.inj hlookup).symm
  · have hlookup := Builder.lookupValue_of_build hbuild i
    rw [hgiven, ModelField.lookupValue_eq] at hlookup
    have hfield := hM.fields _ (List.get_mem _ i)
    exact hfield.type.builtInType.fromSqlRow_store hM.tellsNull (hcolumns _ (List.get_mem _ i))
      (hfield.proper_of_finish hlookup)

section Found

variable {row : Stored Value} {record : Persisted M.declaration}

/-- **A record that is found and changed** is written again as it is. -/
theorem Builder.rewrites_assign (hM : M.IsBuiltIn D) (h : IsTypedTable D M t)
    (hrow : row ∈ t.rows) (hread : fromRow M.declaration
      ((recordColumns M.declaration).map (t.get sqlValues row)) = .ok record) :
    builder.Rewrites t (builder.assign record) := by
  have hassign : ∀ i, valueAt M.fields (builder.assign record).values i
      = (givenAt M.fields builder.fields i).getD (valueAt M.fields record.values i) :=
    valueAt_assignGiven M.fields builder.fields record.values
  refine ⟨fun i value hgiven => ?_, fun i hgiven => ?_⟩
  · rw [hassign i, hgiven, Option.getD_some]
  · rw [hassign i, hgiven, Option.getD_none]
    exact (hM.fields _ (List.get_mem _ i)).type.builtInType.fromSqlRow_store_of_read hM.tellsNull
      (h.columns _ (List.get_mem _ i)) (settled_get h hrow i)
      (((fromRow_row_iff h.hasColumns).mp hread).2 i)

/-- **A row that matched** still does after what the builder was given has
been assigned to its record. -/
theorem Builder.Wants.assign (hM : M.IsBuiltIn D) (h : IsTypedTable D M t) (hrow : row ∈ t.rows)
    (hread : fromRow M.declaration
      ((recordColumns M.declaration).map (t.get sqlValues row)) = .ok record)
    {row' : Stored Value} (hrow' : Contains t row' (builder.assign record))
    (hrowid : row'.rowid = row.rowid) {column : ModelColumn M}
    (hwants : builder.Wants D (t.get sqlValues row) column) :
    builder.Wants D (t.get sqlValues row') column := by
  cases column with
  | primaryKey =>
    intro key hkey
    have hold := hwants key hkey
    rw [get_key h.hasColumns] at hold
    rw [get_key h.hasColumns, hrowid]
    exact hold
  | stored i =>
    intro value hvalue
    have hmatches := hwants value hvalue
    have htype := (hM.fields _ (List.get_mem _ i)).type.builtInType
    have hcolumn := h.columns _ (List.get_mem _ i)
    have hassign : valueAt M.fields (builder.assign record).values i
        = (givenAt M.fields builder.fields i).getD (valueAt M.fields record.values i) :=
      valueAt_assignGiven M.fields builder.fields record.values i
    rw [hrow'.get_eq i, hassign]
    cases hgiven : givenAt M.fields builder.fields i with
    | some given =>
      rw [hgiven, ModelField.lookupValue_given] at hvalue
      obtain rfl := Except.ok.inj hvalue
      exact (htype.matches_self_iff hM.tellsNull hcolumn given).mpr (proper_of_matches hmatches)
    | none =>
      rw [Option.getD_none, htype.store_of_matches hcolumn (settled_get h hrow i)
        (((fromRow_row_iff h.hasColumns).mp hread).2 i) hmatches]
      exact hmatches

end Found

theorem Contains.of_schema_eq {row : Stored Value} {r : Persisted M.declaration}
    (hschema : t'.toSchema = t.toSchema) (h : Contains t' row r) : Contains t row r := by
  rw [Contains, Table.get_of_schema_eq hschema, hschema] at h
  exact h

theorem Builder.Rewrites.of_schema_eq {r : Persisted M.declaration}
    (h : builder.Rewrites t r) (hschema : t'.toSchema = t.toSchema) : builder.Rewrites t' r :=
  ⟨h.given, hschema ▸ h.kept⟩

/-! ## The second call -/

/-- **After a record has been found and updated**, it is found and saved
again. -/
theorem again_of_found (hM : M.IsBuiltIn D) (h : IsTypedTable D M t) {query : Query}
    (hlookups : builder.lookups columns Query.root = .ok query) (hne : columns ≠ [])
    {record : Persisted M.declaration}
    (hfirst : first M.persistedModel (.ok (tableConn D scan t)) query = .ok (some record))
    (hsave : (builder.assign record).save t = (.ok (), t')) :
    builder.createOrUpdateBy D scan columns t' = (.ok (builder.assign record), t')
      ∧ (∀ column ∈ columns, builder.ProperAt D column)
      ∧ M.validPersisted (builder.assign record).key (builder.assign record).values = true := by
  have hlooks := looksFor_root.lookups hlookups
  rw [List.nil_append] at hlooks
  obtain ⟨htable, -, hplain⟩ := plainTable_of_save_persisted hM.names h.hasColumns hsave
  obtain ⟨hnames, p, hp, hsame⟩ := hlooks.first_eq hne hM.names h.hasColumns ⟨htable, hplain⟩ hfirst
  obtain ⟨hvalid, hschema, f, hrows, hrowids, hothers, hholds⟩ :=
    holds_of_save_persisted hnames h.hasColumns hsave
  -- the row that was found is the one of the key
  rw [hsame t rfl, firstRecord] at hfirst
  cases hfind : (scan.visit t.rows).find? p with
  | none =>
    rw [hfind] at hfirst
    cases hfirst
  | some row =>
    rw [hfind] at hfirst
    obtain ⟨record', hread, heq⟩ := map_eq_ok hfirst
    obtain rfl := Option.some.inj heq
    have hrow : row ∈ t.rows := (scan.perm t.rows).mem_iff.mp (List.mem_of_find?_eq_some hfind)
    have hwants := (hp row).mp (List.find?_some hfind)
    have hrowid : row.rowid = rowidOf M.declaration (builder.assign record').key := by
      have hrange : ∀ n, Value.integer row.rowid = .integer n → IntType.i64.Holds n := by
        rintro n heq
        cases heq
        exact holds_i64_iff.mpr (t.hasRows.isRowid row hrow)
      have hback := IntType.toSqlValue_of_fromSqlRow hrange
        ((fromRow_row_iff h.hasColumns).mp hread).1
      exact (Value.integer.inj hback).symm
    have hheld := hholds row hrow hrowid
    have hcontains := hheld.contains.of_schema_eq hschema
    have hfound : p (f row) = true := (hp _).mpr fun column hcolumn =>
      (hwants column hcolumn).assign hM h hrow hread hcontains (hrowids row hrow)
    -- no other row has changed, so the first row that matches is the same one
    have hkeeps : ∀ row' ∈ t.rows, p (f row') = p row' := by
      intro row' hrow'
      by_cases hkey : row'.rowid = rowidOf M.declaration (builder.assign record').key
      · obtain rfl := Table.eq_of_rowid_eq hrow' hrow (hkey.trans hrowid.symm)
        rw [hfound, List.find?_some hfind]
      · rw [hothers row' hrow' hkey]
    have hagain : (scan.visit t'.rows).find? p = some (f row) := by
      rw [hrows, scan.find?_visit_map hrowids hkeeps, hfind, Option.map_some]
    have hrewrites : builder.Rewrites t' (builder.assign record') :=
      (Builder.rewrites_assign hM h hrow hread).of_schema_eq hschema
    refine ⟨hrewrites.createOrUpdateBy_eq hM hnames (hschema ▸ h.hasColumns)
      (hschema ▸ h.nodup) (hschema ▸ h.columns) hheld hvalid hlookups hne (hsame t' hschema)
      hagain, fun column hcolumn => ?_, hvalid⟩
    cases column with
    | primaryKey => trivial
    | stored i =>
      intro value hgiven
      have hlookup := ModelField.lookupValue_given (M.fields.get i) value
      rw [← Option.mem_def.mp hgiven] at hlookup
      exact proper_of_matches (hwants _ hcolumn value hlookup)

/-- **After a record has been created**, it is found and saved again exactly if
no null is looked up and the record is valid. -/
theorem again_iff_of_created (hM : M.IsBuiltIn D) (h : IsTypedTable D M t) {query : Query}
    (hlookups : builder.lookups columns Query.root = .ok query) (hne : columns ≠ [])
    (hfirst : first M.persistedModel (.ok (tableConn D scan t)) query = .ok none)
    {r : Persisted M.declaration} (hcreate : builder.create t = (.ok r, t')) :
    (∃ r', builder.createOrUpdateBy D scan columns t' = (.ok r', t') ∧ r'.key = r.key)
      ↔ (∀ column ∈ columns, builder.ProperAt D column)
        ∧ M.validPersisted r.key r.values = true := by
  have hlooks := looksFor_root.lookups hlookups
  rw [List.nil_append] at hlooks
  obtain ⟨record, hbuild, hsave⟩ := Builder.create_eq_ok_iff.mp hcreate
  obtain ⟨hplain, row, hschema, hrows, -, hheld, hvalues, hkey⟩ :=
    holds_of_save_new hM.names h.hasColumns hsave
  obtain ⟨hnames, p, hp, hsame⟩ := hlooks.first_eq hne hM.names h.hasColumns hplain hfirst
  have hcontains := hheld.contains.of_schema_eq hschema
  have hcolumns' : HasColumns M.declaration t'.toSchema := hschema ▸ h.hasColumns
  have hrewrites : builder.Rewrites t' r :=
    (Builder.rewrites_of_build hM h.columns hbuild hvalues).of_schema_eq hschema
  have hold : ∀ row' ∈ t.rows, p row' = false := by
    rw [hsame t rfl, firstRecord] at hfirst
    cases hfind : (scan.visit t.rows).find? p with
    | none =>
      intro row' hrow'
      exact Bool.eq_false_iff.mpr
        (List.find?_eq_none.mp hfind row' ((scan.perm t.rows).mem_iff.mpr hrow'))
    | some row' =>
      rw [hfind] at hfirst
      obtain ⟨_, -, heq⟩ := map_eq_ok hfirst
      cases heq
  have hnew : p row = true ↔ ∀ column ∈ columns, builder.ProperAt D column := by
    rw [hp]
    refine forall₂_congr fun column hcolumn => ?_
    exact wants_iff_of_build hM h.hasColumns h.key h.columns hcontains hbuild hvalues hkey
      fun heq => hlooks.manual (heq ▸ hcolumn)
  constructor
  · rintro ⟨r', hagain, -⟩
    obtain ⟨query', hlookups', -, hcases⟩ := Builder.createOrUpdateBy_eq_ok_iff.mp hagain
    obtain rfl := Except.ok.inj (hlookups.symm.trans hlookups')
    obtain ⟨record', hfound, rfl, hsaved⟩ | ⟨-, hcreated⟩ := hcases
    · rw [hsame t' hschema, firstRecord] at hfound
      cases hfind : (scan.visit t'.rows).find? p with
      | none =>
        rw [hfind] at hfound
        cases hfound
      | some row' =>
        rw [hfind] at hfound
        obtain ⟨record'', hread, heq⟩ := map_eq_ok hfound
        obtain rfl := Option.some.inj heq
        have hmem := (scan.perm t'.rows).mem_iff.mp (List.mem_of_find?_eq_some hfind)
        have hmatches := List.find?_some hfind
        rw [hrows, List.mem_append, List.mem_singleton] at hmem
        obtain hmem | rfl := hmem
        · rw [hold row' hmem] at hmatches
          cases hmatches
        · have hassign := hrewrites.assign_eq hcolumns' hheld.contains hread
          rw [hassign] at hsaved
          exact ⟨hnew.mp hmatches, (holds_of_save_persisted hnames hcolumns' hsaved).1⟩
    · -- another row would have been inserted
      obtain ⟨_, -, hsaved⟩ := Builder.create_eq_ok_iff.mp hcreated
      obtain ⟨-, row', -, hmore, -⟩ := holds_of_save_new hM.names hcolumns' hsaved
      exact absurd (congrArg List.length hmore) (by simp)
  · rintro ⟨hproper, hvalid⟩
    have hfind : (scan.visit t'.rows).find? p = some row := by
      rw [hrows]
      exact scan.find?_visit_append hold (hnew.mpr hproper)
    exact ⟨r, hrewrites.createOrUpdateBy_eq hM hnames hcolumns' (hschema ▸ h.nodup)
      (hschema ▸ h.columns) hheld hvalid hlookups hne (hsame t' hschema) hfind, rfl⟩

/-- A model of notes, whose body may be any value, or none. -/
def noteModel : GeneratedModel where
  tableName := "note"
  primaryKeyName := "id"
  primaryKeyType := .i64
  autoIncrement := true
  fields := [⟨⟨"body", none, Option Value, SqlField.value.option⟩, .optional Value, none⟩]
  indexes := []
  validNew _ _ := true
  validPersisted _ _ := true

def noNotes : Table Value where
  name := "note"
  key := "id"
  columns := ["body"]
  default _ := .null
  store _ value := value
  equals _ a b := decide (a = b)
  admits _ := true
  another _ := 1
  rows := []
  hasRows := ⟨List.nodup_nil, nofun, nofun⟩

/-- A note with a body, created unless there is one with that body. -/
def saveNote (body : Value) :
    Table Value → Except CreateOrUpdateError (Persisted noteModel.declaration) × Table Value :=
  Builder.createOrUpdateBy integerDomain Scan.ofRowids ⟨none, some (some body), ()⟩
    [.stored ⟨0, Nat.one_pos⟩]

theorem exists_saved {body : Value} (h : (saveNote body noNotes).1.isOk = true) :
    ∃ r, saveNote body noNotes = (.ok r, (saveNote body noNotes).2) := by
  cases hfirst : (saveNote body noNotes).1 with
  | ok r => exact ⟨r, Prod.ext hfirst rfl⟩
  | error e =>
    rw [hfirst] at h
    cases h

theorem isBuiltIn_noteModel : noteModel.IsBuiltIn integerDomain where
  tellsNull := ⟨rfl, fun _ => rfl, fun _ => rfl⟩
  names := ⟨by decide, by decide, by decide, by decide⟩
  fields := List.forall_mem_singleton.mpr ⟨.optional .value, nofun⟩

theorem isTypedTable_noNotes : IsTypedTable integerDomain noteModel noNotes where
  hasColumns := ⟨rfl, rfl, by decide, by decide, by decide⟩
  nodup := by decide
  key := ⟨fun _ => rfl, fun _ _ => rfl⟩
  columns := List.forall_mem_singleton.mpr
    { null := fun v hnull => of_decide_eq_true hnull
      integer := fun _ _ _ => rfl
      text := fun _ _ => rfl
      blob := fun _ _ _ => rfl
      order_integer := fun _ _ _ => rfl
      order_self := fun v => by
        cases v with
        | integer n => exact compare_eq_iff_eq.mpr rfl
        | _ => rfl }
  settled := nofun

end Seekwel.Model
