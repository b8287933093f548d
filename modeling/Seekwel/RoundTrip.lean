import Seekwel.PlainNames

/-!
# What is saved is found again

Over a table of a model (`IsTable`), where every field reads what its column
has stored of it, a record that is saved is found with the same values, a
record that is deleted is gone, and no other row changes (`RoundTrips`). For
this, the lists that are generated for a model must agree by position: every
placeholder is bound to the value of the field that its column is of, and
every field is read at the index of its column (`fromRow_of_values`).

There are words that SQLite takes for names in an `INSERT` and not in a
`SELECT`. Records of a model with such a name are saved and not found
(`cast_not_found`). So the names that may be written must be names that may be
read, and that is enough (`roundTrips_iff`).
-/

namespace Seekwel.Model

open Sql (Table Result Schema Stored PlainName PlainTable)

/-! ## Positions -/

variable {M : Declaration} {t t' : Table Value}

theorem length_params : ∀ (fields : List Field) (values : Values fields),
    (params fields values).length = fields.length
  | [], _ => rfl
  | _ :: fields, (_, values) => congrArg Nat.succ (length_params fields values)

/-- **A table of a model**: it has its columns, and every field reads what
its column has stored. -/
structure IsTable (M : Declaration) (t : Schema Value) : Prop where
  name : t.name = M.tableName
  key : t.key = M.primaryKeyName
  columns : ∀ field ∈ M.fields, field.columnName ∈ t.columns
  nodup : (M.fields.map (·.columnName)).Nodup
  key_not_mem : M.primaryKeyName ∉ M.fields.map (·.columnName)
  lawful : ∀ field ∈ M.fields, ∀ value, field.sqlField.fromSqlRow
    (t.store field.columnName (field.sqlField.toSqlValue value)) = .ok value

/-- **Every field is read at the index of its column.** -/
theorem fromRowFields_of_drop (store : String → Value → Value) :
    ∀ (fields : List Field) (values : Values fields),
      (∀ field ∈ fields, ∀ value, field.sqlField.fromSqlRow
        (store field.columnName (field.sqlField.toSqlValue value)) = .ok value) →
      ∀ (index : ℕ) (row : List Value),
      row.drop index
        = List.zipWith store (fields.map (·.columnName)) (params fields values) →
      fromRowFields fields index row = .ok values
  | [], _, _, _, _, _ => rfl
  | field :: fields, (value, values), hlawful, index, row, hrow => by
    rw [List.map_cons, params, List.zipWith_cons_cons] at hrow
    have hhead : row[index]? = some (store field.columnName (field.sqlField.toSqlValue value)) := by
      rw [← List.head?_drop, hrow, List.head?_cons]
    have htail : row.drop (index + 1)
        = List.zipWith store (fields.map (·.columnName)) (params fields values) := by
      rw [← List.tail_drop, hrow, List.tail_cons]
    have hrest := fromRowFields_of_drop store fields values
      (fun f hf => hlawful f (List.mem_cons_of_mem _ hf)) (index + 1) row htail
    rw [fromRowFields, hhead]
    simp only [hlawful field List.mem_cons_self, hrest, Except.bind, Except.map]

/-- A row of the model's columns is the record whose values it stores. -/
theorem fromRow_of_values (h : IsTable M t.toSchema) (record : Persisted M) :
    fromRow M (.integer (castI64 record.key.1)
      :: List.zipWith t.store (M.fields.map (·.columnName)) (params M.fields record.values))
      = .ok record := by
  refine fromRow_eq_ok_iff.mpr ⟨IntType.fromSqlRow_toSqlValue record.key, ?_⟩
  exact fromRowFields_of_drop t.store M.fields record.values h.lawful 1 _ rfl

/-! ## Finding -/

/-- A table that has the columns of a model. -/
structure HasColumns (M : Declaration) (t : Schema Value) : Prop where
  name : t.name = M.tableName
  key : t.key = M.primaryKeyName
  columns : ∀ field ∈ M.fields, field.columnName ∈ t.columns
  nodup : (M.fields.map (·.columnName)).Nodup
  key_not_mem : M.primaryKeyName ∉ M.fields.map (·.columnName)

theorem IsTable.hasColumns {t : Schema Value} (h : IsTable M t) : HasColumns M t :=
  ⟨h.name, h.key, h.columns, h.nodup, h.key_not_mem⟩

/-- The names of a model are read as themselves. -/
structure PlainNames (M : Declaration) : Prop where
  table : PlainTable M.tableName
  key : PlainName M.primaryKeyName
  columns : ∀ field ∈ M.fields, PlainName field.columnName

theorem columnNames_modelDef (M : Declaration) :
    M.modelDef.columns.map (·.name) = M.fields.map (·.columnName) := by
  show (M.fields.map Field.columnDef).map (·.name) = _
  rw [List.map_map]
  rfl

theorem PlainNames.columnDefs (h : PlainNames M) :
    ∀ column ∈ M.modelDef.columns, PlainName column.name :=
  List.forall_mem_map.mpr h.columns

/-- The row of a key. -/
def rowidOf (M : Declaration) (key : M.primaryKeyType.Carrier) : ℤ := castI64 key.1

/-- The values of a record in a row of a table. -/
def Contains (t : Table Value) (row : Stored Value) (record : Persisted M) : Prop :=
  row.rowid = rowidOf M record.key
    ∧ (M.fields.map (·.columnName)).map (t.get sqlValues row)
      = List.zipWith t.store (M.fields.map (·.columnName)) (params M.fields record.values)

/-- The rows of a key are those with its rowid. -/
theorem finds_key (h : HasColumns M t.toSchema) (key : M.primaryKeyType.Carrier) :
    t.finds sqlValues M.primaryKeyName (keyValue M key)
      = fun row => decide (row.rowid = rowidOf M key) := by
  funext row
  rw [Sql.Table.finds, if_pos h.key.symm]
  exact decide_eq_decide.mpr (Option.some_inj.trans eq_comm)

theorem hasColumn_key (h : HasColumns M t.toSchema) : t.hasColumn M.primaryKeyName = true := by
  simp [Sql.Table.hasColumn, h.key]

theorem selected?_key (h : HasColumns M t.toSchema) {bound : List Value} {n : ℕ}
    {key : M.primaryKeyType.Carrier} (hbound : bound[n - 1]? = some (keyValue M key)) :
    t.selected? sqlValues bound M.primaryKeyName (.param n)
      = .ok fun row => decide (row.rowid = rowidOf M key) := by
  have hvalue : ∀ row, t.value sqlValues bound row (.param n) = keyValue M key := fun row => by
    rw [Sql.Table.value, hbound, Option.getD_some]
  rw [Sql.Table.selected?, if_pos (hasColumn_key h)]
  simp only [hvalue, finds_key h]

/-- **A record that a row contains is found.** -/
theorem find_of_contains (hp : PlainNames M) (h : IsTable M t.toSchema) {row : Stored Value}
    (hrow : row ∈ t.rows) {record : Persisted M} (hcontains : Contains t row record) :
    find M t record.key = .ok record := by
  obtain ⟨hrowid, hvalues⟩ := hcontains
  have hread := readCommand_selectByPrimaryKey (M := M.modelDef) hp.table hp.key hp.columnDefs
  have hcolumns : ((M.primaryKeyName :: M.fields.map (·.columnName)).all t.hasColumn) = true := by
    rw [List.all_cons, hasColumn_key h.hasColumns, Bool.true_and, List.all_map, List.all_eq_true]
    intro field hfield
    simp [Sql.Table.hasColumn, h.columns field hfield]
  have hkey : t.get sqlValues row M.primaryKeyName = .integer (castI64 record.key.1) := by
    rw [Sql.Table.get, if_pos h.key.symm, hrowid]
    rfl
  have hrun : t.run sqlValues [keyValue M record.key]
      (.select (M.primaryKeyName :: M.fields.map (·.columnName)) M.tableName M.primaryKeyName
        (.param 1))
      = .ok ⟨t, 0, none, [(M.primaryKeyName :: M.fields.map (·.columnName)).map
        (t.get sqlValues row)]⟩ := by
    rw [Sql.Table.run, if_pos h.name.symm, if_pos hcolumns, selected?_key h.hasColumns rfl]
    simp only [Except.bind, ← hrowid, Sql.Table.filter_rowid hrow, List.map_cons, List.map_nil]
  have hexecute : execute t
      (selectByPrimaryKey M.tableName M.modelDef.primaryKey M.modelDef.columns)
      [keyValue M record.key]
      = .ok ⟨t, 0, none, [(M.primaryKeyName :: M.fields.map (·.columnName)).map
        (t.get sqlValues row)]⟩ := by
    rw [execute, show M.tableName = M.modelDef.tableName from rfl, hread, columnNames_modelDef]
    simp only [Declaration.modelDef]
    rw [hrun]
  rw [find, hexecute]
  simp only [Except.bind, List.map_cons, hkey, hvalues]
  exact fromRow_of_values h record

/-! ## Saving a new record -/

/-- The columns of an `INSERT`. -/
def insertNames (M : Declaration) : List String := M.modelDef.insertColumns.map (·.name)

theorem insertNames_eq (M : Declaration) :
    insertNames M = if M.autoIncrement then M.fields.map (·.columnName)
      else M.primaryKeyName :: M.fields.map (·.columnName) := by
  unfold insertNames ModelDef.insertColumns
  cases hauto : M.autoIncrement with
  | true =>
    have hauto : M.modelDef.primaryKey.autoIncrement = true := hauto
    rw [if_pos hauto, if_pos rfl, columnNames_modelDef]
  | false =>
    have hauto : ¬ M.modelDef.primaryKey.autoIncrement = true := by
      rw [show M.modelDef.primaryKey.autoIncrement = false from hauto]
      exact Bool.false_ne_true
    rw [if_neg hauto, if_neg Bool.false_ne_true, List.map_cons, columnNames_modelDef]
    rfl

theorem length_insertParams (record : NewRecord M) :
    record.insertParams.length = M.modelDef.insertColumns.length := by
  have hlength := congrArg List.length (insertNames_eq M)
  rw [insertNames, List.length_map] at hlength
  rw [hlength, NewRecord.insertParams]
  split_ifs
  all_goals simp [length_params]

/-- **The placeholders of an `INSERT` are bound to the values of its
columns.** -/
theorem run_insertCommand (h : HasColumns M t.toSchema) (record : NewRecord M) :
    t.run sqlValues record.insertParams M.modelDef.insertCommand
      = t.insertRow sqlValues ((insertNames M).zip record.insertParams) := by
  have hname : M.modelDef.tableName = t.name := h.name.symm
  unfold ModelDef.insertCommand
  split_ifs with hempty
  · have hnil : insertNames M = [] := by
      rw [insertNames, List.isEmpty_iff.mp hempty, List.map_nil]
    rw [Sql.Table.run, if_pos hname, hnil, List.zip_nil_left]
  · have hvalues : ((List.range' 1 M.modelDef.insertColumns.length).map Sql.Atom.param).mapM
        (Sql.Table.constant? sqlValues record.insertParams) = some record.insertParams := by
      have hbound := Sql.map_getElem_range record.insertParams [] sqlValues.null
      rw [List.append_nil, length_insertParams] at hbound
      rw [Sql.mapM_eq_some_iff, List.forall₂_map_left_iff]
      conv => rhs; rw [← hbound]
      rw [List.forall₂_map_right_iff, List.forall₂_same]
      exact fun n _ => rfl
    rw [Sql.Table.run, if_pos hname, hvalues]
    rfl

theorem lookup_insertNames {record : NewRecord M} (hkey : M.primaryKeyName
    ∉ M.fields.map (·.columnName)) :
    ∀ n ∈ M.fields.map (·.columnName), ((insertNames M).zip record.insertParams).lookup n
      = ((M.fields.map (·.columnName)).zip (params M.fields record.values)).lookup n := by
  intro n hn
  rw [insertNames_eq, NewRecord.insertParams]
  split_ifs
  · rfl
  · have hne : (n == M.primaryKeyName) = false :=
      beq_false_of_ne fun (he : n = M.primaryKeyName) => hkey (he ▸ hn)
    rw [List.zip_cons_cons, List.lookup_cons, hne]

theorem intoPersisted_eq_ok {record : NewRecord M} {id : ℤ} {saved : Persisted M}
    (h : record.intoPersisted id = .ok saved) :
    saved.values = record.values
      ∧ (if M.autoIncrement then M.primaryKeyType.fromGeneratedId id else .ok record.key)
        = .ok saved.key := by
  unfold NewRecord.intoPersisted at h
  cases hkey : (if M.autoIncrement then M.primaryKeyType.fromGeneratedId id
    else .ok record.key : Except Error M.primaryKeyType.Carrier) with
  | error e =>
    rw [hkey] at h
    cases h
  | ok key =>
    rw [hkey] at h
    simp only [Except.bind] at h
    split at h
    · cases h
      exact ⟨rfl, rfl⟩
    · cases h

/-- The rowid of a record that is inserted is the one of its key. -/
theorem rowid_of_given (h : HasColumns M t.toSchema) {record : NewRecord M} {rowid : ℤ}
    (hrange : Sql.IsRowid rowid)
    (hgiven : t.givenRowid sqlValues ((insertNames M).zip record.insertParams) = .ok rowid)
    {key : M.primaryKeyType.Carrier}
    (hkey : (if M.autoIncrement then M.primaryKeyType.fromGeneratedId (castU64 rowid)
      else .ok record.key) = .ok key) : rowid = rowidOf M key := by
  cases hauto : M.autoIncrement with
  | true =>
    rw [hauto, if_pos rfl] at hkey
    exact (IntType.castI64_of_fromGeneratedId (holds_i64_iff.mpr hrange) hkey).symm
  | false =>
    rw [hauto, if_neg Bool.false_ne_true] at hkey
    obtain rfl : record.key = key := Except.ok.inj hkey
    rw [insertNames_eq, NewRecord.insertParams, hauto, if_neg Bool.false_ne_true,
      if_neg Bool.false_ne_true, Sql.Table.givenRowid, h.key, List.zip_cons_cons,
      List.lookup_cons_self] at hgiven
    exact (Except.ok.inj hgiven).symm

/-- **What saving a new record does**, if it succeeds. -/
theorem save_new_eq_ok (h : HasColumns M t.toSchema)
    (hread : Sql.readCommand (insert M.tableName M.modelDef.insertColumns)
      = some M.modelDef.insertCommand)
    {record : NewRecord M} {saved : Persisted M} (hsave : record.save t = (.ok saved, t')) :
    ∃ row, t'.toSchema = t.toSchema ∧ t'.rows = t.rows ++ [row]
      ∧ row.rowid ∉ t.rows.map Stored.rowid ∧ Contains t' row saved
      ∧ saved.values = record.values ∧ (M.autoIncrement = false → saved.key = record.key) := by
  unfold NewRecord.save insertRecord execute at hsave
  rw [hread] at hsave
  simp only [run_insertCommand h] at hsave
  by_cases hvalid : M.validNew record.key record.values = true
  · rw [if_pos hvalid] at hsave
    cases hinsert : t.insertRow sqlValues ((insertNames M).zip record.insertParams) with
    | error message =>
      rw [hinsert] at hsave
      cases hsave
    | ok result =>
      obtain ⟨rowid, hgiven, hnew, hrange, hrowid, hschema, hrows, -⟩ :=
        Sql.Table.insertRow_eq_ok hinsert
      rw [hinsert] at hsave
      simp only [Prod.mk.injEq, hrowid, Option.getD_some] at hsave
      obtain ⟨hpersisted, rfl⟩ := hsave
      cases hinto : record.intoPersisted (castU64 rowid) with
      | error e =>
        rw [hinto] at hpersisted
        cases hpersisted
      | ok record' =>
        rw [hinto] at hpersisted
        obtain rfl : record' = saved := Except.ok.inj hpersisted
        obtain ⟨hvalues, hkey⟩ := intoPersisted_eq_ok hinto
        refine ⟨_, hschema, hrows, hnew, ⟨rowid_of_given h hrange hgiven hkey, ?_⟩, hvalues, ?_⟩
        · rw [Sql.Table.get_of_schema_eq hschema, hschema, hvalues]
          refine Sql.Table.map_get_newRow h.nodup ?_ ?_ (h.key ▸ h.key_not_mem)
            (lookup_insertNames h.key_not_mem) rowid
          · rw [length_params, List.length_map]
          · exact List.forall_mem_map.mpr h.columns
        · intro hauto
          rw [hauto, if_neg Bool.false_ne_true] at hkey
          exact (Except.ok.inj hkey).symm
  · rw [if_neg hvalid] at hsave
    cases hsave

/-! ## Saving and deleting a persisted record -/

theorem numbered_eq (columns : List ColumnDef) :
    numbered columns = (columns.map (·.name)).zip
      ((List.range' 1 columns.length).map Sql.Atom.param) := by
  refine List.ext_getElem (by simp [numbered]) fun i h₁ h₂ => ?_
  simp [numbered]

/-- The rows other than that of a key. -/
def others (t : Table Value) (rowid : ℤ) : List (Stored Value) :=
  t.rows.filter fun row => row.rowid ≠ rowid

/-- The changes of an `UPDATE`. -/
def changes (M : Declaration) : List (String × Sql.Atom) :=
  if M.modelDef.columns.isEmpty then [(M.primaryKeyName, .column M.primaryKeyName)]
  else numbered M.modelDef.columns

/-- The parameters of an `UPDATE`, the key being the last one. -/
def Persisted.updateParams (record : Persisted M) : List Value :=
  params M.fields record.values ++ [keyValue M record.key]

/-- An `UPDATE` keeps the rowids. -/
theorem changedRowid_changes (h : HasColumns M t.toSchema) (bound : List Value)
    (row : Stored Value) :
    t.changedRowid sqlValues bound (changes M) row = some row.rowid := by
  unfold changes
  split_ifs
  · rw [Sql.Table.changedRowid, h.key, List.lookup_cons_self]
    simp [Sql.Table.value, Sql.Table.get, h.key, sqlValues]
  · rw [numbered_eq, columnNames_modelDef]
    exact Sql.Table.changedRowid_of_not_mem (h.key ▸ h.key_not_mem) _ row

theorem changedRow_changes (h : HasColumns M t.toSchema) (record : Persisted M)
    {row : Stored Value} (hrow : row ∈ t.rows) :
    (t.changedRow sqlValues record.updateParams (changes M) row).rowid = row.rowid
      ∧ (M.fields.map (·.columnName)).map
          (t.get sqlValues (t.changedRow sqlValues record.updateParams (changes M) row))
        = List.zipWith t.store (M.fields.map (·.columnName)) (params M.fields record.values) := by
  refine ⟨by rw [Sql.Table.changedRow, changedRowid_changes h, Option.getD_some], ?_⟩
  unfold changes
  split_ifs with hempty
  · have hnil : M.fields = [] := by
      simpa [Declaration.modelDef] using hempty
    have hnames : M.fields.map (·.columnName) = [] := by rw [hnil, List.map_nil]
    rw [hnames]
    rfl
  · have hnames := columnNames_modelDef M
    have hlength : (params M.fields record.values).length = M.modelDef.columns.length := by
      rw [length_params, ← List.length_map (·.columnName), ← hnames, List.length_map]
    rw [numbered_eq, hnames, Sql.Table.map_get_changedRow h.nodup ?_
      (List.forall_mem_map.mpr h.columns) (h.key ▸ h.key_not_mem) hrow, List.map_map]
    · have hbound := Sql.map_getElem_range (params M.fields record.values)
        [keyValue M record.key] sqlValues.null
      rw [hlength] at hbound
      exact congrArg _ hbound
    · rw [List.length_map, List.length_range', ← hnames, List.length_map]

theorem updateCommand_eq (M : Declaration) :
    M.modelDef.updateCommand = .update M.tableName (changes M) M.primaryKeyName
      (.param (M.fields.length + 1)) := by
  have hlength : M.modelDef.columns.length = M.fields.length := List.length_map _
  unfold ModelDef.updateCommand changes
  split_ifs with hempty
  · have hzero : M.fields.length = 0 := by
      rw [← hlength, List.isEmpty_iff.mp hempty, List.length_nil]
    rw [hzero]
    rfl
  · rw [hlength]
    rfl

/-- The rows of the key of a record. -/
theorem selected?_updateParams (h : HasColumns M t.toSchema) (record : Persisted M) :
    t.selected? sqlValues record.updateParams M.primaryKeyName (.param (M.fields.length + 1))
      = .ok fun row => decide (row.rowid = rowidOf M record.key) := by
  refine selected?_key h ?_
  rw [Persisted.updateParams, Nat.add_sub_cancel,
    List.getElem?_append_right (length_params _ _).le, length_params, Nat.sub_self,
    List.getElem?_cons_zero]

/-- Saving a persisted record is an `UPDATE` of the rows of its key. -/
theorem updateRows_of_save (h : HasColumns M t.toSchema)
    (hread : Sql.readCommand (updateByPrimaryKey M.tableName M.modelDef.primaryKey
      M.modelDef.columns) = some M.modelDef.updateCommand)
    {record : Persisted M} (hsave : record.save t = (.ok (), t')) :
    ∃ result, t.updateRows sqlValues record.updateParams (changes M)
        (fun row => decide (row.rowid = rowidOf M record.key)) = .ok result
      ∧ result.table = t' ∧ result.changes ≠ 0
      ∧ M.validPersisted record.key record.values = true := by
  unfold Persisted.save execute at hsave
  rw [hread, updateCommand_eq,
    show params M.fields record.values ++ [keyValue M record.key] = record.updateParams from rfl]
    at hsave
  simp only [Sql.Table.run, if_pos h.name.symm, selected?_updateParams h, Except.bind] at hsave
  by_cases hvalid : M.validPersisted record.key record.values = true
  · rw [if_pos hvalid] at hsave
    cases hrows : t.updateRows sqlValues record.updateParams (changes M)
        (fun row => decide (row.rowid = rowidOf M record.key)) with
    | error message =>
      rw [hrows] at hsave
      cases hsave
    | ok result =>
      rw [hrows] at hsave
      dsimp only at hsave
      by_cases hzero : result.changes = 0
      · rw [if_pos hzero] at hsave
        cases hsave
      · rw [if_neg hzero] at hsave
        exact ⟨result, rfl, (Prod.mk.inj hsave).2, hzero, hvalid⟩
  · rw [if_neg hvalid] at hsave
    cases hsave

/-- **What saving a persisted record does**, if it succeeds. -/
theorem save_persisted_eq_ok (h : HasColumns M t.toSchema)
    (hread : Sql.readCommand (updateByPrimaryKey M.tableName M.modelDef.primaryKey
      M.modelDef.columns) = some M.modelDef.updateCommand)
    {record : Persisted M} (hsave : record.save t = (.ok (), t')) :
    t'.toSchema = t.toSchema ∧ (∃ row ∈ t'.rows, Contains t' row record)
      ∧ others t' (rowidOf M record.key) = others t (rowidOf M record.key) := by
  obtain ⟨result, hrows, rfl, hzero, -⟩ := updateRows_of_save h hread hsave
  obtain ⟨hschema, hrest, hchanges, -⟩ := Sql.Table.updateRows_eq_ok hrows
  rw [hchanges, Ne, List.length_eq_zero_iff] at hzero
  obtain ⟨row, hrow⟩ := List.exists_mem_of_ne_nil _ hzero
  obtain ⟨hmem, heq⟩ := List.mem_filter.mp hrow
  have heq := of_decide_eq_true heq
  obtain ⟨hrowid, hvalues⟩ := changedRow_changes h record hmem
  refine ⟨hschema, ⟨_, ?_, hrowid.trans heq, ?_⟩, ?_⟩
  · rw [hrest]
    refine List.mem_map.mpr ⟨row, hmem, ?_⟩
    rw [if_pos (decide_eq_true heq)]
  · rw [Sql.Table.get_of_schema_eq hschema, hschema, hvalues]
  · rw [others, hrest]
    exact Sql.Table.filter_changedRows fun row hrow => (changedRow_changes h record hrow).1

/-- **What deleting a record does**, if it succeeds. -/
theorem delete_eq_ok (h : HasColumns M t.toSchema)
    (hread : Sql.readCommand (deleteByPrimaryKey M.tableName M.modelDef.primaryKey)
      = some (.delete M.tableName M.primaryKeyName (.param 1)))
    {record : Persisted M} (hdelete : record.delete t = (.ok (), t')) :
    t'.rows = others t (rowidOf M record.key)
      ∧ ∃ row ∈ t.rows, row.rowid = rowidOf M record.key := by
  have hbound : [keyValue M record.key][1 - 1]? = some (keyValue M record.key) := rfl
  have hselected := selected?_key h hbound
  unfold Persisted.delete execute at hdelete
  rw [hread] at hdelete
  simp only [Sql.Table.run, if_pos h.name.symm, hselected, Except.bind] at hdelete
  cases hrows : t.deleteRows (fun row => decide (row.rowid = rowidOf M record.key)) with
  | error message =>
    rw [hrows] at hdelete
    cases hdelete
  | ok result =>
    obtain ⟨hschema, hrest, hchanges⟩ := Sql.Table.deleteRows_eq_ok hrows
    rw [hrows] at hdelete
    dsimp only at hdelete
    by_cases hzero : result.changes = 0
    · rw [if_pos hzero] at hdelete
      cases hdelete
    · rw [if_neg hzero] at hdelete
      obtain rfl : result.table = t' := (Prod.mk.inj hdelete).2
      rw [hchanges, List.length_eq_zero_iff] at hzero
      obtain ⟨row, hrow⟩ := List.exists_mem_of_ne_nil _ hzero
      obtain ⟨hmem, heq⟩ := List.mem_filter.mp hrow
      refine ⟨?_, row, hmem, of_decide_eq_true heq⟩
      rw [hrest, others]
      exact List.filter_congr fun row _ => (decide_not).symm

/-! ## Names -/

/-- **The names of a model.** -/
structure Names where
  tableName : String
  primaryKeyName : String
  autoIncrement : Bool
  columns : List String

def Declaration.names (M : Declaration) : Names :=
  ⟨M.tableName, M.primaryKeyName, M.autoIncrement, M.fields.map (·.columnName)⟩

/-- The columns that are written by an `INSERT`. -/
def Names.inserted (N : Names) : List String :=
  if N.autoIncrement then N.columns else N.primaryKeyName :: N.columns

/-- The names of fields and of the key: identifiers, and no two of them the
same. -/
structure Names.AreFields (N : Names) : Prop where
  key : Sql.isIdentifier N.primaryKeyName = true
  columns : ∀ c ∈ N.columns, Sql.isIdentifier c = true
  nodup : N.columns.Nodup
  key_not_mem : N.primaryKeyName ∉ N.columns

/-- **The names that may be written may be read.** -/
def Names.Readable (N : Names) : Prop :=
  (PlainTable N.tableName ∧ ∀ c ∈ N.inserted, PlainTable c) →
    PlainName N.primaryKeyName ∧ ∀ c ∈ N.columns, PlainName c

instance (N : Names) : Decidable N.Readable := inferInstanceAs (Decidable (_ → _))

/-- **What is saved is found again**, whatever the model has under its names
and whatever its table contains. -/
structure RoundTrips (N : Names) : Prop where
  created : ∀ M : Declaration, M.names = N → ∀ t t' : Table Value, IsTable M t.toSchema →
    ∀ (record : NewRecord M) (saved : Persisted M), record.save t = (.ok saved, t') →
      find M t' saved.key = .ok saved ∧ saved.values = record.values
        ∧ (M.autoIncrement = false → saved.key = record.key)
        ∧ ∃ row, row.rowid ∉ t.rows.map Stored.rowid ∧ t'.rows = t.rows ++ [row]
  updated : ∀ M : Declaration, M.names = N → ∀ t t' : Table Value, IsTable M t.toSchema →
    ∀ record : Persisted M, record.save t = (.ok (), t') →
      find M t' record.key = .ok record
        ∧ others t' (rowidOf M record.key) = others t (rowidOf M record.key)
  deleted : ∀ M : Declaration, M.names = N → ∀ t t' : Table Value, IsTable M t.toSchema →
    ∀ record : Persisted M, record.delete t = (.ok (), t') →
      t'.rows = others t (rowidOf M record.key)
        ∧ ∃ row ∈ t.rows, row.rowid = rowidOf M record.key

section Names

variable {N : Names}

/-- What the names of a model are, column by column. -/
theorem Names.AreFields.columnDefs (h : M.names.AreFields) :
    ∀ column ∈ M.modelDef.columns, Sql.isIdentifier column.name = true :=
  List.forall_mem_map.mpr fun field hfield =>
    h.columns _ (List.mem_map.mpr ⟨field, hfield, rfl⟩)

theorem Names.AreFields.insertColumns (h : M.names.AreFields) :
    ∀ column ∈ M.modelDef.insertColumns, Sql.isIdentifier column.name = true :=
  forall_mem_insertColumns (p := fun name => Sql.isIdentifier name = true) h.key h.columnDefs

theorem inserted_names (M : Declaration) : M.names.inserted = insertNames M :=
  (insertNames_eq M).symm

theorem plainNames_of_readable (h : M.names.Readable) (htable : PlainTable M.tableName)
    (hinserted : ∀ c ∈ insertNames M, PlainTable c) : PlainNames M := by
  obtain ⟨hkey, hcolumns⟩ := h ⟨htable, inserted_names M ▸ hinserted⟩
  exact ⟨htable, hkey, List.forall_mem_map.mp hcolumns⟩

/-- A new record that is saved has been inserted. -/
theorem execute_of_save_new {record : NewRecord M} {saved : Persisted M}
    (hsave : record.save t = (.ok saved, t')) :
    ∃ r, execute t (insert M.tableName M.modelDef.insertColumns) record.insertParams = .ok r
      ∧ r.table = t' := by
  unfold NewRecord.save insertRecord at hsave
  split_ifs at hsave
  case neg => cases hsave
  cases hexecute : execute t (insert M.tableName M.modelDef.insertColumns)
      record.insertParams with
  | error e =>
    rw [hexecute] at hsave
    cases hsave
  | ok r =>
    rw [hexecute] at hsave
    exact ⟨r, rfl, (Prod.mk.inj hsave).2⟩

theorem plainNames_of_save_new (hids : M.names.AreFields) (hreadable : M.names.Readable)
    (h : HasColumns M t.toSchema) {record : NewRecord M} {saved : Persisted M}
    (hsave : record.save t = (.ok saved, t')) : PlainNames M := by
  obtain ⟨r, hexecute, -⟩ := execute_of_save_new hsave
  obtain ⟨c, hread, htable, -⟩ := execute_eq_ok hexecute
  obtain ⟨hplain, hinserted⟩ := plain_of_insert hids.insertColumns hread (htable.trans h.name)
  exact plainNames_of_readable hreadable hplain (List.forall_mem_map.mpr hinserted)

/-- Names that are plain where they are changed are plain where they are
inserted. -/
theorem forall_mem_insertNames (hkey : PlainTable M.primaryKeyName)
    (hcolumns : ∀ column ∈ M.modelDef.columns, PlainTable column.name) :
    ∀ c ∈ insertNames M, PlainTable c :=
  List.forall_mem_map.mpr (forall_mem_insertColumns (p := PlainTable) hkey hcolumns)

/-- A record that is saved again has names that may be changed. -/
theorem plainTable_of_save_persisted (hids : M.names.AreFields) (h : HasColumns M t.toSchema)
    {record : Persisted M} (hsave : record.save t = (.ok (), t')) :
    PlainTable M.tableName ∧ PlainName M.primaryKeyName
      ∧ ∀ column ∈ M.modelDef.columns, PlainTable column.name := by
  unfold Persisted.save at hsave
  split_ifs at hsave
  case neg => cases hsave
  cases hexecute : execute t (updateByPrimaryKey M.tableName M.modelDef.primaryKey
      M.modelDef.columns) (params M.fields record.values ++ [keyValue M record.key]) with
  | error e =>
    rw [hexecute] at hsave
    cases hsave
  | ok result =>
    obtain ⟨c, hread, htable, -⟩ := execute_eq_ok hexecute
    exact plain_of_updateByPrimaryKey hids.key hids.columnDefs hread (htable.trans h.name)

theorem plainNames_of_save_persisted (hids : M.names.AreFields) (hreadable : M.names.Readable)
    (h : HasColumns M t.toSchema) {record : Persisted M} (hsave : record.save t = (.ok (), t')) :
    PlainNames M := by
  obtain ⟨hplain, hkey, hcolumns⟩ := plainTable_of_save_persisted hids h hsave
  exact plainNames_of_readable hreadable hplain (forall_mem_insertNames hkey.plainTable hcolumns)

/-- **Readable names are enough.** -/
theorem roundTrips_of_readable (hids : N.AreFields) (hreadable : N.Readable) : RoundTrips N where
  created := by
    rintro M rfl t t' h record saved hsave
    have hplain := plainNames_of_save_new hids hreadable h.hasColumns hsave
    obtain ⟨row, hschema, hrows, hnew, hcontains, hvalues, hkey⟩ := save_new_eq_ok h.hasColumns
      (readCommand_insertCommand hplain.table (forall_mem_insertColumns hplain.key.plainTable
        fun column hcolumn => (hplain.columnDefs column hcolumn).plainTable)) hsave
    have hrow : row ∈ t'.rows := by
      rw [hrows]
      exact List.mem_append_right _ (List.mem_singleton.mpr rfl)
    exact ⟨find_of_contains hplain (hschema ▸ h) hrow hcontains, hvalues, hkey, row, hnew, hrows⟩
  updated := by
    rintro M rfl t t' h record hsave
    have hplain := plainNames_of_save_persisted hids hreadable h.hasColumns hsave
    obtain ⟨hschema, ⟨row, hrow, hcontains⟩, hothers⟩ := save_persisted_eq_ok h.hasColumns
      (readCommand_updateCommand hplain.table hplain.key hplain.columnDefs) hsave
    exact ⟨find_of_contains hplain (hschema ▸ h) hrow hcontains, hothers⟩
  deleted := by
    rintro M rfl t t' h record hdelete
    have hread : ∃ r, execute t (deleteByPrimaryKey M.tableName M.modelDef.primaryKey)
        [keyValue M record.key] = .ok r := by
      unfold Persisted.delete at hdelete
      cases hexecute : execute t (deleteByPrimaryKey M.tableName M.modelDef.primaryKey)
          [keyValue M record.key] with
      | error e =>
        rw [hexecute] at hdelete
        cases hdelete
      | ok r => exact ⟨r, rfl⟩
    obtain ⟨r, hexecute⟩ := hread
    obtain ⟨c, hcommand, htable, -⟩ := execute_eq_ok hexecute
    obtain ⟨hplain, hkey⟩ := plain_of_deleteByPrimaryKey hids.key hcommand (htable.trans h.name)
    exact delete_eq_ok h.hasColumns (readCommand_deleteByPrimaryKey (M := M.modelDef) hplain hkey) hdelete

/-! ## Names that may not be read -/

/-- A model with some names, whose fields take any value. -/
def untyped (N : Names) : Declaration where
  tableName := N.tableName
  primaryKeyName := N.primaryKeyName
  primaryKeyType := .i64
  autoIncrement := N.autoIncrement
  fields := N.columns.map fun c => ⟨c, none, Value, .value⟩
  indexes := []
  validNew _ _ := true
  validPersisted _ _ := true

/-- The values of a record whose fields are all `NULL`. -/
def nulls : (columns : List String) →
    Values (columns.map fun c => (⟨c, none, Value, .value⟩ : Field))
  | [] => ()
  | _ :: columns => (.null, nulls columns)

/-- A table that is empty and admits any row. -/
def emptyTable (N : Names) : Table Value where
  name := N.tableName
  key := N.primaryKeyName
  columns := N.columns
  default _ := .null
  store _ value := value
  equals _ a b := decide (a = b)
  admits _ := true
  another _ := 1
  rows := []
  hasRows := ⟨List.nodup_nil, nofun, nofun⟩

def nullRecord (N : Names) : NewRecord (untyped N) := ⟨⟨1, show IntType.i64.Holds 1 by decide⟩, nulls N.columns⟩

theorem names_untyped (N : Names) : (untyped N).names = N := by
  show (⟨N.tableName, N.primaryKeyName, N.autoIncrement, _⟩ : Names) = N
  rw [untyped, List.map_map, show Field.columnName ∘ (fun c => (⟨c, none, Value, .value⟩ : Field))
    = id from rfl, List.map_id]

theorem isTable_emptyTable (hids : N.AreFields) :
    IsTable (untyped N) (emptyTable N).toSchema := by
  have hcolumns : (untyped N).fields.map (·.columnName) = N.columns :=
    congrArg Names.columns (names_untyped N)
  refine ⟨rfl, rfl, ?_, hcolumns ▸ hids.nodup, hcolumns ▸ hids.key_not_mem, ?_⟩
  · exact List.forall_mem_map.mpr fun c hc => hc
  · exact List.forall_mem_map.mpr fun c _ value => rfl

theorem inserted_subset (N : Names) : ∀ c ∈ N.inserted, (emptyTable N).hasColumn c = true := by
  unfold Names.inserted
  have hcolumns : ∀ c ∈ N.columns, (emptyTable N).hasColumn c = true := fun c hc => by
    simp [Table.hasColumn, emptyTable, hc]
  split_ifs
  · exact hcolumns
  · rw [List.forall_mem_cons]
    exact ⟨by simp [Table.hasColumn, emptyTable], hcolumns⟩

/-- The first row of the empty table has the rowid 1. -/
theorem insertRow_nulls (hids : N.AreFields) : ∃ r,
    (emptyTable N).insertRow sqlValues
      ((insertNames (untyped N)).zip (nullRecord N).insertParams) = .ok r ∧ r.rowid = some 1 := by
  have hnames : insertNames (untyped N) = N.inserted := by
    rw [← inserted_names, names_untyped]
  have hall : (((insertNames (untyped N)).zip (nullRecord N).insertParams).all
      fun p => (emptyTable N).hasColumn p.1) = true := by
    rw [List.all_eq_true, hnames]
    exact fun p hp => inserted_subset N _ (List.of_mem_zip hp).1
  have hrowid : (emptyTable N).givenRowid sqlValues
      ((insertNames (untyped N)).zip (nullRecord N).insertParams) = .ok 1 := by
    rw [hnames, Names.inserted, NewRecord.insertParams,
      show (untyped N).autoIncrement = N.autoIncrement from rfl, Table.givenRowid,
      show (emptyTable N).key = N.primaryKeyName from rfl]
    split_ifs
    · rw [Sql.lookup_zip_of_not_mem hids.key_not_mem]
      rfl
    · rw [List.zip_cons_cons, List.lookup_cons_self]
      rfl
  have hfree : (1 : ℤ) ∉ (emptyTable N).rows.map Stored.rowid ∧ Sql.IsRowid 1 :=
    ⟨List.not_mem_nil, by decide⟩
  rw [Table.insertRow, if_pos hall, hrowid]
  simp only [Except.bind, dif_pos hfree]
  exact ⟨_, if_pos rfl, rfl⟩

/-- **A record is saved under names that may be written.** -/
theorem save_nulls (hids : N.AreFields) (htable : PlainTable N.tableName)
    (hinserted : ∀ c ∈ N.inserted, PlainTable c) :
    ∃ saved t', (nullRecord N).save (emptyTable N) = (.ok saved, t') := by
  obtain ⟨r, hinsert, hrowid⟩ := insertRow_nulls hids
  have hcolumns : ∀ column ∈ (untyped N).modelDef.insertColumns, PlainTable column.name := by
    rw [← names_untyped N, inserted_names] at hinserted
    exact List.forall_mem_map.mp hinserted
  have hread := readCommand_insertCommand (M := (untyped N).modelDef) htable hcolumns
  have hexecute : execute (emptyTable N)
      (insert (untyped N).tableName (untyped N).modelDef.insertColumns)
      (nullRecord N).insertParams = .ok r := by
    rw [execute, show (untyped N).tableName = (untyped N).modelDef.tableName from rfl, hread]
    simp only [run_insertCommand (isTable_emptyTable hids).hasColumns, hinsert]
  have hpersisted : ∃ saved, (nullRecord N).intoPersisted (castU64 1) = .ok saved := by
    have hkey : (if (untyped N).autoIncrement
        then (untyped N).primaryKeyType.fromGeneratedId (castU64 1) else .ok (nullRecord N).key)
        = (.ok ⟨1, show IntType.i64.Holds 1 by decide⟩ : Except Error IntType.i64.Carrier) := by
      split_ifs <;> rfl
    rw [NewRecord.intoPersisted, hkey]
    exact ⟨_, rfl⟩
  obtain ⟨saved, hsaved⟩ := hpersisted
  refine ⟨saved, r.table, ?_⟩
  have hvalid : (untyped N).validNew (nullRecord N).key (nullRecord N).values = true := rfl
  rw [NewRecord.save, if_pos hvalid, insertRecord, hexecute]
  simp only [hrowid, Option.getD_some, hsaved]
  rfl

/-- **Readable names are needed.** -/
theorem readable_of_roundTrips (hids : N.AreFields) (h : RoundTrips N) : N.Readable := by
  rintro ⟨htable, hinserted⟩
  obtain ⟨saved, t', hsave⟩ := save_nulls hids htable hinserted
  obtain ⟨hfind, -⟩ := h.created (untyped N) (names_untyped N) _ _ (isTable_emptyTable hids) _ _
    hsave
  unfold find at hfind
  cases hexecute : execute t' (selectByPrimaryKey (untyped N).tableName
      (untyped N).modelDef.primaryKey (untyped N).modelDef.columns)
      [keyValue (untyped N) saved.key] with
  | error e =>
    rw [hexecute] at hfind
    cases hfind
  | ok r =>
    obtain ⟨c, hread, -⟩ := execute_eq_ok hexecute
    have hids' : (untyped N).names.AreFields := (names_untyped N).symm ▸ hids
    obtain ⟨hkey, hcolumns⟩ := plain_of_selectByPrimaryKey htable hids'.key hids'.columnDefs hread
    refine ⟨hkey, fun c hc => hcolumns ⟨c, "BLOB", false, none⟩ ?_⟩
    exact List.mem_map.mpr ⟨_, List.mem_map.mpr ⟨c, hc, rfl⟩, rfl⟩

/-- **What is saved is found again** exactly if the names that may be written
may be read. -/
theorem roundTrips_iff (h : N.AreFields) : RoundTrips N ↔ N.Readable :=
  ⟨readable_of_roundTrips h, roundTrips_of_readable h⟩

end Names

/-- A model with one field. -/
def oneField (tableName columnName : String) : Names := ⟨tableName, "id", true, [columnName]⟩

/-- **A model with a field called `cast`**: its records are saved and not
found. -/
theorem cast_not_found : ¬ RoundTrips (oneField "movie" "cast") := fun h =>
  absurd (readable_of_roundTrips ⟨by decide, by decide, by decide, by decide⟩ h) (by decide)

theorem title_found : RoundTrips (oneField "movie" "title") :=
  (roundTrips_iff ⟨by decide, by decide, by decide, by decide⟩).mpr (by decide)

end Seekwel.Model
