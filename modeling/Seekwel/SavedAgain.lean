import Seekwel.FailedCreate

/-!
# Saving what is there

A record that a row of the table contains is saved again without changing the
table (`save_of_contains`). What a save leaves is such a table, whether it has
inserted a row or changed one.
-/

namespace Seekwel.Model

open Sql (Table Stored PlainTable)

variable {M : Declaration} {t t' : Table Value}

/-! ## Rows that are changed to what they are -/

theorem lookup_changes_of_not_mem {column : String} (hkey : column ≠ M.primaryKeyName)
    (hcolumn : column ∉ M.fields.map (·.columnName)) : (changes M).lookup column = none := by
  unfold changes
  split_ifs
  · rw [List.lookup_cons, beq_false_of_ne hkey]
    rfl
  · rw [numbered_eq, columnNames_modelDef, Sql.lookup_zip_of_not_mem hcolumn]

/-- **A row that contains a record** is not changed by its values. -/
theorem changedRow_of_contains (h : HasColumns M t.toSchema)
    (hnodup : (t.key :: t.columns).Nodup) {row : Stored Value} (hrow : row ∈ t.rows)
    {record : Persisted M} (hcontains : Contains t row record) :
    t.changedRow sqlValues record.updateParams (changes M) row = row := by
  obtain ⟨hrowid, hvalues⟩ := changedRow_changes h record hrow
  have hcolumns := t.hasRows.columns_eq row hrow
  have hchanged : (t.changedRow sqlValues record.updateParams (changes M) row).values.map Prod.fst
      = t.columns := by
    rw [Table.changedRow, List.map_map, ← hcolumns]
    rfl
  refine Table.row_ext (D := sqlValues) hnodup hchanged hcolumns hrowid fun column hcolumn => ?_
  by_cases hfield : column ∈ M.fields.map (·.columnName)
  · exact List.map_inj_left.mp (hvalues.trans hcontains.2.symm) column hfield
  · -- a column of which the model knows nothing
    have hne : column ≠ t.key := fun heq => (List.nodup_cons.mp hnodup).1 (heq ▸ hcolumn)
    rw [Table.get, Table.get, if_neg hne, if_neg hne, Table.changedRow,
      Sql.lookup_map_snd row.values fun n v => t.changedValue sqlValues record.updateParams row n v
        ((changes M).lookup n), lookup_changes_of_not_mem (h.key ▸ hne) hfield]
    cases row.values.lookup column <;> rfl

theorem all_hasColumn_changes (h : HasColumns M t.toSchema) :
    ((changes M).all fun p => t.hasColumn p.1) = true := by
  rw [List.all_eq_true]
  unfold changes
  split_ifs
  · exact List.forall_mem_singleton.mpr (hasColumn_key h)
  · rw [numbered_eq, columnNames_modelDef]
    rintro p hp
    obtain ⟨field, hfield, hname⟩ := List.mem_map.mp (List.of_mem_zip hp).1
    simp [Table.hasColumn, ← hname, h.columns field hfield]

/-- **A record that a row contains is saved again** without a change. -/
theorem save_of_contains (hplain : PlainNames M) (h : HasColumns M t.toSchema)
    (hnodup : (t.key :: t.columns).Nodup) (hadmits : t.admits t.rows = true) {row : Stored Value}
    (hrow : row ∈ t.rows) {record : Persisted M} (hcontains : Contains t row record)
    (hvalid : M.validPersisted record.key record.values = true) :
    record.save t = (.ok (), t) := by
  have hread := readCommand_updateCommand (M := M.modelDef) hplain.table hplain.key
    hplain.columnDefs
  have hsame : ∀ row' ∈ t.rows, decide (row'.rowid = rowidOf M record.key) = true →
      t.changedRow sqlValues record.updateParams (changes M) row' = row' := by
    intro row' hrow' heq
    obtain rfl := Table.eq_of_rowid_eq hrow' hrow ((of_decide_eq_true heq).trans hcontains.1.symm)
    exact changedRow_of_contains h hnodup hrow' hcontains
  have hrowids : ∀ row' ∈ t.rows,
      (t.changedRowid sqlValues record.updateParams (changes M) row').isSome = true := by
    intro row' _
    rw [changedRowid_changes h, Option.isSome_some]
  have hupdate := Table.updateRows_eq_self (all_hasColumn_changes h) hrowids hsame hadmits
  have hone : (t.rows.filter fun row' => decide (row'.rowid = rowidOf M record.key)) = [row] := by
    rw [← hcontains.1, Table.filter_rowid hrow]
  have hexecute : execute t (updateByPrimaryKey M.tableName M.modelDef.primaryKey
      M.modelDef.columns) record.updateParams = .ok ⟨t, 1, none, []⟩ := by
    rw [execute, show M.tableName = M.modelDef.tableName from rfl, hread, updateCommand_eq]
    simp only [Table.run, if_pos h.name.symm, selected?_updateParams h, Except.bind, hupdate, hone,
      List.length_singleton]
  rw [Persisted.updateParams] at hexecute
  rw [Persisted.save, if_pos hvalid, hexecute]
  rfl

/-! ## What a save leaves -/

/-- **A table that contains a record**, which is saved again without a
change. -/
structure Holds (t : Table Value) (row : Stored Value) (record : Persisted M) : Prop where
  mem : row ∈ t.rows
  contains : Contains t row record
  admits : t.admits t.rows = true

/-- **A new record that is saved** is in a row of its own. -/
theorem holds_of_save_new (hids : M.names.AreFields) (h : HasColumns M t.toSchema)
    {record : NewRecord M} {saved : Persisted M} (hsave : record.save t = (.ok saved, t')) :
    (PlainTable M.tableName ∧ ∀ column ∈ M.modelDef.columns, PlainTable column.name)
      ∧ ∃ row, t'.toSchema = t.toSchema ∧ t'.rows = t.rows ++ [row]
        ∧ row.rowid ∉ t.rows.map Stored.rowid ∧ Holds t' row saved
        ∧ saved.values = record.values ∧ (M.autoIncrement = false → saved.key = record.key) := by
  obtain ⟨r, hexecute, rfl⟩ := execute_of_save_new hsave
  obtain ⟨⟨htable, hinserted⟩, hinsert⟩ :=
    (execute_insert_eq_ok_iff hids h record r).mp hexecute
  have hcolumns : ∀ c ∈ M.fields.map (·.columnName), PlainTable c := by
    intro c hc
    refine hinserted c ?_
    rw [insertNames_eq]
    split_ifs
    · exact hc
    · exact List.mem_cons_of_mem _ hc
  rw [← columnNames_modelDef] at hcolumns
  obtain ⟨row, hschema, hrows, hnew, hcontains, hsame⟩ := save_new_eq_ok h
    (readCommand_insertCommand htable (List.forall_mem_map.mp hinserted)) hsave
  have hmem : row ∈ r.table.rows := by
    rw [hrows]
    exact List.mem_append_right _ (List.mem_singleton.mpr rfl)
  obtain ⟨-, -, -, -, -, -, -, hadmits⟩ := Table.insertRow_eq_ok hinsert
  exact ⟨⟨htable, List.forall_mem_map.mp hcolumns⟩, row, hschema, hrows, hnew,
    ⟨hmem, hcontains, hadmits⟩, hsame⟩

/-- **A record that is saved again** is in the row that it was in, and no other
row has changed. -/
theorem holds_of_save_persisted (hplain : PlainNames M) (h : HasColumns M t.toSchema)
    {record : Persisted M} (hsave : record.save t = (.ok (), t')) :
    M.validPersisted record.key record.values = true ∧ t'.toSchema = t.toSchema
      ∧ ∃ f : Stored Value → Stored Value, t'.rows = t.rows.map f
        ∧ (∀ row ∈ t.rows, (f row).rowid = row.rowid)
        ∧ (∀ row ∈ t.rows, row.rowid ≠ rowidOf M record.key → f row = row)
        ∧ ∀ row ∈ t.rows, row.rowid = rowidOf M record.key → Holds t' (f row) record := by
  obtain ⟨result, hupdate, rfl, -, hvalid⟩ := updateRows_of_save h
    (readCommand_updateCommand hplain.table hplain.key hplain.columnDefs) hsave
  obtain ⟨hschema, hrows, -, hadmits⟩ := Table.updateRows_eq_ok hupdate
  refine ⟨hvalid, hschema, _, hrows, fun row hrow => ?_, fun row hrow hne => ?_,
    fun row hrow heq => ⟨?_, ?_, hadmits⟩⟩
  · split_ifs
    · exact (changedRow_changes h record hrow).1
    · rfl
  · rw [if_neg (by simpa using hne)]
  · rw [hrows]
    exact List.mem_map_of_mem hrow
  · obtain ⟨hrowid, hvalues⟩ := changedRow_changes h record hrow
    rw [if_pos (decide_eq_true heq)]
    refine ⟨hrowid.trans heq, ?_⟩
    rw [Table.get_of_schema_eq hschema, hschema, hvalues]

end Seekwel.Model
