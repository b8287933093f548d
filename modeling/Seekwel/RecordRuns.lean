import Seekwel.KeyedStore
import Seekwel.SavedAgain

/-!
# Runs of records

Records that are created, changed, deleted, found and reloaded in any order,
by any callers: every operation is one statement, so whatever the callers are
interleaved to is a sequence of operations on the table.

What a table has under a key is what its row reads as (`contents`). For a
model with plain names, the operations implement a store of values under
keys (`implements_store`), so that no run loses a record, brings back a
deleted one, or mixes up the values of two (`runs_implement`). An operation
that fails has no effect on the store, not even a create that leaves a row
behind: its row has no key (`contents_of_left_behind`).
-/

namespace Seekwel.Model

open Sql (Table Stored PlainTable)
open KeyedStore (Store Request Reply)

variable {M : Declaration} {t t' : Table Value}

/-! ## Operations -/

/-- **An operation** on the records of a model. -/
inductive Operation (M : Declaration) where
  | create (record : NewRecord M)
  | update (record : Persisted M)
  | delete (record : Persisted M)
  | find (key : M.primaryKeyType.Carrier)
  | reload (record : Persisted M)

/-- What an operation returns. -/
inductive Answer (M : Declaration) where
  | created (record : Persisted M)
  | updated
  | deleted
  | found (record : Persisted M)
  | failed (e : SaveError)

/-- The answer of an operation that returns a record or an error. -/
def Answer.ofFind : Except Error (Persisted M) → Answer M
  | .ok record => .found record
  | .error e => .failed (.error e)

/-- **Performing an operation**, and the table after it. Reloading a record is
finding it by its key. -/
def Operation.perform (t : Table Value) : Operation M → Answer M × Table Value
  | .create record =>
    match record.save t with
    | (.ok saved, t') => (.created saved, t')
    | (.error e, t') => (.failed e, t')
  | .update record =>
    match record.save t with
    | (.ok (), t') => (.updated, t')
    | (.error e, t') => (.failed e, t')
  | .delete record =>
    match record.delete t with
    | (.ok (), t') => (.deleted, t')
    | (.error e, t') => (.failed (.error e), t')
  | .find key => (Answer.ofFind (Model.find M t key), t)
  | .reload record => (Answer.ofFind (Model.find M t record.key), t)

/-! ## What a table has under a key -/

/-- The row of a key. -/
def rowOf (M : Declaration) (t : Table Value) (key : M.primaryKeyType.Carrier) :
    Option (Stored Value) :=
  t.rows.find? fun row => row.rowid = rowidOf M key

/-- The values of a row, in the order in which they are selected. -/
def cells (M : Declaration) (t : Table Value) (row : Stored Value) : List Value :=
  (M.primaryKeyName :: M.fields.map (·.columnName)).map (t.get sqlValues row)

/-- **What a table has under a key**: the values of the record that its row is
read as. -/
def contents (M : Declaration) (t : Table Value) : Store M.primaryKeyType.Carrier (Values M.fields) :=
  fun key => (rowOf M t key).bind fun row =>
    (fromRow M (cells M t row)).toOption.map (·.values)

/-- **A table whose records can be read**: it is a table of the model, and the
row of every key that a persisted record may have is read as one. -/
structure Sound (M : Declaration) (t : Table Value) : Prop where
  isTable : IsTable M t.toSchema
  readable : ∀ key : M.primaryKeyType.Carrier, 0 ≤ key.1 → rowOf M t key ≠ none →
    contents M t key ≠ none

theorem rowidOf_injective {key key' : M.primaryKeyType.Carrier}
    (h : rowidOf M key = rowidOf M key') : key = key' := by
  have hvalue : M.primaryKeyType.toSqlValue key = M.primaryKeyType.toSqlValue key' :=
    congrArg Value.integer h
  have hread := IntType.fromSqlRow_toSqlValue key
  rw [hvalue, IntType.fromSqlRow_toSqlValue] at hread
  exact (Except.ok.inj hread).symm

theorem rowOf_eq_some_iff {key : M.primaryKeyType.Carrier} {row : Stored Value} :
    rowOf M t key = some row ↔ row ∈ t.rows ∧ row.rowid = rowidOf M key := by
  constructor
  · intro h
    unfold rowOf at h
    have hrowid := List.find?_some
      (p := fun row : Stored Value => decide (row.rowid = rowidOf M key)) h
    exact ⟨List.mem_of_find?_eq_some h, of_decide_eq_true hrowid⟩
  · rintro ⟨hmem, hrowid⟩
    rw [rowOf, ← List.head?_filter, ← hrowid, Table.filter_rowid hmem]
    rfl

theorem rowOf_eq_none_iff {key : M.primaryKeyType.Carrier} :
    rowOf M t key = none ↔ rowidOf M key ∉ t.rows.map Stored.rowid := by
  rw [rowOf, List.find?_eq_none]
  constructor
  · intro h hmem
    obtain ⟨row, hrow, hrowid⟩ := List.mem_map.mp hmem
    exact h row hrow (decide_eq_true hrowid)
  · intro h row hrow hrowid
    exact h (List.mem_map.mpr ⟨row, hrow, of_decide_eq_true hrowid⟩)

/-- The row of a key is read as a record with the key. -/
theorem key_of_fromRow (h : HasColumns M t.toSchema) {row : Stored Value}
    {key : M.primaryKeyType.Carrier} (hrowid : row.rowid = rowidOf M key) {record : Persisted M}
    (hread : fromRow M (cells M t row) = .ok record) : record.key = key := by
  have hcell : t.get sqlValues row M.primaryKeyName = M.primaryKeyType.toSqlValue key := by
    rw [Table.get, if_pos h.key.symm, hrowid]
    rfl
  rw [cells, List.map_cons, hcell, fromRow_eq_ok_iff, IntType.fromSqlRow_toSqlValue] at hread
  exact (Except.ok.inj hread.1).symm

theorem contents_eq_some_iff {key : M.primaryKeyType.Carrier} {values : Values M.fields} :
    contents M t key = some values
      ↔ ∃ row, rowOf M t key = some row
        ∧ ∃ record, fromRow M (cells M t row) = .ok record ∧ record.values = values := by
  rw [contents, Option.bind_eq_some_iff]
  refine exists_congr fun row => and_congr_right fun _ => ?_
  cases fromRow M (cells M t row) with
  | error e => exact iff_of_false (by rintro ⟨⟩) (by rintro ⟨r, hr, -⟩; cases hr)
  | ok record => simp [Except.toOption]

/-- No record has a negative key. -/
theorem contents_of_neg (h : HasColumns M t.toSchema) {key : M.primaryKeyType.Carrier}
    (hkey : key.1 < 0) : contents M t key = none := by
  rw [Option.eq_none_iff_forall_ne_some]
  intro values hvalues
  obtain ⟨row, hrow, record, hread, -⟩ := contents_eq_some_iff.mp hvalues
  have hnonneg := record.nonneg
  rw [key_of_fromRow h (rowOf_eq_some_iff.mp hrow).2 hread] at hnonneg
  omega

/-- What is under a key depends on its row alone. -/
theorem contents_congr (hschema : t'.toSchema = t.toSchema) {key : M.primaryKeyType.Carrier}
    (hrow : rowOf M t' key = rowOf M t key) : contents M t' key = contents M t key := by
  simp only [contents, cells, hrow, Table.get_of_schema_eq hschema]

/-- A row that contains a record is read as it. -/
theorem contents_of_contains (h : IsTable M t.toSchema) {row : Stored Value} (hrow : row ∈ t.rows)
    {record : Persisted M} (hcontains : Contains t row record) :
    contents M t record.key = some record.values := by
  have hkey : t.get sqlValues row M.primaryKeyName = .integer (castI64 record.key.1) := by
    rw [Table.get, if_pos h.key.symm, hcontains.1]
    rfl
  refine contents_eq_some_iff.mpr ⟨row, rowOf_eq_some_iff.mpr ⟨hrow, hcontains.1⟩, record, ?_, rfl⟩
  rw [cells, List.map_cons, hkey, hcontains.2]
  exact fromRow_of_values h record

/-- **Finding a record** is reading the row of its key. -/
theorem find_eq (hp : PlainNames M) (h : HasColumns M t.toSchema)
    (key : M.primaryKeyType.Carrier) :
    find M t key =
      match rowOf M t key with
      | some row => fromRow M (cells M t row)
      | none => .error (.sqlite "Query returned no rows") := by
  have hread := readCommand_selectByPrimaryKey (M := M.modelDef) hp.table hp.key hp.columnDefs
  have hcolumns : ((M.primaryKeyName :: M.fields.map (·.columnName)).all t.hasColumn) = true := by
    rw [List.all_cons, hasColumn_key h, Bool.true_and, List.all_map, List.all_eq_true]
    intro field hfield
    simp [Table.hasColumn, h.columns field hfield]
  have hselected : t.selected? sqlValues [keyValue M key] M.primaryKeyName (.param 1)
      = .ok fun row => decide (row.rowid = rowidOf M key) := selected?_key h rfl
  rw [find, execute, show M.tableName = M.modelDef.tableName from rfl, hread, columnNames_modelDef]
  simp only [Declaration.modelDef, Table.run, if_pos h.name.symm, if_pos hcolumns, hselected,
    Except.bind]
  rw [rowOf, ← List.head?_filter]
  cases t.rows.filter fun row => decide (row.rowid = rowidOf M key) with
  | nil => rfl
  | cons row rest => rfl

/-! ## Single operations -/

/-- A record that is found is what the table has under its key. -/
theorem find_eq_ok_iff (hp : PlainNames M) (h : HasColumns M t.toSchema)
    {key : M.primaryKeyType.Carrier} {record : Persisted M} :
    find M t key = .ok record ↔ record.key = key ∧ contents M t key = some record.values := by
  rw [find_eq hp h, contents_eq_some_iff]
  cases hrow : rowOf M t key with
  | none => exact iff_of_false (fun hfound => by cases hfound) (by rintro ⟨-, row, hnone, -⟩; cases hnone)
  | some row =>
    have hkey := (rowOf_eq_some_iff.mp hrow).2
    constructor
    · intro hread
      exact ⟨key_of_fromRow h hkey hread, row, rfl, record, hread, rfl⟩
    · rintro ⟨rfl, row', hrow', record', hread, hvalues⟩
      obtain rfl := Option.some.inj hrow'
      exact hread.trans (congrArg _ (Persisted.ext (key_of_fromRow h hkey hread) hvalues))

/-- **A row that is added** is under its key, and the others stay. -/
theorem rowOf_of_append {row : Stored Value} (hrows : t'.rows = t.rows ++ [row])
    {key : M.primaryKeyType.Carrier} (hne : row.rowid ≠ rowidOf M key) :
    rowOf M t' key = rowOf M t key := by
  rw [rowOf, hrows, List.find?_append, List.find?_singleton, if_neg (by simpa using hne),
    Option.or_none]
  rfl

/-- The rows of other keys are what others share. -/
theorem rowOf_of_others {rowid : ℤ} (hothers : others t' rowid = others t rowid)
    {key : M.primaryKeyType.Carrier} (hne : rowid ≠ rowidOf M key) :
    rowOf M t' key = rowOf M t key := by
  have hfind : ∀ u : Table Value, rowOf M u key
      = (others u rowid).find? fun row => row.rowid = rowidOf M key := by
    intro u
    rw [rowOf, others, List.find?_filter]
    refine congrFun (congrArg List.find? ?_) _
    funext row
    by_cases hrow : row.rowid = rowidOf M key
    · simp [hrow, hne.symm]
    · simp [hrow]
  rw [hfind, hfind, hothers]

/-- A store of which one key has changed. -/
theorem contents_eq_update {key : M.primaryKeyType.Carrier} {values : Option (Values M.fields)}
    (hkey : contents M t' key = values)
    (hothers : ∀ key', key' ≠ key → contents M t' key' = contents M t key') :
    contents M t' = Function.update (contents M t) key values := by
  funext key'
  by_cases heq : key' = key
  · subst heq
    rw [Function.update_self, hkey]
  · rw [Function.update_of_ne heq, hothers key' heq]

/-- **A create that succeeds** adds its record. -/
theorem contents_of_created (hids : M.names.AreFields) (h : IsTable M t.toSchema)
    {record : NewRecord M} {saved : Persisted M} (hsave : record.save t = (.ok saved, t')) :
    t'.toSchema = t.toSchema ∧ contents M t saved.key = none ∧ saved.values = record.values
      ∧ (M.autoIncrement = false → saved.key = record.key)
      ∧ contents M t' = Function.update (contents M t) saved.key (some record.values)
      ∧ ∀ key, key ≠ saved.key → rowOf M t' key = rowOf M t key := by
  obtain ⟨r, hexecute, rfl⟩ := execute_of_save_new hsave
  obtain ⟨hplain, -⟩ := (execute_insert_eq_ok_iff hids h.hasColumns record r).mp hexecute
  obtain ⟨row, hschema, hrows, hnew, hcontains, hvalues, hkey⟩ := save_new_eq_ok h.hasColumns
    (readCommand_insertCommand hplain.1 (List.forall_mem_map.mp hplain.2)) hsave
  have hmem : row ∈ r.table.rows := hrows ▸ List.mem_append_right _ List.mem_cons_self
  have hfree : rowOf M t saved.key = none := by
    rw [rowOf_eq_none_iff, ← hcontains.1]
    exact hnew
  have hothers : ∀ key, key ≠ saved.key → rowOf M r.table key = rowOf M t key := fun key hne =>
    rowOf_of_append hrows fun heq => hne (rowidOf_injective (hcontains.1.symm.trans heq)).symm
  refine ⟨hschema, ?_, hvalues, hkey, contents_eq_update ?_ ?_, hothers⟩
  · rw [contents, hfree]
    rfl
  · rw [← hvalues]
    exact contents_of_contains (hschema ▸ h) hmem hcontains
  · exact fun key hne => contents_congr hschema (hothers key hne)

/-- A key fits if it is that of the rowid. -/
theorem keyFits_of_rowidOf {record : NewRecord M} {key : M.primaryKeyType.Carrier}
    (hkey : 0 ≤ key.1) (h : record.rowid t = rowidOf M key) : KeyFits t record := by
  unfold KeyFits NewRecord.rowid at *
  split_ifs at h ⊢
  · rw [h, rowidOf, castU64_castI64 (holds_u64_iff.mpr ⟨hkey, key.2.lt⟩)]
    exact key.2
  · rw [rowidOf_injective h]
    exact hkey

/-- **A row that a create leaves behind** is the row of no key. -/
theorem contents_of_left_behind (hids : M.names.AreFields) (h : HasColumns M t.toSchema)
    {record : NewRecord M} {e : SaveError} (hsave : record.save t = (.error e, t')) :
    t'.toSchema = t.toSchema ∧ contents M t' = contents M t
      ∧ ∀ key : M.primaryKeyType.Carrier, 0 ≤ key.1 → rowOf M t' key = rowOf M t key := by
  unfold NewRecord.save insertRecord at hsave
  split_ifs at hsave
  case neg =>
    obtain ⟨-, rfl⟩ := Prod.mk.inj hsave
    exact ⟨rfl, rfl, fun _ _ => rfl⟩
  cases hexecute : execute t (insert M.tableName M.modelDef.insertColumns)
      record.insertParams with
  | error e =>
    rw [hexecute] at hsave
    obtain ⟨-, rfl⟩ := Prod.mk.inj hsave
    exact ⟨rfl, rfl, fun _ _ => rfl⟩
  | ok r =>
    rw [hexecute] at hsave
    obtain ⟨hinto, rfl⟩ := Prod.mk.inj hsave
    have haccepts := (exists_insertRecord_iff hids h record).mp ⟨r, hexecute⟩
    have hinsert := ((execute_insert_eq_ok_iff hids h record r).mp hexecute).2
    obtain ⟨rowid, hgiven, -, -, hrowid, hschema, hrows, -⟩ := Table.insertRow_eq_ok hinsert
    obtain rfl : record.rowid t = rowid :=
      Except.ok.inj ((givenRowid_eq h record).symm.trans hgiven)
    rw [hrowid, Option.getD_some] at hinto
    have hunfit : ¬ KeyFits t record := by
      rw [← exists_intoPersisted_rowid_iff haccepts.isRowid]
      rintro ⟨saved, hsaved⟩
      rw [hsaved] at hinto
      cases hinto
    have hne : ∀ key : M.primaryKeyType.Carrier, 0 ≤ key.1 → record.rowid t ≠ rowidOf M key :=
      fun key hkey heq => hunfit (keyFits_of_rowidOf hkey heq)
    have hrow : ∀ key : M.primaryKeyType.Carrier, 0 ≤ key.1 →
        rowOf M r.table key = rowOf M t key := fun key hkey => rowOf_of_append hrows (hne key hkey)
    refine ⟨hschema, funext fun key => ?_, hrow⟩
    by_cases hkey : 0 ≤ key.1
    · exact contents_congr hschema (hrow key hkey)
    · rw [contents_of_neg (hschema ▸ h) (not_le.mp hkey), contents_of_neg h (not_le.mp hkey)]

/-- **Saving a persisted record** is changing the row of its key. -/
theorem save_eq (hp : PlainNames M) (h : HasColumns M t.toSchema) (record : Persisted M) :
    record.save t =
      if M.validPersisted record.key record.values then
        match t.updateRows sqlValues record.updateParams (changes M)
            (fun row => decide (row.rowid = rowidOf M record.key)) with
        | .ok result =>
          if result.changes = 0 then
            (.error (.error (.sqlite "Query returned no rows")), result.table)
          else (.ok (), result.table)
        | .error message => (.error (.error (.sqlite message)), t)
      else (.error .invalid, t) := by
  have hread := readCommand_updateCommand (M := M.modelDef) hp.table hp.key hp.columnDefs
  unfold Persisted.save execute
  rw [show M.tableName = M.modelDef.tableName from rfl, hread, updateCommand_eq,
    show params M.fields record.values ++ [keyValue M record.key] = record.updateParams from rfl]
  simp only [Table.run, if_pos h.name.symm, selected?_updateParams h, Except.bind]
  cases t.updateRows sqlValues record.updateParams (changes M)
      (fun row => decide (row.rowid = rowidOf M record.key)) with
  | error message => rfl
  | ok result => rfl

/-- **Deleting a record** is removing the row of its key. -/
theorem delete_eq (hp : PlainNames M) (h : HasColumns M t.toSchema) (record : Persisted M) :
    record.delete t =
      match t.deleteRows (fun row => decide (row.rowid = rowidOf M record.key)) with
      | .ok result =>
        if result.changes = 0 then (.error (.sqlite "Query returned no rows"), result.table)
        else (.ok (), result.table)
      | .error message => (.error (.sqlite message), t) := by
  have hread := readCommand_deleteByPrimaryKey (M := M.modelDef) hp.table hp.key
  have hselected : t.selected? sqlValues [keyValue M record.key] M.primaryKeyName (.param 1)
      = .ok fun row => decide (row.rowid = rowidOf M record.key) := selected?_key h rfl
  unfold Persisted.delete execute
  rw [show M.tableName = M.modelDef.tableName from rfl, hread]
  simp only [Declaration.modelDef, Table.run, if_pos h.name.symm, hselected, Except.bind]
  cases t.deleteRows (fun row => decide (row.rowid = rowidOf M record.key)) with
  | error message => rfl
  | ok result => rfl

/-- The row of a key is the only one that is selected by it. -/
theorem filter_key_eq_nil_iff {key : M.primaryKeyType.Carrier} :
    t.rows.filter (fun row => decide (row.rowid = rowidOf M key)) = [] ↔ rowOf M t key = none := by
  rw [List.filter_eq_nil_iff, rowOf, List.find?_eq_none]

/-- A statement about the row of a key that there is none of. -/
theorem eq_of_no_rows {rowid : ℤ} (hnone : t.rows.filter (fun row => decide (row.rowid = rowid)) = [])
    (hschema : t'.toSchema = t.toSchema) (f : Stored Value → Stored Value)
    (hrows : t'.rows = t.rows.map fun row => if decide (row.rowid = rowid) then f row else row) :
    t' = t := by
  refine Table.eq_of_rows hschema ?_
  rw [hrows]
  conv => rhs; rw [← List.map_id t.rows]
  refine List.map_congr_left fun row hrow => ?_
  rw [if_neg (List.filter_eq_nil_iff.mp hnone row hrow), id]

/-- **An update that succeeds** replaces its record. -/
theorem contents_of_updated (hp : PlainNames M) (h : IsTable M t.toSchema) {record : Persisted M}
    (hsave : record.save t = (.ok (), t')) :
    t'.toSchema = t.toSchema ∧ rowOf M t record.key ≠ none
      ∧ contents M t' = Function.update (contents M t) record.key (some record.values)
      ∧ ∀ key, key ≠ record.key → rowOf M t' key = rowOf M t key := by
  have hread := readCommand_updateCommand (M := M.modelDef) hp.table hp.key hp.columnDefs
  obtain ⟨hschema, ⟨row, hrow, hcontains⟩, hothers⟩ :=
    save_persisted_eq_ok h.hasColumns hread hsave
  obtain ⟨result, hupdate, rfl, hchanges, -⟩ := updateRows_of_save h.hasColumns hread hsave
  have hrest : ∀ key, key ≠ record.key → rowOf M result.table key = rowOf M t key :=
    fun key hne => rowOf_of_others hothers fun heq => hne (rowidOf_injective heq).symm
  refine ⟨hschema, ?_, contents_eq_update ?_ ?_, hrest⟩
  · rwa [(Table.updateRows_eq_ok hupdate).2.2.1, Ne, List.length_eq_zero_iff,
      filter_key_eq_nil_iff] at hchanges
  · exact contents_of_contains (hschema ▸ h) hrow hcontains
  · exact fun key hne => contents_congr hschema (hrest key hne)

/-- An update that fails changes nothing. -/
theorem eq_of_not_updated (hp : PlainNames M) (h : HasColumns M t.toSchema)
    {record : Persisted M} {e : SaveError} (hsave : record.save t = (.error e, t')) : t' = t := by
  rw [save_eq hp h] at hsave
  split_ifs at hsave
  case neg => exact (Prod.mk.inj hsave).2.symm
  cases hupdate : t.updateRows sqlValues record.updateParams (changes M)
      (fun row => decide (row.rowid = rowidOf M record.key)) with
  | error message =>
    rw [hupdate] at hsave
    exact (Prod.mk.inj hsave).2.symm
  | ok result =>
    rw [hupdate] at hsave
    obtain ⟨hschema, hrows, hchanges, -⟩ := Table.updateRows_eq_ok hupdate
    dsimp only at hsave
    split_ifs at hsave with hzero
    · obtain rfl := (Prod.mk.inj hsave).2
      rw [hchanges, List.length_eq_zero_iff] at hzero
      exact eq_of_no_rows hzero hschema _ hrows
    · cases hsave

/-- **A delete that succeeds** removes its record. -/
theorem contents_of_deleted (hp : PlainNames M) (h : HasColumns M t.toSchema)
    {record : Persisted M} (hdelete : record.delete t = (.ok (), t')) :
    t'.toSchema = t.toSchema ∧ rowOf M t record.key ≠ none
      ∧ contents M t' = Function.update (contents M t) record.key none
      ∧ rowOf M t' record.key = none
      ∧ ∀ key, key ≠ record.key → rowOf M t' key = rowOf M t key := by
  rw [delete_eq hp h] at hdelete
  cases hrows : t.deleteRows (fun row => decide (row.rowid = rowidOf M record.key)) with
  | error message =>
    rw [hrows] at hdelete
    cases hdelete
  | ok result =>
    rw [hrows] at hdelete
    obtain ⟨hschema, hrest, hchanges⟩ := Table.deleteRows_eq_ok hrows
    dsimp only at hdelete
    split_ifs at hdelete with hzero
    · cases hdelete
    obtain rfl : result.table = t' := (Prod.mk.inj hdelete).2
    rw [hchanges, List.length_eq_zero_iff, filter_key_eq_nil_iff] at hzero
    have hgone : rowOf M result.table record.key = none := by
      rw [rowOf, hrest, List.find?_eq_none]
      intro row hrow
      simpa using (List.mem_filter.mp hrow).2
    have hothers : others result.table (rowidOf M record.key) = others t (rowidOf M record.key) := by
      rw [others, hrest, List.filter_filter]
      refine List.filter_congr fun row _ => ?_
      simp
    have hother : ∀ key, key ≠ record.key → rowOf M result.table key = rowOf M t key :=
      fun key hne => rowOf_of_others hothers fun heq => hne (rowidOf_injective heq).symm
    refine ⟨hschema, hzero, contents_eq_update ?_ ?_, hgone, hother⟩
    · rw [contents, hgone]
      rfl
    · exact fun key hne => contents_congr hschema (hother key hne)

/-- A delete that fails changes nothing. -/
theorem eq_of_not_deleted (hp : PlainNames M) (h : HasColumns M t.toSchema)
    {record : Persisted M} {e : Error} (hdelete : record.delete t = (.error e, t')) : t' = t := by
  rw [delete_eq hp h] at hdelete
  cases hrows : t.deleteRows (fun row => decide (row.rowid = rowidOf M record.key)) with
  | error message =>
    rw [hrows] at hdelete
    exact (Prod.mk.inj hdelete).2.symm
  | ok result =>
    rw [hrows] at hdelete
    obtain ⟨hschema, hrest, hchanges⟩ := Table.deleteRows_eq_ok hrows
    dsimp only at hdelete
    split_ifs at hdelete with hzero
    · obtain rfl := (Prod.mk.inj hdelete).2
      rw [hchanges, List.length_eq_zero_iff] at hzero
      refine Table.eq_of_rows hschema ?_
      rw [hrest, List.filter_eq_self]
      intro row hrow
      simpa using List.filter_eq_nil_iff.mp hzero row hrow
    · cases hdelete

/-! ## What may fail -/

/-- A table whose only constraint is its key. -/
def Unconstrained (schema : Sql.Schema Value) : Prop := ∀ rows, schema.admits rows = true

/-- **What may fail for reasons apart from the records**: a record that is
not valid, a key that cannot be generated or has no association id, and a
constraint of the table. -/
def Operation.MayFail (schema : Sql.Schema Value) : Operation M → Prop
  | .create record => M.autoIncrement = true ∨ record.key.1 < 0
      ∨ M.validNew record.key record.values = false ∨ ¬ Unconstrained schema
  | .update record => M.validPersisted record.key record.values = false ∨ ¬ Unconstrained schema
  | .delete _ => ¬ Unconstrained schema
  | .find _ | .reload _ => False

theorem areFields_of_plain (hp : PlainNames M) (h : HasColumns M t.toSchema) :
    M.names.AreFields where
  key := hp.key.1
  columns := List.forall_mem_map.mpr fun field hfield => (hp.columns field hfield).1
  nodup := h.nodup
  key_not_mem := h.key_not_mem

/-- A valid record is created under a key that is free. -/
theorem exists_created (hp : PlainNames M) (h : HasColumns M t.toSchema) {record : NewRecord M}
    (hauto : M.autoIncrement = false) (hkey : 0 ≤ record.key.1)
    (hvalid : M.validNew record.key record.values = true) (hfree : rowOf M t record.key = none)
    (hunconstrained : Unconstrained t.toSchema) : ∃ saved t', record.save t = (.ok saved, t') := by
  have hids := areFields_of_plain hp h
  have hrowid : record.rowid t = rowidOf M record.key := by
    rw [NewRecord.rowid, hauto, if_neg Bool.false_ne_true]
  have hrange : Sql.IsRowid (record.rowid t) := by
    rw [hrowid]
    exact holds_i64_iff.mp (castI64_mem _)
  have haccepts : Accepts t record := {
    table := hp.table
    columns := forall_mem_insertNames hp.key.plainTable fun column hcolumn =>
      (hp.columnDefs column hcolumn).plainTable
    free := by rwa [hrowid, ← rowOf_eq_none_iff]
    isRowid := hrange
    admits := hunconstrained _ }
  have hfits : KeyFits t record := by
    rw [KeyFits, hauto, if_neg Bool.false_ne_true]
    exact hkey
  obtain ⟨e, -, hnot⟩ | ⟨t', row, -, -, hsave, -, -⟩ := save_cases hids h record
  · exact absurd ⟨hvalid, haccepts⟩ hnot
  · obtain ⟨saved, hsaved⟩ := (exists_intoPersisted_rowid_iff hrange).mpr hfits
    rw [hsaved] at hsave
    exact ⟨saved, t', hsave⟩

/-- A valid record is saved in its row. -/
theorem exists_updated (hp : PlainNames M) (h : HasColumns M t.toSchema) {record : Persisted M}
    (hvalid : M.validPersisted record.key record.values = true)
    (hrow : rowOf M t record.key ≠ none) (hunconstrained : Unconstrained t.toSchema) :
    ∃ t', record.save t = (.ok (), t') := by
  have hrowids : ∀ row, (t.changedRow sqlValues record.updateParams (changes M) row).rowid
      = row.rowid := fun row => by
    rw [Table.changedRow, changedRowid_changes h, Option.getD_some]
  have hmap : (t.changedRows sqlValues record.updateParams (changes M)
      fun row => decide (row.rowid = rowidOf M record.key)).map Stored.rowid
      = t.rows.map Stored.rowid := by
    rw [Table.changedRows, List.map_map]
    refine List.map_congr_left fun row _ => ?_
    dsimp only [Function.comp]
    split_ifs
    · exact hrowids row
    · rfl
  have hvalidRows : ((t.changedRows sqlValues record.updateParams (changes M)
        fun row => decide (row.rowid = rowidOf M record.key)).map Stored.rowid).Nodup
      ∧ ∀ row ∈ t.changedRows sqlValues record.updateParams (changes M)
          (fun row => decide (row.rowid = rowidOf M record.key)), Sql.IsRowid row.rowid := by
    rw [hmap]
    refine ⟨t.hasRows.nodup, List.forall_mem_map.mp ?_⟩
    rw [hmap]
    exact List.forall_mem_map.mpr t.hasRows.isRowid
  have hall : ((t.rows.filter fun row => decide (row.rowid = rowidOf M record.key)).all fun row =>
      (t.changedRowid sqlValues record.updateParams (changes M) row).isSome) = true := by
    rw [List.all_eq_true]
    intro row _
    rw [changedRowid_changes h, Option.isSome_some]
  rw [save_eq hp h, if_pos hvalid, Table.updateRows, if_pos (all_hasColumn_changes h),
    if_pos hall, dif_pos hvalidRows, if_pos (hunconstrained _)]
  rw [Ne, ← filter_key_eq_nil_iff, ← List.length_eq_zero_iff] at hrow
  exact ⟨_, if_neg hrow⟩

/-- A record is deleted if it has a row. -/
theorem exists_deleted (hp : PlainNames M) (h : HasColumns M t.toSchema) {record : Persisted M}
    (hrow : rowOf M t record.key ≠ none) (hunconstrained : Unconstrained t.toSchema) :
    ∃ t', record.delete t = (.ok (), t') := by
  rw [delete_eq hp h, Table.deleteRows, if_pos (hunconstrained _)]
  rw [Ne, ← filter_key_eq_nil_iff, ← List.length_eq_zero_iff] at hrow
  exact ⟨_, if_neg hrow⟩

/-! ## The store that is implemented -/

/-- **The operations on records** as requests to a store. A key that is
generated is chosen by the store. -/
def storeInterface (M : Declaration) (schema : Sql.Schema Value) :
    KeyedStore.Interface (Operation M) (Answer M) M.primaryKeyType.Carrier (Values M.fields) where
  request
    | .create record => .add (if M.autoIncrement then none else some record.key) record.values
    | .update record => .replace record.key record.values
    | .delete record => .remove record.key
    | .find key => .get key
    | .reload record => .get record.key
  reply
    | .created record => .added record.key record.values
    | .updated => .replaced
    | .deleted => .removed
    | .found record => .got record.key record.values
    | .failed _ => .refused
  mayRefuse := Operation.MayFail schema

/-- **What one operation does**, as a request to the store. -/
structure Operation.IsStep (op : Operation M) (t : Table Value) : Prop where
  right : (contents M t).Right (op.MayFail t.toSchema)
    ((storeInterface M t.toSchema).request op)
    ((storeInterface M t.toSchema).reply (op.perform t).1)
  after : contents M (op.perform t).2
    = (contents M t).after ((storeInterface M t.toSchema).request op)
        ((storeInterface M t.toSchema).reply (op.perform t).1)
  schema : (op.perform t).2.toSchema = t.toSchema
  sound : Sound M (op.perform t).2

theorem contents_of_rowOf {key : M.primaryKeyType.Carrier} (h : rowOf M t key = none) :
    contents M t key = none := by
  rw [contents, h]
  rfl

/-- The rows that can be read, if each row is an old one or that of a record
that the table has. -/
theorem Sound.of_rowOf (h : Sound M t) (hschema : t'.toSchema = t.toSchema)
    (hrow : ∀ key : M.primaryKeyType.Carrier, 0 ≤ key.1 →
      rowOf M t' key = rowOf M t key ∨ rowOf M t' key = none ∨ contents M t' key ≠ none) :
    Sound M t' where
  isTable := hschema ▸ h.isTable
  readable key hkey hne := by
    obtain heq | hnone | hsome := hrow key hkey
    · rw [contents_congr hschema heq]
      exact h.readable key hkey (heq ▸ hne)
    · exact absurd hnone hne
    · exact hsome

theorem contents_ne_none_of_update {key : M.primaryKeyType.Carrier} {values : Values M.fields}
    (h : contents M t' = Function.update (contents M t) key (some values)) :
    contents M t' key ≠ none := by
  rw [h, Function.update_self]
  exact Option.some_ne_none _

theorem isStep_create (hp : PlainNames M) (h : Sound M t) (record : NewRecord M) :
    (Operation.create record).IsStep t := by
  have hids := areFields_of_plain hp h.isTable.hasColumns
  rcases hsave : record.save t with ⟨e | saved, t'⟩
  · -- a create that fails leaves at most a row without a key
    obtain ⟨hschema, hcontents, hrow⟩ := contents_of_left_behind hids h.isTable.hasColumns hsave
    have hperform : (Operation.create record).perform t = (.failed e, t') := by
      rw [Operation.perform, hsave]
    constructor
    · rw [hperform]
      by_cases hmay : (Operation.create record).MayFail t.toSchema
      · exact Or.inl hmay
      · simp only [Operation.MayFail, not_or, Bool.not_eq_true, Bool.not_eq_false, not_lt,
          not_not] at hmay
        obtain ⟨hauto, hkey, hvalid, hunconstrained⟩ := hmay
        refine Or.inr fun hcan => ?_
        have hnone : contents M t record.key = none := hcan _ (by simp [hauto])
        have hfree : rowOf M t record.key = none := by
          by_contra htaken
          exact h.readable _ hkey htaken hnone
        obtain ⟨saved, t'', hsaved⟩ :=
          exists_created hp h.isTable.hasColumns hauto hkey hvalid hfree hunconstrained
        rw [hsave] at hsaved
        cases hsaved
    · rw [hperform]
      exact hcontents
    · rw [hperform]
      exact hschema
    · rw [hperform]
      exact h.of_rowOf hschema fun key hkey => Or.inl (hrow key hkey)
  · obtain ⟨hschema, hfree, hvalues, hkey, hcontents, hrow⟩ :=
      contents_of_created hids h.isTable hsave
    have hperform : (Operation.create record).perform t = (.created saved, t') := by
      rw [Operation.perform, hsave]
    constructor
    · rw [hperform]
      refine ⟨hfree, fun k hk => ?_, hvalues⟩
      split_ifs at hk with hauto
      · cases hk
      · obtain rfl := Option.mem_some.mp hk
        exact (hkey (Bool.eq_false_iff.mpr hauto)).symm
    · rw [hperform]
      exact hcontents
    · rw [hperform]
      exact hschema
    · rw [hperform]
      refine h.of_rowOf hschema fun key _ => ?_
      by_cases heq : key = saved.key
      · exact Or.inr (Or.inr (heq ▸ contents_ne_none_of_update hcontents))
      · exact Or.inl (hrow key heq)

theorem isStep_update (hp : PlainNames M) (h : Sound M t) (record : Persisted M) :
    (Operation.update record).IsStep t := by
  rcases hsave : record.save t with ⟨e | ⟨⟩, t'⟩
  · have hperform : (Operation.update record).perform t = (.failed e, t) := by
      rw [Operation.perform, hsave, eq_of_not_updated hp h.isTable.hasColumns hsave]
    constructor
    · rw [hperform]
      by_cases hmay : (Operation.update record).MayFail t.toSchema
      · exact Or.inl hmay
      · simp only [Operation.MayFail, not_or, Bool.not_eq_false, not_not] at hmay
        refine Or.inr fun hcan => hcan (contents_of_rowOf ?_)
        by_contra hrow
        obtain ⟨t'', hupdated⟩ := exists_updated hp h.isTable.hasColumns hmay.1 hrow hmay.2
        rw [hsave] at hupdated
        cases hupdated
    · rw [hperform]
      rfl
    · rw [hperform]
    · rw [hperform]
      exact h
  · obtain ⟨hschema, htaken, hcontents, hrow⟩ := contents_of_updated hp h.isTable hsave
    have hperform : (Operation.update record).perform t = (.updated, t') := by
      rw [Operation.perform, hsave]
    constructor
    · rw [hperform]
      exact h.readable _ record.nonneg htaken
    · rw [hperform]
      exact hcontents
    · rw [hperform]
      exact hschema
    · rw [hperform]
      refine h.of_rowOf hschema fun key _ => ?_
      by_cases heq : key = record.key
      · exact Or.inr (Or.inr (heq ▸ contents_ne_none_of_update hcontents))
      · exact Or.inl (hrow key heq)

theorem isStep_delete (hp : PlainNames M) (h : Sound M t) (record : Persisted M) :
    (Operation.delete record).IsStep t := by
  rcases hdelete : record.delete t with ⟨e | ⟨⟩, t'⟩
  · have hperform : (Operation.delete record).perform t = (.failed (.error e), t) := by
      rw [Operation.perform, hdelete, eq_of_not_deleted hp h.isTable.hasColumns hdelete]
    constructor
    · rw [hperform]
      by_cases hmay : (Operation.delete record).MayFail t.toSchema
      · exact Or.inl hmay
      · refine Or.inr fun hcan => hcan (contents_of_rowOf ?_)
        by_contra hrow
        obtain ⟨t'', hdeleted⟩ :=
          exists_deleted hp h.isTable.hasColumns hrow (not_not.mp hmay)
        rw [hdelete] at hdeleted
        cases hdeleted
    · rw [hperform]
      rfl
    · rw [hperform]
    · rw [hperform]
      exact h
  · obtain ⟨hschema, htaken, hcontents, hgone, hrow⟩ :=
      contents_of_deleted hp h.isTable.hasColumns hdelete
    have hperform : (Operation.delete record).perform t = (.deleted, t') := by
      rw [Operation.perform, hdelete]
    constructor
    · rw [hperform]
      exact h.readable _ record.nonneg htaken
    · rw [hperform]
      exact hcontents
    · rw [hperform]
      exact hschema
    · rw [hperform]
      refine h.of_rowOf hschema fun key _ => ?_
      by_cases heq : key = record.key
      · exact Or.inr (Or.inl (heq ▸ hgone))
      · exact Or.inl (hrow key heq)

/-- What is found is right. -/
theorem right_ofFind (hp : PlainNames M) (h : HasColumns M t.toSchema)
    (key : M.primaryKeyType.Carrier) :
    (contents M t).Right False (.get key)
      ((storeInterface M t.toSchema).reply (Answer.ofFind (find M t key))) := by
  cases hfind : find M t key with
  | ok record =>
    obtain ⟨hkey, hvalues⟩ := (find_eq_ok_iff hp h).mp hfind
    exact ⟨hkey, hvalues⟩
  | error e =>
    refine Or.inr fun hsome => ?_
    obtain ⟨values, hvalues⟩ := Option.ne_none_iff_exists'.mp hsome
    have hnonneg : 0 ≤ key.1 := not_lt.mp fun hneg => by
      rw [contents_of_neg h hneg] at hvalues
      cases hvalues
    have hfound : find M t key = .ok ⟨key, values, hnonneg⟩ :=
      (find_eq_ok_iff hp h).mpr ⟨rfl, hvalues⟩
    rw [hfind] at hfound
    cases hfound

/-- Finding a record changes nothing. -/
theorem after_ofFind (key : M.primaryKeyType.Carrier) (found : Except Error (Persisted M)) :
    (contents M t).after (.get key) ((storeInterface M t.toSchema).reply (Answer.ofFind found))
      = contents M t := by
  cases found <;> rfl

/-- **Every operation is a step of the store.** -/
theorem isStep (hp : PlainNames M) (h : Sound M t) (op : Operation M) : op.IsStep t := by
  cases op with
  | create record => exact isStep_create hp h record
  | update record => exact isStep_update hp h record
  | delete record => exact isStep_delete hp h record
  | find key =>
    exact ⟨right_ofFind hp h.isTable.hasColumns key, (after_ofFind key _).symm, rfl, h⟩
  | reload record =>
    exact ⟨right_ofFind hp h.isTable.hasColumns record.key, (after_ofFind record.key _).symm, rfl, h⟩

/-- **The operations on records implement a store.** -/
theorem implements_store (hp : PlainNames M) (schema : Sql.Schema Value) :
    KeyedStore.Implements (storeInterface M schema) Operation.perform
      (fun t => Sound M t ∧ t.toSchema = schema) (contents M) where
  right := by
    rintro t op ⟨h, rfl⟩
    exact (isStep hp h op).right
  after := by
    rintro t op ⟨h, rfl⟩
    exact (isStep hp h op).after
  inv := by
    rintro t op ⟨h, rfl⟩
    exact ⟨(isStep hp h op).sound, (isStep hp h op).schema⟩

/-- Movies with a title. -/
def movie : Declaration := untyped (oneField "movie" "title")

def emptyMovies : Table Value := emptyTable (oneField "movie" "title")

theorem plainNames_movie : PlainNames movie :=
  ⟨by decide, by decide, List.forall_mem_singleton.mpr (by decide)⟩

/-- An empty table of a model has no row that could not be read. -/
theorem sound_of_empty (h : IsTable M t.toSchema) (hempty : t.rows = []) : Sound M t where
  isTable := h
  readable key _ hrow := by
    rw [rowOf, hempty] at hrow
    exact absurd rfl hrow

theorem sound_emptyMovies : Sound movie emptyMovies :=
  sound_of_empty (isTable_emptyTable ⟨by decide, by decide, by decide, by decide⟩) rfl

theorem holds_one : IntType.i64.Holds 1 := by decide

def movieKey : IntType.i64.Carrier := ⟨1, holds_one⟩

theorem movieKey_nonneg : 0 ≤ movieKey.1 := Int.one_nonneg

def movieValues (title : String) : Values movie.fields := (.text title, ())

/-- A movie with the first key. -/
def savedMovie (title : String) : Persisted movie :=
  ⟨movieKey, movieValues title, movieKey_nonneg⟩

/-- A movie is created, found, renamed and deleted, and then looked for. -/
def movieOperations : List (Operation movie) :=
  [.create ⟨movieKey, movieValues "Stalker"⟩, .find movieKey, .update (savedMovie "Mirror"),
    .delete (savedMovie "Mirror"), .find movieKey]

end Seekwel.Model
