import Seekwel.RoundTrip

/-!
# A create that fails

Saving a new record inserts its row and then converts the rowid to the key
and the key to an association id. These conversions may fail, and the row has
been written by then: `save` returns an error and the table has one more row.
That is what happens to a record with a negative key, and to one whose
generated key does not fit into its type (`unfit_key_left_behind`).

An error before the insertion, or of the insertion itself, leaves the table as
it was. So `save` fails cleanly exactly if the key fits whenever SQLite accepts
the row (`failsCleanly_iff`).
-/

namespace Seekwel.Model

open Sql (Table Result Stored PlainTable)

variable {M : Declaration} {t : Table Value}

/-! ## What a create should do -/

/-- **A create that fails inserts nothing**, and one that succeeds inserts a
row that is read as the record it returns. A generated rowid is the one that
comes after the others. -/
structure FailsCleanly (record : NewRecord M) (t : Table Value) : Prop where
  failed : ∀ e t', record.save t = (.error e, t') → t' = t
  saved : ∀ saved t', record.save t = (.ok saved, t') → ∃ row, t'.rows = t.rows ++ [row]
    ∧ fromRow M ((M.primaryKeyName :: M.fields.map (·.columnName)).map (t'.get sqlValues row))
      = .ok saved
    ∧ (M.autoIncrement = true → row.rowid = t.nextRowid)

/-- The rowid that a record is given. -/
def NewRecord.rowid (record : NewRecord M) (t : Table Value) : ℤ :=
  if M.autoIncrement then t.nextRowid else rowidOf M record.key

/-- The values of a record under the names of their columns. -/
def NewRecord.given (record : NewRecord M) : List (String × Value) :=
  (insertNames M).zip record.insertParams

/-- **SQLite accepts a record**: it takes the names for names, and the row may
be added to the table. -/
structure Accepts (t : Table Value) (record : NewRecord M) : Prop where
  table : PlainTable M.tableName
  columns : ∀ c ∈ insertNames M, PlainTable c
  free : record.rowid t ∉ t.rows.map Stored.rowid
  isRowid : Sql.IsRowid (record.rowid t)
  admits : t.admits (t.rows ++ [t.newRow record.given (record.rowid t)]) = true

/-- **The key of a record fits**: a generated one into its type, and a given
one into the association ids. -/
def KeyFits (t : Table Value) (record : NewRecord M) : Prop :=
  if M.autoIncrement then M.primaryKeyType.Holds (castU64 t.nextRowid) else 0 ≤ record.key.1

/-! ## The insertion -/

theorem givenRowid_eq (h : HasColumns M t.toSchema) (record : NewRecord M) :
    t.givenRowid sqlValues record.given = .ok (record.rowid t) := by
  unfold NewRecord.given NewRecord.rowid
  rw [insertNames_eq, NewRecord.insertParams, Table.givenRowid, h.key]
  split_ifs
  · rw [Sql.lookup_zip_of_not_mem h.key_not_mem]
  · rw [List.zip_cons_cons, List.lookup_cons_self]
    rfl

theorem all_hasColumn (h : HasColumns M t.toSchema) (record : NewRecord M) :
    (record.given.all fun p => t.hasColumn p.1) = true := by
  have hfields : ∀ c ∈ M.fields.map (·.columnName), t.hasColumn c = true :=
    List.forall_mem_map.mpr fun field hfield => by
      simp [Table.hasColumn, h.columns field hfield]
  have hnames : ∀ c ∈ insertNames M, t.hasColumn c = true := by
    rw [insertNames_eq]
    split_ifs
    · exact hfields
    · exact List.forall_mem_cons.mpr ⟨hasColumn_key h, hfields⟩
  rw [List.all_eq_true]
  exact fun p hp => hnames _ (List.of_mem_zip hp).1

/-- **When the row is inserted.** -/
theorem exists_insertRow_iff (h : HasColumns M t.toSchema) (record : NewRecord M) :
    (∃ r, t.insertRow sqlValues record.given = .ok r)
      ↔ (record.rowid t ∉ t.rows.map Stored.rowid ∧ Sql.IsRowid (record.rowid t))
        ∧ t.admits (t.rows ++ [t.newRow record.given (record.rowid t)]) = true := by
  rw [Table.insertRow, if_pos (all_hasColumn h record), givenRowid_eq h]
  simp only [Except.bind]
  split_ifs with hfree hadmits
  · exact iff_of_true ⟨_, rfl⟩ ⟨hfree, hadmits⟩
  · exact iff_of_false (by rintro ⟨r, hr⟩; cases hr) fun hall => hadmits hall.2
  · exact iff_of_false (by rintro ⟨r, hr⟩; cases hr) fun hall => hfree hall.1

/-- **What an insertion does**: under names that it takes for names, it inserts
the row. -/
theorem execute_insert_eq_ok_iff (hids : M.names.AreFields) (h : HasColumns M t.toSchema)
    (record : NewRecord M) (r : Result Value) :
    execute t (insert M.tableName M.modelDef.insertColumns) record.insertParams = .ok r
      ↔ (PlainTable M.tableName ∧ ∀ c ∈ insertNames M, PlainTable c)
        ∧ t.insertRow sqlValues record.given = .ok r := by
  have hread : (PlainTable M.tableName ∧ ∀ c ∈ insertNames M, PlainTable c) →
      Sql.readCommand (insert M.tableName M.modelDef.insertColumns)
        = some M.modelDef.insertCommand := fun hplain =>
    readCommand_insertCommand hplain.1 (List.forall_mem_map.mp hplain.2)
  have hrun := run_insertCommand h record
  constructor
  · intro hexecute
    obtain ⟨c, hc, htable, hok⟩ := execute_eq_ok hexecute
    obtain ⟨htable, hcolumns⟩ := plain_of_insert hids.insertColumns hc (htable.trans h.name)
    have hplain : PlainTable M.tableName ∧ ∀ c ∈ insertNames M, PlainTable c :=
      ⟨htable, List.forall_mem_map.mpr hcolumns⟩
    rw [hread hplain] at hc
    obtain rfl := Option.some.inj hc
    exact ⟨hplain, hrun.symm.trans hok⟩
  · rintro ⟨hplain, hinsert⟩
    rw [execute, hread hplain]
    simp only [hrun]
    rw [show (insertNames M).zip record.insertParams = record.given from rfl, hinsert]

/-- **The insertion succeeds** exactly if SQLite accepts the record. -/
theorem exists_insertRecord_iff (hids : M.names.AreFields) (h : HasColumns M t.toSchema)
    (record : NewRecord M) :
    (∃ r, execute t (insert M.tableName M.modelDef.insertColumns) record.insertParams = .ok r)
      ↔ Accepts t record := by
  simp only [execute_insert_eq_ok_iff hids h, exists_and_left, exists_insertRow_iff h]
  exact ⟨fun hall => ⟨hall.1.1, hall.1.2, hall.2.1.1, hall.2.1.2, hall.2.2⟩,
    fun hall => ⟨⟨hall.table, hall.columns⟩, ⟨hall.free, hall.isRowid⟩, hall.admits⟩⟩

/-! ## The conversions -/

theorem exists_toAssociationId_iff {k : IntType} {n : k.Carrier} :
    (∃ id, k.toAssociationId n = .ok id) ↔ 0 ≤ n.1 :=
  ⟨fun ⟨_, h⟩ => IntType.nonneg_of_toAssociationId h,
    fun h => ⟨_, IntType.toAssociationId_of_nonneg h⟩⟩

theorem exists_intoPersisted_iff {record : NewRecord M} {id : ℤ} :
    (∃ saved, record.intoPersisted id = .ok saved)
      ↔ ∃ key, (if M.autoIncrement then M.primaryKeyType.fromGeneratedId id else .ok record.key)
        = .ok key ∧ 0 ≤ key.1 := by
  unfold NewRecord.intoPersisted
  cases hkey : (if M.autoIncrement then M.primaryKeyType.fromGeneratedId id
    else .ok record.key : Except Error M.primaryKeyType.Carrier) with
  | error e => exact iff_of_false (by rintro ⟨r, hr⟩; cases hr) (by rintro ⟨r, hr, -⟩; cases hr)
  | ok key =>
    simp only [Except.bind, Except.ok.injEq, exists_eq_left']
    rw [← exists_toAssociationId_iff]
    split
    · rename_i id' hid
      exact iff_of_true ⟨_, rfl⟩ ⟨_, hid⟩
    · rename_i e herror
      exact iff_of_false (by rintro ⟨r, hr⟩; cases hr)
        (by rintro ⟨r, hr⟩; rw [herror] at hr; cases hr)

theorem exists_fromGeneratedId_iff {k : IntType} {id : ℤ} (hid : 0 ≤ id) :
    (∃ key, k.fromGeneratedId id = .ok key ∧ 0 ≤ key.1) ↔ k.Holds id := by
  unfold IntType.fromGeneratedId
  by_cases hholds : k.Holds id
  · refine iff_of_true ⟨⟨id, hholds⟩, ?_, hid⟩ hholds
    rw [IntType.tryFrom, dif_pos hholds]
  · refine iff_of_false ?_ hholds
    rintro ⟨key, hkey, -⟩
    rw [IntType.tryFrom, dif_neg hholds] at hkey
    cases hkey

/-- **The conversions succeed** exactly if the key fits. -/
theorem exists_intoPersisted_rowid_iff {record : NewRecord M}
    (hrowid : Sql.IsRowid (record.rowid t)) :
    (∃ saved, record.intoPersisted (castU64 (record.rowid t)) = .ok saved) ↔ KeyFits t record := by
  rw [exists_intoPersisted_iff, KeyFits]
  have hnonneg : 0 ≤ castU64 (record.rowid t) := (castU64_mem (holds_i64_iff.mpr hrowid)).1
  unfold NewRecord.rowid at hnonneg ⊢
  split_ifs at hnonneg ⊢
  · exact exists_fromGeneratedId_iff hnonneg
  · simp only [Except.ok.injEq, exists_eq_left']

/-! ## Clean failures -/

/-- **What a create does**, as far as the table is concerned. -/
theorem save_cases (hids : M.names.AreFields) (h : HasColumns M t.toSchema) (record : NewRecord M) :
    (∃ e, record.save t = (.error e, t)
        ∧ ¬ (M.validNew record.key record.values = true ∧ Accepts t record))
    ∨ ∃ t' row, t'.rows = t.rows ++ [row] ∧ row.rowid = record.rowid t
        ∧ record.save t = ((record.intoPersisted (castU64 (record.rowid t))).mapError .error, t')
        ∧ M.validNew record.key record.values = true ∧ Accepts t record := by
  unfold NewRecord.save insertRecord
  by_cases hvalid : M.validNew record.key record.values = true
  · rw [if_pos hvalid]
    cases hexecute : execute t (insert M.tableName M.modelDef.insertColumns)
        record.insertParams with
    | error e =>
      refine Or.inl ⟨.error e, rfl, fun hall => ?_⟩
      obtain ⟨r, hr⟩ := (exists_insertRecord_iff hids h record).mpr hall.2
      rw [hexecute] at hr
      cases hr
    | ok r =>
      have haccepts := (exists_insertRecord_iff hids h record).mp ⟨r, hexecute⟩
      have hinsert := ((execute_insert_eq_ok_iff hids h record r).mp hexecute).2
      obtain ⟨rowid, hgiven, -, -, hrowid, -, hrows, -⟩ := Table.insertRow_eq_ok hinsert
      obtain rfl : record.rowid t = rowid :=
        Except.ok.inj ((givenRowid_eq h record).symm.trans hgiven)
      refine Or.inr ⟨r.table, _, hrows, rfl, ?_, hvalid, haccepts⟩
      simp only [hrowid, Option.getD_some]
  · rw [if_neg hvalid]
    exact Or.inl ⟨.invalid, rfl, fun hall => hvalid hall.1⟩

theorem ne_of_rows {t' : Table Value} {row : Stored Value} (h : t'.rows = t.rows ++ [row]) :
    t' ≠ t := by
  rintro rfl
  have hlength := congrArg List.length h
  rw [List.length_append, List.length_singleton] at hlength
  omega

/-- A key that does not fit leaves its row behind. -/
theorem not_failsCleanly (hids : M.names.AreFields) (h : HasColumns M t.toSchema)
    {record : NewRecord M} (hvalid : M.validNew record.key record.values = true)
    (haccepts : Accepts t record) (hunfit : ¬ KeyFits t record) : ¬ FailsCleanly record t := by
  intro hclean
  obtain ⟨e, -, hnot⟩ | ⟨t', row, hrows, -, hsave, -, -⟩ := save_cases hids h record
  · exact hnot ⟨hvalid, haccepts⟩
  · rw [← exists_intoPersisted_rowid_iff haccepts.isRowid] at hunfit
    cases hinto : record.intoPersisted (castU64 (record.rowid t)) with
    | error e =>
      rw [hinto] at hsave
      exact ne_of_rows hrows (hclean.failed _ _ hsave)
    | ok saved => exact hunfit ⟨saved, hinto⟩

/-- **A create that fails inserts nothing** exactly if the key fits whenever
the record is valid and accepted. -/
theorem failsCleanly_iff (hids : M.names.AreFields) (h : IsTable M t.toSchema)
    (record : NewRecord M) :
    FailsCleanly record t
      ↔ (M.validNew record.key record.values = true ∧ Accepts t record → KeyFits t record) := by
  constructor
  · rintro hclean ⟨hvalid, haccepts⟩
    by_contra hunfit
    exact not_failsCleanly hids h.hasColumns hvalid haccepts hunfit hclean
  · intro hfits
    obtain ⟨e, hsave, -⟩ | ⟨t', row, hrows, hrowid, hsave, hvalid, haccepts⟩ :=
      save_cases hids h.hasColumns record
    · constructor
      · intro e' t' heq
        exact (Prod.mk.inj (heq.symm.trans hsave)).2
      · intro saved t' heq
        cases heq.symm.trans hsave
    · obtain ⟨saved, hinto⟩ :=
        (exists_intoPersisted_rowid_iff haccepts.isRowid).mpr (hfits ⟨hvalid, haccepts⟩)
      rw [hinto] at hsave
      constructor
      · intro e' t' heq
        cases heq.symm.trans hsave
      · intro saved' t'' heq
        obtain ⟨hsaved, rfl⟩ := Prod.mk.inj (heq.symm.trans hsave)
        obtain rfl : saved' = saved := Except.ok.inj hsaved
        have hread := readCommand_insertCommand (M := M.modelDef) haccepts.table
          (List.forall_mem_map.mp haccepts.columns)
        obtain ⟨row', hschema, hrows', -, hcontains, -, -⟩ := save_new_eq_ok h.hasColumns hread heq
        obtain rfl : row' = row := by simpa [hrows] using hrows'.symm
        refine ⟨row', hrows, ?_, fun hauto => ?_⟩
        · have hkey : t''.get sqlValues row' M.primaryKeyName
              = .integer (castI64 saved'.key.1) := by
            rw [Table.get, if_pos (hschema ▸ h).key.symm, hcontains.1]
            rfl
          rw [List.map_cons, hkey, hcontains.2]
          exact fromRow_of_values (hschema ▸ h) saved'
        · rw [hrowid, NewRecord.rowid, if_pos hauto]

/-! ## A key of eight bits -/

/-- A model without fields whose keys are generated and of eight bits. -/
def petDeclaration : Declaration where
  tableName := "pet"
  primaryKeyName := "id"
  primaryKeyType := .u8
  autoIncrement := true
  fields := []
  indexes := []
  validNew _ _ := true
  validPersisted _ _ := true

/-- A table with one pet. -/
def onePet (rowid : ℤ) (h : Sql.IsRowid rowid) : Table Value where
  name := "pet"
  key := "id"
  columns := []
  default _ := .null
  store _ value := value
  equals _ a b := decide (a = b)
  admits _ := true
  another _ := 1
  rows := [⟨rowid, []⟩]
  hasRows := ⟨List.nodup_singleton _, by simpa using h, by simp⟩

def newPet : NewRecord petDeclaration := ⟨⟨0, by decide⟩, ()⟩

theorem areFields_petDeclaration : petDeclaration.names.AreFields := ⟨by decide, nofun, List.nodup_nil, nofun⟩

theorem isTable_onePet {rowid : ℤ} (h : Sql.IsRowid rowid) :
    IsTable petDeclaration (onePet rowid h).toSchema :=
  ⟨rfl, rfl, nofun, List.nodup_nil, nofun, nofun⟩

/-- **A row is left behind** whose key does not fit into eight bits. -/
theorem unfit_key_left_behind : ¬ FailsCleanly newPet (onePet 255 (by decide)) :=
  not_failsCleanly areFields_petDeclaration (isTable_onePet _).hasColumns rfl
    ⟨by decide, by decide, by decide, by decide, rfl⟩ (by unfold KeyFits; decide)

theorem fit_key_created : FailsCleanly newPet (onePet 254 (by decide)) :=
  (failsCleanly_iff areFields_petDeclaration (isTable_onePet _) newPet).mpr fun _ => by
    unfold KeyFits
    decide

end Seekwel.Model
