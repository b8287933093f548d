import Seekwel.Records
import Seekwel.SameObjects
import Seekwel.SqlKeywords

/-!
# Names in the statements of a model

What the statements of a model ask of its names once they succeed. A
statement that succeeds has been read as one about the table of the model,
so its names are plain. The names of columns are those of fields, which are
identifiers, but the table may be called anything.
-/

namespace Seekwel.Model

open Sql (Table Result Command PlainName PlainTable NoMarks isIdentifier readCommand)

/-! ## Statements that succeed -/

theorem table_of_run {t : Table Value} {bound : List Value} {c : Command} {r : Result Value}
    (h : t.run sqlValues bound c = .ok r) : c.table = t.name := by
  cases c with
  | insert table columns values =>
    rw [Table.run] at h
    split_ifs at h with htable
    exact htable
  | insertDefaults table =>
    rw [Table.run] at h
    split_ifs at h with htable
    exact htable
  | update table changes key value =>
    rw [Table.run] at h
    split_ifs at h with htable
    exact htable
  | delete table key value =>
    rw [Table.run] at h
    split_ifs at h with htable
    exact htable
  | select columns table key value =>
    rw [Table.run] at h
    split_ifs at h with htable hcolumns
    exact htable
  | createTable name columns => cases h
  | createIndex unique name table column => cases h

/-- **A statement that succeeds** has been read, as one about the table. -/
theorem execute_eq_ok {t : Table Value} {query : String} {bound : List Value} {r : Result Value}
    (h : execute t query bound = .ok r) :
    ∃ c, readCommand query = some c ∧ c.table = t.name ∧ t.run sqlValues bound c = .ok r := by
  unfold execute at h
  split at h
  · rename_i c hread
    split at h
    · rename_i r' hrun
      cases h
      exact ⟨c, hread, table_of_run hrun, hrun⟩
    · cases h
  · cases h

/-! ## The names they have -/

variable {table : String} {primaryKey : PrimaryKeyDef} {columns : List ColumnDef} {c : Command}

theorem forall_mem_names (hcolumns : ∀ column ∈ columns, isIdentifier column.name = true) :
    ∀ name ∈ columns.map (·.name), isIdentifier name = true :=
  List.forall_mem_map.mpr hcolumns

theorem plain_of_insert (hcolumns : ∀ column ∈ columns, isIdentifier column.name = true)
    (h : readCommand (insert table columns) = some c) (htable : c.table = table) :
    PlainTable table ∧ ∀ column ∈ columns, PlainTable column.name := by
  have hhead : Sql.scan .start "INSERT INTO ".toList
      = some ([.word "INSERT", .word "INTO"], .start) := by decide
  have hbegins : ∀ ts, Sql.command? ([.word "INSERT", .word "INTO"] ++ ts) = some c →
      ∃ t us, ts = t :: us ∧ t.name? = some c.table := fun ts hts => Sql.insert?_table hts
  unfold insert at h
  split_ifs at h with hempty
  · have hplain := Sql.plainTable_of_readCommand table hhead hbegins
      (Sql.noMarks_of_all " DEFAULT VALUES" (by decide)) h htable
    rw [List.isEmpty_iff.mp hempty]
    exact ⟨hplain, nofun⟩
  · have hne : columns.map (·.name) ≠ [] := by
      simpa using hempty
    have hns : List.range' 1 columns.length ≠ [] := by
      simpa using hempty
    have hmarks : NoMarks (" (" ++ columnNames columns ++ ") VALUES ("
        ++ placeholders columns.length 1 ++ ")") := by
      refine ((((Sql.noMarks_of_all _ (by decide)).append (Sql.noMarks_join ?_)).append
        (Sql.noMarks_of_all _ (by decide))).append (Sql.noMarks_join ?_)).append
        (Sql.noMarks_of_all _ (by decide))
      · exact fun name hname => Sql.noMarks_identifier (forall_mem_names hcolumns name hname)
      · exact List.forall_mem_map.mpr fun n _ => Sql.noMarks_param n
    have hplain := Sql.plainTable_of_readCommand table hhead hbegins hmarks
      (by rw [← h]; simp only [String.append_assoc]) htable
    exact ⟨hplain, List.forall_mem_map.mp
      (Sql.plain_of_readCommand_insert hplain (forall_mem_names hcolumns) hne hns h)⟩

theorem plain_of_deleteByPrimaryKey (hkey : isIdentifier primaryKey.name = true)
    (h : readCommand (deleteByPrimaryKey table primaryKey) = some c) (htable : c.table = table) :
    PlainTable table ∧ PlainName primaryKey.name := by
  have hhead : Sql.scan .start "DELETE FROM ".toList
      = some ([.word "DELETE", .word "FROM"], .start) := by decide
  have hbegins : ∀ ts, Sql.command? ([.word "DELETE", .word "FROM"] ++ ts) = some c →
      ∃ t us, ts = t :: us ∧ t.name? = some c.table := fun ts hts => Sql.delete?_table hts
  rw [deleteByPrimaryKey, append_param_one] at h
  have hmarks : NoMarks (" WHERE " ++ (primaryKey.name ++ " = ?" ++ toString 1)) :=
    (Sql.noMarks_of_all _ (by decide)).append (Sql.noMarks_equals hkey 1)
  have hplain := Sql.plainTable_of_readCommand table hhead hbegins hmarks
    (by rw [← h]; simp only [String.append_assoc]) htable
  exact ⟨hplain, Sql.plain_of_readCommand_delete hplain hkey h⟩

/-- The tokens of the changes of an `UPDATE`. -/
theorem reads_assignments (hcolumns : ∀ column ∈ columns, isIdentifier column.name = true) :
    List.Forall₂ (fun text ts => Sql.Reads (String.toList text) ts)
      (columns.zipIdx.map fun (column, index) => column.name ++ " = ?" ++ toString (1 + index))
      (columns.zipIdx.map fun (column, index) =>
        [.word column.name, .symbol "=", .param ("?" ++ toString (1 + index))]) := by
  rw [List.forall₂_map_left_iff, List.forall₂_map_right_iff, List.forall₂_same]
  rintro ⟨column, index⟩ hmem
  exact Sql.reads_key (hcolumns column (List.fst_mem_of_mem_zipIdx hmem)) (1 + index)

theorem plain_of_updateByPrimaryKey (hkey : isIdentifier primaryKey.name = true)
    (hcolumns : ∀ column ∈ columns, isIdentifier column.name = true)
    (h : readCommand (updateByPrimaryKey table primaryKey columns) = some c)
    (htable : c.table = table) :
    PlainTable table ∧ PlainName primaryKey.name ∧ ∀ column ∈ columns, PlainTable column.name := by
  have hhead : Sql.scan .start "UPDATE ".toList = some ([.word "UPDATE"], .start) := by decide
  have hbegins : ∀ ts, Sql.command? ([.word "UPDATE"] ++ ts) = some c →
      ∃ t us, ts = t :: us ∧ t.name? = some c.table := by
    intro ts hts
    cases ts with
    | nil => cases hts
    | cons t ts => exact Sql.update?_table hts
  unfold updateByPrimaryKey at h
  split_ifs at h with hempty
  · rw [append_param_one] at h
    have hmarks : NoMarks (" SET " ++ (primaryKey.name ++ " = " ++ primaryKey.name)
        ++ (" WHERE " ++ (primaryKey.name ++ " = ?" ++ toString 1))) := by
      refine ((Sql.noMarks_of_all _ (by decide)).append ?_).append
        ((Sql.noMarks_of_all _ (by decide)).append (Sql.noMarks_equals hkey 1))
      exact ((Sql.noMarks_identifier hkey).append (Sql.noMarks_of_all _ (by decide))).append
        (Sql.noMarks_identifier hkey)
    have hplain := Sql.plainTable_of_readCommand table hhead hbegins hmarks
      (by rw [← h]; simp only [String.append_assoc]) htable
    have hequals : Sql.Separator " = " [.symbol "="] := ⟨by decide, by decide⟩
    have hreads : Sql.Reads (primaryKey.name ++ " = " ++ primaryKey.name).toList
        [.word primaryKey.name, .symbol "=", .word primaryKey.name] := by
      simpa using (Sql.reads_identifier hkey).separate hequals (Sql.reads_identifier hkey)
    rw [List.isEmpty_iff.mp hempty]
    refine ⟨hplain, ?_, nofun⟩
    refine (Sql.plain_of_readCommand_update hplain hkey (.cons hreads .nil) (List.cons_ne_nil _ _)
      ?_ (n := 1) (c := c) ?_).1
    · simp
    · simpa only [Text.join, String.append_assoc] using h
  · have hne : (columns.zipIdx.map fun (column, index) =>
        column.name ++ " = ?" ++ toString (1 + index)) ≠ [] := by
      simpa using hempty
    have hmarks : NoMarks (" SET " ++ assignments columns 1
        ++ (" WHERE " ++ (primaryKey.name ++ " = ?" ++ toString (columns.length + 1)))) := by
      refine ((Sql.noMarks_of_all _ (by decide)).append (Sql.noMarks_join ?_)).append
        ((Sql.noMarks_of_all _ (by decide)).append (Sql.noMarks_equals hkey _))
      refine List.forall_mem_map.mpr ?_
      rintro ⟨column, index⟩ hmem
      exact Sql.noMarks_equals (hcolumns column (List.fst_mem_of_mem_zipIdx hmem)) _
    have hplain := Sql.plainTable_of_readCommand table hhead hbegins hmarks
      (by rw [← h]; simp only [String.append_assoc]) htable
    obtain ⟨hname, hchanges⟩ := Sql.plain_of_readCommand_update hplain hkey
      (reads_assignments hcolumns) hne
      (List.forall_mem_map.mpr fun _ _ => show Sql.Token.symbol "," ∉ [_, _, _] by simp) h
    refine ⟨hplain, hname, fun column hcolumn => ⟨hcolumns column hcolumn, ?_⟩⟩
    obtain ⟨index, hindex⟩ := List.mem_iff_getElem?.mp hcolumn
    have hmem : (column, index) ∈ columns.zipIdx := List.mem_zipIdx_iff_getElem?.mpr hindex
    obtain ⟨change, hchange⟩ := hchanges _ (List.mem_map.mpr ⟨_, hmem, rfl⟩)
    obtain ⟨name, hmeans, -⟩ := Option.bind_eq_some_iff.mp hchange
    exact Sql.not_mem_keywords_of_name? hmeans

theorem plain_of_selectByPrimaryKey (htable : PlainTable table)
    (hkey : isIdentifier primaryKey.name = true)
    (hcolumns : ∀ column ∈ columns, isIdentifier column.name = true)
    (h : readCommand (selectByPrimaryKey table primaryKey columns) = some c) :
    PlainName primaryKey.name ∧ ∀ column ∈ columns, PlainName column.name := by
  rw [selectByPrimaryKey_eq] at h
  obtain ⟨hname, hall⟩ := Sql.plain_of_readCommand_select htable hkey
    (List.forall_mem_cons.mpr ⟨hkey, forall_mem_names hcolumns⟩) (List.cons_ne_nil _ _) h
  exact ⟨hname, List.forall_mem_map.mp (List.forall_mem_cons.mp hall).2⟩

end Seekwel.Model
