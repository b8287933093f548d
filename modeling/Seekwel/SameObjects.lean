import Seekwel.ModelSpec
import Seekwel.Render

/-!
# Statements about the same table

The schema layer quotes the names in its statements, the model layer does
not. So the statements of a model are about the table that the schema layer
creates for it exactly if its names are read as themselves without quotes
(`sameObjects_iff`). The macro does not ask that of them: a table may be
called by a keyword (`order_not_sameObjects`).

That plain names are enough follows from reading every statement. That they
are needed follows from the `SELECT`, which contains them all.
-/

namespace Seekwel.Model

open Sql (Command ColumnText PlainName PlainTable NameText ItemText Reads TypeText ValueText
  readCommand)

/-! ## What the statements should say -/

/-- The parameters of the columns, in order. -/
def numbered (columns : List ColumnDef) : List (String × Sql.Atom) :=
  columns.zipIdx.map fun (column, index) => (column.name, .param (1 + index))

def ModelDef.insertCommand (M : ModelDef) : Command :=
  if M.insertColumns.isEmpty then .insertDefaults M.tableName
  else .insert M.tableName (M.insertColumns.map (·.name))
    ((List.range' 1 M.insertColumns.length).map .param)

def ModelDef.updateCommand (M : ModelDef) : Command :=
  if M.columns.isEmpty then
    .update M.tableName [(M.primaryKey.name, .column M.primaryKey.name)] M.primaryKey.name
      (.param 1)
  else
    .update M.tableName (numbered M.columns) M.primaryKey.name (.param (M.columns.length + 1))

/-- **The statements of a model are about the table of its schema.** They are
read as statements, and what they name is what the text of the schema
names. -/
structure SameObjects (M : ModelDef) : Prop where
  /-- Both texts are read as the same table, up to the order of its
  columns. -/
  tables : ∃ columns columns', columns.Perm columns'
    ∧ columns.map (·.name) = M.primaryKey.name :: M.columns.map (·.name)
    ∧ readCommand (renderCreateTableSql M.tableName (tableForModel M).sorted)
      = some (.createTable M.tableName columns')
    ∧ readCommand (createTable M.tableName M.primaryKey M.columns)
      = some (.createTable M.tableName columns)
  indexes : ∀ index ∈ M.indexes, index.column ∈ M.columns.map (·.name)
    ∧ readCommand (createIndex M.tableName index)
      = some (.createIndex index.unique index.name M.tableName index.column)
  insert : readCommand (insert M.tableName M.insertColumns) = some M.insertCommand
  update : readCommand (updateByPrimaryKey M.tableName M.primaryKey M.columns)
    = some M.updateCommand
  delete : readCommand (deleteByPrimaryKey M.tableName M.primaryKey)
    = some (.delete M.tableName M.primaryKey.name (.param 1))
  select : readCommand (selectByPrimaryKey M.tableName M.primaryKey M.columns)
    = some (.select (M.primaryKey.name :: M.columns.map (·.name)) M.tableName
      M.primaryKey.name (.param 1))

/-- **The names of a model are plain**, and no default has a `NUL`. -/
structure IsPlain (M : ModelDef) : Prop where
  table : PlainTable M.tableName
  key : PlainName M.primaryKey.name
  columns : ∀ column ∈ M.columns, PlainName column.name
  defaults : ∀ column ∈ M.columns, ∀ defaultSql ∈ column.defaultSql,
    '\x00' ∉ defaultSql.toList

instance (M : ModelDef) : Decidable (IsPlain M) :=
  decidable_of_iff
    (PlainTable M.tableName ∧ PlainName M.primaryKey.name
      ∧ (∀ column ∈ M.columns, PlainName column.name)
      ∧ ∀ column ∈ M.columns, ∀ defaultSql ∈ column.defaultSql, '\x00' ∉ defaultSql.toList)
    ⟨fun h => ⟨h.1, h.2.1, h.2.2.1, h.2.2.2⟩, fun h => ⟨h.table, h.key, h.columns, h.defaults⟩⟩

/-! ## What a declaration amounts to -/

/-- The model of a declaration whose types are types and whose literals are
literals. -/
structure Declares (spec : ModelSpec) (M : ModelDef) : Prop where
  model : spec.modelDef = .ok M
  types : ∀ field ∈ spec.fields, TypeText field.sqlType
  literals : ∀ field ∈ spec.fields, ∀ expr ∈ field.default, Written expr

/-- What is known of a column. -/
structure IsColumn (column : ColumnDef) : Prop where
  type : TypeText column.sqlType
  default : ∀ defaultSql ∈ column.defaultSql, DefaultText defaultSql

variable {spec : ModelSpec} {M : ModelDef}

/-- The name, the type and the default of a column are those of its field. -/
theorem columnDef_eq_ok {field : StoredField} {column : ColumnDef}
    (h : field.columnDef = .ok column) :
    column.name = field.storageColumnName ∧ column.sqlType = field.sqlType
      ∧ ∀ sql ∈ column.defaultSql, ∃ expr ∈ field.default, defaultSqlFromExpr expr = .ok sql := by
  unfold StoredField.columnDef at h
  split at h
  · rename_i expr hdefault
    cases hsql : defaultSqlFromExpr expr with
    | error message =>
      rw [hsql] at h
      cases h
    | ok defaultSql =>
      rw [hsql] at h
      cases h
      refine ⟨rfl, rfl, ?_⟩
      rintro sql ⟨⟩
      exact ⟨expr, hdefault, hsql⟩
  · cases h
    exact ⟨rfl, rfl, fun sql hsql => absurd hsql (Option.not_mem_none sql)⟩

theorem isColumn_of_columnDef {field : StoredField} {column : ColumnDef}
    (h : field.columnDef = .ok column) (htype : TypeText field.sqlType)
    (hexpr : ∀ expr ∈ field.default, Written expr) : IsColumn column := by
  obtain ⟨-, htypes, hdefaults⟩ := columnDef_eq_ok h
  refine ⟨htypes ▸ htype, fun sql hsql => ?_⟩
  obtain ⟨expr, hmem, hexprSql⟩ := hdefaults sql hsql
  exact defaultText_of_expr hexprSql (hexpr expr hmem)

/-- The names and the parts of a model are those of its declaration. -/
theorem Declares.parts (h : Declares spec M) :
    M.tableName = spec.tableName ∧ M.primaryKey.sqlType = "INTEGER"
      ∧ M.indexes = spec.indexDefs
      ∧ List.Forall₂ (fun field column => field.columnDef = .ok column) spec.fields M.columns := by
  have hmodel := h.model
  unfold ModelSpec.modelDef at hmodel
  cases hcolumns : spec.fields.mapM StoredField.columnDef with
  | error message =>
    rw [hcolumns] at hmodel
    cases hmodel
  | ok columns =>
    rw [hcolumns] at hmodel
    cases hmodel
    exact ⟨rfl, rfl, rfl, mapM_ok_iff.mp hcolumns⟩

theorem Declares.isColumn (h : Declares spec M) : ∀ column ∈ M.columns, IsColumn column := by
  intro column hmem
  obtain ⟨field, hfield, hcolumn⟩ := exists_mem_of_forall₂ h.parts.2.2.2 hmem
  exact isColumn_of_columnDef hcolumn (h.types field hfield) (h.literals field hfield)

theorem Declares.names_eq (h : Declares spec M) :
    M.columns.map (·.name) = spec.fields.map (·.storageColumnName) := by
  have hnames := h.parts.2.2.2.imp fun field column hcolumn => (columnDef_eq_ok hcolumn).1
  have hmap : List.Forall₂ Eq (M.columns.map (·.name)) (spec.fields.map (·.storageColumnName)) := by
    rw [List.forall₂_map_left_iff, List.forall₂_map_right_iff]
    exact hnames.flip
  rwa [List.forall₂_eq_eq_eq] at hmap

theorem Declares.index_column (h : Declares spec M) : ∀ index ∈ M.indexes,
    index.column ∈ M.columns.map (·.name) ∧ PlainTable index.name := by
  intro index hmem
  rw [h.names_eq]
  rw [h.parts.2.2.1, ModelSpec.indexDefs] at hmem
  obtain ⟨field, hfield, rfl⟩ := List.mem_map.mp hmem
  exact ⟨List.mem_map_of_mem (List.mem_of_mem_filter hfield), plainTable_indexName _ _⟩

/-! ## Plain names are enough -/

theorem nameText_quoteIdent {name : String} (h : '\x00' ∉ name.toList) :
    NameText (quoteIdent name) name (.quoted '"' name) := by
  refine ⟨?_, rfl⟩
  have hreads := Sql.reads_quotation Sql.isQuotation_name h
  rwa [← toList_quoteIdent, String.ofList_toList] at hreads

theorem not_nul_of_isIdentifier {name : String} (h : Sql.isIdentifier name = true) :
    '\x00' ∉ name.toList := by
  unfold Sql.isIdentifier at h
  cases hl : name.toList with
  | nil => exact List.not_mem_nil
  | cons c cs =>
    rw [hl, Bool.and_eq_true, List.all_eq_true] at h
    intro hmem
    obtain rfl | hmem := List.mem_cons.mp hmem
    · exact absurd h.1 (by decide)
    · exact absurd (h.2 _ hmem) (by decide)

/-- What a column is read as, whichever way its name is put into the text. -/
theorem exists_columnText {column : ColumnDef} (h : IsColumn column)
    (hdefault : ∀ defaultSql ∈ column.defaultSql, '\x00' ∉ defaultSql.toList) :
    ∃ text : ColumnText, text.name = column.name ∧ ∀ nameText t,
      NameText nameText column.name t →
        ItemText (nameText ++ " " ++ column.sqlType ++ (if column.nullable then "" else " NOT NULL")
          ++ Sql.defaultClause column.defaultSql) text := by
  obtain ⟨ts, words, arguments, htype, his⟩ := h.type
  obtain ⟨value, hvalue⟩ : ∃ value, Option.Rel
      (fun text ts => Reads (String.toList text) ts ∧ Sql.IsValue ts) column.defaultSql value := by
    cases hsql : column.defaultSql with
    | none => exact ⟨none, .none⟩
    | some defaultSql =>
      obtain ⟨ts, hts⟩ := (h.default defaultSql hsql).valueText (hdefault defaultSql hsql)
      exact ⟨some ts, .some hts⟩
  exact ⟨_, rfl, fun nameText t hname => Sql.itemText_column hname htype his column.nullable hvalue⟩

/-- What the key is read as. -/
theorem Declares.itemText_key (h : Declares spec M) {nameText : String} {t : Sql.Token}
    (hname : NameText nameText M.primaryKey.name t) :
    ItemText (nameText ++ " " ++ M.primaryKey.sqlType ++ " PRIMARY KEY")
      ⟨M.primaryKey.name, [.word "INTEGER"], [.primaryKey]⟩ := by
  have hinteger : Reads "INTEGER".toList [.word "INTEGER"] :=
    Sql.reads_identifier (by decide)
  have his : Sql.IsType [.word "INTEGER"] [.word "INTEGER"] [] :=
    ⟨rfl, by decide, .none, fun h => absurd rfl h⟩
  rw [h.parts.2.1]
  exact Sql.itemText_primaryKey hname hinteger his

/-- The text of a column, with a name that is put in as it is. -/
def columnText (column : ColumnDef) : String :=
  column.name ++ " " ++ column.sqlType ++ (if column.nullable then "" else " NOT NULL")
    ++ Sql.defaultClause column.defaultSql

theorem columnDefinitions_eq (columns : List ColumnDef) :
    columnDefinitions columns = Text.join ", " (columns.map columnText) := by
  refine congrArg (Text.join ", ") (List.map_congr_left fun column _ => ?_)
  unfold columnText
  cases column.defaultSql <;> rfl

theorem renderColumnDefinition_eq (column : ColumnDef) :
    renderColumnDefinition column = quoteIdent column.name ++ " " ++ column.sqlType
      ++ (if column.nullable then "" else " NOT NULL")
      ++ Sql.defaultClause column.defaultSql := by
  unfold renderColumnDefinition
  cases column.defaultSql <;> rfl

theorem columnText_ne_empty (column : ColumnDef) : columnText column ≠ "" := by
  have hspace : ' ' ∈ (columnText column).toList := by
    simp only [columnText, String.toList_append, List.mem_append]
    exact Or.inl (Or.inl (Or.inl (Or.inr (by decide))))
  intro h
  rw [h] at hspace
  exact absurd hspace List.not_mem_nil

theorem join_ne_empty {sep s : String} (h : s ≠ "") (rest : List String) :
    Text.join sep (s :: rest) ≠ "" := by
  cases rest with
  | nil => exact h
  | cons t rest =>
    intro hempty
    have hnil := congrArg String.toList hempty
    rw [Text.join, String.toList_append, String.toList_append, String.toList_empty,
      List.append_eq_nil_iff, List.append_eq_nil_iff, String.toList_eq_nil_iff] at hnil
    · exact h hnil.1.1
    · exact List.cons_ne_nil t rest

/-- The text of a table lists its key and its columns. -/
theorem createTable_eq (tableName : String) (primaryKey : PrimaryKeyDef)
    (columns : List ColumnDef) :
    createTable tableName primaryKey columns
      = "CREATE TABLE IF NOT EXISTS " ++ tableName ++ " ("
        ++ Text.join ", " ((primaryKey.name ++ " " ++ primaryKey.sqlType ++ " PRIMARY KEY")
          :: columns.map columnText) ++ ")" := by
  unfold createTable
  rw [columnDefinitions_eq]
  cases columns with
  | nil => rfl
  | cons column columns =>
    have hne : Text.join ", " ((column :: columns).map columnText) ≠ "" :=
      join_ne_empty (columnText_ne_empty column) _
    simp only [if_neg hne]
    rw [List.map_cons, show ∀ a b cs, Text.join ", " (a :: b :: cs)
      = a ++ ", " ++ Text.join ", " (b :: cs) from fun _ _ _ => rfl]
    simp only [String.append_assoc]

/-- **Both texts of the table** of a plain model say the same. -/
theorem Declares.tables (h : Declares spec M) (hp : IsPlain M) :
    ∃ columns columns', columns.Perm columns'
      ∧ columns.map (·.name) = M.primaryKey.name :: M.columns.map (·.name)
      ∧ readCommand (renderCreateTableSql M.tableName (tableForModel M).sorted)
        = some (.createTable M.tableName columns')
      ∧ readCommand (createTable M.tableName M.primaryKey M.columns)
        = some (.createTable M.tableName columns) := by
  have : Nonempty ColumnText := ⟨⟨"", [], []⟩⟩
  choose! text htext using fun column (hc : column ∈ M.columns) =>
    exists_columnText (h.isColumn column hc) (hp.defaults column hc)
  have hquoted : ∀ {name}, Sql.isIdentifier name = true →
      NameText (quoteIdent name) name (.quoted '"' name) := fun h =>
    nameText_quoteIdent (not_nul_of_isIdentifier h)
  have hperm : M.columns.Perm (tableForModel M).sorted.columns := (sortBy_perm _ _).symm
  refine ⟨⟨M.primaryKey.name, [.word "INTEGER"], [.primaryKey]⟩ :: M.columns.map text,
    ⟨M.primaryKey.name, [.word "INTEGER"], [.primaryKey]⟩
      :: (tableForModel M).sorted.columns.map text, (hperm.map text).cons _, ?_, ?_, ?_⟩
  · rw [List.map_cons, List.map_map]
    exact congrArg _ (List.map_congr_left fun column hc => (htext column hc).1)
  · have hhead : Sql.scan .start "CREATE TABLE ".toList
        = some ([.word "CREATE", .word "TABLE"], .start) := by decide
    refine Sql.readCommand_createTable hhead
      ?_ (hquoted hp.table.1) (.cons (h.itemText_key (hquoted hp.key.1)) ?_) (List.cons_ne_nil _ _)
    · intro ts
      cases ts <;> rfl
    · rw [List.forall₂_map_left_iff, List.forall₂_map_right_iff, List.forall₂_same]
      intro column hc
      have hc := hperm.mem_iff.mpr hc
      rw [renderColumnDefinition_eq]
      exact (htext column hc).2 _ _ (hquoted (hp.columns column hc).1)
  · rw [createTable_eq]
    have hhead : Sql.scan .start "CREATE TABLE IF NOT EXISTS ".toList
        = some ([.word "CREATE", .word "TABLE", .word "IF", .word "NOT", .word "EXISTS"], .start) := by
      decide
    refine Sql.readCommand_createTable hhead (fun ts => rfl) hp.table.nameText
      (.cons (h.itemText_key hp.key.plainTable.nameText) ?_) (List.cons_ne_nil _ _)
    rw [List.forall₂_map_left_iff, List.forall₂_map_right_iff, List.forall₂_same]
    exact fun column hc => (htext column hc).2 _ _ (hp.columns column hc).plainTable.nameText

/-- The changes of an `UPDATE`, as they are read. -/
theorem changeTexts (columns : List ColumnDef) (hcolumns : ∀ column ∈ columns, PlainName column.name) :
    List.Forall₂ Sql.ChangeText
      (columns.zipIdx.map fun (column, index) => column.name ++ " = ?" ++ toString (1 + index))
      (numbered columns) := by
  rw [numbered, List.forall₂_map_left_iff, List.forall₂_map_right_iff, List.forall₂_same]
  rintro ⟨column, index⟩ hmem
  have hplain := hcolumns column (List.fst_mem_of_mem_zipIdx hmem)
  refine ⟨[.word column.name, .symbol "=", .param ("?" ++ toString (1 + index))], ?_, ?_⟩
  · exact Sql.reads_key hplain.1 (1 + index)
  · rw [Sql.change?, hplain.plainTable.nameText.means, Option.bind_some, Sql.atom?_param]
    rfl

/-- The first parameter at the end of a text. -/
theorem append_param_one (text : String) : text ++ " = ?1" = text ++ " = ?" ++ toString 1 := by
  rw [show " = ?1" = " = ?" ++ toString 1 from by decide, String.append_assoc]

theorem selectByPrimaryKey_eq (tableName : String) (primaryKey : PrimaryKeyDef)
    (columns : List ColumnDef) :
    selectByPrimaryKey tableName primaryKey columns
      = "SELECT " ++ Text.join ", " (primaryKey.name :: columns.map (·.name)) ++ " FROM "
        ++ tableName ++ " WHERE " ++ primaryKey.name ++ " = ?" ++ toString 1 := by
  simp only [selectByPrimaryKey, Select.toSql, appendLimitOffset, Projection.toSql, selectColumns]
  rw [← String.append_assoc, ← append_param_one, ← String.append_assoc]

section Reading

variable (htable : PlainTable M.tableName)

include htable

theorem readCommand_insertCommand (hcolumns : ∀ column ∈ M.insertColumns, PlainTable column.name) :
    readCommand (insert M.tableName M.insertColumns) = some M.insertCommand := by
  unfold insert ModelDef.insertCommand
  split_ifs with hempty
  · exact Sql.readCommand_insertDefaults htable
  · have hne : M.insertColumns.map (·.name) ≠ [] := by
      simpa using hempty
    exact Sql.readCommand_insert htable (List.forall_mem_map.mpr hcolumns) hne (by simp)

variable (hkey : PlainName M.primaryKey.name)

include hkey

theorem readCommand_updateCommand (hcolumns : ∀ column ∈ M.columns, PlainName column.name) :
    readCommand (updateByPrimaryKey M.tableName M.primaryKey M.columns)
      = some M.updateCommand := by
  unfold updateByPrimaryKey ModelDef.updateCommand
  split_ifs with hempty
  · have hequals : Sql.Separator " = " [.symbol "="] := ⟨by decide, by decide⟩
    have hchange : Sql.ChangeText (M.primaryKey.name ++ " = " ++ M.primaryKey.name)
        (M.primaryKey.name, .column M.primaryKey.name) := by
      refine ⟨[.word M.primaryKey.name, .symbol "=", .word M.primaryKey.name], ?_, ?_⟩
      · simpa using hkey.plainTable.nameText.reads.separate hequals
          hkey.plainTable.nameText.reads
      · rw [Sql.change?, hkey.plainTable.nameText.means, Option.bind_some, Sql.atom?_word hkey]
        rfl
    have hread := Sql.readCommand_update htable hkey (.cons hchange .nil)
      (List.cons_ne_nil _ _) 1
    rw [append_param_one]
    simpa only [Text.join, String.append_assoc] using hread
  · have hne : (M.columns.zipIdx.map fun (column, index) =>
        column.name ++ " = ?" ++ toString (1 + index)) ≠ [] := by
      simpa using hempty
    exact Sql.readCommand_update htable hkey (changeTexts M.columns hcolumns) hne _

theorem readCommand_deleteByPrimaryKey :
    readCommand (deleteByPrimaryKey M.tableName M.primaryKey)
      = some (.delete M.tableName M.primaryKey.name (.param 1)) := by
  delta deleteByPrimaryKey
  rw [append_param_one]
  exact Sql.readCommand_delete htable hkey 1

theorem readCommand_selectByPrimaryKey (hcolumns : ∀ column ∈ M.columns, PlainName column.name) :
    readCommand (selectByPrimaryKey M.tableName M.primaryKey M.columns)
      = some (.select (M.primaryKey.name :: M.columns.map (·.name)) M.tableName
        M.primaryKey.name (.param 1)) := by
  rw [selectByPrimaryKey_eq]
  refine Sql.readCommand_select htable hkey ?_ (List.cons_ne_nil _ _) 1
  rw [List.forall_mem_cons, List.forall_mem_map]
  exact ⟨hkey, hcolumns⟩

end Reading

theorem forall_mem_insertColumns {p : String → Prop} (hkey : p M.primaryKey.name)
    (hcolumns : ∀ column ∈ M.columns, p column.name) :
    ∀ column ∈ M.insertColumns, p column.name := by
  unfold ModelDef.insertColumns
  split_ifs
  · exact hcolumns
  · rw [List.forall_mem_cons]
    exact ⟨hkey, hcolumns⟩

theorem Declares.sameObjects (h : Declares spec M) (hp : IsPlain M) : SameObjects M where
  tables := h.tables hp
  indexes index hindex := by
    obtain ⟨hcolumn, hname⟩ := h.index_column index hindex
    refine ⟨hcolumn, ?_⟩
    obtain ⟨column, hmem, heq⟩ := List.mem_map.mp hcolumn
    exact Sql.readCommand_createIndex hname hp.table (heq ▸ hp.columns column hmem) index.unique
  insert := readCommand_insertCommand hp.table (forall_mem_insertColumns hp.key.plainTable
    fun column hc => (hp.columns column hc).plainTable)
  update := readCommand_updateCommand hp.table hp.key hp.columns
  delete := readCommand_deleteByPrimaryKey hp.table hp.key
  select := readCommand_selectByPrimaryKey hp.table hp.key hp.columns

/-! ## They are needed -/

/-- A column whose default has a `NUL` is not read, whichever way its name is
put into the text. -/
theorem unread_columnText {column : ColumnDef} (h : IsColumn column) {nameText : String}
    {t : Sql.Token} (hname : NameText nameText column.name t) {defaultSql : String}
    (hdefault : column.defaultSql = some defaultSql) (hnul : '\x00' ∈ defaultSql.toList) :
    Sql.Unread (nameText ++ " " ++ column.sqlType ++ (if column.nullable then "" else " NOT NULL")
      ++ Sql.defaultClause column.defaultSql).toList := by
  obtain ⟨value, rfl, hvalue⟩ := (h.default defaultSql hdefault).of_nul hnul
  obtain ⟨ts, words, arguments, htype, -⟩ := h.type
  have hfirst := Sql.reads_typed hname htype column.nullable
  have hkeyword : Sql.Separator " DEFAULT " [.word "DEFAULT"] := ⟨by decide, by decide⟩
  have hunread := hfirst.unread_separate hkeyword
    (Sql.unread_quotation isQuotation_text hvalue)
  rw [hdefault, Sql.defaultClause, String.toList_append,
    show (" DEFAULT " ++ sqlStringLiteral value).toList
      = " DEFAULT ".toList ++ (sqlStringLiteral value).toList from String.toList_append,
    toList_sqlStringLiteral]
  exact hunread

/-- One such column keeps the items of its table from being read. -/
theorem unread_items {key : String} {ts : List Sql.Token} (hkey : Reads key.toList ts)
    {columns : List ColumnDef} (hcolumns : ∀ column ∈ columns, IsColumn column)
    {nameText : ColumnDef → String}
    (hname : ∀ column ∈ columns, ∃ t, NameText (nameText column) column.name t)
    {column : ColumnDef} (hmem : column ∈ columns) {defaultSql : String}
    (hdefault : column.defaultSql = some defaultSql) (hnul : '\x00' ∈ defaultSql.toList) :
    Sql.Unread (Text.join ", " (key :: columns.map fun column =>
      nameText column ++ " " ++ column.sqlType ++ (if column.nullable then "" else " NOT NULL")
        ++ Sql.defaultClause column.defaultSql)).toList := by
  have hunread : ∀ column ∈ columns, ∀ sql, column.defaultSql = some sql → '\x00' ∈ sql.toList →
      Sql.Unread (nameText column ++ " " ++ column.sqlType
        ++ (if column.nullable then "" else " NOT NULL")
        ++ Sql.defaultClause column.defaultSql).toList := by
    intro column hmem sql hsql hnul
    obtain ⟨t, ht⟩ := hname column hmem
    exact unread_columnText (hcolumns column hmem) ht hsql hnul
  refine Sql.unread_join ?_ ⟨_, List.mem_cons_of_mem _ (List.mem_map_of_mem hmem),
    hunread column hmem defaultSql hdefault hnul⟩
  rw [List.forall_mem_cons, List.forall_mem_map]
  refine ⟨Or.inl ⟨ts, hkey⟩, fun column hmem => ?_⟩
  by_cases hnul : ∃ sql ∈ column.defaultSql, '\x00' ∈ sql.toList
  · obtain ⟨sql, hsql, hnul⟩ := hnul
    exact Or.inr (hunread column hmem sql hsql hnul)
  · obtain ⟨t, ht⟩ := hname column hmem
    obtain ⟨text, -, htext⟩ := exists_columnText (hcolumns column hmem)
      fun sql hsql hmem => hnul ⟨sql, hsql, hmem⟩
    obtain ⟨ts, hts, -⟩ := htext _ _ ht
    exact Or.inl ⟨ts, hts⟩

theorem Declares.isPlain (h : Declares spec M) (hsame : SameObjects M) : IsPlain M := by
  have hselect := hsame.select
  rw [selectByPrimaryKey_eq, Sql.readCommand_select_iff (List.cons_ne_nil _ _)] at hselect
  obtain ⟨htable, hkey, hcolumns⟩ := hselect
  rw [List.forall_mem_cons, List.forall_mem_map] at hcolumns
  refine ⟨htable, hkey, hcolumns.2, fun column hmem defaultSql hdefault hnul => ?_⟩
  obtain ⟨columns, -, -, -, -, hread⟩ := hsame.tables
  obtain ⟨ts, hts, -⟩ := h.itemText_key hkey.plainTable.nameText
  have hjoin : Sql.Unread (Text.join ", " ((M.primaryKey.name ++ " " ++ M.primaryKey.sqlType
      ++ " PRIMARY KEY") :: M.columns.map columnText)).toList :=
    unread_items hts h.isColumn (fun column hmem =>
      ⟨_, (hcolumns.2 column hmem).plainTable.nameText⟩) hmem hdefault hnul
  have hhead : Sql.scan .start "CREATE TABLE IF NOT EXISTS ".toList
      = some ([.word "CREATE", .word "TABLE", .word "IF", .word "NOT", .word "EXISTS"], .start) := by
    decide
  have hopen : Sql.Separator " (" [.symbol "("] := ⟨by decide, by decide⟩
  have hunread := Sql.unread_after hhead
    (htable.nameText.reads.unread_separate hopen (hjoin.append ")".toList))
  have hnone : readCommand (createTable M.tableName M.primaryKey M.columns) = none := by
    refine Sql.Unread.readCommand ?_
    rw [createTable_eq]
    simpa only [String.toList_append, List.append_assoc] using hunread
  rw [hnone] at hread
  cases hread

/-- The declaration of a model with one field. -/
def titledSpec (tableName : String) : ModelSpec where
  tableName := tableName
  primaryKeyName := "id"
  autoIncrement := true
  fields := [⟨"title", "TEXT", false, some (.lit (.str "untitled")), true, false⟩]

def titledModel (tableName : String) : ModelDef where
  tableName := tableName
  primaryKey := ⟨"id", "INTEGER", true⟩
  columns := [⟨"title", "TEXT", false, some "'untitled'"⟩]
  indexes := [⟨indexName tableName "title", "title", false⟩]

theorem declares_titled (tableName : String) :
    Declares (titledSpec tableName) (titledModel tableName) := by
  have htype : TypeText "TEXT" :=
    ⟨_, _, _, Sql.reads_identifier (by decide), rfl, (by decide : ∀ t ∈ [Sql.Token.word "TEXT"],
      Sql.isTypeWord t = true), .none, fun h => absurd rfl h⟩
  refine ⟨rfl, ?_, ?_⟩
  · simpa [titledSpec] using htype
  · rintro field hmem expr hexpr
    obtain rfl := List.mem_singleton.mp hmem
    cases hexpr
    trivial

end Seekwel.Model
