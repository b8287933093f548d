import Seekwel.SameObjects
import Seekwel.SqlDefinition

/-!
# Reading back what the planner writes

The statements that create a table, add a column, create an index and copy
the rows of a table put names, types and defaults into fixed texts. Reading
them gives back what was put in (`reads_back_iff`): names are quoted, so they
may contain anything but a `NUL`, and so are the defaults that are texts.

The macro lets a `NUL` into such a default, and then neither the statement
that creates the table nor the one that adds the column is read
(`nul_not_read_back`).
-/

namespace Seekwel

open Sql (ColumnText Definition ItemText NameText OperandText Reads Token)
open Model (IsColumn NumberText Written WrittenLit nameText_quoteIdent)

/-! ## What a statement defines -/

/-- **What a statement says of the schema.** -/
inductive Ddl where
  | createTable (name : String) (primaryKey : PrimaryKeyDef) (columns : List ColumnDef)
  | addColumn (table : String) (column : ColumnDef)
  | createIndex (table : String) (index : IndexDef)
  /-- Each column that is taken, with the one it is put into. -/
  | copy (fromTable toTable : String) (retainedColumns : List (String × String))
  deriving DecidableEq

/-- The type of a column, as it is written. -/
def typeText (column : ColumnText) : String := Text.join " " (column.type.map Token.text)

/-- The default of a column, as it is written. -/
def defaultText? (column : ColumnText) : Option String :=
  column.constraints.findSome? fun
    | .default value => some (Text.join "" (value.map Token.text))
    | _ => none

def primaryKey? (column : ColumnText) : Option PrimaryKeyDef :=
  if column.constraints = [.primaryKey] then some ⟨column.name, typeText column⟩ else none

def column? (column : ColumnText) : Option ColumnDef :=
  if .primaryKey ∈ column.constraints then none
  else some ⟨column.name, typeText column, .notNull ∉ column.constraints, defaultText? column⟩

/-- What a definition says, if it is one of a managed schema. -/
def ddl? : Definition → Option Ddl
  | .command (.createTable name (key :: columns)) =>
    (primaryKey? key).bind fun primaryKey =>
      (columns.mapM column?).map (.createTable name primaryKey)
  | .command (.createIndex unique name table column) =>
    some (.createIndex table ⟨name, column, unique⟩)
  | .command _ => none
  | .addColumn table column => (column? column).map (.addColumn table)
  | .insertSelect table columns source taken => some (.copy source table (taken.zip columns))

/-- **Reading a statement of the schema.** -/
def readDdl (text : String) : Option Ddl := (Sql.readDefinition text).bind ddl?

/-! ## Tables that may be written -/

/-- A text without a `NUL`. -/
def NulFree (text : String) : Prop := '\x00' ∉ text.toList

instance (text : String) : Decidable (NulFree text) := inferInstanceAs (Decidable (_ ∉ _))

/-- **A type of plain words**, none of which is a keyword. -/
def PlainType (sqlType : String) : Prop :=
  ∃ words, words ≠ [] ∧ (∀ word ∈ words, Sql.PlainTable word) ∧ sqlType = Text.join " " words

/-- A literal with the digits that numbers have in a program. -/
def LitDigits : Lit → Prop
  | .int base10Digits => base10Digits ≠ "" ∧ ∀ c ∈ base10Digits.toList, c.isDigit = true
  | .float base10Digits => Sql.Decimal base10Digits.toList
  | _ => True

/-- An expression with the digits that numbers have in a program. -/
def ExprDigits : Expr → Prop
  | .lit lit => LitDigits lit
  | .paren expr | .group expr | .neg expr | .callSome expr => ExprDigits expr
  | .pathNone | .other => True

/-- **A default that the macro makes** of an expression. -/
def MadeDefault (defaultSql : String) : Prop :=
  ∃ expr, ExprDigits expr ∧ defaultSqlFromExpr expr = .ok defaultSql

/-- A column with any name. -/
structure ColumnDef.Quotable (column : ColumnDef) : Prop where
  name : NulFree column.name
  type : PlainType column.sqlType
  default : ∀ defaultSql ∈ column.defaultSql, MadeDefault defaultSql

/-- **A table with any names**, types of plain words and the macro's
defaults. -/
structure TableDef.Quotable (table : TableDef) : Prop where
  keyName : NulFree table.primaryKey.name
  keyType : PlainType table.primaryKey.sqlType
  columns : ∀ column ∈ table.columns, column.Quotable
  indexes : ∀ index ∈ table.indexes, NulFree index.name ∧ NulFree index.column

/-- **The statements about a table say what it is**, under the name that they
are given for it. The columns that a copy retains are arbitrary pairs, at
least one. -/
structure TableDef.ReadsBack (table : TableDef) (tableName : String) : Prop where
  createTable : readDdl (renderCreateTableSql tableName table)
    = some (.createTable tableName table.primaryKey table.columns)
  addColumn : ∀ column ∈ table.columns,
    readDdl (renderAddColumnSql tableName column) = some (.addColumn tableName column)
  createIndex : ∀ index ∈ table.indexes,
    readDdl (renderCreateIndexSql tableName index) = some (.createIndex tableName index)
  copy : ∀ fromTable retained, NulFree fromTable → retained ≠ [] →
    (∀ e ∈ retained, NulFree e.1 ∧ NulFree e.2) →
      readDdl (renderCopySql fromTable tableName retained)
        = some (.copy fromTable tableName retained)

/-! ## Defaults and columns -/

theorem numberText_of_decimal {text : String} (h : Sql.Decimal text.toList) : NumberText text := by
  have hreads := Sql.reads_decimal h
  rw [String.ofList_toList] at hreads
  exact ⟨h.begins, h.not_nul, hreads⟩

theorem written_of_digits {expr : Expr} (h : ExprDigits expr) : Written expr := by
  induction expr with
  | lit lit =>
    cases lit with
    | int digits => exact h
    | float digits => exact numberText_of_decimal h
    | _ => trivial
  | paren expr ih => exact ih h
  | group expr ih => exact ih h
  | neg expr ih => exact ih h
  | callSome expr ih => exact ih h
  | _ => trivial

theorem MadeDefault.defaultText {defaultSql : String} (h : MadeDefault defaultSql) :
    Model.DefaultText defaultSql := by
  obtain ⟨expr, hdigits, hexpr⟩ := h
  exact Model.defaultText_of_expr hexpr (written_of_digits hdigits)

/-- A type of plain words is read as its words. -/
theorem PlainType.reads {sqlType : String} (h : PlainType sqlType) :
    ∃ ts, Reads sqlType.toList ts ∧ Sql.IsType ts ts []
      ∧ Text.join " " (ts.map Token.text) = sqlType := by
  obtain ⟨words, hne, hwords, rfl⟩ := h
  refine ⟨words.map .word, Sql.reads_spaced (fun word hword => (hwords word hword).1) hne,
    Sql.isType_words hwords, ?_⟩
  rw [List.map_map]
  exact congrArg _ (List.map_id words)

theorem ColumnDef.Quotable.isColumn {column : ColumnDef} (h : column.Quotable) :
    IsColumn column := by
  obtain ⟨ts, hreads, his, -⟩ := h.type.reads
  exact ⟨⟨ts, ts, [], hreads, his⟩, fun sql hsql => (h.default sql hsql).defaultText⟩

/-- **A column is read as the column that was written.** -/
theorem ColumnDef.Quotable.exists_item {column : ColumnDef} (h : column.Quotable)
    (hnul : ∀ defaultSql ∈ column.defaultSql, NulFree defaultSql) :
    ∃ text, ItemText (renderColumnDefinition column) text ∧ column? text = some column := by
  obtain ⟨name, sqlType, nullable, defaultSql⟩ := column
  obtain ⟨ts, hreads, his, htext⟩ := h.type.reads
  have hname := nameText_quoteIdent h.name
  rw [Model.renderColumnDefinition_eq]
  cases defaultSql with
  | none =>
    refine ⟨_, Sql.itemText_column hname hreads his nullable .none, ?_⟩
    cases nullable <;> simp [column?, typeText, defaultText?, htext]
  | some defaultSql =>
    obtain ⟨value, hvalue, hisValue, hvalueText⟩ :=
      (h.default defaultSql rfl).defaultText.exists_value (hnul defaultSql rfl)
    refine ⟨_, Sql.itemText_column hname hreads his nullable (.some ⟨hvalue, hisValue⟩), ?_⟩
    cases nullable <;> simp [column?, typeText, defaultText?, htext, hvalueText]

theorem exists_key {key : PrimaryKeyDef} (hname : NulFree key.name) (htype : PlainType key.sqlType) :
    ∃ text, ItemText (renderPrimaryKey key) text ∧ primaryKey? text = some key := by
  obtain ⟨ts, hreads, his, htext⟩ := htype.reads
  refine ⟨_, Sql.itemText_primaryKey (nameText_quoteIdent hname) hreads his, ?_⟩
  rw [primaryKey?, if_pos rfl, typeText, htext]

/-! ## Statements -/

/-- A quoted name is a name at any place. -/
theorem operandText_quoteIdent {name : String} (h : NulFree name) :
    OperandText (quoteIdent name) name (.quoted '"' name) :=
  ⟨nameText_quoteIdent h, rfl⟩

/-- Quoted names, one for each of some pairs. -/
theorem operandTexts {retained : List (String × String)} {f : String × String → String}
    (h : ∀ e ∈ retained, NulFree (f e)) :
    List.Forall₂ (fun text name => ∃ t, OperandText text name t)
      (retained.map fun e => quoteIdent (f e)) (retained.map f) := by
  rw [List.forall₂_map_left_iff, List.forall₂_map_right_iff, List.forall₂_same]
  exact fun e he => ⟨_, operandText_quoteIdent (h e he)⟩

section Statements

variable {table : TableDef} {tableName : String} (hname : NulFree tableName)

include hname

theorem readDdl_createTable (h : table.Quotable)
    (hnul : ∀ column ∈ table.columns, ∀ defaultSql ∈ column.defaultSql, NulFree defaultSql) :
    readDdl (renderCreateTableSql tableName table)
      = some (.createTable tableName table.primaryKey table.columns) := by
  obtain ⟨key, hkey, hkeyDef⟩ := exists_key h.keyName h.keyType
  have : Nonempty ColumnText := ⟨key⟩
  choose! item hitem hdef using fun column (hc : column ∈ table.columns) =>
    (h.columns column hc).exists_item (hnul column hc)
  have hhead : Sql.scan .start "CREATE TABLE ".toList
      = some ([.word "CREATE", .word "TABLE"], .start) := by decide
  have hread : Sql.readCommand (renderCreateTableSql tableName table)
      = some (.createTable tableName (key :: table.columns.map item)) := by
    refine Sql.readCommand_createTable hhead ?_ (nameText_quoteIdent hname) (.cons hkey ?_)
      (List.cons_ne_nil _ _)
    · intro ts
      cases ts <;> rfl
    · rw [List.forall₂_map_left_iff, List.forall₂_map_right_iff, List.forall₂_same]
      exact hitem
  have hcolumns : (table.columns.map item).mapM column? = some table.columns := by
    rw [Sql.mapM_eq_some_iff, List.forall₂_map_left_iff, List.forall₂_same]
    exact hdef
  rw [readDdl, Sql.readDefinition_of_readCommand hread, Option.bind_some, ddl?, hkeyDef,
    Option.bind_some, hcolumns]
  rfl

theorem readDdl_addColumn {column : ColumnDef} (h : column.Quotable)
    (hnul : ∀ defaultSql ∈ column.defaultSql, NulFree defaultSql) :
    readDdl (renderAddColumnSql tableName column) = some (.addColumn tableName column) := by
  obtain ⟨item, hitem, hdef⟩ := h.exists_item hnul
  delta renderAddColumnSql
  rw [readDdl, Sql.readDefinition_addColumn (nameText_quoteIdent hname) hitem, Option.bind_some,
    ddl?, hdef]
  rfl

theorem readDdl_createIndex {index : IndexDef} (h : NulFree index.name)
    (hcolumn : NulFree index.column) :
    readDdl (renderCreateIndexSql tableName index) = some (.createIndex tableName index) := by
  obtain ⟨name, column, unique⟩ := index
  have hoperand := operandText_quoteIdent hcolumn
  have hitem := Sql.isItem_token hoperand.isPlain.1 hoperand.isPlain.2
  have hread : Sql.readCommand (renderCreateIndexSql tableName ⟨name, column, unique⟩)
      = some (.createIndex unique name tableName column) := by
    cases unique with
    | true =>
      have hhead : Sql.scan .start "CREATE UNIQUE INDEX ".toList
          = some ([.word "CREATE", .word "UNIQUE", .word "INDEX"], .start) := by decide
      refine Sql.readCommand_indexOn true hhead ?_ (nameText_quoteIdent h)
        (nameText_quoteIdent hname) hoperand.reads hoperand.column hitem
      intro ts
      cases ts <;> rfl
    | false =>
      have hhead : Sql.scan .start "CREATE INDEX ".toList
          = some ([.word "CREATE", .word "INDEX"], .start) := by decide
      refine Sql.readCommand_indexOn false hhead ?_ (nameText_quoteIdent h)
        (nameText_quoteIdent hname) hoperand.reads hoperand.column hitem
      intro ts
      cases ts <;> rfl
  rw [readDdl, Sql.readDefinition_of_readCommand hread]
  rfl

theorem readDdl_copy {fromTable : String} (hfrom : NulFree fromTable)
    {retained : List (String × String)} (hne : retained ≠ [])
    (h : ∀ e ∈ retained, NulFree e.1 ∧ NulFree e.2) :
    readDdl (renderCopySql fromTable tableName retained)
      = some (.copy fromTable tableName retained) := by
  have hread := Sql.readDefinition_insertSelect (nameText_quoteIdent hname)
    (nameText_quoteIdent hfrom) (operandTexts fun e he => (h e he).2)
    (operandTexts fun e he => (h e he).1) (by simpa using hne) (by simp)
  delta renderCopySql
  rw [readDdl, hread, Option.bind_some, ddl?, List.zip_map', List.map_id']

/-- A default with a `NUL` keeps the text of its table from being read. -/
theorem readDdl_of_nul (h : table.Quotable) {column : ColumnDef} (hmem : column ∈ table.columns)
    {defaultSql : String} (hdefault : column.defaultSql = some defaultSql)
    (hnul : '\x00' ∈ defaultSql.toList) :
    readDdl (renderCreateTableSql tableName table) = none := by
  obtain ⟨key, ⟨ts, hkey, -⟩, -⟩ := exists_key h.keyName h.keyType
  have hitems : Sql.Unread (Text.join ", " (renderPrimaryKey table.primaryKey
      :: table.columns.map renderColumnDefinition)).toList := by
    rw [funext Model.renderColumnDefinition_eq]
    exact Model.unread_items hkey (fun column hmem => (h.columns column hmem).isColumn)
      (fun column hmem => ⟨_, nameText_quoteIdent (h.columns column hmem).name⟩) hmem hdefault hnul
  have hhead : Sql.scan .start "CREATE TABLE ".toList
      = some ([.word "CREATE", .word "TABLE"], .start) := by decide
  have hopen : Sql.Separator " (" [.symbol "("] := ⟨by decide, by decide⟩
  have hunread := Sql.unread_after hhead ((nameText_quoteIdent hname).reads.unread_separate hopen
    (hitems.append ")".toList))
  have htext : Sql.Unread (renderCreateTableSql tableName table).toList := by
    delta renderCreateTableSql
    simpa only [String.toList_append, List.append_assoc] using hunread
  rw [readDdl, Sql.readDefinition, htext.tokens_eq]
  rfl

end Statements

/-- **The statements about a table are read back** exactly if no default of
a column has a `NUL`. -/
theorem reads_back_iff {table : TableDef} {tableName : String} (h : table.Quotable)
    (hname : NulFree tableName) :
    table.ReadsBack tableName
      ↔ ∀ column ∈ table.columns, ∀ defaultSql ∈ column.defaultSql, NulFree defaultSql := by
  constructor
  · intro hread column hmem defaultSql hdefault hnul
    have hnone := readDdl_of_nul hname h hmem hdefault hnul
    rw [hread.createTable] at hnone
    cases hnone
  · intro hnul
    exact
      { createTable := readDdl_createTable hname h hnul
        addColumn := fun column hc =>
          readDdl_addColumn hname (h.columns column hc) (hnul column hc)
        createIndex := fun index hi =>
          readDdl_createIndex hname (h.indexes index hi).1 (h.indexes index hi).2
        copy := fun _ _ hfrom hne hretained => readDdl_copy hname hfrom hne hretained }

/-! ## Two tables -/

/-- Names that would be anything but names without their quotation marks. -/
def oddTable : TableDef where
  name := "a \"table\""
  primaryKey := ⟨"primary key", "INTEGER"⟩
  columns := [⟨"select", "TEXT", false, some "'it''s, (1) NOT NULL'"⟩,
    ⟨")", "DOUBLE PRECISION", true, some "-1.5e-3"⟩, ⟨"a, b", "TEXT", true, none⟩]
  indexes := [⟨"on \"x\" (", ")", true⟩]

theorem quotable_oddTable : oddTable.Quotable where
  keyName := by decide
  keyType := ⟨["INTEGER"], by decide, by decide, rfl⟩
  columns := by
    have hexponent : Sql.IsExponent ['e', '-', '3'] :=
      @Sql.IsExponent.digits 'e' ['-'] ['3'] (Or.inl rfl) (by simp) (by simp) (by simp)
    have hfloat : Sql.Decimal "1.5e-3".toList :=
      @Sql.Decimal.parts ['1'] ['.', '5'] ['e', '-', '3'] (by simp) (by simp)
        (.digits (by simp)) hexponent
    rintro column hmem
    simp only [oddTable, List.mem_cons, List.not_mem_nil, or_false] at hmem
    obtain rfl | rfl | rfl := hmem
    · refine ⟨by decide, ⟨["TEXT"], by decide, by decide, rfl⟩, ?_⟩
      rintro _ ⟨⟩
      exact ⟨.lit (.str "it's, (1) NOT NULL"), trivial, by decide⟩
    · refine ⟨by decide, ⟨["DOUBLE", "PRECISION"], by decide, by decide, rfl⟩, ?_⟩
      rintro _ ⟨⟩
      exact ⟨.neg (.lit (.float "1.5e-3")), hfloat, by decide⟩
    · exact ⟨by decide, ⟨["TEXT"], by decide, by decide, rfl⟩,
        fun sql hsql => absurd hsql (Option.not_mem_none sql)⟩
  indexes := by decide

/-- Odd names are read back. -/
theorem oddTable_reads_back : oddTable.ReadsBack "__seekwel_rebuild_a \"table\"" :=
  (reads_back_iff quotable_oddTable (by decide)).mpr (by decide)

/-- A table whose column has a default with a `NUL`. -/
def nulTable : TableDef where
  name := "notes"
  primaryKey := ⟨"id", "INTEGER"⟩
  columns := [⟨"body", "TEXT", false, some "'a\x00b'"⟩]
  indexes := []

/-- **The macro makes a default with a `NUL`**, and no statement with it is
read. -/
theorem nul_not_read_back : defaultSqlFromExpr (.lit (.str "a\x00b")) = .ok "'a\x00b'"
    ∧ nulTable.Quotable ∧ ¬ nulTable.ReadsBack "notes" := by
  have hdefault : defaultSqlFromExpr (.lit (.str "a\x00b")) = .ok "'a\x00b'" := by decide
  refine ⟨hdefault, ⟨by decide, ⟨["INTEGER"], by decide, by decide, rfl⟩, ?_,
    List.forall_mem_nil _⟩, fun h => ?_⟩
  · rintro column hmem
    obtain rfl := List.mem_singleton.mp hmem
    refine ⟨by decide, ⟨["TEXT"], by decide, by decide, rfl⟩, ?_⟩
    rintro _ ⟨⟩
    exact ⟨.lit (.str "a\x00b"), trivial, hdefault⟩
  · have hnone : readDdl (renderCreateTableSql "notes" nulTable) = none := by
      decide +kernel
    rw [h.createTable] at hnone
    cases hnone

end Seekwel
