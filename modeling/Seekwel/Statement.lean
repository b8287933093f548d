import Seekwel.Introspect
import Seekwel.Render

/-!
# Statements and what they do

The statements that the schema code sends to SQLite, as data, and their
effect on the database. A statement that fails changes nothing, which the
type of `Engine.exec` says by returning a database only on success.

What the schema code leaves to SQLite and to the compiler is collected in
an `Engine`: how numbers are converted, what a default expression evaluates
to, what a stored `CREATE INDEX` or `CREATE TRIGGER` declares, what the
integrity check finds.

Each statement has a lemma that says what it did when it succeeded
(`exec_createTable`, `exec_copyRows`, …); nothing else unfolds `exec`.
-/

namespace Seekwel

/-- **What is left to SQLite and to the compiler.** -/
structure Engine where
  /-- The text of a number stored in a text column. -/
  numberText : Value → String
  /-- What becomes of a text stored in a numeric column: a number if it
  reads like one. -/
  parseNumber : String → Value
  /-- The real number equal to an integer. -/
  toReal : ℤ → UInt64
  /-- What becomes of a real number stored in an integer column. -/
  realToInteger : UInt64 → Value
  /-- The value of a default expression. -/
  evalDefault : String → Value
  /-- The object that the text of a `CREATE INDEX` or `CREATE TRIGGER`
  declares. -/
  declared : String → Option SchemaObject
  /-- The answer of `PRAGMA integrity_check`. -/
  integrityCheck : Database → String
  /-- The derived `Debug` rendering of an operation. -/
  debugOp : PlanOp → String
  /-- The derived `Debug` rendering of a blocker. -/
  debugBlocker : PlanBlocker → String

/-- The arguments of `record_success`, as they are stored. -/
structure HistoryRow where
  planId : String
  artifactVersion : ℕ
  sourceFingerprint : String
  targetFingerprint : String
  /-- The canonical text of the target schema. -/
  targetSchema : String
  deriving DecidableEq

/-- A statement of the schema code. -/
inductive Statement where
  | createTable (tableName : String) (table : TableDef)
  | createIndex (tableName : String) (index : IndexDef)
  | dropIndex (index : IndexDef)
  | addColumn (tableName : String) (column : ColumnDef)
  | copyRows (fromTable toTable : String) (retainedColumns : List (String × String))
  | dropTable (tableName : String)
  | renameTable (fromName toName : String)
  | replay (sql : String)
  | ensureHistoryTable
  | integrityCheck
  | insertHistory (row : HistoryRow)
  deriving DecidableEq

/-- The text of a statement. -/
def Statement.sql : Statement → String
  | .createTable tableName table => renderCreateTableSql tableName table
  | .createIndex tableName index => renderCreateIndexSql tableName index
  | .dropIndex index => renderDropIndexSql index
  | .addColumn tableName column => renderAddColumnSql tableName column
  | .copyRows fromTable toTable retainedColumns =>
    renderCopySql fromTable toTable retainedColumns
  | .dropTable tableName => renderDropTableSql tableName
  | .renameTable fromName toName => renderRenameTableSql fromName toName
  | .replay sql => sql
  | .ensureHistoryTable => historyTableSql
  | .integrityCheck => "PRAGMA integrity_check"
  | .insertHistory _ => insertHistorySql

/-! ## Values and rows -/

/-- **Type affinity**: what is stored when a value is put into a column. -/
def Engine.store (e : Engine) : SqlAffinity → Value → Value
  | .text, .integer n => .text (e.numberText (.integer n))
  | .text, .real bits => .text (e.numberText (.real bits))
  | .integer, .text s => e.parseNumber s
  | .integer, .real bits => e.realToInteger bits
  | .numeric, .text s => e.parseNumber s
  | .numeric, .real bits => e.realToInteger bits
  | .real, .integer n => .real (e.toReal n)
  | .real, .text s =>
    match e.parseNumber s with
    | .integer n => .real (e.toReal n)
    | v => v
  | _, v => v

def ColumnRow.affinity (column : ColumnRow) : SqlAffinity :=
  SqlAffinity.fromDeclaredType column.sqlType

/-- The value of a column that an insertion leaves out. -/
def Engine.defaultValue (e : Engine) (affinity : SqlAffinity)
    (defaultSql : Option String) : Value :=
  match defaultSql with
  | some sql => e.store affinity (e.evalDefault sql)
  | none => .null

/-- Whether a column is the alias of the row id: the only column of the
primary key, declared as an `INTEGER`. -/
def isRowid (columns : List ColumnRow) (column : ColumnRow) : Bool :=
  column.pk = 1 && pkCount columns = 1
    && Text.eqIgnoreAsciiCase column.sqlType "INTEGER"

/-- The integer stored in a column, zero if there is none. -/
def Row.getInteger (row : Row) (column : String) : ℤ :=
  match row.get column with
  | .integer n => n
  | _ => 0

/-- The number after the largest one stored in a column. -/
def nextRowid (rows : List Row) (column : String) : ℤ :=
  (rows.map (fun row => row.getInteger column)).foldl max 0 + 1

/-- The value that an insertion puts into a column. -/
def Engine.insertedValue (e : Engine) (table : SqliteTable)
    (given : List (String × Value)) (column : ColumnRow) : Value :=
  let value :=
    match given.find? (fun entry => entry.1 = column.name) with
    | some entry => e.store column.affinity entry.2
    | none => e.defaultValue column.affinity column.defaultSql
  if isRowid table.columns column && value = .null then
    .integer (nextRowid table.rows column.name)
  else value

/-- The row that an insertion adds. -/
def Engine.insertedRow (e : Engine) (table : SqliteTable)
    (given : List (String × Value)) : Row :=
  table.columns.map (fun column => (column.name, e.insertedValue table given column))

/-- Whether two rows have the same primary key. -/
def samePrimaryKey (columns : List ColumnRow) (row row' : Row) : Bool :=
  columns.any (fun column => 0 < column.pk)
    && (columns.filter (fun column => 0 < column.pk)).all (fun column =>
        row.get column.name = row'.get column.name && row.get column.name ≠ .null)

/-- Inserting one row. -/
def Engine.insertRow (e : Engine) (tableName : String)
    (table : SqliteTable) (given : List (String × Value)) : Except Error SqliteTable :=
  let row := e.insertedRow table given
  match given.find? (fun entry => table.columns.all (·.name ≠ entry.1)) with
  | some entry =>
    .error (.sqlite ("table " ++ tableName ++ " has no column named " ++ entry.1))
  | none =>
    match table.columns.find? (fun column =>
        column.notNull && row.get column.name = .null) with
    | some column =>
      .error (.sqlite ("NOT NULL constraint failed: " ++ tableName ++ "." ++ column.name))
    | none =>
      if table.columns.any (fun column => isRowid table.columns column
          && row.get column.name ≠ .integer (row.getInteger column.name)) then
        .error (.sqlite "datatype mismatch")
      else if table.rows.any (samePrimaryKey table.columns row) then
        .error (.sqlite ("UNIQUE constraint failed: " ++ tableName))
      else .ok { table with rows := table.rows ++ [row] }

/-- Inserting rows one after the other. -/
def Engine.insertRows (e : Engine) (tableName : String) (table : SqliteTable) :
    List (List (String × Value)) → Except Error SqliteTable
  | [] => .ok table
  | given :: rest =>
    match e.insertRow tableName table given with
    | .error err => .error err
    | .ok table => e.insertRows tableName table rest

/-! ## What is declared -/

/-- The column row that a primary key definition declares. -/
def PrimaryKeyDef.declaredRow (pk : PrimaryKeyDef) : ColumnRow where
  name := pk.name
  sqlType := pk.sqlType
  notNull := false
  defaultSql := none
  pk := 1
  hidden := 0

/-- The column row that a column definition declares. -/
def ColumnDef.declaredRow (column : ColumnDef) : ColumnRow where
  name := column.name
  sqlType := column.sqlType
  notNull := !column.nullable
  defaultSql := column.defaultSql
  pk := 0
  hidden := 0

/-- The column rows of a table created from its definition. -/
def TableDef.declaredRows (table : TableDef) : List ColumnRow :=
  table.primaryKey.declaredRow :: table.columns.map ColumnDef.declaredRow

/-- The table that a `CREATE TABLE` creates. -/
def TableDef.declaredTable (tableName : String) (table : TableDef) : SqliteTable where
  sql := some (renderCreateTableSql tableName table)
  columns := table.declaredRows
  foreignKeys := []
  rows := []

/-- The object that a `CREATE INDEX` creates. -/
def IndexDef.declaredObject (tableName : String) (index : IndexDef) : SchemaObject where
  kind := .index
  name := index.name
  tblName := tableName
  sql := some (renderCreateIndexSql tableName index)
  unique := index.unique
  isPartial := false
  keyColumns := [some index.column]

/-- The columns of the history table. -/
def historyColumns : List ColumnRow :=
  [⟨"id", "INTEGER", false, none, 1, 0⟩,
    ⟨"plan_id", "TEXT", true, none, 0, 0⟩,
    ⟨"artifact_version", "INTEGER", true, none, 0, 0⟩,
    ⟨"source_fingerprint", "TEXT", true, none, 0, 0⟩,
    ⟨"target_fingerprint", "TEXT", true, none, 0, 0⟩,
    ⟨"target_schema", "TEXT", true, none, 0, 0⟩,
    ⟨"created_at", "TEXT", true, some "CURRENT_TIMESTAMP", 0, 0⟩]

/-- The history table as it is created. SQLite stores its statement without
the words `IF NOT EXISTS`. -/
def newHistoryTable : SqliteTable where
  sql := some ("CREATE TABLE " ++ String.ofList (historyTableSql.toList.drop 27))
  columns := historyColumns
  foreignKeys := []
  rows := []

/-- The listed values of an insertion into the history table. -/
def HistoryRow.given (row : HistoryRow) : List (String × Value) :=
  [("plan_id", .text row.planId),
    ("artifact_version", .integer row.artifactVersion),
    ("source_fingerprint", .text row.sourceFingerprint),
    ("target_fingerprint", .text row.targetFingerprint),
    ("target_schema", .text row.targetSchema)]

/-! ## Execution -/

/-- The database with a table stored under a name. -/
def Database.setTable (db : Database) (name : String) (table : SqliteTable) : Database :=
  { db with tables := db.tables.insert name table }

/-- The database without a table and what belongs to it. -/
def Database.removeTable (db : Database) (name : String) : Database where
  tables := db.tables.erase name
  objects := db.objects.filter (fun o => o.kind = .view || o.tblName ≠ name)

/-- The stored statement of a table after a column was added: the
definition goes before the last closing parenthesis. -/
def addColumnText (column : ColumnDef) (sql : String) : String :=
  let tail := (sql.toList.reverse.takeWhile (· ≠ ')')).reverse
  let body := ((sql.toList.reverse.dropWhile (· ≠ ')')).drop 1).reverse
  String.ofList body ++ ", " ++ renderColumnDefinition column ++ ")" ++ String.ofList tail

/-- The stored statement of a renamed table. -/
def renameText (fromName toName sql : String) : String :=
  "CREATE TABLE " ++ quoteIdent toName
    ++ String.ofList (sql.toList.drop ("CREATE TABLE " ++ quoteIdent fromName).length)

/-- Whether a table has a column. -/
def SqliteTable.hasColumn (table : SqliteTable) (column : String) : Bool :=
  table.columns.any (fun row => row.name = column)

/-- Whether two rows of a table share a value other than `NULL` in a
column. -/
def SqliteTable.hasRepeated (table : SqliteTable) (column : String) : Bool :=
  !((table.rows.map (fun row => row.get column)).filter (· ≠ .null)).Nodup

/-- **The effect of a statement.** -/
def Engine.exec (e : Engine) (db : Database) : Statement → Except Error Database
  | .createTable tableName table =>
    if db.nameTaken tableName then
      .error (.sqlite ("there is already a table or index named " ++ tableName))
    else .ok (db.setTable tableName (table.declaredTable tableName))
  | .createIndex tableName index =>
    match db.tables.get? tableName with
    | none => .error (.sqlite ("no such table: " ++ tableName))
    | some table =>
      if db.nameTaken index.name then
        .error (.sqlite ("there is already a table or index named " ++ index.name))
      else if !table.hasColumn index.column then
        .error (.sqlite ("no such column: " ++ index.column))
      else if index.unique && table.hasRepeated index.column then
        .error (.sqlite ("UNIQUE constraint failed: " ++ tableName ++ "." ++ index.column))
      else .ok { db with objects := db.objects ++ [index.declaredObject tableName] }
  | .dropIndex index =>
    match db.objects.find? (fun o => o.kind = .index && o.name = index.name) with
    | none => .error (.sqlite ("no such index: " ++ index.name))
    | some found =>
      if found.sql.isNone then
        .error (.sqlite "index associated with UNIQUE or PRIMARY KEY constraint cannot be dropped")
      else
        .ok { db with objects := db.objects.filter (fun o =>
                !(o.kind = .index && o.name = index.name)) }
  | .addColumn tableName column =>
    match db.tables.get? tableName with
    | none => .error (.sqlite ("no such table: " ++ tableName))
    | some table =>
      let value := e.defaultValue column.affinity column.defaultSql
      if table.columns.any (fun row => Text.eqIgnoreAsciiCase row.name column.name) then
        .error (.sqlite ("duplicate column name: " ++ column.name))
      else if !column.nullable && value = .null && !table.rows.isEmpty then
        .error (.sqlite "Cannot add a NOT NULL column with default value NULL")
      else
        .ok (db.setTable tableName {
          sql := table.sql.map (addColumnText column)
          columns := table.columns ++ [column.declaredRow]
          foreignKeys := table.foreignKeys
          rows := table.rows.map (· ++ [(column.name, value)]) })
  | .copyRows fromTable toTable retainedColumns =>
    match db.tables.get? fromTable, db.tables.get? toTable with
    | some source, some table =>
      if retainedColumns.any (fun pair => !source.hasColumn pair.1) then
        .error (.sqlite "no such column")
      else
        match e.insertRows toTable table (source.rows.map (fun row =>
            retainedColumns.map (fun pair => (pair.2, row.get pair.1)))) with
        | .error err => .error err
        | .ok table => .ok (db.setTable toTable table)
    | _, _ => .error (.sqlite "no such table")
  | .dropTable tableName =>
    match db.tables.get? tableName with
    | none => .error (.sqlite ("no such table: " ++ tableName))
    | some _ => .ok (db.removeTable tableName)
  | .renameTable fromName toName =>
    match db.tables.get? fromName with
    | none => .error (.sqlite ("no such table: " ++ fromName))
    | some table =>
      if db.nameTaken toName then
        .error (.sqlite ("there is already another table or index with this name: " ++ toName))
      else
        .ok {
          tables := (db.tables.erase fromName).insert toName
            { table with sql := table.sql.map (renameText fromName toName) }
          objects := db.objects.map (fun o =>
            if o.kind ≠ .view ∧ o.tblName = fromName then { o with tblName := toName } else o) }
  | .replay sql =>
    match e.declared sql with
    | none => .error (.sqlite "syntax error")
    | some o =>
      match db.tables.get? o.tblName with
      | none => .error (.sqlite ("no such table: " ++ o.tblName))
      | some table =>
        if o.kind ≠ .trigger && db.nameTaken o.name then
          .error (.sqlite ("there is already a table or index named " ++ o.name))
        else if o.kind = .trigger && db.objects.any (fun o' =>
            o'.kind = .trigger && Text.eqIgnoreAsciiCase o'.name o.name) then
          .error (.sqlite ("trigger " ++ o.name ++ " already exists"))
        else if (indexColumns o).any (fun column => !table.hasColumn column) then
          .error (.sqlite "no such column")
        else .ok { db with objects := db.objects ++ [o] }
  | .ensureHistoryTable =>
    if db.tables.keys.any (Text.eqIgnoreAsciiCase historyTable)
        || db.objects.any (fun o =>
            o.kind = .view && Text.eqIgnoreAsciiCase historyTable o.name) then .ok db
    else if db.nameTaken historyTable then
      .error (.sqlite ("there is already an index named " ++ historyTable))
    else .ok (db.setTable historyTable newHistoryTable)
  | .integrityCheck =>
    if e.integrityCheck db = "ok" then .ok db
    else .error (.schemaBlocked
      ("integrity_check failed after schema apply: " ++ e.integrityCheck db))
  | .insertHistory row =>
    match db.tables.get? historyTable with
    | none => .error (.sqlite ("no such table: " ++ historyTable))
    | some table =>
      match e.insertRow historyTable table row.given with
      | .error err => .error err
      | .ok table => .ok (db.setTable historyTable table)

/-- Executing statements one after the other, up to the first that fails. -/
def Engine.execAll (e : Engine) (db : Database) : List Statement → Except Error Database
  | [] => .ok db
  | statement :: rest =>
    match e.exec db statement with
    | .error error => .error error
    | .ok db' => e.execAll db' rest

/-- An engine for examples: a text of digits reads like a number, a default
expression is a number or a quoted text, nothing is declared and the
database is sound. -/
def exampleEngine : Engine where
  numberText := fun _ => "0"
  parseNumber := readNumber
  toReal := fun _ => 0
  realToInteger := fun bits => .real bits
  evalDefault := fun sql =>
    if Text.startsWith sql "'" then
      .text (String.ofList ((sql.toList.drop 1).dropLast))
    else readNumber sql
  declared := fun _ => none
  integrityCheck := fun _ => "ok"
  debugOp := PlanOp.tableName
  debugBlocker := fun blocker => (blocker.tableName).getD ""
where
  /-- A text of digits as the number it stands for. -/
  readNumber (s : String) : Value :=
    if s ≠ "" ∧ s.toList.all Char.isDigit then
      .integer (s.toList.foldl (fun n c => 10 * n + (c.toNat - '0'.toNat : ℕ)) 0)
    else .text s

/-- A table for examples: users with text columns. -/
def usersTable (columns : List String) : TableDef :=
  ⟨"users", ⟨"id", "INTEGER"⟩, columns.map (fun c => ⟨c, "TEXT", true, none⟩), []⟩

/-- A database that holds the table of users. -/
def usersDatabase (columns : List String) : Database :=
  Database.empty.setTable "users" ((usersTable columns).declaredTable "users")

@[simp] theorem Database.setTable_tables (db : Database) (n : String) (t : SqliteTable) :
    (db.setTable n t).tables = db.tables.insert n t := rfl

@[simp] theorem Database.setTable_objects (db : Database) (n : String) (t : SqliteTable) :
    (db.setTable n t).objects = db.objects := rfl

@[simp] theorem Database.removeTable_tables (db : Database) (n : String) :
    (db.removeTable n).tables = db.tables.erase n := rfl

/-- A name that is free is not the name of a table. -/
theorem Database.get?_eq_none_of_nameTaken {db : Database} {n : String}
    (h : db.nameTaken n = false) : db.tables.get? n = none := by
  rw [SortedMap.get?_eq_none_iff]
  intro hmem
  rw [Database.nameTaken, Bool.or_eq_false_iff] at h
  have := List.any_eq_false.mp h.1 n hmem
  simp [Text.eqIgnoreAsciiCase] at this

/-- The columns of a created table have distinct names. -/
theorem nodup_declaredRows {table : TableDef} (h : table.WellFormed) :
    (table.declaredRows.map (·.name)).Nodup := by
  rw [TableDef.declaredRows, List.map_cons, List.map_map, List.nodup_cons]
  refine ⟨fun hmem => ?_, h.columns_nodup⟩
  obtain ⟨c, hc, hname⟩ := List.mem_map.mp hmem
  exact h.pk_not_mem c hc hname

theorem pkCount_declaredRows (table : TableDef) : pkCount table.declaredRows = 1 := by
  unfold pkCount TableDef.declaredRows
  rw [List.filter_cons_of_pos (by simp [PrimaryKeyDef.declaredRow]),
    List.filter_eq_nil_iff.mpr]
  · rfl
  · intro c hc
    obtain ⟨d, -, rfl⟩ := List.mem_map.mp hc
    simp [ColumnDef.declaredRow]

/-! ## What a statement did -/

section Exec

variable {e : Engine} {db db' : Database}

theorem exec_createTable {n : String} {t : TableDef}
    (h : e.exec db (.createTable n t) = .ok db') :
    db.nameTaken n = false ∧ db' = db.setTable n (t.declaredTable n) := by
  rw [Engine.exec] at h
  split at h
  · cases h
  · rename_i hfree
    exact ⟨by simpa using hfree, (Except.ok.inj h).symm⟩

theorem exec_createIndex {n : String} {i : IndexDef}
    (h : e.exec db (.createIndex n i) = .ok db') :
    db.nameTaken i.name = false
      ∧ db' = { db with objects := db.objects ++ [i.declaredObject n] } := by
  rw [Engine.exec] at h
  split at h
  · cases h
  · split_ifs at h with hfree
    exact ⟨by simpa using hfree, (Except.ok.inj h).symm⟩

theorem exec_dropIndex {i : IndexDef} (h : e.exec db (.dropIndex i) = .ok db') :
    db' = { db with objects := db.objects.filter (fun o =>
              !(o.kind = .index && o.name = i.name)) } := by
  rw [Engine.exec] at h
  split at h
  · cases h
  · split_ifs at h
    exact (Except.ok.inj h).symm

theorem exec_addColumn {n : String} {c : ColumnDef}
    (h : e.exec db (.addColumn n c) = .ok db') :
    ∃ t, db.tables.get? n = some t ∧ (∀ r ∈ t.columns, r.name ≠ c.name)
      ∧ db' = db.setTable n {
          sql := t.sql.map (addColumnText c)
          columns := t.columns ++ [c.declaredRow]
          foreignKeys := t.foreignKeys
          rows := t.rows.map
            (· ++ [(c.name, e.defaultValue c.affinity c.defaultSql)]) } := by
  rw [Engine.exec] at h
  split at h
  · cases h
  · rename_i t ht
    dsimp only at h
    split_ifs at h with hfree
    refine ⟨t, ht, fun r hr hname => hfree ?_, (Except.ok.inj h).symm⟩
    exact List.any_eq_true.mpr ⟨r, hr, by simp [Text.eqIgnoreAsciiCase, hname]⟩

theorem exec_copyRows {a b : String} {cols : List (String × String)}
    (h : e.exec db (.copyRows a b cols) = .ok db') :
    ∃ source table table', db.tables.get? a = some source ∧ db.tables.get? b = some table
      ∧ e.insertRows b table (source.rows.map (fun row =>
          cols.map (fun pair => (pair.2, row.get pair.1)))) = .ok table'
      ∧ db' = db.setTable b table' := by
  rw [Engine.exec] at h
  split at h
  · rename_i source table hs ht
    split_ifs at h
    split at h
    · cases h
    · rename_i table' hins
      exact ⟨source, table, table', hs, ht, hins, (Except.ok.inj h).symm⟩
  · cases h

theorem exec_dropTable {n : String} (h : e.exec db (.dropTable n) = .ok db') :
    db' = db.removeTable n := by
  rw [Engine.exec] at h
  split at h
  · cases h
  · exact (Except.ok.inj h).symm

theorem exec_renameTable {a b : String} (h : e.exec db (.renameTable a b) = .ok db') :
    ∃ t, db.tables.get? a = some t ∧ db.nameTaken b = false ∧ db' = {
      tables := (db.tables.erase a).insert b { t with sql := t.sql.map (renameText a b) }
      objects := db.objects.map (fun o =>
        if o.kind ≠ .view ∧ o.tblName = a then { o with tblName := b } else o) } := by
  rw [Engine.exec] at h
  split at h
  · cases h
  · rename_i t ht
    split_ifs at h with hfree
    exact ⟨t, ht, by simpa using hfree, (Except.ok.inj h).symm⟩

theorem exec_replay {sql : String} (h : e.exec db (.replay sql) = .ok db') :
    ∃ o, e.declared sql = some o ∧ (o.kind ≠ .trigger → db.nameTaken o.name = false)
      ∧ db' = { db with objects := db.objects ++ [o] } := by
  rw [Engine.exec] at h
  split at h
  · cases h
  · rename_i o ho
    split at h
    · cases h
    · split_ifs at h with hfree
      exact ⟨o, ho, fun hk => by simpa [hk] using hfree, (Except.ok.inj h).symm⟩

theorem exec_ensureHistoryTable (h : e.exec db .ensureHistoryTable = .ok db') :
    db' = db ∨ db.nameTaken historyTable = false
      ∧ db' = db.setTable historyTable newHistoryTable := by
  rw [Engine.exec] at h
  split_ifs at h with h₁ h₂
  · exact Or.inl (Except.ok.inj h).symm
  · exact Or.inr ⟨by simpa using h₂, (Except.ok.inj h).symm⟩

theorem exec_integrityCheck (h : e.exec db .integrityCheck = .ok db') : db' = db := by
  rw [Engine.exec] at h
  split_ifs at h
  exact (Except.ok.inj h).symm

theorem exec_insertHistory {row : HistoryRow}
    (h : e.exec db (.insertHistory row) = .ok db') :
    ∃ t t', db.tables.get? historyTable = some t
      ∧ e.insertRow historyTable t row.given = .ok t'
      ∧ db' = db.setTable historyTable t' := by
  rw [Engine.exec] at h
  split at h
  · cases h
  · rename_i t ht
    split at h
    · cases h
    · rename_i t' hins
      exact ⟨t, t', ht, hins, (Except.ok.inj h).symm⟩

theorem execAll_cons {statement : Statement} {rest : List Statement}
    (h : e.execAll db (statement :: rest) = .ok db') :
    ∃ mid, e.exec db statement = .ok mid ∧ e.execAll mid rest = .ok db' := by
  rw [Engine.execAll] at h
  split at h
  · cases h
  · rename_i mid hmid
    exact ⟨mid, hmid, h⟩

/-- An insertion appends its row and changes nothing else. -/
theorem insertRow_eq_ok {n : String} {t t' : SqliteTable} {given : List (String × Value)}
    (h : e.insertRow n t given = .ok t') :
    t' = { t with rows := t.rows ++ [e.insertedRow t given] } := by
  unfold Engine.insertRow at h
  dsimp only at h
  split at h
  · cases h
  · split at h
    · cases h
    · split_ifs at h
      exact (Except.ok.inj h).symm

end Exec

end Seekwel
