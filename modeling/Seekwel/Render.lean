import Seekwel.Plan

/-!
# Statement texts

The SQL texts that applying a plan sends to SQLite. Identifiers are always
quoted, with the quotes inside them doubled; declared types and default
expressions are put in as they are.

`retainedColumns` is the part of a rebuild that decides which data survives:
the pairs of an old and a new column name that the copy statement lists.
-/

namespace Seekwel

/-- A quoted identifier. -/
def quoteIdent (identifier : String) : String :=
  "\"" ++ Text.replace identifier '"' "\"\"" ++ "\""

theorem toList_quoteIdent (name : String) :
    (quoteIdent name).toList
      = '"' :: (Text.replaceChar '"' ['"', '"'] name.toList ++ ['"']) := by
  simp [quoteIdent, Text.replace]

/-- The definition of a column, in a `CREATE TABLE` or `ALTER TABLE`. -/
def renderColumnDefinition (column : ColumnDef) : String :=
  quoteIdent column.name ++ " " ++ column.sqlType
    ++ (if column.nullable then "" else " NOT NULL")
    ++ (match column.defaultSql with
        | some defaultSql => " DEFAULT " ++ defaultSql
        | none => "")

/-- The definition of a primary key. -/
def renderPrimaryKey (pk : PrimaryKeyDef) : String :=
  quoteIdent pk.name ++ " " ++ pk.sqlType ++ " PRIMARY KEY"

def renderCreateTableSql (tableName : String) (table : TableDef) : String :=
  "CREATE TABLE " ++ quoteIdent tableName ++ " ("
    ++ Text.join ", " (renderPrimaryKey table.primaryKey
        :: table.columns.map renderColumnDefinition)
    ++ ")"

def renderAddColumnSql (tableName : String) (column : ColumnDef) : String :=
  "ALTER TABLE " ++ quoteIdent tableName ++ " ADD COLUMN "
    ++ renderColumnDefinition column

def renderCreateIndexSql (tableName : String) (index : IndexDef) : String :=
  "CREATE " ++ (if index.unique then "UNIQUE " else "") ++ "INDEX "
    ++ quoteIdent index.name ++ " ON " ++ quoteIdent tableName
    ++ " (" ++ quoteIdent index.column ++ ")"

def renderDropIndexSql (index : IndexDef) : String :=
  "DROP INDEX " ++ quoteIdent index.name

def renderCopySql (fromTable toTable : String)
    (retainedColumns : List (String × String)) : String :=
  "INSERT INTO " ++ quoteIdent toTable
    ++ " (" ++ Text.join ", " (retainedColumns.map (fun e => quoteIdent e.2))
    ++ ") SELECT " ++ Text.join ", " (retainedColumns.map (fun e => quoteIdent e.1))
    ++ " FROM " ++ quoteIdent fromTable

def renderDropTableSql (tableName : String) : String :=
  "DROP TABLE " ++ quoteIdent tableName

def renderRenameTableSql (fromName toName : String) : String :=
  "ALTER TABLE " ++ quoteIdent fromName ++ " RENAME TO " ++ quoteIdent toName

/-- The name under which a table is built anew. -/
def rebuildName (tableName : String) : String := "__seekwel_rebuild_" ++ tableName

/-- **The columns a rebuild copies**, each as its old and its new name: the
primary key, and the columns that keep their name. -/
def retainedColumns (fromDef toDef : TableDef) : List (String × String) :=
  (fromDef.primaryKey.name, toDef.primaryKey.name)
    :: ((fromDef.columns.map (·.name)).filter
        (fun name => name ∈ toDef.columns.map (·.name))).map (fun name => (name, name))

/-- The message of a blocker. -/
def formatBlocker : PlanBlocker → String
  | .registryUncertain message => message
  | .uncertain message => message
  | .requiredColumnAddition table column =>
    "table `" ++ table ++ "` needs required column `" ++ column
      ++ "`, which cannot be added safely"
  | .unsupportedInlineFeature table feature =>
    "table `" ++ table ++ "` uses unsupported feature: " ++ feature
  | .realForeignKeys table => "table `" ++ table ++ "` participates in real foreign keys"
  | .dependentView table view =>
    "table `" ++ table ++ "` is referenced by dependent view `" ++ view ++ "`"
  | .dependentTrigger table trigger =>
    "table `" ++ table ++ "` is referenced by dependent trigger `" ++ trigger ++ "`"

def formatBlockers (blockers : List PlanBlocker) : String :=
  Text.join "; " (blockers.map formatBlocker)

/-- The statement that creates the history table. -/
def historyTableSql : String :=
  "CREATE TABLE IF NOT EXISTS " ++ historyTable ++ " ("
    ++ "id INTEGER PRIMARY KEY, "
    ++ "plan_id TEXT NOT NULL, "
    ++ "artifact_version INTEGER NOT NULL, "
    ++ "source_fingerprint TEXT NOT NULL, "
    ++ "target_fingerprint TEXT NOT NULL, "
    ++ "target_schema TEXT NOT NULL, "
    ++ "created_at TEXT NOT NULL DEFAULT CURRENT_TIMESTAMP)"

/-- The statement that inserts a row into the history table. -/
def insertHistorySql : String :=
  "INSERT INTO " ++ historyTable
    ++ " (plan_id, artifact_version, source_fingerprint, target_fingerprint, target_schema) "
    ++ "VALUES (?1, ?2, ?3, ?4, ?5)"

end Seekwel
