import Seekwel.SortedMap
import Seekwel.Types

/-!
# The live database

What SQLite keeps of a database, as far as the schema code can see it: the
tables with their stored statement, the rows that `PRAGMA table_xinfo` and
`PRAGMA foreign_key_list` report for them and their contents, and the
indexes, triggers and views in the order of `sqlite_schema`. The history
table is a table like the others.

The crate compares names exactly. SQLite takes two names for the same that
differ in the case of ASCII letters only, which matters where a new name
must not be taken yet (`Database.nameTaken`).
-/

namespace Seekwel

/-- A value stored in a row. A real number is kept as its bits. -/
inductive Value where
  | null
  | integer (n : ℤ)
  | real (bits : UInt64)
  | text (s : String)
  | blob (bytes : List UInt8)
  deriving DecidableEq

/-- A row, as the values under its column names. -/
abbrev Row := List (String × Value)

/-- The value of a column, `NULL` for a column the row does not have. -/
def Row.get (row : Row) (column : String) : Value :=
  ((row.find? (fun e => e.1 = column)).map Prod.snd).getD .null

/-- A row of `PRAGMA table_xinfo`. -/
structure ColumnRow where
  name : String
  sqlType : String
  notNull : Bool
  defaultSql : Option String
  /-- The position in the primary key, zero for a column outside it. -/
  pk : ℤ
  /-- Non-zero for hidden and generated columns. -/
  hidden : ℤ
  deriving DecidableEq

/-- A table of the database. -/
structure SqliteTable where
  /-- The stored `CREATE TABLE` statement. -/
  sql : Option String
  /-- The rows of `PRAGMA table_xinfo`. -/
  columns : List ColumnRow
  /-- The tables that `PRAGMA foreign_key_list` says it refers to. -/
  foreignKeys : List String
  /-- The contents. -/
  rows : List Row
  deriving DecidableEq

/-- The kinds of schema objects that belong to or mention a table. -/
inductive ReplayKind where
  | index
  | trigger
  | view
  deriving DecidableEq

/-- An index, trigger or view: its row of `sqlite_schema` and, for an
index, what `PRAGMA index_list` and `PRAGMA index_info` report. -/
structure SchemaObject where
  kind : ReplayKind
  name : String
  tblName : String
  /-- The stored statement; absent for an automatic index. -/
  sql : Option String
  /-- Whether an index is unique. -/
  unique : Bool
  /-- Whether an index has a `WHERE` clause. -/
  isPartial : Bool
  /-- The columns of an index; absent for an expression or the rowid. -/
  keyColumns : List (Option String)
  deriving DecidableEq

/-- **The live database.** -/
structure Database where
  /-- The tables, the history table among them. -/
  tables : SortedMap String SqliteTable
  /-- The indexes, triggers and views, in the order of `sqlite_schema`. -/
  objects : List SchemaObject
  deriving DecidableEq

/-- Whether a table, an index or a view has a name already. Triggers have
names of their own. -/
def Database.nameTaken (db : Database) (name : String) : Bool :=
  db.tables.keys.any (Text.eqIgnoreAsciiCase name)
    || db.objects.any (fun o =>
        o.kind ≠ .trigger && Text.eqIgnoreAsciiCase name o.name)

/-- The database without any table. -/
def Database.empty : Database := ⟨SortedMap.empty, []⟩

end Seekwel
