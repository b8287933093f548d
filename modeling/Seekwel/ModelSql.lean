import Seekwel.Text
import Seekwel.Types

/-!
# The SQL of models

What a model is to the database, and the statements the model layer sends
for it. Names are put into the text as they are.
-/

namespace Seekwel.Model

/-! ## Models -/

/-- Describes a model's primary key column. -/
structure PrimaryKeyDef where
  /-- The primary-key column name in SQLite. -/
  name : String
  /-- The SQLite type name used in `CREATE TABLE` statements. -/
  sqlType : String
  /-- Whether inserts omit the primary-key column and rely on SQLite to
  generate it. -/
  autoIncrement : Bool
  deriving DecidableEq

/-- **What the database knows of a model.** Columns and indexes are
described as in a schema. -/
structure ModelDef where
  tableName : String
  primaryKey : PrimaryKeyDef
  /-- The stored columns but the primary key, in the order of the
  declaration. -/
  columns : List ColumnDef
  indexes : List IndexDef
  deriving DecidableEq

/-! ## Lists of columns -/

def columnNames (columns : List ColumnDef) : String :=
  Text.join ", " (columns.map (·.name))

/-- The placeholders of `count` values, numbered from `startAt`. -/
def placeholders (count startAt : ℕ) : String :=
  Text.join ", " ((List.range' startAt count).map fun index => "?" ++ toString index)

def assignments (columns : List ColumnDef) (startAt : ℕ) : String :=
  Text.join ", " (columns.zipIdx.map fun (column, index) =>
    column.name ++ " = ?" ++ toString (startAt + index))

def selectColumns (primaryKeyName : String) (columns : List ColumnDef) : String :=
  Text.join ", " (primaryKeyName :: columns.map (·.name))

/-! ## Queries -/

inductive OrderDirection where
  | asc
  | desc
  deriving DecidableEq

def OrderDirection.asSql : OrderDirection → String
  | asc => "ASC"
  | desc => "DESC"

inductive OrderTerm where
  | column (name : String) (direction : OrderDirection)
  /-- A fragment that is put into the statement as it is. -/
  | raw (sql : String)
  deriving DecidableEq

def OrderTerm.toSql : OrderTerm → String
  | column name direction => name ++ " " ++ direction.asSql
  | raw sql => sql

def orderByClause (ordering : List OrderTerm) : Option String :=
  if ordering.isEmpty then none
  else some (Text.join ", " (ordering.map OrderTerm.toSql))

inductive Projection where
  | modelColumns (primaryKeyName : String) (columns : List ColumnDef)
  | countAll
  | one

def Projection.toSql : Projection → String
  | modelColumns primaryKeyName columns => selectColumns primaryKeyName columns
  | countAll => "COUNT(*)"
  | one => "1"

/-- A `SELECT` statement. -/
structure Select where
  projection : Projection
  tableName : String
  clause : Option String
  orderClause : Option String
  limit : Option ℕ
  offset : Option ℕ

/-- SQLite requires a `LIMIT` when using `OFFSET`, so `LIMIT -1` is emitted
for offset-only queries. -/
def appendLimitOffset (query : String) (limit offset : Option ℕ) : String :=
  let query := match limit with
    | some limit => query ++ (" LIMIT " ++ toString limit)
    | none => query
  match offset with
  | some offset =>
    let query := if limit.isNone then query ++ " LIMIT -1" else query
    query ++ (" OFFSET " ++ toString offset)
  | none => query

def Select.toSql (select : Select) : String :=
  let query := "SELECT " ++ select.projection.toSql ++ " FROM " ++ select.tableName
  let query := match select.clause with
    | some clause => query ++ (" WHERE " ++ clause)
    | none => query
  let query := match select.orderClause with
    | some orderClause => query ++ (" ORDER BY " ++ orderClause)
    | none => query
  appendLimitOffset query select.limit select.offset

/-- The statement that counts what a `SELECT` would return. -/
structure Count where
  select : Select

def Count.toSql (count : Count) : String :=
  if count.select.limit.isNone && count.select.offset.isNone then
    { count.select with projection := .countAll, orderClause := none }.toSql
  else
    let inner := { count.select with projection := .one }.toSql
    "SELECT COUNT(*) FROM (" ++ inner ++ ") AS seekwel_count"

/-- The `SELECT ... WHERE id = ?1` statement for a model table. -/
def selectByPrimaryKey (tableName : String) (primaryKey : PrimaryKeyDef)
    (columns : List ColumnDef) : String :=
  Select.toSql
    { projection := .modelColumns primaryKey.name columns
      tableName := tableName
      clause := some (primaryKey.name ++ " = ?1")
      orderClause := none
      limit := none
      offset := none }

/-! ## Changes -/

def insert (tableName : String) (columns : List ColumnDef) : String :=
  if columns.isEmpty then "INSERT INTO " ++ tableName ++ " DEFAULT VALUES"
  else
    "INSERT INTO " ++ tableName ++ " (" ++ columnNames columns ++ ") VALUES ("
      ++ placeholders columns.length 1 ++ ")"

def updateByPrimaryKey (tableName : String) (primaryKey : PrimaryKeyDef)
    (columns : List ColumnDef) : String :=
  if columns.isEmpty then
    "UPDATE " ++ tableName ++ " SET " ++ primaryKey.name ++ " = " ++ primaryKey.name
      ++ " WHERE " ++ primaryKey.name ++ " = ?1"
  else
    "UPDATE " ++ tableName ++ " SET " ++ assignments columns 1 ++ " WHERE "
      ++ primaryKey.name ++ " = ?" ++ toString (columns.length + 1)

def deleteByPrimaryKey (tableName : String) (primaryKey : PrimaryKeyDef) : String :=
  "DELETE FROM " ++ tableName ++ " WHERE " ++ primaryKey.name ++ " = ?1"

/-! ## Tables -/

def columnDefinitions (columns : List ColumnDef) : String :=
  Text.join ", " (columns.map fun column =>
    column.name ++ " " ++ column.sqlType
      ++ (if column.nullable then "" else " NOT NULL")
      ++ (match column.defaultSql with
          | some defaultSql => " DEFAULT " ++ defaultSql
          | none => ""))

def createTable (tableName : String) (primaryKey : PrimaryKeyDef)
    (columns : List ColumnDef) : String :=
  let definitions := columnDefinitions columns
  let primaryKey := primaryKey.name ++ " " ++ primaryKey.sqlType ++ " PRIMARY KEY"
  if definitions = "" then
    "CREATE TABLE IF NOT EXISTS " ++ tableName ++ " (" ++ primaryKey ++ ")"
  else
    "CREATE TABLE IF NOT EXISTS " ++ tableName ++ " (" ++ primaryKey ++ ", " ++ definitions
      ++ ")"

def createIndex (tableName : String) (index : IndexDef) : String :=
  "CREATE " ++ (if index.unique then "UNIQUE " else "") ++ "INDEX IF NOT EXISTS "
    ++ index.name ++ " ON " ++ tableName ++ " (" ++ index.column ++ ")"

end Seekwel.Model
