import Seekwel.FieldTypes
import Seekwel.ModelSpec
import Seekwel.SqlStore

/-!
# Records and their rows

The records of a model, and the statements that save, find and delete them.
A model has a key and fields, each with a type that says how its values are
stored and read. What a record sends to the database and how it is built
from a row are generated from the declaration in several places, which agree
only by position: the columns and the parameters of a statement, the numbers
of its placeholders, and the index at which a field is read.

A statement acts on the table as it is read. A text that is not read is an
error of the database.
-/

namespace Seekwel.Model

open Sql (Table Result Schema Stored)

/-! ## Models -/

/-- **A stored field of a model.** -/
structure Field where
  columnName : String
  defaultSql : Option String
  T : Type
  sqlField : SqlField T

/-- The values of fields. -/
def Values : List Field → Type
  | [] => Unit
  | field :: fields => field.T × Values fields

/-- **A model**, with the types of its fields. -/
structure Declaration where
  tableName : String
  primaryKeyName : String
  primaryKeyType : IntType
  autoIncrement : Bool
  fields : List Field
  indexes : List IndexDef
  /-- Whether the validator finds no error in a new record. -/
  validNew : primaryKeyType.Carrier → Values fields → Bool
  /-- Whether the validator finds no error in a persisted record. -/
  validPersisted : primaryKeyType.Carrier → Values fields → Bool

def Field.columnDef (field : Field) : ColumnDef :=
  ⟨field.columnName, field.sqlField.sqlType, field.sqlField.nullable, field.defaultSql⟩

def Declaration.modelDef (M : Declaration) : ModelDef where
  tableName := M.tableName
  primaryKey := ⟨M.primaryKeyName, "INTEGER", M.autoIncrement⟩
  columns := M.fields.map Field.columnDef
  indexes := M.indexes

/-! ## Records -/

/-- A record that has not been saved. Its key counts if it is not
generated. -/
structure NewRecord (M : Declaration) where
  key : M.primaryKeyType.Carrier
  values : Values M.fields

/-- **A record that exists in the database.** Its key has an association
id. -/
@[ext]
structure Persisted (M : Declaration) where
  key : M.primaryKeyType.Carrier
  values : Values M.fields
  nonneg : 0 ≤ key.1

/-- The values of the fields, in the order of the columns. -/
def params : (fields : List Field) → Values fields → List Value
  | [], _ => []
  | field :: fields, (value, values) => field.sqlField.toSqlValue value :: params fields values

/-- The values of the fields from an index of a row on. -/
def fromRowFields : (fields : List Field) → ℕ → List Value → Except Error (Values fields)
  | [], _, _ => .ok ()
  | field :: fields, index, row =>
    match row[index]? with
    | some stored =>
      (field.sqlField.fromSqlRow stored).bind fun value =>
        (fromRowFields fields (index + 1) row).map fun values => (value, values)
    | none => .error (.sqlite "Invalid column index")

variable {M : Declaration}

/-- The parameters of an `INSERT`, in the order of its columns. -/
def NewRecord.insertParams (record : NewRecord M) : List Value :=
  if M.autoIncrement then params M.fields record.values
  else M.primaryKeyType.toSqlValue record.key :: params M.fields record.values

/-- **Building a record from a row**: the key is in the first column. -/
def fromRow (M : Declaration) (row : List Value) : Except Error (Persisted M) :=
  match row[0]? with
  | some stored =>
    (M.primaryKeyType.fromSqlRow stored).bind fun key =>
      match h : M.primaryKeyType.toAssociationId key with
      | .ok _ => (fromRowFields M.fields 1 row).map fun values =>
          ⟨key, values, IntType.nonneg_of_toAssociationId h⟩
      | .error _ => .error (.sqlite "to sql conversion failure")
  | none => .error (.sqlite "Invalid column index")

/-- **When a row is read as a record.** -/
theorem fromRow_eq_ok_iff {stored : Value} {rest : List Value} {record : Persisted M} :
    fromRow M (stored :: rest) = .ok record
      ↔ M.primaryKeyType.fromSqlRow stored = .ok record.key
        ∧ fromRowFields M.fields 1 (stored :: rest) = .ok record.values := by
  simp only [fromRow, List.getElem?_cons_zero]
  cases hkey : M.primaryKeyType.fromSqlRow stored with
  | error e => exact iff_of_false (fun h => nomatch h) (fun h => nomatch h.1)
  | ok key =>
    simp only [Except.bind]
    constructor
    · intro h
      split at h
      · obtain ⟨values, hvalues, rfl⟩ := map_eq_ok h
        exact ⟨rfl, hvalues⟩
      · cases h
    · rintro ⟨hkey, hvalues⟩
      obtain rfl := Except.ok.inj hkey
      split
      · rw [hvalues]
        rfl
      · rename_i e herror
        rw [IntType.toAssociationId_of_nonneg record.nonneg] at herror
        cases herror

/-! ## The database -/

/-- The values of the database. -/
def sqlValues : Sql.Values Value where
  null := .null
  isNull v := v = .null
  integer := .integer
  integer? v :=
    match v with
    | .integer n => some n
    | _ => none
  isNull_integer n := by simp
  integer?_integer n := rfl

/-- **Executing a statement** about the rows of a table. -/
def execute (t : Table Value) (query : String) (params : List Value) :
    Except Error (Result Value) :=
  match Sql.readCommand query with
  | some command =>
    match t.run sqlValues params command with
    | .ok result => .ok result
    | .error message => .error (.sqlite message)
  | none => .error (.sqlite "syntax error")

/-- Why a record was not saved. -/
inductive SaveError where
  /-- The validator found errors. -/
  | invalid
  | error (e : Error)
  deriving DecidableEq

/-- Inserts a new record. The rowid is cast to `u64`. -/
def insertRecord (t : Table Value) (record : NewRecord M) : Except Error ℤ × Table Value :=
  match execute t (insert M.tableName M.modelDef.insertColumns) record.insertParams with
  | .ok result => (.ok (castU64 (result.rowid.getD 0)), result.table)
  | .error e => (.error e, t)

/-- The record that has been inserted, with its generated key or its own. -/
def NewRecord.intoPersisted (record : NewRecord M) (id : ℤ) : Except Error (Persisted M) :=
  (if M.autoIncrement then M.primaryKeyType.fromGeneratedId id else .ok record.key).bind fun key =>
    match h : M.primaryKeyType.toAssociationId key with
    | .ok _ => .ok ⟨key, record.values, IntType.nonneg_of_toAssociationId h⟩
    | .error e => .error e

/-- **Saving a new record**, and the table after it. -/
def NewRecord.save (record : NewRecord M) (t : Table Value) :
    Except SaveError (Persisted M) × Table Value :=
  if M.validNew record.key record.values then
    match insertRecord t record with
    | (.ok id, t') => ((record.intoPersisted id).mapError .error, t')
    | (.error e, t') => (.error (.error e), t')
  else (.error .invalid, t)

/-- The key as a parameter. -/
def keyValue (M : Declaration) (key : M.primaryKeyType.Carrier) : Value :=
  M.primaryKeyType.toSqlValue key

/-- **Finding a record** by its key. -/
def find (M : Declaration) (t : Table Value) (key : M.primaryKeyType.Carrier) :
    Except Error (Persisted M) :=
  (execute t (selectByPrimaryKey M.tableName M.modelDef.primaryKey M.modelDef.columns)
      [keyValue M key]).bind fun result =>
    match result.rows with
    | [] => .error (.sqlite "Query returned no rows")
    | row :: _ => fromRow M row

/-- **Saving a persisted record**, and the table after it. -/
def Persisted.save (record : Persisted M) (t : Table Value) :
    Except SaveError Unit × Table Value :=
  if M.validPersisted record.key record.values then
    match execute t (updateByPrimaryKey M.tableName M.modelDef.primaryKey M.modelDef.columns)
        (params M.fields record.values ++ [keyValue M record.key]) with
    | .ok result =>
      if result.changes = 0 then
        (.error (.error (.sqlite "Query returned no rows")), result.table)
      else (.ok (), result.table)
    | .error e => (.error (.error e), t)
  else (.error .invalid, t)

/-- **Deleting a record**, and the table after it. -/
def Persisted.delete (record : Persisted M) (t : Table Value) : Except Error Unit × Table Value :=
  match execute t (deleteByPrimaryKey M.tableName M.modelDef.primaryKey)
      [keyValue M record.key] with
  | .ok result =>
    if result.changes = 0 then (.error (.sqlite "Query returned no rows"), result.table)
    else (.ok (), result.table)
  | .error e => (.error e, t)

end Seekwel.Model
