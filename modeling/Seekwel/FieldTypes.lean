import Seekwel.Integers

/-!
# The types of fields

How the values of a type are stored in a column and read from it. Values of
the built-in types are read as they were stored: this holds for each of them
(`SqlField.Lawful`) and is kept by `Option`, as long as no value is stored as
`NULL`, which is what `None` is stored as.
-/

namespace Seekwel.Model

/-- **How values of a type are stored.** -/
structure SqlField (T : Type) where
  sqlType : String
  nullable : Bool
  toSqlValue : T → Value
  fromSqlRow : Value → Except Error T
  /-- The value as the operand of a comparison. -/
  intoSqlComparisonValue : T → Option Value

namespace SqlField

/-! ## Built-in types -/

/-- An integer is cast to `i64`. -/
def integer (t : IntType) : SqlField t.Carrier where
  sqlType := "INTEGER"
  nullable := false
  toSqlValue := t.toSqlValue
  fromSqlRow := t.fromSqlRow
  intoSqlComparisonValue value := some (t.toSqlValue value)

/-- A `bool` is an integer, and any but zero is true. -/
def bool : SqlField Bool where
  sqlType := "INTEGER"
  nullable := false
  toSqlValue value := .integer value.toInt
  fromSqlRow stored :=
    match stored with
    | .integer n => .ok (n ≠ 0)
    | _ => .error (.sqlite "Invalid column type")
  intoSqlComparisonValue value := some (.integer value.toInt)

def string : SqlField String where
  sqlType := "TEXT"
  nullable := false
  toSqlValue value := .text value
  fromSqlRow stored :=
    match stored with
    | .text s => .ok s
    | _ => .error (.sqlite "Invalid column type")
  intoSqlComparisonValue value := some (.text value)

/-- Any value is stored as it is. -/
def value : SqlField Value where
  sqlType := "BLOB"
  nullable := false
  toSqlValue value := value
  fromSqlRow stored := .ok stored
  intoSqlComparisonValue value := some value

variable {T : Type}

/-- `None` is `NULL`. -/
def option (field : SqlField T) : SqlField (Option T) where
  sqlType := field.sqlType
  nullable := true
  toSqlValue value :=
    match value with
    | some value => field.toSqlValue value
    | none => .null
  fromSqlRow stored :=
    match stored with
    | .null => .ok none
    | stored => (field.fromSqlRow stored).map some
  intoSqlComparisonValue value := value.map field.toSqlValue

/-! ## Reading what was stored -/

/-- **Values are read as they were stored.** -/
def Lawful (field : SqlField T) : Prop := ∀ v, field.fromSqlRow (field.toSqlValue v) = .ok v

theorem lawful_integer (t : IntType) : (integer t).Lawful := IntType.fromSqlRow_toSqlValue

theorem lawful_bool : bool.Lawful := by
  intro v
  cases v <;> rfl

theorem lawful_string : string.Lawful := fun _ => rfl

theorem lawful_value : value.Lawful := fun _ => rfl

theorem fromSqlRow_option {field : SqlField T} {stored : Value} (h : stored ≠ .null) :
    field.option.fromSqlRow stored = (field.fromSqlRow stored).map some := by
  cases stored with
  | null => exact absurd rfl h
  | integer n => rfl
  | real bits => rfl
  | text s => rfl
  | blob bytes => rfl

theorem lawful_option {field : SqlField T} (h : field.Lawful)
    (hnull : ∀ v, field.toSqlValue v ≠ .null) : field.option.Lawful := by
  intro v
  cases v with
  | none => rfl
  | some v =>
    show field.option.fromSqlRow (field.toSqlValue v) = .ok (some v)
    rw [fromSqlRow_option (hnull v), h v]
    rfl

end SqlField

end Seekwel.Model
