import Seekwel.Catalog
import Seekwel.Error
import Seekwel.Text

/-!
# Query expressions

The filter of a query is a tree of comparisons joined by *and* and *or*.
`QueryExpression.intoClause` turns it into the text of a `WHERE` condition
and appends the operands of its comparisons to the parameters of the
statement, to which the text refers by number.
-/

namespace Seekwel.Model

/-! ## Comparisons -/

inductive ComparisonOperator where
  | eq
  | ne
  | gt
  | gte
  | lt
  | lte
  | in
  | isNull
  | isNotNull
  deriving DecidableEq

inductive ComparisonValue where
  | single (value : Option Value)
  | many (values : List Value)
  deriving DecidableEq

def ComparisonValue.isMany : ComparisonValue → Bool
  | single _ => false
  | many _ => true

/-- A value that can appear on the right-hand side of a comparison. -/
inductive ComparisonOperand where
  /-- A value of a type that does not convert to comparison values in its own
  way, as the type stores it. -/
  | field (value : Value)
  /-- A value of an `Option` type, as the type inside stores it. -/
  | option (value : Option Value)

/-- The comparison value. `none` represents SQL `NULL`. -/
def ComparisonOperand.intoSqlValue : ComparisonOperand → Option Value
  | field value => some value
  | option value => value

/-- **A comparison** used in query predicates. It compares with a list if
and only if it is made by `In`, and with nothing if it asks for `NULL`. -/
structure Comparison where
  operator : ComparisonOperator
  value : ComparisonValue
  isMany_value : value.isMany = decide (operator = .in)
  value_of_isNull : operator = .isNull ∨ operator = .isNotNull → value = .single none

namespace Comparison

def withValue (operator : ComparisonOperator) (operand : ComparisonOperand)
    (h : operator ∉ [ComparisonOperator.in, .isNull, .isNotNull]) : Comparison where
  operator := operator
  value := .single operand.intoSqlValue
  isMany_value := by
    simp only [List.mem_cons, not_or] at h
    simp [ComparisonValue.isMany, h.1]
  value_of_isNull := by
    simp only [List.mem_cons, not_or] at h
    simp [h.2.1, h.2.2.1]

def Eq (operand : ComparisonOperand) : Comparison := withValue .eq operand (by decide)

def Ne (operand : ComparisonOperand) : Comparison := withValue .ne operand (by decide)

def Gt (operand : ComparisonOperand) : Comparison := withValue .gt operand (by decide)

def Gte (operand : ComparisonOperand) : Comparison := withValue .gte operand (by decide)

def Lt (operand : ComparisonOperand) : Comparison := withValue .lt operand (by decide)

def Lte (operand : ComparisonOperand) : Comparison := withValue .lte operand (by decide)

/-- An `IN (...)` comparison, with the `NULL` operands left out. -/
def In (operands : List ComparisonOperand) : Comparison where
  operator := .in
  value := .many (operands.filterMap ComparisonOperand.intoSqlValue)
  isMany_value := rfl
  value_of_isNull := by simp

def IsNull : Comparison where
  operator := .isNull
  value := .single none
  isMany_value := rfl
  value_of_isNull := fun _ => rfl

def IsNotNull : Comparison where
  operator := .isNotNull
  value := .single none
  isMany_value := rfl
  value_of_isNull := fun _ => rfl

end Comparison

def ComparisonOperator.asStr : ComparisonOperator → String
  | eq => "Eq"
  | ne => "Ne"
  | gt => "Gt"
  | gte => "Gte"
  | lt => "Lt"
  | lte => "Lte"
  | .in => "In"
  | isNull => "IsNull"
  | isNotNull => "IsNotNull"

/-! ## Rendering -/

/-- The placeholder of a value that is added to the parameters, and the
parameters with it. -/
def pushPlaceholder (params : List Value) (value : Value) : String × List Value :=
  ("?" ++ toString (params.length + 1), params ++ [value])

/-- The placeholders of several values. -/
def pushPlaceholders : List Value → List Value → List String × List Value
  | params, [] => ([], params)
  | params, value :: rest =>
    let (placeholder, params) := pushPlaceholder params value
    let (placeholders, params) := pushPlaceholders params rest
    (placeholder :: placeholders, params)

/-- A comparison with one value. -/
def comparisonClause (column operator : String) (value : Value) (params : List Value) :
    Except Error (String × List Value) :=
  let (placeholder, params) := pushPlaceholder params value
  .ok (column ++ operator ++ placeholder, params)

/-- **The text of a comparison**, and the parameters with its operands. -/
def Comparison.intoClause (comparison : Comparison) (column : String)
    (params : List Value) : Except Error (String × List Value) :=
  match comparison.operator, comparison.value with
  | .eq, .single (some value) => comparisonClause column " = " value params
  | .eq, .single none => .ok (column ++ " IS NULL", params)
  | .isNull, .single _ => .ok (column ++ " IS NULL", params)
  | .ne, .single (some value) => comparisonClause column " != " value params
  | .ne, .single none => .ok (column ++ " IS NOT NULL", params)
  | .isNotNull, .single _ => .ok (column ++ " IS NOT NULL", params)
  | .gt, .single (some value) => comparisonClause column " > " value params
  | .gte, .single (some value) => comparisonClause column " >= " value params
  | .lt, .single (some value) => comparisonClause column " < " value params
  | .lte, .single (some value) => comparisonClause column " <= " value params
  | .in, .many values =>
    if values.isEmpty then .ok ("0 = 1", params)
    else
      let (placeholders, params) := pushPlaceholders params values
      .ok (column ++ " IN (" ++ Text.join ", " placeholders ++ ")", params)
  | operator, .single none =>
    .error (.invalidQuery (operator.asStr ++ " comparisons do not support NULL"))
  | operator, .single (some _) =>
    .error (.invalidQuery
      (operator.asStr ++ " comparisons do not support this value shape"))
  | operator, .many _ =>
    .error (.invalidQuery
      (operator.asStr ++ " comparisons do not support list values here"))

/-! ## Trees -/

/-- **The filter of a query.** -/
inductive QueryExpression where
  | empty
  | predicate (column : String) (comparison : Comparison)
  | and (left right : QueryExpression)
  | or (left right : QueryExpression)

def combineClauses (left right : Option String) (operator : String) : Option String :=
  match left, right with
  | none, none => none
  | some clause, none => some clause
  | none, some clause => some clause
  | some left, some right => some ("(" ++ left ++ ") " ++ operator ++ " (" ++ right ++ ")")

/-- **The text of a filter**, if it has a comparison, and the parameters
with its operands. After an error the parameters are not used any more. -/
def QueryExpression.intoClause :
    QueryExpression → List Value → Except Error (Option String × List Value)
  | empty, params => .ok (none, params)
  | predicate column comparison, params =>
    (comparison.intoClause column params).map fun p => (some p.1, p.2)
  | and left right, params =>
    (left.intoClause params).bind fun l =>
      (right.intoClause l.2).map fun r => (combineClauses l.1 r.1 "AND", r.2)
  | or left right, params =>
    (left.intoClause params).bind fun l =>
      (right.intoClause l.2).map fun r => (combineClauses l.1 r.1 "OR", r.2)

end Seekwel.Model
