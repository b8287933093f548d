import Seekwel.Types

/-!
# Desired schemas

Where target schemas come from: `SchemaBuilder` collects the tables of the
models it is given and normalizes them. The columns of a model carry the
default expressions that the `#[default = …]` attributes of its fields are
translated to (`defaultSqlFromExpr`).
-/

namespace Seekwel

/-! ## Default expressions -/

/-- A Rust literal. Numbers are kept as their digits. -/
inductive Lit where
  | bool (value : Bool)
  | int (base10Digits : String)
  | float (base10Digits : String)
  | str (value : String)
  | char (value : Char)
  | other
  deriving DecidableEq

/-- A Rust expression, as far as defaults are made of it. -/
inductive Expr where
  | lit (lit : Lit)
  | paren (expr : Expr)
  | group (expr : Expr)
  | neg (expr : Expr)
  | pathNone
  | callSome (arg : Expr)
  | other
  deriving DecidableEq

/-- The message for a default that has no SQL literal. -/
def unsupportedDefault : String :=
  "defaults must be SQLite literal values: booleans, numbers, strings, None, or Some(value)"

/-- A string as an SQL literal, the quotes inside it doubled. -/
def sqlStringLiteral (value : String) : String :=
  "'" ++ Text.replace value '\'' "''" ++ "'"

def defaultSqlFromLit : Lit → Except String String
  | .bool value => .ok (if value then "1" else "0")
  | .int base10Digits => .ok base10Digits
  | .float base10Digits => .ok base10Digits
  | .str value => .ok (sqlStringLiteral value)
  | .char value => .ok (sqlStringLiteral (String.singleton value))
  | .other => .error unsupportedDefault

/-- **The SQL of a default expression.** -/
def defaultSqlFromExpr : Expr → Except String String
  | .lit lit => defaultSqlFromLit lit
  | .paren expr => defaultSqlFromExpr expr
  | .group expr => defaultSqlFromExpr expr
  | .neg expr =>
    match defaultSqlFromExpr expr with
    | .error message => .error message
    | .ok inner =>
      if Text.startsWith inner "-" || Text.startsWith inner "'" || inner = "NULL" then
        .error unsupportedDefault
      else .ok ("-" ++ inner)
  | .pathNone => .ok "NULL"
  | .callSome arg => defaultSqlFromExpr arg
  | .other => .error unsupportedDefault

/-! ## The builder -/

/-- The tables of the models collected so far. -/
structure SchemaBuilder where
  tables : List TableDef

/-- The builder without a model. -/
def SchemaBuilder.new : SchemaBuilder := ⟨[]⟩

/-- Adding the table of a model. -/
def SchemaBuilder.model (builder : SchemaBuilder) (table : TableDef) : SchemaBuilder :=
  ⟨builder.tables ++ [table]⟩

/-- **The target schema** of the collected models. -/
def SchemaBuilder.build (builder : SchemaBuilder) : Except Error SchemaDef :=
  SchemaDef.normalized ⟨builder.tables⟩

/-- Every normalized schema is built from its own tables, and only
normalized schemas are built. -/
theorem SchemaBuilder.exists_build_iff {s : SchemaDef} :
    (∃ builder : SchemaBuilder, builder.build = .ok s) ↔ s.normalized = .ok s := by
  constructor
  · intro h
    obtain ⟨builder, h⟩ := h
    exact SchemaDef.normalized_normalized h
  · intro h
    exact ⟨⟨s.tables⟩, h⟩

end Seekwel
