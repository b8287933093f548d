import Seekwel.FieldTypes
import Seekwel.ModelSpec
import Seekwel.Statement

/-!
# What a default means

The default of a field is used twice. The builder converts the Rust value of
the expression to the type of the field, and the schema has the expression as
an SQL literal, which is written without looking at that type. Where a row is
inserted without the field, what SQLite stores for the literal is read as the
value of the field. This should be the value that the builder uses
(`DefaultAgrees`).

It is for most of the conversions that Rust has. But an integer of `u64` from
`2 ^ 63` on is a real number to SQLite, and a character is a text, which is
not the number of its code (`default_agrees_iff`).
-/

namespace Seekwel.Model

/-! ## Types -/

/-- The types of fields that literals are converted to. -/
inductive BaseType where
  | int (t : IntType)
  | bool
  | string

abbrev BaseType.Carrier : BaseType → Type
  | int t => t.Carrier
  | bool => Bool
  | string => String

def BaseType.sqlField : (b : BaseType) → SqlField b.Carrier
  | int t => .integer t
  | bool => .bool
  | string => .string

/-- A type or the `Option` of one. -/
inductive FieldType where
  | base (b : BaseType)
  | option (b : BaseType)

abbrev FieldType.Carrier : FieldType → Type
  | base b => b.Carrier
  | option b => Option b.Carrier

def FieldType.sqlField : (T : FieldType) → SqlField T.Carrier
  | base b => b.sqlField
  | option b => b.sqlField.option

def FieldType.affinity (T : FieldType) : SqlAffinity :=
  SqlAffinity.fromDeclaredType T.sqlField.sqlType

/-! ## Expressions -/

inductive Literal where
  | bool (value : Bool)
  /-- An integer, in any radix, with the type it may have after it. -/
  | int (n : ℕ) (suffix : Option IntType)
  | str (value : String)
  | char (value : Char)

/-- **The expression of a default.** -/
inductive DefaultExpr where
  | lit (literal : Literal)
  | paren (expr : DefaultExpr)
  | neg (expr : DefaultExpr)
  | pathNone
  | callSome (arg : DefaultExpr)

/-- A literal as the macro sees it: integers are their decimal digits. -/
def Literal.lit : Literal → Lit
  | bool value => .bool value
  | int n _ => .int (toString n)
  | str value => .str value
  | char value => .char value

/-- An expression as the macro sees it. -/
def DefaultExpr.expr : DefaultExpr → Seekwel.Expr
  | lit literal => .lit literal.lit
  | paren expr => .paren expr.expr
  | neg expr => .neg expr.expr
  | pathNone => .pathNone
  | callSome arg => .callSome arg.expr

/-- A value of Rust. -/
inductive RustValue where
  | int (t : IntType) (n : ℤ)
  | bool (value : Bool)
  | char (value : Char)
  | str (value : String)
  | none
  | some (value : RustValue)

/-- The integer literal that an expression is, in parentheses or not. -/
def DefaultExpr.intLit? : DefaultExpr → Option (ℕ × Option IntType)
  | lit (.int n suffix) => .some (n, suffix)
  | paren expr => expr.intLit?
  | _ => .none

/-- **What an expression evaluates to.** A literal without a suffix may be of
any type that holds it, as inference has it. -/
inductive Evaluates : DefaultExpr → RustValue → Prop
  | bool (value : Bool) : Evaluates (.lit (.bool value)) (.bool value)
  | int {n : ℕ} {suffix : Option IntType} {t : IntType} (hsuffix : ∀ s ∈ suffix, s = t)
      (h : t.Holds n) : Evaluates (.lit (.int n suffix)) (.int t n)
  | str (value : String) : Evaluates (.lit (.str value)) (.str value)
  | char (value : Char) : Evaluates (.lit (.char value)) (.char value)
  | paren {expr : DefaultExpr} {v : RustValue} (h : Evaluates expr v) : Evaluates (.paren expr) v
  /-- The least value of a type is written with a minus, too. -/
  | neg {expr : DefaultExpr} {n : ℕ} {suffix : Option IntType} {t : IntType}
      (hlit : expr.intLit? = .some (n, suffix)) (hsuffix : ∀ s ∈ suffix, s = t)
      (hsigned : t.isSigned = true) (h : t.Holds (-n)) : Evaluates (.neg expr) (.int t (-n))
  | none : Evaluates .pathNone .none
  | some {arg : DefaultExpr} {v : RustValue} (h : Evaluates arg v) :
      Evaluates (.callSome arg) (.some v)

/-! ## Conversions -/

/-- The values of a type. -/
def BaseType.exact : (b : BaseType) → RustValue → Option b.Carrier
  | int t, .int s n => if s = t then t.tryFrom n else .none
  | bool, .bool value => .some value
  | _, _ => .none

/-- **Converting into a type**, as `From` is implemented: between integer types
where every value fits. -/
def BaseType.into : (b : BaseType) → RustValue → Option b.Carrier
  | int t, .int s n => if t.min ≤ s.min ∧ s.max ≤ t.max then t.tryFrom n else .none
  | int t, .bool value => t.tryFrom value.toInt
  | int t, .char c => if t = .u32 ∨ t = .u64 then t.tryFrom c.toNat else .none
  | bool, .bool value => .some value
  | string, .str value => .some value
  | string, .char c => .some (String.singleton c)
  | _, _ => .none

/-- Converting into the type of a field. An `Option` is made of the values of
its type alone. -/
def FieldType.into : (T : FieldType) → RustValue → Option T.Carrier
  | base b, v => b.into v
  | option _, .none => .some .none
  | option b, .some v => (b.exact v).map .some
  | option b, v => (b.exact v).map .some

/-! ## The literal in SQL -/

/-- What the tokens of a literal stand for. A numeral that is no integer of 64
bits is a real number. -/
def literalValue? (e : Engine) : List Sql.Token → Option Value
  | [.number digits] => (Sql.natural? digits.toList).map fun n : ℕ =>
      if n < 2 ^ 63 then .integer n else .real (e.toReal n)
  | [.symbol "-", .number digits] => (Sql.natural? digits.toList).map fun n : ℕ =>
      if n ≤ 2 ^ 63 then .integer (-n) else .real (e.toReal (-n))
  | [.quoted mark text] => if mark = '\'' then some (.text text) else none
  | [t] => if t.isKeyword "NULL" then some .null else none
  | _ => none

/-- **The value of a default** in the text of a table. -/
def defaultValue? (e : Engine) (sql : String) : Option Value :=
  (Sql.tokens sql).bind (literalValue? e)

/-- **A default means the same to both**: what is stored for its SQL is read
as the value that the builder uses. -/
def DefaultAgrees (e : Engine) (T : FieldType) (sql : String) (value : T.Carrier) : Prop :=
  ∃ stored, defaultValue? e sql = some stored
    ∧ T.sqlField.fromSqlRow (e.store T.affinity stored) = .ok value

/-- What is known of how SQLite converts to integers: a text of one character
is a number if it is a digit, and a real number from `2 ^ 63` on is no integer
of 64 bits. -/
structure ReadsNumbers (e : Engine) : Prop where
  digit : ∀ c : Char, c.isDigit = true →
    e.parseNumber (String.singleton c) = .integer (c.toNat - '0'.toNat)
  other : ∀ c : Char, c.isDigit = false →
    e.parseNumber (String.singleton c) = .text (String.singleton c)
  large : ∀ n : ℤ, 2 ^ 63 ≤ n → e.realToInteger (e.toReal n) = .real (e.toReal n)

/-! ## When they agree -/

/-- A value that is an SQL literal as well. -/
def BaseType.Keeps : BaseType → RustValue → Prop
  | int _, .int _ n => n < 2 ^ 63
  | int _, .char _ => False
  | _, _ => True

def FieldType.Keeps : FieldType → RustValue → Prop
  | base b, v => b.Keeps v
  | option b, .some v => b.Keeps v
  | option b, v => b.Keeps v

/-- No character of a value is `NUL`. -/
def RustValue.NoNul : RustValue → Prop
  | char c => c ≠ '\x00'
  | str value => '\x00' ∉ value.toList
  | some v => v.NoNul
  | _ => True

/-- The SQL of a value. -/
inductive SqlOf : RustValue → String → Prop
  | bool (value : Bool) : SqlOf (.bool value) (if value then "1" else "0")
  | nat (t : IntType) (n : ℕ) : SqlOf (.int t n) (toString n)
  | neg (t : IntType) (n : ℕ) : SqlOf (.int t (-n)) ("-" ++ toString n)
  | str (value : String) : SqlOf (.str value) (sqlStringLiteral value)
  | char (c : Char) : SqlOf (.char c) (sqlStringLiteral (String.singleton c))
  | none : SqlOf .none "NULL"
  | some {v : RustValue} {sql : String} (h : SqlOf v sql) : SqlOf (.some v) sql

theorem defaultSql_intLit? {expr : DefaultExpr} {n : ℕ} {suffix : Option IntType}
    (h : expr.intLit? = some (n, suffix)) :
    defaultSqlFromExpr expr.expr = .ok (toString n) := by
  induction expr with
  | lit literal =>
    cases literal with
    | int m suffix' =>
      cases h
      rfl
    | bool value => cases h
    | str value => cases h
    | char value => cases h
  | paren expr ih => exact ih h
  | neg expr => cases h
  | pathNone => cases h
  | callSome arg => cases h

/-- **The macro writes the SQL of the value.** -/
theorem sqlOf_of_evaluates {expr : DefaultExpr} {v : RustValue} {sql : String}
    (hv : Evaluates expr v) (hsql : defaultSqlFromExpr expr.expr = .ok sql) : SqlOf v sql := by
  induction hv with
  | bool value =>
    cases hsql
    exact .bool value
  | int hsuffix h =>
    cases hsql
    exact .nat _ _
  | str value =>
    cases hsql
    exact .str value
  | char value =>
    cases hsql
    exact .char value
  | paren h ih => exact ih hsql
  | neg hlit hsuffix hsigned h =>
    rw [DefaultExpr.expr, defaultSqlFromExpr, defaultSql_intLit? hlit] at hsql
    dsimp only at hsql
    split_ifs at hsql
    cases hsql
    exact .neg _ _
  | none =>
    cases hsql
    exact .none
  | some h ih => exact .some (ih hsql)

/-- What SQLite makes of the SQL of a value. -/
def sqlValueOf (e : Engine) : RustValue → Value
  | .bool value => .integer value.toInt
  | .int _ n => if -2 ^ 63 ≤ n ∧ n < 2 ^ 63 then .integer n else .real (e.toReal n)
  | .char c => .text (String.singleton c)
  | .str value => .text value
  | .none => .null
  | .some v => sqlValueOf e v

theorem defaultValue?_toString (e : Engine) (n : ℕ) :
    defaultValue? e (toString n)
      = some (if n < 2 ^ 63 then .integer n else .real (e.toReal n)) := by
  rw [defaultValue?, (Sql.reads_natural n).tokens_eq, Option.bind_some, literalValue?,
    Sql.natural?_toString, Option.map_some]

theorem defaultValue?_sqlStringLiteral (e : Engine) {value : String}
    (h : '\x00' ∉ value.toList) :
    defaultValue? e (sqlStringLiteral value) = some (.text value) := by
  have hreads := Sql.reads_quotation isQuotation_text h
  rw [← toList_sqlStringLiteral, String.ofList_toList] at hreads
  rw [defaultValue?, hreads.tokens_eq]
  rfl

/-- **SQLite reads the SQL of a value.** -/
theorem defaultValue?_of_sqlOf (e : Engine) {v : RustValue} {sql : String} (h : SqlOf v sql)
    (hnul : v.NoNul) : defaultValue? e sql = some (sqlValueOf e v) := by
  induction h with
  | bool value =>
    have hone : "1" = toString 1 := by decide
    have hzero : "0" = toString 0 := by decide
    cases value with
    | true =>
      rw [if_pos rfl, hone, defaultValue?_toString]
      rfl
    | false =>
      rw [if_neg Bool.false_ne_true, hzero, defaultValue?_toString]
      rfl
  | nat t n =>
    rw [defaultValue?_toString, sqlValueOf]
    split_ifs
    all_goals first | rfl | omega
  | neg t n =>
    have hdigits : ∀ c ∈ (toString n).toList, c.isDigit = true := Sql.isDigit_of_mem_toString
    have hne : toString n ≠ "" := fun h => Sql.toList_toString_ne_nil n (by rw [h]; rfl)
    have hreads := (numberText_digits hne hdigits).reads_negative
    rw [defaultValue?, hreads.tokens_eq, Option.bind_some, literalValue?,
      Sql.natural?_toString, Option.map_some, sqlValueOf]
    split_ifs
    all_goals first | rfl | omega
  | str value => exact defaultValue?_sqlStringLiteral e hnul
  | char c =>
    refine defaultValue?_sqlStringLiteral e ?_
    rw [String.toList_singleton, List.mem_singleton]
    exact Ne.symm hnul
  | none =>
    have hreads : Sql.Reads "NULL".toList [.word "NULL"] := reads_null
    rw [defaultValue?, hreads.tokens_eq]
    rfl
  | some h ih => exact ih hnul

theorem affinity_integer : SqlAffinity.fromDeclaredType "INTEGER" = .integer := by
  decide +kernel

theorem affinity_text : SqlAffinity.fromDeclaredType "TEXT" = .text := by
  decide +kernel

theorem affinity_base (b : BaseType) : (FieldType.base b).affinity
    = match b with
      | .string => .text
      | _ => .integer := by
  cases b with
  | int t => exact affinity_integer
  | bool => exact affinity_integer
  | string => exact affinity_text

theorem affinity_option (b : BaseType) :
    (FieldType.option b).affinity = (FieldType.base b).affinity := rfl

theorem store_null (e : Engine) (affinity : SqlAffinity) : e.store affinity .null = .null := by
  cases affinity <;> rfl

/-- A value of a type may be converted into it. -/
theorem into_of_exact {b : BaseType} {v : RustValue} {value : b.Carrier}
    (h : b.exact v = some value) : b.into v = some value := by
  cases b with
  | int t =>
    cases v with
    | int s n =>
      rw [BaseType.exact] at h
      split_ifs at h with hs
      subst hs
      rw [BaseType.into, if_pos ⟨le_rfl, le_rfl⟩, h]
    | bool flag => cases h
    | char c => cases h
    | str text => cases h
    | none => cases h
    | some v => cases h
  | bool =>
    cases v with
    | bool flag => exact h
    | int s n => cases h
    | char c => cases h
    | str text => cases h
    | none => cases h
    | some v => cases h
  | string => cases v <;> cases h

section Agreement

variable {e : Engine} (he : ReadsNumbers e)

include he

/-- The number of a digit is not its code. -/
theorem not_reads_char {t : IntType} (c : Char) {value : t.Carrier} (h : value.1 = c.toNat) :
    t.fromSqlRow (e.parseNumber (String.singleton c)) ≠ .ok value := by
  cases hdigit : c.isDigit with
  | true =>
    have hle : '0'.toNat ≤ c.toNat := by
      simp only [Char.isDigit, Bool.and_eq_true, decide_eq_true_eq] at hdigit
      exact hdigit.1
    have hzero : '0'.toNat = 48 := rfl
    rw [he.digit c hdigit, ne_eq, IntType.fromSqlRow_integer_iff (fun _ => by omega), h]
    omega
  | false =>
    rw [he.other c hdigit]
    exact nofun

theorem reads_int {t s : IntType} {n : ℤ} {value : t.Carrier}
    (hinto : (BaseType.int t).into (.int s n) = some value) :
    (t.fromSqlRow (e.store .integer (sqlValueOf e (.int s n))) = .ok value ↔ n < 2 ^ 63)
    ∧ e.store .integer (sqlValueOf e (.int s n)) ≠ .null := by
  rw [BaseType.into] at hinto
  split_ifs at hinto
  have hvalue := IntType.tryFrom_eq_some.mp hinto
  have hge : -2 ^ 63 ≤ n := hvalue ▸ value.2.ge
  by_cases hn : n < 2 ^ 63
  · rw [sqlValueOf, if_pos ⟨hge, hn⟩]
    have hnonneg : t = .u64 → 0 ≤ n := by
      rintro rfl
      exact hvalue ▸ value.2.1
    exact ⟨iff_of_true ((IntType.fromSqlRow_integer_iff hnonneg).mpr hvalue) hn, nofun⟩
  · have hreal : e.store .integer (.real (e.toReal n)) = .real (e.toReal n) :=
      he.large n (not_lt.mp hn)
    rw [sqlValueOf, if_neg (fun h => hn h.2), hreal]
    exact ⟨iff_of_false nofun hn, nofun⟩

/-- **Types that are no `Option`s**, whose values are not `NULL`. -/
theorem base_agrees_iff {b : BaseType} {v : RustValue} {value : b.Carrier}
    (hinto : b.into v = some value) :
    (b.sqlField.fromSqlRow (e.store (FieldType.base b).affinity (sqlValueOf e v)) = .ok value
      ↔ b.Keeps v)
    ∧ e.store (FieldType.base b).affinity (sqlValueOf e v) ≠ .null := by
  rw [affinity_base]
  cases b with
  | int t =>
    cases v with
    | int s n => exact reads_int he hinto
    | bool flag =>
      have hvalue := IntType.tryFrom_eq_some.mp hinto
      have hnonneg : t = .u64 → 0 ≤ flag.toInt := fun _ => by cases flag <;> decide
      exact ⟨iff_of_true ((IntType.fromSqlRow_integer_iff hnonneg).mpr hvalue) trivial, nofun⟩
    | char c =>
      rw [BaseType.into] at hinto
      split_ifs at hinto
      have hvalue := IntType.tryFrom_eq_some.mp hinto
      refine ⟨iff_of_false (not_reads_char he c hvalue) id, ?_⟩
      show e.parseNumber (String.singleton c) ≠ .null
      cases hdigit : c.isDigit with
      | true =>
        rw [he.digit c hdigit]
        exact nofun
      | false =>
        rw [he.other c hdigit]
        exact nofun
    | str text => cases hinto
    | none => cases hinto
    | some v => cases hinto
  | bool =>
    cases v with
    | bool flag =>
      obtain rfl : flag = value := Option.some.inj hinto
      exact ⟨iff_of_true (SqlField.lawful_bool flag) trivial, nofun⟩
    | int s n => cases hinto
    | char c => cases hinto
    | str text => cases hinto
    | none => cases hinto
    | some v => cases hinto
  | string =>
    cases v with
    | str text =>
      cases hinto
      exact ⟨iff_of_true rfl trivial, nofun⟩
    | char c =>
      cases hinto
      exact ⟨iff_of_true rfl trivial, nofun⟩
    | int s n => cases hinto
    | bool flag => cases hinto
    | none => cases hinto
    | some v => cases hinto

/-- **The `Option` of a type** reads what the type reads. -/
theorem option_agrees_iff {b : BaseType} {v : RustValue} {value : Option b.Carrier}
    (hinto : (b.exact v).map some = some value) :
    (FieldType.option b).sqlField.fromSqlRow (e.store (FieldType.option b).affinity
      (sqlValueOf e v)) = .ok value ↔ b.Keeps v := by
  obtain ⟨w, hexact, rfl⟩ := Option.map_eq_some_iff.mp hinto
  obtain ⟨hreads, hnull⟩ := base_agrees_iff he (into_of_exact hexact)
  rw [affinity_option, ← hreads, FieldType.sqlField, SqlField.fromSqlRow_option hnull]
  cases b.sqlField.fromSqlRow (e.store (FieldType.base b).affinity (sqlValueOf e v)) with
  | error error => exact ⟨nofun, nofun⟩
  | ok w' => exact ⟨fun h => congrArg _ (Option.some.inj (Except.ok.inj h)), fun h =>
      congrArg _ (congrArg some (Except.ok.inj h))⟩

variable {expr : DefaultExpr} {v : RustValue} {sql : String}

omit he in
/-- What is stored for a default is read, or is not. -/
theorem defaultAgrees_eq {T : FieldType} {value : T.Carrier} (hnul : v.NoNul)
    (hv : Evaluates expr v) (hsql : defaultSqlFromExpr expr.expr = .ok sql) :
    DefaultAgrees e T sql value
      ↔ T.sqlField.fromSqlRow (e.store T.affinity (sqlValueOf e v)) = .ok value := by
  rw [DefaultAgrees, defaultValue?_of_sqlOf e (sqlOf_of_evaluates hv hsql) hnul]
  simp only [Option.some.injEq, exists_eq_left']

/-- **A default means the same in SQL and in Rust** exactly if it is no integer
from `2 ^ 63` on, and no character that is converted to an integer. -/
theorem default_agrees_iff {T : FieldType} {value : T.Carrier} (hnul : v.NoNul)
    (hv : Evaluates expr v) (hsql : defaultSqlFromExpr expr.expr = .ok sql)
    (hinto : T.into v = some value) : DefaultAgrees e T sql value ↔ T.Keeps v := by
  rw [defaultAgrees_eq hnul hv hsql]
  cases T with
  | base b =>
    have hinto : b.into v = some value := hinto
    exact (base_agrees_iff he hinto).1
  | option b =>
    cases v with
    | none =>
      obtain rfl : none = value := Option.some.inj hinto
      have hkeeps : (FieldType.option b).Keeps .none := by cases b <;> trivial
      refine iff_of_true ?_ hkeeps
      rw [sqlValueOf, store_null]
      rfl
    | some v =>
      have hinto : (b.exact v).map some = some value := hinto
      rw [sqlValueOf]
      exact option_agrees_iff he hinto
    | int s n =>
      have hinto : (b.exact (.int s n)).map some = some value := hinto
      exact option_agrees_iff he hinto
    | bool flag =>
      have hinto : (b.exact (.bool flag)).map some = some value := hinto
      exact option_agrees_iff he hinto
    | char c =>
      have hinto : (b.exact (.char c)).map some = some value := hinto
      exact option_agrees_iff he hinto
    | str text =>
      have hinto : (b.exact (.str text)).map some = some value := hinto
      exact option_agrees_iff he hinto

end Agreement

/-! ## Defaults that differ -/

theorem readsNumbers_exampleEngine : ReadsNumbers exampleEngine where
  digit c hc := by
    have hle : '0'.toNat ≤ c.toNat := by
      simp only [Char.isDigit, Bool.and_eq_true, decide_eq_true_eq] at hc
      exact hc.1
    show exampleEngine.readNumber (String.singleton c) = _
    have hdigits : String.singleton c ≠ "" ∧ (String.singleton c).toList.all Char.isDigit := by
      simp [hc]
    have hcast : ((c.toNat - '0'.toNat : ℕ) : ℤ) = c.toNat - '0'.toNat := by omega
    rw [exampleEngine.readNumber, if_pos hdigits, String.toList_singleton, List.foldl_cons,
      List.foldl_nil, hcast, Int.mul_zero, Int.zero_add]
  other c hc := by
    show exampleEngine.readNumber (String.singleton c) = _
    simp [exampleEngine.readNumber, hc]
  large n hn := rfl

/-- The greatest `u64`. -/
def maxU64 : DefaultExpr := .lit (.int 18446744073709551615 (some .u64))

/-- A letter. -/
def letterA : DefaultExpr := .lit (.char 'a')

/-- **Two defaults that differ**: what is stored for them is not read. -/
theorem maxU64_letterA_differ :
    (∃ sql v value, defaultSqlFromExpr maxU64.expr = .ok sql ∧ Evaluates maxU64 v
      ∧ (FieldType.base (.int .u64)).into v = some value
      ∧ ¬ DefaultAgrees exampleEngine (.base (.int .u64)) sql value)
    ∧ ∃ sql v value, defaultSqlFromExpr letterA.expr = .ok sql ∧ Evaluates letterA v
      ∧ (FieldType.base (.int .u32)).into v = some value
      ∧ ¬ DefaultAgrees exampleEngine (.base (.int .u32)) sql value := by
  have hmax : Evaluates maxU64 (.int .u64 18446744073709551615) :=
    .int (fun _ h => (Option.some.inj h).symm) (by decide)
  have hletter : Evaluates letterA (.char 'a') := .char 'a'
  have hintoMax : (BaseType.int .u64).into (.int .u64 18446744073709551615)
      = some ⟨18446744073709551615, by decide⟩ := rfl
  have hintoLetter : (BaseType.int .u32).into (.char 'a') = some ⟨97, by decide⟩ := rfl
  refine ⟨⟨_, _, _, rfl, hmax, hintoMax, fun h => ?_⟩, ⟨_, _, _, rfl, hletter, hintoLetter,
    fun h => ?_⟩⟩
  · have hreads := (defaultAgrees_eq (show RustValue.NoNul (.int .u64 _) from trivial) hmax rfl).mp h
    have hkeeps := (base_agrees_iff readsNumbers_exampleEngine hintoMax).1.mp hreads
    exact absurd hkeeps (show ¬ (18446744073709551615 : ℤ) < 2 ^ 63 by decide)
  · have hnul : RustValue.NoNul (.char 'a') := show 'a' ≠ '\x00' by decide
    have hreads := (defaultAgrees_eq hnul hletter rfl).mp h
    exact (base_agrees_iff readsNumbers_exampleEngine hintoLetter).1.mp hreads

/-- `-5`, for an optional field. -/
theorem minusFive_agrees :
    DefaultAgrees exampleEngine (.option (.int .i64)) "-5" (some ⟨-5, by decide⟩) := by
  have hv : Evaluates (.callSome (.neg (.paren (.lit (.int 5 none))))) (.some (.int .i64 (-5))) :=
    .some (.neg rfl nofun rfl (by decide))
  have hnul : RustValue.NoNul (.some (.int .i64 (-5))) := trivial
  have hkeeps : (FieldType.option (.int .i64)).Keeps (.some (.int .i64 (-5))) :=
    show (-5 : ℤ) < 2 ^ 63 by decide
  exact (default_agrees_iff readsNumbers_exampleEngine hnul hv (by decide) rfl).mpr hkeeps

end Seekwel.Model
