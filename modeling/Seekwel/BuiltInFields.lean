import Seekwel.CreateOrUpdate
import Seekwel.QueryMeaning

/-!
# Fields that find themselves

A field of a built-in type is compared with the value that it is looked up
by. What is stored of a value equals it, unless the value is null: for the
database it is `NULL`, which does not equal anything (`matches_self_iff`).
Only a `Value` can be null, and the comparison does not tell it from any
other operand.

A row that matches keeps what it has stored if its value is written back
(`BuiltIn.store_of_matches`).
-/

namespace Seekwel.Model

open Sql (Domain Truth)

variable {T : Type} {D : Domain Value} {column : String} {store : Value → Value}

/-! ## Columns and types -/

/-- **The null values** of the database: integers and texts are none. -/
structure TellsNull (D : Domain Value) : Prop where
  null : D.isNull .null = true
  integer : ∀ n, D.isNull (.integer n) = false
  text : ∀ s, D.isNull (.text s) = false

/-- **A column of a type**: what is stored in it, and how it is compared. -/
structure ColumnOfType (D : Domain Value) (sqlType column : String) (store : Value → Value) :
    Prop where
  /-- What is null is stored as `NULL`. -/
  null : ∀ v, D.isNull v = true → store v = .null
  integer : sqlType = "INTEGER" → ∀ n, IntType.i64.Holds n → store (.integer n) = .integer n
  text : sqlType = "TEXT" → ∀ s, store (.text s) = .text s
  blob : sqlType = "BLOB" → ∀ v, D.isNull v = false → store v = v
  order_integer : sqlType = "INTEGER" → ∀ m n,
    D.order (some column) none (.integer m) (.integer n) = Ord.compare m n
  order_self : ∀ v, D.order (some column) none v v = .eq

/-- The types of fields but `Option` types. -/
inductive Scalar : {T : Type} → SqlField T → Prop where
  | integer (t : IntType) : Scalar (SqlField.integer t)
  | bool : Scalar SqlField.bool
  | string : Scalar SqlField.string
  | value : Scalar SqlField.value

/-- **The built-in types.** -/
inductive BuiltInType : {T : Type} → SqlField T → Prop where
  | scalar {T : Type} {field : SqlField T} (h : Scalar field) : BuiltInType field
  | option {T : Type} {field : SqlField T} (h : Scalar field) : BuiltInType field.option

/-- The built-in types, as the macro sees them. -/
inductive BuiltIn : {T : Type} → SqlField T → FieldKind T → Prop where
  | bool : BuiltIn SqlField.bool .bool
  | optional {T : Type} {field : SqlField T} (h : Scalar field) :
    BuiltIn field.option (.optional T)
  /-- The macro does not see what a type is another name of. -/
  | plain {T : Type} {field : SqlField T} (h : BuiltInType field) : BuiltIn field (.plain T)

/-- **A field of a built-in type.** Its default is a literal, which is not
null. -/
structure ModelField.IsBuiltIn (D : Domain Value) (field : ModelField) : Prop where
  type : BuiltIn field.sqlField field.kind
  default : ∀ value ∈ field.default, ∀ operand,
    field.sqlField.intoSqlComparisonValue value = some operand → D.isNull operand = false

/-- What a column contains: a value that it has stored. Its integers have 64
bits. -/
structure Settled (store : Value → Value) (stored : Value) : Prop where
  store_eq : store stored = stored
  holds : ∀ n, stored = .integer n → IntType.i64.Holds n

/-- **Whether what a column contains matches** the value that it is looked up
by. -/
def Matches (D : Domain Value) (column : String) (field : SqlField T) (value : T)
    (stored : Value) : Prop :=
  match field.intoSqlComparisonValue value with
  | none => D.isNull stored = true
  | some operand => D.compare .eq (some column) none stored operand = .yes

/-- A value whose operand is not null. -/
def Proper (D : Domain Value) (field : SqlField T) (value : T) : Prop :=
  ∀ operand, field.intoSqlComparisonValue value = some operand → D.isNull operand = false

theorem compare_eq_eq_yes_iff {x y : Value} :
    D.compare .eq (some column) none x y = .yes
      ↔ D.isNull x = false ∧ D.isNull y = false ∧ D.order (some column) none x y = .eq := by
  unfold Domain.compare
  cases D.isNull x with
  | true => simp
  | false =>
    cases D.isNull y with
    | true => simp
    | false => cases D.order (some column) none x y <;> simp [Sql.Operator.holds, Truth.ofBool]

/-- **What matches is proper**: null equals nothing. -/
theorem proper_of_matches {field : SqlField T} {value : T} {stored : Value}
    (h : Matches D column field value stored) : Proper D field value := by
  intro operand hoperand
  rw [Matches, hoperand] at h
  exact (compare_eq_eq_yes_iff.mp h).2.1

/-! ## Types but `Option` -/

section Scalar

variable {field : SqlField T}

theorem Scalar.intoSqlComparisonValue_eq (h : Scalar field) (value : T) :
    field.intoSqlComparisonValue value = some (field.toSqlValue value) := by
  cases h <;> rfl

theorem Scalar.proper_iff (h : Scalar field) {value : T} :
    Proper D field value ↔ D.isNull (field.toSqlValue value) = false := by
  rw [Proper, h.intoSqlComparisonValue_eq]
  exact ⟨fun hnull => hnull _ rfl, fun hnull _ heq => Option.some.inj heq ▸ hnull⟩

/-- What is not null is stored as it is. -/
theorem Scalar.store_eq (h : Scalar field) (hcolumn : ColumnOfType D field.sqlType column store)
    {value : T} (hnull : D.isNull (field.toSqlValue value) = false) :
    store (field.toSqlValue value) = field.toSqlValue value := by
  cases h with
  | integer t => exact hcolumn.integer rfl _ (castI64_mem _)
  | bool => exact hcolumn.integer rfl _ (by cases value <;> decide)
  | string => exact hcolumn.text rfl _
  | value => exact hcolumn.blob rfl _ hnull

theorem Scalar.lawful (h : Scalar field) : field.Lawful := by
  cases h with
  | integer t => exact SqlField.lawful_integer t
  | bool => exact SqlField.lawful_bool
  | string => exact SqlField.lawful_string
  | value => exact SqlField.lawful_value

/-- **Only a `Value` is null**, and any value is read as one. -/
theorem Scalar.reads_of_null (h : Scalar field) (hD : TellsNull D) {value : T}
    (hnull : D.isNull (field.toSqlValue value) = true) (stored : Value) :
    ∃ v, field.fromSqlRow stored = .ok v ∧ field.toSqlValue v = stored := by
  cases h with
  | integer t => cases (hD.integer _).symm.trans hnull
  | bool => cases (hD.integer _).symm.trans hnull
  | string => cases (hD.text _).symm.trans hnull
  | value => exact ⟨stored, rfl, rfl⟩

/-- **What matches is written back** as it was read. A `bool` that is read
from any integer but zero and one matches nothing. -/
theorem Scalar.toSqlValue_of_matches (h : Scalar field)
    (hcolumn : ColumnOfType D field.sqlType column store) {stored : Value}
    (hsettled : Settled store stored) {value wanted : T}
    (hread : field.fromSqlRow stored = .ok value) (hmatches : D.compare .eq (some column) none
      stored (field.toSqlValue wanted) = .yes) :
    field.toSqlValue value = stored := by
  cases h with
  | integer t => exact IntType.toSqlValue_of_fromSqlRow hsettled.holds hread
  | bool =>
    cases stored with
    | integer n =>
      obtain ⟨-, -, horder⟩ := compare_eq_eq_yes_iff.mp hmatches
      have horder := (hcolumn.order_integer rfl n wanted.toInt).symm.trans horder
      obtain rfl := compare_eq_iff_eq.mp horder
      cases hread
      cases wanted <;> rfl
    | _ => cases hread
  | string =>
    cases stored with
    | text s => rw [← Except.ok.inj hread]; rfl
    | _ => cases hread
  | value => exact (Except.ok.inj hread).symm

end Scalar

/-! ## All types -/

section BuiltIn

variable {field : SqlField T}

/-- What a column contains is null only if it is `NULL`. -/
theorem ColumnOfType.eq_null {sqlType : String} (hcolumn : ColumnOfType D sqlType column store)
    {stored : Value} (hsettled : Settled store stored) (hnull : D.isNull stored = true) :
    stored = .null :=
  hsettled.store_eq.symm.trans (hcolumn.null stored hnull)

theorem TellsNull.ne_null (hD : TellsNull D) {v : Value} (h : D.isNull v = false) : v ≠ .null := by
  rintro rfl
  cases hD.null.symm.trans h

/-- **A value that is not null** is read as it was stored. -/
theorem BuiltInType.fromSqlRow_store (h : BuiltInType field) (hD : TellsNull D)
    (hcolumn : ColumnOfType D field.sqlType column store) {value : T}
    (hproper : Proper D field value) :
    field.fromSqlRow (store (field.toSqlValue value)) = .ok value := by
  cases h with
  | scalar h => rw [h.store_eq hcolumn (h.proper_iff.mp hproper), h.lawful value]
  | @option T field h =>
    cases value with
    | none =>
      show field.option.fromSqlRow (store .null) = _
      rw [hcolumn.null _ hD.null]
      rfl
    | some value =>
      have hnull : D.isNull (field.toSqlValue value) = false := hproper _ rfl
      show field.option.fromSqlRow (store (field.toSqlValue value)) = _
      rw [h.store_eq hcolumn hnull, SqlField.fromSqlRow_option (hD.ne_null hnull), h.lawful value]
      rfl

theorem compare_self (hcolumn : ∀ v, D.order (some column) none v v = .eq) {v : Value}
    (hnull : D.isNull v = false) : D.compare .eq (some column) none v v = .yes :=
  compare_eq_eq_yes_iff.mpr ⟨hnull, hnull, hcolumn v⟩

/-- Every value can be read after it was stored. -/
theorem BuiltInType.exists_fromSqlRow_store (h : BuiltInType field) (hD : TellsNull D)
    (hcolumn : ColumnOfType D field.sqlType column store) (value : T) :
    ∃ v, field.fromSqlRow (store (field.toSqlValue value)) = .ok v := by
  by_cases hproper : Proper D field value
  · exact ⟨value, h.fromSqlRow_store hD hcolumn hproper⟩
  · cases h with
    | scalar h =>
      have hnull : D.isNull (field.toSqlValue value) = true :=
        Bool.of_not_eq_false fun hnull => hproper (h.proper_iff.mpr hnull)
      rw [hcolumn.null _ hnull]
      obtain ⟨v, hread, -⟩ := h.reads_of_null hD hnull .null
      exact ⟨v, hread⟩
    | @option T field h =>
      cases value with
      | none => exact absurd nofun hproper
      | some value =>
        have hnull : D.isNull (field.toSqlValue value) = true :=
          Bool.of_not_eq_false fun hnull => hproper fun _ heq => Option.some.inj heq ▸ hnull
        show ∃ v, field.option.fromSqlRow (store (field.toSqlValue value)) = .ok v
        rw [hcolumn.null _ hnull]
        exact ⟨none, rfl⟩

/-- Reading an `Option`. -/
theorem fromSqlRow_option_eq_ok {field : SqlField T} {stored : Value} {value : Option T}
    (h : field.option.fromSqlRow stored = .ok value) :
    (stored = .null ∧ value = none)
      ∨ stored ≠ .null ∧ ∃ v, field.fromSqlRow stored = .ok v ∧ value = some v := by
  by_cases hnull : stored = .null
  · subst hnull
    exact .inl ⟨rfl, (Except.ok.inj h).symm⟩
  · rw [SqlField.fromSqlRow_option hnull] at h
    obtain ⟨v, hread, hv⟩ := map_eq_ok h
    exact .inr ⟨hnull, v, hread, hv.symm⟩

/-- **What is read can be read again** after it was written back. -/
theorem BuiltInType.fromSqlRow_store_of_read (h : BuiltInType field) (hD : TellsNull D)
    (hcolumn : ColumnOfType D field.sqlType column store) {stored : Value}
    (hsettled : Settled store stored) {value : T} (hread : field.fromSqlRow stored = .ok value) :
    field.fromSqlRow (store (field.toSqlValue value)) = .ok value := by
  by_cases hproper : Proper D field value
  · exact h.fromSqlRow_store hD hcolumn hproper
  · cases h with
    | scalar h =>
      have hnull : D.isNull (field.toSqlValue value) = true :=
        Bool.of_not_eq_false fun hnull => hproper (h.proper_iff.mpr hnull)
      obtain ⟨v, hv, heq⟩ := h.reads_of_null hD hnull stored
      obtain rfl := Except.ok.inj (hv.symm.trans hread)
      rw [heq, hsettled.store_eq, hread]
    | @option T field h =>
      obtain ⟨-, rfl⟩ | ⟨hne, v, hv, rfl⟩ := fromSqlRow_option_eq_ok hread
      · exact absurd nofun hproper
      · have hnull : D.isNull (field.toSqlValue v) = true :=
          Bool.of_not_eq_false fun hnull => hproper fun _ heq => Option.some.inj heq ▸ hnull
        obtain ⟨v', hv', heq⟩ := h.reads_of_null hD hnull stored
        obtain rfl := Except.ok.inj (hv'.symm.trans hv)
        exact absurd (hcolumn.eq_null hsettled (heq ▸ hnull)) hne

/-- **A row that matches keeps what it has stored** if what is read is written
back. -/
theorem BuiltInType.store_of_matches (h : BuiltInType field)
    (hcolumn : ColumnOfType D field.sqlType column store) {stored : Value}
    (hsettled : Settled store stored) {value wanted : T}
    (hread : field.fromSqlRow stored = .ok value)
    (hmatches : Matches D column field wanted stored) :
    store (field.toSqlValue value) = stored := by
  cases h with
  | scalar h =>
    rw [Matches, h.intoSqlComparisonValue_eq] at hmatches
    rw [h.toSqlValue_of_matches hcolumn hsettled hread hmatches, hsettled.store_eq]
  | @option T field h =>
    obtain ⟨rfl, rfl⟩ | ⟨hne, v, hv, rfl⟩ := fromSqlRow_option_eq_ok hread
    · exact hsettled.store_eq
    · cases wanted with
      | none => exact absurd (hcolumn.eq_null hsettled hmatches) hne
      | some wanted =>
        show store (field.toSqlValue v) = stored
        rw [h.toSqlValue_of_matches hcolumn hsettled hv hmatches, hsettled.store_eq]

/-- **What is stored of a value matches it exactly if** the value is not
null. -/
theorem BuiltInType.matches_self_iff (h : BuiltInType field) (hD : TellsNull D)
    (hcolumn : ColumnOfType D field.sqlType column store) (value : T) :
    Matches D column field value (store (field.toSqlValue value)) ↔ Proper D field value := by
  refine ⟨proper_of_matches, fun hproper => ?_⟩
  cases h with
  | scalar h =>
    have hnull := h.proper_iff.mp hproper
    rw [Matches, h.intoSqlComparisonValue_eq, h.store_eq hcolumn hnull]
    exact compare_self hcolumn.order_self hnull
  | @option T field h =>
    cases value with
    | none =>
      show D.isNull (store .null) = true
      rw [hcolumn.null _ hD.null, hD.null]
    | some value =>
      have hnull : D.isNull (field.toSqlValue value) = false := hproper _ rfl
      show D.compare .eq (some column) none (store (field.toSqlValue value))
        (field.toSqlValue value) = .yes
      rw [h.store_eq hcolumn hnull]
      exact compare_self hcolumn.order_self hnull

end BuiltIn

/-! ## Fields that are not given -/

theorem BuiltIn.builtInType {field : SqlField T} {kind : FieldKind T} (h : BuiltIn field kind) :
    BuiltInType field := by
  cases h with
  | bool => exact .scalar .bool
  | optional h => exact .option h
  | plain h => exact h

/-- Only an `Option` may be left out, and then it is `None`. -/
theorem BuiltIn.proper_of_finish {field : SqlField T} {kind : FieldKind T} (h : BuiltIn field kind)
    {fieldName : String} {value : T} (hfinish : kind.finish fieldName none = .ok value) :
    Proper D field value := by
  cases h with
  | bool => cases hfinish
  | optional h =>
    cases hfinish
    exact nofun
  | plain h => cases hfinish

/-- **A field that a builder was not given** is not null. -/
theorem ModelField.IsBuiltIn.proper_of_finish {field : ModelField} (h : field.IsBuiltIn D)
    {value : field.T} (hfinish : field.finish none = .ok value) :
    Proper D field.sqlField value := by
  unfold ModelField.finish at hfinish
  cases hdefault : field.default with
  | some default =>
    rw [hdefault] at hfinish
    cases hfinish
    exact h.default default hdefault
  | none =>
    rw [hdefault] at hfinish
    exact h.type.proper_of_finish hfinish

end Seekwel.Model
