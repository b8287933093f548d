import Seekwel.AllowedParams
import Seekwel.QueryDsl
import Seekwel.SqlSelection

/-!
# Builders

A builder is given values for some of the fields of a model. It builds a new
record of them, or looks for a record by some columns and then updates the
first one or creates one (`createOrUpdateBy`). This is no `UPSERT` but a
query and a save.

A field that the builder was not given has its default, or is `None` if its
type is an `Option`. The value that is looked up is made anew for that, apart
from the value that is stored (`ModelField.lookupValue_eq`).
-/

namespace Seekwel.Model

open Sql (Domain Scan Table)

variable {M : GeneratedModel} {T : Type}

/-! ## Building -/

/-- **A builder**, with the values that it was given. It is given a key only
if the key is not generated. -/
structure Builder (M : GeneratedModel) where
  key : Option M.primaryKeyType.Carrier
  fields : ParamFields M.fields

/-- Finishes a field without a default. -/
def FieldKind.finish : FieldKind T → String → Option T → Except Error T
  | optional _, _, given => .ok (given.getD none)
  | bool, fieldName, given | plain _, fieldName, given =>
    match given with
    | some value => .ok value
    | none => .error (.missingField fieldName)

/-- **What a field of the record that is built becomes.** -/
def ModelField.finish (field : ModelField) (given : Option field.T) : Except Error field.T :=
  match field.default with
  | some value => .ok (given.getD value)
  | none => field.kind.finish field.columnName given

def buildValues : (fields : List ModelField) → ParamFields fields →
    Except Error (FieldValues fields)
  | [], _ => .ok ()
  | field :: fields, (given, rest) =>
    (field.finish given).bind fun value =>
      (buildValues fields rest).map fun values => (value, values)

theorem GeneratedModel.holds_zero (M : GeneratedModel) : M.primaryKeyType.Holds 0 :=
  M.primaryKeyType.holds_zero

/-- The key of the record that is built. One that is generated is zero until
then. -/
def Builder.buildKey (builder : Builder M) : Except Error M.primaryKeyType.Carrier :=
  if M.autoIncrement then .ok ⟨0, M.holds_zero⟩
  else
    match builder.key with
    | some key => .ok key
    | none => .error (.missingField M.primaryKeyName)

/-- **Building a new record.** -/
def Builder.build (builder : Builder M) : Except Error (NewRecord M.declaration) :=
  builder.buildKey.bind fun key =>
    (buildValues M.fields builder.fields).map fun values => ⟨key, values⟩

/-- Builds a new record and saves it. -/
def Builder.create (builder : Builder M) (t : Table Value) :
    Except SaveError (Persisted M.declaration) × Table Value :=
  match builder.build with
  | .ok record => record.save t
  | .error e => (.error (.error e), t)

/-! ## Looking for a record -/

/-- **A column of a model**, as the generated enumeration has it. -/
inductive ModelColumn (M : GeneratedModel) where
  | primaryKey
  | stored (index : Fin M.fields.length)
  deriving DecidableEq

/-- What a builder was given for a field. -/
def givenAt : (fields : List ModelField) → ParamFields fields → (i : Fin fields.length) →
    Option (fields.get i).T
  | _ :: _, (given, _), ⟨0, _⟩ => given
  | _ :: fields, (_, rest), ⟨i + 1, h⟩ => givenAt fields rest ⟨i, Nat.lt_of_succ_lt_succ h⟩

/-- The value that a field without a default is looked up by. -/
def FieldKind.lookupValue : FieldKind T → String → Option T → Except Error T
  | optional _, _, given => .ok (given.getD none)
  | bool, fieldName, given | plain _, fieldName, given =>
    match given with
    | some value => .ok value
    | none => .error (.missingField fieldName)

/-- **The value that a field is looked up by.** -/
def ModelField.lookupValue (field : ModelField) (given : Option field.T) :
    Except Error field.T :=
  match field.default with
  | some value => .ok (given.getD value)
  | none => field.kind.lookupValue field.columnName given

/-- The query for the value of a field. -/
def ModelField.lookup (field : ModelField) (given : Option field.T) : Except Error Query :=
  (field.lookupValue given).map fun value =>
    Query.new field.columnName (.Eq (.option (field.sqlField.intoSqlComparisonValue value)))

def Builder.lookup (builder : Builder M) : ModelColumn M → Except Error Query
  | .primaryKey =>
    if M.autoIncrement then .error (.missingField M.primaryKeyName)
    else
      match builder.key with
      | some key =>
        .ok (Query.new M.primaryKeyName (.Eq (.field (M.primaryKeyType.toSqlValue key))))
      | none => .error (.missingField M.primaryKeyName)
  | .stored index => (M.fields.get index).lookup (givenAt M.fields builder.fields index)

/-- The query with those for some columns. -/
def Builder.lookups (builder : Builder M) : List (ModelColumn M) → Query → Except Error Query
  | [], query => .ok query
  | column :: columns, query =>
    (builder.lookup column).bind fun other =>
      builder.lookups columns (QueryDsl.andQuery query other)

/-- The model as queries know it. -/
def GeneratedModel.persistedModel (M : GeneratedModel) :
    PersistedModel (Persisted M.declaration) where
  toModelDef := M.declaration.modelDef
  fromRow := fromRow M.declaration

/-- **The connection to a table**, as far as its queries are concerned. -/
def tableConn (D : Domain Value) (scan : Scan Value) (t : Table Value) : Conn :=
  fun query params =>
    match Sql.readSelection query with
    | some selection => (t.query D sqlValues scan params selection).mapError .sqlite
    | none => .error (.sqlite "syntax error")

/-! ## Creating or updating -/

/-- The values of a record after what the builder was given is assigned to
them. -/
def assignGiven : (fields : List ModelField) → ParamFields fields → FieldValues fields →
    FieldValues fields
  | [], _, values => values
  | _ :: fields, (given, rest), (value, values) =>
    (given.getD value, assignGiven fields rest values)

theorem nonneg_key (record : Persisted M.declaration) : 0 ≤ record.key.1 := record.nonneg

/-- **What a builder was given** is assigned to a record. Its key is not. -/
def Builder.assign (builder : Builder M) (record : Persisted M.declaration) :
    Persisted M.declaration :=
  { record with
    values := assignGiven M.fields builder.fields record.values
    nonneg := nonneg_key record }

/-- Why a builder neither created a record nor updated one. -/
inductive CreateOrUpdateError where
  /-- The validator found errors in the new record. -/
  | invalidNew
  /-- The validator found errors in the updated record. -/
  | invalidPersisted
  | error (e : Error)
  deriving DecidableEq

/-- **Finds the first record** that matches the columns, then updates it or
creates one. -/
def Builder.createOrUpdateBy (D : Domain Value) (scan : Scan Value) (builder : Builder M)
    (columns : List (ModelColumn M)) (t : Table Value) :
    Except CreateOrUpdateError (Persisted M.declaration) × Table Value :=
  match builder.lookups columns Query.root with
  | .error e => (.error (.error e), t)
  | .ok query =>
    if columns.isEmpty then
      (.error (.error (.invalidQuery
        "create_or_update_by requires at least one lookup column")), t)
    else
      match first M.persistedModel (.ok (tableConn D scan t)) query with
      | .error e => (.error (.error e), t)
      | .ok (some record) =>
        let record := builder.assign record
        match record.save t with
        | (.ok (), t') => (.ok record, t')
        | (.error .invalid, t') => (.error .invalidPersisted, t')
        | (.error (.error e), t') => (.error (.error e), t')
      | .ok none =>
        match builder.create t with
        | (.ok record, t') => (.ok record, t')
        | (.error .invalid, t') => (.error .invalidNew, t')
        | (.error (.error e), t') => (.error (.error e), t')

/-! ## Field by field -/

theorem FieldKind.lookupValue_eq (kind : FieldKind T) (fieldName : String) (given : Option T) :
    kind.lookupValue fieldName given = kind.finish fieldName given := by
  cases kind <;> rfl

/-- **A field is looked up by what it is built with.** -/
theorem ModelField.lookupValue_eq (field : ModelField) (given : Option field.T) :
    field.lookupValue given = field.finish given := by
  unfold lookupValue finish
  cases field.default with
  | some value => rfl
  | none => exact field.kind.lookupValue_eq field.columnName given

/-- The value of a field. -/
def valueAt : (fields : List ModelField) → FieldValues fields → (i : Fin fields.length) →
    (fields.get i).T
  | _ :: _, (value, _), ⟨0, _⟩ => value
  | _ :: fields, (_, values), ⟨i + 1, h⟩ => valueAt fields values ⟨i, Nat.lt_of_succ_lt_succ h⟩

theorem values_ext : ∀ {fields : List ModelField} {values values' : FieldValues fields},
    (∀ i, valueAt fields values i = valueAt fields values' i) → values = values'
  | [], _, _, _ => rfl
  | _ :: _, (_, _), (_, _), h =>
    Prod.ext (h ⟨0, Nat.succ_pos _⟩) (values_ext fun i => h i.succ)

/-- Values that are chosen field by field. -/
theorem exists_values : ∀ {fields : List ModelField} {p : (i : Fin fields.length) →
    (fields.get i).T → Prop}, (∀ i, ∃ value, p i value) →
    ∃ values, ∀ i, p i (valueAt fields values i)
  | [], _, _ => ⟨(), fun i => i.elim0⟩
  | _ :: fields, p, h => by
    obtain ⟨value, hvalue⟩ := h ⟨0, Nat.succ_pos _⟩
    obtain ⟨values, hvalues⟩ := exists_values (p := fun i => p i.succ) fun i => h i.succ
    refine ⟨(value, values), fun i => ?_⟩
    match i with
    | ⟨0, _⟩ => exact hvalue
    | ⟨i + 1, hi⟩ => exact hvalues ⟨i, Nat.lt_of_succ_lt_succ hi⟩

theorem finish_of_buildValues : ∀ {fields : List ModelField} {given : ParamFields fields}
    {values : FieldValues fields}, buildValues fields given = .ok values →
    ∀ i, (fields.get i).finish (givenAt fields given i) = .ok (valueAt fields values i)
  | [], _, _, _, i => i.elim0
  | field :: fields, (given, rest), values, h, i => by
    obtain ⟨value, hvalue, hrest⟩ := bind_eq_ok h
    obtain ⟨values, hvalues, rfl⟩ := map_eq_ok hrest
    match i with
    | ⟨0, _⟩ => exact hvalue
    | ⟨i + 1, hi⟩ => exact finish_of_buildValues hvalues ⟨i, Nat.lt_of_succ_lt_succ hi⟩

theorem valueAt_assignGiven : ∀ (fields : List ModelField) (given : ParamFields fields)
    (values : FieldValues fields) (i : Fin fields.length),
    valueAt fields (assignGiven fields given values) i
      = (givenAt fields given i).getD (valueAt fields values i)
  | _ :: _, (_, _), (_, _), ⟨0, _⟩ => rfl
  | _ :: fields, (_, rest), (_, values), ⟨i + 1, h⟩ =>
    valueAt_assignGiven fields rest values ⟨i, Nat.lt_of_succ_lt_succ h⟩

theorem getElem?_params : ∀ (fields : List ModelField) (values : FieldValues fields)
    (i : Fin fields.length), (params (fields.map ModelField.toField) values)[i.1]?
      = some ((fields.get i).sqlField.toSqlValue (valueAt fields values i))
  | _ :: _, (_, _), ⟨0, _⟩ => rfl
  | _ :: fields, (_, values), ⟨i + 1, h⟩ =>
    getElem?_params fields values ⟨i, Nat.lt_of_succ_lt_succ h⟩

/-- **Reading the fields of a row** is reading each of them. -/
theorem fromRowFields_eq_ok_iff {row : List Value} : ∀ {fields : List ModelField} {index : ℕ}
    {values : FieldValues fields},
    fromRowFields (fields.map ModelField.toField) index row = .ok values
      ↔ ∀ i : Fin fields.length, ∃ stored, row[index + i.1]? = some stored
        ∧ (fields.get i).sqlField.fromSqlRow stored = .ok (valueAt fields values i)
  | [], _, _ => ⟨fun _ i => i.elim0, fun _ => rfl⟩
  | field :: fields, index, (value, values) => by
    have hadd : ∀ i, index + 1 + i = index + (i + 1) := fun i => by omega
    show fromRowFields (field.toField :: fields.map ModelField.toField) index row = _ ↔ _
    rw [fromRowFields]
    constructor
    · intro h
      cases hrow : row[index]? with
      | none =>
        rw [hrow] at h
        cases h
      | some stored =>
        rw [hrow] at h
        obtain ⟨value, hvalue, hrest⟩ := bind_eq_ok h
        obtain ⟨values, hvalues, heq⟩ := map_eq_ok hrest
        cases heq
        rintro ⟨i, hi⟩
        cases i with
        | zero => exact ⟨stored, hrow, hvalue⟩
        | succ i =>
          obtain ⟨stored, hstored, hread⟩ := fromRowFields_eq_ok_iff.mp hvalues
            ⟨i, Nat.lt_of_succ_lt_succ hi⟩
          exact ⟨stored, hadd i ▸ hstored, hread⟩
    · intro h
      obtain ⟨stored, hrow, hvalue⟩ := h ⟨0, Nat.succ_pos _⟩
      have hvalues : fromRowFields (fields.map ModelField.toField) (index + 1) row = .ok values :=
        fromRowFields_eq_ok_iff.mpr fun i => by
          obtain ⟨stored, hstored, hread⟩ := h i.succ
          exact ⟨stored, (hadd i).symm ▸ hstored, hread⟩
      rw [show row[index]? = some stored from hrow]
      simp only [show field.sqlField.fromSqlRow stored = .ok value from hvalue, hvalues,
        Except.bind, Except.map]

/-! ## Success -/

/-- **What is built**, if it is. -/
theorem Builder.build_eq_ok {builder : Builder M} {record : NewRecord M.declaration}
    (h : builder.build = .ok record) :
    buildValues M.fields builder.fields = .ok record.values
      ∧ (M.autoIncrement = false → builder.key = some record.key) := by
  obtain ⟨key, hkey, hrest⟩ := bind_eq_ok h
  obtain ⟨values, hvalues, rfl⟩ := map_eq_ok hrest
  refine ⟨hvalues, fun hauto => ?_⟩
  rw [buildKey, hauto, if_neg Bool.false_ne_true] at hkey
  cases hgiven : builder.key with
  | none =>
    rw [hgiven] at hkey
    cases hkey
  | some given =>
    rw [hgiven] at hkey
    exact congrArg some (Except.ok.inj hkey)

theorem Builder.create_eq_ok_iff {builder : Builder M} {t t' : Table Value}
    {r : Persisted M.declaration} :
    builder.create t = (.ok r, t')
      ↔ ∃ record, builder.build = .ok record ∧ record.save t = (.ok r, t') := by
  unfold create
  cases builder.build with
  | error e => exact iff_of_false (fun h => nomatch h) (fun ⟨_, h, _⟩ => nomatch h)
  | ok record => simp

/-- **When a record is created or updated.** -/
theorem Builder.createOrUpdateBy_eq_ok_iff {D : Domain Value} {scan : Scan Value}
    {builder : Builder M} {columns : List (ModelColumn M)} {t t' : Table Value}
    {r : Persisted M.declaration} :
    builder.createOrUpdateBy D scan columns t = (.ok r, t')
      ↔ ∃ query, builder.lookups columns Query.root = .ok query ∧ columns ≠ []
        ∧ ((∃ record, first M.persistedModel (.ok (tableConn D scan t)) query = .ok (some record)
            ∧ r = builder.assign record ∧ r.save t = (.ok (), t'))
          ∨ first M.persistedModel (.ok (tableConn D scan t)) query = .ok none
            ∧ builder.create t = (.ok r, t')) := by
  unfold createOrUpdateBy
  cases hlookups : builder.lookups columns Query.root with
  | error e => simp
  | ok query =>
    cases columns with
    | nil => simp
    | cons column columns =>
      simp only [List.isEmpty_cons, Bool.false_eq_true, if_false, Except.ok.injEq, ne_eq,
        List.cons_ne_nil, not_false_eq_true, true_and, exists_eq_left']
      cases hfirst : first M.persistedModel (.ok (tableConn D scan t)) query with
      | error e => simp
      | ok found =>
        cases found with
        | none =>
          rcases hcreate : builder.create t with ⟨(- | e) | record, t₁⟩
          all_goals simp
        | some record =>
          simp only [Except.ok.injEq, Option.some.injEq, exists_eq_left', reduceCtorEq, false_and,
            or_false]
          rcases hsave : (builder.assign record).save t with ⟨(- | e) | ⟨⟩, t₁⟩
          all_goals
            constructor
            · intro h
              cases h
              all_goals exact ⟨rfl, hsave⟩
            · rintro ⟨rfl, h⟩
              cases hsave.symm.trans h
              all_goals rfl

end Seekwel.Model
