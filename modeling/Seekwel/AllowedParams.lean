import Seekwel.Records

/-!
# Params and allow lists

A model has a params type with a param for every stored field, which may be
missing. Params build a new record or are applied to a persisted one, along
with a list of the columns that are allowed.

What a field becomes is generated from its declaration, for a new record and
for a persisted one apart. The former looks for a default first, then whether
the type is an `Option` or `bool`; the latter for `bool` alone. No case reads
a param before the list has been asked, so that params which are not allowed
have no influence (`onlyAllowed`).

## Checkboxes

A `bool` that is omitted is `false`, as a checkbox is that is not checked. A
new record takes the default of the field instead if there is one. This is
the only difference between building a record and applying the same params
to it (`reapply_iff`).
-/

namespace Seekwel.Model

/-! ## Models and their params -/

/-- What the macro sees of the type of a field. -/
inductive FieldKind : Type → Type 1 where
  | bool : FieldKind Bool
  | optional (T : Type) : FieldKind (Option T)
  | plain (T : Type) : FieldKind T

/-- **A stored field**, with the value of its default. -/
structure ModelField extends Field where
  kind : FieldKind T
  default : Option T

/-- The values of fields. -/
abbrev FieldValues (fields : List ModelField) : Type :=
  Values (fields.map ModelField.toField)

/-- **A model** as the macro sees it. -/
structure GeneratedModel where
  tableName : String
  primaryKeyName : String
  primaryKeyType : IntType
  autoIncrement : Bool
  fields : List ModelField
  indexes : List IndexDef
  validNew : primaryKeyType.Carrier → FieldValues fields → Bool
  validPersisted : primaryKeyType.Carrier → FieldValues fields → Bool

def GeneratedModel.declaration (M : GeneratedModel) : Declaration where
  tableName := M.tableName
  primaryKeyName := M.primaryKeyName
  primaryKeyType := M.primaryKeyType
  autoIncrement := M.autoIncrement
  fields := M.fields.map ModelField.toField
  indexes := M.indexes
  validNew := M.validNew
  validPersisted := M.validPersisted

/-- A column of a model. -/
inductive Column where
  | primaryKey
  | stored (columnName : String)
  deriving DecidableEq

/-- The params of fields, those that are missing as `none`. -/
def ParamFields : List ModelField → Type
  | [] => Unit
  | field :: fields => Option field.T × ParamFields fields

/-- **Params of a model.** There is a param for the key if it is not
generated. -/
structure Params (M : GeneratedModel) where
  key : Option M.primaryKeyType.Carrier
  fields : ParamFields M.fields

/-! ## Building a record -/

variable {M : GeneratedModel} {T : Type}

/-- The value of a new record, without a default. -/
def FieldKind.newValue : FieldKind T → String → Bool → Option T → Except Error T
  | optional _, _, allowed, param => .ok (if allowed then param.getD none else none)
  | bool, columnName, allowed, param =>
    if allowed then .ok (param.getD false) else .error (.missingField columnName)
  | plain _, columnName, allowed, param =>
    if allowed then
      match param with
      | some value => .ok value
      | none => .error (.missingField columnName)
    else .error (.missingField columnName)

/-- **What a field of a new record becomes.** -/
def ModelField.newValue (field : ModelField) (allowed : Bool) (param : Option field.T) :
    Except Error field.T :=
  match field.default with
  | some value => .ok (if allowed then param.getD value else value)
  | none => field.kind.newValue field.columnName allowed param

def isAllowed (allowed : List Column) (column : Column) : Bool := allowed.contains column

def newValues (allowed : List Column) : (fields : List ModelField) → ParamFields fields →
    Except Error (FieldValues fields)
  | [], _ => .ok ()
  | field :: fields, (param, params) =>
    (field.newValue (isAllowed allowed (.stored field.columnName)) param).bind fun value =>
      (newValues allowed fields params).map fun values => (value, values)

/-- The key of a new record. One that is generated is zero until then. -/
def GeneratedModel.newKey (M : GeneratedModel) (params : Params M) (allowed : List Column) :
    Except Error M.primaryKeyType.Carrier :=
  if M.autoIncrement then
    if isAllowed allowed .primaryKey then
      .error (.invalidParams
        ("column `" ++ M.primaryKeyName ++ "` is not assignable from params"))
    else .ok ⟨0, M.primaryKeyType.holds_zero⟩
  else if isAllowed allowed .primaryKey then
    match params.key with
    | some key => .ok key
    | none => .error (.missingField M.primaryKeyName)
  else .error (.missingField M.primaryKeyName)

/-- **Building a new record** from params. -/
def GeneratedModel.buildFromParams (M : GeneratedModel) (params : Params M)
    (allowed : List Column) : Except Error (NewRecord M.declaration) :=
  (M.newKey params allowed).bind fun key =>
    (newValues allowed M.fields params.fields).map fun values => ⟨key, values⟩

/-! ## Applying params -/

/-- **What a field of a persisted record becomes.** -/
def FieldKind.assign : FieldKind T → Bool → Option T → T → T
  | bool, allowed, param, old => if allowed then param.getD false else old
  | optional _, allowed, param, old => if allowed then param.getD old else old
  | plain _, allowed, param, old => if allowed then param.getD old else old

def assignValues (allowed : List Column) : (fields : List ModelField) → ParamFields fields →
    FieldValues fields → FieldValues fields
  | [], _, values => values
  | field :: fields, (param, params), (value, values) =>
    (field.kind.assign (isAllowed allowed (.stored field.columnName)) param value,
      assignValues allowed fields params values)

/-- **Applying params** to a persisted record, which is not saved. -/
def GeneratedModel.applyParams (M : GeneratedModel) (params : Params M) (allowed : List Column)
    (record : Persisted M.declaration) : Except Error Unit × Persisted M.declaration :=
  if isAllowed allowed .primaryKey then
    (.error (.invalidParams
      ("column `" ++ M.primaryKeyName ++ "` is not assignable by update params")),
      record)
  else
    (.ok (), { record with values := assignValues allowed M.fields params.fields record.values })

/-! ## Applying what a record was built from -/

/-- A value that a checkbox has when it is checked. -/
def FieldKind.isChecked : FieldKind T → T → Bool
  | bool, value => value
  | optional _, _ => false
  | plain _, _ => false

/-- **No omitted checkbox is checked by default**, among those allowed. -/
def UncheckedByDefault (allowed : List Column) :
    (fields : List ModelField) → ParamFields fields → Prop
  | [], _ => True
  | field :: fields, (param, params) =>
    (isAllowed allowed (.stored field.columnName) = true → param = none →
        ∀ value ∈ field.default, field.kind.isChecked value = false)
      ∧ UncheckedByDefault allowed fields params

/-- Without a default, a field is assigned what a new record has. -/
theorem FieldKind.assign_newValue {kind : FieldKind T} {columnName : String} {allowed : Bool}
    {param : Option T} {value : T} (h : kind.newValue columnName allowed param = .ok value) :
    kind.assign allowed param value = value := by
  cases allowed with
  | false => cases kind <;> rfl
  | true =>
    cases kind with
    | bool => exact Except.ok.inj h
    | optional T =>
      cases param with
      | none => rfl
      | some value' => exact Except.ok.inj h
    | plain =>
      cases param with
      | none => cases h
      | some value' => exact Except.ok.inj h

/-- With a default, an omitted checkbox is not. -/
theorem FieldKind.assign_default_iff (kind : FieldKind T) (allowed : Bool) (param : Option T)
    (default : T) :
    (kind.assign allowed param (if allowed then param.getD default else default)
        = if allowed then param.getD default else default)
      ↔ (allowed = true → param = none → kind.isChecked default = false) := by
  cases allowed with
  | false => cases kind <;> simp [assign]
  | true =>
    cases param with
    | some value => cases kind <;> simp [assign]
    | none =>
      cases kind with
      | bool => simp [assign, isChecked, eq_comm]
      | optional | plain => simp [assign, isChecked]

/-- **One field**: only an omitted checkbox is assigned another value than a
new record has. -/
theorem ModelField.assign_newValue_iff {field : ModelField} {allowed : Bool}
    {param : Option field.T} {value : field.T} (h : field.newValue allowed param = .ok value) :
    field.kind.assign allowed param value = value
      ↔ (allowed = true → param = none →
          ∀ v ∈ field.default, field.kind.isChecked v = false) := by
  unfold ModelField.newValue at h
  cases hdefault : field.default with
  | none =>
    rw [hdefault] at h
    exact iff_of_true (FieldKind.assign_newValue h) (fun _ _ v hv => nomatch hv)
  | some default =>
    rw [hdefault] at h
    obtain rfl := Except.ok.inj h
    rw [FieldKind.assign_default_iff]
    simp

/-- **All fields**, one after the other. -/
theorem assignValues_newValues_iff {allowed : List Column} : ∀ (fields : List ModelField)
    (params : ParamFields fields) (values : FieldValues fields),
    newValues allowed fields params = .ok values →
      (assignValues allowed fields params values = values
        ↔ UncheckedByDefault allowed fields params)
  | [], _, _, _ => iff_of_true rfl trivial
  | field :: fields, (param, params), (value, values), h => by
    obtain ⟨value', hvalue, h⟩ := bind_eq_ok h
    obtain ⟨values', hvalues, hpair⟩ := map_eq_ok h
    cases hpair
    show (_, _) = (value, values) ↔ _
    rw [Prod.mk.injEq, UncheckedByDefault]
    exact and_congr (ModelField.assign_newValue_iff hvalue)
      (assignValues_newValues_iff fields params values hvalues)

/-- **Applying the params a record was built from** leaves every field as it
is, unless a checkbox was omitted that is checked by default. -/
theorem reapply_iff (hauto : M.autoIncrement = true) {params : Params M} {allowed : List Column}
    {record : NewRecord M.declaration} (hbuild : M.buildFromParams params allowed = .ok record)
    {persisted : Persisted M.declaration} (hvalues : persisted.values = record.values) :
    M.applyParams params allowed persisted = (.ok (), persisted)
      ↔ UncheckedByDefault allowed M.fields params.fields := by
  obtain ⟨key, hkey, hvaluesOk⟩ := bind_eq_ok hbuild
  obtain ⟨values, hnew, rfl⟩ := map_eq_ok hvaluesOk
  have hallowed : ¬ isAllowed allowed .primaryKey = true := by
    intro hallowed
    rw [GeneratedModel.newKey, if_pos hauto, if_pos hallowed] at hkey
    cases hkey
  rw [GeneratedModel.applyParams, if_neg hallowed, ← assignValues_newValues_iff _ _ _ hnew]
  obtain ⟨persistedKey, persistedValues, nonneg⟩ := persisted
  obtain rfl : persistedValues = values := hvalues
  constructor
  · exact fun hsame => congrArg (fun outcome => outcome.2.values) hsame
  · exact fun hsame => Prod.ext rfl (Persisted.ext rfl hsame)

/-- A field without a default, and a checkbox that is checked by default. -/
def taskFields : List ModelField :=
  [⟨⟨"title", none, String, .string⟩, .plain String, none⟩,
    ⟨⟨"done", some "1", Bool, .bool⟩, .bool, some true⟩]

/-- Tasks that are done by default. -/
def task : GeneratedModel where
  tableName := "task"
  primaryKeyName := "id"
  primaryKeyType := .u64
  autoIncrement := true
  fields := taskFields
  indexes := []
  validNew _ _ := true
  validPersisted _ _ := true

/-- Params of a task with a title. -/
def titled (done : Option Bool) : Params task := ⟨none, some "Ship it", done, ()⟩

def newTask (done : Bool) : NewRecord task.declaration :=
  ⟨⟨0, IntType.holds_zero .u64⟩, "Ship it", done, ()⟩

def savedTask (done : Bool) : Persisted task.declaration :=
  ⟨⟨1, show IntType.u64.Holds 1 by decide⟩, ("Ship it", done, ()), show (0 : ℤ) ≤ 1 by decide⟩

theorem given_done_kept :
    task.applyParams (titled (some true)) [.stored "title", .stored "done"] (savedTask true)
        = (.ok (), savedTask true)
      ↔ UncheckedByDefault [.stored "title", .stored "done"] task.fields
          (titled (some true)).fields :=
  have hbuild : task.buildFromParams (titled (some true)) [.stored "title", .stored "done"]
      = .ok (newTask true) := rfl
  reapply_iff rfl hbuild rfl

/-- A task is built as done and then is not, from the same params. -/
theorem omitted_done_cleared :
    task.buildFromParams (titled none) [.stored "title", .stored "done"] = .ok (newTask true)
      ∧ (savedTask true).values = (newTask true).values
      ∧ task.applyParams (titled none) [.stored "title", .stored "done"] (savedTask true)
        ≠ (.ok (), savedTask true) := by
  refine ⟨rfl, rfl, fun hsame => ?_⟩
  have hdone : false = true := congrArg (fun outcome => outcome.2.values.2.1) hsame
  cases hdone

/-! ## What is not allowed -/

/-- Params that agree about the allowed columns of some fields. -/
def AgreeOn (allowed : List Column) :
    (fields : List ModelField) → ParamFields fields → ParamFields fields → Prop
  | [], _, _ => True
  | field :: fields, (param, params), (param', params') =>
    (isAllowed allowed (.stored field.columnName) = true → param = param')
      ∧ AgreeOn allowed fields params params'

/-- **Params that agree about the allowed columns.** -/
structure Params.Agree (allowed : List Column) (params params' : Params M) : Prop where
  key : isAllowed allowed .primaryKey = true → params.key = params'.key
  fields : AgreeOn allowed M.fields params.fields params'.fields

/-- Values that differ in allowed columns at most. -/
def UnchangedBeyond (allowed : List Column) :
    (fields : List ModelField) → FieldValues fields → FieldValues fields → Prop
  | [], _, _ => True
  | field :: fields, (value, values), (value', values') =>
    (isAllowed allowed (.stored field.columnName) = false → value' = value)
      ∧ UnchangedBeyond allowed fields values values'

/-- **What applying params leaves alone.** -/
structure LeavesAlone (allowed : List Column) (record : Persisted M.declaration)
    (outcome : Except Error Unit × Persisted M.declaration) : Prop where
  key : outcome.2.key = record.key
  values : UnchangedBeyond allowed M.fields record.values outcome.2.values
  error : ∀ e, outcome.1 = .error e → outcome.2 = record

/-- A field that is not allowed is not asked for its param. -/
theorem FieldKind.newValue_of_not_allowed (kind : FieldKind T) (columnName : String)
    (param param' : Option T) :
    kind.newValue columnName false param = kind.newValue columnName false param' := by
  cases kind <;> rfl

theorem ModelField.newValue_of_not_allowed (field : ModelField) (param param' : Option field.T) :
    field.newValue false param = field.newValue false param' := by
  unfold ModelField.newValue
  cases field.default with
  | some value => rfl
  | none => exact field.kind.newValue_of_not_allowed field.columnName param param'

theorem FieldKind.assign_of_not_allowed (kind : FieldKind T) (param : Option T) (value : T) :
    kind.assign false param value = value := by
  cases kind <;> rfl

theorem newValues_congr {allowed : List Column} : ∀ (fields : List ModelField)
    (params params' : ParamFields fields), AgreeOn allowed fields params params' →
      newValues allowed fields params = newValues allowed fields params'
  | [], _, _, _ => rfl
  | field :: fields, (param, params), (param', params'), h => by
    have hvalue : field.newValue (isAllowed allowed (.stored field.columnName)) param
        = field.newValue (isAllowed allowed (.stored field.columnName)) param' := by
      cases hallowed : isAllowed allowed (.stored field.columnName) with
      | true => rw [h.1 hallowed]
      | false => exact field.newValue_of_not_allowed param param'
    rw [newValues, newValues, hvalue, newValues_congr fields params params' h.2]

theorem assignValues_congr {allowed : List Column} : ∀ (fields : List ModelField)
    (params params' : ParamFields fields) (values : FieldValues fields),
      AgreeOn allowed fields params params' →
      assignValues allowed fields params values = assignValues allowed fields params' values
  | [], _, _, _, _ => rfl
  | field :: fields, (param, params), (param', params'), (value, values), h => by
    have hvalue : field.kind.assign (isAllowed allowed (.stored field.columnName)) param value
        = field.kind.assign (isAllowed allowed (.stored field.columnName)) param' value := by
      cases hallowed : isAllowed allowed (.stored field.columnName) with
      | true => rw [h.1 hallowed]
      | false => rw [FieldKind.assign_of_not_allowed, FieldKind.assign_of_not_allowed]
    rw [assignValues, assignValues, hvalue, assignValues_congr fields params params' values h.2]

theorem unchangedBeyond_refl (allowed : List Column) : ∀ (fields : List ModelField)
    (values : FieldValues fields), UnchangedBeyond allowed fields values values
  | [], _ => trivial
  | _ :: fields, (_, values) => ⟨fun _ => rfl, unchangedBeyond_refl allowed fields values⟩

theorem unchangedBeyond_assignValues {allowed : List Column} : ∀ (fields : List ModelField)
    (params : ParamFields fields) (values : FieldValues fields),
      UnchangedBeyond allowed fields values (assignValues allowed fields params values)
  | [], _, _ => trivial
  | field :: fields, (param, params), (value, values) => by
    refine ⟨fun hallowed => ?_, unchangedBeyond_assignValues fields params values⟩
    rw [hallowed, FieldKind.assign_of_not_allowed]

/-- **Params have no influence beyond the allow list.** -/
theorem onlyAllowed {allowed : List Column} {params params' : Params M}
    (h : params.Agree allowed params') :
    M.buildFromParams params allowed = M.buildFromParams params' allowed
      ∧ ∀ record, M.applyParams params allowed record = M.applyParams params' allowed record
        ∧ LeavesAlone allowed record (M.applyParams params allowed record) := by
  constructor
  · have hkey : M.newKey params allowed = M.newKey params' allowed := by
      unfold GeneratedModel.newKey
      split_ifs with _ _ hallowed
      · rfl
      · rfl
      · rw [h.key hallowed]
      · rfl
    rw [GeneratedModel.buildFromParams, GeneratedModel.buildFromParams, hkey,
      newValues_congr M.fields params.fields params'.fields h.fields]
  · intro record
    by_cases hallowed : isAllowed allowed .primaryKey = true
    · rw [GeneratedModel.applyParams, GeneratedModel.applyParams, if_pos hallowed,
        if_pos hallowed]
      exact ⟨rfl, rfl, unchangedBeyond_refl allowed M.fields record.values, fun _ _ => rfl⟩
    · rw [GeneratedModel.applyParams, GeneratedModel.applyParams, if_neg hallowed,
        if_neg hallowed, assignValues_congr M.fields params.fields params'.fields
          record.values h.fields]
      exact ⟨rfl, rfl, unchangedBeyond_assignValues M.fields params'.fields record.values,
        fun e he => nomatch he⟩

theorem done_has_no_influence :
    task.buildFromParams (titled (some false)) [.stored "title"]
        = task.buildFromParams (titled none) [.stored "title"]
      ∧ ∀ record, task.applyParams (titled (some false)) [.stored "title"] record
          = task.applyParams (titled none) [.stored "title"] record
        ∧ LeavesAlone [.stored "title"] record
          (task.applyParams (titled (some false)) [.stored "title"] record) :=
  onlyAllowed ⟨fun hkey => absurd hkey (by decide), fun _ => rfl,
    fun hdone => absurd hdone (by decide), trivial⟩

end Seekwel.Model
