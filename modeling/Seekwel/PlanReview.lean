import Seekwel.PlanJson

/-!
# Reviewed plans

What a reviewer has of a plan is its JSON. A reader that looks for the fields
by their names, and tells what an object is by its kind, has the plan again,
but for the two definitions of a table that is rebuilt (`PlanView`).

Nothing else gets lost, whatever the names, messages and defaults are
(`toJsonString_faithful`).
-/

namespace Seekwel

open Json (field? string? bool? nat? list? option? list?_map list?_map_self)

/-- An operation as it is reviewed. Of a table that is rebuilt there are the
name and the reasons. -/
inductive PlanOpView where
  | createTable (table : TableDef)
  | addColumn (table : String) (column : ColumnDef)
  | createIndex (table : String) (index : IndexDef)
  | dropIndex (table : String) (index : IndexDef)
  | rebuildTable (table : String) (reasons : List RebuildReason)
  | dropTable (table : TableDef)

/-- **A plan as it is reviewed.** -/
structure PlanView where
  artifactVersion : ℕ
  planId : String
  sourceFingerprint : String
  targetFingerprint : String
  source : SchemaDef
  target : SchemaDef
  ops : List PlanOpView
  blockers : List PlanBlocker

def PlanOp.view : PlanOp → PlanOpView
  | .createTable table => .createTable table
  | .addColumn table column => .addColumn table column
  | .createIndex table index => .createIndex table index
  | .dropIndex table index => .dropIndex table index
  | .rebuildTable table _ _ reasons => .rebuildTable table reasons
  | .dropTable table => .dropTable table

def Plan.view (plan : Plan) : PlanView where
  artifactVersion := plan.artifactVersion
  planId := plan.planId
  sourceFingerprint := plan.sourceFingerprint
  targetFingerprint := plan.targetFingerprint
  source := plan.source
  target := plan.target
  ops := plan.ops.map PlanOp.view
  blockers := plan.blockers

/-! ### Reading by the names of the fields -/

def ColumnDef.ofJson (j : Json) : Option ColumnDef := do
  return {
    name := ← field? string? "name" j
    sqlType := ← field? string? "sql_type" j
    nullable := ← field? bool? "nullable" j
    defaultSql := ← field? (option? string?) "default_sql" j }

def IndexDef.ofJson (j : Json) : Option IndexDef := do
  return {
    name := ← field? string? "name" j
    column := ← field? string? "column" j
    unique := ← field? bool? "unique" j }

def PrimaryKeyDef.ofJson (j : Json) : Option PrimaryKeyDef := do
  return {
    name := ← field? string? "name" j
    sqlType := ← field? string? "sql_type" j }

def TableDef.ofJson (j : Json) : Option TableDef := do
  return {
    name := ← field? string? "name" j
    primaryKey := ← field? PrimaryKeyDef.ofJson "primary_key" j
    columns := ← field? (list? ColumnDef.ofJson) "columns" j
    indexes := ← field? (list? IndexDef.ofJson) "indexes" j }

def SchemaDef.ofJson (j : Json) : Option SchemaDef :=
  (field? (list? TableDef.ofJson) "tables" j).map SchemaDef.mk

def RebuildReason.ofJson (j : Json) : Option RebuildReason := do
  match ← field? string? "kind" j with
  | "drop_columns" => return .dropColumns (← field? (list? string?) "columns" j)
  | "change_primary_key_name" =>
    return .changePrimaryKeyName (← field? string? "from" j) (← field? string? "to" j)
  | "change_primary_key_type" =>
    return .changePrimaryKeyType (← field? string? "from" j) (← field? string? "to" j)
  | "change_column_type" =>
    return .changeColumnType (← field? string? "column" j) (← field? string? "from" j)
      (← field? string? "to" j)
  | "change_nullability" =>
    return .changeNullability (← field? string? "column" j) (← field? bool? "from_nullable" j)
      (← field? bool? "to_nullable" j)
  | "change_default" =>
    return .changeDefault (← field? string? "column" j)
      (← field? (option? string?) "from_default_sql" j)
      (← field? (option? string?) "to_default_sql" j)
  | _ => none

def PlanOpView.ofJson (j : Json) : Option PlanOpView := do
  match ← field? string? "kind" j with
  | "create_table" => return .createTable (← field? TableDef.ofJson "table" j)
  | "add_column" =>
    return .addColumn (← field? string? "table" j) (← field? ColumnDef.ofJson "column" j)
  | "create_index" =>
    return .createIndex (← field? string? "table" j) (← field? IndexDef.ofJson "index" j)
  | "drop_index" =>
    return .dropIndex (← field? string? "table" j) (← field? IndexDef.ofJson "index" j)
  | "rebuild_table" =>
    return .rebuildTable (← field? string? "table" j)
      (← field? (list? RebuildReason.ofJson) "reasons" j)
  | "drop_table" => return .dropTable (← field? TableDef.ofJson "table" j)
  | _ => none

def PlanBlocker.ofJson (j : Json) : Option PlanBlocker := do
  match ← field? string? "kind" j with
  | "registry_uncertain" => return .registryUncertain (← field? string? "message" j)
  | "required_column_addition" =>
    return .requiredColumnAddition (← field? string? "table" j) (← field? string? "column" j)
  | "unsupported_inline_feature" =>
    return .unsupportedInlineFeature (← field? string? "table" j) (← field? string? "feature" j)
  | "real_foreign_keys" => return .realForeignKeys (← field? string? "table" j)
  | "dependent_view" =>
    return .dependentView (← field? string? "table" j) (← field? string? "view" j)
  | "dependent_trigger" =>
    return .dependentTrigger (← field? string? "table" j) (← field? string? "trigger" j)
  | "uncertain" => return .uncertain (← field? string? "message" j)
  | _ => none

def PlanView.ofJson (j : Json) : Option PlanView := do
  return {
    artifactVersion := ← field? nat? "artifact_version" j
    planId := ← field? string? "plan_id" j
    sourceFingerprint := ← field? string? "source_fingerprint" j
    targetFingerprint := ← field? string? "target_fingerprint" j
    source := ← field? SchemaDef.ofJson "source" j
    target := ← field? SchemaDef.ofJson "target" j
    ops := ← field? (list? PlanOpView.ofJson) "ops" j
    blockers := ← field? (list? PlanBlocker.ofJson) "blockers" j }

theorem option?_optionalStringValue (value : Option String) :
    option? string? (optionalStringValue value) = some value := by
  cases value <;> rfl

/-! ### What was written is read back -/

theorem ColumnDef.ofJson_json (column : ColumnDef) :
    ColumnDef.ofJson column.json = some column := by
  simp [ColumnDef.ofJson, ColumnDef.json, field?, Json.get?, string?, bool?,
    option?_optionalStringValue]

theorem IndexDef.ofJson_json (index : IndexDef) : IndexDef.ofJson index.json = some index := by
  simp [IndexDef.ofJson, IndexDef.json, field?, Json.get?, string?, bool?]

theorem PrimaryKeyDef.ofJson_json (key : PrimaryKeyDef) :
    PrimaryKeyDef.ofJson key.json = some key := by
  simp [PrimaryKeyDef.ofJson, PrimaryKeyDef.json, field?, Json.get?, string?]

theorem TableDef.ofJson_json (table : TableDef) : TableDef.ofJson table.json = some table := by
  simp [TableDef.ofJson, TableDef.json, field?, Json.get?, string?, PrimaryKeyDef.ofJson_json,
    list?_map_self ColumnDef.ofJson_json, list?_map_self IndexDef.ofJson_json]

theorem SchemaDef.ofJson_json (schema : SchemaDef) :
    SchemaDef.ofJson schema.json = some schema := by
  simp [SchemaDef.ofJson, SchemaDef.json, field?, Json.get?, list?_map_self TableDef.ofJson_json]

theorem RebuildReason.ofJson_json (reason : RebuildReason) :
    RebuildReason.ofJson reason.json = some reason := by
  have hcolumns : ∀ columns : List String,
      list? string? (.array (columns.map .string)) = some columns :=
    list?_map_self fun _ => rfl
  cases reason <;> simp [RebuildReason.ofJson, RebuildReason.json, field?, Json.get?, string?,
    bool?, option?_optionalStringValue, hcolumns]

theorem PlanOpView.ofJson_json (op : PlanOp) : PlanOpView.ofJson op.json = some op.view := by
  cases op <;> simp [PlanOpView.ofJson, PlanOp.json, PlanOp.view, field?, Json.get?, string?,
    TableDef.ofJson_json, ColumnDef.ofJson_json, IndexDef.ofJson_json,
    list?_map_self RebuildReason.ofJson_json]

theorem PlanBlocker.ofJson_json (blocker : PlanBlocker) :
    PlanBlocker.ofJson blocker.json = some blocker := by
  cases blocker <;> simp [PlanBlocker.ofJson, PlanBlocker.json, field?, Json.get?, string?]

theorem PlanView.ofJson_json (plan : Plan) : PlanView.ofJson plan.json = some plan.view := by
  simp [PlanView.ofJson, Plan.json, Plan.view, field?, Json.get?, string?, nat?,
    SchemaDef.ofJson_json, list?_map PlanOpView.ofJson_json,
    list?_map_self PlanBlocker.ofJson_json]

/-- **The text of a plan is faithful.** It is JSON, and a reader that looks for
the fields by their names has all of the plan that is written. -/
theorem toJsonString_faithful (plan : Plan) :
    ∃ j, Json.parse plan.toJsonString = some j ∧ PlanView.ofJson j = some plan.view :=
  ⟨plan.json, Json.parse_of_reads plan.reads_toJsonString, PlanView.ofJson_json plan⟩

end Seekwel
