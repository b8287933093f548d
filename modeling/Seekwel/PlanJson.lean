import Seekwel.Json
import Seekwel.Plan

/-!
# Plans as JSON

A plan is reviewed as a text, `Plan.toJsonString`. The text is put together
from strings that are escaped one by one and from the texts of the parts, and
so is what a parser reads (`Json.Reads`).

What the text is read as has the same fields as the plan, but for the two
definitions of a table that is rebuilt, which are not written
(`Plan.reads_toJsonString`).
-/

namespace Seekwel

open Json (Reads Spells Field)

/-! ## The text of a plan -/

/-- Whether a character is a control character. -/
def isControl (c : Char) : Bool := c.toNat < 0x20 || (0x7f ≤ c.toNat && c.toNat < 0xa0)

def jsonEscapeChar (c : Char) : List Char :=
  if c = '"' then ['\\', '"']
  else if c = '\\' then ['\\', '\\']
  else if c = '\n' then ['\\', 'n']
  else if c = '\r' then ['\\', 'r']
  else if c = '\t' then ['\\', 't']
  else if isControl c then '\\' :: 'u' :: (Nat.toDigits 16 c.toNat).leftpad 4 '0'
  else [c]

/-- **A string as it is escaped.** -/
def jsonEscape (value : String) : String :=
  String.ofList (value.toList.flatMap jsonEscapeChar)

def optionalStringJson : Option String → String
  | some value => "\"" ++ jsonEscape value ++ "\""
  | none => "null"

def columnJson (column : ColumnDef) : String :=
  "\x7b\"name\":\"" ++ jsonEscape column.name ++ "\",\"sql_type\":\"" ++ jsonEscape column.sqlType
    ++ "\",\"nullable\":" ++ toString column.nullable
    ++ ",\"default_sql\":" ++ optionalStringJson column.defaultSql ++ "\x7d"

def indexJson (index : IndexDef) : String :=
  "\x7b\"name\":\"" ++ jsonEscape index.name ++ "\",\"column\":\"" ++ jsonEscape index.column
    ++ "\",\"unique\":" ++ toString index.unique ++ "\x7d"

def tableJson (table : TableDef) : String :=
  "\x7b\"name\":\"" ++ jsonEscape table.name
    ++ "\",\"primary_key\":\x7b\"name\":\"" ++ jsonEscape table.primaryKey.name
    ++ "\",\"sql_type\":\"" ++ jsonEscape table.primaryKey.sqlType
    ++ "\"\x7d,\"columns\":[" ++ Text.join "," (table.columns.map columnJson)
    ++ "],\"indexes\":[" ++ Text.join "," (table.indexes.map indexJson) ++ "]\x7d"

def schemaTablesJson (schema : SchemaDef) : String :=
  Text.join "," (schema.tables.map tableJson)

def RebuildReason.toJson : RebuildReason → String
  | .dropColumns columns =>
    "\x7b\"kind\":\"drop_columns\",\"columns\":["
      ++ Text.join "," (columns.map fun column => "\"" ++ jsonEscape column ++ "\"") ++ "]\x7d"
  | .changePrimaryKeyName fromName toName =>
    "\x7b\"kind\":\"change_primary_key_name\",\"from\":\"" ++ jsonEscape fromName
      ++ "\",\"to\":\"" ++ jsonEscape toName ++ "\"\x7d"
  | .changePrimaryKeyType fromType toType =>
    "\x7b\"kind\":\"change_primary_key_type\",\"from\":\"" ++ jsonEscape fromType
      ++ "\",\"to\":\"" ++ jsonEscape toType ++ "\"\x7d"
  | .changeColumnType column fromType toType =>
    "\x7b\"kind\":\"change_column_type\",\"column\":\"" ++ jsonEscape column
      ++ "\",\"from\":\"" ++ jsonEscape fromType ++ "\",\"to\":\"" ++ jsonEscape toType ++ "\"\x7d"
  | .changeNullability column fromNullable toNullable =>
    "\x7b\"kind\":\"change_nullability\",\"column\":\"" ++ jsonEscape column
      ++ "\",\"from_nullable\":" ++ toString fromNullable
      ++ ",\"to_nullable\":" ++ toString toNullable ++ "\x7d"
  | .changeDefault column fromDefaultSql toDefaultSql =>
    "\x7b\"kind\":\"change_default\",\"column\":\"" ++ jsonEscape column
      ++ "\",\"from_default_sql\":" ++ optionalStringJson fromDefaultSql
      ++ ",\"to_default_sql\":" ++ optionalStringJson toDefaultSql ++ "\x7d"

def PlanOp.toJson : PlanOp → String
  | .createTable table =>
    "\x7b\"kind\":\"create_table\",\"table\":" ++ tableJson table ++ "\x7d"
  | .addColumn table column =>
    "\x7b\"kind\":\"add_column\",\"table\":\"" ++ jsonEscape table
      ++ "\",\"column\":" ++ columnJson column ++ "\x7d"
  | .createIndex table index =>
    "\x7b\"kind\":\"create_index\",\"table\":\"" ++ jsonEscape table
      ++ "\",\"index\":" ++ indexJson index ++ "\x7d"
  | .dropIndex table index =>
    "\x7b\"kind\":\"drop_index\",\"table\":\"" ++ jsonEscape table
      ++ "\",\"index\":" ++ indexJson index ++ "\x7d"
  | .rebuildTable table _ _ reasons =>
    "\x7b\"kind\":\"rebuild_table\",\"table\":\"" ++ jsonEscape table
      ++ "\",\"reasons\":[" ++ Text.join "," (reasons.map RebuildReason.toJson) ++ "]\x7d"
  | .dropTable table =>
    "\x7b\"kind\":\"drop_table\",\"table\":" ++ tableJson table ++ "\x7d"

def PlanBlocker.toJson : PlanBlocker → String
  | .registryUncertain message =>
    "\x7b\"kind\":\"registry_uncertain\",\"message\":\"" ++ jsonEscape message ++ "\"\x7d"
  | .requiredColumnAddition table column =>
    "\x7b\"kind\":\"required_column_addition\",\"table\":\"" ++ jsonEscape table
      ++ "\",\"column\":\"" ++ jsonEscape column ++ "\"\x7d"
  | .unsupportedInlineFeature table feature =>
    "\x7b\"kind\":\"unsupported_inline_feature\",\"table\":\"" ++ jsonEscape table
      ++ "\",\"feature\":\"" ++ jsonEscape feature ++ "\"\x7d"
  | .realForeignKeys table =>
    "\x7b\"kind\":\"real_foreign_keys\",\"table\":\"" ++ jsonEscape table ++ "\"\x7d"
  | .dependentView table view =>
    "\x7b\"kind\":\"dependent_view\",\"table\":\"" ++ jsonEscape table
      ++ "\",\"view\":\"" ++ jsonEscape view ++ "\"\x7d"
  | .dependentTrigger table trigger =>
    "\x7b\"kind\":\"dependent_trigger\",\"table\":\"" ++ jsonEscape table
      ++ "\",\"trigger\":\"" ++ jsonEscape trigger ++ "\"\x7d"
  | .uncertain message =>
    "\x7b\"kind\":\"uncertain\",\"message\":\"" ++ jsonEscape message ++ "\"\x7d"

/-- **The text of a plan.** -/
def Plan.toJsonString (plan : Plan) : String :=
  "\x7b\"artifact_version\":" ++ toString plan.artifactVersion
    ++ ",\"plan_id\":\"" ++ jsonEscape plan.planId
    ++ "\",\"source_fingerprint\":\"" ++ jsonEscape plan.sourceFingerprint
    ++ "\",\"target_fingerprint\":\"" ++ jsonEscape plan.targetFingerprint
    ++ "\",\"source\":\x7b\"tables\":[" ++ schemaTablesJson plan.source
    ++ "]\x7d,\"target\":\x7b\"tables\":[" ++ schemaTablesJson plan.target
    ++ "]\x7d,\"ops\":[" ++ Text.join "," (plan.ops.map PlanOp.toJson)
    ++ "],\"blockers\":[" ++ Text.join "," (plan.blockers.map PlanBlocker.toJson) ++ "]\x7d"

/-! ## Strings -/

/-- The digits of a control character. -/
theorem toDigits_control : ∀ n < 0xa0, (Nat.toDigits 16 n).leftpad 4 '0'
      = ['0', '0', Nat.digitChar (n / 16), Nat.digitChar (n % 16)]
    ∧ Json.hexValue (Nat.digitChar (n / 16)) = some (n / 16)
    ∧ Json.hexValue (Nat.digitChar (n % 16)) = some (n % 16) := by
  decide +kernel

theorem lt_of_isControl {c : Char} (h : isControl c = true) : c.toNat < 0xa0 := by
  simp only [isControl, Bool.or_eq_true, Bool.and_eq_true, decide_eq_true_eq] at h
  omega

/-- **An escaped character** is read as it was. -/
theorem readsChar_jsonEscapeChar (c : Char) : Json.ReadsChar (jsonEscapeChar c) c := by
  unfold jsonEscapeChar
  split_ifs with hquote hbackslash hn hr ht hcontrol
  · subst hquote
    exact ⟨⟨_, rfl, by decide⟩, fun _ => rfl⟩
  · subst hbackslash
    exact ⟨⟨_, rfl, by decide⟩, fun _ => rfl⟩
  · subst hn
    exact ⟨⟨_, rfl, by decide⟩, fun _ => rfl⟩
  · subst hr
    exact ⟨⟨_, rfl, by decide⟩, fun _ => rfl⟩
  · subst ht
    exact ⟨⟨_, rfl, by decide⟩, fun _ => rfl⟩
  · have hlt := lt_of_isControl hcontrol
    obtain ⟨hdigits, hhigh, hlow⟩ := toDigits_control c.toNat hlt
    refine ⟨⟨_, rfl, by decide⟩, fun rest => ?_⟩
    have hunit : Json.codeUnit ((Nat.toDigits 16 c.toNat).leftpad 4 '0' ++ rest)
        = some (c.toNat, rest) := by
      rw [hdigits]
      simp only [List.cons_append, List.nil_append, Json.codeUnit, hhigh, hlow,
        show Json.hexValue '0' = some 0 from rfl]
      exact congrArg (fun n => some (n, rest)) (by omega)
    show Json.unicodeEscape ((Nat.toDigits 16 c.toNat).leftpad 4 '0' ++ rest) = _
    rw [Json.unicodeEscape, hunit]
    simp only [if_pos (Or.inl (show c.toNat < 0xd800 by omega)), Char.ofNat_toNat]
  · refine Json.readsChar_plain ?_
    have hspace : 0x20 ≤ c.toNat := by
      by_contra hlt
      exact hcontrol (by simp [isControl, Nat.not_le.mp hlt])
    simp [Json.isPlain, hquote, hbackslash, hspace]

theorem spells_jsonEscape (value : String) : Spells (jsonEscape value) value :=
  Json.spells_flatMap fun c _ => readsChar_jsonEscapeChar c

theorem reads_jsonEscape (value : String) :
    Reads ("\"" ++ jsonEscape value ++ "\"") (.string value) :=
  Json.reads_string (spells_jsonEscape value)

def optionalStringValue : Option String → Json
  | some value => .string value
  | none => .null

theorem reads_optionalStringJson (value : Option String) :
    Reads (optionalStringJson value) (optionalStringValue value) := by
  cases value with
  | none => exact Json.reads_null
  | some value => exact reads_jsonEscape value

/-! ## What a plan is read as -/

open Json (field reads_of_fields reads_array reads_plain objectText)

/-! ### The fields of an object -/

section Fields

variable {name : String} {fields : List (String × String)} {members : List (String × Json)}

theorem field_kind {kind : String} (hkind : kind.toList.all Json.isPlain = true)
    (h : List.Forall₂ Field fields members) :
    List.Forall₂ Field (("kind", "\"" ++ kind ++ "\"") :: fields)
      (("kind", .string kind) :: members) :=
  .cons (field (by decide) (reads_plain hkind)) h

theorem field_string (hname : name.toList.all Json.isPlain = true) (value : String)
    (h : List.Forall₂ Field fields members) :
    List.Forall₂ Field ((name, "\"" ++ jsonEscape value ++ "\"") :: fields)
      ((name, .string value) :: members) :=
  .cons (field hname (reads_jsonEscape value)) h

theorem field_bool (hname : name.toList.all Json.isPlain = true) (value : Bool)
    (h : List.Forall₂ Field fields members) :
    List.Forall₂ Field ((name, toString value) :: fields) ((name, .bool value) :: members) :=
  .cons (field hname (Json.reads_bool value)) h

theorem field_optional (hname : name.toList.all Json.isPlain = true) (value : Option String)
    (h : List.Forall₂ Field fields members) :
    List.Forall₂ Field ((name, optionalStringJson value) :: fields)
      ((name, optionalStringValue value) :: members) :=
  .cons (field hname (reads_optionalStringJson value)) h

end Fields

def ColumnDef.json (column : ColumnDef) : Json :=
  .object [("name", .string column.name), ("sql_type", .string column.sqlType),
    ("nullable", .bool column.nullable), ("default_sql", optionalStringValue column.defaultSql)]

theorem reads_columnJson (column : ColumnDef) : Reads (columnJson column) column.json := by
  refine reads_of_fields (field_string (by decide) _ (field_string (by decide) _
    (field_bool (by decide) _ (field_optional (by decide) _ .nil)))) ?_
  delta columnJson
  simp only [objectText, Text.join, List.map_cons, List.map_nil, String.toList_append,
    List.append_assoc]
  rfl

def IndexDef.json (index : IndexDef) : Json :=
  .object [("name", .string index.name), ("column", .string index.column),
    ("unique", .bool index.unique)]

theorem reads_indexJson (index : IndexDef) : Reads (indexJson index) index.json := by
  refine reads_of_fields (field_string (by decide) _ (field_string (by decide) _
    (field_bool (by decide) _ .nil))) ?_
  delta indexJson
  simp only [objectText, Text.join, List.map_cons, List.map_nil, String.toList_append,
    List.append_assoc]
  rfl

/-- The list of some parts that are read. -/
theorem reads_join {α : Type} {text : α → String} {json : α → Json}
    (h : ∀ a, Reads (text a) (json a)) (as : List α) :
    Reads ("[" ++ Text.join "," (as.map text) ++ "]") (.array (as.map json)) :=
  reads_array (List.forall₂_map_left_iff.mpr (List.forall₂_map_right_iff.mpr
    (List.forall₂_same.mpr fun a _ => h a)))

def PrimaryKeyDef.json (key : PrimaryKeyDef) : Json :=
  .object [("name", .string key.name), ("sql_type", .string key.sqlType)]

def TableDef.json (table : TableDef) : Json :=
  .object [("name", .string table.name), ("primary_key", table.primaryKey.json),
    ("columns", .array (table.columns.map ColumnDef.json)),
    ("indexes", .array (table.indexes.map IndexDef.json))]

theorem reads_tableJson (table : TableDef) : Reads (tableJson table) table.json := by
  have hkey : Reads (objectText [("name", "\"" ++ jsonEscape table.primaryKey.name ++ "\""),
      ("sql_type", "\"" ++ jsonEscape table.primaryKey.sqlType ++ "\"")]) table.primaryKey.json :=
    reads_of_fields (field_string (by decide) _ (field_string (by decide) _ .nil)) rfl
  refine reads_of_fields (field_string (by decide) _ (.cons (field (by decide) hkey)
    (.cons (field (by decide) (reads_join reads_columnJson _))
      (.cons (field (by decide) (reads_join reads_indexJson _)) .nil)))) ?_
  delta tableJson
  simp only [objectText, Text.join, List.map_cons, List.map_nil, String.toList_append,
    List.append_assoc]
  rfl

def SchemaDef.json (schema : SchemaDef) : Json :=
  .object [("tables", .array (schema.tables.map TableDef.json))]

theorem reads_schemaTablesJson (schema : SchemaDef) :
    Reads (objectText [("tables", "[" ++ schemaTablesJson schema ++ "]")]) schema.json :=
  reads_of_fields (.cons (field (by decide) (reads_join reads_tableJson _)) .nil) rfl

def RebuildReason.json : RebuildReason → Json
  | .dropColumns columns =>
    .object [("kind", .string "drop_columns"), ("columns", .array (columns.map .string))]
  | .changePrimaryKeyName fromName toName =>
    .object [("kind", .string "change_primary_key_name"), ("from", .string fromName),
      ("to", .string toName)]
  | .changePrimaryKeyType fromType toType =>
    .object [("kind", .string "change_primary_key_type"), ("from", .string fromType),
      ("to", .string toType)]
  | .changeColumnType column fromType toType =>
    .object [("kind", .string "change_column_type"), ("column", .string column),
      ("from", .string fromType), ("to", .string toType)]
  | .changeNullability column fromNullable toNullable =>
    .object [("kind", .string "change_nullability"), ("column", .string column),
      ("from_nullable", .bool fromNullable), ("to_nullable", .bool toNullable)]
  | .changeDefault column fromDefaultSql toDefaultSql =>
    .object [("kind", .string "change_default"), ("column", .string column),
      ("from_default_sql", optionalStringValue fromDefaultSql),
      ("to_default_sql", optionalStringValue toDefaultSql)]

theorem RebuildReason.reads_toJson (reason : RebuildReason) :
    Reads reason.toJson reason.json := by
  cases reason
  case' dropColumns columns =>
    refine reads_of_fields (field_kind (by decide)
      (.cons (field (by decide) (reads_join reads_jsonEscape columns)) .nil)) ?_
  case' changePrimaryKeyName =>
    refine reads_of_fields (field_kind (by decide) (field_string (by decide) _
      (field_string (by decide) _ .nil))) ?_
  case' changePrimaryKeyType =>
    refine reads_of_fields (field_kind (by decide) (field_string (by decide) _
      (field_string (by decide) _ .nil))) ?_
  case' changeColumnType =>
    refine reads_of_fields (field_kind (by decide) (field_string (by decide) _
      (field_string (by decide) _ (field_string (by decide) _ .nil)))) ?_
  case' changeNullability =>
    refine reads_of_fields (field_kind (by decide) (field_string (by decide) _
      (field_bool (by decide) _ (field_bool (by decide) _ .nil)))) ?_
  case' changeDefault =>
    refine reads_of_fields (field_kind (by decide) (field_string (by decide) _
      (field_optional (by decide) _ (field_optional (by decide) _ .nil)))) ?_
  all_goals
    delta RebuildReason.toJson
    simp only [objectText, Text.join, List.map_cons, List.map_nil, String.toList_append,
      List.append_assoc]
    rfl

def PlanOp.json : PlanOp → Json
  | .createTable table => .object [("kind", .string "create_table"), ("table", table.json)]
  | .addColumn table column =>
    .object [("kind", .string "add_column"), ("table", .string table), ("column", column.json)]
  | .createIndex table index =>
    .object [("kind", .string "create_index"), ("table", .string table), ("index", index.json)]
  | .dropIndex table index =>
    .object [("kind", .string "drop_index"), ("table", .string table), ("index", index.json)]
  | .rebuildTable table _ _ reasons =>
    .object [("kind", .string "rebuild_table"), ("table", .string table),
      ("reasons", .array (reasons.map RebuildReason.json))]
  | .dropTable table => .object [("kind", .string "drop_table"), ("table", table.json)]

theorem PlanOp.reads_toJson (op : PlanOp) : Reads op.toJson op.json := by
  cases op
  case' createTable table =>
    refine reads_of_fields (field_kind (by decide)
      (.cons (field (by decide) (reads_tableJson table)) .nil)) ?_
  case' addColumn table column =>
    refine reads_of_fields (field_kind (by decide) (field_string (by decide) table
      (.cons (field (by decide) (reads_columnJson column)) .nil))) ?_
  case' createIndex table index =>
    refine reads_of_fields (field_kind (by decide) (field_string (by decide) table
      (.cons (field (by decide) (reads_indexJson index)) .nil))) ?_
  case' dropIndex table index =>
    refine reads_of_fields (field_kind (by decide) (field_string (by decide) table
      (.cons (field (by decide) (reads_indexJson index)) .nil))) ?_
  case' rebuildTable table _ _ reasons =>
    refine reads_of_fields (field_kind (by decide) (field_string (by decide) table
      (.cons (field (by decide) (reads_join RebuildReason.reads_toJson reasons)) .nil))) ?_
  case' dropTable table =>
    refine reads_of_fields (field_kind (by decide)
      (.cons (field (by decide) (reads_tableJson table)) .nil)) ?_
  all_goals
    delta PlanOp.toJson
    simp only [objectText, Text.join, List.map_cons, List.map_nil, String.toList_append,
      List.append_assoc]
    rfl

def PlanBlocker.json : PlanBlocker → Json
  | .registryUncertain message =>
    .object [("kind", .string "registry_uncertain"), ("message", .string message)]
  | .requiredColumnAddition table column =>
    .object [("kind", .string "required_column_addition"), ("table", .string table),
      ("column", .string column)]
  | .unsupportedInlineFeature table feature =>
    .object [("kind", .string "unsupported_inline_feature"), ("table", .string table),
      ("feature", .string feature)]
  | .realForeignKeys table =>
    .object [("kind", .string "real_foreign_keys"), ("table", .string table)]
  | .dependentView table view =>
    .object [("kind", .string "dependent_view"), ("table", .string table),
      ("view", .string view)]
  | .dependentTrigger table trigger =>
    .object [("kind", .string "dependent_trigger"), ("table", .string table),
      ("trigger", .string trigger)]
  | .uncertain message => .object [("kind", .string "uncertain"), ("message", .string message)]

theorem PlanBlocker.reads_toJson (blocker : PlanBlocker) :
    Reads blocker.toJson blocker.json := by
  cases blocker
  case' registryUncertain | realForeignKeys | uncertain =>
    refine reads_of_fields (field_kind (by decide) (field_string (by decide) _ .nil)) ?_
  case' requiredColumnAddition | unsupportedInlineFeature | dependentView | dependentTrigger =>
    refine reads_of_fields (field_kind (by decide) (field_string (by decide) _
      (field_string (by decide) _ .nil))) ?_
  all_goals
    delta PlanBlocker.toJson
    simp only [objectText, Text.join, List.map_cons, List.map_nil, String.toList_append,
      List.append_assoc]
    rfl

def Plan.json (plan : Plan) : Json :=
  .object [("artifact_version", .number plan.artifactVersion 0), ("plan_id", .string plan.planId),
    ("source_fingerprint", .string plan.sourceFingerprint),
    ("target_fingerprint", .string plan.targetFingerprint),
    ("source", plan.source.json), ("target", plan.target.json),
    ("ops", .array (plan.ops.map PlanOp.json)),
    ("blockers", .array (plan.blockers.map PlanBlocker.json))]

set_option maxRecDepth 2000 in
/-- **The text of a plan** is read as the plan. -/
theorem Plan.reads_toJsonString (plan : Plan) : Reads plan.toJsonString plan.json := by
  refine reads_of_fields (.cons (field (by decide) (Json.reads_nat _))
    (field_string (by decide) _ (field_string (by decide) _ (field_string (by decide) _
      (.cons (field (by decide) (reads_schemaTablesJson plan.source))
        (.cons (field (by decide) (reads_schemaTablesJson plan.target))
          (.cons (field (by decide) (reads_join PlanOp.reads_toJson plan.ops))
            (.cons (field (by decide) (reads_join PlanBlocker.reads_toJson plan.blockers))
              .nil)))))))) ?_
  delta Plan.toJsonString
  simp only [objectText, Text.join, List.map_cons, List.map_nil, String.toList_append,
    List.append_assoc]
  rfl

end Seekwel
