import Seekwel.Types

/-!
# Plans

A plan lists the operations that take the live schema to the target, the
conditions that forbid applying it, and the fingerprints by which a later
`apply` recognizes the schemas it was made for.

`PlanOp.tableName` is the table an operation is about; every operation is
about exactly one.
-/

namespace Seekwel

/-- Controls which schema plans may be applied. -/
inductive ApplyMode where
  /-- Apply only plans that do not contain destructive operations. -/
  | safeOnly
  /-- Allow both safe and destructive operations. -/
  | allowDestructive
  deriving DecidableEq

/-- Why a table rebuild is required. -/
inductive RebuildReason where
  | dropColumns (columns : List String)
  | changePrimaryKeyName (fromName toName : String)
  | changePrimaryKeyType (fromType toType : String)
  | changeColumnType (column fromType toType : String)
  | changeNullability (column : String) (fromNullable toNullable : Bool)
  | changeDefault (column : String) (fromDefaultSql toDefaultSql : Option String)
  deriving DecidableEq

/-- A planned schema operation. -/
inductive PlanOp where
  | createTable (table : TableDef)
  | addColumn (table : String) (column : ColumnDef)
  | createIndex (table : String) (index : IndexDef)
  | dropIndex (table : String) (index : IndexDef)
  | rebuildTable (table : String) (fromDef toDef : TableDef)
      (reasons : List RebuildReason)
  | dropTable (table : TableDef)
  deriving DecidableEq

/-- A condition that prevents automatic apply. -/
inductive PlanBlocker where
  | registryUncertain (message : String)
  | requiredColumnAddition (table column : String)
  | unsupportedInlineFeature (table feature : String)
  | realForeignKeys (table : String)
  | dependentView (table view : String)
  | dependentTrigger (table trigger : String)
  | uncertain (message : String)
  deriving DecidableEq

/-- Whether an operation discards data or rewrites a whole table. -/
def PlanOp.isDestructive : PlanOp → Bool
  | .rebuildTable .. => true
  | .dropTable .. => true
  | _ => false

/-- The table an operation is about. -/
def PlanOp.tableName : PlanOp → String
  | .createTable table => table.name
  | .addColumn table _ => table
  | .createIndex table _ => table
  | .dropIndex table _ => table
  | .rebuildTable table _ _ _ => table
  | .dropTable table => table.name

/-- The table a blocker is about, if it is about one. -/
def PlanBlocker.tableName : PlanBlocker → Option String
  | .requiredColumnAddition table _ => some table
  | .unsupportedInlineFeature table _ => some table
  | .realForeignKeys table => some table
  | .dependentView table _ => some table
  | .dependentTrigger table _ => some table
  | .registryUncertain _ => none
  | .uncertain _ => none

/-- A reviewable schema reconciliation plan. -/
structure Plan where
  /-- Artifact version for deterministic plan serialization. -/
  artifactVersion : ℕ
  /-- The normalized managed source schema read from the live database. -/
  source : SchemaDef
  /-- The normalized managed target schema derived from model metadata. -/
  target : SchemaDef
  /-- Fingerprint of the source schema. -/
  sourceFingerprint : String
  /-- Fingerprint of the target schema. -/
  targetFingerprint : String
  /-- Planned schema operations in deterministic order. -/
  ops : List PlanOp
  /-- Conditions that prevent automatic apply. -/
  blockers : List PlanBlocker
  /-- Deterministic plan identity. -/
  planId : String
  deriving DecidableEq

def Plan.isBlocked (plan : Plan) : Bool := !plan.blockers.isEmpty

def Plan.isDestructive (plan : Plan) : Bool := plan.ops.any PlanOp.isDestructive

/-- The text whose hash identifies a plan. The derived `Debug` renderings of
operations and blockers are compiler-generated and enter as parameters. -/
def Plan.computePlanId (debugOp : PlanOp → String) (debugBlocker : PlanBlocker → String)
    (plan : Plan) : String :=
  let data :=
    "artifact_version=" ++ toString plan.artifactVersion ++ "\n"
      ++ "source\n" ++ plan.source.canonicalString
      ++ "target\n" ++ plan.target.canonicalString
      ++ String.join (plan.ops.map (fun op => "op=" ++ debugOp op ++ "\n"))
      ++ String.join (plan.blockers.map
          (fun blocker => "blocker=" ++ debugBlocker blocker ++ "\n"))
  stableHashHex (utf8Bytes data)

end Seekwel
