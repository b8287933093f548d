import Mathlib.Data.Prod.Lex
import Seekwel.Introspect
import Seekwel.Plan

/-!
# The difference between two schemas

`diff target actual` compares the target schema with what was introspected
from the live database, table by table in name order, and collects the
operations that lead from one to the other together with the conditions
that forbid running them.

A table that is present on both sides is either rebuilt as a whole
(`rebuildReasons` lists why) or changed in place by adding columns and by
dropping and creating indexes. A table only the target has is created, a
live table the target no longer has is dropped. The operations of all
tables are then ordered by `planOpSortKey`, six phases that each run over
the tables in name order.
-/

namespace Seekwel

/-- The outcome of a comparison. -/
structure DiffResult where
  /-- The normalized schema that was found. -/
  source : SchemaDef
  /-- The operations, in the order in which they are run. -/
  ops : List PlanOp
  /-- The conditions that forbid running them. -/
  blockers : List PlanBlocker
  deriving DecidableEq

/-! ## Order of operations and blockers -/

/-- The key by which operations are ordered: the phase of the operation,
then the table, then the column or index. -/
def planOpSortKey : PlanOp → ℕ ×ₗ (String ×ₗ String)
  | .dropIndex table index => toLex (0, toLex (table, index.name))
  | .createTable table => toLex (1, toLex (table.name, ""))
  | .addColumn table column => toLex (2, toLex (table, column.name))
  | .rebuildTable table _ _ _ => toLex (3, toLex (table, ""))
  | .createIndex table index => toLex (4, toLex (table, index.name))
  | .dropTable table => toLex (5, toLex (table.name, ""))

/-- The key by which blockers are ordered. -/
def blockerSortKey : PlanBlocker → ℕ ×ₗ (String ×ₗ String)
  | .registryUncertain message => toLex (0, toLex (message, ""))
  | .requiredColumnAddition table column => toLex (1, toLex (table, column))
  | .unsupportedInlineFeature table feature => toLex (2, toLex (table, feature))
  | .realForeignKeys table => toLex (3, toLex (table, ""))
  | .dependentView table view => toLex (4, toLex (table, view))
  | .dependentTrigger table trigger => toLex (5, toLex (table, trigger))
  | .uncertain message => toLex (6, toLex (message, ""))

/-! ## A table on both sides -/

/-- The columns of a table, by name. -/
def TableDef.columnMap (table : TableDef) : SortedMap String ColumnDef :=
  SortedMap.byKey ColumnDef.name table.columns

/-- The indexes of a table, by name. -/
def TableDef.indexMap (table : TableDef) : SortedMap String IndexDef :=
  SortedMap.byKey IndexDef.name table.indexes

/-- The reasons for a rebuild that the primary key gives. -/
def primaryKeyReasons (desired actual : TableDef) : List RebuildReason :=
  (if desired.primaryKey.name ≠ actual.primaryKey.name then
    [.changePrimaryKeyName actual.primaryKey.name desired.primaryKey.name] else [])
  ++ (if desired.primaryKey.affinity ≠ actual.primaryKey.affinity
      ∨ desired.primaryKey.sqlType ≠ actual.primaryKey.sqlType then
    [.changePrimaryKeyType actual.primaryKey.sqlType desired.primaryKey.sqlType]
    else [])

/-- The reasons for a rebuild that a column present on both sides gives. -/
def columnReasons (name : String) (desired actual : ColumnDef) : List RebuildReason :=
  (if desired.affinity ≠ actual.affinity then
    [.changeColumnType name actual.sqlType desired.sqlType] else [])
  ++ (if desired.nullable ≠ actual.nullable then
    [.changeNullability name actual.nullable desired.nullable] else [])
  ++ (if desired.defaultSql ≠ actual.defaultSql then
    [.changeDefault name actual.defaultSql desired.defaultSql] else [])

/-- The live columns that the target no longer has. -/
def removedColumns (desired actual : TableDef) : List String :=
  actual.columnMap.keys.filter (fun name => (desired.columnMap.get? name).isNone)

/-- The reasons for a rebuild that a column of the target gives, by name. -/
def desiredColumnReasons (actual : TableDef) (e : String × ColumnDef) :
    List RebuildReason :=
  match actual.columnMap.get? e.1 with
  | none => []
  | some actualColumn => columnReasons e.1 e.2 actualColumn

/-- **Why a table has to be rebuilt**; nothing if it can be changed in
place. -/
def rebuildReasons (desired actual : TableDef) : List RebuildReason :=
  primaryKeyReasons desired actual
  ++ desired.columnMap.entries.flatMap (desiredColumnReasons actual)
  ++ (if removedColumns desired actual ≠ [] then
      [.dropColumns (removedColumns desired actual)] else [])

/-- Whether a column can be added to a table that has rows. -/
def ColumnDef.addable (column : ColumnDef) : Bool :=
  column.nullable || column.defaultSql.isSome

/-- The target's columns that the live table lacks and that can be added
in place. -/
def addColumns (desired actual : TableDef) : List ColumnDef :=
  (desired.columnMap.entries.filter (fun e =>
    (actual.columnMap.get? e.1).isNone && e.2.addable)).map Prod.snd

/-- The blockers for the target's columns that cannot be added. -/
def requiredColumnBlockers (tableName : String) (desired actual : TableDef) :
    List PlanBlocker :=
  (desired.columnMap.entries.filter (fun e =>
    (actual.columnMap.get? e.1).isNone && !e.2.addable)).map
    (fun e => .requiredColumnAddition tableName e.1)

/-- What forbids removing a live table, whether to rebuild or to drop
it. -/
def dependencyBlockers (tableName : String) (actual : ActualTable) : List PlanBlocker :=
  (if actual.hasRealForeignKeys then [.realForeignKeys tableName] else [])
  ++ actual.dependentViews.map (fun name => .dependentView tableName name)
  ++ actual.dependentExternalTriggers.map (fun name => .dependentTrigger tableName name)

/-- What forbids rebuilding a table. -/
def rebuildBlockers (tableName : String) (actual : ActualTable) : List PlanBlocker :=
  actual.unsupportedInlineFeatures.map
    (fun feature => .unsupportedInlineFeature tableName feature)
  ++ dependencyBlockers tableName actual

/-- What an index of the target asks for, by name. -/
def desiredIndexOps (tableName : String) (actual : TableDef) (e : String × IndexDef) :
    List PlanOp :=
  match actual.indexMap.get? e.1 with
  | none => [.createIndex tableName e.2]
  | some actualIndex =>
    if e.2.column ≠ actualIndex.column ∨ e.2.unique ≠ actualIndex.unique then
      [.dropIndex tableName actualIndex, .createIndex tableName e.2]
    else []

/-- The index operations of a table changed in place. -/
def indexOps (tableName : String) (desired actual : TableDef) : List PlanOp :=
  desired.indexMap.entries.flatMap (desiredIndexOps tableName actual)
  ++ (actual.indexMap.entries.filter (fun e =>
      (desired.indexMap.get? e.1).isNone)).map (fun e => .dropIndex tableName e.2)

/-- **The comparison of a table with its target.** -/
def diffTable (tableName : String) (desired : TableDef) (actual : ActualTable) :
    List PlanOp × List PlanBlocker :=
  let reasons := rebuildReasons desired actual.table
  let required := requiredColumnBlockers tableName desired actual.table
  if reasons ≠ [] then
    ([.rebuildTable tableName actual.table desired reasons],
      required ++ rebuildBlockers tableName actual)
  else
    ((sortBy ColumnDef.name (addColumns desired actual.table)).map
        (fun column => .addColumn tableName column)
      ++ indexOps tableName desired actual.table, required)

/-! ## Whole schemas -/

/-- What the target table of a name asks for. -/
def diffTarget (actual : LiveSchema) (e : String × TableDef) :
    List PlanOp × List PlanBlocker :=
  match actual.get? e.1 with
  | none => ([.createTable e.2], [])
  | some table => diffTable e.1 e.2 table

/-- What a live table that the target does not have asks for. -/
def diffDropped (e : String × ActualTable) : List PlanOp × List PlanBlocker :=
  ([.dropTable e.2.table], dependencyBlockers e.1 e.2)

/-- The tables of a schema, by name. -/
def SchemaDef.tableMap (schema : SchemaDef) : SortedMap String TableDef :=
  SortedMap.byKey TableDef.name schema.tables

/-- What every table asks for, those of the target first. -/
def diffParts (target : SchemaDef) (actual : LiveSchema) :
    List (List PlanOp × List PlanBlocker) :=
  target.tableMap.entries.map (diffTarget actual)
  ++ (actual.entries.filter (fun e => e.1 ∉ target.tableMap.keys)).map diffDropped

/-- **The difference between a target schema and the live schema.** -/
def diff (target : SchemaDef) (actual : LiveSchema) : Except Error DiffResult :=
  match (LiveSchema.source actual).normalized with
  | .error e => .error e
  | .ok source =>
    let parts := diffParts target actual
    .ok {
      source := source
      ops := sortBy planOpSortKey (parts.flatMap Prod.fst)
      blockers := sortBy blockerSortKey (parts.flatMap Prod.snd) }

end Seekwel
