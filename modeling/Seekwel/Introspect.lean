import Seekwel.Catalog

/-!
# Introspection

What the crate reads off a live database before it plans or applies
anything. For each table name in scope that the database has,
`introspectTable` collects the managed part of the table – the primary key
`PRAGMA table_xinfo` reports first, the visible columns, the plain
single-column indexes with a managed name – together with everything that
would forbid rebuilding or dropping the table.

The check for features that a rebuild would lose is a search for words in
the upper-cased statement text (`inlineFeatures`), and the check for views
and triggers is a search for the table's name as a quoted or a bare word
(`sqlReferencesIdentifier`).
-/

namespace Seekwel

/-- The stored text of an index or trigger, to be run again. -/
structure ReplaySql where
  sql : String
  deriving DecidableEq

/-- What introspection found out about a live table. -/
structure ActualTable where
  /-- The part of the table that seekwel manages. -/
  table : TableDef
  /-- Features of the stored statement that a rebuild would lose. -/
  unsupportedInlineFeatures : List String
  /-- Whether the table refers to another by a foreign key, or another
  table refers to it. -/
  hasRealForeignKeys : Bool
  /-- The views that mention the table. -/
  dependentViews : List String
  /-- The triggers of other tables that mention the table. -/
  dependentExternalTriggers : List String
  /-- The indexes and triggers to run again after a rebuild. -/
  replaySql : List ReplaySql
  deriving DecidableEq

/-- The live schema, by table name. -/
abbrev LiveSchema := SortedMap String ActualTable

/-- The schema that introspection found. -/
def LiveSchema.source (actual : LiveSchema) : SchemaDef :=
  ⟨actual.values.map (·.table)⟩

/-! ## Reading the catalog -/

/-- The stored statement of a table, if the table exists and has one. -/
def tableSql (db : Database) (tableName : String) : Option String :=
  (db.tables.get? tableName).bind (·.sql)

/-- The rows of `PRAGMA table_xinfo`. -/
def tableColumns (db : Database) (tableName : String) : List ColumnRow :=
  ((db.tables.get? tableName).map (·.columns)).getD []

/-- Whether an index has a name that seekwel gives. -/
def isManagedIndexName (name : String) : Bool := Text.startsWith name "seekwel_idx_"

/-- The columns of an index; its expressions are left out. -/
def indexColumns (o : SchemaObject) : List String := o.keyColumns.filterMap id

/-- The managed index that an index object stands for, if it is one. -/
def managedIndex (o : SchemaObject) : Option IndexDef :=
  if !isManagedIndexName o.name || o.isPartial then none
  else
    match indexColumns o with
    | [column] => some ⟨o.name, column, o.unique⟩
    | _ => none

/-- The managed indexes of a table. -/
def tableIndexes (db : Database) (tableName : String) : List IndexDef :=
  (db.objects.filter (fun o => o.kind = .index && o.tblName = tableName)).filterMap
    managedIndex

/-- The statements to run again after a rebuild of a table: those of its
triggers and of its indexes without a managed name. -/
def replayableObjects (db : Database) (tableName : String) : List ReplaySql :=
  (db.objects.filter (fun o => o.tblName = tableName)).filterMap (fun o =>
    match o.kind, o.sql with
    | .index, some sql => if isManagedIndexName o.name then none else some ⟨sql⟩
    | .trigger, some sql => some ⟨sql⟩
    | _, _ => none)

/-- The views and triggers that could mention a table, with their text. -/
def dependencyCandidates (db : Database) : List (SchemaObject × String) :=
  db.objects.filterMap (fun o =>
    match o.kind, o.sql with
    | .view, some sql => some (o, sql)
    | .trigger, some sql => some (o, sql)
    | _, _ => none)

/-- The names of the tables that are neither SQLite's own nor the history
table. -/
def userTables (db : Database) : List String :=
  db.tables.keys.filter (fun name =>
    !(Text.startsWith (Text.toAsciiLowercase name) "sqlite" && 7 ≤ name.length)
      && name ≠ historyTable)

/-- The tables a table refers to by foreign keys. -/
def foreignKeyList (db : Database) (tableName : String) : List String :=
  ((db.tables.get? tableName).map (·.foreignKeys)).getD []

/-- Whether a table takes part in a foreign key on either side. -/
def hasRealForeignKeys (db : Database) (tableName : String) : Bool :=
  !(foreignKeyList db tableName).isEmpty
  || (userTables db).any (fun other =>
      other ≠ tableName
        && (foreignKeyList db other).any (Text.eqIgnoreAsciiCase · tableName))

/-! ## Searching statement texts -/

/-- The characters of a bare word. -/
def isWordChar (c : Char) : Bool := c.isAlphanum || c = '_'

/-- Whether a word of the rest of a text is the given one, `token` being
the word read so far. -/
def scanTokens (identifier token : List Char) : List Char → Bool
  | [] => token = identifier
  | c :: rest =>
    if isWordChar c then scanTokens identifier (token ++ [c]) rest
    else token = identifier || scanTokens identifier [] rest

/-- Whether a statement mentions an identifier, quoted or as a bare
word. -/
def sqlReferencesIdentifier (sql identifier : String) : Bool :=
  let identifier := Text.toAsciiLowercase identifier
  let sqlLower := Text.toAsciiLowercase sql
  Text.contains sqlLower ("\"" ++ identifier ++ "\"")
  || Text.contains sqlLower ("[" ++ identifier ++ "]")
  || Text.contains sqlLower ("`" ++ identifier ++ "`")
  || scanTokens identifier.toList [] sqlLower.toList

/-- The unsupported features a statement text shows. -/
def inlineFeatures (sql : String) : List String :=
  let normalizedSql := Text.toAsciiUppercase sql
  (if Text.contains normalizedSql "CHECK" then
    ["CHECK constraints are not supported"] else [])
  ++ (if Text.contains normalizedSql "WITHOUT ROWID" then
    ["WITHOUT ROWID tables are not supported"] else [])
  ++ (if Text.contains normalizedSql "GENERATED ALWAYS" then
    ["generated columns are not supported"] else [])

/-! ## Tables -/

/-- The column that introspection takes for the primary key. -/
def primaryKeyColumn (rows : List ColumnRow) : Option ColumnRow :=
  rows.find? (fun column => column.pk = 1)

/-- How many columns belong to the primary key. -/
def pkCount (rows : List ColumnRow) : ℕ :=
  (rows.filter (fun column => 0 < column.pk)).length

/-- The name taken for the primary key's; `id` if there is none. -/
def primaryKeyName (rows : List ColumnRow) : String :=
  ((primaryKeyColumn rows).map (·.name)).getD "id"

/-- The type taken for the primary key's; `INTEGER` if there is none. -/
def primaryKeySqlType (rows : List ColumnRow) : String :=
  ((primaryKeyColumn rows).map (·.sqlType)).getD "INTEGER"

/-- Whether the primary key is a single visible integer column. -/
def primaryKeyIsExact (rows : List ColumnRow) : Bool :=
  match primaryKeyColumn rows with
  | none => false
  | some column =>
    pkCount rows = 1
      && SqlAffinity.fromDeclaredType column.sqlType = .integer
      && Text.eqIgnoreAsciiCase (Text.trim column.sqlType) "INTEGER"
      && column.hidden = 0

/-- The unsupported features that the columns show. -/
def columnFeatures (rows : List ColumnRow) : List String :=
  (if !primaryKeyIsExact rows then
    ["managed tables must use a single `<name> INTEGER PRIMARY KEY` column"] else [])
  ++ (if 1 < pkCount rows then ["composite primary keys are not supported"] else [])
  ++ (if rows.any (fun column => column.hidden ≠ 0) then
    ["generated or hidden columns are not supported"] else [])

/-- The managed column of a column row. -/
def ColumnRow.toColumnDef (column : ColumnRow) : ColumnDef where
  name := column.name
  sqlType := column.sqlType
  nullable := !column.notNull
  defaultSql := column.defaultSql

/-- The columns outside the primary key that are visible. -/
def managedColumns (rows : List ColumnRow) : List ColumnDef :=
  (rows.filter (fun column =>
    column.hidden = 0 && column.name ≠ primaryKeyName rows)).map ColumnRow.toColumnDef

/-- **What introspection finds out about one table.** -/
def introspectTable (db : Database) (tableName sql : String) : ActualTable :=
  let rows := tableColumns db tableName
  let dependents := (dependencyCandidates db).filter (fun candidate =>
    candidate.1.tblName ≠ tableName
      && sqlReferencesIdentifier candidate.2 tableName)
  { table :=
      { name := tableName
        primaryKey := ⟨primaryKeyName rows, primaryKeySqlType rows⟩
        columns := managedColumns rows
        indexes := tableIndexes db tableName }
    unsupportedInlineFeatures := columnFeatures rows ++ inlineFeatures sql
    hasRealForeignKeys := hasRealForeignKeys db tableName
    dependentViews :=
      (dependents.filter (fun candidate => candidate.1.kind = .view)).map (·.1.name)
    dependentExternalTriggers :=
      (dependents.filter (fun candidate => candidate.1.kind = .trigger)).map (·.1.name)
    replaySql := replayableObjects db tableName }

/-- **Introspection** of the tables of a scope. -/
def introspectManaged (db : Database) (tableNames : List String) : LiveSchema :=
  tableNames.foldl (fun tables tableName =>
    match tableSql db tableName with
    | none => tables
    | some sql => tables.insert tableName (introspectTable db tableName sql))
    SortedMap.empty

/-- **Introspection finds exactly the tables of its scope that have a
stored statement.** -/
theorem get?_introspectManaged (db : Database) (tableNames : List String) (n : String) :
    (introspectManaged db tableNames).get? n
      = if n ∈ tableNames then (tableSql db n).map (introspectTable db n) else none := by
  suffices h : ∀ acc : LiveSchema, (tableNames.foldl (fun tables tableName =>
      match tableSql db tableName with
      | none => tables
      | some sql => tables.insert tableName (introspectTable db tableName sql)) acc).get? n
        = if n ∈ tableNames then ((tableSql db n).map (introspectTable db n)).or (acc.get? n)
          else acc.get? n by
    rw [introspectManaged, h, SortedMap.get?_empty, Option.or_none]
  induction tableNames with
  | nil => intro acc; rfl
  | cons m rest ih =>
    intro acc
    rw [List.foldl_cons, ih]
    cases hm : tableSql db m with
    | none =>
      by_cases hn : n = m
      · subst hn
        simp [hm]
      · simp [hn]
    | some sql =>
      dsimp only
      by_cases hn : n = m
      · subst hn
        simp [hm]
      · rw [SortedMap.get?_insert_of_ne _ _ hn]
        simp [hn]

theorem introspectManaged_name {db : Database} {tableNames : List String} {n : String}
    {a : ActualTable} (h : (introspectManaged db tableNames).get? n = some a) :
    a.table.name = n := by
  rw [get?_introspectManaged] at h
  split_ifs at h
  obtain ⟨sql, -, rfl⟩ := Option.map_eq_some_iff.mp h
  rfl

end Seekwel
