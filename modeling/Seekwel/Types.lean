import Seekwel.Error
import Seekwel.SortBy
import Seekwel.Text

/-!
# Schema definitions

A schema is what seekwel knows about the tables it manages: their primary
key, their columns and their single-column indexes. `SchemaDef.normalized`
puts a schema into name order and rejects one that names something twice or
indexes an unknown column; `SchemaDef.normalized_eq_ok_iff` says that it
accepts exactly the schemas that are `SchemaDef.WellFormed`, and that what
it returns is the sorted schema.

The canonical text of a schema, one tab-separated record a line, is what
the history table stores and what fingerprints are computed from.
`SchemaDef.fromCanonical` reads it back.
-/

namespace Seekwel

/-- The format version recorded with each applied plan. -/
def artifactVersion : ℕ := 2

/-- The table in which applied plans are recorded. -/
def historyTable : String := "_seekwel_schema_history"

/-- SQLite type affinity used for supported column comparison. -/
inductive SqlAffinity where
  | integer
  | real
  | text
  | blob
  | numeric
  deriving DecidableEq

/-- The affinity of a declared type: the first of the rules that applies. -/
def SqlAffinity.fromDeclaredType (declared : String) : SqlAffinity :=
  let upper := Text.toAsciiUppercase (Text.trim declared)
  if Text.contains upper "INT" then .integer
  else if Text.contains upper "CHAR" || Text.contains upper "CLOB"
      || Text.contains upper "TEXT" then .text
  else if Text.contains upper "BLOB" || upper = "" then .blob
  else if Text.contains upper "REAL" || Text.contains upper "FLOA"
      || Text.contains upper "DOUB" then .real
  else .numeric

/-- A managed SQLite primary-key definition. -/
structure PrimaryKeyDef where
  /-- The SQLite primary-key column name. -/
  name : String
  /-- The declared SQLite type used for DDL and review output. -/
  sqlType : String
  deriving DecidableEq

/-- A managed non-primary-key SQLite column definition. -/
structure ColumnDef where
  /-- The SQLite column name. -/
  name : String
  /-- The declared SQLite type used for DDL and review output. -/
  sqlType : String
  /-- Whether the column may store `NULL`. -/
  nullable : Bool
  /-- The SQLite default expression emitted in DDL, if any. -/
  defaultSql : Option String
  deriving DecidableEq

/-- A managed single-column SQLite index definition. -/
structure IndexDef where
  /-- The SQLite index name. -/
  name : String
  /-- The indexed column name. -/
  column : String
  /-- Whether the index is unique. -/
  unique : Bool
  deriving DecidableEq

/-- A managed SQLite table definition. -/
structure TableDef where
  /-- The SQLite table name. -/
  name : String
  /-- The SQLite primary-key column. -/
  primaryKey : PrimaryKeyDef
  /-- All managed non-primary-key columns. -/
  columns : List ColumnDef
  /-- All managed single-column indexes. -/
  indexes : List IndexDef
  deriving DecidableEq

/-- A schema snapshot for seekwel-managed tables. -/
structure SchemaDef where
  /-- Managed tables, in name order once normalized. -/
  tables : List TableDef
  deriving DecidableEq

def PrimaryKeyDef.affinity (pk : PrimaryKeyDef) : SqlAffinity :=
  SqlAffinity.fromDeclaredType pk.sqlType

def ColumnDef.affinity (column : ColumnDef) : SqlAffinity :=
  SqlAffinity.fromDeclaredType column.sqlType

def SchemaDef.tableNames (schema : SchemaDef) : List String :=
  schema.tables.map (·.name)

/-! ## Normalization -/

/-- A table with its columns and indexes in name order. -/
def TableDef.sorted (table : TableDef) : TableDef :=
  { table with
    columns := sortBy ColumnDef.name table.columns
    indexes := sortBy IndexDef.name table.indexes }

/-- A schema with its tables, and everything in them, in name order. -/
def SchemaDef.sorted (schema : SchemaDef) : SchemaDef :=
  ⟨(sortBy TableDef.name schema.tables).map TableDef.sorted⟩

/-- The checks that `SchemaDef.normalized` makes on one table, the table
being in name order already. -/
def TableDef.check (table : TableDef) : Except Error Unit :=
  match adjacentDuplicate (table.columns.map (·.name)) with
  | some name =>
    .error (.invalidSchema
      ("duplicate column `" ++ name ++ "` in table `" ++ table.name ++ "`"))
  | none =>
    if table.columns.any (fun column => column.name = table.primaryKey.name) then
      .error (.invalidSchema
        ("table `" ++ table.name ++ "` duplicates primary key column `"
          ++ table.primaryKey.name ++ "` in managed columns"))
    else
      match adjacentDuplicate (table.indexes.map (·.name)) with
      | some name =>
        .error (.invalidSchema
          ("duplicate index `" ++ name ++ "` in table `" ++ table.name ++ "`"))
      | none =>
        match table.indexes.find? (fun index =>
            index.column ≠ table.primaryKey.name
              && !table.columns.any (fun column => column.name = index.column)) with
        | some index =>
          .error (.invalidSchema
            ("index `" ++ index.name ++ "` in table `" ++ table.name
              ++ "` references unknown column `" ++ index.column ++ "`"))
        | none => .ok ()

/-- The first error among the checks of a list of tables. -/
def TableDef.checkAll : List TableDef → Except Error Unit
  | [] => .ok ()
  | table :: rest =>
    match table.check with
    | .error e => .error e
    | .ok () => TableDef.checkAll rest

/-- **Normalization**: the schema in name order, if it names nothing twice
and indexes only columns it has. -/
def SchemaDef.normalized (schema : SchemaDef) : Except Error SchemaDef :=
  let schema := schema.sorted
  match adjacentDuplicate schema.tableNames with
  | some name =>
    .error (.invalidSchema ("duplicate managed table `" ++ name ++ "`"))
  | none =>
    match TableDef.checkAll schema.tables with
    | .error e => .error e
    | .ok () => .ok schema

/-! ### What normalization accepts -/

/-- A table that names no column or index twice, keeps its primary key out
of its columns and indexes only columns it has. -/
structure TableDef.WellFormed (table : TableDef) : Prop where
  /-- Column names are distinct. -/
  columns_nodup : (table.columns.map (·.name)).Nodup
  /-- No column has the primary key's name. -/
  pk_not_mem : ∀ c ∈ table.columns, c.name ≠ table.primaryKey.name
  /-- Index names are distinct. -/
  indexes_nodup : (table.indexes.map (·.name)).Nodup
  /-- Every index is on the primary key or on a column. -/
  index_column : ∀ i ∈ table.indexes, i.column = table.primaryKey.name
    ∨ ∃ c ∈ table.columns, c.name = i.column

/-- A schema of well-formed tables with distinct names. -/
structure SchemaDef.WellFormed (schema : SchemaDef) : Prop where
  /-- Table names are distinct. -/
  nodup : schema.tableNames.Nodup
  /-- Every table is well formed. -/
  tables : ∀ t ∈ schema.tables, t.WellFormed

theorem TableDef.check_eq_ok_iff {table : TableDef}
    (hc : (table.columns.map (·.name)).Pairwise (· ≤ ·))
    (hi : (table.indexes.map (·.name)).Pairwise (· ≤ ·)) :
    table.check = .ok () ↔ table.WellFormed := by
  have hcol := adjacentDuplicate_eq_none_iff hc
  have hidx := adjacentDuplicate_eq_none_iff hi
  unfold TableDef.check
  constructor
  · intro h
    split at h
    · cases h
    · rename_i h₁
      split_ifs at h with h₂
      split at h
      · cases h
      · rename_i h₃
        split at h
        · cases h
        · rename_i h₄
          refine ⟨hcol.mp h₁, ?_, hidx.mp h₃, ?_⟩
          · simpa using h₂
          · intro i hi
            have := List.find?_eq_none.mp h₄ i hi
            by_cases hpk : i.column = table.primaryKey.name
            · exact Or.inl hpk
            · exact Or.inr (by simpa [hpk] using this)
  · intro h
    have h₂ : ¬ table.columns.any
        (fun column => column.name = table.primaryKey.name) = true := by
      simpa using h.pk_not_mem
    have h₄ : table.indexes.find? (fun index =>
        index.column ≠ table.primaryKey.name
          && !table.columns.any (fun column => column.name = index.column)) = none := by
      rw [List.find?_eq_none]
      intro i hi
      rcases h.index_column i hi with hpk | hex
      · simp [hpk]
      · simpa using fun _ => hex
    rw [hcol.mpr h.columns_nodup, hidx.mpr h.indexes_nodup]
    simp only [h₂, h₄, Bool.false_eq_true, if_false]

theorem TableDef.checkAll_eq_ok_iff {tables : List TableDef} :
    TableDef.checkAll tables = .ok () ↔ ∀ t ∈ tables, t.check = .ok () := by
  induction tables with
  | nil => simp [TableDef.checkAll]
  | cons t rest ih =>
    rw [TableDef.checkAll, List.forall_mem_cons]
    cases t.check with
    | error e => simp
    | ok u => simpa using ih

@[simp] theorem TableDef.sorted_name (t : TableDef) : t.sorted.name = t.name := rfl

@[simp] theorem TableDef.sorted_primaryKey (t : TableDef) :
    t.sorted.primaryKey = t.primaryKey := rfl

@[simp] theorem TableDef.mem_sorted_columns {t : TableDef} {c : ColumnDef} :
    c ∈ t.sorted.columns ↔ c ∈ t.columns := mem_sortBy

@[simp] theorem TableDef.mem_sorted_indexes {t : TableDef} {i : IndexDef} :
    i ∈ t.sorted.indexes ↔ i ∈ t.indexes := mem_sortBy

theorem TableDef.wellFormed_sorted_iff {t : TableDef} :
    t.sorted.WellFormed ↔ t.WellFormed := by
  have hc : (t.sorted.columns.map (·.name)).Perm (t.columns.map (·.name)) :=
    (sortBy_perm _ _).map _
  have hi : (t.sorted.indexes.map (·.name)).Perm (t.indexes.map (·.name)) :=
    (sortBy_perm _ _).map _
  constructor
  · intro h
    exact ⟨hc.nodup_iff.mp h.columns_nodup,
      fun c hm => h.pk_not_mem c (TableDef.mem_sorted_columns.mpr hm),
      hi.nodup_iff.mp h.indexes_nodup,
      fun i hm => by simpa using h.index_column i (TableDef.mem_sorted_indexes.mpr hm)⟩
  · intro h
    exact ⟨hc.nodup_iff.mpr h.columns_nodup,
      fun c hm => h.pk_not_mem c (TableDef.mem_sorted_columns.mp hm),
      hi.nodup_iff.mpr h.indexes_nodup,
      fun i hm => by simpa using h.index_column i (TableDef.mem_sorted_indexes.mp hm)⟩

theorem TableDef.sorted_sorted (t : TableDef) : t.sorted.sorted = t.sorted := by
  unfold TableDef.sorted
  rw [sortBy_eq_self (pairwise_sortBy _ _), sortBy_eq_self (pairwise_sortBy _ _)]

/-- A table is in name order exactly when sorting leaves it alone. -/
theorem TableDef.sorted_eq_self_iff {t : TableDef} :
    t.sorted = t ↔ t.columns.Pairwise (fun c c' => c.name ≤ c'.name)
      ∧ t.indexes.Pairwise (fun i i' => i.name ≤ i'.name) := by
  constructor
  · intro h
    rw [← h]
    exact ⟨pairwise_sortBy _ _, pairwise_sortBy _ _⟩
  · intro h
    unfold TableDef.sorted
    rw [sortBy_eq_self h.1, sortBy_eq_self h.2]

theorem SchemaDef.tableNames_sorted (s : SchemaDef) :
    s.sorted.tableNames = (sortBy TableDef.name s.tables).map (·.name) := by
  simp [SchemaDef.tableNames, SchemaDef.sorted, Function.comp_def]

theorem SchemaDef.tableNames_sorted_perm (s : SchemaDef) :
    s.sorted.tableNames.Perm s.tableNames := by
  rw [s.tableNames_sorted]
  exact (sortBy_perm _ _).map _

theorem SchemaDef.mem_sorted_tables {s : SchemaDef} {t : TableDef} :
    t ∈ s.sorted.tables ↔ ∃ u ∈ s.tables, u.sorted = t := by
  simp [SchemaDef.sorted]

theorem SchemaDef.wellFormed_sorted_iff {s : SchemaDef} :
    s.sorted.WellFormed ↔ s.WellFormed := by
  constructor
  · intro h
    exact ⟨s.tableNames_sorted_perm.nodup_iff.mp h.nodup, fun t ht =>
      TableDef.wellFormed_sorted_iff.mp
        (h.tables _ (SchemaDef.mem_sorted_tables.mpr ⟨t, ht, rfl⟩))⟩
  · intro h
    refine ⟨s.tableNames_sorted_perm.nodup_iff.mpr h.nodup, fun t ht => ?_⟩
    obtain ⟨u, hu, rfl⟩ := SchemaDef.mem_sorted_tables.mp ht
    exact TableDef.wellFormed_sorted_iff.mpr (h.tables u hu)

/-- A schema is in name order exactly when sorting leaves it alone. -/
theorem SchemaDef.sorted_eq_self_iff {s : SchemaDef} :
    s.sorted = s ↔ s.tables.Pairwise (fun t t' => t.name ≤ t'.name)
      ∧ ∀ t ∈ s.tables, t.sorted = t := by
  constructor
  · intro h
    rw [← h]
    refine ⟨?_, fun t ht => ?_⟩
    · rw [SchemaDef.sorted, List.pairwise_map]
      exact pairwise_sortBy _ _
    · obtain ⟨u, -, rfl⟩ := SchemaDef.mem_sorted_tables.mp ht
      exact u.sorted_sorted
  · intro h
    unfold SchemaDef.sorted
    rw [sortBy_eq_self h.1, List.map_congr_left h.2, List.map_id']

theorem SchemaDef.sorted_sorted (s : SchemaDef) : s.sorted.sorted = s.sorted := by
  refine SchemaDef.sorted_eq_self_iff.mpr ⟨?_, fun t ht => ?_⟩
  · rw [SchemaDef.sorted, List.pairwise_map]
    exact pairwise_sortBy _ _
  · obtain ⟨u, -, rfl⟩ := SchemaDef.mem_sorted_tables.mp ht
    exact u.sorted_sorted

/-- **Normalization accepts exactly the well-formed schemas and sorts
them.** -/
theorem SchemaDef.normalized_eq_ok_iff {s s' : SchemaDef} :
    s.normalized = .ok s' ↔ s.WellFormed ∧ s' = s.sorted := by
  have hnames : s.sorted.tableNames.Pairwise (· ≤ ·) := by
    rw [s.tableNames_sorted, List.pairwise_map]
    exact pairwise_sortBy _ _
  have hcheck : TableDef.checkAll s.sorted.tables = .ok ()
      ↔ ∀ t ∈ s.sorted.tables, t.WellFormed := by
    rw [TableDef.checkAll_eq_ok_iff]
    refine forall₂_congr (fun t ht => ?_)
    obtain ⟨u, -, rfl⟩ := SchemaDef.mem_sorted_tables.mp ht
    exact TableDef.check_eq_ok_iff
      (List.pairwise_map.mpr (pairwise_sortBy _ _))
      (List.pairwise_map.mpr (pairwise_sortBy _ _))
  unfold SchemaDef.normalized
  constructor
  · intro h
    dsimp only at h
    split at h
    · cases h
    · rename_i h₁
      split at h
      · cases h
      · rename_i h₂
        refine ⟨SchemaDef.wellFormed_sorted_iff.mp ⟨?_, hcheck.mp h₂⟩, ?_⟩
        · exact (adjacentDuplicate_eq_none_iff hnames).mp h₁
        · exact (Except.ok.inj h).symm
  · rintro ⟨hwf, rfl⟩
    have hwf := SchemaDef.wellFormed_sorted_iff.mpr hwf
    dsimp only
    rw [(adjacentDuplicate_eq_none_iff hnames).mpr hwf.nodup, hcheck.mpr hwf.tables]

/-- A normalized schema is well formed. -/
theorem SchemaDef.wellFormed_of_normalized {s s' : SchemaDef}
    (h : s.normalized = .ok s') : s'.WellFormed := by
  obtain ⟨hwf, rfl⟩ := SchemaDef.normalized_eq_ok_iff.mp h
  exact SchemaDef.wellFormed_sorted_iff.mpr hwf

/-- Normalizing again changes nothing. -/
theorem SchemaDef.normalized_normalized {s s' : SchemaDef}
    (h : s.normalized = .ok s') : s'.normalized = .ok s' := by
  have hwf := SchemaDef.wellFormed_of_normalized h
  obtain ⟨-, rfl⟩ := SchemaDef.normalized_eq_ok_iff.mp h
  exact SchemaDef.normalized_eq_ok_iff.mpr ⟨hwf, s.sorted_sorted.symm⟩

/-! ## The canonical text -/

/-- `u8::from` of a flag, as it is written. -/
def flag (b : Bool) : String := if b then "1" else "0"

/-- The fields of the record of a column. -/
def ColumnDef.record (table : String) (column : ColumnDef) : List String :=
  ["column", table, column.name, column.sqlType, flag column.nullable,
    column.defaultSql.getD ""]

/-- The fields of the record of an index. -/
def IndexDef.record (table : String) (index : IndexDef) : List String :=
  ["index", table, index.name, index.column, flag index.unique]

/-- The records of a table: its own, then its columns', then its
indexes'. -/
def TableDef.records (table : TableDef) : List (List String) :=
  ["table", table.name, table.primaryKey.name, table.primaryKey.sqlType]
    :: (table.columns.map (ColumnDef.record table.name)
      ++ table.indexes.map (IndexDef.record table.name))

/-- **The canonical text of a schema**: one record a line, its fields
separated by tabs, and nothing escaped. -/
def SchemaDef.canonicalString (schema : SchemaDef) : String :=
  Text.unlines ((schema.tables.flatMap TableDef.records).map (Text.join "\t"))

/-- Applying a change to the first table of a name, if there is one. -/
def modifyTable (name : String) (f : TableDef → TableDef) :
    List TableDef → Option (List TableDef)
  | [] => none
  | t :: rest =>
    if t.name = name then some (f t :: rest)
    else (modifyTable name f rest).map (t :: ·)

/-- The reading of a written flag. -/
def parseFlag : String → Option Bool
  | "0" => some false
  | "1" => some true
  | _ => none

/-- Reading one record of the canonical text, given the tables read so
far. -/
def readRecord (tables : List TableDef) : List String → Except Error (List TableDef)
  | [] => .ok tables
  | "table" :: fields =>
    match fields with
    | [] => .error (.invalidSchema "history row is missing table name")
    | name :: fields =>
      if 3 ≤ fields.length then
        .error (.invalidSchema
          ("history table row for `" ++ name ++ "` has trailing data"))
      else
        .ok (tables ++ [{
          name := name
          primaryKey := ⟨(fields[0]?).getD "id", (fields[1]?).getD "INTEGER"⟩
          columns := []
          indexes := [] }])
  | "column" :: fields =>
    match fields with
    | [] => .error (.invalidSchema "history row is missing column table name")
    | [_] => .error (.invalidSchema "history row is missing column name")
    | [_, _] => .error (.invalidSchema "history row is missing column type")
    | [_, _, _] => .error (.invalidSchema "history row is missing column nullability")
    | tableName :: columnName :: sqlType :: nullable :: rest =>
      if 2 ≤ rest.length then
        .error (.invalidSchema ("history column row for `" ++ tableName ++ "."
          ++ columnName ++ "` has trailing data"))
      else if tables.all (fun table => table.name ≠ tableName) then
        .error (.invalidSchema
          ("history column row references unknown table `" ++ tableName ++ "`"))
      else
        match parseFlag nullable with
        | none =>
          .error (.invalidSchema ("history column `" ++ tableName ++ "." ++ columnName
            ++ "` has invalid nullability flag `" ++ nullable ++ "`"))
        | some nullable =>
          let column : ColumnDef :=
            { name := columnName, sqlType := sqlType, nullable := nullable
              defaultSql := rest[0]?.filter (· ≠ "") }
          .ok ((modifyTable tableName
            (fun t => { t with columns := t.columns ++ [column] }) tables).getD tables)
  | "index" :: fields =>
    match fields with
    | [] => .error (.invalidSchema "history row is missing index table name")
    | [_] => .error (.invalidSchema "history row is missing index name")
    | [_, _] => .error (.invalidSchema "history row is missing index column name")
    | [_, _, _] => .error (.invalidSchema "history row is missing index uniqueness")
    | tableName :: indexName :: columnName :: unique :: rest =>
      if rest ≠ [] then
        .error (.invalidSchema ("history index row for `" ++ tableName ++ "."
          ++ indexName ++ "` has trailing data"))
      else if tables.all (fun table => table.name ≠ tableName) then
        .error (.invalidSchema
          ("history index row references unknown table `" ++ tableName ++ "`"))
      else
        match parseFlag unique with
        | none =>
          .error (.invalidSchema ("history index `" ++ tableName ++ "." ++ indexName
            ++ "` has invalid uniqueness flag `" ++ unique ++ "`"))
        | some unique =>
          let index : IndexDef := { name := indexName, column := columnName, unique := unique }
          .ok ((modifyTable tableName
            (fun t => { t with indexes := t.indexes ++ [index] }) tables).getD tables)
  | other :: _ =>
    .error (.invalidSchema
      ("history row has unknown record kind `" ++ other ++ "`"))

/-- Reading the lines of a canonical text one after the other. -/
def readLines (tables : List TableDef) : List String → Except Error (List TableDef)
  | [] => .ok tables
  | line :: rest =>
    if line = "" then readLines tables rest
    else
      match readRecord tables (Text.split '\t' line) with
      | .error e => .error e
      | .ok tables => readLines tables rest

/-- **Reading a canonical text back**, and normalizing what was read. -/
def SchemaDef.fromCanonical (input : String) : Except Error SchemaDef :=
  match readLines [] (Text.lines input) with
  | .error e => .error e
  | .ok tables => SchemaDef.normalized ⟨tables⟩

/-! ## Fingerprints -/

/-- The 64-bit FNV-1a hash of a sequence of bytes. -/
def fnv1a64 (bytes : List UInt8) : ℕ :=
  bytes.foldl (fun hash byte => (hash ^^^ byte.toNat) * 0x100000001b3 % 2 ^ 64)
    0xcbf29ce484222325

/-- The bytes of a string. -/
def utf8Bytes (s : String) : List UInt8 := s.toList.flatMap String.utf8EncodeChar

/-- A 64-bit number as sixteen hexadecimal digits. -/
def hex16 (n : ℕ) : String :=
  String.ofList ((List.range 16).map (fun i => Nat.digitChar (n / 16 ^ (15 - i) % 16)))

def stableHashHex (bytes : List UInt8) : String := hex16 (fnv1a64 bytes)

/-- A stable fingerprint for the normalized schema. -/
def SchemaDef.fingerprint (schema : SchemaDef) : String :=
  stableHashHex (utf8Bytes schema.canonicalString)

end Seekwel
