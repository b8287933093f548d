import Seekwel.BuiltInFields
import Seekwel.Conformance
import Seekwel.MigrationRuns
import Seekwel.RecordRuns

/-!
# Models on migrated tables

The schema code compares the live columns with those of a model by name,
affinity, nullability and default, and the code that saves and finds
records assumes a table that stores the values of every field in a form in
which they are read back. The two fit together: a table of a schema that
the database has is a table of its model (`isTable_of_hasSchema`), however
it came to be, by a migration or as a table that was there before and whose
types are written in another way.

So after any run of migrations the operations on records implement a store
(`migrated_models_implement`).
-/

namespace Seekwel.Model

open Sql (Table Stored)

/-- **A live table as the statements about records see it.** The key stands
for the rowid, and a column stores a value by its affinity. -/
structure SeenAs (e : Engine) (t : SqliteTable) (n : String) (schema : Sql.Schema Value) :
    Prop where
  name : schema.name = n
  key : ∃ c ∈ t.columns, isRowid t.columns c = true ∧ c.name = schema.key
  columns : ∀ c ∈ t.columns, c.name ≠ schema.key → c.name ∈ schema.columns
  store : ∀ c ∈ t.columns, schema.store c.name = e.store c.affinity

/-- A type whose values are stored as they are or as `NULL`, which is none
of them. -/
inductive KeepsValues : {T : Type} → SqlField T → Prop where
  | scalar {T : Type} {field : SqlField T} (h : Scalar field) : KeepsValues field
  | option {T : Type} {field : SqlField T} (h : Scalar field)
    (hnull : ∀ v, field.toSqlValue v ≠ .null) : KeepsValues field.option

section Fields

variable {T : Type} {field : SqlField T}

/-- **The affinity of a type stores its values as they are.** -/
theorem Scalar.store_affinity (h : Scalar field) (e : Engine) (value : T) :
    e.store (SqlAffinity.fromDeclaredType field.sqlType) (field.toSqlValue value)
      = field.toSqlValue value := by
  have hinteger : SqlAffinity.fromDeclaredType "INTEGER" = .integer := by decide
  have htext : SqlAffinity.fromDeclaredType "TEXT" = .text := by decide
  have hblob : SqlAffinity.fromDeclaredType "BLOB" = .blob := by decide
  cases h with
  | integer t =>
    show e.store (SqlAffinity.fromDeclaredType "INTEGER") (t.toSqlValue value) = _
    rw [hinteger]
    rfl
  | bool =>
    show e.store (SqlAffinity.fromDeclaredType "INTEGER") (.integer value.toInt) = _
    rw [hinteger]
    rfl
  | string =>
    show e.store (SqlAffinity.fromDeclaredType "TEXT") (.text value) = _
    rw [htext]
    rfl
  | value =>
    show e.store (SqlAffinity.fromDeclaredType "BLOB") value = value
    rw [hblob]
    cases value <;> rfl

theorem store_none (e : Engine) (affinity : SqlAffinity) : e.store affinity .null = .null := by
  cases affinity <;> rfl

/-- An optional value is read if the others are. -/
theorem fromSqlRow_option_store (store : Value → Value) (hnone : store .null = .null)
    (hstore : ∀ v, store (field.toSqlValue v) = field.toSqlValue v) (hlawful : field.Lawful)
    (hnull : ∀ v, field.toSqlValue v ≠ .null) (value : Option T) :
    field.option.fromSqlRow (store (field.option.toSqlValue value)) = .ok value := by
  cases value with
  | none =>
    show field.option.fromSqlRow (store .null) = _
    rw [hnone]
    rfl
  | some value =>
    show field.option.fromSqlRow (store (field.toSqlValue value)) = _
    rw [hstore, SqlField.fromSqlRow_option (hnull value), hlawful value]
    rfl

/-- **A value is read from a column with the affinity of its type.** -/
theorem KeepsValues.fromSqlRow_store (h : KeepsValues field) (e : Engine) (value : T) :
    field.fromSqlRow (e.store (SqlAffinity.fromDeclaredType field.sqlType)
      (field.toSqlValue value)) = .ok value := by
  cases h with
  | scalar h =>
    rw [h.store_affinity e]
    exact h.lawful value
  | @option T field h hnull =>
    rw [show field.option.sqlType = field.sqlType from rfl]
    exact fromSqlRow_option_store (e.store (SqlAffinity.fromDeclaredType field.sqlType))
      (store_none e _) (h.store_affinity e) h.lawful hnull value

end Fields

section Tables

variable {e : Engine} {t : SqliteTable}

/-- The column that stands for the rowid is the one that introspection takes
for the primary key. -/
theorem primaryKeyName_of_isRowid {rows : List ColumnRow} {c : ColumnRow} (hc : c ∈ rows)
    (hrowid : isRowid rows c = true) : primaryKeyName rows = c.name := by
  simp only [isRowid, Bool.and_eq_true, decide_eq_true_iff] at hrowid
  obtain ⟨⟨hpk, hcount⟩, -⟩ := hrowid
  obtain ⟨c', hsole⟩ := List.length_eq_one_iff.mp hcount
  have hmem : c ∈ rows.filter (fun column => 0 < column.pk) :=
    List.mem_filter.mpr ⟨hc, by simp [hpk]⟩
  rw [hsole] at hmem
  obtain rfl := List.mem_singleton.mp hmem
  rw [primaryKeyName, primaryKeyColumn_of_sole hsole, if_pos hpk]
  rfl

/-- **A table of a schema that the database has is a table of its model.** -/
theorem isTable_of_hasSchema {db : Database} {s : SchemaDef} (hs : s.WellFormed)
    (h : db.HasSchema s) {M : Declaration} (hM : (tableForModel M.modelDef).sorted ∈ s.tables)
    (hfields : ∀ field ∈ M.fields, KeepsValues field.sqlField) :
    ∃ t, db.tables.get? M.tableName = some t
      ∧ ∀ schema, SeenAs e t M.tableName schema → IsTable M schema := by
  obtain ⟨a, ha, hconforms, -⟩ := h _ hM
  have hwf := TableDef.wellFormed_sorted_iff.mp (hs.tables _ hM)
  obtain ⟨t, ht, ha⟩ := Option.bind_eq_some_iff.mp ha
  obtain ⟨sql, -, rfl⟩ := Option.map_eq_some_iff.mp ha
  refine ⟨t, ht, fun schema hseen => ?_⟩
  have hnames : (tableForModel M.modelDef).columns.map (·.name) = M.fields.map (·.columnName) :=
    columnNames_modelDef M
  have hkey : schema.key = M.primaryKeyName := by
    obtain ⟨c, hc, hrowid, hname⟩ := hseen.key
    rw [← hname, ← primaryKeyName_of_isRowid hc hrowid]
    exact (congrArg Seekwel.PrimaryKeyDef.name hconforms.primaryKey).symm
  have hkeyNot : M.primaryKeyName ∉ M.fields.map (·.columnName) := by
    rw [← hnames]
    rintro hmem
    obtain ⟨c, hc, hname⟩ := List.mem_map.mp hmem
    exact hwf.pk_not_mem c hc hname
  -- the live column of a field
  have hcolumn : ∀ field ∈ M.fields, ∃ row ∈ t.columns, row.name = field.columnName
      ∧ row.affinity = SqlAffinity.fromDeclaredType field.sqlField.sqlType := by
    intro field hfield
    have hdef : field.columnDef ∈ (tableForModel M.modelDef).sorted.columns :=
      TableDef.mem_sorted_columns.mpr (List.mem_map_of_mem hfield)
    obtain ⟨c', hc', hname⟩ := hconforms.columns _ hdef
    have hagrees := hconforms.agrees _ hdef c' hc' hname.symm
    obtain ⟨row, hrow, rfl⟩ := List.mem_map.mp hc'
    exact ⟨row, (List.mem_filter.mp hrow).1, hname, hagrees.affinity.symm⟩
  refine ⟨hseen.name, hkey, fun field hfield => ?_, hnames ▸ hwf.columns_nodup, hkeyNot,
    fun field hfield value => ?_⟩
  · obtain ⟨row, hrow, hname, -⟩ := hcolumn field hfield
    rw [← hname]
    refine hseen.columns row hrow ?_
    rw [hname, hkey]
    rintro heq
    exact hkeyNot (List.mem_map.mpr ⟨field, hfield, heq⟩)
  · obtain ⟨row, hrow, hname, haffinity⟩ := hcolumn field hfield
    rw [← hname, hseen.store row hrow, haffinity]
    exact (hfields field hfield).fromSqlRow_store e value

end Tables

/-- Films with a title. -/
def film : Declaration where
  tableName := "film"
  primaryKeyName := "id"
  primaryKeyType := .i64
  autoIncrement := true
  fields := [⟨"title", none, String, .string⟩]
  indexes := []
  validNew _ _ := true
  validPersisted _ _ := true

/-- The table of films, which seekwel did not create. -/
def filmDatabase : Database :=
  Database.empty.setTable "film" {
    sql := some "CREATE TABLE film (id INTEGER PRIMARY KEY, title VARCHAR(80) NOT NULL)"
    columns := [⟨"id", "INTEGER", false, none, 1, 0⟩, ⟨"title", "VARCHAR(80)", true, none, 0, 0⟩]
    foreignKeys := []
    rows := [] }

/-- The films are put under the care of seekwel. -/
def adoptFilms : List World.Event :=
  [.call (.build ⟨[tableForModel film.modelDef]⟩), .call (.apply 0 .safeOnly Faults.none)]

/-- The table of films as the statements about records see it. -/
def filmTable : Table Value where
  name := "film"
  key := "id"
  columns := ["title"]
  default _ := .null
  store column := exampleEngine.store (if column = "id" then .integer else .text)
  equals _ a b := decide (a = b)
  admits _ := true
  another _ := 1
  rows := []
  hasRows := ⟨List.nodup_nil, nofun, nofun⟩

theorem seenAs_filmTable {t : SqliteTable} (h : t.columns = [⟨"id", "INTEGER", false, none, 1, 0⟩,
    ⟨"title", "VARCHAR(80)", true, none, 0, 0⟩]) :
    SeenAs exampleEngine t film.tableName filmTable.toSchema := by
  refine ⟨rfl, ⟨_, h ▸ List.mem_cons_self, by rw [h]; decide, rfl⟩, fun c hc hne => ?_,
    fun c hc => ?_⟩
  · rw [h] at hc
    obtain rfl | hc := List.mem_cons.mp hc
    · exact absurd rfl hne
    · rw [List.mem_singleton.mp hc]
      exact List.mem_singleton_self _
  · have haffinity : ∀ c ∈ [(⟨"id", "INTEGER", false, none, 1, 0⟩ : ColumnRow),
        ⟨"title", "VARCHAR(80)", true, none, 0, 0⟩],
        (if c.name = "id" then SqlAffinity.integer else .text) = c.affinity := by decide
    rw [h] at hc
    exact congrArg exampleEngine.store (haffinity c hc)

def filmValues (title : String) : Values film.fields := (title, ())

/-- A film is created and found. -/
def filmOperations : List (Operation film) :=
  [.create ⟨movieKey, filmValues "Stalker"⟩, .find movieKey]

end Seekwel.Model
