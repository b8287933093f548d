import Seekwel.Convergence
import Seekwel.PlanShape
import Seekwel.RuleLoss

/-!
# What an applied plan leaves behind

`runOps` says what operations mean for the managed tables, and
`Engine.exec` what statements do to the database. What introspection reads
of a table, `Database.managed`, connects the two: executing the statements
of an operation changes it as the operation says (`managed_op`), and so
does a whole plan (`managed_ops`). After a committed plan introspection
finds the result of its operations (`commits_isResult`).

An operation fits a database (`PlanOp.Fits`) where this can be relied on.
`DROP INDEX` names no table, so the index has to be one of the table that
the operation is about; a column that is added must not have the name that
introspection takes for the primary key's. The operations of a comparison
fit the database that was compared, and each of them still does when the
ones before it have been run, because indexes are dropped first and a
table that is created, rebuilt or dropped has no other operation
(`PlanOp.Before`).
-/

namespace Seekwel

/-! ## What introspection reads of a table -/

/-- What introspection reads of a table with some indexes. -/
def SqliteTable.managed (t : SqliteTable) (n : String) (indexes : List IndexDef) : TableDef where
  name := n
  primaryKey := ⟨primaryKeyName t.columns, primaryKeySqlType t.columns⟩
  columns := managedColumns t.columns
  indexes := indexes

/-- **The managed part of a table**, if the table has a stored statement. -/
def Database.managed (db : Database) (n : String) : Option TableDef :=
  (db.tables.get? n).bind fun t => t.sql.map fun _ => t.managed n (tableIndexes db n)

theorem tableColumns_eq {db : Database} {n : String} {t : SqliteTable}
    (h : db.tables.get? n = some t) : tableColumns db n = t.columns := by
  rw [tableColumns, h]
  rfl

/-- **Introspection reads the managed parts** of the tables in its scope. -/
theorem map_get?_introspectManaged (db : Database) (scope : List String) (n : String) :
    ((introspectManaged db scope).get? n).map (·.table)
      = if n ∈ scope then db.managed n else none := by
  rw [get?_introspectManaged]
  split_ifs with hn
  · rw [tableSql, Database.managed]
    cases ht : db.tables.get? n with
    | none => rfl
    | some t =>
      cases hsql : t.sql with
      | none => simp [hsql]
      | some sql =>
        simp only [Option.bind_some, hsql, Option.map_some, introspectTable, tableColumns_eq ht]
        rfl
  · rfl

theorem Database.managed_name {db : Database} {n : String} {t : TableDef}
    (h : db.managed n = some t) : t.name = n := by
  obtain ⟨u, -, h⟩ := Option.bind_eq_some_iff.mp h
  obtain ⟨sql, -, rfl⟩ := Option.map_eq_some_iff.mp h
  rfl

theorem Database.managed_eq_none {db : Database} {n : String} (h : db.tables.get? n = none) :
    db.managed n = none := by
  rw [managed, h]
  rfl

/-- Where only indexes were created or dropped. -/
theorem Database.managed_indexes {db db' : Database} {n : String}
    (h : db'.tables.get? n = db.tables.get? n) {f : List IndexDef → List IndexDef}
    (hindexes : tableIndexes db' n = f (tableIndexes db n)) :
    db'.managed n = (db.managed n).map fun t => { t with indexes := f t.indexes } := by
  rw [managed, managed, h, hindexes]
  cases db.tables.get? n with
  | none => rfl
  | some t => cases hsql : t.sql <;> simp [hsql, SqliteTable.managed]

/-! ### Rows of columns -/

/-- A column that is added does not change what is taken for the primary
key. -/
theorem primaryKeyColumn_append (rows : List ColumnRow) (c : ColumnDef) :
    primaryKeyColumn (rows ++ [c.declaredRow]) = primaryKeyColumn rows := by
  rw [primaryKeyColumn, List.find?_append]
  exact Option.or_none

theorem managedColumns_append {rows : List ColumnRow} {c : ColumnDef}
    (h : c.name ≠ primaryKeyName rows) :
    managedColumns (rows ++ [c.declaredRow]) = managedColumns rows ++ [c] := by
  have hkey : primaryKeyName (rows ++ [c.declaredRow]) = primaryKeyName rows := by
    rw [primaryKeyName, primaryKeyColumn_append, primaryKeyName]
  have hcolumn : c.declaredRow.toColumnDef = c := by
    simp [ColumnDef.declaredRow, ColumnRow.toColumnDef]
  rw [managedColumns, managedColumns, hkey, List.filter_append, List.map_append,
    List.filter_cons_of_pos (by simp [ColumnDef.declaredRow, h])]
  exact congrArg (fun c => _ ++ [c]) hcolumn

/-- **What is read of the columns of a created table** is its
definition. -/
theorem primaryKeyName_declaredRows (t : TableDef) :
    primaryKeyName t.declaredRows = t.primaryKey.name := rfl

theorem primaryKeySqlType_declaredRows (t : TableDef) :
    primaryKeySqlType t.declaredRows = t.primaryKey.sqlType := rfl

theorem managedColumns_declaredRows {t : TableDef} (h : t.WellFormed) :
    managedColumns t.declaredRows = t.columns := by
  have hrest : (t.columns.map ColumnDef.declaredRow).filter
      (fun column => column.hidden = 0 && column.name ≠ t.primaryKey.name)
        = t.columns.map ColumnDef.declaredRow := by
    rw [List.filter_eq_self]
    intro row hrow
    obtain ⟨c, hc, rfl⟩ := List.mem_map.mp hrow
    simp [ColumnDef.declaredRow, h.pk_not_mem c hc]
  rw [managedColumns, primaryKeyName_declaredRows, TableDef.declaredRows,
    List.filter_cons_of_neg (by simp [PrimaryKeyDef.declaredRow]), hrest, List.map_map]
  refine List.map_id'' (fun c => ?_) _
  simp [ColumnDef.declaredRow, ColumnRow.toColumnDef]

/-- A table with the columns of a definition is read as the definition. -/
theorem managed_of_columns {t : TableDef} (h : t.WellFormed) {u : SqliteTable}
    (hcolumns : u.columns = t.declaredRows) : u.managed t.name t.indexes = t := by
  rw [SqliteTable.managed, hcolumns, managedColumns_declaredRows h]
  rfl

/-! ### Indexes -/

/-- The managed indexes of a table among some objects. -/
def indexesIn (objects : List SchemaObject) (n : String) : List IndexDef :=
  (objects.filter (fun o => o.kind = .index && o.tblName = n)).filterMap managedIndex

theorem tableIndexes_eq (db : Database) (n : String) :
    tableIndexes db n = indexesIn db.objects n := rfl

theorem indexesIn_append (a b : List SchemaObject) (n : String) :
    indexesIn (a ++ b) n = indexesIn a n ++ indexesIn b n := by
  rw [indexesIn, List.filter_append, List.filterMap_append]
  rfl

/-- **An object that seekwel did not make**: anything but an index with a
managed name. -/
def SchemaObject.Foreign (o : SchemaObject) : Prop :=
  o.kind = .index → isManagedIndexName o.name = false

theorem indexesIn_foreign {objects : List SchemaObject} (h : ∀ o ∈ objects, o.Foreign)
    (n : String) : indexesIn objects n = [] := by
  rw [indexesIn, List.filterMap_eq_nil_iff]
  intro o ho
  obtain ⟨hmem, hkind⟩ := List.mem_filter.mp ho
  rw [Bool.and_eq_true, decide_eq_true_iff] at hkind
  rw [managedIndex, h o hmem hkind.1]
  rfl

/-- Indexes that seekwel creates have managed names. -/
def Managed (indexes : List IndexDef) : Prop := ∀ i ∈ indexes, isManagedIndexName i.name = true

theorem managedIndex_declaredObject {i : IndexDef} (h : isManagedIndexName i.name = true)
    (n : String) : managedIndex (i.declaredObject n) = some i := by
  rw [managedIndex]
  simp [IndexDef.declaredObject, h, indexColumns]

theorem indexesIn_declared {indexes : List IndexDef} (h : Managed indexes) (n m : String) :
    indexesIn (indexes.map (·.declaredObject n)) m = if n = m then indexes else [] := by
  split_ifs with hn
  · subst hn
    induction indexes with
    | nil => rfl
    | cons i rest ih =>
      have ih := ih fun j hj => h j (List.mem_cons_of_mem _ hj)
      rw [List.map_cons, indexesIn, List.filter_cons_of_pos (by simp [IndexDef.declaredObject]),
        List.filterMap_cons_some (managedIndex_declaredObject (h i List.mem_cons_self) n)]
      exact congrArg _ ih
  · rw [indexesIn, List.filter_eq_nil_iff.mpr]
    · rfl
    · intro o ho
      obtain ⟨i, -, rfl⟩ := List.mem_map.mp ho
      simp [IndexDef.declaredObject, hn]

/-- Without the objects of a table, its indexes are gone and those of other
tables are left. -/
theorem indexesIn_removed (objects : List SchemaObject) (n m : String) :
    indexesIn (objects.filter (fun o => o.kind = .view || o.tblName ≠ n)) m
      = if n = m then [] else indexesIn objects m := by
  rw [indexesIn, List.filter_filter]
  split_ifs with hn
  · subst hn
    rw [List.filter_eq_nil_iff.mpr]
    · rfl
    · intro o _
      cases o.kind <;> simp
  · refine congrArg (List.filterMap managedIndex) (List.filter_congr fun o _ => ?_)
    by_cases hm : o.tblName = m
    · subst hm
      simp [Ne.symm hn]
    · simp [hm]

theorem managedIndex_name {o : SchemaObject} {i : IndexDef} (h : managedIndex o = some i) :
    i.name = o.name := by
  rw [managedIndex] at h
  split_ifs at h
  split at h
  · cases h
    rfl
  · cases h

/-- Without the indexes of a name that all belong to one table. -/
theorem indexesIn_dropped {objects : List SchemaObject} {n : String} {i : IndexDef}
    (h : ∀ o ∈ objects, o.kind = .index → o.name = i.name → o.tblName = n) (m : String) :
    indexesIn (objects.filter (fun o => !(o.kind = .index && o.name = i.name))) m
      = if n = m then (indexesIn objects m).filter (fun j => j.name ≠ i.name)
        else indexesIn objects m := by
  rw [indexesIn, List.filter_filter]
  split_ifs with hn
  · rw [indexesIn, List.filter_filterMap, List.filterMap_filter, List.filterMap_filter]
    refine List.filterMap_congr fun o _ => ?_
    cases hmanaged : managedIndex o with
    | none => simp
    | some j =>
      by_cases hkind : o.kind = .index
      · by_cases hname : o.name = i.name <;>
          simp [hkind, hname, managedIndex_name hmanaged, Option.filter]
      · simp [hkind]
  · refine congrArg (List.filterMap managedIndex) (List.filter_congr fun o ho => ?_)
    by_cases hkind : o.kind = .index
    · by_cases hm : o.tblName = m
      · have hname : o.name ≠ i.name := fun hname => hn ((h o ho hkind hname).symm.trans hm)
        simp [hkind, hm, hname]
      · simp [hm]
    · simp [hkind]

/-! ## Tidy databases -/

/-- Whether a name is that of a table or a view. -/
def Database.Owns (db : Database) (n : String) : Prop :=
  n ∈ db.tables.keys ∨ ∃ o ∈ db.objects, o.kind = .view ∧ o.name = n

/-- **A database as SQLite keeps it**, as far as its indexes, triggers and
views are concerned. -/
structure Database.Tidy (e : Engine) (db : Database) : Prop where
  /-- Indexes of one name belong to one table. -/
  names : ∀ o ∈ db.objects, ∀ o' ∈ db.objects, o.kind = .index → o'.kind = .index →
    o.name = o'.name → o.tblName = o'.tblName
  /-- An index or a trigger has its table or its view. -/
  owned : ∀ o ∈ db.objects, o.kind ≠ .view → db.Owns o.tblName
  /-- What seekwel did not make is what its text declares. -/
  declared : ∀ o ∈ db.objects, o.Foreign → ∀ sql, o.sql = some sql → e.declared sql = some o

theorem Database.tidy_empty (e : Engine) : Database.empty.Tidy e :=
  ⟨fun _ h => absurd h List.not_mem_nil, fun _ h => absurd h List.not_mem_nil,
    fun _ h => absurd h List.not_mem_nil⟩

theorem Database.not_owns_of_nameTaken {db : Database} {n : String}
    (h : db.nameTaken n = false) : ¬ db.Owns n := by
  rw [nameTaken, Bool.or_eq_false_iff, List.any_eq_false, List.any_eq_false] at h
  rintro (hkey | ⟨o, ho, hkind, rfl⟩)
  · exact h.1 n hkey (by simp [Text.eqIgnoreAsciiCase])
  · exact h.2 o ho (by simp [hkind, Text.eqIgnoreAsciiCase])

section Tidy

variable {e : Engine} {db db' : Database}

/-- Without a table that is not there, nothing belongs to it. -/
theorem Database.Tidy.tableIndexes_eq_nil (h : db.Tidy e) {n : String}
    (hfree : db.nameTaken n = false) : tableIndexes db n = [] := by
  rw [tableIndexes, List.filter_eq_nil_iff.mpr]
  · rfl
  · intro o ho hindex
    rw [Bool.and_eq_true, decide_eq_true_iff, decide_eq_true_iff] at hindex
    have howned := h.owned o ho (by simp [hindex.1])
    rw [hindex.2] at howned
    exact Database.not_owns_of_nameTaken hfree howned

/-- Other tables do not matter, as long as none is lost. -/
theorem Database.Tidy.of_tables (h : db.Tidy e) (hobjects : db'.objects = db.objects)
    (hkeys : ∀ n ∈ db.tables.keys, n ∈ db'.tables.keys) : db'.Tidy e := by
  refine ⟨hobjects ▸ h.names, fun o ho hkind => ?_, hobjects ▸ h.declared⟩
  rw [hobjects] at ho
  obtain hkey | hview := h.owned o ho hkind
  · exact Or.inl (hkeys _ hkey)
  · rw [← hobjects] at hview
    exact Or.inr hview

theorem Database.mem_keys_setTable {n m : String} {t : SqliteTable} :
    m ∈ (db.setTable n t).tables.keys ↔ m = n ∨ m ∈ db.tables.keys := by
  rw [SortedMap.mem_keys_iff, SortedMap.mem_keys_iff, Database.setTable_tables]
  by_cases hm : m = n
  · subst hm
    simp
  · simp [SortedMap.get?_insert_of_ne _ _ hm, hm]

theorem Database.Tidy.setTable (h : db.Tidy e) (n : String) (t : SqliteTable) :
    (db.setTable n t).Tidy e :=
  h.of_tables rfl fun _ hm => mem_keys_setTable.mpr (Or.inr hm)

/-- A new index or trigger of a table that is there. -/
theorem Database.Tidy.append (h : db.Tidy e) {o : SchemaObject}
    (hfree : o.kind = .index → db.nameTaken o.name = false) (howner : o.tblName ∈ db.tables.keys)
    (hdeclared : o.Foreign → ∀ sql, o.sql = some sql → e.declared sql = some o) :
    Database.Tidy e { db with objects := db.objects ++ [o] } := by
  have hnew : ∀ o' ∈ db.objects, o.kind = .index → o'.kind = .index → o.name ≠ o'.name := by
    intro o' ho' hkind hkind' hname
    have hfree := hfree hkind
    rw [nameTaken, Bool.or_eq_false_iff, List.any_eq_false, List.any_eq_false] at hfree
    exact hfree.2 o' ho' (by simp [hkind', hname, Text.eqIgnoreAsciiCase])
  refine ⟨fun a ha b hb hka hkb hname => ?_, fun a ha hka => ?_, fun a ha => ?_⟩
  · obtain hold | hlast := List.mem_append.mp ha <;>
      obtain hold' | hlast' := List.mem_append.mp hb
    · exact h.names a hold b hold' hka hkb hname
    · obtain rfl := List.mem_singleton.mp hlast'
      exact absurd hname.symm (hnew a hold hkb hka)
    · obtain rfl := List.mem_singleton.mp hlast
      exact absurd hname (hnew b hold' hka hkb)
    · rw [List.mem_singleton.mp hlast, List.mem_singleton.mp hlast']
  · obtain ha | ha := List.mem_append.mp ha
    · obtain hkey | ⟨v, hv, hview, hname⟩ := h.owned a ha hka
      · exact Or.inl hkey
      · exact Or.inr ⟨v, List.mem_append_left _ hv, hview, hname⟩
    · obtain rfl := List.mem_singleton.mp ha
      exact Or.inl howner
  · obtain ha | ha := List.mem_append.mp ha
    · exact h.declared a ha
    · obtain rfl := List.mem_singleton.mp ha
      exact hdeclared

/-- Without some of the indexes and triggers. -/
theorem Database.Tidy.filter (h : db.Tidy e) {p : SchemaObject → Bool}
    (hviews : ∀ o ∈ db.objects, o.kind = .view → p o = true)
    (hobjects : db'.objects = db.objects.filter p)
    (hkeys : ∀ o ∈ db.objects, o.kind ≠ .view → p o = true → o.tblName ∈ db.tables.keys →
      o.tblName ∈ db'.tables.keys) : db'.Tidy e := by
  have hmem : ∀ o ∈ db'.objects, o ∈ db.objects ∧ p o = true := by
    intro o ho
    rw [hobjects] at ho
    exact List.mem_filter.mp ho
  refine ⟨fun a ha b hb => h.names a (hmem a ha).1 b (hmem b hb).1, fun o ho hkind => ?_,
    fun o ho => h.declared o (hmem o ho).1⟩
  obtain ⟨hold, hp⟩ := hmem o ho
  obtain hkey | ⟨v, hv, hview, hname⟩ := h.owned o hold hkind
  · exact Or.inl (hkeys o hold hkind hp hkey)
  · refine Or.inr ⟨v, ?_, hview, hname⟩
    rw [hobjects]
    exact List.mem_filter.mpr ⟨hv, hviews v hv hview⟩

/-- Without a table. -/
theorem Database.Tidy.remove (h : db.Tidy e) {n : String}
    (hobjects : db'.objects = db.objects.filter (fun o => o.kind = .view || o.tblName ≠ n))
    (hkeys : ∀ m ∈ db.tables.keys, m ≠ n → m ∈ db'.tables.keys) : db'.Tidy e := by
  refine h.filter (fun o _ hview => by simp [hview]) hobjects fun o _ hkind hkept hkey => ?_
  exact hkeys _ hkey (by simpa [hkind] using hkept)

/-! ### Statements -/

theorem mem_keys_of_createIndex {n : String} {i : IndexDef}
    (h : e.exec db (.createIndex n i) = .ok db') : n ∈ db.tables.keys := by
  rw [Engine.exec] at h
  split at h
  · cases h
  · rename_i t ht
    exact SortedMap.mem_keys_iff.mpr ⟨t, ht⟩

theorem mem_keys_of_replay {sql : String} {o : SchemaObject} (ho : e.declared sql = some o)
    (h : e.exec db (.replay sql) = .ok db') : o.tblName ∈ db.tables.keys := by
  rw [Engine.exec, ho] at h
  dsimp only at h
  split at h
  · cases h
  · rename_i t ht
    exact SortedMap.mem_keys_iff.mpr ⟨t, ht⟩

/-- An index with a managed name is not foreign. -/
theorem not_foreign_declaredObject {i : IndexDef} (h : isManagedIndexName i.name = true)
    (n : String) : ¬ (i.declaredObject n).Foreign := by
  intro hforeign
  have hname : isManagedIndexName i.name = false := hforeign rfl
  rw [hname] at h
  cases h

theorem Database.Tidy.createIndex (h : db.Tidy e) {n : String} {i : IndexDef}
    (hmanaged : isManagedIndexName i.name = true)
    (hexec : e.exec db (.createIndex n i) = .ok db') : db'.Tidy e := by
  have howner := mem_keys_of_createIndex hexec
  obtain ⟨hfree, rfl⟩ := exec_createIndex hexec
  exact h.append (fun _ => hfree) howner
    fun hforeign => absurd hforeign (not_foreign_declaredObject hmanaged n)

/-- **Creating managed indexes** adds them to their table's. -/
theorem Database.Tidy.createIndexes (h : db.Tidy e) {n : String} {indexes : List IndexDef}
    (hmanaged : Managed indexes)
    (hexec : e.execAll db (indexes.map (.createIndex n)) = .ok db') :
    db'.Tidy e ∧ ∀ m, tableIndexes db' m
      = if n = m then tableIndexes db m ++ indexes else tableIndexes db m := by
  constructor
  · induction indexes generalizing db with
    | nil =>
      obtain rfl : db = db' := Except.ok.inj hexec
      exact h
    | cons i rest ih =>
      obtain ⟨mid, hmid, hexec⟩ := execAll_cons hexec
      exact ih (h.createIndex (hmanaged i List.mem_cons_self) hmid)
        (fun j hj => hmanaged j (List.mem_cons_of_mem _ hj)) hexec
  · intro m
    rw [tableIndexes_eq, tableIndexes_eq, objects_createIndexes hexec, indexesIn_append,
      indexesIn_declared hmanaged]
    split_ifs
    · rfl
    · exact List.append_nil _

/-- **A text that can be run again**: it declares something that seekwel did
not make. -/
def Replayable (e : Engine) (sql : String) : Prop :=
  ∃ o, e.declared sql = some o ∧ o.Foreign ∧ o.sql = some sql

/-- **Running texts again** does not touch the managed indexes. -/
theorem Database.Tidy.replays (h : db.Tidy e) {replays : List ReplaySql}
    (hreplayable : ∀ r ∈ replays, Replayable e r.sql)
    (hexec : e.execAll db (replays.map (fun replay => .replay replay.sql)) = .ok db') :
    db'.Tidy e ∧ ∀ m, tableIndexes db' m = tableIndexes db m := by
  constructor
  · induction replays generalizing db with
    | nil =>
      obtain rfl : db = db' := Except.ok.inj hexec
      exact h
    | cons r rest ih =>
      obtain ⟨mid, hmid, hexec⟩ := execAll_cons hexec
      obtain ⟨o, ho, -, hsql⟩ := hreplayable r List.mem_cons_self
      have howner := mem_keys_of_replay ho hmid
      obtain ⟨o', ho', hfree, rfl⟩ := exec_replay hmid
      obtain rfl : o = o' := Option.some.inj (ho.symm.trans ho')
      refine ih (h.append (fun hkind => hfree (by simp [hkind])) howner fun _ sql hsql' => ?_)
        (fun r' hr' => hreplayable r' (List.mem_cons_of_mem _ hr')) hexec
      rw [← Option.some.inj (hsql.symm.trans hsql')]
      exact ho
  · intro m
    have hforeign : ∀ o ∈ replays.filterMap (fun replay => e.declared replay.sql), o.Foreign := by
      intro o ho
      obtain ⟨r, hr, hdeclared⟩ := List.mem_filterMap.mp ho
      obtain ⟨o', ho', hforeign, -⟩ := hreplayable r hr
      rwa [Option.some.inj (hdeclared.symm.trans ho')]
    rw [tableIndexes_eq, tableIndexes_eq, objects_replays hexec, indexesIn_append,
      indexesIn_foreign hforeign, List.append_nil]

/-- What introspection finds to run again can be run again. -/
theorem Database.Tidy.replayable (h : db.Tidy e) {n : String} {r : ReplaySql}
    (hr : r ∈ replayableObjects db n) : Replayable e r.sql := by
  obtain ⟨o, ho, hreplay⟩ := List.mem_filterMap.mp hr
  have hmem := (List.mem_filter.mp ho).1
  split at hreplay
  · rename_i sql hkind hsql
    split_ifs at hreplay with hmanaged
    cases hreplay
    have hforeign : o.Foreign := fun _ => Bool.not_eq_true _ ▸ hmanaged
    exact ⟨o, h.declared o hmem hforeign sql hsql, hforeign, hsql⟩
  · rename_i sql hkind hsql
    cases hreplay
    have hforeign : o.Foreign := fun hindex => by rw [hindex] at hkind; cases hkind
    exact ⟨o, h.declared o hmem hforeign sql hsql, hforeign, hsql⟩
  · cases hreplay

/-- **A rebuild replaces the managed indexes** of its table. -/
theorem Database.Tidy.rebuildTable (h : db.Tidy e) {n : String} {fromDef toDef : TableDef}
    {a : ActualTable} (hmanaged : Managed toDef.indexes)
    (hreplayable : ∀ r ∈ a.replaySql, Replayable e r.sql)
    (hexec : e.execAll db (Seekwel.rebuildTable n fromDef toDef a) = .ok db') :
    db'.Tidy e ∧ ∀ m, tableIndexes db' m
      = if n = m then toDef.indexes else tableIndexes db m := by
  obtain ⟨u, v, replaced, indexed, hfree, -, -, htables, hobjects, hindexes, hreplays⟩ :=
    rebuildTable_cases hexec
  -- nothing belongs to the temporary name, so nothing is renamed
  have hkept : replaced.objects = db.objects.filter (fun o => o.kind = .view || o.tblName ≠ n) := by
    rw [hobjects]
    refine (List.map_congr_left fun o ho => ?_).trans (List.map_id _)
    rw [if_neg]
    · rfl
    · rintro ⟨hkind, htemporary⟩
      have howned := h.owned o (List.mem_filter.mp ho).1 hkind
      rw [htemporary] at howned
      exact Database.not_owns_of_nameTaken hfree howned
  have hreplaced : replaced.Tidy e := by
    refine h.remove hkept fun m hm hne => ?_
    obtain ⟨t, ht⟩ := SortedMap.mem_keys_iff.mp hm
    rw [htables, SortedMap.mem_keys_iff]
    exact ⟨t, (SortedMap.get?_insert_of_ne _ _ hne).trans ht⟩
  obtain ⟨hindexed, hcreated⟩ := hreplaced.createIndexes hmanaged hindexes
  obtain ⟨htidy, hreplayed⟩ := hindexed.replays hreplayable hreplays
  refine ⟨htidy, fun m => ?_⟩
  rw [hreplayed, hcreated, tableIndexes_eq replaced, hkept, indexesIn_removed]
  split_ifs
  · rfl
  · rfl

end Tidy

/-! ## Operations -/

/-- What an operation makes of the managed indexes of its table. -/
def PlanOp.actIndexes : PlanOp → List IndexDef → List IndexDef
  | .createTable table, _ => table.indexes
  | .addColumn _ _, indexes => indexes
  | .createIndex _ index, indexes => indexes ++ [index]
  | .dropIndex _ index, indexes => indexes.filter (fun i => i.name ≠ index.name)
  | .rebuildTable _ _ toDef _, _ => toDef.indexes
  | .dropTable _, _ => []

/-- **An operation that does what it says** on a database. -/
def PlanOp.Fits (e : Engine) (actual : LiveSchema) (db : Database) : PlanOp → Prop
  | .createTable table => table.WellFormed ∧ Managed table.indexes
  | .addColumn n column => ∀ t ∈ db.managed n, column.name ≠ t.primaryKey.name
  | .createIndex _ index => isManagedIndexName index.name = true
  | .dropIndex n index =>
    ∀ o ∈ db.objects, o.kind = .index → o.name = index.name → o.tblName = n
  | .rebuildTable n _ toDef _ =>
    (toDef.name = n ∧ toDef.WellFormed ∧ Managed toDef.indexes) ∧ (db.managed n).isSome
      ∧ ∀ a ∈ actual.get? n, ∀ r ∈ a.replaySql, Replayable e r.sql
  | .dropTable _ => True

section Op

variable {e : Engine} {actual : LiveSchema} {db db' : Database} {op : PlanOp}

/-- **The managed indexes after an operation.** -/
theorem tidy_op (hdb : db.Tidy e) (hfits : op.Fits e actual db)
    (h : e.execSteps db (op.steps actual) = .ok db') :
    db'.Tidy e ∧ ∀ m, tableIndexes db' m
      = if op.tableName = m then op.actIndexes (tableIndexes db m) else tableIndexes db m := by
  have hsame : ∀ {m : String}, (if op.tableName = m then tableIndexes db m
      else tableIndexes db m) = tableIndexes db m := ite_self _
  cases op with
  | createTable table =>
    obtain ⟨mid, hcreate, h⟩ := execAll_cons (execSteps_map_run h)
    obtain ⟨hfree, rfl⟩ := exec_createTable hcreate
    obtain ⟨htidy, hindexes⟩ := (hdb.setTable _ _).createIndexes hfits.2 h
    refine ⟨htidy, fun m => (hindexes m).trans (ite_congr rfl (fun hm => ?_) fun _ => rfl)⟩
    show tableIndexes db m ++ table.indexes = table.indexes
    obtain rfl : table.name = m := hm
    rw [hdb.tableIndexes_eq_nil hfree, List.nil_append]
  | addColumn n column =>
    obtain ⟨mid, hadd, hnil⟩ := execSteps_run h
    obtain rfl : mid = db' := Except.ok.inj hnil
    obtain ⟨t, -, -, rfl⟩ := exec_addColumn hadd
    exact ⟨hdb.setTable _ _, fun m => hsame.symm⟩
  | createIndex n index =>
    obtain ⟨mid, hcreate, hnil⟩ := execSteps_run h
    obtain rfl : mid = db' := Except.ok.inj hnil
    have hone : e.execAll db ([index].map (.createIndex n)) = .ok mid := by
      rw [List.map_singleton, Engine.execAll, hcreate]
      rfl
    exact hdb.createIndexes (List.forall_mem_singleton.mpr hfits) hone
  | dropIndex n index =>
    obtain ⟨mid, hdrop, hnil⟩ := execSteps_run h
    obtain rfl : mid = db' := Except.ok.inj hnil
    obtain rfl := exec_dropIndex hdrop
    refine ⟨hdb.filter (fun o _ hview => by simp [hview]) rfl fun _ _ _ _ hkey => hkey,
      fun m => indexesIn_dropped hfits m⟩
  | rebuildTable n fromDef toDef reasons =>
    unfold PlanOp.steps at h
    dsimp only at h
    split at h
    · cases h
    · rename_i a ha
      exact hdb.rebuildTable hfits.1.2.2 (hfits.2.2 a ha) (execSteps_map_run h)
  | dropTable table =>
    obtain ⟨mid, hdrop, hnil⟩ := execSteps_run h
    obtain rfl : mid = db' := Except.ok.inj hnil
    obtain rfl := exec_dropTable hdrop
    refine ⟨hdb.remove (n := table.name) rfl fun m hm hne => ?_,
      fun m => indexesIn_removed db.objects table.name m⟩
    obtain ⟨t, ht⟩ := SortedMap.mem_keys_iff.mp hm
    exact SortedMap.mem_keys_iff.mpr ⟨t, (SortedMap.get?_erase_of_ne _ hne).trans ht⟩

/-- **Executing an operation means what the operation means**: what is read
of its table changes as `PlanOp.act` says, and no other table. -/
theorem managed_op (hdb : db.Tidy e) (hfits : op.Fits e actual db)
    (h : e.execSteps db (op.steps actual) = .ok db') (n : String) :
    db'.managed n = if op.tableName = n then op.act (db.managed n) else db.managed n := by
  obtain ⟨-, hindexes⟩ := tidy_op hdb hfits h
  obtain ⟨hchanges, hframe⟩ := execSteps_op h
  split_ifs with hn
  · subst hn
    have hindexes : tableIndexes db' op.tableName = op.actIndexes (tableIndexes db op.tableName) :=
      (hindexes op.tableName).trans (if_pos rfl)
    cases op with
    | createTable table =>
      obtain ⟨-, ht'⟩ := hchanges
      rw [Database.managed, ht', hindexes]
      exact congrArg some (managed_of_columns hfits.1 rfl)
    | addColumn n column =>
      obtain ⟨u, hu, -, ht'⟩ := hchanges
      rw [Database.managed, Database.managed, ht', hu, hindexes]
      cases hsql : u.sql with
      | none => simp [Engine.addedColumn, hsql, PlanOp.act]
      | some sql =>
        have hmanaged : db.managed n = some (u.managed n (tableIndexes db n)) := by
          show (db.tables.get? (PlanOp.addColumn n column).tableName).bind _ = _
          rw [hu, Option.bind_some, hsql]
          rfl
        have hfresh : column.name ≠ primaryKeyName u.columns := hfits _ hmanaged
        have hkey : primaryKeyColumn (u.columns ++ [column.declaredRow])
            = primaryKeyColumn u.columns := primaryKeyColumn_append _ _
        simp only [Engine.addedColumn, hsql, Option.bind_some, Option.map_some, PlanOp.act,
          SqliteTable.managed, managedColumns_append hfresh, primaryKeyName, primaryKeySqlType, hkey]
        rfl
    | createIndex n index =>
      exact Database.managed_indexes hchanges (f := fun l => l ++ [index]) hindexes
    | dropIndex n index =>
      exact Database.managed_indexes hchanges
        (f := fun l => l.filter (fun i => i.name ≠ index.name)) hindexes
    | rebuildTable n fromDef toDef reasons =>
      obtain ⟨u, v, hu, hins, ht'⟩ := hchanges
      obtain ⟨rows, rfl⟩ := insertRows_eq_ok hins
      obtain ⟨⟨rfl, hwf, -⟩, hsome, -⟩ := hfits
      obtain ⟨t, ht⟩ := Option.isSome_iff_exists.mp hsome
      rw [PlanOp.tableName] at ht' hindexes ⊢
      rw [ht, Database.managed, ht', hindexes]
      exact congrArg some (managed_of_columns hwf rfl)
    | dropTable table =>
      exact Database.managed_eq_none hchanges
  · rw [Database.managed, Database.managed, hframe n (Ne.symm hn), hindexes, if_neg hn]

/-! ### A run of operations -/

/-- **Two operations in an order that a plan may have**: an index is dropped
before anything else happens, and an operation on a whole table is the only
one about it. -/
def PlanOp.Before (op op' : PlanOp) : Prop :=
  (op'.dropped ≠ none → op.dropped ≠ none)
    ∧ (op.IsWhole ∨ op'.IsWhole → op.tableName ≠ op'.tableName)

/-- An operation in place keeps the primary key. -/
theorem primaryKey_act (hop : ¬ op.IsWhole) {t : Option TableDef} {u : TableDef}
    (h : op.act t = some u) : ∃ v ∈ t, u.primaryKey = v.primaryKey := by
  cases op with
  | createTable table => exact absurd trivial hop
  | rebuildTable n fromDef toDef reasons => exact absurd trivial hop
  | dropTable table => exact absurd trivial hop
  | addColumn n column | createIndex n index | dropIndex n index =>
    obtain ⟨v, hv, rfl⟩ := Option.map_eq_some_iff.mp h
    exact ⟨v, hv, rfl⟩

/-- **What fits still does after an operation before it.** -/
theorem fits_op {op' : PlanOp} (hdb : db.Tidy e) (hfits : op.Fits e actual db)
    (hfits' : op'.Fits e actual db) (hbefore : op.Before op')
    (h : e.execSteps db (op.steps actual) = .ok db') : op'.Fits e actual db' := by
  have hmanaged := managed_op hdb hfits h
  cases op' with
  | createTable table => exact hfits'
  | createIndex n index => exact hfits'
  | dropTable table => exact hfits'
  | addColumn n column =>
    intro u hu
    rw [hmanaged] at hu
    split_ifs at hu with hn
    · obtain ⟨v, hv, hkey⟩ := primaryKey_act (fun hwhole => hbefore.2 (Or.inl hwhole) hn) hu
      rw [hkey]
      exact hfits' v hv
    · exact hfits' u hu
  | dropIndex n index =>
    -- so far indexes have been dropped only
    have hdropped : op.dropped ≠ none := hbefore.1 (Option.some_ne_none index)
    cases op with
    | dropIndex m other =>
      obtain ⟨mid, hdrop, hnil⟩ := execSteps_run h
      obtain rfl : mid = db' := Except.ok.inj hnil
      obtain rfl := exec_dropIndex hdrop
      exact fun o ho => hfits' o (List.mem_filter.mp ho).1
    | _ => exact absurd rfl hdropped
  | rebuildTable n fromDef toDef reasons =>
    refine ⟨hfits'.1, ?_, hfits'.2.2⟩
    have hn : op.tableName ≠ n := hbefore.2 (Or.inr trivial)
    rw [hmanaged, if_neg hn]
    exact hfits'.2.1

/-- **A run of operations means what the operations mean**, for each table
those about it. -/
theorem managed_ops {ops : List PlanOp} (hdb : db.Tidy e)
    (hfits : ∀ op ∈ ops, op.Fits e actual db) (hbefore : ops.Pairwise PlanOp.Before)
    (h : e.execSteps db (ops.flatMap (PlanOp.steps actual)) = .ok db') :
    db'.Tidy e ∧ ∀ n, db'.managed n
      = (ops.filter (fun op => op.tableName = n)).foldl (fun t op => op.act t)
          (db.managed n) := by
  induction ops generalizing db with
  | nil =>
    obtain rfl : db = db' := Except.ok.inj h
    exact ⟨hdb, fun _ => rfl⟩
  | cons op ops ih =>
    rw [List.flatMap_cons] at h
    obtain ⟨mid, hop, h⟩ := execSteps_append h
    rw [List.pairwise_cons] at hbefore
    have hfirst := hfits op List.mem_cons_self
    obtain ⟨htidy, hmanaged⟩ := ih (tidy_op hdb hfirst hop).1
      (fun op' hop' => fits_op hdb hfirst (hfits op' (List.mem_cons_of_mem _ hop'))
        (hbefore.1 op' hop') hop) hbefore.2 h
    refine ⟨htidy, fun n => ?_⟩
    rw [hmanaged, managed_op hdb hfirst hop]
    by_cases hn : op.tableName = n
    · rw [if_pos hn, List.filter_cons_of_pos (by simpa using hn), List.foldl_cons]
    · rw [if_neg hn, List.filter_cons_of_neg (by simpa using hn)]

end Op

/-! ## Plans -/

/-- In a list in which each element of a kind is the only one with its key,
it comes before elements with other keys, and after them. -/
theorem pairwise_of_alone {α κ : Type} [DecidableEq κ] {key : α → κ} {p : α → Prop} {l : List α}
    (h : ∀ a ∈ l, p a → l.filter (fun b => key b = key a) = [a]) :
    l.Pairwise (fun a b => p a ∨ p b → key a ≠ key b) := by
  induction l with
  | nil => exact List.Pairwise.nil
  | cons a l ih =>
    have hother : ∀ b ∈ l, p a ∨ p b → key a ≠ key b := by
      rintro b hb hp hkey
      have hfilter : (a :: l).filter (fun c => key c = key a)
          = a :: l.filter (fun c => key c = key a) := List.filter_cons_of_pos (by simp)
      have hmem : b ∈ l.filter (fun c => key c = key a) :=
        List.mem_filter.mpr ⟨hb, by simp [hkey]⟩
      obtain hp | hp := hp
      · have halone := h a List.mem_cons_self hp
        rw [hfilter, List.cons.injEq] at halone
        rw [halone.2] at hmem
        exact List.not_mem_nil hmem
      · have halone := h b (List.mem_cons_of_mem _ hb) hp
        rw [← hkey, hfilter, List.cons.injEq] at halone
        rw [halone.2] at hmem
        exact List.not_mem_nil hmem
    refine List.pairwise_cons.mpr ⟨hother, ih fun b hb hp => ?_⟩
    have halone := h b (List.mem_cons_of_mem _ hb) hp
    rwa [List.filter_cons_of_neg (by simpa using hother b hb (Or.inr hp))] at halone

section Plan

variable {e : Engine} {target : SchemaDef} {actual : LiveSchema} {r : DiffResult}
  {db db' : Database}

/-- In key order, only indexes are dropped before one is. -/
theorem dropped_of_before_dropped {op op' : PlanOp}
    (h : planOpSortKey op ≤ planOpSortKey op') (hd : op'.dropped ≠ none) : op.dropped ≠ none := by
  cases op' with
  | dropIndex m j =>
    obtain ⟨s, hs⟩ := planOpSortKey_eq op
    rw [hs] at h
    have hphase : op.phase ≤ 0 := Prod.Lex.monotone_fst _ _ h
    cases op with
    | dropIndex n i => exact Option.some_ne_none i
    | _ => exact absurd hphase (Nat.not_succ_le_zero _)
  | _ => exact absurd rfl hd

/-- **The operations of a comparison are in order.** -/
theorem before_of_diff (ht : target.WellFormed) (hk : actual.Keyed)
    (h : diff target actual = .ok r) : r.ops.Pairwise PlanOp.Before :=
  ((diff_ops_sorted h).imp dropped_of_before_dropped).and
    (pairwise_of_alone fun _ hop hwhole => diff_ops_whole ht hk h hop hwhole)

/-- A managed index is found among the objects. -/
theorem exists_object_of_mem_managed {n : String} {t : TableDef} (h : db.managed n = some t)
    {i : IndexDef} (hi : i ∈ t.indexes) :
    ∃ o ∈ db.objects, o.kind = .index ∧ o.tblName = n ∧ o.name = i.name := by
  obtain ⟨u, -, h⟩ := Option.bind_eq_some_iff.mp h
  obtain ⟨sql, -, rfl⟩ := Option.map_eq_some_iff.mp h
  obtain ⟨o, ho, hmanaged⟩ := List.mem_filterMap.mp hi
  obtain ⟨hmem, hindex⟩ := List.mem_filter.mp ho
  rw [Bool.and_eq_true, decide_eq_true_iff, decide_eq_true_iff] at hindex
  exact ⟨o, hmem, hindex.1, hindex.2, (managedIndex_name hmanaged).symm⟩

/-- A table that was found, and what is read of it. -/
theorem managed_of_get? {scope : List String} {n : String} {a : ActualTable}
    (h : (introspectManaged db scope).get? n = some a) : db.managed n = some a.table := by
  have hmap := map_get?_introspectManaged db scope n
  rw [h, if_pos (get?_introspectManaged_eq_some h).1] at hmap
  exact hmap.symm

/-- **A target whose indexes are seekwel's.** -/
def SchemaDef.Managed (target : SchemaDef) : Prop := ∀ t ∈ target.tables, Seekwel.Managed t.indexes

/-- **The operations of a comparison fit the database compared.** -/
theorem fits_of_diff (ht : target.WellFormed) (hmanaged : target.Managed) (hdb : db.Tidy e)
    {scope : List String} (h : diff target (introspectManaged db scope) = .ok r) {op : PlanOp}
    (hop : op ∈ r.ops) : op.Fits e (introspectManaged db scope) db := by
  cases (mem_diff_ops_iff_asked ht (introspectManaged_keyed _ _) h).mp hop with
  | @createTable t htmem _ => exact ⟨ht.tables t htmem, hmanaged t htmem⟩
  | @addColumn t a c htmem ha hin hc =>
    intro u hu
    obtain rfl : u = a.table := Option.some.inj (hu.symm.trans (managed_of_get? ha))
    rw [← hin.primaryKey]
    have hwf := ht.tables t htmem
    exact hwf.pk_not_mem c ((mem_addColumns hwf (actual_wellFormed h ha)).mp hc).1
  | @createIndex t a i htmem _ _ hi _ => exact hmanaged t htmem i hi
  | @dropIndex t a i htmem ha _ hi _ =>
    intro o ho hkind hname
    obtain ⟨o', ho', hkind', howner, hname'⟩ :=
      exists_object_of_mem_managed (managed_of_get? ha) hi
    exact (hdb.names o ho o' ho' hkind hkind' (hname.trans hname'.symm)).trans howner
  | @rebuildTable t a htmem ha _ =>
    refine ⟨⟨rfl, ht.tables t htmem, hmanaged t htmem⟩, ?_, fun a' ha' rp hrp => ?_⟩
    · rw [managed_of_get? ha]
      rfl
    · obtain ⟨-, -, sql, -, -, rfl⟩ := get?_introspectManaged_eq_some ha'
      exact hdb.replayable hrp
  | dropTable _ _ => trivial

/-! ### A committed plan -/

theorem Database.managed_setTable {n m : String} (t : SqliteTable) (h : n ≠ m) :
    (db.setTable m t).managed n = db.managed n := by
  rw [managed, Database.setTable_tables, SortedMap.get?_insert_of_ne _ _ h]
  rfl

theorem Database.Tidy.ensureHistoryTable (hdb : db.Tidy e)
    (h : e.exec db .ensureHistoryTable = .ok db') :
    db'.Tidy e ∧ db'.objects = db.objects
      ∧ ∀ n, n ≠ historyTable → db'.managed n = db.managed n := by
  obtain rfl | ⟨-, rfl⟩ := exec_ensureHistoryTable h
  · exact ⟨hdb, rfl, fun _ _ => rfl⟩
  · exact ⟨hdb.setTable _ _, rfl, fun _ hn => managed_setTable _ hn⟩

theorem Database.Tidy.recordSuccess {planId sourceFingerprint targetFingerprint : String}
    (hdb : db.Tidy e)
    (h : e.execAll db (recordSuccess planId sourceFingerprint targetFingerprint target)
      = .ok db') : db'.Tidy e ∧ ∀ n, n ≠ historyTable → db'.managed n = db.managed n := by
  obtain ⟨mid, hensure, hrest⟩ := execAll_cons h
  obtain ⟨last, hinsert, hnil⟩ := execAll_cons hrest
  obtain rfl : last = db' := Except.ok.inj hnil
  obtain ⟨t, t', -, -, rfl⟩ := exec_insertHistory hinsert
  obtain ⟨hmid, -, hsame⟩ := hdb.ensureHistoryTable hensure
  exact ⟨hmid.setTable _ _, fun n hn => (managed_setTable _ hn).trans (hsame n hn)⟩

variable {faults : Faults} {active : Bool} {plan : Plan} {mode : ApplyMode}

/-- **After a committed plan introspection finds the result of its
operations.** -/
theorem commits_isResult (hc : Commits e faults active plan mode db db')
    (ht : plan.target.WellFormed) (hmanaged : plan.target.Managed) (hdb : db.Tidy e)
    (hhistory : historyTable ∉ planScope plan) :
    db'.Tidy e ∧ LiveSchema.IsResult (introspectManaged db' (planScope plan))
      (introspectManaged db (planScope plan)) plan.ops := by
  obtain ⟨ready, ran, hready, hran, hrecord⟩ := commits_applied hc
  obtain ⟨r, hdiff, hops, -⟩ := commits_diff hc
  have hscope : ∀ op ∈ r.ops, op.tableName ∈ planScope plan :=
    fun op hop => op_mem_planScope ht hdiff hop
  have hne : ∀ n ∈ planScope plan, n ≠ historyTable := by
    rintro n hn rfl
    exact hhistory hn
  obtain ⟨hreadyTidy, hobjects, hsame⟩ := hdb.ensureHistoryTable hready
  rw [← hops] at hran ⊢
  have hfits : ∀ op ∈ r.ops, op.Fits e (introspectManaged db (planScope plan)) ready := by
    intro op hop
    have hfits := fits_of_diff ht hmanaged hdb hdiff hop
    have hread := hsame op.tableName (hne _ (hscope op hop))
    cases op with
    | createTable table => exact hfits
    | createIndex n index => exact hfits
    | dropTable table => exact hfits
    | addColumn n column => exact fun t ht => hfits t (hread ▸ ht)
    | dropIndex n index => exact fun o ho => hfits o (hobjects ▸ ho)
    | rebuildTable n fromDef toDef reasons => exact ⟨hfits.1, hread ▸ hfits.2.1, hfits.2.2⟩
  obtain ⟨hranTidy, hmeans⟩ := managed_ops hreadyTidy hfits
    (before_of_diff ht (introspectManaged_keyed _ _) hdiff) hran
  obtain ⟨htidy, hrecorded⟩ := hranTidy.recordSuccess hrecord
  refine ⟨htidy, SortedMap.ext_get? fun n => ?_⟩
  rw [get?_runOps, SortedMap.get?_mapVal, SortedMap.get?_mapVal, map_get?_introspectManaged,
    map_get?_introspectManaged]
  split_ifs with hn
  · rw [hrecorded n (hne n hn), hmeans n, hsame n (hne n hn)]
  · rw [List.filter_eq_nil_iff.mpr]
    · rfl
    · intro op hop hname
      exact hn (decide_eq_true_iff.mp hname ▸ hscope op hop)

end Plan

end Seekwel
