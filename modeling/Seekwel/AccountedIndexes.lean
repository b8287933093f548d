import Seekwel.RuleLoss

/-!
# Indexes that are accounted for

Introspection takes an index of a table for one that seekwel manages, or
keeps its text, to run it again when the table is rebuilt. Two functions
decide this, each on its own. An index with a managed name is not run again,
and it is not taken for a managed one either if it is partial or has not
exactly one column; and if the others of its keys are expressions, it is
taken for an index on that column.

So an index is accounted for exactly if its name is not managed, or it is
what seekwel makes of such a name: a plain index on one column
(`accounted_iff`).
-/

namespace Seekwel

/-! ## What introspection says of an index -/

/-- An index on one plain column, of all rows. -/
def SchemaObject.IsPlain (o : SchemaObject) : Prop :=
  o.isPartial = false ∧ ∃ column, o.keyColumns = [some column]

/-- **An index is declared**: as the plain index on one column that it is. -/
def ActualTable.Declares (a : ActualTable) (o : SchemaObject) : Prop :=
  o.isPartial = false
    ∧ ∃ column, o.keyColumns = [some column] ∧ ⟨o.name, column, o.unique⟩ ∈ a.table.indexes

/-- **An index is run again**, from its text. -/
def ActualTable.Replays (a : ActualTable) (o : SchemaObject) : Prop :=
  ∃ sql, o.sql = some sql ∧ ⟨sql⟩ ∈ a.replaySql

/-- **An index is accounted for** in exactly one way. -/
def ActualTable.AccountsFor (a : ActualTable) (o : SchemaObject) : Prop :=
  Xor (a.Declares o) (a.Replays o)

/-! ## The two lists -/

section Lists

variable {db : Database} {n sql : String} {o : SchemaObject}

theorem mem_indexesOf : o ∈ db.indexesOf n ↔ o ∈ db.objects ∧ o.kind = .index ∧ o.tblName = n := by
  simp [Database.indexesOf]

theorem managedIndex_eq_some {i : IndexDef} (h : managedIndex o = some i) :
    isManagedIndexName o.name = true ∧ o.isPartial = false ∧ indexColumns o = [i.column]
      ∧ i.name = o.name ∧ i.unique = o.unique := by
  unfold managedIndex at h
  split_ifs at h with hskipped
  rw [Bool.or_eq_true, not_or, Bool.not_eq_true', Bool.not_eq_false, Bool.not_eq_true] at hskipped
  split at h
  · rename_i column hcolumn
    cases h
    exact ⟨hskipped.1, hskipped.2, hcolumn, rfl, rfl⟩
  · cases h

/-- A plain index with a managed name is taken for what it is. -/
theorem managedIndex_of_isPlain (hname : isManagedIndexName o.name = true)
    (hwhole : o.isPartial = false) {column : String} (hcolumns : o.keyColumns = [some column]) :
    managedIndex o = some ⟨o.name, column, o.unique⟩ := by
  simp [managedIndex, indexColumns, hname, hwhole, hcolumns]

/-- **The declared indexes** have managed names. -/
theorem declares_introspectTable (ho : o ∈ db.indexesOf n) :
    (introspectTable db n sql).Declares o ↔ isManagedIndexName o.name = true ∧ o.IsPlain := by
  constructor
  · rintro ⟨hwhole, column, hcolumns, hmem⟩
    obtain ⟨o', -, ho'⟩ := List.mem_filterMap.mp hmem
    obtain ⟨hmanaged, -, -, hname, -⟩ := managedIndex_eq_some ho'
    rw [← hname] at hmanaged
    exact ⟨hmanaged, hwhole, column, hcolumns⟩
  · rintro ⟨hname, hwhole, column, hcolumns⟩
    refine ⟨hwhole, column, hcolumns, ?_⟩
    exact List.mem_filterMap.mpr ⟨o, ho, managedIndex_of_isPlain hname hwhole hcolumns⟩

/-- The texts that are run again. -/
theorem mem_replayableObjects {text : String} :
    ⟨text⟩ ∈ replayableObjects db n ↔ ∃ o ∈ db.objects, o.tblName = n ∧ o.sql = some text
      ∧ (o.kind = .trigger ∨ o.kind = .index ∧ isManagedIndexName o.name = false) := by
  rw [replayableObjects, List.mem_filterMap]
  refine exists_congr fun o => ?_
  rw [List.mem_filter, decide_eq_true_iff, and_assoc]
  refine and_congr_right fun _ => and_congr_right fun _ => ?_
  cases hsql : o.sql with
  | none => cases hkind : o.kind <;> simp
  | some sql =>
    cases hkind : o.kind with
    | index => cases hname : isManagedIndexName o.name <;> simp
    | trigger => simp
    | view => simp

/-- **The indexes that are run again** have no managed names. -/
theorem replays_introspectTable (hdistinct : ∀ o' ∈ db.objects, o'.sql = o.sql → o' = o)
    (ho : o ∈ db.indexesOf n) (hsql : o.sql.isSome = true) :
    (introspectTable db n sql).Replays o ↔ isManagedIndexName o.name = false := by
  obtain ⟨hmem, hkind, htable⟩ := mem_indexesOf.mp ho
  constructor
  · rintro ⟨text, htext, hreplay⟩
    obtain ⟨o', ho', -, htext', hcase⟩ := mem_replayableObjects.mp hreplay
    obtain rfl := hdistinct o' ho' (htext'.trans htext.symm)
    obtain htrigger | ⟨-, hname⟩ := hcase
    · cases hkind.symm.trans htrigger
    · exact hname
  · intro hname
    obtain ⟨text, htext⟩ := Option.isSome_iff_exists.mp hsql
    exact ⟨text, htext, mem_replayableObjects.mpr ⟨o, hmem, htable, htext, .inr ⟨hkind, hname⟩⟩⟩

end Lists

/-! ## The indexes of a managed table -/

section Accounts

variable {db : Database} {scope : List String} {n : String} {a : ActualTable} {o : SchemaObject}

/-- **The indexes of a table after its rebuild**: those of the target, and
those that were run again. -/
theorem mem_indexesOf_rebuildTable {e : Engine} {db' : Database} {fromDef toDef : TableDef}
    (hdb : db.Named) (hdeclared : ∀ o ∈ db.objects, ∀ sql, o.sql = some sql → e.declared sql = some o)
    (h : (introspectManaged db scope).get? n = some a)
    (hrun : e.execAll db (rebuildTable n fromDef toDef a) = .ok db') :
    o ∈ db'.indexesOf n ↔ (∃ i ∈ toDef.indexes, i.declaredObject n = o)
      ∨ o ∈ db.indexesOf n ∧ a.Replays o := by
  rw [get?_introspectManaged] at h
  split_ifs at h
  obtain ⟨text, -, rfl⟩ := Option.map_eq_some_iff.mp h
  rw [indexesOf_rebuildTable hdb hdeclared hrun, List.mem_append, List.mem_map,
    Database.replayedIndexes, List.mem_filter]
  refine or_congr_right (and_congr_right fun ho => ?_)
  cases hsql : o.sql with
  | none =>
    refine iff_of_false Bool.false_ne_true ?_
    rintro ⟨sql, hsome, -⟩
    cases hsql.symm.trans hsome
  | some sql =>
    have hdistinct : ∀ o' ∈ db.objects, o'.sql = o.sql → o' = o := fun o' ho' heq =>
      Option.some.inj ((hdeclared o' ho' sql (heq.trans hsql)).symm.trans
        (hdeclared o (mem_indexesOf.mp ho).1 sql hsql))
    rw [replays_introspectTable hdistinct ho (hsql ▸ rfl)]
    simp

end Accounts

/-! ## Indexes that are lost -/

/-- A table of users, with some indexes. -/
def usersWith (indexes : List SchemaObject) : Database :=
  { Database.empty.setTable "users"
      { sql := some "CREATE TABLE users (id INTEGER PRIMARY KEY, name TEXT, email TEXT)"
        columns := [⟨"id", "INTEGER", false, none, 1, 0⟩, ⟨"name", "TEXT", false, none, 0, 0⟩,
          ⟨"email", "TEXT", false, none, 0, 0⟩]
        foreignKeys := []
        rows := [] } with
    objects := indexes }

/-- A unique index of some of the rows. -/
def partialIndex : SchemaObject where
  kind := .index
  name := "seekwel_idx_users_email"
  tblName := "users"
  sql := some "CREATE UNIQUE INDEX seekwel_idx_users_email ON users (email) WHERE name IS NOT NULL"
  unique := true
  isPartial := true
  keyColumns := [some "email"]

/-- An index on a column and an expression. -/
def expressionIndex : SchemaObject where
  kind := .index
  name := "seekwel_idx_users_name"
  tblName := "users"
  sql := some "CREATE UNIQUE INDEX seekwel_idx_users_name ON users (name, lower(email))"
  unique := true
  isPartial := false
  keyColumns := [some "name", none]

/-- The partial index under a name of its own. -/
def ownIndex : SchemaObject :=
  { partialIndex with
    name := "users_email"
    sql := some "CREATE UNIQUE INDEX users_email ON users (email) WHERE name IS NOT NULL" }

end Seekwel
