import Mathlib.Data.List.Forall2
import Seekwel.Execution

/-!
# What becomes of the rows

Operations that do not rebuild their table keep every row and every value
of it (`kept_of_inPlace`). A rebuild copies the rows into a new table, and
which values survive is decided there, by `retainedColumns`, and not by the
comparison that lists the reasons for the rebuild. `data_loss_declared` says
that the two agree: what a rebuild does not copy is listed as dropped, and
what it copies keeps its value unless a change of the type is listed.

A listed change of type does change values, since SQLite converts what is
copied into a column of another affinity (`leading_zeros_lost`).
-/

namespace Seekwel

/-! ## Contents -/

/-- The values of a table are as SQLite stores them: converted to the
affinity of their column, and integers in the alias of the row id. -/
structure SqliteTable.Stored (e : Engine) (t : SqliteTable) : Prop where
  affinity : ∀ row ∈ t.rows, ∀ c ∈ t.columns,
    e.store c.affinity (row.get c.name) = row.get c.name
  rowid : ∀ row ∈ t.rows, ∀ c ∈ t.columns, isRowid t.columns c = true →
    row.get c.name = .integer (row.getInteger c.name)

def Database.Stored (e : Engine) (db : Database) : Prop :=
  ∀ t ∈ db.tables.values, t.Stored e

/-- A column is listed as dropped. -/
def Drops (reasons : List RebuildReason) (column : String) : Prop :=
  ∃ columns, .dropColumns columns ∈ reasons ∧ column ∈ columns

/-- A change of the type of a column is listed. -/
def Retypes (reasons : List RebuildReason) (column : String) : Prop :=
  ∃ fromType toType, .changeColumnType column fromType toType ∈ reasons

/-- A change of the type of the primary key is listed. -/
def RetypesKey (reasons : List RebuildReason) : Prop :=
  ∃ fromType toType, .changePrimaryKeyType fromType toType ∈ reasons

/-- **What becomes of a row in a rebuild.** -/
structure RowCopied (e : Engine) (t : SqliteTable) (fromDef toDef : TableDef)
    (reasons : List RebuildReason) (row row' : Row) : Prop where
  /-- The primary key that was found is the one of the table. -/
  keyColumn : ∃ k ∈ t.columns, k.name = fromDef.primaryKey.name ∧ k.pk = 1
  /-- The primary key keeps its value. -/
  key : ¬ RetypesKey reasons →
    row'.get toDef.primaryKey.name = row.get fromDef.primaryKey.name
  /-- If its type changes, the value is converted. -/
  retypedKey : e.store toDef.primaryKey.affinity (row.get fromDef.primaryKey.name) ≠ .null →
    row'.get toDef.primaryKey.name
      = e.store toDef.primaryKey.affinity (row.get fromDef.primaryKey.name)
  /-- A column that is not dropped keeps its value, or has it converted if
  its type changes. -/
  column : ∀ c ∈ t.columns, c.name ≠ fromDef.primaryKey.name → ¬ Drops reasons c.name →
    ∃ d ∈ toDef.columns, d.name = c.name
      ∧ row'.get c.name = e.store d.affinity (row.get c.name)
      ∧ (¬ Retypes reasons c.name → row'.get c.name = row.get c.name)
  /-- The new table does not have the columns that are dropped. -/
  dropped : ∀ c ∈ t.columns, Drops reasons c.name → ∀ d ∈ toDef.columns, d.name ≠ c.name

/-- **What becomes of a row of a table** when operations are run. -/
structure RowKept (e : Engine) (ops : List PlanOp) (n : String) (t : SqliteTable)
    (row row' : Row) : Prop where
  rebuilt : ∀ fromDef toDef reasons, .rebuildTable n fromDef toDef reasons ∈ ops →
    RowCopied e t fromDef toDef reasons row row'
  inPlace : (∀ fromDef toDef reasons, .rebuildTable n fromDef toDef reasons ∉ ops) →
    ∀ c ∈ t.columns, row'.get c.name = row.get c.name

/-! ## Changes in place -/

section InPlace

variable {e : Engine}

/-- An operation that is not destructive keeps the rows of its table. -/
theorem kept_of_op {op : PlanOp} (hop : op.isDestructive = false) {t : SqliteTable}
    {x : Option SqliteTable} (h : op.Changes e (some t) x) :
    ∃ t' f, x = some t' ∧ (∀ c ∈ t.columns, c ∈ t'.columns) ∧ t'.rows = t.rows.map f
      ∧ ∀ row, ∀ c ∈ t.columns, Row.get (f row) c.name = row.get c.name := by
  cases op with
  | createTable table => exact absurd h.1 (Option.some_ne_none t)
  | addColumn n column =>
    obtain ⟨u, hu, hfresh, rfl⟩ := h
    obtain rfl : t = u := Option.some.inj hu
    refine ⟨_, _, rfl, fun c hc => List.mem_append_left _ hc, rfl, fun row c hc => ?_⟩
    unfold Row.get
    rw [List.find?_append]
    have hnone : List.find? (fun entry : String × Value => decide (entry.1 = c.name))
        [(column.name, e.defaultValue column.affinity column.defaultSql)] = none := by
      simpa using Ne.symm (hfresh c hc)
    rw [hnone, Option.or_none]
  | createIndex n index =>
    exact ⟨t, id, h, fun c hc => hc, (List.map_id _).symm, fun row c hc => rfl⟩
  | dropIndex n index =>
    exact ⟨t, id, h, fun c hc => hc, (List.map_id _).symm, fun row c hc => rfl⟩
  | rebuildTable n fromDef toDef reasons => cases hop
  | dropTable table => cases hop

/-- **Operations that are not destructive keep every row and every
value.** -/
theorem kept_of_inPlace {ops : List PlanOp} (hops : ∀ op ∈ ops, op.isDestructive = false)
    {t : SqliteTable} {x : Option SqliteTable} (h : ChangesAll e ops (some t) x) :
    ∃ t' f, x = some t' ∧ (∀ c ∈ t.columns, c ∈ t'.columns) ∧ t'.rows = t.rows.map f
      ∧ ∀ row, ∀ c ∈ t.columns, Row.get (f row) c.name = row.get c.name := by
  induction ops generalizing t with
  | nil => exact ⟨t, id, h, fun c hc => hc, (List.map_id _).symm, fun row c hc => rfl⟩
  | cons op ops ih =>
    obtain ⟨mid, hop, hrest⟩ := h
    obtain ⟨u, f, rfl, hcols, hrows, hf⟩ := kept_of_op (hops op List.mem_cons_self) hop
    obtain ⟨t', g, rfl, hcols', hrows', hg⟩ :=
      ih (fun op hop => hops op (List.mem_cons_of_mem _ hop)) hrest
    refine ⟨t', g ∘ f, rfl, fun c hc => hcols' c (hcols c hc), ?_, fun row c hc => ?_⟩
    · rw [hrows', hrows, List.map_map]
    · exact (hg (f row) c (hcols c hc)).trans (hf row c hc)

end InPlace

/-! ## The reasons of a rebuild -/

section Reasons

variable {desired actual : TableDef}

theorem mem_rebuildReasons {reason : RebuildReason} :
    reason ∈ rebuildReasons desired actual ↔ reason ∈ primaryKeyReasons desired actual
      ∨ (∃ e ∈ desired.columnMap.entries, reason ∈ desiredColumnReasons actual e)
      ∨ (removedColumns desired actual ≠ []
          ∧ reason = .dropColumns (removedColumns desired actual)) := by
  have hdrop : reason ∈ (if removedColumns desired actual ≠ [] then
      [RebuildReason.dropColumns (removedColumns desired actual)] else [])
      ↔ removedColumns desired actual ≠ []
        ∧ reason = .dropColumns (removedColumns desired actual) := by
    split_ifs with h
    · simp [h]
    · simp [h]
  rw [rebuildReasons, List.mem_append, List.mem_append, List.mem_flatMap, hdrop, or_assoc]

/-- The reasons that a column gives are about that column. -/
theorem desiredColumnReasons_cases {e : String × ColumnDef} {reason : RebuildReason}
    (h : reason ∈ desiredColumnReasons actual e) :
    (∃ a b, reason = .changeColumnType e.1 a b)
      ∨ (∃ a b, reason = .changeNullability e.1 a b)
      ∨ ∃ a b, reason = .changeDefault e.1 a b := by
  unfold desiredColumnReasons at h
  split at h
  · cases h
  · unfold columnReasons at h
    rw [List.mem_append, List.mem_append] at h
    obtain (h | h) | h := h
    · split_ifs at h
      · exact Or.inl ⟨_, _, List.mem_singleton.mp h⟩
      · cases h
    · split_ifs at h
      · exact Or.inr (Or.inl ⟨_, _, List.mem_singleton.mp h⟩)
      · cases h
    · split_ifs at h
      · exact Or.inr (Or.inr ⟨_, _, List.mem_singleton.mp h⟩)
      · cases h

/-- A change of the type of the primary key is listed if there is one. -/
theorem retypesKey_of_ne (h : desired.primaryKey.sqlType ≠ actual.primaryKey.sqlType) :
    RetypesKey (rebuildReasons desired actual) := by
  refine ⟨actual.primaryKey.sqlType, desired.primaryKey.sqlType, ?_⟩
  rw [mem_rebuildReasons, primaryKeyReasons, if_pos (Or.inr h : _ ∨ _)]
  exact Or.inl (List.mem_append_right _ (List.mem_singleton_self _))

/-- **A column is listed as dropped exactly when only the live table has
it.** -/
theorem drops_iff (hd : desired.WellFormed) (ha : actual.WellFormed) {n : String} :
    Drops (rebuildReasons desired actual) n
      ↔ (∃ c' ∈ actual.columns, c'.name = n) ∧ ∀ c ∈ desired.columns, c.name ≠ n := by
  rw [← mem_removedColumns hd ha]
  constructor
  · intro h
    obtain ⟨columns, hmem, hn⟩ := h
    rw [mem_rebuildReasons] at hmem
    obtain hmem | ⟨e, -, hmem⟩ | ⟨-, hmem⟩ := hmem
    · unfold primaryKeyReasons at hmem
      rw [List.mem_append] at hmem
      obtain hmem | hmem := hmem
      · split_ifs at hmem
        · cases List.mem_singleton.mp hmem
        · cases hmem
      · split_ifs at hmem
        · cases List.mem_singleton.mp hmem
        · cases hmem
    · obtain ⟨a, b, h⟩ | ⟨a, b, h⟩ | ⟨a, b, h⟩ := desiredColumnReasons_cases hmem
      all_goals cases h
    · cases hmem
      exact hn
  · intro hn
    refine ⟨_, mem_rebuildReasons.mpr (Or.inr (Or.inr ⟨fun hnil => ?_, rfl⟩)), hn⟩
    rw [hnil] at hn
    exact absurd hn List.not_mem_nil

/-- A change of the affinity of a column is listed. -/
theorem retypes_of_ne (hd : desired.WellFormed) (ha : actual.WellFormed)
    {c c' : ColumnDef} (hc : c ∈ desired.columns) (hc' : c' ∈ actual.columns)
    (hname : c.name = c'.name) (haff : c.affinity ≠ c'.affinity) :
    Retypes (rebuildReasons desired actual) c.name := by
  refine ⟨c'.sqlType, c.sqlType, mem_rebuildReasons.mpr (Or.inr (Or.inl ⟨(c.name, c),
    (mem_columnMap_entries hd).mpr ⟨hc, rfl⟩, ?_⟩))⟩
  rw [desiredColumnReasons, (get?_columnMap ha).mpr ⟨hc', hname.symm⟩]
  dsimp only
  rw [columnReasons, if_pos haff]
  exact List.mem_append_left _ (List.mem_append_left _ (List.mem_singleton_self _))

end Reasons

/-! ## The copy of a rebuild -/

/-- Without unsupported features the primary key is a single column, and no
column is hidden. -/
theorem exact_of_columnFeatures {rows : List ColumnRow} (h : columnFeatures rows = []) :
    (∃ k ∈ rows, k.name = primaryKeyName rows ∧ k.sqlType = primaryKeySqlType rows
        ∧ k.pk = 1)
      ∧ pkCount rows = 1 ∧ ∀ c ∈ rows, c.hidden = 0 := by
  unfold columnFeatures at h
  rw [List.append_eq_nil_iff, List.append_eq_nil_iff] at h
  obtain ⟨⟨hexact, -⟩, hhidden⟩ := h
  have hhidden : rows.any (fun column => column.hidden ≠ 0) = false := by
    by_contra hany
    rw [if_pos (by simpa using hany)] at hhidden
    cases hhidden
  have hexact : primaryKeyIsExact rows = true := by
    by_contra hnot
    rw [if_pos (by simpa using hnot)] at hexact
    cases hexact
  unfold primaryKeyIsExact at hexact
  split at hexact
  · cases hexact
  · rename_i k hk
    refine ⟨⟨k, List.mem_of_find?_eq_some hk, ?_, ?_, ?_⟩, ?_, fun c hc => ?_⟩
    · rw [primaryKeyName, hk]
      rfl
    · rw [primaryKeySqlType, hk]
      rfl
    · simpa using List.find?_some hk
    · simp only [Bool.and_eq_true, decide_eq_true_eq] at hexact
      exact hexact.1.1.1
    · simpa using List.any_eq_false.mp hhidden c hc

/-- The values that the copy statement of a rebuild inserts for a row. -/
def copiedRow (fromDef toDef : TableDef) (row : Row) : List (String × Value) :=
  (retainedColumns fromDef toDef).map (fun pair => (pair.2, row.get pair.1))

section Copy

variable {e : Engine} {fromDef toDef : TableDef}

/-- **No column is copied to twice.** -/
theorem nodup_retainedColumns (hf : fromDef.WellFormed) (ht : toDef.WellFormed) :
    ((retainedColumns fromDef toDef).map Prod.snd).Nodup := by
  rw [retainedColumns, List.map_cons, List.map_map, List.nodup_cons]
  have hsnd : (Prod.snd ∘ fun name : String => (name, name)) = id := rfl
  rw [hsnd, List.map_id]
  refine ⟨fun hmem => ?_, hf.columns_nodup.filter _⟩
  obtain ⟨c, hc, hname⟩ := List.mem_map.mp (of_decide_eq_true (List.mem_filter.mp hmem).2)
  exact ht.pk_not_mem c hc hname

theorem find?_copiedRow_key (row : Row) :
    (copiedRow fromDef toDef row).find? (fun entry => entry.1 = toDef.primaryKey.name)
      = some (toDef.primaryKey.name, row.get fromDef.primaryKey.name) := by
  simp [copiedRow, retainedColumns]

theorem find?_copiedRow_column (row : Row) {n : String} (hn : n ≠ toDef.primaryKey.name)
    (hf : n ∈ fromDef.columns.map (·.name)) (ht : n ∈ toDef.columns.map (·.name)) :
    (copiedRow fromDef toDef row).find? (fun entry => entry.1 = n)
      = some (n, row.get n) := by
  have hmem : n ∈ (fromDef.columns.map (·.name)).filter
      (fun name => name ∈ toDef.columns.map (·.name)) :=
    List.mem_filter.mpr ⟨hf, decide_eq_true ht⟩
  rw [copiedRow, retainedColumns, List.map_cons, List.map_map,
    List.find?_cons_of_neg (by simpa using Ne.symm hn)]
  revert hmem
  induction (fromDef.columns.map (·.name)).filter
      (fun name => name ∈ toDef.columns.map (·.name)) with
  | nil => exact fun hmem => absurd hmem List.not_mem_nil
  | cons m rest ih =>
    intro hmem
    rw [List.map_cons]
    by_cases hm : m = n
    · subst hm
      rw [List.find?_cons_of_pos (by simp)]
      rfl
    · rw [List.find?_cons_of_neg (by simpa using hm)]
      exact ih ((List.mem_cons.mp hmem).resolve_left (Ne.symm hm))

/-- Inserting rows appends the inserted rows. -/
theorem insertRows_rows {n : String} {t t' : SqliteTable}
    {given : List (List (String × Value))} (h : e.insertRows n t given = .ok t') :
    t'.columns = t.columns ∧ ∃ rows, t'.rows = t.rows ++ rows
      ∧ List.Forall₂ (fun g row => ∃ u : SqliteTable, u.columns = t.columns
          ∧ row = e.insertedRow u g) given rows := by
  induction given generalizing t with
  | nil =>
    obtain rfl : t = t' := Except.ok.inj h
    exact ⟨rfl, [], (List.append_nil _).symm, List.Forall₂.nil⟩
  | cons g rest ih =>
    rw [Engine.insertRows] at h
    split at h
    · cases h
    · rename_i mid hmid
      obtain ⟨hcols, rows, hrows, hall⟩ := ih h
      rw [insertRow_eq_ok hmid] at hcols hrows hall
      refine ⟨hcols, e.insertedRow t g :: rows, ?_, List.Forall₂.cons ⟨t, rfl, rfl⟩ hall⟩
      rw [hrows, List.append_assoc, List.singleton_append]

/-- A listed value is converted and stored, unless it is an absent row id. -/
theorem insertedValue_of_find? {t : SqliteTable} {given : List (String × Value)}
    {c : ColumnRow} {v : Value}
    (h : given.find? (fun entry => entry.1 = c.name) = some (c.name, v))
    (hnull : isRowid t.columns c = true → e.store c.affinity v ≠ .null) :
    e.insertedValue t given c = e.store c.affinity v := by
  unfold Engine.insertedValue
  rw [h]
  dsimp only
  rw [if_neg]
  intro hand
  rw [Bool.and_eq_true, decide_eq_true_iff] at hand
  exact hnull hand.1 hand.2

/-- The value under the new primary key. -/
theorem get_copied_key {u : SqliteTable} (ht : toDef.WellFormed)
    (hu : u.columns = toDef.declaredRows) (row : Row)
    (hnull : isRowid u.columns toDef.primaryKey.declaredRow = true →
      e.store toDef.primaryKey.affinity (row.get fromDef.primaryKey.name) ≠ .null) :
    (e.insertedRow u (copiedRow fromDef toDef row)).get toDef.primaryKey.name
      = e.store toDef.primaryKey.affinity (row.get fromDef.primaryKey.name) := by
  have hnodup : (u.columns.map (·.name)).Nodup := by
    rw [hu]
    exact nodup_declaredRows ht
  have hmem : toDef.primaryKey.declaredRow ∈ u.columns := by
    rw [hu]
    exact List.mem_cons_self
  exact (get_insertedRow e _ hnodup hmem).trans
    (insertedValue_of_find? (c := toDef.primaryKey.declaredRow) (find?_copiedRow_key row) hnull)

/-- The value in a column of both definitions. -/
theorem get_copied_column {u : SqliteTable} (ht : toDef.WellFormed)
    (hu : u.columns = toDef.declaredRows) (row : Row) {d : ColumnDef} (hd : d ∈ toDef.columns)
    (hfrom : d.name ∈ fromDef.columns.map (·.name)) :
    (e.insertedRow u (copiedRow fromDef toDef row)).get d.name
      = e.store d.affinity (row.get d.name) := by
  have hnodup : (u.columns.map (·.name)).Nodup := by
    rw [hu]
    exact nodup_declaredRows ht
  have hmem : d.declaredRow ∈ u.columns := by
    rw [hu]
    exact List.mem_cons_of_mem _ (List.mem_map.mpr ⟨d, hd, rfl⟩)
  refine (get_insertedRow e _ hnodup hmem).trans
    (insertedValue_of_find? (c := d.declaredRow)
      (find?_copiedRow_column row (ht.pk_not_mem d hd) hfrom (List.mem_map.mpr ⟨d, hd, rfl⟩))
      (fun h => ?_))
  simp [isRowid, ColumnDef.declaredRow] at h

/-- **A copied row keeps what it should.** -/
theorem rowCopied {t u : SqliteTable} (hf : fromDef.WellFormed) (ht : toDef.WellFormed)
    (hkey : fromDef.primaryKey = ⟨primaryKeyName t.columns, primaryKeySqlType t.columns⟩)
    (hcolumns : fromDef.columns = managedColumns t.columns)
    (hfeatures : columnFeatures t.columns = []) (hstored : t.Stored e) {row : Row}
    (hrow : row ∈ t.rows) (hu : u.columns = toDef.declaredRows) :
    RowCopied e t fromDef toDef (rebuildReasons toDef fromDef) row
      (e.insertedRow u (copiedRow fromDef toDef row)) := by
  obtain ⟨⟨k, hk, hname, htype, hpk⟩, hcount, hhidden⟩ := exact_of_columnFeatures hfeatures
  have hkeyname : fromDef.primaryKey.name = k.name := by
    rw [hkey]
    exact hname.symm
  have hstoredkey : e.store k.affinity (row.get fromDef.primaryKey.name)
      = row.get fromDef.primaryKey.name := by
    rw [hkeyname]
    exact hstored.affinity row hrow k hk
  have hnewkey : (isRowid u.columns toDef.primaryKey.declaredRow = true →
        e.store toDef.primaryKey.affinity (row.get fromDef.primaryKey.name) ≠ .null) →
      (e.insertedRow u (copiedRow fromDef toDef row)).get toDef.primaryKey.name
        = e.store toDef.primaryKey.affinity (row.get fromDef.primaryKey.name) :=
    get_copied_key ht hu row
  refine ⟨⟨k, hk, hkeyname.symm, hpk⟩, fun hkept => ?_, fun hnull => hnewkey (fun _ => hnull),
    fun c hc hne hdrops => ?_, fun c hc hdrops => ((drops_iff ht hf).mp hdrops).2⟩
  · -- the type is the same, so the new key is a row id only if the old one is
    have hsame : toDef.primaryKey.sqlType = k.sqlType := by
      by_contra hne
      refine hkept (retypesKey_of_ne (fun h => hne ?_))
      rw [h, hkey, htype]
    have haff : toDef.primaryKey.affinity = k.affinity :=
      congrArg SqlAffinity.fromDeclaredType hsame
    rw [haff, hstoredkey] at hnewkey
    refine hnewkey (fun hrowid => ?_)
    have hrowid : isRowid t.columns k = true := by
      unfold isRowid at hrowid ⊢
      rw [hu, pkCount_declaredRows] at hrowid
      rw [hcount, hpk, ← hsame]
      exact hrowid
    rw [hkeyname, hstored.rowid row hrow k hk hrowid]
    exact Value.noConfusion
  · have hcmem : c.toColumnDef ∈ fromDef.columns := by
      rw [hcolumns]
      refine List.mem_map.mpr ⟨c, List.mem_filter.mpr ⟨hc, ?_⟩, rfl⟩
      rw [hkey] at hne
      simpa [hhidden c hc] using hne
    obtain ⟨d, hd, hdname⟩ : ∃ d ∈ toDef.columns, d.name = c.name := by
      by_contra hnot
      push Not at hnot
      exact hdrops ((drops_iff ht hf).mpr ⟨⟨_, hcmem, rfl⟩, hnot⟩)
    have hvalue : (e.insertedRow u (copiedRow fromDef toDef row)).get c.name
        = e.store d.affinity (row.get c.name) := by
      rw [← hdname]
      refine get_copied_column ht hu row hd ?_
      rw [hdname]
      exact List.mem_map.mpr ⟨_, hcmem, rfl⟩
    refine ⟨d, hd, hdname, hvalue, fun hretypes => ?_⟩
    have haff : d.affinity = c.affinity := by
      by_contra hne
      rw [← hdname] at hretypes
      exact hretypes (retypes_of_ne ht hf hd hcmem hdname hne)
    rw [hvalue, haff]
    exact hstored.affinity row hrow c hc

end Copy

/-! ## The operations of a plan -/

section Main

variable {e : Engine} {target : SchemaDef} {db ran : Database} {scope : List String}
  {r : DiffResult}

/-- Ensuring the history table keeps the tables that are there. -/
theorem get?_ready {ready : Database} (hready : e.exec db .ensureHistoryTable = .ok ready) {n : String}
    {t : SqliteTable} (hn : db.tables.get? n = some t) : ready.tables.get? n = some t := by
  obtain rfl | ⟨hfree, rfl⟩ := exec_ensureHistoryTable hready
  · exact hn
  · rw [Database.setTable_tables, SortedMap.get?_insert_of_ne, hn]
    intro h
    rw [h, Database.get?_eq_none_of_nameTaken hfree] at hn
    cases hn

/-- **A table that is rebuilt** has all its rows copied. -/
theorem kept_of_rebuild (ht : target.WellFormed)
    (hdiff : diff target (introspectManaged db scope) = .ok r) (hb : r.blockers = [])
    (hstored : db.Stored e) {n : String} {t : SqliteTable} {x : Option SqliteTable}
    (hn : db.tables.get? n = some t) {fromDef toDef : TableDef} {reasons : List RebuildReason}
    (hop : .rebuildTable n fromDef toDef reasons ∈ r.ops)
    (h : ChangesAll e (r.ops.filter (fun op => op.tableName = n)) (some t) x) :
    ∃ t', x = some t'
      ∧ List.Forall₂ (RowCopied e t fromDef toDef reasons) t.rows t'.rows := by
  obtain ⟨hmem, ⟨a, ha, rfl, hfeatures⟩, rfl, hops⟩ :=
    rebuild_of_mem ht (introspectManaged_keyed _ _) hdiff hb hop
  have hf := actual_wellFormed hdiff ha
  obtain ⟨-, t₀, sql, ht₀, -, rfl⟩ := get?_introspectManaged_eq_some ha
  obtain rfl : t₀ = t := Option.some.inj (ht₀.symm.trans hn)
  have hcolumns : tableColumns db n = t₀.columns := by
    rw [tableColumns, ht₀]
    rfl
  have hfeatures : columnFeatures t₀.columns = [] := by
    rw [← hcolumns]
    exact (List.append_eq_nil_iff.mp hfeatures).1
  rw [hops] at h
  obtain ⟨mid, ⟨u, v, hu, hins, rfl⟩, hmid⟩ := h
  obtain rfl : t₀ = u := Option.some.inj hu
  obtain ⟨-, rows, hrows, hall⟩ := insertRows_rows hins
  refine ⟨_, hmid, ?_⟩
  show List.Forall₂ _ t₀.rows v.rows
  rw [hrows]
  show List.Forall₂ _ t₀.rows ([] ++ rows)
  rw [List.nil_append]
  have hall := (List.forall₂_and_left _ _).mpr
    ⟨fun row hrow => hrow, List.forall₂_map_left_iff.mp hall⟩
  refine List.Forall₂.imp (fun row row' hrow => ?_) hall
  obtain ⟨hrow, w, hw, rfl⟩ := hrow
  refine rowCopied hf (ht.tables _ hmem) ?_ ?_ hfeatures ?_ hrow hw
  · rw [introspectTable, hcolumns]
  · rw [introspectTable, hcolumns]
  · exact hstored t₀ (SortedMap.mem_values_iff.mpr ⟨n, hn⟩)

end Main

/-! ## Runs -/

/-- A table of addresses with one row. -/
def addressTable : SqliteTable :=
  { TableDef.declaredTable "addresses" ⟨"addresses", ⟨"id", "INTEGER"⟩,
      [⟨"street", "TEXT", true, none⟩, ⟨"zip", "TEXT", true, none⟩], []⟩ with
    rows := [[("id", .integer 1), ("street", .text "Main"), ("zip", .text "007")]] }

def addressDatabase : Database := Database.empty.setTable "addresses" addressTable

/-- Comparing a schema with the addresses and running the operations. -/
def migrateAddresses (target : SchemaDef) : Except Error (DiffResult × Database) :=
  let actual := introspectManaged addressDatabase ["addresses"]
  match diff target actual with
  | .error error => .error error
  | .ok r =>
    match exampleEngine.execSteps addressDatabase
        (.run .ensureHistoryTable :: r.ops.flatMap (PlanOp.steps actual)) with
    | .error error => .error error
    | .ok ran => .ok (r, ran)

end Seekwel
