import Seekwel.Statement

/-!
# The schema history

Every applied plan leaves a row in the history table, with the canonical
text of its target schema. The row with the largest id is the one that a
later plan reads to find out which tables it manages.

`loadLatestTargetSchema_insertHistory` says that the row inserted last is
the one that is read.
-/

namespace Seekwel

/-- The one of two rows that comes first under `ORDER BY id DESC`. -/
def laterRow (best : Option Row) (row : Row) : Option Row :=
  match best with
  | none => some row
  | some b => if b.getInteger "id" < row.getInteger "id" then some row else some b

/-- The row that comes first under `ORDER BY id DESC`. -/
def latestRow (rows : List Row) : Option Row := rows.foldl laterRow none

/-- **The target schema of the plan applied last**, if any was. -/
def loadLatestTargetSchema (db : Database) : Except Error (Option SchemaDef) :=
  match db.tables.get? historyTable with
  | none => .ok none
  | some table =>
    if !table.hasColumn "target_schema" || !table.hasColumn "id" then
      .error (.sqlite "no such column")
    else
      match latestRow table.rows with
      | none => .ok none
      | some row =>
        match row.get "target_schema" with
        | .text text => (SchemaDef.fromCanonical text).map some
        | _ => .error (.sqlite "invalid column type")

/-- The statements that record an applied plan. -/
def recordSuccess (planId sourceFingerprint targetFingerprint : String)
    (targetSchema : SchemaDef) : List Statement :=
  [.ensureHistoryTable,
    .insertHistory {
      planId := planId
      artifactVersion := artifactVersion
      sourceFingerprint := sourceFingerprint
      targetFingerprint := targetFingerprint
      targetSchema := targetSchema.canonicalString }]

/-- The history table, if there is one, has the columns it was created
with. -/
def Database.HistoryIntact (db : Database) : Prop :=
  ∀ t, db.tables.get? historyTable = some t → t.columns = historyColumns

theorem Row.get_map_of_nodup {columns : List ColumnRow} {f : ColumnRow → Value}
    (hnodup : (columns.map (·.name)).Nodup) {c : ColumnRow} (hc : c ∈ columns) :
    Row.get (columns.map (fun c => (c.name, f c))) c.name = f c := by
  induction columns with
  | nil => exact absurd hc List.not_mem_nil
  | cons d rest ih =>
    rw [List.map_cons, List.nodup_cons] at hnodup
    obtain rfl | hc := List.mem_cons.mp hc
    · simp [Row.get]
    · have hne : d.name ≠ c.name := fun h =>
        hnodup.1 (List.mem_map.mpr ⟨c, hc, h.symm⟩)
      have ih := ih hnodup.2 hc
      unfold Row.get at ih ⊢
      rw [List.map_cons, List.find?_cons_of_neg (by simpa using hne)]
      exact ih

/-- A value inserted into a column is read back from it. -/
theorem get_insertedRow (e : Engine) {t : SqliteTable} (given : List (String × Value))
    (hnodup : (t.columns.map (·.name)).Nodup) {c : ColumnRow} (hc : c ∈ t.columns) :
    (e.insertedRow t given).get c.name = e.insertedValue t given c :=
  Row.get_map_of_nodup hnodup hc

theorem le_foldl_max {l : List ℤ} {a x : ℤ} (h : x = a ∨ x ∈ l) : x ≤ l.foldl max a := by
  induction l generalizing a x with
  | nil => exact (h.resolve_right List.not_mem_nil).le
  | cons b l ih =>
    rw [List.foldl_cons]
    have hstart : max a b ≤ l.foldl max (max a b) := ih (Or.inl rfl)
    obtain rfl | h := h
    · exact (le_max_left x b).trans hstart
    · obtain rfl | h := List.mem_cons.mp h
      · exact (le_max_right a x).trans hstart
      · exact ih (Or.inr h)

/-- The next row id is larger than all. -/
theorem lt_nextRowid {rows : List Row} {r : Row} (hr : r ∈ rows) (column : String) :
    r.getInteger column < nextRowid rows column :=
  Int.lt_add_one_of_le (le_foldl_max (Or.inr (List.mem_map.mpr ⟨r, hr, rfl⟩)))

theorem foldl_laterRow_mem (rows : List Row) (best : Option Row) :
    rows.foldl laterRow best = best ∨ ∃ r ∈ rows, rows.foldl laterRow best = some r := by
  induction rows generalizing best with
  | nil => exact Or.inl rfl
  | cons x rows ih =>
    rw [List.foldl_cons]
    obtain h | ⟨r, hr, h⟩ := ih (laterRow best x)
    · rw [h]
      unfold laterRow
      cases best with
      | none => exact Or.inr ⟨x, List.mem_cons_self, rfl⟩
      | some b =>
        dsimp only
        split_ifs
        · exact Or.inr ⟨x, List.mem_cons_self, rfl⟩
        · exact Or.inl rfl
    · exact Or.inr ⟨r, List.mem_cons_of_mem _ hr, h⟩

/-- A row with a larger id than all others is the latest. -/
theorem latestRow_append {rows : List Row} {r : Row}
    (h : ∀ r' ∈ rows, r'.getInteger "id" < r.getInteger "id") :
    latestRow (rows ++ [r]) = some r := by
  rw [latestRow, List.foldl_append, List.foldl_cons, List.foldl_nil]
  obtain hnone | ⟨b, hb, hsome⟩ := foldl_laterRow_mem rows none
  · rw [hnone]
    rfl
  · rw [hsome, laterRow, if_pos (h b hb)]

/-- **The row inserted last is the one that is read.** -/
theorem loadLatestTargetSchema_insertHistory {e : Engine} {db db' : Database}
    {row : HistoryRow} (hintact : db.HistoryIntact)
    (h : e.exec db (.insertHistory row) = .ok db') :
    loadLatestTargetSchema db' = (SchemaDef.fromCanonical row.targetSchema).map some
      ∧ db'.HistoryIntact := by
  obtain ⟨t, t', ht, hins, rfl⟩ := exec_insertHistory h
  have hcols := hintact t ht
  obtain rfl := insertRow_eq_ok hins
  have hnodup : (t.columns.map (·.name)).Nodup := by
    rw [hcols]
    decide
  have hid : (e.insertedRow t row.given).getInteger "id" = nextRowid t.rows "id" := by
    have hget := get_insertedRow e row.given hnodup
      (c := ⟨"id", "INTEGER", false, none, 1, 0⟩) (by rw [hcols]; decide)
    have hrow : isRowid t.columns ⟨"id", "INTEGER", false, none, 1, 0⟩ = true := by
      rw [hcols]
      decide
    unfold Row.getInteger
    rw [hget]
    simp [Engine.insertedValue, HistoryRow.given, Engine.defaultValue, hrow]
  have hschema : (e.insertedRow t row.given).get "target_schema" = .text row.targetSchema := by
    have hget := get_insertedRow e row.given hnodup
      (c := ⟨"target_schema", "TEXT", true, none, 0, 0⟩) (by rw [hcols]; decide)
    have haff : ColumnRow.affinity ⟨"target_schema", "TEXT", true, none, 0, 0⟩ = .text := by
      decide
    rw [hget]
    simp [Engine.insertedValue, HistoryRow.given, haff, Engine.store]
  have hlatest := latestRow_append
    (show ∀ r ∈ t.rows, r.getInteger "id" < (e.insertedRow t row.given).getInteger "id" from
      fun r hr => by rw [hid]; exact lt_nextRowid hr "id")
  constructor
  · unfold loadLatestTargetSchema
    rw [Database.setTable_tables, SortedMap.get?_insert_self]
    have hcol : ∀ n ∈ ["target_schema", "id"], (SqliteTable.hasColumn
        { t with rows := t.rows ++ [e.insertedRow t row.given] } n) = true := by
      unfold SqliteTable.hasColumn
      dsimp only
      rw [hcols]
      decide
    simp only [hcol _ (List.mem_cons_self), hcol "id" (by simp), hlatest, hschema,
      Bool.not_true, Bool.or_self, Bool.false_eq_true, if_false]
  · intro t'' ht''
    rw [Database.setTable_tables, SortedMap.get?_insert_self] at ht''
    cases ht''
    exact hcols

theorem historyIntact_ensureHistoryTable {e : Engine} {db db' : Database}
    (hintact : db.HistoryIntact) (h : e.exec db .ensureHistoryTable = .ok db') :
    db'.HistoryIntact := by
  obtain rfl | ⟨-, rfl⟩ := exec_ensureHistoryTable h
  · exact hintact
  · intro t ht
    rw [Database.setTable_tables, SortedMap.get?_insert_self] at ht
    cases ht
    rfl

/-- **The target recorded last is the one that is read.** -/
theorem loadLatestTargetSchema_recordSuccess {e : Engine} {db db' : Database}
    {planId sourceFingerprint targetFingerprint : String} {target : SchemaDef}
    (hintact : db.HistoryIntact)
    (h : e.execAll db (recordSuccess planId sourceFingerprint targetFingerprint target)
      = .ok db') :
    loadLatestTargetSchema db' = (SchemaDef.fromCanonical target.canonicalString).map some
      ∧ db'.HistoryIntact := by
  obtain ⟨mid, hensure, h⟩ := execAll_cons h
  obtain ⟨last, hinsert, hnil⟩ := execAll_cons h
  obtain rfl : last = db' := Except.ok.inj hnil
  have hlatest := loadLatestTargetSchema_insertHistory
    (historyIntact_ensureHistoryTable hintact hensure) hinsert
  exact hlatest

end Seekwel
