import Seekwel.Apply
import Seekwel.DiffSpec

/-!
# What executing operations does

An operation of a plan is executed as a list of statements, a rebuild as a
long one. This module computes their joint effect on the tables: an
operation changes the table it is about in the way `PlanOp.Changes` says,
and no other (`execSteps_op`). A rebuild goes through a second table of a
temporary name, but since the name was free before and is given up at the
end, nothing of that remains.

A run of operations therefore acts on each table through the operations
about it, in their order (`execOps_changes`).
-/

namespace Seekwel

/-! ## Steps without faults -/

/-- Executing steps one after the other, up to the first that fails. -/
def Engine.execSteps (e : Engine) (db : Database) : List Step → Except Error Database
  | [] => .ok db
  | .stop error :: _ => .error error
  | .run statement :: rest =>
    match e.exec db statement with
    | .error error => .error error
    | .ok db' => e.execSteps db' rest

section Steps

variable {e : Engine} {db db' : Database}

/-- A run that returns a value went through all steps. -/
theorem execSteps_of_runSteps {faults : ℕ → Option Fault} {k : ℕ} {steps : List Step}
    (h : e.runSteps faults k steps db = (db', .ok ())) : e.execSteps db steps = .ok db' := by
  induction steps generalizing k db with
  | nil =>
    obtain ⟨rfl, -⟩ := Prod.mk.inj h
    rfl
  | cons step rest ih =>
    rw [Engine.runSteps.eq_def] at h
    dsimp only at h
    split at h
    · cases (Prod.mk.inj h).2
    · cases (Prod.mk.inj h).2
    · cases step with
      | stop error => cases (Prod.mk.inj h).2
      | run statement =>
        dsimp only at h
        split at h
        · cases (Prod.mk.inj h).2
        · rename_i mid hmid
          rw [Engine.execSteps, hmid]
          exact ih h

theorem execSteps_append {a b : List Step} (h : e.execSteps db (a ++ b) = .ok db') :
    ∃ mid, e.execSteps db a = .ok mid ∧ e.execSteps mid b = .ok db' := by
  induction a generalizing db with
  | nil => exact ⟨db, rfl, h⟩
  | cons step rest ih =>
    cases step with
    | stop error => cases h
    | run statement =>
      rw [List.cons_append, Engine.execSteps] at h
      split at h
      · cases h
      · rename_i mid hmid
        obtain ⟨last, ha, hb⟩ := ih h
        refine ⟨last, ?_, hb⟩
        rw [Engine.execSteps, hmid]
        exact ha

theorem execSteps_run {statement : Statement} {rest : List Step}
    (h : e.execSteps db (.run statement :: rest) = .ok db') :
    ∃ mid, e.exec db statement = .ok mid ∧ e.execSteps mid rest = .ok db' := by
  rw [Engine.execSteps] at h
  split at h
  · cases h
  · rename_i mid hmid
    exact ⟨mid, hmid, h⟩

theorem execSteps_map_run {statements : List Statement}
    (h : e.execSteps db (statements.map .run) = .ok db') :
    e.execAll db statements = .ok db' := by
  induction statements generalizing db with
  | nil => exact h
  | cons statement rest ih =>
    obtain ⟨mid, hmid, h⟩ := execSteps_run h
    rw [Engine.execAll, hmid]
    exact ih h

theorem execAll_append {a b : List Statement} (h : e.execAll db (a ++ b) = .ok db') :
    ∃ mid, e.execAll db a = .ok mid ∧ e.execAll mid b = .ok db' := by
  induction a generalizing db with
  | nil => exact ⟨db, rfl, h⟩
  | cons statement rest ih =>
    obtain ⟨mid, hmid, h⟩ := execAll_cons h
    obtain ⟨last, ha, hb⟩ := ih h
    refine ⟨last, ?_, hb⟩
    rw [Engine.execAll, hmid]
    exact ha

/-- Statements none of which touches a table leave the tables alone. -/
theorem tables_execAll {statements : List Statement}
    (hone : ∀ s ∈ statements, ∀ db db', e.exec db s = .ok db' → db'.tables = db.tables)
    (h : e.execAll db statements = .ok db') : db'.tables = db.tables := by
  induction statements generalizing db with
  | nil =>
    obtain rfl : db = db' := Except.ok.inj h
    rfl
  | cons statement rest ih =>
    obtain ⟨mid, hmid, h⟩ := execAll_cons h
    exact (ih (fun s hs => hone s (List.mem_cons_of_mem _ hs)) h).trans
      (hone statement List.mem_cons_self _ _ hmid)

theorem tables_createIndexes {n : String} {indexes : List IndexDef}
    (h : e.execAll db (indexes.map (.createIndex n)) = .ok db') : db'.tables = db.tables := by
  refine tables_execAll (fun s hs db db' hexec => ?_) h
  obtain ⟨i, -, rfl⟩ := List.mem_map.mp hs
  obtain ⟨-, rfl⟩ := exec_createIndex hexec
  rfl

/-- Creating indexes adds them to the objects. -/
theorem objects_createIndexes {n : String} {indexes : List IndexDef}
    (h : e.execAll db (indexes.map (.createIndex n)) = .ok db') :
    db'.objects = db.objects ++ indexes.map (·.declaredObject n) := by
  induction indexes generalizing db with
  | nil =>
    obtain rfl : db = db' := Except.ok.inj h
    exact (List.append_nil _).symm
  | cons i rest ih =>
    obtain ⟨mid, hcreate, h⟩ := execAll_cons h
    obtain ⟨-, rfl⟩ := exec_createIndex hcreate
    rw [ih h, List.map_cons, List.append_assoc, List.singleton_append]

theorem tables_replays {replays : List ReplaySql}
    (h : e.execAll db (replays.map (fun replay => .replay replay.sql)) = .ok db') :
    db'.tables = db.tables := by
  refine tables_execAll (fun s hs db db' hexec => ?_) h
  obtain ⟨r, -, rfl⟩ := List.mem_map.mp hs
  obtain ⟨o, -, -, rfl⟩ := exec_replay hexec
  rfl

end Steps

/-! ## One operation -/

/-- The table that `ALTER TABLE … ADD COLUMN` makes of a table. -/
def Engine.addedColumn (e : Engine) (c : ColumnDef) (t : SqliteTable) : SqliteTable where
  sql := t.sql.map (addColumnText c)
  columns := t.columns ++ [c.declaredRow]
  foreignKeys := t.foreignKeys
  rows := t.rows.map (· ++ [(c.name, e.defaultValue c.affinity c.defaultSql)])

/-- The rows that the copy statement of a rebuild inserts. -/
def copiedRows (fromDef toDef : TableDef) (rows : List Row) : List (List (String × Value)) :=
  rows.map (fun row =>
    (retainedColumns fromDef toDef).map (fun pair => (pair.2, row.get pair.1)))

/-- **What an operation makes of the table it is about.** -/
def PlanOp.Changes (e : Engine) : PlanOp → Option SqliteTable → Option SqliteTable → Prop
  | .createTable table, t, t' => t = none ∧ t' = some (table.declaredTable table.name)
  | .addColumn _ column, t, t' =>
    ∃ u, t = some u ∧ (∀ r ∈ u.columns, r.name ≠ column.name)
      ∧ t' = some (e.addedColumn column u)
  | .createIndex _ _, t, t' => t' = t
  | .dropIndex _ _, t, t' => t' = t
  | .rebuildTable n fromDef toDef _, t, t' =>
    ∃ u v, t = some u
      ∧ e.insertRows (rebuildName n) (toDef.declaredTable (rebuildName n))
          (copiedRows fromDef toDef u.rows) = .ok v
      ∧ t' = some { v with sql := v.sql.map (renameText (rebuildName n) n) }
  | .dropTable _, _, t' => t' = none

theorem rebuildName_ne (n : String) : rebuildName n ≠ n := by
  intro h
  have hlength := congrArg (fun s => s.toList.length) h
  unfold rebuildName at hlength
  simp only [String.toList_append, List.length_append] at hlength
  have hpos : 0 < "__seekwel_rebuild_".toList.length := by decide +kernel
  omega

section Op

variable {e : Engine} {db db' : Database} {actual : LiveSchema}

/-- **What a rebuild does**: the new table is filled under a name of its own
and takes the place of the old one, whose indexes and triggers go with it.
Then the indexes of the target are created and the other ones run again. -/
theorem rebuildTable_cases {n : String} {fromDef toDef : TableDef} {a : ActualTable}
    (h : e.execAll db (rebuildTable n fromDef toDef a) = .ok db') :
    ∃ u v replaced indexed, db.nameTaken (rebuildName n) = false ∧ db.tables.get? n = some u
      ∧ e.insertRows (rebuildName n) (toDef.declaredTable (rebuildName n))
          (copiedRows fromDef toDef u.rows) = .ok v
      ∧ replaced.tables
        = db.tables.insert n { v with sql := v.sql.map (renameText (rebuildName n) n) }
      ∧ replaced.objects
        = (db.objects.filter (fun o => o.kind = .view || o.tblName ≠ n)).map (fun o =>
            if o.kind ≠ .view ∧ o.tblName = rebuildName n then { o with tblName := n } else o)
      ∧ e.execAll replaced (toDef.indexes.map (.createIndex n)) = .ok indexed
      ∧ e.execAll indexed (a.replaySql.map (fun replay => .replay replay.sql)) = .ok db' := by
  unfold rebuildTable at h
  obtain ⟨indexed, h, hreplays⟩ := execAll_append h
  obtain ⟨renamed, h, hindexes⟩ := execAll_append h
  obtain ⟨created, hcreate, h⟩ := execAll_cons h
  obtain ⟨copied, hcopy, h⟩ := execAll_cons h
  obtain ⟨dropped, hdrop, h⟩ := execAll_cons h
  obtain ⟨last, hrename, hnil⟩ := execAll_cons h
  obtain rfl : last = renamed := Except.ok.inj hnil
  obtain ⟨hfree, rfl⟩ := exec_createTable hcreate
  obtain ⟨u, t, v, hu, ht, hins, rfl⟩ := exec_copyRows hcopy
  obtain rfl := exec_dropTable hdrop
  obtain ⟨w, hw, -, rfl⟩ := exec_renameTable hrename
  have hne : n ≠ rebuildName n := Ne.symm (rebuildName_ne n)
  rw [Database.setTable_tables, SortedMap.get?_insert_of_ne _ _ hne] at hu
  rw [Database.setTable_tables, SortedMap.get?_insert_self] at ht
  rw [Database.removeTable_tables, SortedMap.get?_erase_of_ne _ (rebuildName_ne n),
    Database.setTable_tables, SortedMap.get?_insert_self] at hw
  cases ht
  cases hw
  refine ⟨u, v, _, indexed, hfree, hu, hins, ?_, rfl, hindexes, hreplays⟩
  refine SortedMap.ext_get? (fun m => ?_)
  by_cases hm : m = n
  · subst hm
    rw [SortedMap.get?_insert_self, SortedMap.get?_insert_self]
  · rw [SortedMap.get?_insert_of_ne _ _ hm, SortedMap.get?_insert_of_ne _ _ hm]
    by_cases htemp : m = rebuildName n
    · subst htemp
      rw [SortedMap.get?_erase_self, Database.get?_eq_none_of_nameTaken hfree]
    · rw [SortedMap.get?_erase_of_ne _ htemp, Database.removeTable_tables,
        SortedMap.get?_erase_of_ne _ hm, Database.setTable_tables,
        SortedMap.get?_insert_of_ne _ _ htemp, Database.setTable_tables,
        SortedMap.get?_insert_of_ne _ _ htemp]

/-- **A rebuild replaces its table** and leaves nothing else behind. -/
theorem execAll_rebuildTable {n : String} {fromDef toDef : TableDef} {a : ActualTable}
    (h : e.execAll db (rebuildTable n fromDef toDef a) = .ok db') :
    ∃ u v, db.tables.get? n = some u
      ∧ e.insertRows (rebuildName n) (toDef.declaredTable (rebuildName n))
          (copiedRows fromDef toDef u.rows) = .ok v
      ∧ db'.tables
        = db.tables.insert n { v with sql := v.sql.map (renameText (rebuildName n) n) } := by
  obtain ⟨u, v, replaced, indexed, -, hu, hins, htables, -, hindexes, hreplays⟩ :=
    rebuildTable_cases h
  exact ⟨u, v, hu, hins,
    (tables_replays hreplays).trans ((tables_createIndexes hindexes).trans htables)⟩

/-- **An operation changes its own table and no other.** -/
theorem execSteps_op {op : PlanOp} (h : e.execSteps db (op.steps actual) = .ok db') :
    op.Changes e (db.tables.get? op.tableName) (db'.tables.get? op.tableName)
      ∧ ∀ m, m ≠ op.tableName → db'.tables.get? m = db.tables.get? m := by
  have hinsert : ∀ {n : String} {t : SqliteTable} (m : String), m ≠ n →
      (db.tables.insert n t).get? m = db.tables.get? m :=
    fun m hm => SortedMap.get?_insert_of_ne _ _ hm
  cases op with
  | createTable table =>
    obtain ⟨mid, hcreate, h⟩ := execAll_cons (execSteps_map_run h)
    obtain ⟨hfree, rfl⟩ := exec_createTable hcreate
    rw [tables_createIndexes h]
    exact ⟨⟨Database.get?_eq_none_of_nameTaken hfree, SortedMap.get?_insert_self _ _ _⟩, hinsert⟩
  | addColumn n column =>
    obtain ⟨mid, hadd, hnil⟩ := execSteps_run h
    obtain rfl : mid = db' := Except.ok.inj hnil
    obtain ⟨t, ht, hfresh, rfl⟩ := exec_addColumn hadd
    exact ⟨⟨t, ht, hfresh, SortedMap.get?_insert_self _ _ _⟩, hinsert⟩
  | createIndex n index =>
    obtain ⟨mid, hcreate, hnil⟩ := execSteps_run h
    obtain rfl : mid = db' := Except.ok.inj hnil
    obtain ⟨-, rfl⟩ := exec_createIndex hcreate
    exact ⟨rfl, fun _ _ => rfl⟩
  | dropIndex n index =>
    obtain ⟨mid, hdrop, hnil⟩ := execSteps_run h
    obtain rfl : mid = db' := Except.ok.inj hnil
    obtain rfl := exec_dropIndex hdrop
    exact ⟨rfl, fun _ _ => rfl⟩
  | rebuildTable n fromDef toDef reasons =>
    unfold PlanOp.steps at h
    dsimp only at h
    split at h
    · cases h
    · obtain ⟨u, v, hu, hins, htables⟩ := execAll_rebuildTable (execSteps_map_run h)
      rw [htables]
      exact ⟨⟨u, v, hu, hins, SortedMap.get?_insert_self _ _ _⟩, hinsert⟩
  | dropTable table =>
    obtain ⟨mid, hdrop, hnil⟩ := execSteps_run h
    obtain rfl : mid = db' := Except.ok.inj hnil
    obtain rfl := exec_dropTable hdrop
    exact ⟨SortedMap.get?_erase_self _ _, fun m hm => SortedMap.get?_erase_of_ne _ hm⟩

end Op

/-! ## A run of operations -/

/-- What a list of operations about a table makes of it. -/
def ChangesAll (e : Engine) : List PlanOp → Option SqliteTable → Option SqliteTable → Prop
  | [], t, t' => t' = t
  | op :: ops, t, t' => ∃ mid, op.Changes e t mid ∧ ChangesAll e ops mid t'

/-- **A run of operations acts on each table through the operations about
it.** -/
theorem execOps_changes {e : Engine} {actual : LiveSchema} {ops : List PlanOp}
    {db db' : Database} (h : e.execSteps db (ops.flatMap (PlanOp.steps actual)) = .ok db')
    (n : String) :
    ChangesAll e (ops.filter (fun op => op.tableName = n)) (db.tables.get? n)
      (db'.tables.get? n) := by
  induction ops generalizing db with
  | nil =>
    obtain rfl : db = db' := Except.ok.inj h
    rfl
  | cons op ops ih =>
    rw [List.flatMap_cons] at h
    obtain ⟨mid, hop, h⟩ := execSteps_append h
    obtain ⟨hchanges, hframe⟩ := execSteps_op hop
    have ih := ih h
    by_cases hn : op.tableName = n
    · subst hn
      rw [List.filter_cons_of_pos (by simp)]
      exact ⟨_, hchanges, ih⟩
    · rw [List.filter_cons_of_neg (by simpa using hn), ← hframe n (Ne.symm hn)]
      exact ih

/-! ## A committed plan -/

/-- Inserting rows appends rows and changes nothing else. -/
theorem insertRows_eq_ok {e : Engine} {n : String} {t t' : SqliteTable}
    {given : List (List (String × Value))} (h : e.insertRows n t given = .ok t') :
    ∃ rows, t' = { t with rows := t.rows ++ rows } := by
  induction given generalizing t with
  | nil =>
    obtain rfl : t = t' := Except.ok.inj h
    exact ⟨[], by rw [List.append_nil]⟩
  | cons g rest ih =>
    rw [Engine.insertRows] at h
    split at h
    · cases h
    · rename_i mid hmid
      obtain ⟨rows, rfl⟩ := ih h
      obtain rfl := insertRow_eq_ok hmid
      exact ⟨e.insertedRow t g :: rows, by rw [List.append_assoc, List.singleton_append]⟩

section Committed

variable {e : Engine} {faults : Faults} {active : Bool} {plan : Plan} {mode : ApplyMode}
  {db db' : Database}

/-- **A committed plan ran its operations and recorded itself.** -/
theorem commits_applied (h : Commits e faults active plan mode db db') :
    ∃ ready ran, e.exec db .ensureHistoryTable = .ok ready
      ∧ e.execSteps ready (plan.ops.flatMap
          (PlanOp.steps (introspectManaged db (planScope plan)))) = .ok ran
      ∧ e.execAll ran (recordSuccess plan.planId plan.sourceFingerprint
          plan.targetFingerprint plan.target) = .ok db' := by
  obtain ⟨ready, hready, hsteps⟩ := execSteps_run (execSteps_of_runSteps h.ran)
  obtain ⟨ran, hran, hend⟩ := execSteps_append hsteps
  obtain ⟨sound, hsound, hrecord⟩ := execSteps_run hend
  rw [exec_integrityCheck hsound] at hrecord
  exact ⟨ready, ran, hready, hran, execSteps_map_run hrecord⟩

theorem get?_ensureHistoryTable (h : e.exec db .ensureHistoryTable = .ok db') {n : String}
    (hn : n ≠ historyTable) : db'.tables.get? n = db.tables.get? n := by
  obtain rfl | ⟨-, rfl⟩ := exec_ensureHistoryTable h
  · rfl
  · exact SortedMap.get?_insert_of_ne _ _ hn

/-- Recording a plan changes the history table only. -/
theorem get?_recordSuccess {planId sourceFingerprint targetFingerprint : String}
    {target : SchemaDef}
    (h : e.execAll db (recordSuccess planId sourceFingerprint targetFingerprint target)
      = .ok db') {n : String} (hn : n ≠ historyTable) :
    db'.tables.get? n = db.tables.get? n := by
  obtain ⟨mid, hensure, hrest⟩ := execAll_cons h
  obtain ⟨last, hinsert, hnil⟩ := execAll_cons hrest
  obtain rfl : last = db' := Except.ok.inj hnil
  obtain ⟨t, t', -, -, rfl⟩ := exec_insertHistory hinsert
  rw [Database.setTable_tables, SortedMap.get?_insert_of_ne _ _ hn]
  exact get?_ensureHistoryTable hensure hn

/-- Recording a plan changes the rows of the history table only. -/
theorem history_recordSuccess {planId sourceFingerprint targetFingerprint : String}
    {target : SchemaDef} {t : SqliteTable} (ht : db.tables.get? historyTable = some t)
    (h : e.execAll db (recordSuccess planId sourceFingerprint targetFingerprint target)
      = .ok db') : ∃ rows, db'.tables.get? historyTable = some { t with rows := rows } := by
  obtain ⟨mid, hensure, hrest⟩ := execAll_cons h
  obtain ⟨last, hinsert, hnil⟩ := execAll_cons hrest
  obtain rfl : last = db' := Except.ok.inj hnil
  obtain ⟨u, u', hu, hins, rfl⟩ := exec_insertHistory hinsert
  obtain rfl | ⟨hfree, -⟩ := exec_ensureHistoryTable hensure
  · obtain rfl : t = u := Option.some.inj (ht.symm.trans hu)
    rw [Database.setTable_tables, SortedMap.get?_insert_self, insertRow_eq_ok hins]
    exact ⟨_, rfl⟩
  · rw [Database.get?_eq_none_of_nameTaken hfree] at ht
    cases ht

/-- The comparison that a committed plan was checked against. -/
theorem commits_diff (h : Commits e faults active plan mode db db') :
    ∃ r, diff plan.target (introspectManaged db (planScope plan)) = .ok r
      ∧ r.ops = plan.ops ∧ r.blockers = [] := by
  obtain ⟨current, hcurrent⟩ := h.checked
  obtain ⟨hdiff, -, hops, hblock, -⟩ := checkPlan_eq_ok hcurrent
  exact ⟨current, hdiff, hops, hblock⟩

/-- A table that introspection found has a stored statement. -/
theorem get?_introspectManaged_eq_some {scope : List String} {n : String} {a : ActualTable}
    (h : (introspectManaged db scope).get? n = some a) :
    n ∈ scope ∧ ∃ t sql, db.tables.get? n = some t ∧ t.sql = some sql
      ∧ a = introspectTable db n sql := by
  rw [get?_introspectManaged] at h
  split_ifs at h with hn
  obtain ⟨sql, hsql, rfl⟩ := Option.map_eq_some_iff.mp h
  obtain ⟨t, ht, hsql⟩ := Option.bind_eq_some_iff.mp hsql
  exact ⟨hn, t, sql, ht, hsql, rfl⟩

/-- Every operation is about a table of the plan's scope. -/
theorem op_mem_planScope (ht : plan.target.WellFormed) {r : DiffResult}
    (h : diff plan.target (introspectManaged db (planScope plan)) = .ok r) {op : PlanOp}
    (hop : op ∈ r.ops) : op.tableName ∈ planScope plan := by
  rw [mem_diff_ops_iff ht (introspectManaged_keyed _ _) h] at hop
  unfold diffPart at hop
  split at hop
  · rename_i desired hd
    obtain ⟨hmem, hname⟩ := (get?_tableMap ht).mp hd
    rw [planScope, mem_nameSet, List.mem_append]
    exact Or.inr (List.mem_map.mpr ⟨desired, hmem, hname⟩)
  · rename_i a ha
    exact (get?_introspectManaged_eq_some ha).1
  · exact absurd hop List.not_mem_nil

end Committed

end Seekwel
