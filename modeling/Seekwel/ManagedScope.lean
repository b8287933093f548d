import Seekwel.Desired
import Seekwel.Execution

/-!
# Which tables are remembered

A later plan manages a table only if the target recorded last names it.
This module follows whole runs of `Plan::build` and `Plan::apply` calls, in
any order and with any number of plans outstanding, and asks whether every
table of the database stays remembered.

It does not in general (`managed_table_forgotten`): `Plan::build` takes its
scope from the target and the latest history row, `apply` takes it from the
plan alone, so a plan that was built earlier records a target without the
tables that other plans created in between. It does in every run in which
each plan that passes its checks has all tables of the database in its own
scope (`run_remembered`).
-/

namespace Seekwel

open Savepoint (Conn)

/-! ## Runs -/

/-- The database, and the plans that have been built. -/
structure World where
  db : Database
  plans : List Plan

/-- The world in which nothing has happened. -/
def World.initial : World := ⟨Database.empty, []⟩

/-- A call: building a plan for the models of a builder, or applying a plan
that was built. -/
inductive Call where
  | build (builder : SchemaBuilder)
  | apply (k : ℕ) (mode : ApplyMode) (faults : Faults)

/-- The effect of a call. A call that fails has none on the plans. -/
def World.call (e : Engine) (w : World) : Call → World
  | .build builder =>
    match builder.build with
    | .error _ => w
    | .ok target =>
      match Plan.build e target w.db with
      | .error _ => w
      | .ok plan => { w with plans := w.plans ++ [plan] }
  | .apply k mode faults =>
    match w.plans[k]? with
    | none => w
    | some plan =>
      { w with db := (apply e faults false plan mode (.idle w.db)).1.committed }

/-- A run of calls. -/
def World.run (e : Engine) (w : World) (calls : List Call) : World :=
  calls.foldl (World.call e) w

/-- **Every table is remembered**: the target recorded last names it, so
that every later plan has it in its scope. -/
def Remembered (db : Database) : Prop :=
  ∀ n ∈ db.tables.keys, n ≠ historyTable →
    (∃ s, loadLatestTargetSchema db = .ok (some s) ∧ n ∈ s.tableNames)
      ∧ ∀ target, ∃ scope, managedScope db target = .ok scope ∧ n ∈ scope

/-- **A plan that has the whole database in its scope**, whose target can
be read back once it is recorded, and which does not manage the history
table itself. -/
structure Covers (db : Database) (plan : Plan) : Prop where
  scope : ∀ n ∈ db.tables.keys, n ≠ historyTable → n ∈ planScope plan
  readable : ∃ s, SchemaDef.fromCanonical plan.target.canonicalString = .ok s
    ∧ ∀ n ∈ plan.target.tableNames, n ∈ s.tableNames
  history : historyTable ∉ planScope plan

/-- The condition on a call: a plan that is applied and passes its checks
covers the database. -/
def Call.Covered (w : World) : Call → Prop
  | .build _ => True
  | .apply k mode _ => ∀ plan, w.plans[k]? = some plan →
    (∃ current, checkPlan plan mode (introspectManaged w.db (planScope plan)) = .ok current) →
    Covers w.db plan

/-- The condition on a run: every call meets it when it is made. -/
def RunCovered (e : Engine) (w : World) : List Call → Prop
  | [] => True
  | call :: calls => call.Covered w ∧ RunCovered e (w.call e call) calls

/-! ## The invariant -/

/-- **What holds throughout a run.** -/
structure World.Inv (w : World) : Prop where
  /-- The history table has its columns. -/
  intact : w.db.HistoryIntact
  /-- Every table has a stored statement, so that introspection finds it. -/
  stored : ∀ n t, w.db.tables.get? n = some t → t.sql.isSome
  /-- Every table is named by the target recorded last. -/
  latest : ∀ n ∈ w.db.tables.keys, n ≠ historyTable →
    ∃ s, loadLatestTargetSchema w.db = .ok (some s) ∧ n ∈ s.tableNames
  /-- The targets of the plans are normalized. -/
  targets : ∀ plan ∈ w.plans, plan.target.normalized = .ok plan.target

theorem inv_initial : World.initial.Inv :=
  ⟨fun _ h => (by cases h), fun _ _ h => (by cases h), fun _ h => absurd h List.not_mem_nil,
    fun _ h => absurd h List.not_mem_nil⟩

/-- Under the invariant every table is remembered. -/
theorem remembered_of_inv {w : World} (h : w.Inv) : Remembered w.db := by
  intro n hn hne
  obtain ⟨s, hs, hmem⟩ := h.latest n hn hne
  refine ⟨⟨s, hs, hmem⟩, fun target => ?_⟩
  refine ⟨nameSet (target.tableNames ++ s.tableNames), ?_, ?_⟩
  · rw [managedScope, hs]
  · rw [mem_nameSet, List.mem_append]
    exact Or.inr hmem

/-- An operation leaves a table with a stored statement, if it leaves one. -/
theorem stored_changes {e : Engine} {op : PlanOp} {t t' : Option SqliteTable}
    (h : op.Changes e t t') (ht : ∀ u ∈ t, u.sql.isSome) : ∀ u ∈ t', u.sql.isSome := by
  cases op with
  | createTable table =>
    obtain ⟨-, rfl⟩ := h
    intro u hu
    cases hu
    rfl
  | addColumn n column =>
    obtain ⟨v, rfl, -, rfl⟩ := h
    intro u hu
    cases hu
    show (v.sql.map _).isSome
    rw [Option.isSome_map]
    exact ht v rfl
  | createIndex n index =>
    obtain rfl : t' = t := h
    exact ht
  | dropIndex n index =>
    obtain rfl : t' = t := h
    exact ht
  | rebuildTable n fromDef toDef reasons =>
    obtain ⟨v, w, rfl, hins, rfl⟩ := h
    obtain ⟨rows, rfl⟩ := insertRows_eq_ok hins
    intro u hu
    cases hu
    rfl
  | dropTable table =>
    obtain rfl : t' = none := h
    intro u hu
    cases hu

theorem stored_changesAll {e : Engine} {ops : List PlanOp} {t t' : Option SqliteTable}
    (h : ChangesAll e ops t t') (ht : ∀ u ∈ t, u.sql.isSome) : ∀ u ∈ t', u.sql.isSome := by
  induction ops generalizing t with
  | nil =>
    obtain rfl : t' = t := h
    exact ht
  | cons op ops ih =>
    obtain ⟨mid, hop, h⟩ := h
    exact ih h (stored_changes hop ht)

section Commit

variable {e : Engine} {faults : Faults} {plan : Plan} {mode : ApplyMode}
  {db db' : Database}

/-- **After a plan that covers the database, only tables of its target are
left.** -/
theorem commits_tables (hc : Commits e faults false plan mode db db') (hcov : Covers db plan)
    (ht : plan.target.WellFormed) (hstored : ∀ n t, db.tables.get? n = some t → t.sql.isSome)
    {n : String} (hne : n ≠ historyTable) {t : SqliteTable}
    (hn : db'.tables.get? n = some t) : n ∈ plan.target.tableNames := by
  obtain ⟨ready, ran, hready, hran, hrecord⟩ := commits_applied hc
  obtain ⟨r, hdiff, hops, -⟩ := commits_diff hc
  by_contra hnot
  have hperm := diff_ops_on ht (introspectManaged_keyed _ _) hdiff n
  have hchanges := execOps_changes hran n
  rw [get?_ensureHistoryTable hready hne, ← get?_recordSuccess hrecord hne, hn, ← hops]
    at hchanges
  rw [diffPart, (get?_tableMap_eq_none ht).mpr hnot] at hperm
  cases ha : (introspectManaged db (planScope plan)).get? n with
  | some a =>
    -- the table is in scope, so it was dropped
    rw [ha] at hperm
    rw [List.perm_singleton.mp hperm] at hchanges
    obtain ⟨mid, hmid, hsome⟩ := hchanges
    obtain rfl : mid = none := hmid
    cases hsome
  | none =>
    -- nothing was done about the table, so it was there before
    rw [ha] at hperm
    rw [List.perm_nil.mp hperm] at hchanges
    have hbefore : db.tables.get? n = some t := hchanges.symm
    have hscope : n ∈ planScope plan :=
      hcov.scope n (SortedMap.mem_keys_iff.mpr ⟨t, hbefore⟩) hne
    obtain ⟨sql, hsql⟩ := Option.isSome_iff_exists.mp (hstored n t hbefore)
    rw [get?_introspectManaged, if_pos hscope, tableSql, hbefore] at ha
    simp [hsql] at ha

/-- A plan that covers the database leaves the history table's columns
alone. -/
theorem commits_intact (hc : Commits e faults false plan mode db db') (hcov : Covers db plan)
    (ht : plan.target.WellFormed) (hintact : db.HistoryIntact) :
    loadLatestTargetSchema db'
        = (SchemaDef.fromCanonical plan.target.canonicalString).map some
      ∧ db'.HistoryIntact := by
  obtain ⟨ready, ran, hready, hran, hrecord⟩ := commits_applied hc
  obtain ⟨r, hdiff, hops, -⟩ := commits_diff hc
  refine loadLatestTargetSchema_recordSuccess (fun t htab => ?_) hrecord
  have hnil : plan.ops.filter (fun op => op.tableName = historyTable) = [] := by
    rw [List.filter_eq_nil_iff]
    intro op hop hname
    rw [← hops] at hop
    have hscope := op_mem_planScope ht hdiff hop
    rw [decide_eq_true_iff.mp hname] at hscope
    exact hcov.history hscope
  have hchanges := execOps_changes hran historyTable
  rw [hnil] at hchanges
  have hsame : ran.tables.get? historyTable = ready.tables.get? historyTable := hchanges
  exact historyIntact_ensureHistoryTable hintact hready t (hsame ▸ htab)

/-- Every table has a stored statement after a plan. -/
theorem commits_stored (hc : Commits e faults false plan mode db db')
    (hstored : ∀ n t, db.tables.get? n = some t → t.sql.isSome) (n : String) (t : SqliteTable)
    (hn : db'.tables.get? n = some t) : t.sql.isSome := by
  obtain ⟨ready, ran, hready, hran, hrecord⟩ := commits_applied hc
  have hensure : ∀ {db db' : Database}, e.exec db .ensureHistoryTable = .ok db' →
      (∀ n t, db.tables.get? n = some t → t.sql.isSome) →
      ∀ n t, db'.tables.get? n = some t → t.sql.isSome := by
    intro db db' h hdb n t hn
    obtain rfl | ⟨-, rfl⟩ := exec_ensureHistoryTable h
    · exact hdb n t hn
    · rw [Database.setTable_tables, SortedMap.get?_insert] at hn
      split_ifs at hn
      · cases hn
        rfl
      · exact hdb n t hn
  have hranStored : ∀ n t, ran.tables.get? n = some t → t.sql.isSome :=
    fun n t hn => stored_changesAll (execOps_changes hran n)
      (fun u hu => hensure hready hstored n u hu) t hn
  obtain ⟨mid, hmid, hrest⟩ := execAll_cons hrecord
  obtain ⟨last, hinsert, hnil⟩ := execAll_cons hrest
  obtain rfl : last = db' := Except.ok.inj hnil
  obtain ⟨u, u', hu, hins, rfl⟩ := exec_insertHistory hinsert
  obtain rfl := insertRow_eq_ok hins
  rw [Database.setTable_tables, SortedMap.get?_insert] at hn
  split_ifs at hn
  · cases hn
    exact hensure hmid hranStored _ u hu
  · exact hensure hmid hranStored n t hn

end Commit

/-- **A call that meets the condition keeps the invariant.** -/
theorem inv_call {e : Engine} {w : World} {call : Call} (h : w.Inv) (hcov : call.Covered w) :
    (w.call e call).Inv := by
  cases call with
  | build builder =>
    unfold World.call
    dsimp only
    cases hb : builder.build with
    | error error => exact h
    | ok target =>
      dsimp only
      cases hplan : Plan.build e target w.db with
      | error error => exact h
      | ok plan =>
        refine ⟨h.intact, h.stored, h.latest, fun p hp => ?_⟩
        obtain hp | hp := List.mem_append.mp hp
        · exact h.targets p hp
        · obtain rfl := List.mem_singleton.mp hp
          rw [(build_eq_ok hplan).1]
          exact SchemaDef.normalized_normalized hb
  | apply k mode faults =>
    unfold World.call
    dsimp only
    cases hk : w.plans[k]? with
    | none => exact h
    | some plan =>
      have htarget := h.targets plan (List.mem_of_getElem? hk)
      have hwf := SchemaDef.wellFormed_of_normalized htarget
      obtain ⟨⟨o, happly, -⟩, -⟩ | ⟨db', hc, happly⟩ :=
        apply_cases e faults false plan mode w.db
      · dsimp only
        rw [happly]
        exact h
      · have hcovers := hcov plan hk hc.checked
        obtain ⟨hlatest, hintact⟩ := commits_intact hc hcovers hwf h.intact
        dsimp only
        rw [happly]
        refine ⟨hintact, commits_stored hc h.stored, fun n hn hne => ?_, h.targets⟩
        obtain ⟨t, ht⟩ := SortedMap.mem_keys_iff.mp hn
        obtain ⟨s, hs, hnames⟩ := hcovers.readable
        refine ⟨s, ?_, hnames n (commits_tables hc hcovers hwf h.stored hne ht)⟩
        show loadLatestTargetSchema db' = _
        rw [hlatest, hs]
        rfl

theorem inv_run {e : Engine} {w : World} {calls : List Call} (h : w.Inv)
    (hcov : RunCovered e w calls) : (w.run e calls).Inv := by
  induction calls generalizing w with
  | nil => exact h
  | cons call calls ih => exact ih (inv_call h hcov.1) hcov.2

theorem runCovered_append {e : Engine} {w : World} {calls rest : List Call}
    (h : RunCovered e w (calls ++ rest)) : RunCovered e w calls := by
  induction calls generalizing w with
  | nil => trivial
  | cons call calls ih => exact ⟨h.1, ih h.2⟩

/-- **In a run whose calls all meet the condition, every table is remembered
in every state reached.** -/
theorem run_remembered (e : Engine) (calls rest : List Call)
    (hcov : RunCovered e World.initial (calls ++ rest)) :
    Remembered (World.initial.run e calls).db :=
  remembered_of_inv (inv_run inv_initial (runCovered_append hcov))

/-! ## A run in which a table is forgotten -/

/-- A table without columns of its own. -/
def bareTable (name : String) : TableDef := ⟨name, ⟨"id", "INTEGER"⟩, [], []⟩

/-- **Two plans built on the empty database and applied one after the
other**: the first table exists and the target recorded last does not name
it. -/
theorem managed_table_forgotten :
    let w := World.initial.run exampleEngine
      [.build ⟨[bareTable "authors"]⟩, .build ⟨[bareTable "books"]⟩,
        .apply 0 .safeOnly Faults.none, .apply 1 .safeOnly Faults.none]
    "authors" ∈ w.db.tables.keys
      ∧ loadLatestTargetSchema w.db = .ok (some ⟨[bareTable "books"]⟩)
      ∧ managedScope w.db ⟨[bareTable "books"]⟩ = .ok ["books"]
      ∧ ¬ Remembered w.db := by
  intro w
  have hkeys : "authors" ∈ w.db.tables.keys := by decide +kernel
  have hlatest : loadLatestTargetSchema w.db = .ok (some ⟨[bareTable "books"]⟩) := by
    decide +kernel
  refine ⟨hkeys, hlatest, by decide +kernel, fun h => ?_⟩
  obtain ⟨⟨s, hs, hmem⟩, -⟩ := h "authors" hkeys (by decide)
  rw [hlatest] at hs
  cases hs
  exact absurd hmem (by decide)

/-- In a run that builds each plan after the one before it was applied,
every table is remembered. -/
theorem run_remembered_example :
    Remembered (World.initial.run exampleEngine
      [.build ⟨[bareTable "authors"]⟩, .apply 0 .safeOnly Faults.none]).db := by
  refine run_remembered exampleEngine _ [] ⟨trivial, ?_, trivial⟩
  intro plan hplan _
  have hnone : (World.initial.call exampleEngine
      (.build ⟨[bareTable "authors"]⟩)).db.tables.keys = [] := by decide +kernel
  have hplans : (World.initial.call exampleEngine
      (.build ⟨[bareTable "authors"]⟩)).plans.map (fun p => (p.source, p.target))
        = [(⟨[]⟩, ⟨[bareTable "authors"]⟩)] := by decide +kernel
  have hmem : (plan.source, plan.target) ∈ [((⟨[]⟩ : SchemaDef),
      (⟨[bareTable "authors"]⟩ : SchemaDef))] :=
    hplans ▸ List.mem_map_of_mem (List.mem_of_getElem? hplan)
  obtain ⟨hsource, htarget⟩ := Prod.mk.inj (List.mem_singleton.mp hmem)
  refine ⟨fun n hn => ?_, ⟨⟨[bareTable "authors"]⟩, ?_, ?_⟩, ?_⟩
  · rw [hnone] at hn
    exact absurd hn List.not_mem_nil
  · rw [htarget]
    decide +kernel
  · rw [htarget]
    exact fun n hn => hn
  · rw [planScope, htarget, hsource]
    decide

end Seekwel
