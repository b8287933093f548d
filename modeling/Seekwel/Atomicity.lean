import Seekwel.Execution

/-!
# All or nothing

A plan takes effect as a whole or not at all, whatever goes wrong while it
is applied: a statement that cannot be run, one that fails, a panic, a
failing `COMMIT`. The one exception is `PRAGMA optimize`, which is issued
when the transaction is committed already. If it fails, `apply` reports an
error for a plan that took effect (`optimize_failure`).

`apply_all_or_nothing` says exactly this: an `apply` is all or nothing if
and only if `PRAGMA optimize` does not fail after a transaction that changed
the database.
-/

namespace Seekwel

open Savepoint (Conn)

/-- The rows of the history table. -/
def Database.historyRows (db : Database) : List Row :=
  ((db.tables.get? historyTable).map (·.rows)).getD []

/-- The history row of a plan. -/
def Plan.historyRow (plan : Plan) : HistoryRow where
  planId := plan.planId
  artifactVersion := Seekwel.artifactVersion
  sourceFingerprint := plan.sourceFingerprint
  targetFingerprint := plan.targetFingerprint
  targetSchema := plan.target.canonicalString

/-- **A plan took effect**: its operations were run, one after the other and
all of them, and one row was added to the history table; nothing else was
changed. -/
def Applied (e : Engine) (plan : Plan) (db db' : Database) : Prop :=
  ∃ ready ran, e.exec db .ensureHistoryTable = .ok ready
    ∧ e.execSteps ready (plan.ops.flatMap
        (PlanOp.steps (introspectManaged db (planScope plan)))) = .ok ran
    ∧ (∃ t, db'.historyRows = ran.historyRows ++ [e.insertedRow t plan.historyRow.given])
    ∧ (∀ n, n ≠ historyTable → db'.tables.get? n = ran.tables.get? n)
    ∧ db'.objects = ran.objects

/-- **All or nothing**: a call that succeeds leaves a database in which the
plan took effect, a call that does not leaves the database as it was; no
transaction stays open. -/
def AllOrNothing (e : Engine) (plan : Plan) (db : Database) :
    Conn Database × Outcome Unit → Prop
  | (c, .ok ()) => ∃ db', c = .idle db' ∧ Applied e plan db db'
  | (c, _) => c = .idle db

section Atomicity

variable {e : Engine} {faults : Faults} {active : Bool} {plan : Plan} {mode : ApplyMode}
  {db db' : Database}

/-- Ensuring the history table adds no rows to it. -/
theorem historyRows_ensureHistoryTable (h : e.exec db .ensureHistoryTable = .ok db') :
    db'.historyRows = db.historyRows := by
  obtain rfl | ⟨hfree, rfl⟩ := exec_ensureHistoryTable h
  · rfl
  · unfold Database.historyRows
    rw [Database.setTable_tables, SortedMap.get?_insert_self,
      Database.get?_eq_none_of_nameTaken hfree]
    rfl

theorem objects_ensureHistoryTable (h : e.exec db .ensureHistoryTable = .ok db') :
    db'.objects = db.objects := by
  obtain rfl | ⟨-, rfl⟩ := exec_ensureHistoryTable h
  · rfl
  · rfl

/-- **Recording a plan adds its row to the history table.** -/
theorem execAll_recordSuccess (h : e.execAll db (recordSuccess plan.planId
      plan.sourceFingerprint plan.targetFingerprint plan.target) = .ok db') :
    (∃ t, db'.historyRows = db.historyRows ++ [e.insertedRow t plan.historyRow.given])
      ∧ (∀ n, n ≠ historyTable → db'.tables.get? n = db.tables.get? n)
      ∧ db'.objects = db.objects := by
  refine ⟨?_, fun n hn => get?_recordSuccess h hn, ?_⟩
  all_goals
    obtain ⟨mid, hensure, hrest⟩ := execAll_cons h
    obtain ⟨last, hinsert, hnil⟩ := execAll_cons hrest
    obtain rfl : last = db' := Except.ok.inj hnil
    obtain ⟨t, t', ht, hins, rfl⟩ := exec_insertHistory hinsert
  · refine ⟨t, ?_⟩
    rw [← historyRows_ensureHistoryTable hensure]
    unfold Database.historyRows
    rw [Database.setTable_tables, SortedMap.get?_insert_self, ht, insertRow_eq_ok hins]
    rfl
  · exact (Database.setTable_objects _ _ _).trans (objects_ensureHistoryTable hensure)

/-- **A committed plan took effect.** -/
theorem applied_of_commits (h : Commits e faults active plan mode db db') :
    Applied e plan db db' := by
  obtain ⟨ready, ran, hready, hran, hrecord⟩ := commits_applied h
  obtain ⟨hrow, hframe, hobjects⟩ := execAll_recordSuccess hrecord
  exact ⟨ready, ran, hready, hran, hrow, hframe, hobjects⟩

/-- Operations that are not about the history table leave it as it is. -/
theorem historyRows_execOps {actual : LiveSchema} {ops : List PlanOp}
    (hops : ∀ op ∈ ops, op.tableName ≠ historyTable)
    (h : e.execSteps db (ops.flatMap (PlanOp.steps actual)) = .ok db') :
    db'.historyRows = db.historyRows := by
  have hchanges := execOps_changes h historyTable
  rw [List.filter_eq_nil_iff.mpr (fun op hop => by simpa using hops op hop)] at hchanges
  unfold Database.historyRows
  rw [show db'.tables.get? historyTable = db.tables.get? historyTable from hchanges]

/-- **Exactly one history row** is added by a plan that is not about the
history table. -/
theorem historyRows_applied (hops : ∀ op ∈ plan.ops, op.tableName ≠ historyTable)
    (h : Applied e plan db db') :
    ∃ t, db'.historyRows = db.historyRows ++ [e.insertedRow t plan.historyRow.given] := by
  obtain ⟨ready, ran, hready, hran, ⟨t, hrow⟩, -, -⟩ := h
  refine ⟨t, ?_⟩
  rw [hrow, historyRows_execOps hops hran, historyRows_ensureHistoryTable hready]

/-- The steps of a plan come to one database only. -/
theorem commits_unique {db'' : Database} (h : Commits e faults active plan mode db db')
    (h' : Commits e faults active plan mode db db'') : db' = db'' :=
  (Prod.mk.inj (h.ran.symm.trans h'.ran)).1

/-- **When an `apply` is all or nothing**: if and only if `PRAGMA optimize`
does not fail, or fails after a transaction that was not committed or left
the database as it was. The latter takes a plan about the history table
itself, because every other plan adds a history row. Inside a transaction of
the same thread nothing is done at all. -/
theorem apply_all_or_nothing (e : Engine) (faults : Faults) (active : Bool) (plan : Plan)
    (mode : ApplyMode) (db : Database) :
    (AllOrNothing e plan db (apply e faults active plan mode (.idle db))
        ↔ faults.optimize = none ∨ ∀ db', Commits e faults active plan mode db db' → db' = db)
      ∧ ((∀ op ∈ plan.ops, op.tableName ≠ historyTable) → ∀ db',
          Commits e faults active plan mode db db' →
            ∃ t, db'.historyRows
              = db.historyRows ++ [e.insertedRow t plan.historyRow.given])
      ∧ ∀ c, apply e faults true plan mode c = (c, .error (.invalidSchema
          "exclusive schema operations cannot run inside a transaction")) := by
  refine ⟨?_, fun hops db' h => historyRows_applied hops (applied_of_commits h),
    fun c => rfl⟩
  obtain ⟨⟨o, happly, hok⟩, hnone⟩ | ⟨db', hcommits, happly⟩ :=
    apply_cases e faults active plan mode db
  · -- nothing was committed
    rw [happly]
    have hall : AllOrNothing e plan db (.idle db, o) := by
      cases o with
      | ok value => exact absurd rfl hok
      | error error => rfl
      | panic payload => rfl
    exact iff_of_true hall (Or.inr (fun db' h => absurd h (hnone db')))
  · rw [happly]
    cases hopt : faults.optimize with
    | none => exact iff_of_true ⟨db', rfl, applied_of_commits hcommits⟩ (Or.inl rfl)
    | some message =>
      -- the error is reported for a database that was changed
      show Conn.idle db' = .idle db ↔ _
      constructor
      · intro h
        refine Or.inr (fun db'' h'' => ?_)
        rw [commits_unique h'' hcommits]
        exact congrArg Conn.view h
      · intro h
        obtain h | h := h
        · cases h
        · rw [h db' hcommits]

end Atomicity

/-- Another process locks the database after the transaction. -/
def optimizeFails : Faults := { Faults.none with optimize := some "database is locked" }

/-- **A plan that took effect is reported as failed**: `PRAGMA optimize`
fails after the transaction was committed. -/
theorem optimize_failure :
    ∃ plan, Plan.build exampleEngine ⟨[usersTable []]⟩ Database.empty = .ok plan
      ∧ (apply exampleEngine optimizeFails false plan .safeOnly (.idle Database.empty)).2
          = .error (.sqlite "database is locked")
      ∧ "users" ∈ (apply exampleEngine optimizeFails false plan .safeOnly
          (.idle Database.empty)).1.view.tables.keys
      ∧ ¬ AllOrNothing exampleEngine plan Database.empty
          (apply exampleEngine optimizeFails false plan .safeOnly (.idle Database.empty)) := by
  obtain ⟨plan, hplan, hresult, hkeys⟩ : ∃ plan,
      Plan.build exampleEngine ⟨[usersTable []]⟩ Database.empty = .ok plan
        ∧ (apply exampleEngine optimizeFails false plan .safeOnly (.idle Database.empty)).2
            = .error (.sqlite "database is locked")
        ∧ "users" ∈ (apply exampleEngine optimizeFails false plan .safeOnly
            (.idle Database.empty)).1.view.tables.keys :=
    exists_ok_of_any (by decide +kernel)
  refine ⟨plan, hplan, hresult, hkeys, fun h => ?_⟩
  cases hr : apply exampleEngine optimizeFails false plan .safeOnly (.idle Database.empty) with
  | mk c o =>
    rw [hr] at h hresult hkeys
    obtain rfl : o = .error (.sqlite "database is locked") := hresult
    obtain rfl : c = .idle Database.empty := h
    exact absurd hkeys (by decide)

end Seekwel
