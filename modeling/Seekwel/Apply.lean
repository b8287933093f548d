import Mathlib.Data.List.Dedup
import Seekwel.Diff
import Seekwel.History
import Seekwel.Savepoint

/-!
# Building and applying plans

`Plan.build` compares the target with the live database and records the
comparison. `apply` makes the comparison again, refuses the plan unless it
still comes out the same (`checkPlan`), and then runs the statements of the
operations, the integrity check and the history record inside one
transaction (`immediateTransaction`, `closureSteps`).

Which statements fail is an argument (`Faults`): reading the catalog,
`BEGIN IMMEDIATE`, any step of the closure, `COMMIT`, and the
`PRAGMA optimize` after the transaction. A step of the closure may also
panic.
-/

namespace Seekwel

open Savepoint (Conn)

/-! ## Scopes -/

/-- The names of a list, each once and in order. -/
def nameSet (names : List String) : List String := sortBy id names.dedup

@[simp] theorem mem_nameSet {names : List String} {n : String} :
    n ∈ nameSet names ↔ n ∈ names := by
  rw [nameSet, mem_sortBy, List.mem_dedup]

/-- The tables a plan is about when it is built: those of the target and
those of the target applied last. -/
def managedScope (db : Database) (target : SchemaDef) : Except Error (List String) :=
  match loadLatestTargetSchema db with
  | .error e => .error e
  | .ok none => .ok (nameSet target.tableNames)
  | .ok (some previous) => .ok (nameSet (target.tableNames ++ previous.tableNames))

/-- The tables a plan is about when it is applied: those it found and those
of its target. -/
def planScope (plan : Plan) : List String :=
  nameSet (plan.source.tableNames ++ plan.target.tableNames)

/-! ## Building -/

/-- **Building a plan** for a target. -/
def Plan.build (e : Engine) (target : SchemaDef) (db : Database) : Except Error Plan :=
  match managedScope db target with
  | .error err => .error err
  | .ok scope =>
    match diff target (introspectManaged db scope) with
    | .error err => .error err
    | .ok r =>
      let plan : Plan := {
        artifactVersion := Seekwel.artifactVersion
        source := r.source
        target := target
        sourceFingerprint := r.source.fingerprint
        targetFingerprint := target.fingerprint
        ops := r.ops
        blockers := r.blockers
        planId := "" }
      .ok { plan with planId := plan.computePlanId e.debugOp e.debugBlocker }

/-! ## Checking -/

/-- **The checks before anything is changed**: the live schema is the one
the plan was made for, the comparison comes out the same, nothing blocks it
and the mode allows it. -/
def checkPlan (plan : Plan) (mode : ApplyMode) (actual : LiveSchema) :
    Except Error DiffResult :=
  match diff plan.target actual with
  | .error e => .error e
  | .ok current =>
    if current.source.fingerprint ≠ plan.sourceFingerprint then
      .error (.schemaDrift ("expected source fingerprint " ++ plan.sourceFingerprint
        ++ ", found " ++ current.source.fingerprint))
    else if current.ops ≠ plan.ops then
      .error (.schemaBlocked ("live schema still matches the same source fingerprint, "
        ++ "but the planned operations changed; rebuild a fresh plan before applying"))
    else if current.blockers ≠ [] then
      .error (.schemaBlocked (formatBlockers current.blockers))
    else if mode = .safeOnly ∧ current.ops.any PlanOp.isDestructive then
      .error (.schemaBlocked ("plan contains destructive operations; "
        ++ "re-run apply with ApplyMode::AllowDestructive"))
    else .ok current

/-! ## The statements of an operation -/

/-- The statements that create a table and its indexes. -/
def createTable (tableName : String) (table : TableDef) : List Statement :=
  .createTable tableName table :: table.indexes.map (.createIndex tableName)

/-- The statements that rebuild a table: create it under a temporary name,
copy the rows, drop the old table, take over its name, create the indexes
and run the stored statements again. -/
def rebuildTable (tableName : String) (fromDef toDef : TableDef) (actual : ActualTable) :
    List Statement :=
  [.createTable (rebuildName tableName) toDef,
    .copyRows tableName (rebuildName tableName) (retainedColumns fromDef toDef),
    .dropTable tableName,
    .renameTable (rebuildName tableName) tableName]
  ++ toDef.indexes.map (.createIndex tableName)
  ++ actual.replaySql.map (fun replay => .replay replay.sql)

/-- A step of the transaction: a statement, or giving up. -/
inductive Step where
  | run (statement : Statement)
  | stop (error : Error)
  deriving DecidableEq

/-- The steps of an operation. -/
def PlanOp.steps (actual : LiveSchema) : PlanOp → List Step
  | .createTable table => (Seekwel.createTable table.name table).map .run
  | .addColumn table column => [.run (.addColumn table column)]
  | .createIndex table index => [.run (.createIndex table index)]
  | .dropIndex _ index => [.run (.dropIndex index)]
  | .rebuildTable table fromDef toDef _ =>
    match actual.get? table with
    | none =>
      [.stop (.schemaBlocked
        ("table `" ++ table ++ "` disappeared before rebuild could run"))]
    | some a => (Seekwel.rebuildTable table fromDef toDef a).map .run
  | .dropTable table => [.run (.dropTable table.name)]

/-- **The steps of the transaction.** -/
def closureSteps (plan : Plan) (actual : LiveSchema) (ops : List PlanOp) : List Step :=
  .run .ensureHistoryTable :: ops.flatMap (PlanOp.steps actual)
  ++ .run .integrityCheck :: (recordSuccess plan.planId plan.sourceFingerprint
      plan.targetFingerprint plan.target).map .run

/-! ## Running -/

/-- How a step goes wrong. -/
inductive Fault where
  | fails (message : String)
  | panics (payload : String)

/-- **What goes wrong** while a plan is applied. -/
structure Faults where
  /-- A statement that reads the catalog fails. -/
  introspect : Option String
  /-- `BEGIN IMMEDIATE` fails. -/
  begin : Option String
  /-- What happens at each step of the transaction. -/
  closure : ℕ → Option Fault
  /-- `COMMIT` fails. -/
  commit : Option String
  /-- `PRAGMA optimize` fails. -/
  optimize : Option String

/-- Nothing goes wrong. -/
def Faults.none : Faults := ⟨.none, .none, fun _ => .none, .none, .none⟩

/-- Running steps on a database, one after the other. -/
def Engine.runSteps (e : Engine) (faults : ℕ → Option Fault) (k : ℕ) :
    List Step → Database → Database × Outcome Unit
  | [], db => (db, .ok ())
  | step :: rest, db =>
    match faults k with
    | some (.fails message) => (db, .error (.sqlite message))
    | some (.panics payload) => (db, .panic payload)
    | none =>
      match step with
      | .stop error => (db, .error error)
      | .run statement =>
        match e.exec db statement with
        | .error error => (db, .error error)
        | .ok db' => e.runSteps faults (k + 1) rest db'

/-- `ROLLBACK`, whose own failure is ignored. -/
def rollback (c : Conn Database) : Conn Database := c.rollback.getD c

/-- **Running a closure inside a transaction**: committed if it returns a
value, rolled back if it returns an error or panics. -/
def immediateTransaction {α : Type} (beginFault commitFault : Option String)
    (f : Database → Database × Outcome α) (c : Conn Database) :
    Conn Database × Outcome α :=
  match beginFault, c.begin with
  | some message, _ => (c, .error (.sqlite message))
  | none, none => (c, .error (.sqlite "cannot start a transaction within a transaction"))
  | none, some c =>
    let result := f c.view
    let c := c.put result.1
    match result.2 with
    | .ok value =>
      match commitFault, c.commit with
      | some message, _ => (rollback c, .error (.sqlite message))
      | none, none => (rollback c, .error (.sqlite "cannot commit - no transaction is active"))
      | none, some c => (c, .ok value)
    | .error error => (rollback c, .error error)
    | .panic payload => (rollback c, .panic payload)

/-- **Applying a plan.** -/
def apply (e : Engine) (faults : Faults) (transactionActive : Bool) (plan : Plan)
    (mode : ApplyMode) (c : Conn Database) : Conn Database × Outcome Unit :=
  if transactionActive then
    (c, .error (.invalidSchema "exclusive schema operations cannot run inside a transaction"))
  else
    match faults.introspect with
    | some message => (c, .error (.sqlite message))
    | none =>
      let actual := introspectManaged c.view (planScope plan)
      match checkPlan plan mode actual with
      | .error error => (c, .error error)
      | .ok current =>
        match immediateTransaction faults.begin faults.commit
            (e.runSteps faults.closure 0 (closureSteps plan actual current.ops)) c with
        | (c, .ok ()) =>
          match faults.optimize with
          | some message => (c, .error (.sqlite message))
          | none => (c, .ok ())
        | r => r

/-! ## What applying a plan comes to -/

section Apply

variable {e : Engine} {faults : Faults} {active : Bool} {plan : Plan} {mode : ApplyMode}
  {db : Database}

/-- A plan that was built has the target it was built for, and records the
comparison of the target with the tables of its scope. -/
theorem build_eq_ok {target : SchemaDef} (h : Plan.build e target db = .ok plan) :
    plan.target = target ∧ plan.sourceFingerprint = plan.source.fingerprint
      ∧ ∃ scope, managedScope db target = .ok scope
        ∧ diff target (introspectManaged db scope)
          = .ok ⟨plan.source, plan.ops, plan.blockers⟩ := by
  unfold Plan.build at h
  split at h
  · cases h
  · rename_i scope hscope
    split at h
    · cases h
    · rename_i r hr
      cases h
      exact ⟨rfl, rfl, scope, hscope, hr⟩

/-- The checks pass only for the comparison that the live schema gives,
which has the operations of the plan and no blockers. -/
theorem checkPlan_eq_ok {actual : LiveSchema} {current : DiffResult}
    (h : checkPlan plan mode actual = .ok current) :
    diff plan.target actual = .ok current
      ∧ current.source.fingerprint = plan.sourceFingerprint ∧ current.ops = plan.ops
      ∧ current.blockers = []
      ∧ (mode = .safeOnly → ∀ op ∈ current.ops, op.isDestructive = false) := by
  unfold checkPlan at h
  split at h
  · cases h
  · rename_i r hr
    split_ifs at h with hfp hops hblock hmode
    cases h
    refine ⟨hr, not_not.mp hfp, not_not.mp hops, not_not.mp hblock, fun hm op hop => ?_⟩
    by_contra hdestructive
    exact hmode ⟨hm, List.any_eq_true.mpr ⟨op, hop, by simpa using hdestructive⟩⟩

/-- **A transaction on an idle connection** commits what its closure leaves
behind, or leaves the connection as it was. -/
theorem immediateTransaction_idle {α : Type} (beginFault commitFault : Option String)
    (f : Database → Database × Outcome α) :
    immediateTransaction beginFault commitFault f (.idle db)
      = match beginFault, f db, commitFault with
        | some message, _, _ => (.idle db, .error (.sqlite message))
        | none, (_, .error error), _ => (.idle db, .error error)
        | none, (_, .panic payload), _ => (.idle db, .panic payload)
        | none, (_, .ok _), some message => (.idle db, .error (.sqlite message))
        | none, (db', .ok value), none => (.idle db', .ok value) := by
  cases beginFault with
  | some message => rfl
  | none =>
    unfold immediateTransaction
    simp only [Conn.begin_idle, Conn.view_inside]
    obtain ⟨db', o⟩ := f db
    cases o with
    | error error => rfl
    | panic payload => rfl
    | ok value =>
      cases commitFault with
      | some message => rfl
      | none => rfl

/-- The transaction of a plan goes through: the checks pass, no statement
before the end of the transaction fails, and the closure leaves `db'`. -/
structure Commits (e : Engine) (faults : Faults) (active : Bool) (plan : Plan)
    (mode : ApplyMode) (db db' : Database) : Prop where
  inactive : active = false
  introspect : faults.introspect = none
  begin : faults.begin = none
  commit : faults.commit = none
  checked : ∃ current,
    checkPlan plan mode (introspectManaged db (planScope plan)) = .ok current
  ran : e.runSteps faults.closure 0
    (closureSteps plan (introspectManaged db (planScope plan)) plan.ops) db = (db', .ok ())

/-- **What applying a plan comes to.** Either nothing is changed and an
error or a panic reported, or the transaction is committed; then only
`PRAGMA optimize` can still fail. -/
theorem apply_cases (e : Engine) (faults : Faults) (active : Bool) (plan : Plan)
    (mode : ApplyMode) (db : Database) :
    ((∃ o, apply e faults active plan mode (.idle db) = (.idle db, o) ∧ o ≠ .ok ())
        ∧ ∀ db', ¬ Commits e faults active plan mode db db')
      ∨ ∃ db', Commits e faults active plan mode db db'
        ∧ apply e faults active plan mode (.idle db) = (.idle db',
            match faults.optimize with
            | some message => .error (.sqlite message)
            | none => .ok ()) := by
  unfold apply
  by_cases hactive : active = true
  · rw [if_pos hactive]
    refine Or.inl ⟨⟨_, rfl, by simp⟩, fun db' h => ?_⟩
    rw [h.inactive] at hactive
    cases hactive
  · rw [if_neg hactive]
    cases hintro : faults.introspect with
    | some message =>
      refine Or.inl ⟨⟨_, rfl, by simp⟩, fun db' h => ?_⟩
      rw [h.introspect] at hintro
      cases hintro
    | none =>
      dsimp only
      rw [show (Conn.idle db).view = db from rfl]
      cases hcheck : checkPlan plan mode (introspectManaged db (planScope plan)) with
      | error error =>
        refine Or.inl ⟨⟨_, rfl, by simp⟩, fun db' h => ?_⟩
        obtain ⟨current, hcurrent⟩ := h.checked
        rw [hcheck] at hcurrent
        cases hcurrent
      | ok current =>
        dsimp only
        rw [immediateTransaction_idle, (checkPlan_eq_ok hcheck).2.2.1]
        cases hbegin : faults.begin with
        | some message =>
          refine Or.inl ⟨⟨_, rfl, by simp⟩, fun db' h => ?_⟩
          rw [h.begin] at hbegin
          cases hbegin
        | none =>
          cases hrun : e.runSteps faults.closure 0
              (closureSteps plan (introspectManaged db (planScope plan)) plan.ops) db with
          | mk db' o =>
            cases o with
            | error error =>
              refine Or.inl ⟨⟨_, rfl, by simp⟩, fun db'' h => ?_⟩
              have := h.ran
              rw [hrun] at this
              cases (Prod.mk.inj this).2
            | panic payload =>
              refine Or.inl ⟨⟨_, rfl, by simp⟩, fun db'' h => ?_⟩
              have := h.ran
              rw [hrun] at this
              cases (Prod.mk.inj this).2
            | ok value =>
              cases hcommit : faults.commit with
              | some message =>
                refine Or.inl ⟨⟨_, rfl, by simp⟩, fun db'' h => ?_⟩
                rw [h.commit] at hcommit
                cases hcommit
              | none =>
                refine Or.inr ⟨db', ⟨by simpa using hactive, hintro, hbegin, hcommit,
                  ⟨current, hcheck⟩, hrun⟩, ?_⟩
                cases hopt : faults.optimize with
                | some message => rfl
                | none => rfl

end Apply

end Seekwel
