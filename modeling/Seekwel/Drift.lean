import Mathlib.Logic.Relation
import Seekwel.Execution

/-!
# What is checked and what is changed

`apply` taken apart into its steps, run against another process that may
commit to the same database between any two of them, except while the
transaction of `apply` is open.

Whether the schema that was checked is the schema that is changed depends
on what the other process does between the reading of the catalog and
`BEGIN IMMEDIATE`. If it leaves the tables of the plan alone then, an `apply`
that succeeds ran its first operation on the source schema of the plan
(`drift_free`). The checks themselves do not ensure this
(`drift_undetected`): they are made before the transaction begins and not
repeated inside it.
-/

namespace Seekwel

/-! ## The steps of `apply` -/

/-- Where an `apply` stands. -/
inductive Phase where
  | start
  /-- The catalog has been read. -/
  | introspected (actual : LiveSchema)
  /-- The checks have passed. -/
  | checked (actual : LiveSchema) (ops : List PlanOp)
  /-- The transaction has begun. -/
  | begun (working : Database) (actual : LiveSchema) (ops : List PlanOp)
  /-- The history table is there, and the steps are being run. -/
  | running (working : Database) (rest : List Step)
  | committed
  | returned (result : Except Error Unit)
  deriving DecidableEq

/-- The committed database, where `apply` stands, and the database on which
it ran its first operation. -/
structure Machine where
  db : Database
  phase : Phase
  firstOp : Option Database
  deriving DecidableEq

/-- What happens next. -/
inductive Event where
  /-- Another process commits. -/
  | external (db : Database)
  /-- `apply` takes its next step. -/
  | advance
  /-- The next statement of `apply` fails. -/
  | fails (error : Error)

/-- The steps after the history table was ensured. -/
def opSteps (plan : Plan) (actual : LiveSchema) (ops : List PlanOp) : List Step :=
  ops.flatMap (PlanOp.steps actual)
  ++ .run .integrityCheck :: (recordSuccess plan.planId plan.sourceFingerprint
      plan.targetFingerprint plan.target).map .run

section Machine

variable (e : Engine) (plan : Plan) (mode : ApplyMode)

/-- The next step of `apply`. -/
def Machine.advance (m : Machine) : Option Machine :=
  match m.phase with
  | .start =>
    some { m with phase := .introspected (introspectManaged m.db (planScope plan)) }
  | .introspected actual =>
    match checkPlan plan mode actual with
    | .error error => some { m with phase := .returned (.error error) }
    | .ok current => some { m with phase := .checked actual current.ops }
  | .checked actual ops => some { m with phase := .begun m.db actual ops }
  | .begun working actual ops =>
    match e.exec working .ensureHistoryTable with
    | .error error => some { m with phase := .returned (.error error) }
    | .ok working =>
      some { m with
        phase := .running working (opSteps plan actual ops)
        firstOp := if ops = [] then none else some working }
  | .running _ (.stop error :: _) => some { m with phase := .returned (.error error) }
  | .running working (.run statement :: rest) =>
    match e.exec working statement with
    | .error error => some { m with phase := .returned (.error error) }
    | .ok working => some { m with phase := .running working rest }
  | .running working [] => some { m with db := working, phase := .committed }
  | .committed => some { m with phase := .returned (.ok ()) }
  | .returned _ => none

/-- The effect of an event; `none` if it cannot happen. -/
def Machine.step (m : Machine) : Event → Option Machine
  | .external db =>
    match m.phase with
    | .begun .. => none
    | .running .. => none
    | _ => some { m with db := db }
  | .advance => m.advance e plan mode
  | .fails error =>
    match m.phase with
    | .returned _ => none
    | _ => some { m with phase := .returned (.error error) }

/-- A run of events. -/
def Machine.run (m : Machine) : List Event → Option Machine
  | [] => some m
  | event :: events => (m.step e plan mode event).bind (fun m => Machine.run m events)

/-- `apply` before its first step. -/
def Machine.initial (db : Database) : Machine := ⟨db, .start, none⟩

/-- The live schema of the tables of the plan. -/
def liveSource (db : Database) : Except Error SchemaDef :=
  (LiveSchema.source (introspectManaged db (planScope plan))).normalized

/-- Whether the catalog has been read and the transaction not begun. -/
def Phase.awaitsBegin : Phase → Bool
  | .introspected _ => true
  | .checked _ _ => true
  | _ => false

/-- The catalog that is about to be checked. -/
def Phase.read : Phase → Option LiveSchema
  | .introspected actual => some actual
  | _ => none

/-- **The condition on an event**: after the catalog was read and before the
transaction begins, another process leaves the live schema of the plan's
tables as it is. -/
def Event.Quiet (m : Machine) : Event → Prop
  | .external db => m.phase.awaitsBegin → liveSource plan db = liveSource plan m.db
  | _ => True

/-- The schema that was read has another fingerprint than the plan's source
if it is another schema. -/
def Machine.NoCollision (m : Machine) : Prop :=
  ∀ actual ∈ m.phase.read, ∀ s ∈ (LiveSchema.source actual).normalized.toOption,
    s.fingerprint = plan.source.fingerprint → s = plan.source

/-- The conditions on a run. -/
def RunQuiet (m : Machine) : List Event → Prop
  | [] => True
  | event :: events => event.Quiet plan m ∧ m.NoCollision plan
    ∧ ∀ m' ∈ m.step e plan mode event, RunQuiet m' events

instance (m : Machine) : (event : Event) → Decidable (event.Quiet plan m)
  | .external db => inferInstanceAs
      (Decidable (m.phase.awaitsBegin → liveSource plan db = liveSource plan m.db))
  | .advance => inferInstanceAs (Decidable True)
  | .fails _ => inferInstanceAs (Decidable True)

instance (m : Machine) : Decidable (m.NoCollision plan) :=
  inferInstanceAs (Decidable (∀ actual ∈ m.phase.read,
    ∀ s ∈ (LiveSchema.source actual).normalized.toOption, _ → _))

instance decidableRunQuiet (m : Machine) : (events : List Event) →
    Decidable (RunQuiet e plan mode m events)
  | [] => inferInstanceAs (Decidable True)
  | event :: events =>
    have (m' : Machine) : Decidable (RunQuiet e plan mode m' events) :=
      decidableRunQuiet m' events
    inferInstanceAs (Decidable (_ ∧ _ ∧ ∀ m' ∈ m.step e plan mode event, _))

/-! ## The invariant -/

/-- The checks passed, and the live schema is still the plan's source. -/
structure Checked (db : Database) (actual : LiveSchema) (ops : List PlanOp) : Prop where
  keyed : actual.Keyed
  diff : ∃ r, diff plan.target actual = .ok r ∧ r.source = plan.source ∧ r.ops = ops
  live : liveSource plan db = .ok plan.source

/-- **What holds at each step of a quiet run.** -/
def Machine.Inv (m : Machine) : Prop :=
  match m.phase with
  | .start => True
  | .introspected actual =>
    actual.Keyed ∧ (LiveSchema.source actual).normalized = liveSource plan m.db
  | .checked actual ops => Checked plan m.db actual ops
  | .begun working actual ops => working = m.db ∧ Checked plan m.db actual ops
  | .running working rest =>
    ∃ actual ops ready done, Checked plan m.db actual ops
      ∧ e.exec m.db .ensureHistoryTable = .ok ready ∧ (∀ d ∈ m.firstOp, d = ready)
      ∧ done ++ rest = opSteps plan actual ops ∧ e.execSteps ready done = .ok working
  | .committed => ∀ d ∈ m.firstOp, liveSource plan d = .ok plan.source
  | .returned (.ok _) => ∀ d ∈ m.firstOp, liveSource plan d = .ok plan.source
  | .returned (.error _) => True

end Machine

section Proofs

variable {e : Engine} {plan : Plan} {mode : ApplyMode}

/-- A table outside the scope does not matter for the live schema. -/
theorem liveSource_setTable {db : Database} {n : String} {t : SqliteTable}
    (hn : n ∉ planScope plan) : liveSource plan (db.setTable n t) = liveSource plan db := by
  have hmap : (introspectManaged (db.setTable n t) (planScope plan)).mapVal (·.table)
      = (introspectManaged db (planScope plan)).mapVal (·.table) := by
    refine SortedMap.ext_get? (fun m => ?_)
    rw [SortedMap.get?_mapVal, SortedMap.get?_mapVal, get?_introspectManaged,
      get?_introspectManaged]
    split_ifs with hm
    · have hne : m ≠ n := fun h => hn (h ▸ hm)
      have hget : (db.setTable n t).tables.get? m = db.tables.get? m :=
        SortedMap.get?_insert_of_ne _ _ hne
      have htable : ∀ sql, (introspectTable (db.setTable n t) m sql).table
          = (introspectTable db m sql).table := by
        intro sql
        unfold introspectTable tableColumns
        rw [hget]
        rfl
      rw [tableSql, tableSql, hget, Option.map_map, Option.map_map]
      exact congrArg (fun f => Option.map f _) (funext htable)
    · rfl
  unfold liveSource LiveSchema.source
  have hvalues : ∀ live : LiveSchema, live.values.map (·.table)
      = (live.mapVal (·.table)).values := by
    intro live
    simp [SortedMap.values, SortedMap.mapVal, Function.comp_def]
  rw [hvalues, hvalues, hmap]

/-- **Ensuring the history table does not change the live schema** of a plan
whose operations can be run afterwards. -/
theorem liveSource_ready (ht : plan.target.WellFormed) {db ready ran : Database}
    {actual : LiveSchema} {ops : List PlanOp} (hc : Checked plan db actual ops)
    (hensure : e.exec db .ensureHistoryTable = .ok ready)
    (hran : e.execSteps ready (opSteps plan actual ops) = .ok ran) :
    liveSource plan ready = .ok plan.source := by
  obtain rfl | ⟨hfree, rfl⟩ := exec_ensureHistoryTable hensure
  · exact hc.live
  by_cases hscope : historyTable ∈ planScope plan
  · -- the plan would have to create the table that was just created
    exfalso
    obtain ⟨r, hdiff, hsource, rfl⟩ := hc.diff
    have hnone : historyTable ∉ plan.source.tableNames := by
      rw [mem_source_tableNames (introspectManaged_keyed _ _) hc.live, SortedMap.mem_keys_iff]
      intro hex
      obtain ⟨a, ha⟩ := hex
      obtain ⟨-, t, -, hget, -⟩ := get?_introspectManaged_eq_some ha
      rw [Database.get?_eq_none_of_nameTaken hfree] at hget
      cases hget
    have hactual : actual.get? historyTable = none := by
      rw [SortedMap.get?_eq_none_iff,
        ← mem_source_tableNames hc.keyed ((diff_eq_ok hdiff).1), hsource]
      exact hnone
    have htarget : historyTable ∈ plan.target.tableNames := by
      rw [planScope, mem_nameSet, List.mem_append] at hscope
      exact hscope.resolve_left hnone
    obtain ⟨desired, hmem, hname⟩ := List.mem_map.mp htarget
    have hperm := diff_ops_on ht hc.keyed hdiff historyTable
    rw [diffPart, (get?_tableMap ht).mpr ⟨hmem, hname⟩] at hperm
    dsimp only at hperm
    rw [diffTarget, hactual] at hperm
    obtain ⟨mid, hops, -⟩ := execSteps_append hran
    have hchanges := execOps_changes hops historyTable
    rw [List.perm_singleton.mp hperm, Database.setTable_tables,
      SortedMap.get?_insert_self] at hchanges
    obtain ⟨mid, ⟨habsurd, -⟩, -⟩ := hchanges
    cases habsurd
  · rw [liveSource_setTable hscope]
    exact hc.live

theorem execSteps_snoc {db mid db' : Database} {done : List Step} {statement : Statement}
    (hdone : e.execSteps db done = .ok mid) (h : e.exec mid statement = .ok db') :
    e.execSteps db (done ++ [.run statement]) = .ok db' := by
  induction done generalizing db with
  | nil =>
    obtain rfl : db = mid := Except.ok.inj hdone
    show e.execSteps db [.run statement] = _
    rw [Engine.execSteps, h]
    rfl
  | cons step rest ih =>
    cases step with
    | stop error => cases hdone
    | run s =>
      obtain ⟨last, hlast, hrest⟩ := execSteps_run hdone
      rw [List.cons_append, Engine.execSteps, hlast]
      exact ih hrest

/-- The other process writes while no transaction is open. -/
theorem inv_external {m m' : Machine} {db' : Database} (h : m.Inv e plan)
    (hquiet : m.phase.awaitsBegin → liveSource plan db' = liveSource plan m.db)
    (hstep : m.step e plan mode (.external db') = some m') : m'.Inv e plan := by
  obtain ⟨db, phase, firstOp⟩ := m
  cases phase with
  | start =>
    cases hstep
    trivial
  | introspected actual =>
    cases hstep
    exact ⟨h.1, h.2.trans (Eq.symm (hquiet rfl))⟩
  | checked actual ops =>
    cases hstep
    exact ⟨h.keyed, h.diff, (show liveSource plan db' = _ from hquiet rfl).trans h.live⟩
  | begun working actual ops => cases hstep
  | running working rest => cases hstep
  | committed =>
    cases hstep
    exact h
  | returned result =>
    cases hstep
    cases result with
    | ok _ => exact h
    | error _ => trivial

/-- The checks let only the plan's source through. -/
theorem checked_of_checkPlan (hfp : plan.sourceFingerprint = plan.source.fingerprint)
    {db : Database} {actual : LiveSchema} {current : DiffResult}
    {firstOp : Option Database} (h : (Machine.mk db (.introspected actual) firstOp).Inv e plan)
    (hcoll : (Machine.mk db (.introspected actual) firstOp).NoCollision plan)
    (hcheck : checkPlan plan mode actual = .ok current) :
    Checked plan db actual current.ops := by
  obtain ⟨hdiff, hsame, -⟩ := checkPlan_eq_ok hcheck
  have hnormal := (diff_eq_ok hdiff).1
  have hsource : current.source = plan.source :=
    hcoll actual rfl current.source (by rw [hnormal]; rfl) (hsame.trans hfp)
  refine ⟨h.1, ⟨current, hdiff, hsource, rfl⟩, ?_⟩
  rw [← hsource, ← hnormal]
  exact h.2.symm

/-- A statement of the transaction, or its end. -/
theorem inv_running (ht : plan.target.WellFormed) {db working : Database} {rest : List Step}
    {firstOp : Option Database} {m' : Machine}
    (h : (Machine.mk db (.running working rest) firstOp).Inv e plan)
    (hstep : Machine.advance e plan mode ⟨db, .running working rest, firstOp⟩ = some m') :
    m'.Inv e plan := by
  obtain ⟨actual, ops, ready, done, hc, hensure, hfirst, hsteps, hdone⟩ := h
  cases rest with
  | nil =>
    cases hstep
    intro d hd
    rw [hfirst d hd]
    rw [List.append_nil] at hsteps
    rw [hsteps] at hdone
    exact liveSource_ready ht hc hensure hdone
  | cons step rest =>
    cases step with
    | stop error =>
      cases hstep
      trivial
    | run statement =>
      unfold Machine.advance at hstep
      dsimp only at hstep
      cases hexec : e.exec working statement with
      | error error =>
        rw [hexec] at hstep
        cases hstep
        trivial
      | ok working' =>
        rw [hexec] at hstep
        cases hstep
        refine ⟨actual, ops, ready, done ++ [.run statement], hc, hensure, hfirst, ?_,
          execSteps_snoc hdone hexec⟩
        rw [List.append_assoc]
        exact hsteps

/-- `apply` takes its next step. -/
theorem inv_advance (ht : plan.target.WellFormed)
    (hfp : plan.sourceFingerprint = plan.source.fingerprint) {m m' : Machine}
    (h : m.Inv e plan) (hcoll : m.NoCollision plan)
    (hstep : m.advance e plan mode = some m') : m'.Inv e plan := by
  obtain ⟨db, phase, firstOp⟩ := m
  cases phase with
  | start =>
    cases hstep
    exact ⟨introspectManaged_keyed _ _, rfl⟩
  | introspected actual =>
    unfold Machine.advance at hstep
    dsimp only at hstep
    cases hcheck : checkPlan plan mode actual with
    | error error =>
      rw [hcheck] at hstep
      cases hstep
      trivial
    | ok current =>
      rw [hcheck] at hstep
      cases hstep
      exact checked_of_checkPlan hfp h hcoll hcheck
  | checked actual ops =>
    cases hstep
    exact ⟨rfl, h⟩
  | begun working actual ops =>
    obtain ⟨rfl, hc⟩ : working = db ∧ Checked plan db actual ops := h
    unfold Machine.advance at hstep
    dsimp only at hstep
    cases hensure : e.exec working .ensureHistoryTable with
    | error error =>
      rw [hensure] at hstep
      cases hstep
      trivial
    | ok ready =>
      rw [hensure] at hstep
      cases hstep
      refine ⟨actual, ops, ready, [], hc, hensure, fun d hd => ?_, rfl, rfl⟩
      dsimp only at hd
      split_ifs at hd
      · cases hd
      · exact (Option.some.inj hd).symm
  | running working rest => exact inv_running ht h hstep
  | committed =>
    cases hstep
    exact h
  | returned result => cases hstep

/-- **Each step of a quiet run keeps the invariant.** -/
theorem inv_step (ht : plan.target.WellFormed)
    (hfp : plan.sourceFingerprint = plan.source.fingerprint) {m m' : Machine} {event : Event}
    (h : m.Inv e plan) (hquiet : event.Quiet plan m) (hcoll : m.NoCollision plan)
    (hstep : m.step e plan mode event = some m') : m'.Inv e plan := by
  cases event with
  | external db' => exact inv_external h hquiet hstep
  | advance => exact inv_advance ht hfp h hcoll hstep
  | fails error =>
    obtain ⟨db, phase, firstOp⟩ := m
    cases phase <;> cases hstep <;> trivial

theorem inv_run_machine (ht : plan.target.WellFormed)
    (hfp : plan.sourceFingerprint = plan.source.fingerprint) {events : List Event}
    {m m' : Machine} (h : m.Inv e plan) (hquiet : RunQuiet e plan mode m events)
    (hrun : m.run e plan mode events = some m') : m'.Inv e plan := by
  induction events generalizing m with
  | nil =>
    obtain rfl : m = m' := Option.some.inj hrun
    exact h
  | cons event events ih =>
    obtain ⟨mid, hmid, hrest⟩ := Option.bind_eq_some_iff.mp hrun
    exact ih (inv_step ht hfp h hquiet.1 hquiet.2.1 hmid) (hquiet.2.2 mid hmid) hrest

/-- **In a run in which the other process leaves the plan's tables alone
between the reading of the catalog and `BEGIN IMMEDIATE`**, an `apply` that
returns without an error ran its first operation on the plan's source
schema. -/
theorem drift_free {target : SchemaDef} {planned db : Database} {events : List Event}
    {m : Machine} (ht : target.normalized = .ok target)
    (hbuild : Plan.build e target planned = .ok plan)
    (hquiet : RunQuiet e plan mode (.initial db) events)
    (hrun : (Machine.initial db).run e plan mode events = some m)
    (hok : m.phase = .returned (.ok ())) :
    ∀ d ∈ m.firstOp, liveSource plan d = .ok plan.source := by
  obtain ⟨rfl, hfp, -⟩ := build_eq_ok hbuild
  have hinv := inv_run_machine (SchemaDef.wellFormed_of_normalized ht) hfp
    (m := .initial db) trivial hquiet hrun
  unfold Machine.Inv at hinv
  rw [hok] at hinv
  exact hinv

end Proofs

/-! ## Without another process -/

section Alone

variable {e : Engine} {plan : Plan} {mode : ApplyMode}

/-- `apply` takes steps and nothing else happens. -/
def Advances (e : Engine) (plan : Plan) (mode : ApplyMode) : Machine → Machine → Prop :=
  Relation.ReflTransGen (fun m m' => m.advance e plan mode = some m')

/-- The steps of the transaction are taken up to the first that fails. -/
theorem advances_running (db : Database) (firstOp : Option Database)
    {working last : Database} {steps : List Step} {k : ℕ} {o : Outcome Unit}
    (h : e.runSteps (fun _ => none) k steps working = (last, o)) :
    (o = .ok () ∧ Advances e plan mode ⟨db, .running working steps, firstOp⟩
        ⟨db, .running last [], firstOp⟩)
      ∨ ∃ error, o = .error error ∧ Advances e plan mode
        ⟨db, .running working steps, firstOp⟩ ⟨db, .returned (.error error), firstOp⟩ := by
  induction steps generalizing k working with
  | nil =>
    obtain ⟨rfl, rfl⟩ := Prod.mk.inj h
    exact Or.inl ⟨rfl, Relation.ReflTransGen.refl⟩
  | cons step rest ih =>
    rw [Engine.runSteps.eq_def] at h
    dsimp only at h
    cases step with
    | stop error =>
      obtain ⟨-, rfl⟩ := Prod.mk.inj h
      exact Or.inr ⟨error, rfl, Relation.ReflTransGen.single rfl⟩
    | run statement =>
      dsimp only at h
      cases hexec : e.exec working statement with
      | error error =>
        rw [hexec] at h
        obtain ⟨-, rfl⟩ := Prod.mk.inj h
        refine Or.inr ⟨error, rfl, Relation.ReflTransGen.single ?_⟩
        unfold Machine.advance
        dsimp only
        rw [hexec]
      | ok working' =>
        rw [hexec] at h
        have hfirst : Machine.advance e plan mode
            ⟨db, .running working (.run statement :: rest), firstOp⟩
            = some ⟨db, .running working' rest, firstOp⟩ := by
          unfold Machine.advance
          dsimp only
          rw [hexec]
        obtain ⟨ho, hrest⟩ | ⟨error, ho, hrest⟩ := ih h
        · exact Or.inl ⟨ho, hrest.head hfirst⟩
        · exact Or.inr ⟨error, ho, hrest.head hfirst⟩

/-- **Without another process the steps come to what `apply` comes to.** -/
theorem advances_apply (e : Engine) (plan : Plan) (mode : ApplyMode) (db : Database) :
    ∃ m r, Advances e plan mode (.initial db) m ∧ m.phase = .returned r
      ∧ apply e Faults.none false plan mode (.idle db) = (.idle m.db,
          match r with
          | .ok () => .ok ()
          | .error error => .error error) := by
  have hread : Advances e plan mode (.initial db)
      ⟨db, .introspected (introspectManaged db (planScope plan)), none⟩ :=
    Relation.ReflTransGen.single rfl
  unfold apply
  simp only [Faults.none, Bool.false_eq_true, if_false]
  rw [show (Savepoint.Conn.idle db).view = db from rfl]
  cases hcheck : checkPlan plan mode (introspectManaged db (planScope plan)) with
  | error error =>
    refine ⟨⟨db, .returned (.error error), none⟩, .error error, hread.tail ?_, rfl, rfl⟩
    unfold Machine.advance
    dsimp only
    rw [hcheck]
  | ok current =>
    have hchecked : Advances e plan mode (.initial db)
        ⟨db, .checked (introspectManaged db (planScope plan)) current.ops, none⟩ := by
      refine hread.tail ?_
      unfold Machine.advance
      dsimp only
      rw [hcheck]
    have hbegun : Advances e plan mode (.initial db)
        ⟨db, .begun db (introspectManaged db (planScope plan)) current.ops, none⟩ :=
      hchecked.tail rfl
    dsimp only
    rw [immediateTransaction_idle, show closureSteps plan (introspectManaged db (planScope plan))
      current.ops = .run .ensureHistoryTable :: opSteps plan
        (introspectManaged db (planScope plan)) current.ops from rfl, Engine.runSteps.eq_def]
    dsimp only
    cases hensure : e.exec db .ensureHistoryTable with
    | error error =>
      refine ⟨⟨db, .returned (.error error), none⟩, .error error, hbegun.tail ?_, rfl, rfl⟩
      unfold Machine.advance
      dsimp only
      rw [hensure]
    | ok ready =>
      obtain ⟨firstOp, hready⟩ : ∃ firstOp, Advances e plan mode (.initial db) ⟨db,
          .running ready (opSteps plan (introspectManaged db (planScope plan)) current.ops),
          firstOp⟩ := by
        refine ⟨if current.ops = [] then none else some ready, hbegun.tail ?_⟩
        unfold Machine.advance
        dsimp only
        rw [hensure]
      dsimp only
      cases hrun : e.runSteps (fun _ => none) (0 + 1)
          (opSteps plan (introspectManaged db (planScope plan)) current.ops) ready with
      | mk last o =>
        obtain ⟨rfl, hsteps⟩ | ⟨error, rfl, hsteps⟩ := advances_running db firstOp hrun
        · refine ⟨⟨last, .returned (.ok ()), firstOp⟩, .ok (), ?_, rfl, rfl⟩
          exact ((hready.trans hsteps).tail rfl).tail rfl
        · exact ⟨⟨db, .returned (.error error), firstOp⟩, .error error, hready.trans hsteps, rfl, rfl⟩

end Alone

/-! ## A drift that is not detected -/

/-- Another process commits after the checks have passed and before
`BEGIN IMMEDIATE`. -/
def lateChange (db : Database) : List Event :=
  [.advance, .advance, .external db] ++ List.replicate 8 .advance

/-- **A change that is not noticed**: the plan is checked against a table
without columns, another process adds one, and the plan is applied to the
table it left. -/
theorem drift_undetected :
    ∃ plan, Plan.build exampleEngine ⟨[usersTable ["name"]]⟩ (usersDatabase []) = .ok plan
      ∧ ∃ m ∈ (Machine.initial (usersDatabase [])).run exampleEngine plan .safeOnly
            (lateChange (usersDatabase ["age"])),
          m.phase = .returned (.ok ())
            ∧ ∃ d ∈ m.firstOp, liveSource plan d ≠ .ok plan.source :=
  exists_ok_of_any (by decide +kernel)

/-- A run in which the other process adds a table that the plan is not
about. -/
theorem drift_free_example :
    ∃ plan, Plan.build exampleEngine ⟨[usersTable ["name"]]⟩ (usersDatabase []) = .ok plan
      ∧ ∃ m ∈ (Machine.initial (usersDatabase [])).run exampleEngine plan .safeOnly
            (lateChange ((usersDatabase []).setTable "posts"
              ((usersTable []).declaredTable "posts"))),
          m.firstOp ≠ none ∧ ∀ d ∈ m.firstOp, liveSource plan d = .ok plan.source := by
  obtain ⟨plan, hplan, hquiet, m, hm, hok, hfirst⟩ : ∃ plan,
      Plan.build exampleEngine ⟨[usersTable ["name"]]⟩ (usersDatabase []) = .ok plan
        ∧ RunQuiet exampleEngine plan .safeOnly (.initial (usersDatabase []))
            (lateChange ((usersDatabase []).setTable "posts"
              ((usersTable []).declaredTable "posts")))
        ∧ ∃ m ∈ (Machine.initial (usersDatabase [])).run exampleEngine plan .safeOnly
              (lateChange ((usersDatabase []).setTable "posts"
                ((usersTable []).declaredTable "posts"))),
            m.phase = .returned (.ok ()) ∧ m.firstOp ≠ none :=
    exists_ok_of_any (by decide +kernel)
  exact ⟨plan, hplan, m, hm, hfirst, drift_free (by decide +kernel) hplan hquiet hm hok⟩

end Seekwel
