import Seekwel.AppliedSchema
import Seekwel.DataLoss
import Seekwel.ManagedScope

/-!
# Runs of safe plans

A plan that is applied as `SafeOnly` neither drops nor rebuilds a table.
Over a whole run of such plans, in whatever order they were built and
whichever of them fail, nothing of what the database held at first is lost:
its tables are there with their columns, their rows are there in the same
order with all their values, and so is every index, trigger and view that
seekwel did not make (`safe_run_keeps`).

What a step keeps is a preorder on databases (`Retains`), so it is enough to
look at single operations. Only the history table is left out, which
receives a row with every plan.
-/

namespace Seekwel

open Savepoint (Conn)

/-- **A table that is kept** with its columns, rows and values. -/
structure SqliteTable.KeptAs (t t' : SqliteTable) : Prop where
  columns : ∀ c ∈ t.columns, c ∈ t'.columns
  rows : ∃ f : Row → Row, t'.rows = t.rows.map f
    ∧ ∀ row, ∀ c ∈ t.columns, (f row).get c.name = row.get c.name

/-- **A database that keeps what another one holds.** -/
structure Retains (db db' : Database) : Prop where
  tables : ∀ n t, n ≠ historyTable → db.tables.get? n = some t →
    ∃ t', db'.tables.get? n = some t' ∧ t.KeptAs t'
  objects : ∀ o ∈ db.objects, o.Foreign → o ∈ db'.objects

theorem SqliteTable.KeptAs.refl (t : SqliteTable) : t.KeptAs t :=
  ⟨fun _ hc => hc, id, (List.map_id _).symm, fun _ _ _ => rfl⟩

theorem SqliteTable.KeptAs.trans {t t' t'' : SqliteTable} (h : t.KeptAs t') (h' : t'.KeptAs t'') :
    t.KeptAs t'' := by
  obtain ⟨hcolumns, f, hrows, hf⟩ := h
  obtain ⟨hcolumns', g, hrows', hg⟩ := h'
  refine ⟨fun c hc => hcolumns' c (hcolumns c hc), g ∘ f, ?_, fun row c hc => ?_⟩
  · rw [hrows', hrows, List.map_map]
  · exact (hg (f row) c (hcolumns c hc)).trans (hf row c hc)

theorem Retains.refl (db : Database) : Retains db db :=
  ⟨fun _ t _ ht => ⟨t, ht, .refl t⟩, fun _ ho _ => ho⟩

theorem Retains.trans {db db' db'' : Database} (h : Retains db db') (h' : Retains db' db'') :
    Retains db db'' := by
  refine ⟨fun n t hn ht => ?_, fun o ho hforeign => ?_⟩
  · obtain ⟨t', ht', hkept⟩ := h.tables n t hn ht
    obtain ⟨t'', ht'', hkept'⟩ := h'.tables n t' hn ht'
    exact ⟨t'', ht'', hkept.trans hkept'⟩
  · exact h'.objects o (h.objects o ho hforeign) hforeign

section Plans

variable {e : Engine} {db db' : Database}

/-- Where only the history table changes. -/
theorem Retains.of_get? (hobjects : db'.objects = db.objects)
    (htables : ∀ n, n ≠ historyTable → db'.tables.get? n = db.tables.get? n) : Retains db db' :=
  ⟨fun n t hn ht => ⟨t, (htables n hn).trans ht, .refl t⟩, fun _ ho _ => hobjects ▸ ho⟩

theorem objects_recordSuccess {planId sourceFingerprint targetFingerprint : String}
    {target : SchemaDef}
    (h : e.execAll db (recordSuccess planId sourceFingerprint targetFingerprint target)
      = .ok db') : db'.objects = db.objects := by
  obtain ⟨mid, hensure, hrest⟩ := execAll_cons h
  obtain ⟨last, hinsert, hnil⟩ := execAll_cons hrest
  obtain rfl : last = db' := Except.ok.inj hnil
  obtain ⟨t, t', -, -, rfl⟩ := exec_insertHistory hinsert
  obtain rfl | ⟨-, rfl⟩ := exec_ensureHistoryTable hensure
  · rfl
  · rfl

/-- **A safe operation**: it does not discard data, and an index it drops
has a managed name. -/
def PlanOp.IsSafe (op : PlanOp) : Prop :=
  op.isDestructive = false ∧ ∀ i ∈ op.dropped, isManagedIndexName i.name = true

/-- **A safe operation keeps everything.** -/
theorem keeps_op {actual : LiveSchema} {op : PlanOp} (hsafe : op.IsSafe)
    (h : e.execSteps db (op.steps actual) = .ok db') : Retains db db' := by
  obtain ⟨hchanges, hframe⟩ := execSteps_op h
  refine ⟨fun n t _ ht => ?_, fun o ho hforeign => ?_⟩
  · by_cases hn : n = op.tableName
    · subst hn
      rw [ht] at hchanges
      obtain ⟨t', f, ht', hcolumns, hrows, hf⟩ := kept_of_op hsafe.1 hchanges
      exact ⟨t', ht', hcolumns, f, hrows, hf⟩
    · exact ⟨t, (hframe n hn).trans ht, .refl t⟩
  · cases op with
    | createTable table =>
      obtain ⟨mid, hcreate, h⟩ := execAll_cons (execSteps_map_run h)
      obtain ⟨-, rfl⟩ := exec_createTable hcreate
      rw [objects_createIndexes h]
      exact List.mem_append_left _ ho
    | addColumn n column =>
      obtain ⟨mid, hadd, hnil⟩ := execSteps_run h
      obtain rfl : mid = db' := Except.ok.inj hnil
      obtain ⟨t, -, -, rfl⟩ := exec_addColumn hadd
      exact ho
    | createIndex n index =>
      obtain ⟨mid, hcreate, hnil⟩ := execSteps_run h
      obtain rfl : mid = db' := Except.ok.inj hnil
      obtain ⟨-, rfl⟩ := exec_createIndex hcreate
      exact List.mem_append_left _ ho
    | dropIndex n index =>
      obtain ⟨mid, hdrop, hnil⟩ := execSteps_run h
      obtain rfl : mid = db' := Except.ok.inj hnil
      obtain rfl := exec_dropIndex hdrop
      have hmanaged : isManagedIndexName index.name = true := hsafe.2 index rfl
      refine List.mem_filter.mpr ⟨ho, ?_⟩
      -- a foreign index does not have the managed name
      by_cases hkind : o.kind = .index
      · have hname : o.name ≠ index.name := by
          intro hname
          rw [← hname, hforeign hkind] at hmanaged
          cases hmanaged
        simp [hname]
      · simp [hkind]
    | rebuildTable n fromDef toDef reasons => cases hsafe.1
    | dropTable table => cases hsafe.1

theorem keeps_ops {actual : LiveSchema} {ops : List PlanOp} (hsafe : ∀ op ∈ ops, op.IsSafe)
    (h : e.execSteps db (ops.flatMap (PlanOp.steps actual)) = .ok db') : Retains db db' := by
  induction ops generalizing db with
  | nil =>
    obtain rfl : db = db' := Except.ok.inj h
    exact .refl db
  | cons op ops ih =>
    rw [List.flatMap_cons] at h
    obtain ⟨mid, hop, h⟩ := execSteps_append h
    exact (keeps_op (hsafe op List.mem_cons_self) hop).trans
      (ih (fun op hop => hsafe op (List.mem_cons_of_mem _ hop)) h)

variable {faults : Faults} {active : Bool} {plan : Plan}

/-- **A plan that was applied as `SafeOnly`** keeps everything. -/
theorem commits_keeps (hc : Commits e faults active plan .safeOnly db db')
    (ht : plan.target.WellFormed) : Retains db db' := by
  obtain ⟨ready, ran, hready, hran, hrecord⟩ := commits_applied hc
  obtain ⟨current, hchecked⟩ := hc.checked
  obtain ⟨hdiff, -, hops, -, hsafe⟩ := checkPlan_eq_ok hchecked
  have hk := introspectManaged_keyed db (planScope plan)
  have hsafe : ∀ op ∈ plan.ops, op.IsSafe := by
    intro op hop
    rw [← hops] at hop
    refine ⟨hsafe rfl op hop, fun i hi => ?_⟩
    cases (mem_diff_ops_iff_asked ht hk hdiff).mp hop with
    | dropIndex _ ha _ hindex _ =>
      obtain rfl := Option.some.inj hi
      exact (index_introspected ha hindex).2
    | _ => cases hi
  have hensured : Retains db ready := by
    obtain rfl | ⟨-, rfl⟩ := exec_ensureHistoryTable hready
    · exact .refl ready
    · exact .of_get? rfl fun n hn => SortedMap.get?_insert_of_ne _ _ hn
  exact (hensured.trans (keeps_ops hsafe hran)).trans
    (.of_get? (objects_recordSuccess hrecord) fun n hn => get?_recordSuccess hrecord hn)

end Plans

/-! ## Runs -/

/-- A call that applies no destructive plan. -/
def Call.IsSafe : Call → Prop
  | .build _ => True
  | .apply _ mode _ => mode = .safeOnly

/-- A safe call keeps everything, and the targets of the plans stay
normalized. -/
theorem keeps_call {e : Engine} {w : World} {call : Call} (hsafe : call.IsSafe)
    (htargets : ∀ plan ∈ w.plans, plan.target.normalized = .ok plan.target) :
    Retains w.db (w.call e call).db
      ∧ ∀ plan ∈ (w.call e call).plans, plan.target.normalized = .ok plan.target := by
  cases call with
  | build builder =>
    unfold World.call
    dsimp only
    cases hb : builder.build with
    | error error => exact ⟨.refl _, htargets⟩
    | ok target =>
      dsimp only
      cases hplan : Plan.build e target w.db with
      | error error => exact ⟨.refl _, htargets⟩
      | ok plan =>
        refine ⟨.refl _, fun p hp => ?_⟩
        obtain hp | hp := List.mem_append.mp hp
        · exact htargets p hp
        · obtain rfl := List.mem_singleton.mp hp
          rw [(build_eq_ok hplan).1]
          exact SchemaDef.normalized_normalized hb
  | apply k mode faults =>
    obtain rfl : mode = .safeOnly := hsafe
    unfold World.call
    dsimp only
    cases hk : w.plans[k]? with
    | none => exact ⟨.refl _, htargets⟩
    | some plan =>
      dsimp only
      obtain ⟨⟨o, happly, -⟩, -⟩ | ⟨db', hc, happly⟩ :=
        apply_cases e faults false plan .safeOnly w.db
      · rw [happly]
        exact ⟨.refl _, htargets⟩
      · rw [happly]
        exact ⟨commits_keeps hc (SchemaDef.wellFormed_of_normalized
          (htargets plan (List.mem_of_getElem? hk))), htargets⟩

/-- **A run that applies plans as `SafeOnly` loses nothing**, from any
database and whatever fails. -/
theorem safe_run_keeps (e : Engine) {w : World} {calls : List Call}
    (htargets : ∀ plan ∈ w.plans, plan.target.normalized = .ok plan.target)
    (hsafe : ∀ call ∈ calls, call.IsSafe) : Retains w.db (w.run e calls).db := by
  induction calls generalizing w with
  | nil => exact .refl w.db
  | cons call calls ih =>
    obtain ⟨hkeeps, htargets⟩ := keeps_call (e := e) (hsafe call List.mem_cons_self) htargets
    exact hkeeps.trans (ih htargets fun call hcall => hsafe call (List.mem_cons_of_mem _ hcall))

/-- The table of users with a row, before seekwel is used on it. -/
def writtenUsers : Database :=
  Database.empty.setTable "users"
    { (usersTable ["name"]).declaredTable "users" with
      rows := [[("id", .integer 1), ("name", .text "Ada")]] }

/-- The users receive an address. -/
def addAddress : List Call :=
  [.build ⟨[usersTable ["address", "name"]]⟩, .apply 0 .safeOnly Faults.none]

theorem users_keep_names :
    ∃ t', (World.run exampleEngine ⟨writtenUsers, []⟩ addAddress).db.tables.get? "users" = some t'
      ∧ t'.hasColumn "address" = true ∧ t'.rows.map (fun row => row.get "name") = [.text "Ada"] := by
  have hsafe : ∀ call ∈ addAddress, call.IsSafe :=
    List.forall_mem_cons.mpr ⟨trivial, List.forall_mem_singleton.mpr rfl⟩
  have hkeeps := safe_run_keeps exampleEngine (w := ⟨writtenUsers, []⟩)
    (fun plan hplan => absurd hplan List.not_mem_nil) hsafe
  obtain ⟨t', ht', -, f, hrows, hf⟩ := hkeeps.tables "users" _ (by decide)
    (SortedMap.get?_insert_self _ _ _)
  have haddress : ((World.run exampleEngine ⟨writtenUsers, []⟩ addAddress).db.tables.get?
      "users").map (fun t => t.hasColumn "address") = some true := by decide +kernel
  rw [ht'] at haddress
  refine ⟨t', ht', Option.some.inj haddress, ?_⟩
  have hname := hf [("id", .integer 1), ("name", .text "Ada")]
    ⟨"name", "TEXT", false, none, 0, 0⟩ (by decide)
  rw [hrows, List.map_map]
  exact congrArg (fun v => [v]) hname

end Seekwel
