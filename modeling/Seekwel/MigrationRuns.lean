import Seekwel.AppliedSchema
import Seekwel.HistoryRoundTrip
import Seekwel.ManagedScope

/-!
# Runs of migrations

Over a run of `Plan::build` and `Plan::apply` calls, with plans that wait
while others are applied, with any failures, and with an application that
writes rows in between, the target recorded last is what the database has:
each of its tables is there and conforms to it, and a plan built for it is
empty (`run_has_schema`).

A database may forget tables (`managed_table_forgotten`), so nothing is
said about tables that the target does not have.
-/

namespace Seekwel

open Savepoint (Conn)

/-! ## Schemas that a database has -/

/-- **The database has a schema**: what is read of its tables conforms to
it. -/
def Database.HasSchema (db : Database) (s : SchemaDef) : Prop :=
  ∀ t ∈ s.tables, ∃ a, db.managed t.name = some a ∧ t.Conforms a ∧ a.WellFormed

/-- The database as it was when its rows are other ones. -/
def Database.setRows (db : Database) (n : String) (rows : List Row) : Database :=
  match db.tables.get? n with
  | none => db
  | some t => db.setTable n { t with rows := rows }

section HasSchema

variable {e : Engine} {db db' : Database} {s : SchemaDef}

/-- A comparison with the tables of a schema that the database has asks for
nothing. -/
theorem Database.HasSchema.diff_eq_nil (h : db.HasSchema s) (hs : s.WellFormed) {scope : List String}
    (hscope : ∀ n, n ∈ scope ↔ n ∈ s.tableNames) :
    ∃ r, diff s (introspectManaged db scope) = .ok r ∧ r.ops = [] ∧ r.blockers = [] := by
  have hk := introspectManaged_keyed db scope
  have hfound : ∀ {n a}, (introspectManaged db scope).get? n = some a →
      ∃ t ∈ s.tables, t.name = n ∧ t.Conforms a.table ∧ a.table.WellFormed := by
    intro n a ha
    obtain ⟨t, ht, rfl⟩ := List.mem_map.mp ((hscope n).mp (get?_introspectManaged_eq_some ha).1)
    obtain ⟨b, hb, hconforms, hwf⟩ := h t ht
    obtain rfl := Option.some.inj ((managed_of_get? ha).symm.trans hb)
    exact ⟨t, ht, rfl, hconforms, hwf⟩
  obtain ⟨source, hsource⟩ := source_normalized hk fun n a ha => by
    obtain ⟨-, -, -, -, hwf⟩ := hfound ha
    exact hwf
  have hdiff : ∃ r, diff s (introspectManaged db scope) = .ok r := by
    unfold diff
    rw [hsource]
    exact ⟨_, rfl⟩
  obtain ⟨r, hr⟩ := hdiff
  refine ⟨r, hr, (diff_eq_nil_iff hs hk hr).mpr fun n => ?_⟩
  by_cases hn : n ∈ s.tableNames
  · obtain ⟨t, ht, rfl⟩ := List.mem_map.mp hn
    obtain ⟨b, hb, -⟩ := h t ht
    have hmap := map_get?_introspectManaged db scope t.name
    rw [if_pos ((hscope _).mpr hn), hb] at hmap
    obtain ⟨a, ha, rfl⟩ := Option.map_eq_some_iff.mp hmap
    obtain ⟨t', ht', hname, hconforms, hwf⟩ := hfound ha
    obtain rfl := List.inj_on_of_nodup_map hs.nodup ht' ht hname
    rw [diffPart_of_mem hs ht, diffTarget_of_some ha]
    exact (diffTable_eq_nil_iff (hs.tables _ ht) hwf).mpr hconforms
  · have hnone : (introspectManaged db scope).get? n = none := by
      rw [get?_introspectManaged, if_neg fun hmem => hn ((hscope n).mp hmem)]
    unfold diffPart
    rw [(get?_tableMap_eq_none hs).mpr hn, hnone]

/-- **A plan for the target that was recorded and that the database has is
empty.** -/
theorem Database.HasSchema.build (h : db.HasSchema s) (hs : s.normalized = .ok s)
    (hlatest : loadLatestTargetSchema db = .ok (some s)) :
    ∃ plan, Plan.build e s db = .ok plan ∧ plan.ops = [] ∧ plan.blockers = [] := by
  have hscope : ∀ n, n ∈ nameSet (s.tableNames ++ s.tableNames) ↔ n ∈ s.tableNames := by
    intro n
    rw [mem_nameSet, List.mem_append, or_self]
  obtain ⟨r, hr, hops, hblockers⟩ :=
    h.diff_eq_nil (SchemaDef.wellFormed_of_normalized hs) hscope
  unfold Plan.build
  rw [managedScope, hlatest]
  dsimp only
  rw [hr]
  exact ⟨_, rfl, hops, hblockers⟩

theorem Database.HasSchema.of_managed (h : db.HasSchema s)
    (hmanaged : ∀ n ∈ s.tableNames, db'.managed n = db.managed n) : db'.HasSchema s := by
  intro t ht
  rw [hmanaged t.name (List.mem_map_of_mem ht)]
  exact h t ht

/-! ### Writing rows -/

/-- **Writing rows changes nothing that is read of a schema.** -/
theorem Database.setRows_spec (db : Database) (n : String) (rows : List Row) :
    (db.setRows n rows).objects = db.objects
      ∧ (∀ m, m ≠ n → (db.setRows n rows).tables.get? m = db.tables.get? m)
      ∧ (∀ m ∈ db.tables.keys, m ∈ (db.setRows n rows).tables.keys)
      ∧ ∀ m, (db.setRows n rows).managed m = db.managed m := by
  unfold setRows
  cases ht : db.tables.get? n with
  | none => exact ⟨rfl, fun _ _ => rfl, fun _ hm => hm, fun _ => rfl⟩
  | some t =>
    refine ⟨rfl, fun m hm => SortedMap.get?_insert_of_ne _ _ hm,
      fun m hm => mem_keys_setTable.mpr (Or.inr hm), fun m => ?_⟩
    by_cases hm : m = n
    · subst hm
      show ((db.tables.insert m _).get? m).bind _ = (db.tables.get? m).bind _
      rw [SortedMap.get?_insert_self, ht]
      rfl
    · exact managed_setTable _ hm

theorem Database.Tidy.setRows (h : db.Tidy e) (n : String) (rows : List Row) :
    (db.setRows n rows).Tidy e := by
  obtain ⟨hobjects, -, hkeys, -⟩ := db.setRows_spec n rows
  exact h.of_tables hobjects hkeys

theorem loadLatestTargetSchema_congr (h : db'.tables.get? historyTable = db.tables.get? historyTable) :
    loadLatestTargetSchema db' = loadLatestTargetSchema db := by
  rw [loadLatestTargetSchema, h, loadLatestTargetSchema]

/-! ### Committed plans -/

variable {faults : Faults} {active : Bool} {plan : Plan} {mode : ApplyMode}

/-- A committed plan recorded its target. -/
theorem commits_recorded (hc : Commits e faults active plan mode db db')
    (ht : plan.target.WellFormed) (hintact : db.HistoryIntact)
    (hhistory : historyTable ∉ planScope plan) :
    loadLatestTargetSchema db'
        = (SchemaDef.fromCanonical plan.target.canonicalString).map some
      ∧ db'.HistoryIntact := by
  obtain ⟨ready, ran, hready, hran, hrecord⟩ := commits_applied hc
  obtain ⟨r, hdiff, hops, -⟩ := commits_diff hc
  have hnone : plan.ops.filter (fun op => op.tableName = historyTable) = [] := by
    rw [List.filter_eq_nil_iff, ← hops]
    intro op hop hname
    exact hhistory (decide_eq_true_iff.mp hname ▸ op_mem_planScope ht hdiff hop)
  have hsame := execOps_changes hran historyTable
  rw [hnone] at hsame
  have hsame : ran.tables.get? historyTable = ready.tables.get? historyTable := hsame
  refine loadLatestTargetSchema_recordSuccess (fun t htable => ?_) hrecord
  exact historyIntact_ensureHistoryTable hintact hready t (hsame ▸ htable)

/-- **After a committed plan the database has its target.** -/
theorem commits_hasSchema (hc : Commits e faults active plan mode db db')
    (ht : plan.target.WellFormed) (hmanaged : plan.target.Managed) (hdb : db.Tidy e)
    (hhistory : historyTable ∉ planScope plan) : db'.HasSchema plan.target := by
  obtain ⟨r, hdiff, hops, hblockers⟩ := commits_diff hc
  obtain ⟨-, hresult⟩ := commits_isResult hc ht hmanaged hdb hhistory
  rw [← hops] at hresult
  intro t htmem
  obtain ⟨a, ha, -, hconforms, hwf⟩ := hresult.of_target ht (introspectManaged_keyed _ _) hdiff
    hblockers ((get?_tableMap ht).mpr ⟨htmem, rfl⟩)
  exact ⟨a.table, managed_of_get? ha, hconforms, hwf⟩

end HasSchema

/-! ## Runs -/

/-- An event: a call, or the application writing the rows of a table. -/
inductive World.Event where
  | call (call : Call)
  | write (tableName : String) (rows : List Row)

/-- The effect of an event. -/
def World.event (e : Engine) (w : World) : World.Event → World
  | .call call => w.call e call
  | .write tableName rows => { w with db := w.db.setRows tableName rows }

/-- A run of events. -/
def World.events (e : Engine) (w : World) (events : List World.Event) : World :=
  events.foldl (World.event e) w

/-- **A target that can be recorded**: its text is read back, its indexes
are seekwel's, and it leaves the history table alone. -/
structure SchemaDef.Recordable (target : SchemaDef) : Prop where
  safe : target.HistorySafe
  managed : target.Managed
  history : historyTable ∉ target.tableNames

/-- The condition on an event: targets can be recorded, and the application
does not write the history table. -/
def World.Event.Proper : World.Event → Prop
  | .call (.build builder) => ∀ target, builder.build = .ok target → target.Recordable
  | .call (.apply ..) => True
  | .write tableName _ => tableName ≠ historyTable

/-- **What holds throughout a run.** -/
structure World.Kept (e : Engine) (w : World) : Prop where
  tidy : w.db.Tidy e
  intact : w.db.HistoryIntact
  /-- The target recorded last is what the database has. -/
  latest : ∃ latest, loadLatestTargetSchema w.db = .ok latest
    ∧ ∀ s ∈ latest, s.normalized = .ok s ∧ historyTable ∉ s.tableNames ∧ w.db.HasSchema s
  plans : ∀ plan ∈ w.plans, plan.target.normalized = .ok plan.target
    ∧ plan.target.Recordable ∧ historyTable ∉ planScope plan

section Runs

variable {e : Engine} {w : World}

/-- A plan that is built leaves the history table alone. -/
theorem World.Kept.not_mem_planScope (h : w.Kept e) {target : SchemaDef} {plan : Plan}
    (htarget : historyTable ∉ target.tableNames) (hbuild : Plan.build e target w.db = .ok plan) :
    historyTable ∉ planScope plan := by
  obtain ⟨rfl, -, scope, hscope, hdiff⟩ := build_eq_ok hbuild
  obtain ⟨latest, hlatest, hall⟩ := h.latest
  have hnot : historyTable ∉ scope := by
    unfold managedScope at hscope
    rw [hlatest] at hscope
    cases latest with
    | none =>
      obtain rfl := Except.ok.inj hscope
      rwa [mem_nameSet]
    | some s =>
      obtain rfl := Except.ok.inj hscope
      rw [mem_nameSet, List.mem_append, not_or]
      exact ⟨htarget, (hall s rfl).2.1⟩
  rw [planScope, mem_nameSet, List.mem_append, not_or]
  refine ⟨fun hmem => ?_, htarget⟩
  rw [mem_source_tableNames (introspectManaged_keyed _ _) (diff_eq_ok hdiff).1,
    SortedMap.mem_keys_iff] at hmem
  obtain ⟨a, ha⟩ := hmem
  exact hnot (get?_introspectManaged_eq_some ha).1

/-- What a plan of a run leaves behind when it is committed. -/
theorem World.Kept.commits (h : w.Kept e) {plan : Plan} (hplan : plan ∈ w.plans)
    {faults : Faults} {mode : ApplyMode} {db' : Database}
    (hc : Commits e faults false plan mode w.db db') :
    World.Kept e { w with db := db' } ∧ loadLatestTargetSchema db' = .ok (some plan.target) := by
  obtain ⟨hnormal, hrecordable, hhistory⟩ := h.plans plan hplan
  have hwf := SchemaDef.wellFormed_of_normalized hnormal
  obtain ⟨hlatest, hintact⟩ := commits_recorded hc hwf h.intact hhistory
  rw [(fromCanonical_canonicalString_iff hnormal).mpr hrecordable.safe] at hlatest
  refine ⟨⟨(commits_isResult hc hwf hrecordable.managed h.tidy hhistory).1, hintact,
    ⟨some plan.target, hlatest, fun s hs => ?_⟩, h.plans⟩, hlatest⟩
  obtain rfl := Option.some.inj hs
  exact ⟨hnormal, hrecordable.history,
    commits_hasSchema hc hwf hrecordable.managed h.tidy hhistory⟩

/-- **Every event keeps it.** -/
theorem kept_event (h : w.Kept e) {event : World.Event} (hproper : event.Proper) :
    (w.event e event).Kept e := by
  cases event with
  | write tableName rows =>
    obtain ⟨-, hframe, -, hmanaged⟩ := w.db.setRows_spec tableName rows
    have hhistory := hframe historyTable (Ne.symm hproper)
    obtain ⟨latest, hlatest, hall⟩ := h.latest
    refine ⟨h.tidy.setRows _ _, fun t ht => h.intact t (hhistory ▸ ht),
      ⟨latest, (loadLatestTargetSchema_congr hhistory).trans hlatest, fun s hs => ?_⟩, h.plans⟩
    obtain ⟨hnormal, hnot, hschema⟩ := hall s hs
    exact ⟨hnormal, hnot, hschema.of_managed fun n _ => hmanaged n⟩
  | call call =>
    cases call with
    | build builder =>
      show World.Kept e (World.call e w (.build builder))
      unfold World.call
      dsimp only
      cases hb : builder.build with
      | error error => exact h
      | ok target =>
        dsimp only
        cases hplan : Plan.build e target w.db with
        | error error => exact h
        | ok plan =>
          have hrecordable := hproper target hb
          refine ⟨h.tidy, h.intact, h.latest, fun p hp => ?_⟩
          obtain hp | hp := List.mem_append.mp hp
          · exact h.plans p hp
          · obtain rfl := List.mem_singleton.mp hp
            have htarget := (build_eq_ok hplan).1
            refine ⟨?_, ?_, h.not_mem_planScope hrecordable.history hplan⟩
            · rw [htarget]
              exact SchemaDef.normalized_normalized hb
            · rwa [htarget]
    | apply k mode faults =>
      show World.Kept e (World.call e w (.apply k mode faults))
      unfold World.call
      dsimp only
      cases hk : w.plans[k]? with
      | none => exact h
      | some plan =>
        dsimp only
        obtain ⟨⟨o, happly, -⟩, -⟩ | ⟨db', hc, happly⟩ :=
          apply_cases e faults false plan mode w.db
        · rw [happly]
          exact h
        · rw [happly]
          exact (h.commits (List.mem_of_getElem? hk) hc).1

theorem kept_events (h : w.Kept e) {events : List World.Event}
    (hproper : ∀ event ∈ events, event.Proper) : (w.events e events).Kept e := by
  induction events generalizing w with
  | nil => exact h
  | cons event events ih =>
    exact ih (kept_event h (hproper event List.mem_cons_self))
      fun event' hevent' => hproper event' (List.mem_cons_of_mem _ hevent')

/-- A database that seekwel has not been used on yet. -/
theorem kept_start {db : Database} (hdb : db.Tidy e)
    (hnew : db.tables.get? historyTable = none) : World.Kept e ⟨db, []⟩ where
  tidy := hdb
  intact t ht := by
    rw [hnew] at ht
    cases ht
  latest := by
    refine ⟨none, ?_, fun s hs => by cases hs⟩
    rw [loadLatestTargetSchema, hnew]
  plans plan hplan := absurd hplan List.not_mem_nil

end Runs

/-! ### A run -/

/-- The table of users with an address that is indexed. -/
def addressedUsers : TableDef :=
  ⟨"users", ⟨"id", "INTEGER"⟩, [⟨"address", "TEXT", true, none⟩, ⟨"name", "TEXT", true, none⟩],
    [⟨"seekwel_idx_users_address", "address", false⟩]⟩

/-- The table of users is created and written, and receives an address. -/
def migrateUsers : List World.Event :=
  [.call (.build ⟨[usersTable ["name"]]⟩), .call (.apply 0 .safeOnly Faults.none),
    .write "users" [[("id", .integer 1), ("name", .text "Ada")]],
    .call (.build ⟨[addressedUsers]⟩), .call (.apply 1 .safeOnly Faults.none)]

end Seekwel
