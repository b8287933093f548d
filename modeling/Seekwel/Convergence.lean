import Seekwel.Apply
import Seekwel.DiffSpec

/-!
# Migrations converge

What the operations of a plan mean for the schema, and that running them
leads to the target: a comparison made afterwards asks for nothing
(`diff_converges`).

An operation changes the table it is about and no other (`PlanOp.act`), so
the tables after a run can be computed one at a time, each from the
operations about it (`get?_runOps`). A table that is created or rebuilt
becomes its target. A table changed in place keeps its columns and receives
the missing ones, and because indexes are dropped in an earlier phase than
they are created, an index that is dropped and created again is there at
the end (`foldl_act_inPlace`).
-/

namespace Seekwel

open Savepoint (Conn)

/-! ## What operations mean -/

/-- **What an operation makes of the table it is about.** -/
def PlanOp.act : PlanOp → Option TableDef → Option TableDef
  | .createTable table, _ => some table
  | .addColumn _ column, t =>
    t.map (fun t => { t with columns := t.columns ++ [column] })
  | .createIndex _ index, t =>
    t.map (fun t => { t with indexes := t.indexes ++ [index] })
  | .dropIndex _ index, t =>
    t.map (fun t => { t with indexes := t.indexes.filter (fun i => i.name ≠ index.name) })
  | .rebuildTable _ _ toDef _, t => t.map (fun _ => toDef)
  | .dropTable _, _ => none

/-- Running an operation on the tables of a schema. -/
def PlanOp.run (tables : SortedMap String TableDef) (op : PlanOp) :
    SortedMap String TableDef :=
  match op.act (tables.get? op.tableName) with
  | some table => tables.insert op.tableName table
  | none => tables.erase op.tableName

/-- Running operations in order. -/
def runOps (tables : SortedMap String TableDef) (ops : List PlanOp) :
    SortedMap String TableDef :=
  ops.foldl PlanOp.run tables

theorem get?_run (tables : SortedMap String TableDef) (op : PlanOp) (n : String) :
    (PlanOp.run tables op).get? n
      = if op.tableName = n then op.act (tables.get? n) else tables.get? n := by
  unfold PlanOp.run
  split_ifs with hn
  · subst hn
    cases op.act (tables.get? op.tableName) with
    | none => exact SortedMap.get?_erase_self _ _
    | some t => exact SortedMap.get?_insert_self _ _ _
  · cases op.act (tables.get? op.tableName) with
    | none => exact SortedMap.get?_erase_of_ne _ (Ne.symm hn)
    | some t => exact SortedMap.get?_insert_of_ne _ _ (Ne.symm hn)

/-- **A table after a run depends on the operations about it only.** -/
theorem get?_runOps (tables : SortedMap String TableDef) (ops : List PlanOp) (n : String) :
    (runOps tables ops).get? n
      = (ops.filter (fun op => op.tableName = n)).foldl (fun t op => op.act t)
          (tables.get? n) := by
  induction ops generalizing tables with
  | nil => rfl
  | cons op ops ih =>
    show (runOps (PlanOp.run tables op) ops).get? n = _
    rw [ih, get?_run]
    by_cases hn : op.tableName = n
    · rw [if_pos hn, List.filter_cons_of_pos (by simpa using hn), List.foldl_cons]
    · rw [if_neg hn, List.filter_cons_of_neg (by simpa using hn)]

/-! ## A table changed in place -/

/-- The index, if the operation drops one. -/
def PlanOp.dropped : PlanOp → Option IndexDef
  | .dropIndex _ index => some index
  | _ => none

/-- An operation that adds a column, or creates or drops an index. -/
def PlanOp.IsInPlace (op : PlanOp) : Prop :=
  (∃ n c, op = .addColumn n c) ∨ (∃ n i, op = .createIndex n i) ∨ ∃ n i, op = .dropIndex n i

/-- Whether one of the operations drops an index of the name. -/
def drops (ops : List PlanOp) (index : IndexDef) : Bool :=
  (ops.filterMap PlanOp.dropped).any (fun j => j.name = index.name)

/-- **The effect of operations in place**, no index being dropped after one
was created. -/
theorem foldl_act_inPlace {ops : List PlanOp} (hops : ∀ op ∈ ops, op.IsInPlace)
    (horder : ops.Pairwise (fun op op' => op.created ≠ none → op'.dropped = none))
    (t : TableDef) :
    ops.foldl (fun t op => op.act t) (some t) = some {
      t with
      columns := t.columns ++ ops.filterMap PlanOp.added
      indexes := t.indexes.filter (fun i => !drops ops i)
        ++ ops.filterMap PlanOp.created } := by
  induction ops generalizing t with
  | nil => simp [drops]
  | cons op ops ih =>
    rw [List.pairwise_cons] at horder
    have ih := ih (fun op hop => hops op (List.mem_cons_of_mem _ hop)) horder.2
    rw [List.foldl_cons]
    obtain ⟨n, c, rfl⟩ | ⟨n, i, rfl⟩ | ⟨n, i, rfl⟩ := hops op List.mem_cons_self
    · show List.foldl _ (some { t with columns := t.columns ++ [c] }) ops = _
      rw [ih, List.append_assoc]
      rfl
    · -- nothing is dropped any more, so the indexes found so far stay
      have hnone : ops.filterMap PlanOp.dropped = [] :=
        List.filterMap_eq_nil_iff.mpr
          (fun op hop => horder.1 op hop (Option.some_ne_none i))
      have hstay : ∀ (l : List IndexDef), l.filter (fun i => !drops ops i) = l :=
        fun l => List.filter_eq_self.mpr (fun j _ => by rw [drops, hnone]; rfl)
      show List.foldl _ (some { t with indexes := t.indexes ++ [i] }) ops = _
      rw [ih, hstay, List.append_assoc,
        show drops (.createIndex n i :: ops) = drops ops from rfl, hstay]
      rfl
    · have hdrops : ∀ j, (!drops (.dropIndex n i :: ops) j)
          = (!drops ops j && decide (j.name ≠ i.name)) := by
        intro j
        show (!(decide (i.name = j.name) || drops ops j)) = _
        rw [Bool.not_or, Bool.and_comm, ← decide_not]
        exact congrArg _ (decide_eq_decide.mpr ⟨Ne.symm, Ne.symm⟩)
      show List.foldl _
        (some { t with indexes := t.indexes.filter (fun j => j.name ≠ i.name) }) ops = _
      rw [ih, List.filter_filter, funext hdrops]
      rfl

/-- In key order, no index is dropped after one was created. -/
theorem created_before_dropped {op op' : PlanOp} (h : planOpSortKey op ≤ planOpSortKey op')
    (hc : op.created ≠ none) : op'.dropped = none := by
  cases op with
  | createIndex n i =>
    cases op' with
    | dropIndex m j =>
      have : (4 : ℕ) ≤ 0 := Prod.Lex.monotone_fst _ _ h
      omega
    | _ => rfl
  | _ => exact absurd rfl hc

section InPlace

variable {desired actual : TableDef} {n : String} {ops : List PlanOp}

/-- The operations that change a table in place, in whatever order. -/
def inPlaceOps (n : String) (desired actual : TableDef) : List PlanOp :=
  (sortBy ColumnDef.name (addColumns desired actual)).map (fun column => .addColumn n column)
    ++ indexOps n desired actual

theorem isInPlace_of_mem {op : PlanOp} (h : op ∈ inPlaceOps n desired actual) :
    op.IsInPlace := by
  obtain h | h := List.mem_append.mp h
  · obtain ⟨c, -, rfl⟩ := List.mem_map.mp h
    exact Or.inl ⟨n, c, rfl⟩
  · obtain ⟨i, rfl⟩ | ⟨i, rfl⟩ := indexOps_cases h
    · exact Or.inr (Or.inl ⟨n, i, rfl⟩)
    · exact Or.inr (Or.inr ⟨n, i, rfl⟩)

/-- The columns added are the target's that are missing. -/
theorem added_inPlaceOps (hp : ops.Perm (inPlaceOps n desired actual)) :
    (ops.filterMap PlanOp.added).Perm (addColumns desired actual) := by
  have hidx : (indexOps n desired actual).filterMap PlanOp.added = [] := by
    refine List.filterMap_eq_nil_iff.mpr (fun op hop => ?_)
    obtain ⟨i, rfl⟩ | ⟨i, rfl⟩ := indexOps_cases hop
    · rfl
    · rfl
  have hadd : ((sortBy ColumnDef.name (addColumns desired actual)).map
      (fun column => PlanOp.addColumn n column)).filterMap PlanOp.added
        = sortBy ColumnDef.name (addColumns desired actual) := by
    rw [List.filterMap_map]
    exact List.filterMap_some
  have := hp.filterMap PlanOp.added
  rw [inPlaceOps, List.filterMap_append, hidx, List.append_nil, hadd] at this
  exact this.trans (sortBy_perm _ _)

/-- The indexes created are the target's that are missing. -/
theorem created_inPlaceOps (hd : desired.WellFormed) (ha : actual.WellFormed)
    (hp : ops.Perm (inPlaceOps n desired actual)) :
    (ops.filterMap PlanOp.created).Perm
      (desired.indexes.filter (fun i => i ∉ actual.indexes)) := by
  have hadd : ((sortBy ColumnDef.name (addColumns desired actual)).map
      (fun column => PlanOp.addColumn n column)).filterMap PlanOp.created = [] := by
    rw [List.filterMap_map]
    exact List.filterMap_eq_nil_iff.mpr (fun _ _ => rfl)
  have := hp.filterMap PlanOp.created
  rw [inPlaceOps, List.filterMap_append, hadd, List.nil_append] at this
  exact this.trans (created_indexOps hd ha n)

/-- The indexes dropped are the live ones that the target does not have. -/
theorem mem_dropped_inPlaceOps (hd : desired.WellFormed) (ha : actual.WellFormed)
    (hp : ops.Perm (inPlaceOps n desired actual)) {i : IndexDef} :
    i ∈ ops.filterMap PlanOp.dropped ↔ i ∈ actual.indexes ∧ i ∉ desired.indexes := by
  rw [(hp.filterMap PlanOp.dropped).mem_iff, List.mem_filterMap]
  constructor
  · intro h
    obtain ⟨op, hop, hi⟩ := h
    cases op with
    | dropIndex m j =>
      cases hi
      obtain h | h := List.mem_append.mp hop
      · obtain ⟨c, -, hc⟩ := List.mem_map.mp h
        cases hc
      · exact ((mem_indexOps_drop hd ha).mp h).2
    | _ => cases hi
  · intro h
    exact ⟨.dropIndex n i, List.mem_append_right _ ((mem_indexOps_drop hd ha).mpr ⟨rfl, h⟩), rfl⟩

theorem mem_added_inPlaceOps (hd : desired.WellFormed) (ha : actual.WellFormed)
    (hp : ops.Perm (inPlaceOps n desired actual)) {c : ColumnDef} :
    c ∈ ops.filterMap PlanOp.added
      ↔ c ∈ desired.columns ∧ (∀ c' ∈ actual.columns, c'.name ≠ c.name) ∧ c.addable = true := by
  rw [(added_inPlaceOps hp).mem_iff, mem_addColumns hd ha]

theorem mem_created_inPlaceOps (hd : desired.WellFormed) (ha : actual.WellFormed)
    (hp : ops.Perm (inPlaceOps n desired actual)) {i : IndexDef} :
    i ∈ ops.filterMap PlanOp.created ↔ i ∈ desired.indexes ∧ i ∉ actual.indexes := by
  rw [(created_inPlaceOps hd ha hp).mem_iff, List.mem_filter, decide_eq_true_iff]

/-- An index stays exactly when both sides have it. -/
theorem mem_kept_inPlaceOps (hd : desired.WellFormed) (ha : actual.WellFormed)
    (hp : ops.Perm (inPlaceOps n desired actual)) {i : IndexDef} :
    i ∈ actual.indexes.filter (fun i => !drops ops i)
      ↔ i ∈ actual.indexes ∧ i ∈ desired.indexes := by
  rw [List.mem_filter, Bool.not_eq_true', drops, List.any_eq_false]
  constructor
  · intro h
    refine ⟨h.1, ?_⟩
    by_contra hni
    exact h.2 i ((mem_dropped_inPlaceOps hd ha hp).mpr ⟨h.1, hni⟩) (by simp)
  · intro h
    refine ⟨h.1, fun j hj hname => ?_⟩
    have hname : j.name = i.name := by simpa using hname
    obtain ⟨hja, hjd⟩ := (mem_dropped_inPlaceOps hd ha hp).mp hj
    obtain rfl := List.inj_on_of_nodup_map ha.indexes_nodup hja h.1 hname
    exact hjd h.2

/-- A table after operations in place, in key order. -/
def TableDef.changed (actual : TableDef) (ops : List PlanOp) : TableDef := {
  actual with
  columns := actual.columns ++ ops.filterMap PlanOp.added
  indexes := actual.indexes.filter (fun i => !drops ops i) ++ ops.filterMap PlanOp.created }

theorem mem_changed_indexes (hd : desired.WellFormed) (ha : actual.WellFormed)
    (hp : ops.Perm (inPlaceOps n desired actual)) {i : IndexDef} :
    i ∈ (actual.changed ops).indexes ↔ i ∈ desired.indexes := by
  show i ∈ actual.indexes.filter (fun i => !drops ops i) ++ ops.filterMap PlanOp.created ↔ _
  rw [List.mem_append, mem_kept_inPlaceOps hd ha hp, mem_created_inPlaceOps hd ha hp]
  tauto

/-- A column of the target that is still missing could not be added. -/
theorem exists_changed_column (hd : desired.WellFormed) (ha : actual.WellFormed)
    (hreq : requiredColumnBlockers n desired actual = [])
    (hp : ops.Perm (inPlaceOps n desired actual)) {c : ColumnDef} (hc : c ∈ desired.columns) :
    ∃ c' ∈ (actual.changed ops).columns, c'.name = c.name := by
  by_cases hex : ∃ c' ∈ actual.columns, c'.name = c.name
  · obtain ⟨c', hc', hname⟩ := hex
    exact ⟨c', List.mem_append_left _ hc', hname⟩
  · have hnone : ∀ c' ∈ actual.columns, c'.name ≠ c.name :=
      fun c' hc' hname => hex ⟨c', hc', hname⟩
    have hadd := (requiredColumnBlockers_eq_nil_iff hd ha).mp hreq c hc hnone
    exact ⟨c, List.mem_append_right _ ((mem_added_inPlaceOps hd ha hp).mpr ⟨hc, hnone, hadd⟩),
      rfl⟩

theorem conforms_changed (hd : desired.WellFormed) (ha : actual.WellFormed)
    (hin : desired.InPlace actual) (hreq : requiredColumnBlockers n desired actual = [])
    (hp : ops.Perm (inPlaceOps n desired actual)) : desired.Conforms (actual.changed ops) := by
  refine ⟨⟨hin.primaryKey, ?_, ?_⟩, fun c hc => exists_changed_column hd ha hreq hp hc,
    fun i => (mem_changed_indexes hd ha hp).symm⟩
  · intro c hc c' hc' hname
    obtain hc' | hc' := List.mem_append.mp hc'
    · exact hin.agrees c hc c' hc' hname
    · obtain ⟨hc', -⟩ := (mem_added_inPlaceOps hd ha hp).mp hc'
      obtain rfl := List.inj_on_of_nodup_map hd.columns_nodup hc hc' hname
      exact ⟨rfl, rfl, rfl⟩
  · intro c' hc'
    obtain hc' | hc' := List.mem_append.mp hc'
    · exact hin.kept c' hc'
    · exact ⟨c', ((mem_added_inPlaceOps hd ha hp).mp hc').1, rfl⟩

theorem wellFormed_changed (hd : desired.WellFormed) (ha : actual.WellFormed)
    (hin : desired.InPlace actual) (hreq : requiredColumnBlockers n desired actual = [])
    (hp : ops.Perm (inPlaceOps n desired actual)) : (actual.changed ops).WellFormed := by
  refine ⟨?_, ?_, ?_, ?_⟩
  · show ((actual.columns ++ ops.filterMap PlanOp.added).map (·.name)).Nodup
    rw [List.map_append]
    refine List.nodup_append.mpr ⟨ha.columns_nodup,
      ((added_inPlaceOps hp).map (·.name)).nodup_iff.mpr (addColumns_nodup hd), ?_⟩
    intro x hx y hy hxy
    obtain ⟨c', hc', rfl⟩ := List.mem_map.mp hx
    obtain ⟨c, hc, rfl⟩ := List.mem_map.mp hy
    exact ((mem_added_inPlaceOps hd ha hp).mp hc).2.1 c' hc' hxy
  · intro c hc
    obtain hc | hc := List.mem_append.mp hc
    · exact ha.pk_not_mem c hc
    · have := hd.pk_not_mem c ((mem_added_inPlaceOps hd ha hp).mp hc).1
      rwa [hin.primaryKey] at this
  · show ((actual.indexes.filter (fun i => !drops ops i)
      ++ ops.filterMap PlanOp.created).map (·.name)).Nodup
    rw [List.map_append]
    refine List.nodup_append.mpr ⟨ha.indexes_nodup.sublist (List.filter_sublist.map _),
      ((created_inPlaceOps hd ha hp).map (·.name)).nodup_iff.mpr
        (hd.indexes_nodup.sublist (List.filter_sublist.map _)), ?_⟩
    -- an index that is created is not among those that stay
    intro x hx y hy hxy
    obtain ⟨i, hi, rfl⟩ := List.mem_map.mp hx
    obtain ⟨j, hj, rfl⟩ := List.mem_map.mp hy
    obtain ⟨hia, hid⟩ := (mem_kept_inPlaceOps hd ha hp).mp hi
    obtain ⟨hjd, hja⟩ := (mem_created_inPlaceOps hd ha hp).mp hj
    obtain rfl := List.inj_on_of_nodup_map hd.indexes_nodup hid hjd hxy
    exact hja hia
  · intro i hi
    obtain hpk | ⟨c, hc, hname⟩ := hd.index_column i ((mem_changed_indexes hd ha hp).mp hi)
    · exact Or.inl (by rw [hpk, hin.primaryKey]; rfl)
    · obtain ⟨c', hc', hname'⟩ := exists_changed_column hd ha hreq hp hc
      exact Or.inr ⟨c', hc', hname'.trans hname⟩

/-- **A table changed in place conforms to its target afterwards.** -/
theorem conforms_inPlace (hd : desired.WellFormed) (ha : actual.WellFormed)
    (hin : desired.InPlace actual) (hreq : requiredColumnBlockers n desired actual = [])
    (hp : ops.Perm (inPlaceOps n desired actual))
    (hsorted : ops.Pairwise (fun op op' => planOpSortKey op ≤ planOpSortKey op')) :
    ∃ t, ops.foldl (fun t op => op.act t) (some actual) = some t ∧ t.name = actual.name
      ∧ desired.Conforms t ∧ t.WellFormed :=
  ⟨actual.changed ops,
    foldl_act_inPlace (fun _ hop => isInPlace_of_mem (hp.mem_iff.mp hop))
      (hsorted.imp created_before_dropped) actual,
    rfl, conforms_changed hd ha hin hreq hp, wellFormed_changed hd ha hin hreq hp⟩

end InPlace

/-! ## The whole schema -/

/-- A well-formed table conforms to itself. -/
theorem conforms_self {t : TableDef} (h : t.WellFormed) : t.Conforms t := by
  refine ⟨⟨rfl, fun c hc c' hc' hname => ?_, fun c hc => ⟨c, hc, rfl⟩⟩,
    fun c hc => ⟨c, hc, rfl⟩, fun _ => Iff.rfl⟩
  obtain rfl := List.inj_on_of_nodup_map h.columns_nodup hc hc' hname
  exact ⟨rfl, rfl, rfl⟩

section Schema

variable {target : SchemaDef} {actual live : LiveSchema} {r : DiffResult} {n : String}

/-- **A table of the target conforms to it after the run.** -/
theorem run_target (ht : target.WellFormed) (hk : actual.Keyed)
    (h : diff target actual = .ok r) (hb : r.blockers = []) {desired : TableDef}
    (hn : target.tableMap.get? n = some desired) :
    ∃ t, (runOps (actual.mapVal (·.table)) r.ops).get? n = some t ∧ t.name = n
      ∧ desired.Conforms t ∧ t.WellFormed := by
  have hperm := diff_ops_on ht hk h n
  have hblock := part_blockers_eq_nil h hb n
  obtain ⟨hmem, hname⟩ := (get?_tableMap ht).mp hn
  have hwf := ht.tables desired hmem
  rw [get?_runOps, SortedMap.get?_mapVal]
  rw [diffPart, hn] at hperm hblock
  dsimp only at hperm hblock
  unfold diffTarget at hperm hblock
  cases ha : actual.get? n with
  | none =>
    rw [ha] at hperm
    rw [List.perm_singleton.mp hperm]
    exact ⟨desired, rfl, hname, conforms_self hwf, hwf⟩
  | some a =>
    have hawf := actual_wellFormed h ha
    rw [ha] at hperm hblock
    dsimp only at hperm hblock
    by_cases hin : desired.InPlace a.table
    · rw [diffTable_of_inPlace hwf hawf hin] at hperm hblock
      obtain ⟨t, hfold, htname, hconf, htwf⟩ := conforms_inPlace hwf hawf hin hblock hperm
        ((diff_ops_sorted h).sublist List.filter_sublist)
      exact ⟨t, hfold, htname.trans (hk n a ha), hconf, htwf⟩
    · rw [diffTable_of_not_inPlace hwf hawf hin] at hperm
      rw [List.perm_singleton.mp hperm]
      exact ⟨desired, rfl, hname, conforms_self hwf, hwf⟩

/-- **A table the target does not have is gone after the run.** -/
theorem run_dropped (ht : target.WellFormed) (hk : actual.Keyed)
    (h : diff target actual = .ok r) (hn : target.tableMap.get? n = none) :
    (runOps (actual.mapVal (·.table)) r.ops).get? n = none := by
  have hperm := diff_ops_on ht hk h n
  rw [get?_runOps, SortedMap.get?_mapVal]
  rw [diffPart, hn] at hperm
  cases ha : actual.get? n with
  | none =>
    rw [ha] at hperm
    rw [List.perm_nil.mp hperm]
    rfl
  | some a =>
    rw [ha] at hperm
    rw [List.perm_singleton.mp hperm]
    rfl

/-- A live schema whose tables are the result of a run. -/
def LiveSchema.IsResult (live : LiveSchema) (actual : LiveSchema) (ops : List PlanOp) :
    Prop :=
  live.mapVal (·.table) = runOps (actual.mapVal (·.table)) ops

theorem isResult_get? (hlive : live.IsResult actual r.ops) (n : String) :
    (live.get? n).map (·.table) = (runOps (actual.mapVal (·.table)) r.ops).get? n := by
  rw [← SortedMap.get?_mapVal, hlive]

/-- The tables of a live schema, in normal form. -/
theorem source_normalized (hk : live.Keyed)
    (hwf : ∀ n a, live.get? n = some a → a.table.WellFormed) :
    ∃ s, (LiveSchema.source live).normalized = .ok s := by
  refine ⟨_, SchemaDef.normalized_eq_ok_iff.mpr ⟨⟨?_, ?_⟩, rfl⟩⟩
  · rw [source_tableNames hk]
    exact live.nodup_keys
  · intro t ht
    obtain ⟨a, ha, rfl⟩ := List.mem_map.mp ht
    obtain ⟨n, hn⟩ := SortedMap.mem_values_iff.mp ha
    exact hwf n a hn

/-- A table of the target is there afterwards and conforms to it. -/
theorem LiveSchema.IsResult.of_target (ht : target.WellFormed) (hk : actual.Keyed)
    (h : diff target actual = .ok r) (hb : r.blockers = [])
    (hlive : live.IsResult actual r.ops) {desired : TableDef}
    (hn : target.tableMap.get? n = some desired) :
    ∃ a, live.get? n = some a ∧ a.table.name = n ∧ desired.Conforms a.table
      ∧ a.table.WellFormed := by
  obtain ⟨t, hget, hname, hconf, htwf⟩ := run_target ht hk h hb hn
  rw [← isResult_get? hlive, Option.map_eq_some_iff] at hget
  obtain ⟨a, ha, rfl⟩ := hget
  exact ⟨a, ha, hname, hconf, htwf⟩

/-- Only the tables of the target are there afterwards. -/
theorem LiveSchema.IsResult.of_get? (ht : target.WellFormed) (hk : actual.Keyed)
    (h : diff target actual = .ok r) (hb : r.blockers = [])
    (hlive : live.IsResult actual r.ops) {a : ActualTable} (ha : live.get? n = some a) :
    ∃ desired, target.tableMap.get? n = some desired ∧ a.table.name = n
      ∧ desired.Conforms a.table ∧ a.table.WellFormed := by
  cases hn : target.tableMap.get? n with
  | none =>
    have hnone := run_dropped ht hk h hn
    rw [← isResult_get? hlive, ha] at hnone
    cases hnone
  | some desired =>
    obtain ⟨a', ha', hprop⟩ := hlive.of_target ht hk h hb hn
    obtain rfl : a = a' := Option.some.inj (ha.symm.trans ha')
    exact ⟨desired, rfl, hprop⟩

/-- **A comparison with what a run leaves behind asks for nothing.** -/
theorem LiveSchema.IsResult.diff_eq_nil (ht : target.WellFormed) (hk : actual.Keyed)
    (h : diff target actual = .ok r) (hb : r.blockers = [])
    (hlive : live.IsResult actual r.ops) :
    ∃ r', diff target live = .ok r' ∧ r'.ops = [] ∧ r'.blockers = [] := by
  have hlk : live.Keyed := fun n a ha => (hlive.of_get? ht hk h hb ha).choose_spec.2.1
  obtain ⟨s, hs⟩ := source_normalized hlk
    (fun n a ha => (hlive.of_get? ht hk h hb ha).choose_spec.2.2.2)
  have hdiff : ∃ r', diff target live = .ok r' := by
    unfold diff
    rw [hs]
    exact ⟨_, rfl⟩
  obtain ⟨r', hr'⟩ := hdiff
  refine ⟨r', hr', (diff_eq_nil_iff ht hlk hr').mpr (fun n => ?_)⟩
  unfold diffPart
  cases hn : target.tableMap.get? n with
  | none =>
    have hnone := run_dropped ht hk h hn
    rw [← isResult_get? hlive, Option.map_eq_none_iff] at hnone
    rw [hnone]
  | some desired =>
    obtain ⟨a, ha, -, hconf, hawf⟩ := hlive.of_target ht hk h hb hn
    show diffTarget live (n, desired) = _
    rw [diffTarget, ha]
    exact (diffTable_eq_nil_iff (ht.tables _ ((get?_tableMap ht).mp hn).1) hawf).mpr hconf

/-- **A plan with operations is refused** where a comparison asks for
none. -/
theorem apply_refused {e : Engine} {faults : Faults} {active : Bool} {plan : Plan}
    {mode : ApplyMode} {c : Conn Database} (hops : plan.ops ≠ [])
    (h : diff plan.target (introspectManaged c.view (planScope plan)) = .ok r)
    (hnil : r.ops = []) :
    ∃ err, apply e faults active plan mode c = (c, .error err) := by
  have hcheck : ∃ err,
      checkPlan plan mode (introspectManaged c.view (planScope plan)) = .error err := by
    unfold checkPlan
    rw [h]
    dsimp only
    by_cases hfp : r.source.fingerprint ≠ plan.sourceFingerprint
    · rw [if_pos hfp]
      exact ⟨_, rfl⟩
    · rw [if_neg hfp, if_pos (by rw [hnil]; exact Ne.symm hops)]
      exact ⟨_, rfl⟩
  obtain ⟨err, hcheck⟩ := hcheck
  unfold apply
  by_cases hactive : active = true
  · rw [if_pos hactive]
    exact ⟨_, rfl⟩
  · rw [if_neg hactive]
    cases faults.introspect with
    | some m => exact ⟨_, rfl⟩
    | none =>
      dsimp only
      rw [hcheck]
      exact ⟨err, rfl⟩

/-- **Migrations converge.** When the live schema is the result of running
the operations of an unblocked comparison, a comparison made then asks for
nothing, exactly the tables of the target are there, each conforming to its
target, and no plan with operations and this target is applied to it. -/
theorem diff_converges (ht : target.normalized = .ok target) (hk : actual.Keyed)
    (h : diff target actual = .ok r) (hb : r.blockers = [])
    (hlive : live.IsResult actual r.ops) :
    (∃ r', diff target live = .ok r' ∧ r'.ops = [] ∧ r'.blockers = [])
      ∧ (∀ n, n ∈ live.keys ↔ n ∈ target.tableNames)
      ∧ (∀ t ∈ target.tables, ∃ a, live.get? t.name = some a
          ∧ a.table.name = t.name ∧ a.table.WellFormed ∧ t.Conforms a.table)
      ∧ ∀ (e : Engine) (faults : Faults) (active : Bool) (plan : Plan) (mode : ApplyMode)
          (c : Conn Database), plan.target = target → plan.ops ≠ [] →
          introspectManaged c.view (planScope plan) = live →
          ∃ err, apply e faults active plan mode c = (c, .error err) := by
  have hwf := SchemaDef.wellFormed_of_normalized ht
  have hafter := hlive.diff_eq_nil hwf hk h hb
  refine ⟨hafter, fun n => ?_, fun t htm => ?_, ?_⟩
  · rw [SortedMap.mem_keys_iff]
    constructor
    · intro hex
      obtain ⟨a, ha⟩ := hex
      obtain ⟨desired, hn, -⟩ := hlive.of_get? hwf hk h hb ha
      obtain ⟨hmem, rfl⟩ := (get?_tableMap hwf).mp hn
      exact List.mem_map.mpr ⟨desired, hmem, rfl⟩
    · intro hmem
      obtain ⟨desired, hd, rfl⟩ := List.mem_map.mp hmem
      obtain ⟨a, ha, -⟩ := hlive.of_target hwf hk h hb ((get?_tableMap hwf).mpr ⟨hd, rfl⟩)
      exact ⟨a, ha⟩
  · obtain ⟨a, ha, hname, hconf, hawf⟩ :=
      hlive.of_target hwf hk h hb ((get?_tableMap hwf).mpr ⟨htm, rfl⟩)
    exact ⟨a, ha, hname, hawf, hconf⟩
  · intro e faults active plan mode c htarget hops hscope
    obtain ⟨r', hr', hnil, -⟩ := hafter
    rw [← htarget, ← hscope] at hr'
    exact apply_refused hops hr' hnil

end Schema

/-! ### A run -/

/-- A live schema of one table with a column and an index. -/
def exampleActual : LiveSchema :=
  SortedMap.empty.insert "users"
    { table := ⟨"users", ⟨"id", "INTEGER"⟩, [⟨"name", "TEXT", true, none⟩],
        [⟨"seekwel_idx_users_name", "name", false⟩]⟩
      unsupportedInlineFeatures := []
      hasRealForeignKeys := false
      dependentViews := []
      dependentExternalTriggers := []
      replaySql := [] }

/-- A target that makes the index unique, adds a column and adds a
table. -/
def exampleTarget : SchemaDef :=
  ⟨[⟨"posts", ⟨"id", "INTEGER"⟩, [⟨"title", "TEXT", false, none⟩], []⟩,
    ⟨"users", ⟨"id", "INTEGER"⟩,
      [⟨"age", "INTEGER", false, some "0"⟩, ⟨"name", "TEXT", true, none⟩],
      [⟨"seekwel_idx_users_name", "name", true⟩]⟩]⟩

/-- What running the plan makes of the live schema. -/
def exampleLive : LiveSchema :=
  (runOps (exampleActual.mapVal (·.table)) (((diff exampleTarget exampleActual).toOption.map
      (·.ops)).getD [])).mapVal (fun table =>
    { table := table
      unsupportedInlineFeatures := []
      hasRealForeignKeys := false
      dependentViews := []
      dependentExternalTriggers := []
      replaySql := [] })

theorem diff_converges_example :
    (∃ r', diff exampleTarget exampleLive = .ok r' ∧ r'.ops = [] ∧ r'.blockers = [])
      ∧ ∀ n, n ∈ exampleLive.keys ↔ n ∈ exampleTarget.tableNames := by
  have hkeyed : exampleActual.Keyed := by
    intro n a ha
    unfold exampleActual at ha
    rw [SortedMap.get?_insert] at ha
    split_ifs at ha with hn
    · cases ha
      exact hn.symm
    · cases ha
  have h : ∃ r, diff exampleTarget exampleActual = .ok r ∧ r.blockers = []
      ∧ exampleLive.IsResult exampleActual r.ops := by
    refine ⟨_, rfl, rfl, ?_⟩
    unfold LiveSchema.IsResult
    decide
  obtain ⟨r, hr, hb, hlive⟩ := h
  have hall := diff_converges (by decide) hkeyed hr hb hlive
  exact ⟨hall.1, hall.2.1⟩

end Seekwel
