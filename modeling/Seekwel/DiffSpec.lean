import Seekwel.Diff

/-!
# What `diff` returns

The facts about `diff` that the results on migrations use; none of them
unfolds it again.

* For one table: there is no reason to rebuild it exactly when it can be
  changed in place (`rebuildReasons_eq_nil_iff`), and the columns added and
  indexes created and dropped are those on one side only
  (`mem_addColumns`, `mem_indexOps_create`, `mem_indexOps_drop`). A table
  asks for nothing exactly when it conforms to its target
  (`diffTable_eq_nil_iff`).
* For a schema: the operations about a table are a permutation of what that
  table asks for (`diff_ops_on`), they come in key order (`diff_ops_sorted`)
  and without blockers no table had any (`part_blockers_eq_nil`).
-/

namespace Seekwel

/-! ## One table -/

/-- Two columns that `diff` takes for the same. -/
structure ColumnDef.Agrees (c c' : ColumnDef) : Prop where
  affinity : c.affinity = c'.affinity
  nullable : c.nullable = c'.nullable
  defaultSql : c.defaultSql = c'.defaultSql

/-- **A live table that need not be rebuilt**: it has the target's primary
key, its columns agree with the target's of the same name, and the target
keeps all of them. -/
structure TableDef.InPlace (desired actual : TableDef) : Prop where
  primaryKey : desired.primaryKey = actual.primaryKey
  agrees : ∀ c ∈ desired.columns, ∀ c' ∈ actual.columns, c.name = c'.name → c.Agrees c'
  kept : ∀ c' ∈ actual.columns, ∃ c ∈ desired.columns, c.name = c'.name

/-- **A live table that conforms to its target**: it need not be rebuilt
and lacks neither a column nor an index. -/
structure TableDef.Conforms (desired actual : TableDef) : Prop
    extends TableDef.InPlace desired actual where
  columns : ∀ c ∈ desired.columns, ∃ c' ∈ actual.columns, c'.name = c.name
  indexes : ∀ i, i ∈ desired.indexes ↔ i ∈ actual.indexes

section OneTable

variable {desired actual : TableDef}

theorem get?_columnMap (h : desired.WellFormed) {n : String} {c : ColumnDef} :
    desired.columnMap.get? n = some c ↔ c ∈ desired.columns ∧ c.name = n :=
  SortedMap.get?_byKey h.columns_nodup

theorem get?_columnMap_eq_none (h : desired.WellFormed) {n : String} :
    desired.columnMap.get? n = none ↔ ∀ c ∈ desired.columns, c.name ≠ n :=
  SortedMap.get?_byKey_eq_none h.columns_nodup

theorem get?_indexMap (h : desired.WellFormed) {n : String} {i : IndexDef} :
    desired.indexMap.get? n = some i ↔ i ∈ desired.indexes ∧ i.name = n :=
  SortedMap.get?_byKey h.indexes_nodup

theorem get?_indexMap_eq_none (h : desired.WellFormed) {n : String} :
    desired.indexMap.get? n = none ↔ ∀ i ∈ desired.indexes, i.name ≠ n :=
  SortedMap.get?_byKey_eq_none h.indexes_nodup

theorem mem_columnMap_entries (h : desired.WellFormed) {e : String × ColumnDef} :
    e ∈ desired.columnMap.entries ↔ e.2 ∈ desired.columns ∧ e.2.name = e.1 :=
  SortedMap.mem_entries_byKey h.columns_nodup

theorem mem_indexMap_entries (h : desired.WellFormed) {e : String × IndexDef} :
    e ∈ desired.indexMap.entries ↔ e.2 ∈ desired.indexes ∧ e.2.name = e.1 :=
  SortedMap.mem_entries_byKey h.indexes_nodup

theorem primaryKeyReasons_eq_nil_iff :
    primaryKeyReasons desired actual = [] ↔ desired.primaryKey = actual.primaryKey := by
  obtain ⟨-, ⟨n, t⟩, -, -⟩ := desired
  obtain ⟨-, ⟨n', t'⟩, -, -⟩ := actual
  unfold primaryKeyReasons
  rw [List.append_eq_nil_iff, ite_eq_right_iff, ite_eq_right_iff, PrimaryKeyDef.mk.injEq]
  refine and_congr (by simp) ?_
  simp only [List.cons_ne_self, imp_false, not_or, not_not]
  exact ⟨fun h => h.2, fun h => ⟨congrArg SqlAffinity.fromDeclaredType h, h⟩⟩

theorem columnReasons_eq_nil_iff {n : String} {c c' : ColumnDef} :
    columnReasons n c c' = [] ↔ c.Agrees c' := by
  unfold columnReasons
  rw [List.append_eq_nil_iff, List.append_eq_nil_iff, ite_eq_right_iff,
    ite_eq_right_iff, ite_eq_right_iff]
  simp only [reduceCtorEq, imp_false, not_not]
  exact ⟨fun h => ⟨h.1.1, h.1.2, h.2⟩, fun h => ⟨⟨h.1, h.2⟩, h.3⟩⟩

/-- The removed columns are those the target does not have. -/
theorem mem_removedColumns (hd : desired.WellFormed) (ha : actual.WellFormed)
    {n : String} : n ∈ removedColumns desired actual
      ↔ (∃ c' ∈ actual.columns, c'.name = n) ∧ ∀ c ∈ desired.columns, c.name ≠ n := by
  rw [removedColumns, List.mem_filter, Option.isNone_iff_eq_none,
    get?_columnMap_eq_none hd, SortedMap.mem_keys_iff]
  simp only [get?_columnMap ha]

/-- **There is no reason to rebuild a table exactly when it can be changed
in place.** -/
theorem rebuildReasons_eq_nil_iff (hd : desired.WellFormed) (ha : actual.WellFormed) :
    rebuildReasons desired actual = [] ↔ desired.InPlace actual := by
  have hcol : desired.columnMap.entries.flatMap (desiredColumnReasons actual) = []
      ↔ ∀ c ∈ desired.columns, ∀ c' ∈ actual.columns, c.name = c'.name → c.Agrees c' := by
    rw [List.flatMap_eq_nil_iff]
    constructor
    · intro h c hc c' hc' hname
      have := h (c.name, c) ((mem_columnMap_entries hd).mpr ⟨hc, rfl⟩)
      rw [desiredColumnReasons, (get?_columnMap ha).mpr ⟨hc', hname.symm⟩] at this
      exact columnReasons_eq_nil_iff.mp this
    · intro h e he
      obtain ⟨hc, hname⟩ := (mem_columnMap_entries hd).mp he
      unfold desiredColumnReasons
      cases hget : actual.columnMap.get? e.1 with
      | none => rfl
      | some c' =>
        obtain ⟨hc', hname'⟩ := (get?_columnMap ha).mp hget
        exact columnReasons_eq_nil_iff.mpr (h e.2 hc c' hc' (hname.trans hname'.symm))
  have hrem : (if removedColumns desired actual ≠ [] then
      [RebuildReason.dropColumns (removedColumns desired actual)] else []) = []
      ↔ ∀ c' ∈ actual.columns, ∃ c ∈ desired.columns, c.name = c'.name := by
    rw [ite_eq_right_iff]
    simp only [List.cons_ne_self, imp_false, not_not]
    rw [List.eq_nil_iff_forall_not_mem]
    simp only [mem_removedColumns hd ha, not_and, not_forall, not_not]
    constructor
    · intro h c' hc'
      obtain ⟨c, hc, hname⟩ := h c'.name ⟨c', hc', rfl⟩
      exact ⟨c, hc, hname⟩
    · intro h n hn
      obtain ⟨c', hc', rfl⟩ := hn
      obtain ⟨c, hc, hname⟩ := h c' hc'
      exact ⟨c, hc, hname⟩
  rw [rebuildReasons, List.append_eq_nil_iff, List.append_eq_nil_iff,
    primaryKeyReasons_eq_nil_iff, hcol, hrem]
  exact ⟨fun h => ⟨h.1.1, h.1.2, h.2⟩, fun h => ⟨⟨h.1, h.2⟩, h.3⟩⟩

/-- The columns added are the target's that the live table lacks, if they
can be added. -/
theorem mem_addColumns (hd : desired.WellFormed) (ha : actual.WellFormed)
    {c : ColumnDef} : c ∈ addColumns desired actual
      ↔ c ∈ desired.columns ∧ (∀ c' ∈ actual.columns, c'.name ≠ c.name)
        ∧ c.addable = true := by
  unfold addColumns
  rw [List.mem_map]
  constructor
  · intro h
    obtain ⟨e, he, rfl⟩ := h
    rw [List.mem_filter, mem_columnMap_entries hd, Bool.and_eq_true,
      Option.isNone_iff_eq_none, get?_columnMap_eq_none ha] at he
    obtain ⟨⟨hc, hname⟩, hnone, hadd⟩ := he
    exact ⟨hc, hname ▸ hnone, hadd⟩
  · intro h
    refine ⟨(c.name, c), ?_, rfl⟩
    rw [List.mem_filter, mem_columnMap_entries hd, Bool.and_eq_true,
      Option.isNone_iff_eq_none, get?_columnMap_eq_none ha]
    exact ⟨⟨h.1, rfl⟩, h.2⟩

theorem addColumns_nodup (hd : desired.WellFormed) :
    ((addColumns desired actual).map (·.name)).Nodup := by
  have hperm := (SortedMap.entries_byKey_perm hd.columns_nodup).map (fun e => e.2.name)
  have hnodup : (desired.columnMap.entries.map (fun e => e.2.name)).Nodup := by
    refine hperm.nodup_iff.mpr ?_
    rw [List.map_map]
    exact hd.columns_nodup
  rw [addColumns, List.map_map]
  exact hnodup.sublist (List.filter_sublist.map _)

/-- **Nothing blocks the target's new columns exactly when each of them can
be added.** -/
theorem requiredColumnBlockers_eq_nil_iff (hd : desired.WellFormed)
    (ha : actual.WellFormed) {n : String} :
    requiredColumnBlockers n desired actual = []
      ↔ ∀ c ∈ desired.columns, (∀ c' ∈ actual.columns, c'.name ≠ c.name) →
        c.addable = true := by
  unfold requiredColumnBlockers
  rw [List.map_eq_nil_iff, List.filter_eq_nil_iff]
  constructor
  · intro h c hc hnone
    have := h (c.name, c) ((mem_columnMap_entries hd).mpr ⟨hc, rfl⟩)
    simpa [(get?_columnMap_eq_none ha).mpr hnone] using this
  · intro h e he hand
    obtain ⟨hc, hname⟩ := (mem_columnMap_entries hd).mp he
    rw [Bool.and_eq_true, Option.isNone_iff_eq_none, get?_columnMap_eq_none ha] at hand
    simp [h e.2 hc (hname ▸ hand.1)] at hand

/-- The index, if the operation creates one. -/
def PlanOp.created : PlanOp → Option IndexDef
  | .createIndex _ index => some index
  | _ => none

/-- The column, if the operation adds one. -/
def PlanOp.added : PlanOp → Option ColumnDef
  | .addColumn _ column => some column
  | _ => none

/-- An index of the target is found unchanged exactly when it is an index
of the live table. -/
theorem index_unchanged_iff (ha : actual.WellFormed) {i : IndexDef} :
    (∃ j, actual.indexMap.get? i.name = some j ∧ i.column = j.column
      ∧ i.unique = j.unique) ↔ i ∈ actual.indexes := by
  constructor
  · intro h
    obtain ⟨j, hj, hcol, huniq⟩ := h
    obtain ⟨hm, hname⟩ := (get?_indexMap ha).mp hj
    obtain ⟨n, c, u⟩ := i
    obtain ⟨n', c', u'⟩ := j
    simp only at hcol huniq hname
    subst hcol huniq hname
    exact hm
  · intro h
    exact ⟨i, (get?_indexMap ha).mpr ⟨h, rfl⟩, rfl, rfl⟩

/-- The indexes created are the target's that the live table does not have
in the same form, each once. -/
theorem created_indexOps (hd : desired.WellFormed) (ha : actual.WellFormed)
    (n : String) : ((indexOps n desired actual).filterMap PlanOp.created).Perm
      (desired.indexes.filter (fun i => i ∉ actual.indexes)) := by
  have hdrops : ((actual.indexMap.entries.filter (fun e =>
      (desired.indexMap.get? e.1).isNone)).map
        (fun e => PlanOp.dropIndex n e.2)).filterMap PlanOp.created = [] := by
    rw [List.filterMap_map]
    exact List.filterMap_eq_nil_iff.mpr (fun _ _ => rfl)
  have hone : ∀ e ∈ desired.indexMap.entries,
      (desiredIndexOps n actual e).filterMap PlanOp.created
        = if e.2 ∈ actual.indexes then [] else [e.2] := by
    intro e he
    obtain ⟨-, hname⟩ := (mem_indexMap_entries hd).mp he
    have hiff := index_unchanged_iff ha (i := e.2)
    rw [hname] at hiff
    unfold desiredIndexOps
    cases hget : actual.indexMap.get? e.1 with
    | none =>
      rw [hget] at hiff
      rw [if_neg (fun hm => by obtain ⟨j, hj, -⟩ := hiff.mpr hm; cases hj)]
      rfl
    | some j =>
      rw [hget] at hiff
      by_cases hsame : e.2.column = j.column ∧ e.2.unique = j.unique
      · rw [if_pos (hiff.mp ⟨j, rfl, hsame⟩)]
        simp [hsame.1, hsame.2]
      · rw [if_neg (fun hm => by
          obtain ⟨j', hj', h⟩ := hiff.mpr hm
          cases hj'
          exact hsame h)]
        dsimp only
        rw [if_pos (by tauto)]
        rfl
  have hperm : ((desired.indexMap.entries).map Prod.snd).Perm desired.indexes := by
    have := (SortedMap.entries_byKey_perm hd.indexes_nodup).map Prod.snd
    rwa [List.map_map, show (Prod.snd ∘ fun i : IndexDef => (i.name, i)) = id from rfl,
      List.map_id] at this
  rw [indexOps, List.filterMap_append, hdrops, List.append_nil, List.filterMap_flatMap]
  have hflat : desired.indexMap.entries.flatMap (fun e =>
      if e.2 ∈ actual.indexes then [] else [e.2])
      = (desired.indexMap.entries.map Prod.snd).filter (fun i => i ∉ actual.indexes) := by
    generalize desired.indexMap.entries = l
    induction l with
    | nil => rfl
    | cons e rest ih =>
      rw [List.flatMap_cons, ih, List.map_cons]
      by_cases hm : e.2 ∈ actual.indexes
      · rw [if_pos hm, List.filter_cons_of_neg (by simpa using hm), List.nil_append]
      · rw [if_neg hm, List.filter_cons_of_pos (by simpa using hm)]
        rfl
  rw [List.flatMap_congr hone, hflat]
  exact hperm.filter _

/-- The index operations drop exactly the live indexes that the target does
not have in the same form. -/
theorem mem_indexOps_drop (hd : desired.WellFormed) (ha : actual.WellFormed)
    {n m : String} {i : IndexDef} : PlanOp.dropIndex m i ∈ indexOps n desired actual
      ↔ m = n ∧ i ∈ actual.indexes ∧ i ∉ desired.indexes := by
  rw [indexOps, List.mem_append, List.mem_flatMap, List.mem_map]
  constructor
  · intro h
    obtain ⟨e, he, hm⟩ | ⟨e, he, hm⟩ := h
    · obtain ⟨hmem, hname⟩ := (mem_indexMap_entries hd).mp he
      unfold desiredIndexOps at hm
      cases hget : actual.indexMap.get? e.1 with
      | none => simp [hget] at hm
      | some j =>
        obtain ⟨hj, hjname⟩ := (get?_indexMap ha).mp hget
        rw [hget] at hm
        dsimp only at hm
        split_ifs at hm with hdiff
        · obtain ⟨rfl, rfl⟩ : m = n ∧ i = j := by simpa using hm
          refine ⟨rfl, hj, fun hi => ?_⟩
          -- a target index of the same name would be the one compared with
          have : i = e.2 :=
            List.inj_on_of_nodup_map hd.indexes_nodup hi hmem (hjname.trans hname.symm)
          subst this
          simp at hdiff
        · simp at hm
    · rw [List.mem_filter, mem_indexMap_entries ha, Option.isNone_iff_eq_none,
        get?_indexMap_eq_none hd] at he
      obtain ⟨rfl, rfl⟩ : n = m ∧ e.2 = i := by simpa using hm
      exact ⟨rfl, he.1.1, fun hi => he.2 _ hi he.1.2⟩
  · intro h
    obtain ⟨rfl, hi, hnot⟩ := h
    cases hget : desired.indexMap.get? i.name with
    | none =>
      refine Or.inr ⟨(i.name, i), ?_, rfl⟩
      rw [List.mem_filter, mem_indexMap_entries ha, Option.isNone_iff_eq_none]
      exact ⟨⟨hi, rfl⟩, hget⟩
    | some j =>
      obtain ⟨hj, hjname⟩ := (get?_indexMap hd).mp hget
      refine Or.inl ⟨(i.name, j), (mem_indexMap_entries hd).mpr ⟨hj, hjname⟩, ?_⟩
      have hdiff : j.column ≠ i.column ∨ j.unique ≠ i.unique := by
        by_contra hcon
        rw [not_or, not_not, not_not] at hcon
        exact hnot (by
          obtain ⟨a, b, c⟩ := i
          obtain ⟨a', b', c'⟩ := j
          simp only at hcon hjname
          rw [← hcon.1, ← hcon.2, ← hjname]
          exact hj)
      rw [desiredIndexOps, (get?_indexMap ha).mpr ⟨hi, rfl⟩]
      dsimp only
      rw [if_pos hdiff]
      exact List.mem_cons_self

theorem mem_indexOps_create (hd : desired.WellFormed) (ha : actual.WellFormed)
    {n m : String} {i : IndexDef} : PlanOp.createIndex m i ∈ indexOps n desired actual
      ↔ m = n ∧ i ∈ desired.indexes ∧ i ∉ actual.indexes := by
  have hname : ∀ {m j}, PlanOp.createIndex m j ∈ indexOps n desired actual → m = n := by
    intro m j h
    rw [indexOps, List.mem_append, List.mem_flatMap, List.mem_map] at h
    obtain ⟨e, -, hm⟩ | ⟨e, -, hm⟩ := h
    · unfold desiredIndexOps at hm
      split at hm
      · exact (by simpa using hm : m = n ∧ j = e.2).1
      · split_ifs at hm
        · exact (by simpa using hm : m = n ∧ j = e.2).1
        · exact absurd hm List.not_mem_nil
    · cases hm
  have hmem : i ∈ (indexOps n desired actual).filterMap PlanOp.created
      ↔ i ∈ desired.indexes ∧ i ∉ actual.indexes := by
    rw [(created_indexOps hd ha n).mem_iff, List.mem_filter]
    simp
  rw [← hmem, List.mem_filterMap]
  constructor
  · intro h
    exact ⟨hname h, _, h, rfl⟩
  · intro h
    obtain ⟨rfl, op, hop, hcreated⟩ := h
    cases op <;> cases hcreated
    obtain rfl := hname hop
    exact hop

/-- Every index operation is about the table, and only drops or creates an
index. -/
theorem indexOps_cases {n : String} {op : PlanOp}
    (h : op ∈ indexOps n desired actual) :
    (∃ i, op = .createIndex n i) ∨ ∃ i, op = .dropIndex n i := by
  rw [indexOps, List.mem_append, List.mem_flatMap, List.mem_map] at h
  obtain ⟨e, -, hm⟩ | ⟨e, -, rfl⟩ := h
  · unfold desiredIndexOps at hm
    split at hm
    · exact Or.inl ⟨e.2, List.mem_singleton.mp hm⟩
    · split_ifs at hm
      · obtain rfl | hm := List.mem_cons.mp hm
        · exact Or.inr ⟨_, rfl⟩
        · exact Or.inl ⟨e.2, List.mem_singleton.mp hm⟩
      · exact absurd hm List.not_mem_nil
  · exact Or.inr ⟨e.2, rfl⟩

/-- Nothing is to be done about the indexes exactly when both sides have
the same. -/
theorem indexOps_eq_nil_iff (hd : desired.WellFormed) (ha : actual.WellFormed)
    {n : String} : indexOps n desired actual = []
      ↔ ∀ i, i ∈ desired.indexes ↔ i ∈ actual.indexes := by
  rw [List.eq_nil_iff_forall_not_mem]
  constructor
  · intro h i
    constructor
    · intro hi
      by_contra hni
      exact h _ ((mem_indexOps_create hd ha).mpr ⟨rfl, hi, hni⟩)
    · intro hi
      by_contra hni
      exact h _ ((mem_indexOps_drop hd ha).mpr ⟨rfl, hi, hni⟩)
  · intro h op hop
    obtain ⟨i, rfl⟩ | ⟨i, rfl⟩ := indexOps_cases hop
    · obtain ⟨-, hi, hni⟩ := (mem_indexOps_create hd ha).mp hop
      exact hni ((h i).mp hi)
    · obtain ⟨-, hi, hni⟩ := (mem_indexOps_drop hd ha).mp hop
      exact hni ((h i).mpr hi)

end OneTable

section Table

variable {desired : TableDef} {actual : ActualTable} {n : String}

/-- A table that cannot be changed in place is rebuilt. -/
theorem diffTable_of_not_inPlace (hd : desired.WellFormed)
    (ha : actual.table.WellFormed) (h : ¬ desired.InPlace actual.table) :
    diffTable n desired actual
      = ([.rebuildTable n actual.table desired (rebuildReasons desired actual.table)],
        requiredColumnBlockers n desired actual.table ++ rebuildBlockers n actual) := by
  unfold diffTable
  dsimp only
  rw [if_pos (fun hnil => h ((rebuildReasons_eq_nil_iff hd ha).mp hnil))]

/-- A table that can be changed in place gets new columns and index
operations only. -/
theorem diffTable_of_inPlace (hd : desired.WellFormed)
    (ha : actual.table.WellFormed) (h : desired.InPlace actual.table) :
    diffTable n desired actual
      = ((sortBy ColumnDef.name (addColumns desired actual.table)).map
            (fun column => .addColumn n column)
          ++ indexOps n desired actual.table,
        requiredColumnBlockers n desired actual.table) := by
  unfold diffTable
  dsimp only
  rw [if_neg (not_not.mpr ((rebuildReasons_eq_nil_iff hd ha).mpr h))]

/-- **A table asks for nothing exactly when it conforms to its target.** -/
theorem diffTable_eq_nil_iff (hd : desired.WellFormed) (ha : actual.table.WellFormed) :
    diffTable n desired actual = ([], []) ↔ desired.Conforms actual.table := by
  constructor
  · intro h
    have hin : desired.InPlace actual.table := by
      by_contra hnot
      rw [diffTable_of_not_inPlace hd ha hnot] at h
      cases (Prod.mk.inj h).1
    rw [diffTable_of_inPlace hd ha hin, Prod.mk.injEq, List.append_eq_nil_iff,
      List.map_eq_nil_iff, requiredColumnBlockers_eq_nil_iff hd ha,
      indexOps_eq_nil_iff hd ha] at h
    obtain ⟨⟨hadd, hidx⟩, hreq⟩ := h
    refine ⟨hin, fun c hc => ?_, hidx⟩
    by_contra hnone
    have hnone : ∀ c' ∈ actual.table.columns, c'.name ≠ c.name :=
      fun c' hc' hname => hnone ⟨c', hc', hname⟩
    have hmem : c ∈ sortBy ColumnDef.name (addColumns desired actual.table) :=
      mem_sortBy.mpr ((mem_addColumns hd ha).mpr ⟨hc, hnone, hreq c hc hnone⟩)
    rw [hadd] at hmem
    exact List.not_mem_nil hmem
  · intro h
    have hadd : sortBy ColumnDef.name (addColumns desired actual.table) = [] := by
      rw [List.eq_nil_iff_forall_not_mem]
      intro c hc
      obtain ⟨hc, hnone, -⟩ := (mem_addColumns hd ha).mp (mem_sortBy.mp hc)
      obtain ⟨c', hc', hname⟩ := h.columns c hc
      exact hnone c' hc' hname
    have hreq : requiredColumnBlockers n desired actual.table = [] := by
      rw [requiredColumnBlockers_eq_nil_iff hd ha]
      intro c hc hnone
      obtain ⟨c', hc', hname⟩ := h.columns c hc
      exact absurd hname (hnone c' hc')
    rw [diffTable_of_inPlace hd ha h.toInPlace, hadd,
      (indexOps_eq_nil_iff hd ha).mpr h.indexes, hreq]
    rfl

/-- Everything a table asks for is about the table. -/
theorem diffTable_tableName {op : PlanOp} (h : op ∈ (diffTable n desired actual).1) :
    op.tableName = n := by
  unfold diffTable at h
  dsimp only at h
  split_ifs at h
  · rw [List.mem_singleton.mp h]
    rfl
  · obtain h | h := List.mem_append.mp h
    · obtain ⟨c, -, rfl⟩ := List.mem_map.mp h
      rfl
    · obtain ⟨i, rfl⟩ | ⟨i, rfl⟩ := indexOps_cases h
      · rfl
      · rfl

theorem dependencyBlockers_tableName {b : PlanBlocker}
    (h : b ∈ dependencyBlockers n actual) : b.tableName = some n := by
  rw [dependencyBlockers, List.mem_append, List.mem_append] at h
  obtain (h | h) | h := h
  · split_ifs at h
    · rw [List.mem_singleton.mp h]
      rfl
    · exact absurd h List.not_mem_nil
  · obtain ⟨x, -, rfl⟩ := List.mem_map.mp h
    rfl
  · obtain ⟨x, -, rfl⟩ := List.mem_map.mp h
    rfl

theorem requiredColumnBlockers_tableName {a : TableDef} {b : PlanBlocker}
    (h : b ∈ requiredColumnBlockers n desired a) : b.tableName = some n := by
  obtain ⟨e, -, rfl⟩ := List.mem_map.mp h
  rfl

theorem diffTable_blocker_tableName {b : PlanBlocker}
    (h : b ∈ (diffTable n desired actual).2) : b.tableName = some n := by
  unfold diffTable at h
  dsimp only at h
  split_ifs at h
  · obtain h | h := List.mem_append.mp h
    · exact requiredColumnBlockers_tableName h
    · obtain h | h := List.mem_append.mp h
      · obtain ⟨x, -, rfl⟩ := List.mem_map.mp h
        rfl
      · exact dependencyBlockers_tableName h
  · exact requiredColumnBlockers_tableName h

end Table

/-! ## Whole schemas -/

/-- What the table of a name asks for, on whichever side it is. -/
def diffPart (target : SchemaDef) (actual : LiveSchema) (n : String) :
    List PlanOp × List PlanBlocker :=
  match target.tableMap.get? n, actual.get? n with
  | some desired, _ => diffTarget actual (n, desired)
  | none, some table => diffDropped (n, table)
  | none, none => ([], [])

section Schema

variable {target : SchemaDef} {actual : LiveSchema} {r : DiffResult}

/-- A live schema is keyed by the names of its tables. -/
def LiveSchema.Keyed (actual : LiveSchema) : Prop :=
  ∀ n a, actual.get? n = some a → a.table.name = n

theorem introspectManaged_keyed (db : Database) (scope : List String) :
    (introspectManaged db scope).Keyed := fun _ _ => introspectManaged_name

theorem source_tableNames (hk : actual.Keyed) :
    (LiveSchema.source actual).tableNames = actual.keys := by
  rw [SchemaDef.tableNames, LiveSchema.source, List.map_map, SortedMap.values, List.map_map]
  exact List.map_congr_left (fun e he => hk e.1 e.2 (SortedMap.mem_entries_iff.mp he))

/-- The normalized live schema names the tables that are there. -/
theorem mem_source_tableNames (hk : actual.Keyed) {s : SchemaDef}
    (hs : (LiveSchema.source actual).normalized = .ok s) {n : String} :
    n ∈ s.tableNames ↔ n ∈ actual.keys := by
  obtain ⟨-, rfl⟩ := SchemaDef.normalized_eq_ok_iff.mp hs
  rw [(SchemaDef.tableNames_sorted_perm _).mem_iff, source_tableNames hk]

theorem get?_tableMap (h : target.WellFormed) {n : String} {t : TableDef} :
    target.tableMap.get? n = some t ↔ t ∈ target.tables ∧ t.name = n :=
  SortedMap.get?_byKey h.nodup

theorem get?_tableMap_eq_none (h : target.WellFormed) {n : String} :
    target.tableMap.get? n = none ↔ n ∉ target.tableNames := by
  rw [SchemaDef.tableMap, SortedMap.get?_byKey_eq_none h.nodup, SchemaDef.tableNames,
    List.mem_map]
  simp only [not_exists, not_and, ne_eq]

theorem diff_eq_ok (h : diff target actual = .ok r) :
    (LiveSchema.source actual).normalized = .ok r.source
      ∧ r.ops = sortBy planOpSortKey ((diffParts target actual).flatMap Prod.fst)
      ∧ r.blockers = sortBy blockerSortKey ((diffParts target actual).flatMap Prod.snd) := by
  unfold diff at h
  split at h
  · cases h
  · rename_i source hs
    cases h
    exact ⟨hs, rfl, rfl⟩

/-- The live tables of a comparison that succeeds are well formed. -/
theorem actual_wellFormed (h : diff target actual = .ok r) {n : String}
    {a : ActualTable} (ha : actual.get? n = some a) : a.table.WellFormed := by
  have hwf := (SchemaDef.normalized_eq_ok_iff.mp (diff_eq_ok h).1).1
  exact hwf.tables _ (List.mem_map.mpr ⟨a, SortedMap.mem_values_iff.mpr ⟨n, ha⟩, rfl⟩)

/-- **Operations come in key order.** -/
theorem diff_ops_sorted (h : diff target actual = .ok r) :
    r.ops.Pairwise (fun op op' => planOpSortKey op ≤ planOpSortKey op') := by
  rw [(diff_eq_ok h).2.1]
  exact pairwise_sortBy _ _

theorem diffTarget_tableName (ht : target.WellFormed) {e : String × TableDef}
    (he : e ∈ target.tableMap.entries) {op : PlanOp} (hop : op ∈ (diffTarget actual e).1) :
    op.tableName = e.1 := by
  obtain ⟨-, hname⟩ := (SortedMap.mem_entries_byKey ht.nodup).mp he
  unfold diffTarget at hop
  split at hop
  · rw [List.mem_singleton.mp hop]
    exact hname
  · exact diffTable_tableName hop

theorem diffTarget_blocker_tableName {e : String × TableDef} {b : PlanBlocker}
    (hb : b ∈ (diffTarget actual e).2) : b.tableName = some e.1 := by
  unfold diffTarget at hb
  split at hb
  · exact absurd hb List.not_mem_nil
  · exact diffTable_blocker_tableName hb

/-- **Picking a table out of the parts.** Whatever of the parts is about a
table is what the table asks for. -/
theorem filter_diffParts {β : Type} (target : SchemaDef) (actual : LiveSchema)
    (proj : List PlanOp × List PlanBlocker → List β)
    (p : β → Bool) (n : String) (hproj : proj ([], []) = [])
    (htarget : ∀ e ∈ target.tableMap.entries, ∀ b ∈ proj (diffTarget actual e),
      p b = true ↔ e.1 = n)
    (hdropped : ∀ e ∈ actual.entries, ∀ b ∈ proj (diffDropped e), p b = true ↔ e.1 = n) :
    ((diffParts target actual).flatMap proj).filter p = proj (diffPart target actual n) := by
  have hnodup : ((actual.entries.filter (fun e => e.1 ∉ target.tableMap.keys)).map
      Prod.fst).Nodup :=
    actual.nodup_keys.sublist (List.filter_sublist.map _)
  rw [diffParts, List.flatMap_append, List.filter_append, List.flatMap_map, List.flatMap_map,
    SortedMap.filter_flatMap_entries target.tableMap _ p n htarget,
    SortedMap.filter_flatMap_of_nodup hnodup _ p n
      (fun e he => hdropped e (List.mem_of_mem_filter he))]
  unfold diffPart
  cases ht : target.tableMap.get? n with
  | some desired =>
    -- a table of the target is not among the dropped ones
    have hnone : (actual.entries.filter (fun e => e.1 ∉ target.tableMap.keys)).find?
        (fun e => e.1 = n) = none := by
      rw [List.find?_eq_none]
      intro e he hen
      obtain rfl : e.1 = n := by simpa using hen
      rw [List.mem_filter] at he
      exact (by simpa using he.2 : e.1 ∉ target.tableMap.keys)
        (SortedMap.mem_keys_iff.mpr ⟨desired, ht⟩)
    rw [hnone]
    exact List.append_nil _
  | none =>
    have hkey : n ∉ target.tableMap.keys := SortedMap.get?_eq_none_iff.mp ht
    have hfind : (actual.entries.filter (fun e => e.1 ∉ target.tableMap.keys)).find?
        (fun e => e.1 = n) = (actual.get? n).map (fun a => (n, a)) := by
      cases ha : actual.get? n with
      | none =>
        rw [Option.map_none, List.find?_eq_none]
        intro e he hen
        obtain rfl : e.1 = n := by simpa using hen
        have := SortedMap.mem_entries_iff.mp (List.mem_of_mem_filter he)
        rw [ha] at this
        cases this
      | some a =>
        have hmem : (n, a) ∈ actual.entries.filter (fun e => e.1 ∉ target.tableMap.keys) :=
          List.mem_filter.mpr ⟨SortedMap.get?_eq_some_iff.mp ha, by simpa using hkey⟩
        have hex : ((actual.entries.filter (fun e => e.1 ∉ target.tableMap.keys)).find?
            (fun e => e.1 = n)).isSome := by
          rw [List.find?_isSome]
          exact ⟨(n, a), hmem, by simp⟩
        obtain ⟨e, he⟩ := Option.isSome_iff_exists.mp hex
        rw [he]
        exact congrArg some (List.inj_on_of_nodup_map hnodup
          (List.mem_of_find?_eq_some he) hmem (by simpa using List.find?_some he))
    rw [hfind]
    cases ha : actual.get? n with
    | none => exact hproj.symm
    | some a => rfl

/-- **The operations about a table are what the table asks for**, in some
order. -/
theorem diff_ops_on (ht : target.WellFormed) (hk : actual.Keyed)
    (h : diff target actual = .ok r) (n : String) :
    (r.ops.filter (fun op => op.tableName = n)).Perm (diffPart target actual n).1 := by
  have hfilter := filter_diffParts target actual Prod.fst
    (fun op : PlanOp => op.tableName = n) n rfl
    (fun e he op hop => by rw [diffTarget_tableName ht he hop, decide_eq_true_iff])
    (fun e he op hop => by
      rw [List.mem_singleton.mp hop, decide_eq_true_iff]
      show e.2.table.name = n ↔ e.1 = n
      rw [hk _ _ (SortedMap.mem_entries_iff.mp he)])
  rw [(diff_eq_ok h).2.1, ← hfilter]
  exact (sortBy_perm _ _).filter _

/-- An operation of the plan is one that its table asks for. -/
theorem mem_diff_ops_iff (ht : target.WellFormed) (hk : actual.Keyed)
    (h : diff target actual = .ok r) {op : PlanOp} :
    op ∈ r.ops ↔ op ∈ (diffPart target actual op.tableName).1 := by
  rw [← (diff_ops_on ht hk h op.tableName).mem_iff, List.mem_filter, decide_eq_true_iff]
  exact (and_iff_left rfl).symm

/-- The blockers about a table are those the table has. -/
theorem diff_blockers_on (h : diff target actual = .ok r) (n : String) :
    (r.blockers.filter (fun b => b.tableName = some n)).Perm
      (diffPart target actual n).2 := by
  have hfilter := filter_diffParts target actual Prod.snd
    (fun b : PlanBlocker => b.tableName = some n) n rfl
    (fun e _ b hb => by
      rw [diffTarget_blocker_tableName hb, decide_eq_true_iff, Option.some.injEq])
    (fun e _ b hb => by
      rw [dependencyBlockers_tableName hb, decide_eq_true_iff, Option.some.injEq])
  rw [(diff_eq_ok h).2.2, ← hfilter]
  exact (sortBy_perm _ _).filter _

/-- Without blockers no table had any. -/
theorem part_blockers_eq_nil (h : diff target actual = .ok r) (hb : r.blockers = [])
    (n : String) : (diffPart target actual n).2 = [] := by
  have := diff_blockers_on h n
  rw [hb] at this
  exact List.nil_perm.mp this

/-- Every blocker is about a table. -/
theorem diff_blocker_tableName (h : diff target actual = .ok r) {b : PlanBlocker}
    (hb : b ∈ r.blockers) : ∃ n, b.tableName = some n := by
  rw [(diff_eq_ok h).2.2, mem_sortBy, diffParts, List.flatMap_append, List.mem_append,
    List.flatMap_map, List.flatMap_map, List.mem_flatMap, List.mem_flatMap] at hb
  obtain ⟨e, -, hb⟩ | ⟨e, -, hb⟩ := hb
  · exact ⟨e.1, diffTarget_blocker_tableName hb⟩
  · exact ⟨e.1, dependencyBlockers_tableName hb⟩

/-- **A comparison asks for nothing exactly when no table does.** -/
theorem diff_eq_nil_iff (ht : target.WellFormed) (hk : actual.Keyed)
    (h : diff target actual = .ok r) :
    r.ops = [] ∧ r.blockers = [] ↔ ∀ n, diffPart target actual n = ([], []) := by
  constructor
  · intro hnil n
    have hops := diff_ops_on ht hk h n
    rw [hnil.1] at hops
    exact Prod.ext (List.nil_perm.mp hops) (part_blockers_eq_nil h hnil.2 n)
  · intro hall
    rw [List.eq_nil_iff_forall_not_mem, List.eq_nil_iff_forall_not_mem]
    constructor
    · intro op hop
      rw [mem_diff_ops_iff ht hk h, hall] at hop
      exact List.not_mem_nil hop
    · intro b hb
      obtain ⟨n, hn⟩ := diff_blocker_tableName h hb
      have hmem : b ∈ r.blockers.filter (fun b => b.tableName = some n) :=
        List.mem_filter.mpr ⟨hb, by rw [hn, decide_eq_true_iff]⟩
      rw [(diff_blockers_on h n).mem_iff, hall] at hmem
      exact List.not_mem_nil hmem

/-- **A rebuild that is not blocked** is the only operation about its table
and has the table as it was found and the target's table; nothing about the
table is unsupported. -/
theorem rebuild_of_mem (ht : target.WellFormed) (hk : actual.Keyed)
    (h : diff target actual = .ok r) (hb : r.blockers = []) {n : String}
    {fromDef toDef : TableDef} {reasons : List RebuildReason}
    (hop : .rebuildTable n fromDef toDef reasons ∈ r.ops) :
    toDef ∈ target.tables
      ∧ (∃ a, actual.get? n = some a ∧ fromDef = a.table
          ∧ a.unsupportedInlineFeatures = [])
      ∧ reasons = rebuildReasons toDef fromDef
      ∧ r.ops.filter (fun op => op.tableName = n)
          = [.rebuildTable n fromDef toDef reasons] := by
  have hperm := diff_ops_on ht hk h n
  have hmem : .rebuildTable n fromDef toDef reasons ∈ (diffPart target actual n).1 :=
    (mem_diff_ops_iff ht hk h).mp hop
  have hnil := part_blockers_eq_nil h hb n
  unfold diffPart at hmem hperm hnil
  cases hd : target.tableMap.get? n with
  | none =>
    rw [hd] at hmem
    cases ha : actual.get? n with
    | none =>
      rw [ha] at hmem
      cases hmem
    | some a =>
      rw [ha] at hmem
      cases List.mem_singleton.mp hmem
  | some desired =>
    rw [hd] at hmem hperm hnil
    dsimp only at hmem hperm hnil
    obtain ⟨hdmem, -⟩ := (get?_tableMap ht).mp hd
    have hdwf := ht.tables desired hdmem
    unfold diffTarget at hmem hperm hnil
    dsimp only at hmem hperm hnil
    cases ha : actual.get? n with
    | none =>
      rw [ha] at hmem
      cases List.mem_singleton.mp hmem
    | some a =>
      rw [ha] at hmem hperm hnil
      dsimp only at hmem hperm hnil
      have hawf := actual_wellFormed h ha
      by_cases hin : desired.InPlace a.table
      · rw [diffTable_of_inPlace hdwf hawf hin] at hmem
        obtain hmem | hmem := List.mem_append.mp hmem
        · obtain ⟨c, -, hc⟩ := List.mem_map.mp hmem
          cases hc
        · obtain ⟨i, hi⟩ | ⟨i, hi⟩ := indexOps_cases hmem
          all_goals cases hi
      · rw [diffTable_of_not_inPlace hdwf hawf hin] at hmem hperm hnil
        cases List.mem_singleton.mp hmem
        refine ⟨hdmem, ⟨a, rfl, rfl, ?_⟩, rfl, List.perm_singleton.mp hperm⟩
        unfold rebuildBlockers at hnil
        dsimp only at hnil
        rw [List.append_eq_nil_iff, List.append_eq_nil_iff] at hnil
        exact List.map_eq_nil_iff.mp hnil.2.1

end Schema

end Seekwel
