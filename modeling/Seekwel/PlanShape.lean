import Seekwel.DiffSpec

/-!
# The shape of a plan

Which operations a plan consists of, said once for all tables
(`mem_diff_ops_iff_asked`), and how they lie in the list: a table that is
created, rebuilt or dropped has no other operation (`diff_ops_whole`), no
index is created twice (`createIndex_not_mem`), and the operations come in
the order of their phase and table (`moment_le_of_split`).
-/

namespace Seekwel

/-- **An operation that the comparison asks for.** -/
inductive Asked (target : SchemaDef) (actual : LiveSchema) : PlanOp → Prop
  /-- A table that is not there is created. -/
  | createTable {t : TableDef} : t ∈ target.tables → actual.get? t.name = none →
      Asked target actual (.createTable t)
  /-- A table that stays in place receives the columns it lacks. -/
  | addColumn {t : TableDef} {a : ActualTable} {c : ColumnDef} : t ∈ target.tables →
      actual.get? t.name = some a → t.InPlace a.table → c ∈ addColumns t a.table →
      Asked target actual (.addColumn t.name c)
  /-- A table that stays in place receives the indexes it lacks. -/
  | createIndex {t : TableDef} {a : ActualTable} {i : IndexDef} : t ∈ target.tables →
      actual.get? t.name = some a → t.InPlace a.table → i ∈ t.indexes →
      i ∉ a.table.indexes → Asked target actual (.createIndex t.name i)
  /-- A table that stays in place loses the other indexes. -/
  | dropIndex {t : TableDef} {a : ActualTable} {i : IndexDef} : t ∈ target.tables →
      actual.get? t.name = some a → t.InPlace a.table → i ∈ a.table.indexes →
      i ∉ t.indexes → Asked target actual (.dropIndex t.name i)
  /-- A table that cannot stay in place is rebuilt. -/
  | rebuildTable {t : TableDef} {a : ActualTable} : t ∈ target.tables →
      actual.get? t.name = some a → ¬ t.InPlace a.table →
      Asked target actual
        (.rebuildTable t.name a.table t (rebuildReasons t a.table))
  /-- A table that the target does not have is dropped. -/
  | dropTable {n : String} {a : ActualTable} : actual.get? n = some a →
      n ∉ target.tableNames → Asked target actual (.dropTable a.table)

/-- An operation on a whole table. -/
def PlanOp.IsWhole : PlanOp → Prop
  | .createTable _ => True
  | .rebuildTable .. => True
  | .dropTable _ => True
  | _ => False

/-- The phase of an operation. -/
def PlanOp.phase : PlanOp → ℕ
  | .dropIndex .. => 0
  | .createTable _ => 1
  | .addColumn .. => 2
  | .rebuildTable .. => 3
  | .createIndex .. => 4
  | .dropTable _ => 5

/-- A moment of a run: a phase, and in it a table. -/
abbrev Moment := ℕ ×ₗ String

/-- The moment at which an operation is run. -/
def PlanOp.moment (op : PlanOp) : Moment := toLex (op.phase, op.tableName)

section Shape

variable {target : SchemaDef} {actual : LiveSchema} {r : DiffResult}

/-- What the table of a name asks for, in each of the cases. -/
theorem diffPart_of_mem (ht : target.WellFormed) {t : TableDef} (hmem : t ∈ target.tables) :
    diffPart target actual t.name = diffTarget actual (t.name, t) := by
  unfold diffPart
  rw [(get?_tableMap ht).mpr ⟨hmem, rfl⟩]

theorem diffPart_of_not_mem (ht : target.WellFormed) {n : String}
    (hmem : n ∉ target.tableNames) {a : ActualTable} (ha : actual.get? n = some a) :
    diffPart target actual n = diffDropped (n, a) := by
  unfold diffPart
  rw [(get?_tableMap_eq_none ht).mpr hmem, ha]

theorem diffTarget_of_none {t : TableDef} (ha : actual.get? t.name = none) :
    diffTarget actual (t.name, t) = ([.createTable t], []) := by
  rw [diffTarget, ha]

theorem diffTarget_of_some {t : TableDef} {a : ActualTable}
    (ha : actual.get? t.name = some a) :
    diffTarget actual (t.name, t) = diffTable t.name t a := by
  rw [diffTarget, ha]

/-- **The operations of a plan are those that are asked for.** -/
theorem mem_diff_ops_iff_asked (ht : target.WellFormed) (hk : actual.Keyed)
    (h : diff target actual = .ok r) {op : PlanOp} : op ∈ r.ops ↔ Asked target actual op := by
  rw [mem_diff_ops_iff ht hk h]
  constructor
  · intro hop
    by_cases hmem : op.tableName ∈ target.tableNames
    · obtain ⟨t, htmem, hname⟩ := List.mem_map.mp hmem
      rw [← hname, diffPart_of_mem ht htmem] at hop
      cases ha : actual.get? t.name with
      | none =>
        rw [diffTarget_of_none ha, List.mem_singleton] at hop
        subst hop
        exact .createTable htmem ha
      | some a =>
        rw [diffTarget_of_some ha] at hop
        have htwf := ht.tables t htmem
        have hawf := actual_wellFormed h ha
        by_cases hin : t.InPlace a.table
        · rw [diffTable_of_inPlace htwf hawf hin, List.mem_append, List.mem_map] at hop
          obtain ⟨c, hc, rfl⟩ | hop := hop
          · exact .addColumn htmem ha hin (mem_sortBy.mp hc)
          · obtain ⟨i, rfl⟩ | ⟨i, rfl⟩ := indexOps_cases hop
            · obtain ⟨-, hi, hnew⟩ := (mem_indexOps_create htwf hawf).mp hop
              exact .createIndex htmem ha hin hi hnew
            · obtain ⟨-, hi, hold⟩ := (mem_indexOps_drop htwf hawf).mp hop
              exact .dropIndex htmem ha hin hi hold
        · rw [diffTable_of_not_inPlace htwf hawf hin, List.mem_singleton] at hop
          subst hop
          exact .rebuildTable htmem ha hin
    · cases ha : actual.get? op.tableName with
      | none =>
        unfold diffPart at hop
        rw [(get?_tableMap_eq_none ht).mpr hmem, ha] at hop
        cases hop
      | some a =>
        rw [diffPart_of_not_mem ht hmem ha] at hop
        rw [List.mem_singleton.mp hop]
        exact .dropTable ha hmem
  · intro hop
    cases hop with
    | createTable htmem ha =>
      show _ ∈ (diffPart target actual _).1
      rw [PlanOp.tableName, diffPart_of_mem ht htmem, diffTarget_of_none ha]
      exact List.mem_singleton_self _
    | addColumn htmem ha hin hc =>
      rw [PlanOp.tableName, diffPart_of_mem ht htmem, diffTarget_of_some ha,
        diffTable_of_inPlace (ht.tables _ htmem) (actual_wellFormed h ha) hin]
      exact List.mem_append_left _ (List.mem_map_of_mem (mem_sortBy.mpr hc))
    | createIndex htmem ha hin hi hnew =>
      have htwf := ht.tables _ htmem
      have hawf := actual_wellFormed h ha
      rw [PlanOp.tableName, diffPart_of_mem ht htmem, diffTarget_of_some ha,
        diffTable_of_inPlace htwf hawf hin]
      exact List.mem_append_right _ ((mem_indexOps_create htwf hawf).mpr ⟨rfl, hi, hnew⟩)
    | dropIndex htmem ha hin hi hold =>
      have htwf := ht.tables _ htmem
      have hawf := actual_wellFormed h ha
      rw [PlanOp.tableName, diffPart_of_mem ht htmem, diffTarget_of_some ha,
        diffTable_of_inPlace htwf hawf hin]
      exact List.mem_append_right _ ((mem_indexOps_drop htwf hawf).mpr ⟨rfl, hi, hold⟩)
    | rebuildTable htmem ha hin =>
      rw [PlanOp.tableName, diffPart_of_mem ht htmem, diffTarget_of_some ha,
        diffTable_of_not_inPlace (ht.tables _ htmem) (actual_wellFormed h ha) hin]
      exact List.mem_singleton_self _
    | @dropTable n a ha hmem =>
      rw [PlanOp.tableName, hk n a ha, diffPart_of_not_mem ht hmem ha]
      exact List.mem_singleton_self _

/-- **An operation on a whole table is the only one about it.** -/
theorem diff_ops_whole (ht : target.WellFormed) (hk : actual.Keyed)
    (h : diff target actual = .ok r) {op : PlanOp} (hop : op ∈ r.ops) (hwhole : op.IsWhole) :
    r.ops.filter (fun op' => op'.tableName = op.tableName) = [op] := by
  refine List.perm_singleton.mp ((diff_ops_on ht hk h op.tableName).trans (.of_eq ?_))
  cases (mem_diff_ops_iff_asked ht hk h).mp hop with
  | createTable htmem ha =>
    rw [PlanOp.tableName, diffPart_of_mem ht htmem, diffTarget_of_none ha]
  | addColumn htmem ha hin hc => exact absurd hwhole id
  | createIndex htmem ha hin hi hnew => exact absurd hwhole id
  | dropIndex htmem ha hin hi hold => exact absurd hwhole id
  | rebuildTable htmem ha hin =>
    rw [PlanOp.tableName, diffPart_of_mem ht htmem, diffTarget_of_some ha,
      diffTable_of_not_inPlace (ht.tables _ htmem) (actual_wellFormed h ha) hin]
  | @dropTable n a ha hmem =>
    rw [PlanOp.tableName, hk n a ha, diffPart_of_not_mem ht hmem ha]
    rfl

/-! ## Splitting a plan at an operation -/

theorem planOpSortKey_eq (op : PlanOp) :
    ∃ s, planOpSortKey op = toLex (op.phase, toLex (op.tableName, s)) := by
  cases op
  all_goals exact ⟨_, rfl⟩

theorem moment_le {op op' : PlanOp} (h : planOpSortKey op ≤ planOpSortKey op') :
    op.moment ≤ op'.moment := by
  obtain ⟨s, hs⟩ := planOpSortKey_eq op
  obtain ⟨s', hs'⟩ := planOpSortKey_eq op'
  rw [hs, hs', Prod.Lex.toLex_le_toLex, Prod.Lex.toLex_le_toLex] at h
  refine Prod.Lex.toLex_le_toLex.mpr (h.imp_right (fun h => ⟨h.1, ?_⟩))
  exact h.2.elim le_of_lt (fun h => le_of_eq h.1)

variable {done rest : List PlanOp} {op op' : PlanOp}

/-- The operations before one are run no later. -/
theorem moment_le_of_mem_done (h : diff target actual = .ok r)
    (hsplit : r.ops = done ++ op :: rest) (hop' : op' ∈ done) : op'.moment ≤ op.moment := by
  have hsorted := diff_ops_sorted h
  rw [hsplit, List.pairwise_append] at hsorted
  exact moment_le (hsorted.2.2 op' hop' op List.mem_cons_self)

theorem phase_le_of_mem_done (h : diff target actual = .ok r)
    (hsplit : r.ops = done ++ op :: rest) (hop' : op' ∈ done) : op'.phase ≤ op.phase := by
  obtain hlt | ⟨heq, -⟩ := Prod.Lex.toLex_le_toLex.mp (moment_le_of_mem_done h hsplit hop')
  · exact le_of_lt hlt
  · exact le_of_eq heq

/-- An operation that is run earlier comes before. -/
theorem mem_done_of_moment_lt (h : diff target actual = .ok r)
    (hsplit : r.ops = done ++ op :: rest) (hop' : op' ∈ r.ops)
    (hlt : op'.moment < op.moment) : op' ∈ done := by
  have hsorted := diff_ops_sorted h
  rw [hsplit, List.pairwise_append, List.pairwise_cons] at hsorted
  rw [hsplit, List.mem_append, List.mem_cons] at hop'
  obtain hop' | rfl | hop' := hop'
  · exact hop'
  · exact absurd hlt (lt_irrefl _)
  · exact absurd hlt (not_lt.mpr (moment_le (hsorted.2.1.1 op' hop')))

/-- No operation before one on a whole table is about the table. -/
theorem tableName_ne_of_whole (ht : target.WellFormed) (hk : actual.Keyed)
    (h : diff target actual = .ok r) (hsplit : r.ops = done ++ op :: rest)
    (hwhole : op.IsWhole) (hop' : op' ∈ done) : op'.tableName ≠ op.tableName := by
  intro hname
  have halone := diff_ops_whole ht hk h
    (hsplit ▸ List.mem_append_right _ List.mem_cons_self) hwhole
  rw [hsplit, List.filter_append, List.filter_cons_of_pos (by simp),
    List.append_eq_singleton_iff] at halone
  obtain ⟨hnil, -⟩ | ⟨-, hcons⟩ := halone
  · exact List.filter_eq_nil_iff.mp hnil op' hop' (by simpa using hname)
  · exact List.cons_ne_nil _ _ hcons

/-- Another operation about the same table is on no whole table. -/
theorem eq_of_whole (ht : target.WellFormed) (hk : actual.Keyed)
    (h : diff target actual = .ok r) (hop : op ∈ r.ops) (hop' : op' ∈ r.ops)
    (hwhole : op.IsWhole) (hname : op'.tableName = op.tableName) : op' = op := by
  have hmem : op' ∈ r.ops.filter (fun op' => op'.tableName = op.tableName) :=
    List.mem_filter.mpr ⟨hop', by simpa using hname⟩
  rw [diff_ops_whole ht hk h hop hwhole] at hmem
  exact List.mem_singleton.mp hmem

/-- **No index is created twice.** -/
theorem createIndex_not_mem (ht : target.WellFormed) (hk : actual.Keyed)
    (h : diff target actual = .ok r) {n : String} {i : IndexDef}
    (hsplit : r.ops = done ++ .createIndex n i :: rest) : .createIndex n i ∉ done := by
  intro hmem
  have hop : .createIndex n i ∈ r.ops := hsplit ▸ List.mem_append_right _ List.mem_cons_self
  have hperm := (diff_ops_on ht hk h n).filterMap PlanOp.created
  cases (mem_diff_ops_iff_asked ht hk h).mp hop with
  | @createIndex t a _ htmem ha hin hi hnew =>
    have htwf := ht.tables _ htmem
    have hawf := actual_wellFormed h ha
    rw [diffPart_of_mem ht htmem, diffTarget_of_some ha, diffTable_of_inPlace htwf hawf hin,
      List.filterMap_append] at hperm
    have hadds : ((sortBy ColumnDef.name (addColumns t a.table)).map
        (fun column => PlanOp.addColumn t.name column)).filterMap PlanOp.created = [] := by
      rw [List.filterMap_map]
      exact List.filterMap_eq_nil_iff.mpr (fun _ _ => rfl)
    rw [hadds, List.nil_append] at hperm
    have hnodup : ((indexOps t.name t a.table).filterMap PlanOp.created).Nodup :=
      (created_indexOps htwf hawf t.name).nodup_iff.mpr
        ((List.Nodup.of_map _ htwf.indexes_nodup).filter _)
    have hdisjoint := hperm.nodup_iff.mpr hnodup
    rw [hsplit, List.filter_append, List.filterMap_append,
      List.filter_cons_of_pos (by simp [PlanOp.tableName]),
      List.filterMap_cons_some (by rfl), List.nodup_append] at hdisjoint
    refine hdisjoint.2.2 i ?_ i List.mem_cons_self rfl
    exact List.mem_filterMap.mpr
      ⟨_, List.mem_filter.mpr ⟨hmem, by simp [PlanOp.tableName]⟩, rfl⟩

end Shape

end Seekwel
