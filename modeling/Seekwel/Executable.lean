import Seekwel.Lifetimes
import Seekwel.PlanShape

/-!
# When a plan can be executed

A plan is not always one that can be run. Its operations come in six
phases, indexes are created inside the operations that create or rebuild a
table, and an index of another table keeps its name until that table is
rebuilt or dropped. `NamesFree` says of the target and of the live tables
when no name stands in the way: whatever is created has a name of its own
(`Arrives`), and whatever had the name before is gone by then (`Leaves`).

The condition is exact (`executable`): if it holds, no run of the plan on
the database ever needs a name that is in use, and otherwise some statement
does.
-/

namespace Seekwel

/-! ## What comes and what goes -/

/-- **What a plan creates**, and the moment at which it does. -/
inductive Arrives (target : SchemaDef) (actual : LiveSchema) : Moment → Holder → Prop
  /-- A table that is not there. -/
  | table {t : TableDef} : t ∈ target.tables → actual.get? t.name = none →
      Arrives target actual (toLex (1, t.name)) (.table t.name)
  /-- An index of such a table. -/
  | tableIndex {t : TableDef} {i : IndexDef} : t ∈ target.tables →
      actual.get? t.name = none → i ∈ t.indexes →
      Arrives target actual (toLex (1, t.name)) (.index i.name t.name)
  /-- An index of a table that is rebuilt. -/
  | rebuiltIndex {t : TableDef} {a : ActualTable} {i : IndexDef} : t ∈ target.tables →
      actual.get? t.name = some a → ¬ t.InPlace a.table → i ∈ t.indexes →
      Arrives target actual (toLex (3, t.name)) (.index i.name t.name)
  /-- A new index of a table that stays in place. -/
  | newIndex {t : TableDef} {a : ActualTable} {i : IndexDef} : t ∈ target.tables →
      actual.get? t.name = some a → t.InPlace a.table → i ∈ t.indexes →
      i ∉ a.table.indexes →
      Arrives target actual (toLex (4, t.name)) (.index i.name t.name)

/-- **What goes away before anything else is dropped**, and the moment at
which it does. -/
inductive Leaves (e : Engine) (target : SchemaDef) (actual : LiveSchema) :
    Moment → Holder → Prop
  /-- An index that a table in place does not keep. -/
  | droppedIndex {t : TableDef} {a : ActualTable} {i : IndexDef} : t ∈ target.tables →
      actual.get? t.name = some a → t.InPlace a.table → i ∈ a.table.indexes →
      i ∉ t.indexes → Leaves e target actual (toLex (0, t.name)) (.index i.name t.name)
  /-- An index of a table that is rebuilt, unless it is created again. -/
  | rebuiltIndex {t : TableDef} {a : ActualTable} {x : String} : t ∈ target.tables →
      actual.get? t.name = some a → ¬ t.InPlace a.table →
      .index x t.name ∉ replayed e actual t.name →
      Leaves e target actual (toLex (3, t.name)) (.index x t.name)

/-- **No name stands in the way of a plan.** -/
structure NamesFree (e : Engine) (target : SchemaDef) (actual : LiveSchema)
    (used : Set Holder) : Prop where
  /-- What is created has distinct names. -/
  distinct : ∀ m h m' h', Arrives target actual m h → Arrives target actual m' h' →
    SameName h.name h'.name → h = h'
  /-- Whatever has the name of something created is gone by then. -/
  gone : ∀ m h, Arrives target actual m h → ∀ h' ∈ used, SameName h.name h'.name →
    ∃ m' ≤ m, Leaves e target actual m' h'
  /-- The temporary name of a rebuild is free at the time of the rebuild. -/
  temporary : ∀ t ∈ target.tables, ∀ a, actual.get? t.name = some a → ¬ t.InPlace a.table →
    (∀ h ∈ used, SameName (rebuildName t.name) h.name →
      ∃ m < toLex (3, t.name), Leaves e target actual m h)
    ∧ ∀ m h, Arrives target actual m h → m < toLex (3, t.name) →
      ¬ SameName (rebuildName t.name) h.name

/-- **The names of a database**: tables, indexes and views have distinct
names, and an index has its table. -/
structure Database.Named (db : Database) : Prop where
  distinct : DistinctNames db.holders
  owned : ∀ o ∈ db.objects, o.kind = .index → o.tblName ∈ db.tables.keys

/-- **A comparison**, with what is known of the names in use. -/
structure Comparison (e : Engine) (target : SchemaDef) (actual : LiveSchema)
    (used : Set Holder) (r : DiffResult) : Prop where
  wellFormed : target.WellFormed
  keyed : actual.Keyed
  diff : diff target actual = .ok r
  distinct : ∀ h ∈ used, ∀ h' ∈ used, SameName h.name h'.name → h = h'
  owned : ∀ x n, .index x n ∈ used → .table n ∈ used
  /-- The tables that were found are there, with their indexes. -/
  found : ∀ n a, actual.get? n = some a → .table n ∈ used ∧ ∀ i ∈ a.table.indexes,
    .index i.name n ∈ used ∧ isManagedIndexName i.name = true
  /-- What is created again by a rebuild is there, and not managed. -/
  returning : ∀ n, ∀ h ∈ replayed e actual n,
    h ∈ used ∧ ∃ x, h = .index x n ∧ isManagedIndexName x = false
  returning_distinct : ∀ n, DistinctNames (replayed e actual n)

section Introspected

variable {e : Engine} {db : Database} {scope : List String}

/-- What a rebuild creates again are live indexes: those with a stored
statement and a name that is not managed. -/
theorem replayed_introspected (scope : List String) (n : String)
    (hdeclared : ∀ o ∈ db.objects, ∀ sql, o.sql = some sql → e.declared sql = some o) :
    replayed e (introspectManaged db scope) n = [] ∨
    replayed e (introspectManaged db scope) n
      = (db.objects.filter (fun o => o.tblName = n && o.kind = .index && o.sql.isSome
          && !isManagedIndexName o.name)).filterMap SchemaObject.holder := by
  cases ha : (introspectManaged db scope).get? n with
  | none =>
    left
    rw [replayed, ha]
  | some a =>
    right
    rw [get?_introspectManaged] at ha
    split_ifs at ha
    obtain ⟨sql, -, rfl⟩ := Option.map_eq_some_iff.mp ha
    have hget : (introspectManaged db scope).get? n = some (introspectTable db n sql) := by
      rw [get?_introspectManaged, if_pos (by assumption)]
      exact ha
    rw [replayed, hget]
    show (replayableObjects db n).filterMap _ = _
    rw [replayableObjects, List.filterMap_filterMap, List.filterMap_filter, List.filterMap_filter]
    refine List.filterMap_congr (fun o ho => ?_)
    by_cases hn : o.tblName = n
    · cases hsql : o.sql with
      | none => simp [hn]
      | some text =>
        have ho := hdeclared o ho text hsql
        cases hkind : o.kind with
        | view => simp [hn]
        | trigger => simp [hn, ho, SchemaObject.holder, hkind]
        | index =>
          cases hmanaged : isManagedIndexName o.name with
          | true => simp [hn]
          | false => simp [hn, ho]
    · simp [hn]

/-- A managed index that was found is there. -/
theorem index_introspected {n : String} {a : ActualTable}
    (ha : (introspectManaged db scope).get? n = some a) {i : IndexDef}
    (hi : i ∈ a.table.indexes) :
    .index i.name n ∈ db.used ∧ isManagedIndexName i.name = true := by
  rw [get?_introspectManaged] at ha
  split_ifs at ha
  obtain ⟨sql, -, rfl⟩ := Option.map_eq_some_iff.mp ha
  obtain ⟨o, ho, hmanaged⟩ := List.mem_filterMap.mp hi
  obtain ⟨hmem, hkind⟩ := List.mem_filter.mp ho
  rw [Bool.and_eq_true, decide_eq_true_iff, decide_eq_true_iff] at hkind
  unfold managedIndex at hmanaged
  split_ifs at hmanaged with hname
  split at hmanaged
  · cases hmanaged
    rw [Bool.or_eq_true, not_or] at hname
    exact ⟨index_mem_used.mpr ⟨o, hmem, hkind.1, rfl, hkind.2⟩, by simpa using hname.1⟩
  · cases hmanaged

/-- **A comparison with a live database** knows what there is to know. -/
theorem comparison_introspected {target : SchemaDef} {r : DiffResult}
    (ht : target.WellFormed) (hdb : db.Named)
    (hdeclared : ∀ o ∈ db.objects, ∀ sql, o.sql = some sql → e.declared sql = some o)
    (h : diff target (introspectManaged db scope) = .ok r) :
    Comparison e target (introspectManaged db scope) db.used r where
  wellFormed := ht
  keyed := introspectManaged_keyed db scope
  diff := h
  distinct := fun h hh h' hh' => hdb.distinct.eq hh hh'
  owned := by
    intro x n hx
    obtain ⟨o, ho, hkind, -, rfl⟩ := index_mem_used.mp hx
    exact table_mem_used.mpr (hdb.owned o ho hkind)
  found := by
    intro n a ha
    refine ⟨table_mem_used.mpr ?_, fun i hi => index_introspected ha hi⟩
    rw [get?_introspectManaged] at ha
    split_ifs at ha
    obtain ⟨sql, hsql, -⟩ := Option.map_eq_some_iff.mp ha
    obtain ⟨t, ht, -⟩ := Option.bind_eq_some_iff.mp hsql
    exact SortedMap.mem_keys_iff.mpr ⟨t, ht⟩
  returning := by
    intro n h hh
    obtain heq | heq := replayed_introspected scope n hdeclared
    · rw [heq] at hh
      exact absurd hh List.not_mem_nil
    · rw [heq] at hh
      obtain ⟨o, ho, hholder⟩ := List.mem_filterMap.mp hh
      obtain ⟨hmem, hcond⟩ := List.mem_filter.mp ho
      simp only [Bool.and_eq_true, decide_eq_true_iff, Bool.not_eq_true'] at hcond
      obtain ⟨⟨⟨rfl, hkind⟩, -⟩, hmanaged⟩ := hcond
      unfold SchemaObject.holder at hholder
      rw [hkind] at hholder
      obtain rfl := Option.some.inj hholder
      exact ⟨index_mem_used.mpr ⟨o, hmem, hkind, rfl, rfl⟩, o.name, rfl, hmanaged⟩
  returning_distinct := by
    intro n
    obtain heq | heq := replayed_introspected scope n hdeclared
    · rw [heq]
      exact List.Pairwise.nil
    · rw [heq]
      refine (List.pairwise_append.mp hdb.distinct).2.1.sublist ?_
      exact List.filter_sublist.filterMap _

end Introspected

/-! ## The operations of a plan -/

section Plan

variable {e : Engine} {target : SchemaDef} {actual : LiveSchema} {used : Set Holder}
  {r : DiffResult} {done rest : List PlanOp} {op op' : PlanOp}

theorem Comparison.asked (C : Comparison e target actual used r) :
    op ∈ r.ops ↔ Asked target actual op :=
  mem_diff_ops_iff_asked C.wellFormed C.keyed C.diff

theorem mem_indexHolders {n : String} {indexes : List IndexDef} {h : Holder} :
    h ∈ indexHolders n indexes ↔ ∃ i ∈ indexes, .index i.name n = h := List.mem_map

/-- **What arrives is what the operations create.** -/
theorem Comparison.arrives_iff (C : Comparison e target actual used r) {m : Moment}
    {h : Holder} : Arrives target actual m h ↔ ∃ op ∈ r.ops, op.moment = m ∧ h ∈ op.creates := by
  constructor
  · intro harrives
    cases harrives with
    | table ht ha =>
      exact ⟨_, C.asked.mpr (.createTable ht ha), rfl, List.mem_cons_self⟩
    | tableIndex ht ha hi =>
      exact ⟨_, C.asked.mpr (.createTable ht ha), rfl,
        List.mem_cons_of_mem _ (mem_indexHolders.mpr ⟨_, hi, rfl⟩)⟩
    | rebuiltIndex ht ha hin hi =>
      exact ⟨_, C.asked.mpr (.rebuildTable ht ha hin), rfl, mem_indexHolders.mpr ⟨_, hi, rfl⟩⟩
    | newIndex ht ha hin hi hnew =>
      exact ⟨_, C.asked.mpr (.createIndex ht ha hin hi hnew), rfl, List.mem_singleton_self _⟩
  · intro hcreates
    obtain ⟨op, hop, rfl, hcreates⟩ := hcreates
    cases C.asked.mp hop with
    | createTable ht ha =>
      obtain rfl | hcreates := List.mem_cons.mp hcreates
      · exact .table ht ha
      · obtain ⟨i, hi, rfl⟩ := mem_indexHolders.mp hcreates
        exact .tableIndex ht ha hi
    | addColumn ht ha hin hc => exact absurd hcreates List.not_mem_nil
    | createIndex ht ha hin hi hnew =>
      obtain rfl := List.mem_singleton.mp hcreates
      exact .newIndex ht ha hin hi hnew
    | dropIndex ht ha hin hi hold => exact absurd hcreates List.not_mem_nil
    | rebuildTable ht ha hin =>
      obtain ⟨i, hi, rfl⟩ := mem_indexHolders.mp hcreates
      exact .rebuiltIndex ht ha hin hi
    | dropTable ha hmem => exact absurd hcreates List.not_mem_nil

/-- What an operation before the last phase removes leaves. -/
theorem Comparison.leaves_of_removes (C : Comparison e target actual used r)
    (hop : op ∈ r.ops) (hphase : op.phase < 5) {h : Holder} (hh : h ∈ used)
    (hremoves : op.Removes e actual h) : Leaves e target actual op.moment h := by
  cases C.asked.mp hop with
  | createTable ht ha => exact absurd hremoves id
  | addColumn ht ha hin hc => exact absurd hremoves id
  | createIndex ht ha hin hi hnew => exact absurd hremoves id
  | dropIndex ht ha hin hi hold =>
    -- the index is dropped by its name, which no other index has
    obtain ⟨m, rfl⟩ := hremoves
    have hmem := ((C.found _ _ ha).2 _ hi).1
    rw [C.distinct _ hh _ hmem (SameName.refl _)]
    exact .droppedIndex ht ha hin hi hold
  | rebuildTable ht ha hin =>
    obtain ⟨hbelongs, hne, hgone⟩ := hremoves
    cases h with
    | table m => exact absurd (congrArg Holder.table hbelongs) hne
    | index x m =>
      obtain rfl : m = _ := hbelongs
      exact .rebuiltIndex ht ha hin hgone
    | view x => exact absurd hbelongs id
  | dropTable ha hmem => exact absurd hphase (lt_irrefl 5)

/-- What leaves is removed by an operation of the first or the fourth
phase. -/
theorem Comparison.removes_of_leaves (C : Comparison e target actual used r) {m : Moment}
    {h : Holder} (hleaves : Leaves e target actual m h) :
    ∃ op ∈ r.ops, op.moment = m ∧ op.Removes e actual h ∧ (op.phase = 0 ∨ op.phase = 3) := by
  cases hleaves with
  | droppedIndex ht ha hin hi hold =>
    exact ⟨_, C.asked.mpr (.dropIndex ht ha hin hi hold), rfl, ⟨_, rfl⟩, Or.inl rfl⟩
  | rebuiltIndex ht ha hin hgone =>
    exact ⟨_, C.asked.mpr (.rebuildTable ht ha hin), rfl, ⟨rfl, by simp, hgone⟩, Or.inr rfl⟩

/-- Tables stay. -/
theorem not_leaves_table {m : Moment} {n : String} :
    ¬ Leaves e target actual m (.table n) := by
  intro h
  cases h

/-- What is created again by a rebuild stays. -/
theorem Comparison.not_leaves_replayed (C : Comparison e target actual used r) {n : String}
    {h : Holder} (hh : h ∈ replayed e actual n) {m : Moment} :
    ¬ Leaves e target actual m h := by
  intro hleaves
  obtain ⟨-, x, rfl, hunmanaged⟩ := C.returning n h hh
  cases hleaves with
  | droppedIndex ht ha hin hi hold =>
    rw [((C.found _ _ ha).2 _ hi).2] at hunmanaged
    cases hunmanaged
  | rebuiltIndex ht ha hin hgone => exact hgone hh

/-- **No operation removes what one before it created.** -/
theorem Comparison.keeps (C : Comparison e target actual used r)
    (hsplit : r.ops = done ++ op :: rest) (hop' : op' ∈ done) {h : Holder}
    (hcreates : h ∈ op'.creates) : ¬ op.Removes e actual h := by
  intro hremoves
  have hbelongs := belongsTo_of_creates hcreates
  cases op with
  | dropIndex n i =>
    -- indexes are dropped before anything is created
    have hphase := phase_le_of_mem_done C.diff hsplit hop'
    cases op' with
    | dropIndex m j => exact absurd hcreates List.not_mem_nil
    | _ => exact absurd hphase (by simp [PlanOp.phase])
  | rebuildTable n fromDef toDef reasons =>
    exact tableName_ne_of_whole C.wellFormed C.keyed C.diff hsplit trivial hop'
      (hbelongs.unique hremoves.1)
  | dropTable t =>
    exact tableName_ne_of_whole C.wellFormed C.keyed C.diff hsplit trivial hop'
      (hbelongs.unique hremoves)
  | createTable t => exact absurd hremoves id
  | addColumn n c => exact absurd hremoves id
  | createIndex n i => exact absurd hremoves id

/-- A live table is there until the last phase. -/
theorem Comparison.table_reached (C : Comparison e target actual used r)
    (hsplit : r.ops = done ++ op :: rest) (hphase : op.phase < 5) {n : String}
    (hn : .table n ∈ used) : .table n ∈ reached e actual used done := by
  refine Or.inl ⟨hn, fun op' hop' hremoves => ?_⟩
  have hmem : op' ∈ r.ops := hsplit ▸ List.mem_append_left _ hop'
  exact not_leaves_table (C.leaves_of_removes hmem
    ((phase_le_of_mem_done C.diff hsplit hop').trans_lt hphase) hn hremoves)

/-- **A rebuild finds what it relies on.** -/
theorem Comparison.rebuildable (C : Comparison e target actual used r) {n : String}
    {fromDef toDef : TableDef} {reasons : List RebuildReason}
    (hsplit : r.ops = done ++ .rebuildTable n fromDef toDef reasons :: rest) :
    Rebuildable e actual (reached e actual used done) n := by
  have htable : ∀ {m : String}, .table m ∈ used → .table m ∈ reached e actual used done :=
    fun hm => C.table_reached hsplit (show 3 < 5 by decide) hm
  cases C.asked.mp (hsplit ▸ List.mem_append_right _ List.mem_cons_self) with
  | rebuildTable ht ha hin =>
    refine ⟨by rw [ha]; rfl, htable (C.found _ _ ha).1, fun h hh => ?_, fun x hx => ?_⟩
    · refine Or.inl ⟨(C.returning _ h hh).1, fun op' hop' hremoves => ?_⟩
      have hmem : op' ∈ r.ops := hsplit ▸ List.mem_append_left _ hop'
      exact C.not_leaves_replayed hh (C.leaves_of_removes hmem
        ((phase_le_of_mem_done C.diff hsplit hop').trans_lt (show 3 < 5 by decide))
        (C.returning _ h hh).1 hremoves)
    · obtain ⟨hlive, -⟩ | ⟨op', hop', hcreates⟩ := hx
      · exact htable (C.owned _ _ hlive)
      · -- the index came with its table, or its table was there before
        have hname := belongsTo_of_creates hcreates
        cases C.asked.mp (hsplit ▸ List.mem_append_left _ hop' : op' ∈ r.ops) with
        | createTable ht' ha' =>
          exact Or.inr ⟨_, hop', List.mem_cons.mpr (Or.inl (congrArg Holder.table hname))⟩
        | createIndex ht' ha' hin' hi hnew => exact htable (hname ▸ (C.found _ _ ha').1)
        | rebuildTable ht' ha' hin' => exact htable (hname ▸ (C.found _ _ ha').1)
        | addColumn ht' ha' hin' hc => exact absurd hcreates List.not_mem_nil
        | dropIndex ht' ha' hin' hi hold => exact absurd hcreates List.not_mem_nil
        | dropTable ha' hmem => exact absurd hcreates List.not_mem_nil

/-! ## Necessity -/

/-- What an operation creates is not there, unless the operation removes
what is. -/
theorem removes_of_free (hfree : op.Free e actual used) {h x : Holder}
    (hcreates : h ∈ op.creates) (hx : x ∈ used) (hsame : SameName h.name x.name) :
    op.Removes e actual x := by
  cases op with
  | rebuildTable n fromDef toDef reasons =>
    obtain ⟨-, -, hdistinct, hnew⟩ := hfree
    have hnot := hnew h (List.mem_append_left _ hcreates)
    refine ⟨?_, ?_, fun hreplayed => ?_⟩
    · by_contra hbelongs
      exact hnot ⟨x, Or.inl ⟨hx, hbelongs⟩, hsame⟩
    · rintro rfl
      exact hnot ⟨_, Or.inr rfl, hsame⟩
    · exact (List.pairwise_append.mp hdistinct).2.2 h hcreates x hreplayed hsame.symm
  | createTable t => exact absurd ⟨x, hx, hsame⟩ (hfree.2 h hcreates)
  | createIndex n i => exact absurd ⟨x, hx, hsame⟩ (hfree.2 h hcreates)
  | addColumn n c => exact absurd hcreates List.not_mem_nil
  | dropIndex n i => exact absurd hcreates List.not_mem_nil
  | dropTable t => exact absurd hcreates List.not_mem_nil

theorem distinctNames_of_free (hfree : op.Free e actual used) : DistinctNames op.creates := by
  cases op with
  | rebuildTable n fromDef toDef reasons => exact (List.pairwise_append.mp hfree.2.2.1).1
  | _ => exact hfree.1

theorem phase_lt_of_creates {h : Holder} (hcreates : h ∈ op.creates) : op.phase < 5 := by
  cases op with
  | dropTable t => exact absurd hcreates List.not_mem_nil
  | _ => simp [PlanOp.phase]

/-- **If every operation finds its names free, no name stands in the
way.** -/
theorem Comparison.namesFree_of_free (C : Comparison e target actual used r)
    (hfree : ∀ done op rest, r.ops = done ++ op :: rest →
      op.Free e actual (reached e actual used done)) :
    NamesFree e target actual used := by
  -- what a later operation creates differs from what an earlier one did
  have hapart : ∀ {done rest op op' h h'}, r.ops = done ++ op :: rest → op' ∈ done →
      h ∈ op.creates → h' ∈ op'.creates → ¬ SameName h.name h'.name :=
    fun hsplit hop' hh hh' hsame => C.keeps hsplit hop' hh'
      (removes_of_free (hfree _ _ _ hsplit) hh (Or.inr ⟨_, hop', hh'⟩) hsame)
  refine ⟨fun m h m' h' hm hm' hsame => ?_, fun m h hm h' hh' hsame => ?_,
    fun t ht a ha hin => ?_⟩
  · obtain ⟨op, hop, -, hh⟩ := C.arrives_iff.mp hm
    obtain ⟨op', hop', -, hh'⟩ := C.arrives_iff.mp hm'
    obtain ⟨done, rest, hsplit⟩ := List.append_of_mem hop
    rw [hsplit, List.mem_append, List.mem_cons] at hop'
    obtain hop' | rfl | hop' := hop'
    · exact absurd hsame (hapart hsplit hop' hh hh')
    · exact (distinctNames_of_free (hfree _ _ _ hsplit)).eq hh hh' hsame
    · obtain ⟨mid, rest', rfl⟩ := List.append_of_mem hop'
      have hsplit' : r.ops = (done ++ op :: mid) ++ op' :: rest' := by
        rw [hsplit, List.append_assoc, List.cons_append]
      exact absurd hsame.symm (hapart hsplit'
        (List.mem_append_right _ List.mem_cons_self) hh' hh)
  · obtain ⟨op, hop, rfl, hh⟩ := C.arrives_iff.mp hm
    obtain ⟨done, rest, hsplit⟩ := List.append_of_mem hop
    by_cases hgone : ∃ op' ∈ done, op'.Removes e actual h'
    · obtain ⟨op', hop', hremoves⟩ := hgone
      refine ⟨op'.moment, moment_le_of_mem_done C.diff hsplit hop', ?_⟩
      exact C.leaves_of_removes (hsplit ▸ List.mem_append_left _ hop')
        ((phase_le_of_mem_done C.diff hsplit hop').trans_lt (phase_lt_of_creates hh)) hh' hremoves
    · have hreached : h' ∈ reached e actual used done :=
        Or.inl ⟨hh', fun op' hop' hremoves => hgone ⟨op', hop', hremoves⟩⟩
      exact ⟨op.moment, le_refl _, C.leaves_of_removes hop (phase_lt_of_creates hh) hh'
        (removes_of_free (hfree _ _ _ hsplit) hh hreached hsame)⟩
  · have hop := C.asked.mpr (.rebuildTable ht ha hin)
    obtain ⟨done, rest, hsplit⟩ := List.append_of_mem hop
    have htemp := (hfree _ _ _ hsplit).1
    constructor
    · intro h hh hsame
      by_cases hgone : ∃ op' ∈ done, op'.Removes e actual h
      · obtain ⟨op', hop', hremoves⟩ := hgone
        have hne : op'.tableName ≠ t.name :=
          tableName_ne_of_whole C.wellFormed C.keyed C.diff hsplit trivial hop'
        refine ⟨op'.moment, lt_of_le_of_ne (moment_le_of_mem_done C.diff hsplit hop')
          (fun heq => hne (Prod.mk.inj (toLex_inj.mp heq)).2), ?_⟩
        exact C.leaves_of_removes (hsplit ▸ List.mem_append_left _ hop')
          ((phase_le_of_mem_done C.diff hsplit hop').trans_lt (show 3 < 5 by decide)) hh hremoves
      · exact absurd ⟨h, Or.inl ⟨hh, fun op' hop' hremoves => hgone ⟨op', hop', hremoves⟩⟩,
          hsame⟩ htemp
    · intro m h hm hlt hsame
      obtain ⟨op', hop', rfl, hh⟩ := C.arrives_iff.mp hm
      have hdone := mem_done_of_moment_lt C.diff hsplit hop' hlt
      exact htemp ⟨h, Or.inr ⟨op', hdone, hh⟩, hsame⟩

/-! ## Sufficiency -/

theorem indexHolders_nodup {n : String} {indexes : List IndexDef}
    (h : (indexes.map (·.name)).Nodup) : (indexHolders n indexes).Nodup := by
  have heq : indexHolders n indexes = (indexes.map (·.name)).map (fun x => .index x n) := by
    rw [List.map_map]
    rfl
  rw [heq]
  exact h.map (fun x y hxy => (Holder.index.inj hxy).1)

/-- An operation creates no name twice. -/
theorem Comparison.creates_nodup (C : Comparison e target actual used r) (hop : op ∈ r.ops) :
    op.creates.Nodup := by
  cases C.asked.mp hop with
  | createTable ht ha =>
    refine List.nodup_cons.mpr ⟨fun hmem => ?_,
      indexHolders_nodup (C.wellFormed.tables _ ht).indexes_nodup⟩
    obtain ⟨i, -, hi⟩ := mem_indexHolders.mp hmem
    cases hi
  | rebuildTable ht ha hin => exact indexHolders_nodup (C.wellFormed.tables _ ht).indexes_nodup
  | createIndex ht ha hin hi hnew => exact List.nodup_singleton _
  | addColumn ht ha hin hc => exact List.nodup_nil
  | dropIndex ht ha hin hi hold => exact List.nodup_nil
  | dropTable ha hmem => exact List.nodup_nil

/-- What an operation creates was not created before. -/
theorem Comparison.created_once (C : Comparison e target actual used r)
    (hsplit : r.ops = done ++ op :: rest) (hop' : op' ∈ done) {h : Holder}
    (hcreates : h ∈ op.creates) : h ∉ op'.creates := by
  intro hcreates'
  have hmem : op ∈ r.ops := hsplit ▸ List.mem_append_right _ List.mem_cons_self
  have hmem' : op' ∈ r.ops := hsplit ▸ List.mem_append_left _ hop'
  have hname : op'.tableName = op.tableName :=
    (belongsTo_of_creates hcreates').unique (belongsTo_of_creates hcreates)
  by_cases hwhole : op.IsWhole
  · exact tableName_ne_of_whole C.wellFormed C.keyed C.diff hsplit hwhole hop' hname
  · by_cases hwhole' : op'.IsWhole
    · rw [eq_of_whole C.wellFormed C.keyed C.diff hmem' hmem hwhole' hname.symm] at hwhole
      exact hwhole hwhole'
    · -- two indexes of one name on one table are the same index
      cases op with
      | createIndex n i =>
        cases op' with
        | createIndex n' i' =>
          obtain rfl : n' = n := hname
          obtain rfl := List.mem_singleton.mp hcreates
          have hsame := (Holder.index.inj (List.mem_singleton.mp hcreates')).1
          obtain ⟨t, ht, rfl, hi⟩ : ∃ t ∈ target.tables, t.name = n' ∧ i ∈ t.indexes := by
            cases C.asked.mp hmem with
            | createIndex ht ha hin hi hnew => exact ⟨_, ht, rfl, hi⟩
          obtain ⟨t', ht', hname', hi'⟩ :
              ∃ t' ∈ target.tables, t'.name = t.name ∧ i' ∈ t'.indexes := by
            generalize hn : t.name = n at hmem'
            cases C.asked.mp hmem' with
            | createIndex ht ha hin hi hnew => exact ⟨_, ht, rfl, hi⟩
          obtain rfl := List.inj_on_of_nodup_map C.wellFormed.nodup ht' ht hname'
          obtain rfl := List.inj_on_of_nodup_map (C.wellFormed.tables _ ht).indexes_nodup
            hi hi' hsame
          exact createIndex_not_mem C.wellFormed C.keyed C.diff hsplit hop'
        | createTable t => exact hwhole' trivial
        | rebuildTable n fromDef toDef reasons => exact hwhole' trivial
        | addColumn n c => exact absurd hcreates' List.not_mem_nil
        | dropIndex n i => exact absurd hcreates' List.not_mem_nil
        | dropTable t => exact absurd hcreates' List.not_mem_nil
      | createTable t => exact hwhole trivial
      | rebuildTable n fromDef toDef reasons => exact hwhole trivial
      | addColumn n c => exact absurd hcreates List.not_mem_nil
      | dropIndex n i => exact absurd hcreates List.not_mem_nil
      | dropTable t => exact absurd hcreates List.not_mem_nil

/-- If no name stands in the way, an operation creates nothing of a name
that was reached, unless it removes what has the name. -/
theorem Comparison.removes_of_namesFree (C : Comparison e target actual used r)
    (hfree : NamesFree e target actual used) (hsplit : r.ops = done ++ op :: rest)
    {h x : Holder} (hcreates : h ∈ op.creates) (hx : x ∈ reached e actual used done)
    (hsame : SameName h.name x.name) : op.Removes e actual x := by
  have hop : op ∈ r.ops := hsplit ▸ List.mem_append_right _ List.mem_cons_self
  have harrives := C.arrives_iff.mpr ⟨op, hop, rfl, hcreates⟩
  obtain ⟨hlive, hstays⟩ | ⟨op', hop', hcreates'⟩ := hx
  · obtain ⟨m, hle, hleaves⟩ := hfree.gone _ _ harrives x hlive hsame
    obtain ⟨op', hop', rfl, hremoves, hphase⟩ := C.removes_of_leaves hleaves
    obtain hlt | heq := lt_or_eq_of_le hle
    · exact absurd hremoves (hstays op' (mem_done_of_moment_lt C.diff hsplit hop' hlt))
    · -- both are run at the same moment: the operation is a rebuild
      obtain ⟨hphases, hname⟩ := Prod.mk.inj (toLex_inj.mp heq)
      have hwhole : op.IsWhole := by
        rw [hphases] at hphase
        cases op with
        | createTable t => trivial
        | rebuildTable n fromDef toDef reasons => trivial
        | createIndex n i => exact absurd hphase (by simp [PlanOp.phase])
        | addColumn n c => exact absurd hcreates List.not_mem_nil
        | dropIndex n i => exact absurd hcreates List.not_mem_nil
        | dropTable t => exact absurd hcreates List.not_mem_nil
      rw [eq_of_whole C.wellFormed C.keyed C.diff hop hop' hwhole hname] at hremoves
      exact hremoves
  · have hop'' : op' ∈ r.ops := hsplit ▸ List.mem_append_left _ hop'
    obtain rfl := hfree.distinct _ _ _ _ harrives
      (C.arrives_iff.mpr ⟨op', hop'', rfl, hcreates'⟩) hsame
    exact absurd hcreates' (C.created_once hsplit hop' hcreates)

theorem Comparison.distinctNames_creates (C : Comparison e target actual used r)
    (hfree : NamesFree e target actual used) (hop : op ∈ r.ops) :
    DistinctNames op.creates := by
  refine (C.creates_nodup hop).pairwise_of_forall_ne (fun h hh h' hh' hne hsame => hne ?_)
  exact hfree.distinct _ _ _ _ (C.arrives_iff.mpr ⟨op, hop, rfl, hh⟩)
    (C.arrives_iff.mpr ⟨op, hop, rfl, hh'⟩) hsame.symm

/-- Nothing that arrives has the name of something that stays. -/
theorem NamesFree.not_sameName (hfree : NamesFree e target actual used) {m : Moment}
    {h x : Holder} (harrives : Arrives target actual m h) (hx : x ∈ used)
    (hstays : ∀ m', ¬ Leaves e target actual m' x) : ¬ SameName h.name x.name := by
  intro hsame
  obtain ⟨m', -, hleaves⟩ := hfree.gone m h harrives x hx hsame
  exact hstays m' hleaves

/-- **If no name stands in the way, a rebuild finds its names free.** -/
theorem Comparison.rebuild_free (C : Comparison e target actual used r)
    (hfree : NamesFree e target actual used) {n : String} {fromDef toDef : TableDef}
    {reasons : List RebuildReason}
    (hsplit : r.ops = done ++ .rebuildTable n fromDef toDef reasons :: rest) :
    PlanOp.Free e actual (reached e actual used done)
      (.rebuildTable n fromDef toDef reasons) := by
  have hop : .rebuildTable n fromDef toDef reasons ∈ r.ops :=
    hsplit ▸ List.mem_append_right _ List.mem_cons_self
  obtain ⟨t, a, ht, rfl, ha, hin⟩ : ∃ t a, t ∈ target.tables ∧ t.name = n
      ∧ actual.get? n = some a ∧ ¬ t.InPlace a.table := by
    cases C.asked.mp hop with
    | rebuildTable ht ha hin => exact ⟨_, _, ht, rfl, ha, hin⟩
  have htable := (C.found _ _ ha).1
  -- what was created before arrives earlier and has another table
  have hbefore : ∀ {op' x}, op' ∈ done → x ∈ op'.creates →
      Arrives target actual op'.moment x ∧ op'.moment < toLex (3, t.name) := by
    intro op' x hop' hx
    refine ⟨C.arrives_iff.mpr ⟨op', hsplit ▸ List.mem_append_left _ hop', rfl, hx⟩, ?_⟩
    refine lt_of_le_of_ne (moment_le_of_mem_done C.diff hsplit hop') (fun heq => ?_)
    exact tableName_ne_of_whole C.wellFormed C.keyed C.diff hsplit trivial hop'
      (Prod.mk.inj (toLex_inj.mp heq)).2
  refine ⟨?_, ?_, List.pairwise_append.mpr ⟨?_, C.returning_distinct _, ?_⟩, ?_⟩
  · rintro ⟨x, ⟨hlive, hstays⟩ | ⟨op', hop', hx⟩, hsame⟩
    · obtain ⟨m, hlt, hleaves⟩ := (hfree.temporary t ht a ha hin).1 x hlive hsame
      obtain ⟨op', hop', rfl, hremoves, -⟩ := C.removes_of_leaves hleaves
      exact hstays op' (mem_done_of_moment_lt C.diff hsplit hop' hlt) hremoves
    · obtain ⟨harrives, hlt⟩ := hbefore hop' hx
      exact (hfree.temporary t ht a ha hin).2 _ x harrives hlt hsame
  · rintro ⟨x, ⟨⟨hlive, -⟩ | ⟨op', hop', hx⟩, hbelongs⟩, hsame⟩
    · rw [← C.distinct _ htable x hlive hsame] at hbelongs
      exact hbelongs rfl
    · exact hfree.not_sameName (hbefore hop' hx).1 htable (fun m => not_leaves_table) hsame.symm
  · exact C.distinctNames_creates hfree hop
  · intro h hh h' hh' hsame
    exact hfree.not_sameName (C.arrives_iff.mpr ⟨_, hop, rfl, hh⟩) (C.returning _ h' hh').1
      (fun m => C.not_leaves_replayed hh') hsame.symm
  · intro h hh
    rintro ⟨x, ⟨hx, hbelongs⟩ | rfl, hsame⟩
    · obtain hh | hh := List.mem_append.mp hh
      · exact hbelongs (C.removes_of_namesFree hfree hsplit hh hx hsame).1
      · obtain ⟨hlive', y, rfl, -⟩ := C.returning _ h hh
        obtain ⟨hlive, -⟩ | ⟨op', hop', hx⟩ := hx
        · rw [← C.distinct _ hlive' x hlive hsame] at hbelongs
          exact hbelongs rfl
        · exact hfree.not_sameName (hbefore hop' hx).1 hlive'
            (fun m => C.not_leaves_replayed hh) hsame.symm
    · obtain hh | hh := List.mem_append.mp hh
      · exact hfree.not_sameName (C.arrives_iff.mpr ⟨_, hop, rfl, hh⟩) htable
          (fun m => not_leaves_table) hsame
      · obtain ⟨hlive', y, rfl, -⟩ := C.returning _ h hh
        cases C.distinct _ hlive' _ htable hsame

/-- **If no name stands in the way, every operation finds its names
free.** -/
theorem Comparison.free_of_namesFree (C : Comparison e target actual used r)
    (hfree : NamesFree e target actual used) (hsplit : r.ops = done ++ op :: rest) :
    op.Free e actual (reached e actual used done) := by
  have hop : op ∈ r.ops := hsplit ▸ List.mem_append_right _ List.mem_cons_self
  have hcreatable : (∀ x, ¬ op.Removes e actual x) →
      Creatable (reached e actual used done) op.creates := by
    refine fun hkeeps => ⟨C.distinctNames_creates hfree hop, fun h hh => ?_⟩
    rintro ⟨x, hx, hsame⟩
    exact hkeeps x (C.removes_of_namesFree hfree hsplit hh hx hsame)
  have hnothing : Creatable (reached e actual used done) [] :=
    ⟨List.Pairwise.nil, fun h hh => absurd hh List.not_mem_nil⟩
  cases op with
  | rebuildTable n fromDef toDef reasons => exact C.rebuild_free hfree hsplit
  | createTable t => exact hcreatable (fun x => id)
  | createIndex n i => exact hcreatable (fun x => id)
  | addColumn n c => exact hnothing
  | dropIndex n i => exact hnothing
  | dropTable t => exact hnothing

/-- **The statements of a plan clash with no name in use exactly when no
name stands in the way.** -/
theorem Comparison.noClash_iff (C : Comparison e target actual used r) :
    NoClash e used (r.ops.flatMap (PlanOp.steps actual)) ↔ NamesFree e target actual used := by
  rw [noClash_ops (fun done op rest hsplit op' hop' h hh => C.keeps hsplit hop' hh)
    (fun done rest n fromDef toDef reasons hsplit => C.rebuildable hsplit)]
  exact ⟨C.namesFree_of_free, fun hfree done op rest hsplit => C.free_of_namesFree hfree hsplit⟩

end Plan

/-! ## The plan on the database -/

/-- **A plan can be executed exactly when no name stands in the way.** Its
statements clash with no name in use if and only if `NamesFree` holds; then
no run of them on the database ever needs a name that is taken, and a run
that goes through shows that it holds. -/
theorem executable (e : Engine) {target : SchemaDef} {db : Database} {scope : List String}
    {r : DiffResult} (ht : target.WellFormed) (hdb : db.Named)
    (hdeclared : ∀ o ∈ db.objects, ∀ sql, o.sql = some sql → e.declared sql = some o)
    (h : diff target (introspectManaged db scope) = .ok r) :
    (NoClash e db.used (r.ops.flatMap (PlanOp.steps (introspectManaged db scope)))
        ↔ NamesFree e target (introspectManaged db scope) db.used)
      ∧ (NamesFree e target (introspectManaged db scope) db.used →
        ∀ before statement after db',
          r.ops.flatMap (PlanOp.steps (introspectManaged db scope))
            = before ++ .run statement :: after →
          e.execSteps db before = .ok db' →
          ∀ n, statement.newName e = some n → db'.nameTaken n = false)
      ∧ ∀ db', e.execSteps db (r.ops.flatMap (PlanOp.steps (introspectManaged db scope)))
          = .ok db' → NamesFree e target (introspectManaged db scope) db.used := by
  have hiff := (comparison_introspected ht hdb hdeclared h).noClash_iff
  refine ⟨hiff, fun hfree before statement after db' hsteps hrun n hn => ?_,
    fun db' hrun => hiff.mp (noClash_of_execSteps hrun)⟩
  have hclash := hiff.mpr hfree
  rw [hsteps] at hclash
  rw [← Bool.not_eq_true, nameTaken_iff]
  exact free_of_noClash hclash hrun n hn

/-- The table of users, with an indexed address. -/
def accountTable : TableDef :=
  ⟨"user", ⟨"id", "INTEGER"⟩, [⟨"email_address", "TEXT", true, none⟩],
    [⟨"seekwel_idx_user_email_address", "email_address", false⟩]⟩

theorem executable_example : NamesFree exampleEngine ⟨[accountTable]⟩
    (introspectManaged (usersDatabase ["name"]) ["user", "users"])
    (usersDatabase ["name"]).used := by
  obtain ⟨r, hr, hrun⟩ := exists_ok_of_any
    (x := diff ⟨[accountTable]⟩ (introspectManaged (usersDatabase ["name"]) ["user", "users"]))
    (p := fun r => (exampleEngine.execSteps (usersDatabase ["name"]) (r.ops.flatMap
      (PlanOp.steps (introspectManaged (usersDatabase ["name"]) ["user", "users"])))).isOk)
    (by decide +kernel)
  cases hdb : exampleEngine.execSteps (usersDatabase ["name"]) (r.ops.flatMap
      (PlanOp.steps (introspectManaged (usersDatabase ["name"]) ["user", "users"]))) with
  | error error =>
    rw [hdb] at hrun
    cases hrun
  | ok db' =>
    refine (executable exampleEngine ?_ ?_ ?_ hr).2.2 db' hdb
    · exact SchemaDef.wellFormed_of_normalized (s := ⟨[accountTable]⟩) (by decide +kernel)
    · exact ⟨by unfold DistinctNames; decide +kernel, fun o ho => absurd ho List.not_mem_nil⟩
    · exact fun o ho => absurd ho List.not_mem_nil

/-- A table that has the addresses, with an index of its own. -/
def emailTable : TableDef :=
  ⟨"user_email", ⟨"id", "INTEGER"⟩, [⟨"address", "TEXT", true, none⟩],
    [⟨"seekwel_idx_user_email_address", "address", false⟩]⟩

/-- The live database with the addresses in the table of their own. -/
def emailDatabase : Database :=
  { Database.empty.setTable "user_email" (emailTable.declaredTable "user_email") with
    objects := emailTable.indexes.map (IndexDef.declaredObject "user_email") }

/-- The index of the table that is created has the name of an index of the
table that is dropped last, so nothing blocks the plan, and it cannot be
run. -/
theorem name_still_taken :
    (accountTable.indexes.map (·.name)).Nodup
      ∧ ((introspectManaged emailDatabase ["user", "user_email"]).values.flatMap
          (·.table.indexes.map (·.name))).Nodup
      ∧ ∃ r, diff ⟨[accountTable]⟩ (introspectManaged emailDatabase ["user", "user_email"])
          = .ok r ∧ r.blockers = []
        ∧ ∃ before statement after db',
          r.ops.flatMap (PlanOp.steps (introspectManaged emailDatabase ["user", "user_email"]))
            = before ++ .run statement :: after
          ∧ exampleEngine.execSteps emailDatabase before = .ok db'
          ∧ statement.newName exampleEngine = some "seekwel_idx_user_email_address"
          ∧ db'.nameTaken "seekwel_idx_user_email_address" = true := by
  refine ⟨by decide +kernel, by decide +kernel, ?_⟩
  obtain ⟨r, hr, hblockers, hops⟩ := exists_ok_of_any
    (x := diff ⟨[accountTable]⟩ (introspectManaged emailDatabase ["user", "user_email"]))
    (p := fun r => r.blockers = [] ∧ r.ops = [.createTable accountTable, .dropTable emailTable])
    (by decide +kernel)
  obtain ⟨db', hdb', htaken⟩ := exists_ok_of_any
    (x := exampleEngine.execSteps emailDatabase [.run (.createTable "user" accountTable)])
    (p := fun db' => db'.nameTaken "seekwel_idx_user_email_address" = true)
    (by decide +kernel)
  refine ⟨r, hr, hblockers, [.run (.createTable "user" accountTable)],
    .createIndex "user" ⟨"seekwel_idx_user_email_address", "email_address", false⟩,
    [.run (.dropTable "user_email")], db', ?_, hdb', rfl, htaken⟩
  rw [hops]
  rfl

end Seekwel
