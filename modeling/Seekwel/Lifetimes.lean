import Seekwel.Namespace

/-!
# The names an operation takes and gives up

An operation of a plan is several statements. As far as names go it comes
to three things: what it creates (`PlanOp.creates`), what it removes
(`PlanOp.Removes`) and which names have to be free for it
(`PlanOp.Free`). `noClash_op` says that this is what its statements do.

The names in use after some operations are then those that were in use
before and that no operation removed, together with those that were created
(`reached`), and a run is free of clashes exactly when every operation
finds its names free among the ones reached by then (`noClash_ops`).
-/

namespace Seekwel

/-! ## Operations -/

/-- The holders of the indexes of a table. -/
def indexHolders (n : String) (indexes : List IndexDef) : List Holder :=
  indexes.map (fun i => .index i.name n)

/-- The holders that an operation creates. -/
def PlanOp.creates : PlanOp → List Holder
  | .createTable table => .table table.name :: indexHolders table.name table.indexes
  | .createIndex n index => [.index index.name n]
  | .rebuildTable n _ toDef _ => indexHolders n toDef.indexes
  | _ => []

/-- The holders that come back when a table is rebuilt, by the stored
statements that are run again. -/
def replayed (e : Engine) (actual : LiveSchema) (n : String) : List Holder :=
  match actual.get? n with
  | none => []
  | some a => a.replaySql.filterMap (fun r => (e.declared r.sql).bind SchemaObject.holder)

/-- The holders that an operation removes. -/
def PlanOp.Removes (e : Engine) (actual : LiveSchema) : PlanOp → Holder → Prop
  | .dropIndex _ index, h => ∃ m, h = .index index.name m
  | .dropTable table, h => h.BelongsTo table.name
  | .rebuildTable n _ _ _, h => h.BelongsTo n ∧ h ≠ .table n ∧ h ∉ replayed e actual n
  | _, _ => False

/-- **Holders that can be created** one after the other: their names are
distinct and none is taken. -/
def Creatable (used : Set Holder) (hs : List Holder) : Prop :=
  DistinctNames hs ∧ ∀ h ∈ hs, ¬ Taken used h.name

/-- The names in use without a table and its indexes. -/
def without (used : Set Holder) (n : String) : Set Holder := {h | h ∈ used ∧ ¬ h.BelongsTo n}

/-- **The names that an operation needs are free.** A rebuild needs its
temporary name, its own name once the table is gone, and then the names of
the indexes. -/
def PlanOp.Free (e : Engine) (actual : LiveSchema) (used : Set Holder) : PlanOp → Prop
  | .rebuildTable n _ toDef _ =>
    ¬ Taken used (rebuildName n) ∧ ¬ Taken (without used n) n
      ∧ Creatable (without used n ∪ {h | h = .table n})
          (indexHolders n toDef.indexes ++ replayed e actual n)
  | op => Creatable used op.creates

/-- **What a rebuild relies on**: the table is there, what is to come back
is there, and an index on a table of the temporary name has its table. -/
structure Rebuildable (e : Engine) (actual : LiveSchema) (used : Set Holder) (n : String) :
    Prop where
  found : (actual.get? n).isSome
  table : .table n ∈ used
  replayed : ∀ h ∈ replayed e actual n, h ∈ used
  temporary : ∀ x, .index x (rebuildName n) ∈ used → .table (rebuildName n) ∈ used

section Op

variable {e : Engine} {actual : LiveSchema} {used : Set Holder}

theorem not_sameName_rebuildName (n : String) : ¬ SameName n (rebuildName n) := by
  intro h
  have hlength := congrArg (fun s => s.toList.length) h
  unfold rebuildName Text.toAsciiLowercase at hlength
  simp only [String.toList_ofList, List.length_map, String.toList_append,
    List.length_append] at hlength
  have hpos : 0 < "__seekwel_rebuild_".toList.length := by decide +kernel
  omega

/-- The holder of what a list of `CREATE INDEX` statements creates. -/
theorem filterMap_claim_createIndex (n : String) (indexes : List IndexDef) :
    (indexes.map (Statement.createIndex n)).filterMap (Statement.claim e)
      = indexHolders n indexes := by
  rw [List.filterMap_map]
  exact congrFun (List.filterMap_eq_map (f := fun i : IndexDef => Holder.index i.name n)) _

/-- The first statements of a rebuild. -/
def replaceTable (n : String) (fromDef toDef : TableDef) : List Statement :=
  [.createTable (rebuildName n) toDef,
    .copyRows n (rebuildName n) (retainedColumns fromDef toDef), .dropTable n,
    .renameTable (rebuildName n) n]

section Replacing

variable {n : String}

/-- The temporary table does not keep the old name taken. -/
theorem taken_without_temporary :
    Taken (without (used ∪ {h | h ∈ some (Holder.table (rebuildName n))}) n) n
      ↔ Taken (without used n) n := by
  constructor
  · intro hn
    obtain ⟨x, ⟨hx, hbelongs⟩, hsame⟩ := hn
    obtain hx | hx := hx
    · exact ⟨x, ⟨hx, hbelongs⟩, hsame⟩
    · obtain rfl := Option.some.inj hx
      exact absurd hsame (not_sameName_rebuildName n)
  · intro hn
    obtain ⟨x, ⟨hx, hbelongs⟩, hsame⟩ := hn
    exact ⟨x, ⟨Or.inl hx, hbelongs⟩, hsame⟩

/-- Nothing that was there before belongs to the temporary name. -/
theorem rename_temporary (h : Rebuildable e actual used n)
    (hfree : ¬ Taken used (rebuildName n)) {x : Holder} (hx : x ∈ used) :
    x.rename (rebuildName n) n = x := by
  cases x with
  | table m =>
    rw [Holder.rename, if_neg]
    rintro rfl
    exact hfree ⟨_, hx, SameName.refl _⟩
  | index x m =>
    rw [Holder.rename, if_neg]
    rintro rfl
    exact hfree ⟨_, h.temporary x hx, SameName.refl _⟩
  | view x => rfl

/-- Renaming the temporary table, once the old one is gone. -/
theorem rename_without_temporary (h : Rebuildable e actual used n)
    (hfree : ¬ Taken used (rebuildName n)) :
    Holder.rename (rebuildName n) n ''
        without (used ∪ {h | h ∈ some (Holder.table (rebuildName n))}) n
      = without used n ∪ {h | h = .table n} := by
  ext x
  rw [Set.mem_image]
  constructor
  · intro hx
    obtain ⟨y, ⟨hy | hy, hbelongs⟩, rfl⟩ := hx
    · rw [rename_temporary h hfree hy]
      exact Or.inl ⟨hy, hbelongs⟩
    · obtain rfl := Option.some.inj hy
      right
      show Holder.table _ = _
      rw [if_pos rfl]
  · intro hx
    obtain ⟨hx, hbelongs⟩ | rfl := hx
    · exact ⟨x, ⟨Or.inl hx, hbelongs⟩, rename_temporary h hfree hx⟩
    · refine ⟨.table (rebuildName n), ⟨Or.inr rfl, rebuildName_ne n⟩, ?_⟩
      rw [Holder.rename, if_pos rfl]

/-- **The first statements of a rebuild** replace the table, which leaves
it without indexes. -/
theorem noClash_replaceTable (fromDef toDef : TableDef) (h : Rebuildable e actual used n) :
    (NoClash e used ((replaceTable n fromDef toDef).map Step.run)
        ↔ ¬ Taken used (rebuildName n) ∧ ¬ Taken (without used n) n)
      ∧ (¬ Taken used (rebuildName n) →
        afterSteps e used ((replaceTable n fromDef toDef).map Step.run)
          = without used n ∪ {h | h = .table n}) := by
  -- the table under its temporary name is all that was created
  set created : Set Holder := used ∪ {h | h ∈ some (Holder.table (rebuildName n))}
  have hcopy : Statement.after e created
      (.copyRows n (rebuildName n) (retainedColumns fromDef toDef)) = created :=
    union_claim_none created
  constructor
  · show (Statement.Free e used (.createTable (rebuildName n) toDef)
      ∧ Statement.Free e created (.copyRows n (rebuildName n) (retainedColumns fromDef toDef))
      ∧ Statement.Free e (Statement.after e created
          (.copyRows n (rebuildName n) (retainedColumns fromDef toDef))) (.dropTable n)
      ∧ Statement.Free e (without (Statement.after e created
          (.copyRows n (rebuildName n) (retainedColumns fromDef toDef))) n)
          (.renameTable (rebuildName n) n) ∧ True) ↔ _
    rw [hcopy, ← taken_without_temporary]
    constructor
    · intro hall
      exact ⟨hall.1 _ rfl, hall.2.2.2.1 _ rfl⟩
    · intro hall
      refine ⟨fun m hm => ?_, fun m hm => (by cases hm), fun m hm => (by cases hm),
        fun m hm => ?_, trivial⟩
      · obtain rfl := Option.some.inj hm
        exact hall.1
      · obtain rfl := Option.some.inj hm
        exact hall.2
  · intro hfree
    show Holder.rename (rebuildName n) n '' without (Statement.after e created
      (.copyRows n (rebuildName n) (retainedColumns fromDef toDef))) n = _
    rw [hcopy]
    exact rename_without_temporary h hfree

end Replacing

/-- What a rebuild leaves behind, put together. -/
theorem rebuilt_eq {n : String} {fromDef toDef : TableDef} {reasons : List RebuildReason}
    (h : Rebuildable e actual used n) :
    without used n ∪ {h | h = .table n}
        ∪ {h | h ∈ indexHolders n toDef.indexes ++ replayed e actual n}
      = {h | h ∈ used
            ∧ ¬ (PlanOp.rebuildTable n fromDef toDef reasons).Removes e actual h}
        ∪ {h | h ∈ indexHolders n toDef.indexes} := by
  ext x
  show ((x ∈ used ∧ ¬ x.BelongsTo n) ∨ x = .table n)
      ∨ x ∈ indexHolders n toDef.indexes ++ replayed e actual n
    ↔ (x ∈ used ∧ ¬ (x.BelongsTo n ∧ x ≠ .table n ∧ x ∉ replayed e actual n))
      ∨ x ∈ indexHolders n toDef.indexes
  rw [List.mem_append]
  constructor
  · rintro ((hx | rfl) | hx | hx)
    · exact Or.inl ⟨hx.1, fun hr => hx.2 hr.1⟩
    · exact Or.inl ⟨h.table, fun hr => hr.2.1 rfl⟩
    · exact Or.inr hx
    · exact Or.inl ⟨h.replayed x hx, fun hr => hr.2.2 hx⟩
  · rintro (⟨hx, hr⟩ | hx)
    · by_cases hbelongs : x.BelongsTo n
      · by_cases htable : x = .table n
        · exact Or.inl (Or.inr htable)
        · exact Or.inr (Or.inr (by_contra (fun hnot => hr ⟨hbelongs, htable, hnot⟩)))
      · exact Or.inl (Or.inl ⟨hx, hbelongs⟩)
    · exact Or.inr (Or.inl hx)

/-- **A rebuild** clashes with no name in use exactly when it finds its
names free; then it leaves behind what it is to leave. -/
theorem noClash_rebuildTable {n : String} {fromDef toDef : TableDef}
    {reasons : List RebuildReason} (h : Rebuildable e actual used n) :
    (NoClash e used ((PlanOp.rebuildTable n fromDef toDef reasons).steps actual)
        ↔ (PlanOp.rebuildTable n fromDef toDef reasons).Free e actual used)
      ∧ ((PlanOp.rebuildTable n fromDef toDef reasons).Free e actual used →
        afterSteps e used ((PlanOp.rebuildTable n fromDef toDef reasons).steps actual)
          = {h | h ∈ used
              ∧ ¬ (PlanOp.rebuildTable n fromDef toDef reasons).Removes e actual h}
            ∪ {h | h ∈ indexHolders n toDef.indexes}) := by
  obtain ⟨a, ha⟩ := Option.isSome_iff_exists.mp h.found
  have hsteps : (PlanOp.rebuildTable n fromDef toDef reasons).steps actual
      = (replaceTable n fromDef toDef).map Step.run
        ++ (toDef.indexes.map (Statement.createIndex n)
          ++ a.replaySql.map (fun r => Statement.replay r.sql)).map Step.run := by
    rw [PlanOp.steps, ha, ← List.map_append, ← List.append_assoc]
    rfl
  have hcreates : ∀ s ∈ toDef.indexes.map (Statement.createIndex n)
      ++ a.replaySql.map (fun r => Statement.replay r.sql), s.Creates := by
    intro s hs
    obtain hs | hs := List.mem_append.mp hs
    · obtain ⟨i, -, rfl⟩ := List.mem_map.mp hs
      trivial
    · obtain ⟨r, -, rfl⟩ := List.mem_map.mp hs
      trivial
  have hclaims : (toDef.indexes.map (Statement.createIndex n)
        ++ a.replaySql.map (fun r => Statement.replay r.sql)).filterMap (Statement.claim e)
      = indexHolders n toDef.indexes ++ replayed e actual n := by
    rw [List.filterMap_append, filterMap_claim_createIndex, List.filterMap_map, replayed, ha]
    rfl
  obtain ⟨hclash, hafter⟩ := noClash_replaceTable fromDef toDef h
  obtain ⟨hclash', hafter'⟩ := noClash_creates (e := e)
    (without used n ∪ {h | h = .table n}) hcreates
  rw [hclaims] at hclash' hafter'
  rw [hsteps, noClash_append, hclash]
  constructor
  · rw [and_assoc]
    refine and_congr_right (fun htemp => and_congr_right (fun _ => ?_))
    rw [hafter htemp]
    exact hclash'
  · intro hfree
    rw [afterSteps, List.foldl_append]
    show afterSteps e (afterSteps e used _) _ = _
    rw [hafter hfree.1, hafter']
    exact rebuilt_eq h

/-- **The statements of an operation** clash with no name in use exactly
when the operation finds its names free; then the names in use change by
what it removes and creates. -/
theorem noClash_op {op : PlanOp}
    (hrebuild : ∀ n fromDef toDef reasons, op = .rebuildTable n fromDef toDef reasons →
      Rebuildable e actual used n) :
    (NoClash e used (op.steps actual) ↔ op.Free e actual used)
      ∧ (op.Free e actual used → afterSteps e used (op.steps actual)
        = {h | h ∈ used ∧ ¬ op.Removes e actual h} ∪ {h | h ∈ op.creates}) := by
  have hkept : {h | h ∈ used ∧ ¬ False} = used := Set.ext (fun x => and_iff_left not_false)
  have hnothing : ∀ s : Set Holder, s ∪ {h : Holder | h ∈ ([] : List Holder)} = s :=
    fun s => Set.union_eq_left.mpr (fun x hx => absurd hx List.not_mem_nil)
  have hfree : Creatable used [] :=
    ⟨List.Pairwise.nil, fun x hx => absurd hx List.not_mem_nil⟩
  cases op with
  | createTable t =>
    have hcreates : ∀ s ∈ createTable t.name t, s.Creates := by
      intro s hs
      obtain rfl | hs := List.mem_cons.mp hs
      · trivial
      · obtain ⟨i, -, rfl⟩ := List.mem_map.mp hs
        trivial
    have hclaims : (createTable t.name t).filterMap (Statement.claim e)
        = PlanOp.creates (.createTable t) := by
      show Holder.table t.name :: ((t.indexes.map (Statement.createIndex t.name)).filterMap
        (Statement.claim e)) = _
      rw [filterMap_claim_createIndex]
      rfl
    obtain ⟨hclash, hafter⟩ := noClash_creates (e := e) used hcreates
    rw [hclaims] at hclash hafter
    refine ⟨hclash, fun _ => hafter.trans ?_⟩
    exact congrArg (· ∪ _) hkept.symm
  | addColumn n c =>
    refine ⟨iff_of_true ⟨fun m hm => (by cases hm), trivial⟩ hfree, fun _ => ?_⟩
    show used ∪ {h : Holder | h ∈ (none : Option Holder)} = _
    rw [union_claim_none]
    exact hkept.symm.trans (hnothing _).symm
  | createIndex n i =>
    have hcreates : ∀ s ∈ [Statement.createIndex n i], s.Creates := by
      intro s hs
      rw [List.mem_singleton.mp hs]
      trivial
    obtain ⟨hclash, hafter⟩ := noClash_creates (e := e) used hcreates
    refine ⟨hclash, fun _ => hafter.trans ?_⟩
    exact congrArg (· ∪ _) hkept.symm
  | dropIndex n i =>
    refine ⟨iff_of_true ⟨fun m hm => (by cases hm), trivial⟩ hfree, fun _ => ?_⟩
    refine Eq.trans ?_ (hnothing _).symm
    ext x
    exact and_congr_right (fun _ => not_exists.symm)
  | rebuildTable n fromDef toDef reasons =>
    exact noClash_rebuildTable (hrebuild n fromDef toDef reasons rfl)
  | dropTable t =>
    refine ⟨iff_of_true ⟨fun m hm => (by cases hm), trivial⟩ hfree, fun _ => ?_⟩
    exact (hnothing _).symm

theorem Holder.BelongsTo.unique {h : Holder} {n m : String} (hn : h.BelongsTo n)
    (hm : h.BelongsTo m) : n = m := by
  cases h with
  | table x => exact Eq.trans (Eq.symm hn) hm
  | index x k => exact Eq.trans (Eq.symm hn) hm
  | view x => exact absurd hn id

/-- What an operation creates belongs to its table. -/
theorem belongsTo_of_creates {op : PlanOp} {h : Holder} (hop : h ∈ op.creates) :
    h.BelongsTo op.tableName := by
  have hindex : ∀ {n : String} {indexes : List IndexDef}, h ∈ indexHolders n indexes →
      h.BelongsTo n := by
    intro n indexes hmem
    obtain ⟨i, -, rfl⟩ := List.mem_map.mp hmem
    rfl
  cases op with
  | createTable t =>
    obtain rfl | hop := List.mem_cons.mp hop
    · rfl
    · exact hindex hop
  | createIndex n i =>
    obtain rfl := List.mem_singleton.mp hop
    rfl
  | rebuildTable n fromDef toDef reasons => exact hindex hop
  | addColumn n c => exact absurd hop List.not_mem_nil
  | dropIndex n i => exact absurd hop List.not_mem_nil
  | dropTable t => exact absurd hop List.not_mem_nil

end Op

/-! ## Runs of operations -/

/-- **The names in use after some operations.** -/
def reached (e : Engine) (actual : LiveSchema) (used : Set Holder) (ops : List PlanOp) :
    Set Holder :=
  {h | h ∈ used ∧ ∀ op ∈ ops, ¬ op.Removes e actual h} ∪ {h | ∃ op ∈ ops, h ∈ op.creates}

section Ops

variable {e : Engine} {actual : LiveSchema} {used : Set Holder}

theorem reached_nil : reached e actual used [] = used := by
  ext h
  show (h ∈ used ∧ _) ∨ _ ↔ h ∈ used
  simp

/-- An operation that removes nothing that was created adds to what was
reached as it adds to what was there. -/
theorem reached_concat {done : List PlanOp} {op : PlanOp}
    (hkeeps : ∀ op' ∈ done, ∀ h ∈ op'.creates, ¬ op.Removes e actual h) :
    reached e actual used (done ++ [op])
      = {h | h ∈ reached e actual used done ∧ ¬ op.Removes e actual h}
        ∪ {h | h ∈ op.creates} := by
  ext h
  show (h ∈ used ∧ ∀ op' ∈ done ++ [op], ¬ op'.Removes e actual h)
      ∨ (∃ op' ∈ done ++ [op], h ∈ op'.creates)
    ↔ (((h ∈ used ∧ ∀ op' ∈ done, ¬ op'.Removes e actual h) ∨ ∃ op' ∈ done, h ∈ op'.creates)
        ∧ ¬ op.Removes e actual h) ∨ h ∈ op.creates
  rw [List.forall_mem_append, List.forall_mem_singleton]
  simp only [List.mem_append, List.mem_singleton, or_and_right, exists_or, exists_eq_left]
  constructor
  · rintro (⟨hmem, hdone, hop⟩ | hdone | hop)
    · exact Or.inl (Or.inl ⟨⟨hmem, hdone⟩, hop⟩)
    · obtain ⟨op', hop', hcreates⟩ := hdone
      exact Or.inl (Or.inr ⟨⟨op', hop', hcreates⟩, hkeeps op' hop' h hcreates⟩)
    · exact Or.inr hop
  · rintro ((⟨⟨hmem, hdone⟩, hop⟩ | ⟨hdone, -⟩) | hop)
    · exact Or.inl ⟨hmem, hdone, hop⟩
    · exact Or.inr (Or.inl hdone)
    · exact Or.inr (Or.inr hop)

/-- **The statements of a plan** clash with no name in use exactly when
every operation finds its names free among those reached by then. -/
theorem noClash_ops {ops : List PlanOp}
    (hkeeps : ∀ done op rest, ops = done ++ op :: rest →
      ∀ op' ∈ done, ∀ h ∈ op'.creates, ¬ op.Removes e actual h)
    (hrebuild : ∀ done rest n fromDef toDef reasons,
      ops = done ++ .rebuildTable n fromDef toDef reasons :: rest →
      Rebuildable e actual (reached e actual used done) n) :
    NoClash e used (ops.flatMap (PlanOp.steps actual))
      ↔ ∀ done op rest, ops = done ++ op :: rest →
        op.Free e actual (reached e actual used done) := by
  -- the induction is on the operations that are still to be run
  suffices h : ∀ rest done, ops = done ++ rest →
      (NoClash e (reached e actual used done) (rest.flatMap (PlanOp.steps actual))
        ↔ ∀ mid op rest', rest = mid ++ op :: rest' →
          op.Free e actual (reached e actual used (done ++ mid))) by
    have := h ops [] rfl
    rwa [reached_nil] at this
  intro rest
  induction rest with
  | nil =>
    intro done _
    exact iff_of_true trivial (fun mid op rest' hsplit => by simp at hsplit)
  | cons op rest ih =>
    intro done hops
    have hkeep := hkeeps done op rest hops
    obtain ⟨hclash, hafter⟩ := noClash_op (e := e)
      (fun n fromDef toDef reasons heq => hrebuild done rest n fromDef toDef reasons (heq ▸ hops))
    rw [List.flatMap_cons, noClash_append, hclash]
    constructor
    · intro h mid op' rest' hsplit
      cases mid with
      | nil =>
        obtain ⟨rfl, rfl⟩ := List.cons.inj hsplit
        rw [List.append_nil]
        exact h.1
      | cons first mid =>
        obtain ⟨rfl, hrest⟩ := List.cons.inj hsplit
        rw [hafter h.1, ← reached_concat hkeep] at h
        rw [List.append_cons]
        exact (ih (done ++ [op]) (by rw [hops, List.append_cons])).mp h.2 mid op' rest' hrest
    · intro h
      have hfree : op.Free e actual (reached e actual used done) := by
        have := h [] op rest rfl
        rwa [List.append_nil] at this
      refine ⟨hfree, ?_⟩
      rw [hafter hfree, ← reached_concat hkeep]
      refine (ih (done ++ [op]) (by rw [hops, List.append_cons])).mpr ?_
      intro mid op' rest' hsplit
      rw [← List.append_cons]
      exact h (op :: mid) op' rest' (congrArg (op :: ·) hsplit)

end Ops

end Seekwel
