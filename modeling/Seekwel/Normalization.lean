import Seekwel.Desired
import Mathlib.Data.List.Forall2

/-!
# Normalization and order

The tables of a schema come in whatever order the models were registered in,
and so do the columns and indexes of a table. None of this shows in a schema
that is normalized.

Every schema in another order is accepted or rejected alike, with the same
message (`normalized_eq_of_rearranges`). For a repetition is found by its
name, and the sorted names do not depend on the order; and where no name is
repeated, there is only one way to sort.
-/

namespace Seekwel

/-! ## Schemas in another order -/

/-- **A table in another order**: the same columns and indexes. -/
structure TableDef.Rearranges (t t' : TableDef) : Prop where
  name : t.name = t'.name
  primaryKey : t.primaryKey = t'.primaryKey
  columns : t.columns.Perm t'.columns
  indexes : t.indexes.Perm t'.indexes

/-- **A schema in another order**: the same tables, each of them in some
order. -/
def SchemaDef.Rearranges (s s' : SchemaDef) : Prop :=
  ∃ tables, s.tables.Perm tables ∧ List.Forall₂ TableDef.Rearranges tables s'.tables

/-- A schema whose names increase. -/
structure SchemaDef.Increasing (s : SchemaDef) : Prop where
  tables : s.tables.Pairwise fun t t' => t.name < t'.name
  columns : ∀ t ∈ s.tables, t.columns.Pairwise fun c c' => c.name < c'.name
  indexes : ∀ t ∈ s.tables, t.indexes.Pairwise fun i i' => i.name < i'.name

theorem TableDef.rearranges_sorted (t : TableDef) : t.Rearranges t.sorted :=
  ⟨rfl, rfl, (sortBy_perm _ _).symm, (sortBy_perm _ _).symm⟩

theorem SchemaDef.rearranges_sorted (s : SchemaDef) : s.Rearranges s.sorted :=
  ⟨_, (sortBy_perm _ _).symm,
    List.forall₂_map_right_iff.mpr (List.forall₂_same.mpr fun t _ => t.rearranges_sorted)⟩

/-- Distinct names that do not decrease increase. -/
theorem pairwise_lt_of_le {α : Type} {name : α → String} {l : List α}
    (hle : l.Pairwise fun a b => name a ≤ name b) (hnodup : (l.map name).Nodup) :
    l.Pairwise fun a b => name a < name b := by
  have hne : l.Pairwise fun a b => name a ≠ name b := List.pairwise_map.mp hnodup
  exact (hle.and hne).imp fun hab => lt_of_le_of_ne hab.1 hab.2

theorem SchemaDef.WellFormed.increasing_sorted {s : SchemaDef} (h : s.WellFormed) :
    s.sorted.Increasing := by
  have hsorted := SchemaDef.wellFormed_sorted_iff.mpr h
  obtain ⟨htables, hself⟩ := SchemaDef.sorted_eq_self_iff.mp s.sorted_sorted
  refine ⟨pairwise_lt_of_le htables hsorted.nodup, fun t ht => ?_, fun t ht => ?_⟩
  · exact pairwise_lt_of_le (TableDef.sorted_eq_self_iff.mp (hself t ht)).1
      (hsorted.tables t ht).columns_nodup
  · exact pairwise_lt_of_le (TableDef.sorted_eq_self_iff.mp (hself t ht)).2
      (hsorted.tables t ht).indexes_nodup

/-! ## Tables that are checked -/

section Tables

variable {t t' : TableDef}

theorem TableDef.Rearranges.sorted_columns (h : t.Rearranges t')
    (hnodup : (t.sorted.columns.map (·.name)).Nodup) :
    t.sorted.columns = t'.sorted.columns :=
  sortBy_eq_of_perm h.columns (((sortBy_perm _ _).map _).nodup_iff.mp hnodup)

theorem TableDef.Rearranges.sorted_indexes (h : t.Rearranges t')
    (hnodup : (t.sorted.indexes.map (·.name)).Nodup) :
    t.sorted.indexes = t'.sorted.indexes :=
  sortBy_eq_of_perm h.indexes (((sortBy_perm _ _).map _).nodup_iff.mp hnodup)

/-- **The order of a table makes no difference to its check.** -/
theorem TableDef.Rearranges.check_eq (h : t.Rearranges t') :
    t.sorted.check = t'.sorted.check := by
  have hcolumns : t.sorted.columns.map (·.name) = t'.sorted.columns.map (·.name) :=
    map_sortBy_eq_of_perm (h.columns.map _)
  have hindexes : t.sorted.indexes.map (·.name) = t'.sorted.indexes.map (·.name) :=
    map_sortBy_eq_of_perm (h.indexes.map _)
  have hname : t.sorted.name = t'.sorted.name := h.name
  have hkey : t.sorted.primaryKey = t'.sorted.primaryKey := h.primaryKey
  unfold TableDef.check
  rw [← hcolumns, ← hindexes, ← hname, ← hkey]
  cases hcolumn : adjacentDuplicate (t.sorted.columns.map (·.name)) with
  | some name => rfl
  | none =>
    have hnodup := (adjacentDuplicate_eq_none_iff
      (List.pairwise_map.mpr (pairwise_sortBy _ _))).mp hcolumn
    rw [← h.sorted_columns hnodup]
    cases hindex : adjacentDuplicate (t.sorted.indexes.map (·.name)) with
    | some name => rfl
    | none =>
      have hnodup := (adjacentDuplicate_eq_none_iff
        (List.pairwise_map.mpr (pairwise_sortBy _ _))).mp hindex
      rw [← h.sorted_indexes hnodup]

theorem TableDef.Rearranges.sorted_eq (h : t.Rearranges t') (ht : t.sorted.WellFormed) :
    t.sorted = t'.sorted := by
  have hcolumns := h.sorted_columns ht.columns_nodup
  have hindexes := h.sorted_indexes ht.indexes_nodup
  obtain ⟨name, primaryKey, columns, indexes⟩ := t
  obtain ⟨name', primaryKey', columns', indexes'⟩ := t'
  obtain ⟨rfl, rfl, -, -⟩ := h
  exact congrArg₂ (TableDef.mk name primaryKey) hcolumns hindexes

end Tables

/-! ## Schemas that are normalized -/

theorem TableDef.checkAll_eq_of_forall₂ {tables tables' : List TableDef}
    (h : List.Forall₂ TableDef.Rearranges tables tables') :
    TableDef.checkAll (tables.map TableDef.sorted)
      = TableDef.checkAll (tables'.map TableDef.sorted) := by
  induction h with
  | nil => rfl
  | cons hhead _ ih =>
    rw [List.map_cons, List.map_cons, TableDef.checkAll, TableDef.checkAll, hhead.check_eq, ih]

theorem TableDef.map_sorted_eq_of_forall₂ {tables tables' : List TableDef}
    (h : List.Forall₂ TableDef.Rearranges tables tables')
    (hwf : ∀ t ∈ tables, t.sorted.WellFormed) :
    tables.map TableDef.sorted = tables'.map TableDef.sorted := by
  induction h with
  | nil => rfl
  | cons hhead _ ih =>
    rw [List.forall_mem_cons] at hwf
    rw [List.map_cons, List.map_cons, hhead.sorted_eq hwf.1, ih hwf.2]

/-- **A schema in another order is normalized alike**, and rejected with the
same message. -/
theorem SchemaDef.normalized_eq_of_rearranges {s s' : SchemaDef} (h : s.Rearranges s') :
    s'.normalized = s.normalized := by
  obtain ⟨tables, hperm, hrearranges⟩ := h
  have hsorted := forall₂_sortBy (fun _ _ h => h.name) hrearranges
  have hnames : tables.map (·.name) = s'.tables.map (·.name) := by
    refine List.forall₂_eq_eq_eq ▸ ?_
    exact List.forall₂_map_left_iff.mpr (List.forall₂_map_right_iff.mpr
      (hrearranges.imp fun _ _ h => h.name))
  have htableNames : s.sorted.tableNames = s'.sorted.tableNames := by
    rw [s.tableNames_sorted, s'.tableNames_sorted]
    exact map_sortBy_eq_of_perm (hnames ▸ hperm.map _)
  unfold SchemaDef.normalized
  dsimp only
  rw [← htableNames]
  cases hduplicate : adjacentDuplicate s.sorted.tableNames with
  | some name => rfl
  | none =>
    have hnodup : (s.tables.map (·.name)).Nodup := by
      refine s.tableNames_sorted_perm.nodup_iff.mp
        ((adjacentDuplicate_eq_none_iff ?_).mp hduplicate)
      rw [s.tableNames_sorted]
      exact List.pairwise_map.mpr (pairwise_sortBy _ _)
    have htables : s.sorted = ⟨(sortBy TableDef.name tables).map TableDef.sorted⟩ := by
      rw [SchemaDef.sorted, sortBy_eq_of_perm hperm hnodup]
    have hcheck : TableDef.checkAll s'.sorted.tables = TableDef.checkAll s.sorted.tables := by
      rw [htables]
      exact (TableDef.checkAll_eq_of_forall₂ hsorted).symm
    rw [hcheck]
    cases hall : TableDef.checkAll s.sorted.tables with
    | error e => rfl
    | ok _ =>
      -- what is accepted has only one order
      have hnormalized : s.normalized = .ok s.sorted := by
        unfold SchemaDef.normalized
        dsimp only
        rw [hduplicate, hall]
      have hwf := (SchemaDef.normalized_eq_ok_iff.mp hnormalized).1
      have heq := TableDef.map_sorted_eq_of_forall₂ hsorted fun t ht =>
        TableDef.wellFormed_sorted_iff.mpr
          (hwf.tables t (hperm.mem_iff.mpr (mem_sortBy.mp ht)))
      rw [htables]
      exact congrArg (fun tables => Except.ok (SchemaDef.mk tables)) heq.symm

/-- Models that are registered in another order have the same schema. -/
theorem SchemaBuilder.build_eq_of_perm {builder builder' : SchemaBuilder}
    (h : builder.tables.Perm builder'.tables) : builder'.build = builder.build :=
  SchemaDef.normalized_eq_of_rearranges
    ⟨_, h, List.forall₂_same.mpr fun _ _ => ⟨rfl, rfl, .rfl, .rfl⟩⟩

/-- **Normalization is exact and does not depend on the order.** It accepts
the well-formed schemas. What it returns is the schema in another order, in
which the names increase, and stays the same when it is normalized again. -/
theorem SchemaDef.normalized_spec (s : SchemaDef) :
    ((∃ n, s.normalized = .ok n) ↔ s.WellFormed)
      ∧ (∀ n, s.normalized = .ok n → s.Rearranges n ∧ n.Increasing ∧ n.normalized = .ok n)
      ∧ ∀ s', s.Rearranges s' → s'.normalized = s.normalized
        ∧ s'.normalized.map SchemaDef.fingerprint = s.normalized.map SchemaDef.fingerprint := by
  refine ⟨⟨?_, ?_⟩, fun n hn => ?_, fun s' h => ?_⟩
  · rintro ⟨n, hn⟩
    exact (SchemaDef.normalized_eq_ok_iff.mp hn).1
  · intro hwf
    exact ⟨_, SchemaDef.normalized_eq_ok_iff.mpr ⟨hwf, rfl⟩⟩
  · have hagain := SchemaDef.normalized_normalized hn
    obtain ⟨hwf, rfl⟩ := SchemaDef.normalized_eq_ok_iff.mp hn
    exact ⟨s.rearranges_sorted, hwf.increasing_sorted, hagain⟩
  · have heq := SchemaDef.normalized_eq_of_rearranges h
    exact ⟨heq, congrArg _ heq⟩

end Seekwel
