import Seekwel.PlanShape
import Seekwel.Statement

/-!
# What an empty plan says

A comparison that asks for nothing does not mean that the live table is as
the target wants it. Introspection assumes an `id INTEGER` where it finds
no primary key, leaves a column of that name out, and notes what it does
not support in a list that is consulted only if there is another reason to
rebuild the table. The columns are as the target has them all the same
(`columns_of_conforms`); the primary key is exactly when the table has a
single one (`empty_plan_conforms_iff`).
-/

namespace Seekwel

/-- **A live table, by its column rows, that is as the target wants it.** -/
structure RowsConform (rows : List ColumnRow) (t : TableDef) : Prop where
  /-- There is exactly one primary-key column, the target's, and an
  `INTEGER`. -/
  primaryKey : ∃ c, rows.filter (fun c => 0 < c.pk) = [c]
    ∧ c.name = t.primaryKey.name ∧ c.sqlType = "INTEGER"
  /-- The target's columns are there. -/
  columns : ∀ c ∈ t.columns, ∃ row ∈ rows, row.name = c.name ∧ row.affinity = c.affinity
    ∧ row.notNull = !c.nullable ∧ row.defaultSql = c.defaultSql

/-- **A table with a single primary-key column.** SQLite numbers the members
of a primary key from one, and would report no other number; a column of
another number has to be what introspection assumes. -/
def SoleKey (rows : List ColumnRow) : Prop :=
  ∃ c, rows.filter (fun c => 0 < c.pk) = [c]
    ∧ (c.pk = 1 ∨ c.name = "id" ∧ c.sqlType = "INTEGER")

/-- Introspection finds a single primary key if it has the number one. -/
theorem primaryKeyColumn_of_sole {rows : List ColumnRow} {c : ColumnRow}
    (hsole : rows.filter (fun c => 0 < c.pk) = [c]) :
    primaryKeyColumn rows = if c.pk = 1 then some c else none := by
  have hunique : ∀ {c'}, c' ∈ rows → c'.pk = 1 → c' = c := by
    intro c' hmem hpk
    have hfilter : c' ∈ rows.filter (fun c => 0 < c.pk) :=
      List.mem_filter.mpr ⟨hmem, by rw [hpk]; decide⟩
    rw [hsole] at hfilter
    exact List.mem_singleton.mp hfilter
  have hmem : c ∈ rows := by
    refine (List.mem_filter (p := fun c : ColumnRow => decide (0 < c.pk))).mp ?_ |>.1
    rw [hsole]
    exact List.mem_singleton_self c
  unfold primaryKeyColumn
  split_ifs with hpk
  · cases hfind : rows.find? (fun column => column.pk = 1) with
    | none => exact absurd hpk (by simpa using List.find?_eq_none.mp hfind c hmem)
    | some c' =>
      rw [hunique (List.mem_of_find?_eq_some hfind) (by simpa using List.find?_some hfind)]
  · rw [List.find?_eq_none]
    intro c' hmem' hpk'
    have hpk' : c'.pk = 1 := by simpa using hpk'
    rw [hunique hmem' hpk'] at hpk'
    exact hpk hpk'

section Table

variable {db : Database} {n sql : String} {t : TableDef}

/-- **The columns of a table that asks for nothing** are as the target has
them. -/
theorem columns_of_conforms (h : t.Conforms (introspectTable db n sql).table) :
    ∀ c ∈ t.columns, ∃ row ∈ tableColumns db n, row.name = c.name
      ∧ row.affinity = c.affinity ∧ row.notNull = !c.nullable
      ∧ row.defaultSql = c.defaultSql := by
  intro c hc
  obtain ⟨c', hc', hname⟩ := h.columns c hc
  have hagrees := h.agrees c hc c' hc' hname.symm
  obtain ⟨row, hrow, rfl⟩ := List.mem_map.mp hc'
  refine ⟨row, (List.mem_filter.mp hrow).1, hname, hagrees.affinity.symm, ?_,
    hagrees.defaultSql.symm⟩
  rw [hagrees.nullable]
  exact (Bool.not_not _).symm

/-- **The primary key of a table that asks for nothing** is the target's
exactly when there is a single one. -/
theorem primaryKey_of_conforms (h : t.Conforms (introspectTable db n sql).table) :
    (∃ c, (tableColumns db n).filter (fun c => 0 < c.pk) = [c]
        ∧ c.name = t.primaryKey.name ∧ c.sqlType = "INTEGER")
      ↔ SoleKey (tableColumns db n) ∧ t.primaryKey.sqlType = "INTEGER" := by
  have hpk : t.primaryKey
      = ⟨primaryKeyName (tableColumns db n), primaryKeySqlType (tableColumns db n)⟩ :=
    h.primaryKey
  rw [hpk]
  unfold SoleKey primaryKeyName primaryKeySqlType
  constructor
  · intro hkey
    obtain ⟨c, hsole, hname, htype⟩ := hkey
    rw [primaryKeyColumn_of_sole hsole] at hname ⊢
    by_cases hone : c.pk = 1
    · rw [if_pos hone]
      exact ⟨⟨c, hsole, Or.inl hone⟩, htype⟩
    · rw [if_neg hone] at hname ⊢
      exact ⟨⟨c, hsole, Or.inr ⟨hname, htype⟩⟩, rfl⟩
  · intro hkey
    obtain ⟨⟨c, hsole, hassumed⟩, htype⟩ := hkey
    rw [primaryKeyColumn_of_sole hsole] at htype ⊢
    refine ⟨c, hsole, ?_⟩
    by_cases hone : c.pk = 1
    · rw [if_pos hone] at htype ⊢
      exact ⟨rfl, htype⟩
    · rw [if_neg hone]
      exact hassumed.resolve_left hone

end Table

/-- A live table about which a comparison asks for nothing was found, and
nothing is to be changed in place either. -/
theorem conforms_of_nothing_asked {target : SchemaDef} {db : Database} {scope : List String}
    {r : DiffResult} (ht : target.WellFormed)
    (h : diff target (introspectManaged db scope) = .ok r) {t : TableDef}
    (hmem : t ∈ target.tables) (hops : ∀ op ∈ r.ops, op.tableName ≠ t.name)
    (hblockers : ∀ b ∈ r.blockers, b.tableName ≠ some t.name) :
    ∃ sql, t.Conforms (introspectTable db t.name sql).table := by
  have hk := introspectManaged_keyed db scope
  have hpart : diffPart target (introspectManaged db scope) t.name = ([], []) := by
    have hops' := diff_ops_on ht hk h t.name
    have hblockers' := diff_blockers_on h t.name
    rw [List.filter_eq_nil_iff.mpr (fun op hop => by simpa using hops op hop)] at hops'
    rw [List.filter_eq_nil_iff.mpr (fun b hb => by simpa using hblockers b hb)] at hblockers'
    exact Prod.ext (List.nil_perm.mp hops') (List.nil_perm.mp hblockers')
  rw [diffPart_of_mem ht hmem] at hpart
  cases ha : (introspectManaged db scope).get? t.name with
  | none =>
    rw [diffTarget_of_none ha] at hpart
    cases hpart
  | some a =>
    rw [diffTarget_of_some ha,
      diffTable_eq_nil_iff (ht.tables t hmem) (actual_wellFormed h ha)] at hpart
    rw [get?_introspectManaged] at ha
    split_ifs at ha
    obtain ⟨sql, -, rfl⟩ := Option.map_eq_some_iff.mp ha
    exact ⟨sql, hpart⟩

/-- **An empty plan means that the table conforms** exactly when the table
has a single primary-key column and the target wants an `INTEGER`. -/
theorem empty_plan_conforms_iff {target : SchemaDef} {db : Database} {scope : List String}
    {r : DiffResult} (ht : target.WellFormed)
    (h : diff target (introspectManaged db scope) = .ok r) {t : TableDef}
    (hmem : t ∈ target.tables) (hops : ∀ op ∈ r.ops, op.tableName ≠ t.name)
    (hblockers : ∀ b ∈ r.blockers, b.tableName ≠ some t.name) :
    RowsConform (tableColumns db t.name) t
      ↔ SoleKey (tableColumns db t.name) ∧ t.primaryKey.sqlType = "INTEGER" := by
  obtain ⟨sql, hconforms⟩ := conforms_of_nothing_asked ht h hmem hops hblockers
  rw [← primaryKey_of_conforms hconforms]
  exact ⟨fun hrows => hrows.primaryKey,
    fun hkey => ⟨hkey, columns_of_conforms hconforms⟩⟩

/-- The table of users, declared without a primary key. -/
def keylessDatabase : Database :=
  Database.empty.setTable "users" {
    sql := some "CREATE TABLE users (id INTEGER, name TEXT)"
    columns := [⟨"id", "INTEGER", false, none, 0, 0⟩, ⟨"name", "TEXT", false, none, 0, 0⟩]
    foreignKeys := []
    rows := [] }

theorem empty_plan_conforms_example :
    RowsConform (tableColumns (usersDatabase ["name"]) "users") (usersTable ["name"]) := by
  obtain ⟨r, hr, hops, hblockers⟩ := exists_ok_of_any
    (x := diff ⟨[usersTable ["name"]]⟩ (introspectManaged (usersDatabase ["name"]) ["users"]))
    (p := fun r => r.ops = [] ∧ r.blockers = []) (by decide +kernel)
  refine (empty_plan_conforms_iff ?_ hr (t := usersTable ["name"]) (List.mem_singleton_self _)
    (fun op hop => ?_) (fun b hb => ?_)).mpr ⟨⟨⟨"id", "INTEGER", false, none, 1, 0⟩,
      by decide +kernel, Or.inl rfl⟩, rfl⟩
  · exact SchemaDef.wellFormed_of_normalized (s := ⟨[usersTable ["name"]]⟩) (by decide +kernel)
  · rw [hops] at hop
    exact absurd hop List.not_mem_nil
  · rw [hblockers] at hb
    exact absurd hb List.not_mem_nil

/-- A table without a primary key asks for nothing, though it does not
conform. -/
theorem keyless_not_noticed :
    (∃ r, diff ⟨[usersTable ["name"]]⟩ (introspectManaged keylessDatabase ["users"]) = .ok r
        ∧ r.ops = [] ∧ r.blockers = [])
      ∧ ¬ RowsConform (tableColumns keylessDatabase "users") (usersTable ["name"]) := by
  constructor
  · exact exists_ok_of_any (p := fun r : DiffResult => r.ops = [] ∧ r.blockers = [])
      (by decide +kernel)
  · intro hrows
    obtain ⟨c, hsole, -⟩ := hrows.primaryKey
    rw [show (tableColumns keylessDatabase "users").filter (fun c => 0 < c.pk) = [] by
      decide +kernel] at hsole
    cases hsole

end Seekwel
