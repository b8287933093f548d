import Mathlib.Data.List.Pairwise
import Mathlib.Data.Set.Image
import Seekwel.Execution

/-!
# The names in use

Tables, indexes and views share one namespace, in which names that differ
in the case of ASCII letters only are the same. This module follows the
names through a run of statements and leaves everything else about the
database aside: a set of holders of names stands for the database, each
statement changes the set (`Statement.after`), and a statement that creates
or renames something needs its name to be free (`Statement.Free`).

`holders_exec` says that the database changes in this way whenever a
statement succeeds, so a run whose statements always find their names free
does so on any database (`free_of_noClash`), whatever its contents.
-/

namespace Seekwel

/-! ## Names and who holds them -/

/-- Two names that are the same to SQLite. -/
def SameName (x y : String) : Prop := Text.toAsciiLowercase x = Text.toAsciiLowercase y

instance (x y : String) : Decidable (SameName x y) := inferInstanceAs (Decidable (_ = _))

theorem SameName.refl (x : String) : SameName x x := rfl

theorem SameName.symm {x y : String} (h : SameName x y) : SameName y x := Eq.symm h

theorem SameName.trans {x y z : String} (h : SameName x y) (h' : SameName y z) :
    SameName x z := Eq.trans h h'

theorem sameName_iff {x y : String} : Text.eqIgnoreAsciiCase x y = true ↔ SameName x y :=
  decide_eq_true_iff

/-- Who holds a name: a table, an index on a table, or a view. -/
inductive Holder where
  | table (name : String)
  | index (name tableName : String)
  | view (name : String)
  deriving DecidableEq

def Holder.name : Holder → String
  | .table name => name
  | .index name _ => name
  | .view name => name

/-- Whether a holder is a table or an index on it. -/
def Holder.BelongsTo (n : String) : Holder → Prop
  | .table name => name = n
  | .index _ tableName => tableName = n
  | .view _ => False

/-- The holder after a table was renamed. -/
def Holder.rename (a b : String) : Holder → Holder
  | .table name => .table (if name = a then b else name)
  | .index name tableName => .index name (if tableName = a then b else tableName)
  | .view name => .view name

/-- The holder that an object is. Triggers have names of their own. -/
def SchemaObject.holder (o : SchemaObject) : Option Holder :=
  match o.kind with
  | .index => some (.index o.name o.tblName)
  | .view => some (.view o.name)
  | .trigger => none

/-- The holders of names in a database. -/
def Database.holders (db : Database) : List Holder :=
  db.tables.keys.map .table ++ db.objects.filterMap SchemaObject.holder

/-- The names in use. -/
def Database.used (db : Database) : Set Holder := {h | h ∈ db.holders}

/-- A name is in use. -/
def Taken (used : Set Holder) (n : String) : Prop := ∃ h ∈ used, SameName n h.name

/-- Holders of distinct names. -/
def DistinctNames (hs : List Holder) : Prop :=
  hs.Pairwise (fun h h' => ¬ SameName h'.name h.name)

/-- Among holders of distinct names the name decides. -/
theorem DistinctNames.eq {hs : List Holder} (h : DistinctNames hs) {x y : Holder}
    (hx : x ∈ hs) (hy : y ∈ hs) (hsame : SameName x.name y.name) : x = y := by
  have : Std.Symm (fun x y : Holder => ¬ SameName y.name x.name) :=
    ⟨fun x y hne hsame => hne hsame.symm⟩
  by_contra hne
  exact h.forall hx hy hne hsame.symm

section Holders

variable {db : Database}

theorem mem_used {h : Holder} : h ∈ db.used
    ↔ (∃ n ∈ db.tables.keys, .table n = h) ∨ ∃ o ∈ db.objects, o.holder = some h := by
  show h ∈ db.holders ↔ _
  rw [Database.holders, List.mem_append, List.mem_map, List.mem_filterMap]

/-- An object holds the name of an index or of a view. -/
theorem holder_eq_some {o : SchemaObject} {h : Holder} : o.holder = some h
    ↔ (o.kind = .index ∧ .index o.name o.tblName = h) ∨ (o.kind = .view ∧ .view o.name = h) := by
  unfold SchemaObject.holder
  cases o.kind with
  | index => simp
  | view => simp
  | trigger => simp

theorem table_mem_used {n : String} : .table n ∈ db.used ↔ n ∈ db.tables.keys := by
  rw [mem_used]
  simp [holder_eq_some]

theorem index_mem_used {x m : String} : .index x m ∈ db.used
    ↔ ∃ o ∈ db.objects, o.kind = .index ∧ o.name = x ∧ o.tblName = m := by
  rw [mem_used]
  simp [holder_eq_some]

theorem view_mem_used {x : String} : .view x ∈ db.used
    ↔ ∃ o ∈ db.objects, o.kind = .view ∧ o.name = x := by
  rw [mem_used]
  simp [holder_eq_some]

/-- A name is in use if the database says so. -/
theorem nameTaken_iff {n : String} : db.nameTaken n = true ↔ Taken db.used n := by
  rw [Database.nameTaken, Bool.or_eq_true, List.any_eq_true, List.any_eq_true]
  constructor
  · intro h
    obtain ⟨m, hm, hsame⟩ | ⟨o, ho, hsame⟩ := h
    · exact ⟨.table m, table_mem_used.mpr hm, sameName_iff.mp hsame⟩
    · rw [Bool.and_eq_true, decide_eq_true_iff] at hsame
      cases hkind : o.kind with
      | index =>
        exact ⟨.index o.name o.tblName, index_mem_used.mpr ⟨o, ho, hkind, rfl, rfl⟩,
          sameName_iff.mp hsame.2⟩
      | view => exact ⟨.view o.name, view_mem_used.mpr ⟨o, ho, hkind, rfl⟩,
          sameName_iff.mp hsame.2⟩
      | trigger => exact absurd hkind hsame.1
  · intro h
    obtain ⟨h, hmem, hsame⟩ := h
    cases h with
    | table m => exact Or.inl ⟨m, table_mem_used.mp hmem, sameName_iff.mpr hsame⟩
    | index x m =>
      obtain ⟨o, ho, hkind, rfl, rfl⟩ := index_mem_used.mp hmem
      exact Or.inr ⟨o, ho, by
        rw [Bool.and_eq_true, hkind]
        exact ⟨rfl, sameName_iff.mpr hsame⟩⟩
    | view x =>
      obtain ⟨o, ho, hkind, rfl⟩ := view_mem_used.mp hmem
      exact Or.inr ⟨o, ho, by
        rw [Bool.and_eq_true, hkind]
        exact ⟨rfl, sameName_iff.mpr hsame⟩⟩

end Holders

/-! ## Statements -/

/-- The holder that a statement creates. -/
def Statement.claim (e : Engine) : Statement → Option Holder
  | .createTable n _ => some (.table n)
  | .createIndex n index => some (.index index.name n)
  | .replay sql => (e.declared sql).bind SchemaObject.holder
  | _ => none

/-- The name that has to be free for a statement. -/
def Statement.newName (e : Engine) : Statement → Option String
  | .renameTable _ b => some b
  | statement => (statement.claim e).map Holder.name

/-- **The name that a statement needs is free.** -/
def Statement.Free (e : Engine) (used : Set Holder) (statement : Statement) : Prop :=
  ∀ n ∈ statement.newName e, ¬ Taken used n

/-- **The names in use after a statement.** -/
def Statement.after (e : Engine) (used : Set Holder) : Statement → Set Holder
  | .dropIndex index => {h | h ∈ used ∧ ∀ m, h ≠ .index index.name m}
  | .dropTable n => {h | h ∈ used ∧ ¬ h.BelongsTo n}
  | .renameTable a b => Holder.rename a b '' used
  | .ensureHistoryTable => used ∪ {h | h = .table historyTable
      ∧ (∀ n, .table n ∈ used → ¬ SameName historyTable n)
      ∧ ∀ n, .view n ∈ used → ¬ SameName historyTable n}
  | statement => used ∪ {h | h ∈ statement.claim e}

section Exec

variable {e : Engine} {db db' : Database}

theorem mem_keys_setTable {n m : String} {t : SqliteTable} :
    m ∈ (db.setTable n t).tables.keys ↔ m ∈ db.tables.keys ∨ m = n := by
  rw [SortedMap.mem_keys_iff, SortedMap.mem_keys_iff, Database.setTable_tables]
  by_cases h : m = n
  · subst h
    rw [SortedMap.get?_insert_self]
    simp
  · rw [SortedMap.get?_insert_of_ne _ _ h]
    simp [h]

/-- Storing a table adds its name. -/
theorem used_setTable {n : String} {t : SqliteTable} :
    (db.setTable n t).used = db.used ∪ {h | h = .table n} := by
  ext h
  show h ∈ Database.used _ ↔ h ∈ db.used ∨ h = .table n
  cases h with
  | table m =>
    rw [table_mem_used, table_mem_used, mem_keys_setTable, Holder.table.injEq]
  | index x m =>
    rw [index_mem_used, index_mem_used]
    simp
  | view x =>
    rw [view_mem_used, view_mem_used]
    simp

/-- Storing a table under a name it already has changes no name. -/
theorem used_setTable_of_get? {n : String} {t u : SqliteTable}
    (hu : db.tables.get? n = some u) : (db.setTable n t).used = db.used := by
  rw [used_setTable, Set.union_eq_left]
  rintro h rfl
  exact table_mem_used.mpr (SortedMap.mem_keys_iff.mpr ⟨u, hu⟩)

/-- Adding an object adds the name it holds. -/
theorem used_addObject {o : SchemaObject} :
    ({ db with objects := db.objects ++ [o] } : Database).used
      = db.used ∪ {h | h ∈ o.holder} := by
  ext h
  show h ∈ Database.holders _ ↔ h ∈ db.holders ∨ h ∈ o.holder
  unfold Database.holders
  rw [List.filterMap_append, ← List.append_assoc, List.mem_append, List.mem_filterMap,
    List.mem_append]
  simp

/-- A statement that creates nothing leaves the names as they are. -/
theorem union_claim_none (used : Set Holder) : used ∪ {h : Holder | h ∈ (none : Option Holder)}
    = used := by
  rw [Set.union_eq_left]
  intro h hh
  cases hh

theorem used_dropIndex {i : IndexDef} :
    ({ db with objects := db.objects.filter (fun o => !(o.kind = .index && o.name = i.name)) }
      : Database).used = {h | h ∈ db.used ∧ ∀ m, h ≠ .index i.name m} := by
  ext h
  show h ∈ Database.used _ ↔ h ∈ db.used ∧ ∀ m, h ≠ .index i.name m
  cases h with
  | table m =>
    rw [table_mem_used, table_mem_used]
    simp
  | index x m =>
    rw [index_mem_used, index_mem_used]
    constructor
    · intro h
      obtain ⟨o, ho, hkind, rfl, rfl⟩ := h
      obtain ⟨ho, hname⟩ := List.mem_filter.mp ho
      refine ⟨⟨o, ho, hkind, rfl, rfl⟩, fun m heq => ?_⟩
      have hname' : o.name = i.name := (Holder.index.inj heq).1
      simp [hkind, hname'] at hname
    · intro h
      obtain ⟨⟨o, ho, hkind, rfl, rfl⟩, hne⟩ := h
      refine ⟨o, List.mem_filter.mpr ⟨ho, ?_⟩, hkind, rfl, rfl⟩
      have hname : o.name ≠ i.name := fun heq => hne o.tblName (by rw [heq])
      simp [hname]
  | view x =>
    rw [view_mem_used, view_mem_used]
    constructor
    · intro h
      obtain ⟨o, ho, hkind, rfl⟩ := h
      exact ⟨⟨o, (List.mem_filter.mp ho).1, hkind, rfl⟩, by simp⟩
    · intro h
      obtain ⟨⟨o, ho, hkind, rfl⟩, -⟩ := h
      exact ⟨o, List.mem_filter.mpr ⟨ho, by simp [hkind]⟩, hkind, rfl⟩

theorem used_removeTable {n : String} :
    (db.removeTable n).used = {h | h ∈ db.used ∧ ¬ h.BelongsTo n} := by
  ext h
  show h ∈ Database.used _ ↔ h ∈ db.used ∧ ¬ h.BelongsTo n
  cases h with
  | table m =>
    rw [table_mem_used, table_mem_used, SortedMap.mem_keys_iff, SortedMap.mem_keys_iff,
      Database.removeTable_tables]
    show _ ↔ _ ∧ ¬ m = n
    by_cases hm : m = n
    · subst hm
      rw [SortedMap.get?_erase_self]
      simp
    · rw [SortedMap.get?_erase_of_ne _ hm]
      simp [hm]
  | index x m =>
    rw [index_mem_used, index_mem_used]
    show _ ↔ _ ∧ ¬ m = n
    constructor
    · intro h
      obtain ⟨o, ho, hkind, rfl, rfl⟩ := h
      obtain ⟨ho, hname⟩ := List.mem_filter.mp ho
      exact ⟨⟨o, ho, hkind, rfl, rfl⟩, by simpa [hkind] using hname⟩
    · intro h
      obtain ⟨⟨o, ho, hkind, rfl, rfl⟩, hne⟩ := h
      exact ⟨o, List.mem_filter.mpr ⟨ho, by simpa [hkind] using hne⟩, hkind, rfl, rfl⟩
  | view x =>
    rw [view_mem_used, view_mem_used]
    show _ ↔ _ ∧ ¬ False
    constructor
    · intro h
      obtain ⟨o, ho, hkind, rfl⟩ := h
      exact ⟨⟨o, (List.mem_filter.mp ho).1, hkind, rfl⟩, id⟩
    · intro h
      obtain ⟨⟨o, ho, hkind, rfl⟩, -⟩ := h
      exact ⟨o, List.mem_filter.mpr ⟨ho, by simp [hkind]⟩, hkind, rfl⟩

theorem mem_keys_renamed {tables : SortedMap String SqliteTable} {a b m : String}
    {t : SqliteTable} : m ∈ ((tables.erase a).insert b t).keys
      ↔ m = b ∨ (m ≠ a ∧ m ∈ tables.keys) := by
  rw [SortedMap.mem_keys_iff, SortedMap.mem_keys_iff]
  by_cases hb : m = b
  · subst hb
    rw [SortedMap.get?_insert_self]
    simp
  · rw [SortedMap.get?_insert_of_ne _ _ hb]
    by_cases ha : m = a
    · subst ha
      rw [SortedMap.get?_erase_self]
      simp [hb]
    · rw [SortedMap.get?_erase_of_ne _ ha]
      simp [ha, hb]

/-- The holder of an object whose table was renamed. -/
theorem holder_renamed (a b : String) (o : SchemaObject) :
    (if o.kind ≠ .view ∧ o.tblName = a then { o with tblName := b } else o).holder
      = o.holder.map (Holder.rename a b) := by
  unfold SchemaObject.holder
  by_cases hname : o.tblName = a
  · cases hkind : o.kind with
    | index => simp [hname, Holder.rename]
    | view => simp [hkind, Holder.rename]
    | trigger => simp [hname]
  · cases hkind : o.kind with
    | index => simp [hname, hkind, Holder.rename]
    | view => simp [hkind, Holder.rename]
    | trigger => simp [hname, hkind]

theorem used_renameTable {a b : String} {t t' : SqliteTable} (ht : db.tables.get? a = some t) :
    (⟨(db.tables.erase a).insert b t', db.objects.map (fun o =>
        if o.kind ≠ .view ∧ o.tblName = a then { o with tblName := b } else o)⟩ : Database).used
      = Holder.rename a b '' db.used := by
  ext h
  rw [Set.mem_image, mem_used]
  simp only [mem_keys_renamed, List.mem_map, exists_exists_and_eq_and, holder_renamed,
    Option.map_eq_some_iff]
  constructor
  · rintro (⟨m, rfl | ⟨hne, hm⟩, rfl⟩ | ⟨o, ho, h₀, hholder, rfl⟩)
    · refine ⟨.table a, table_mem_used.mpr (SortedMap.mem_keys_iff.mpr ⟨t, ht⟩), ?_⟩
      rw [Holder.rename, if_pos rfl]
    · refine ⟨.table m, table_mem_used.mpr hm, ?_⟩
      rw [Holder.rename, if_neg hne]
    · exact ⟨h₀, mem_used.mpr (Or.inr ⟨o, ho, hholder⟩), rfl⟩
  · rintro ⟨h₀, hmem, rfl⟩
    obtain ⟨m, hm, rfl⟩ | ⟨o, ho, hholder⟩ := mem_used.mp hmem
    · left
      by_cases hma : m = a
      · exact ⟨b, Or.inl rfl, by rw [Holder.rename, if_pos hma]⟩
      · exact ⟨m, Or.inr ⟨hma, hm⟩, by rw [Holder.rename, if_neg hma]⟩
    · exact Or.inr ⟨o, ho, h₀, hholder, rfl⟩

theorem used_ensureHistoryTable (h : e.exec db .ensureHistoryTable = .ok db') :
    db'.used = Statement.after e db.used .ensureHistoryTable := by
  rw [Engine.exec] at h
  split_ifs at h with hexists hindex
  · obtain rfl := Except.ok.inj h
    refine (Set.union_eq_left.mpr ?_).symm
    rintro x ⟨-, htables, hviews⟩
    exfalso
    rw [Bool.or_eq_true, List.any_eq_true, List.any_eq_true] at hexists
    obtain ⟨n, hn, hsame⟩ | ⟨o, ho, hsame⟩ := hexists
    · exact htables n (table_mem_used.mpr hn) (sameName_iff.mp hsame)
    · rw [Bool.and_eq_true, decide_eq_true_iff] at hsame
      exact hviews o.name (view_mem_used.mpr ⟨o, ho, hsame.1, rfl⟩) (sameName_iff.mp hsame.2)
  · obtain rfl := Except.ok.inj h
    have hfree : ¬ Taken db.used historyTable := fun h => hindex (nameTaken_iff.mpr h)
    rw [used_setTable]
    refine congrArg (db.used ∪ ·) (Set.ext (fun x => ⟨fun hx => ?_, fun hx => hx.1⟩))
    exact ⟨hx, fun n hn hsame => hfree ⟨_, hn, hsame⟩, fun n hn hsame => hfree ⟨_, hn, hsame⟩⟩

/-- **A statement that succeeds changes the names in use** as it should. -/
theorem used_exec {statement : Statement} (h : e.exec db statement = .ok db') :
    db'.used = statement.after e db.used := by
  cases statement with
  | createTable n t =>
    obtain ⟨-, rfl⟩ := exec_createTable h
    rw [used_setTable]
    ext x
    simp [Statement.after, Statement.claim, eq_comm]
  | createIndex n i =>
    obtain ⟨-, rfl⟩ := exec_createIndex h
    exact used_addObject
  | dropIndex i =>
    obtain rfl := exec_dropIndex h
    exact used_dropIndex
  | addColumn n c =>
    obtain ⟨t, ht, -, rfl⟩ := exec_addColumn h
    rw [used_setTable_of_get? ht]
    exact (union_claim_none _).symm
  | copyRows a b cols =>
    obtain ⟨source, t, t', -, ht, -, rfl⟩ := exec_copyRows h
    rw [used_setTable_of_get? ht]
    exact (union_claim_none _).symm
  | dropTable n =>
    obtain rfl := exec_dropTable h
    exact used_removeTable
  | renameTable a b =>
    obtain ⟨t, ht, -, rfl⟩ := exec_renameTable h
    exact used_renameTable ht
  | replay sql =>
    obtain ⟨o, ho, -, rfl⟩ := exec_replay h
    rw [used_addObject]
    simp [Statement.after, Statement.claim, ho]
  | ensureHistoryTable => exact used_ensureHistoryTable h
  | integrityCheck =>
    obtain rfl := exec_integrityCheck h
    exact (union_claim_none _).symm
  | insertHistory row =>
    obtain ⟨t, t', ht, -, rfl⟩ := exec_insertHistory h
    rw [used_setTable_of_get? ht]
    exact (union_claim_none _).symm

end Exec

/-! ## Runs -/

/-- The name a step needs is free. -/
def Step.Free (e : Engine) (used : Set Holder) : Step → Prop
  | .run statement => statement.Free e used
  | .stop _ => True

/-- The names in use after a step. -/
def Step.after (e : Engine) (used : Set Holder) : Step → Set Holder
  | .run statement => statement.after e used
  | .stop _ => used

/-- The names in use after a run. -/
def afterSteps (e : Engine) (used : Set Holder) (steps : List Step) : Set Holder :=
  steps.foldl (Step.after e) used

/-- **No step of a run needs a name that is in use.** -/
def NoClash (e : Engine) : Set Holder → List Step → Prop
  | _, [] => True
  | used, step :: rest => step.Free e used ∧ NoClash e (step.after e used) rest

section Runs

variable {e : Engine}

theorem noClash_append {used : Set Holder} {a b : List Step} :
    NoClash e used (a ++ b) ↔ NoClash e used a ∧ NoClash e (afterSteps e used a) b := by
  induction a generalizing used with
  | nil => exact (and_iff_right trivial).symm
  | cons step rest ih =>
    show step.Free e used ∧ NoClash e (step.after e used) (rest ++ b) ↔ _
    rw [ih]
    exact and_assoc.symm

/-- **On a database** a run without clashes finds every name free that it
needs. -/
theorem free_of_noClash {db db' : Database} {a b : List Step} {statement : Statement}
    (h : NoClash e db.used (a ++ .run statement :: b)) (hrun : e.execSteps db a = .ok db') :
    statement.Free e db'.used := by
  induction a generalizing db with
  | nil =>
    obtain rfl : db = db' := Except.ok.inj hrun
    exact h.1
  | cons step rest ih =>
    cases step with
    | stop error => cases hrun
    | run s =>
      obtain ⟨mid, hmid, hrest⟩ := execSteps_run hrun
      refine ih ?_ hrest
      rw [used_exec hmid]
      exact h.2

/-- A statement that succeeds found its name free. -/
theorem free_of_exec {db db' : Database} {statement : Statement}
    (h : e.exec db statement = .ok db') : statement.Free e db.used := by
  have hfree : ∀ {n : String}, db.nameTaken n = false → ¬ Taken db.used n := by
    intro n hn htaken
    rw [nameTaken_iff.mpr htaken] at hn
    cases hn
  intro n hn
  cases statement with
  | createTable m t =>
    obtain rfl := Option.some.inj hn
    exact hfree (exec_createTable h).1
  | createIndex m i =>
    obtain rfl := Option.some.inj hn
    exact hfree (exec_createIndex h).1
  | renameTable a b =>
    obtain rfl := Option.some.inj hn
    obtain ⟨t, -, hb, -⟩ := exec_renameTable h
    exact hfree hb
  | replay sql =>
    obtain ⟨o, ho, hkind, -⟩ := exec_replay h
    obtain ⟨x, hx, rfl⟩ := Option.map_eq_some_iff.mp hn
    rw [Statement.claim, ho, Option.bind_some] at hx
    unfold SchemaObject.holder at hx
    split at hx
    · rename_i hindex
      cases hx
      exact hfree (hkind (by rw [hindex]; decide))
    · rename_i hview
      cases hx
      exact hfree (hkind (by rw [hview]; decide))
    · cases hx
  | _ => cases hn

/-- **A run that goes through** has no clash. -/
theorem noClash_of_execSteps {db db' : Database} {steps : List Step}
    (h : e.execSteps db steps = .ok db') : NoClash e db.used steps := by
  induction steps generalizing db with
  | nil => trivial
  | cons step rest ih =>
    cases step with
    | stop error => cases h
    | run statement =>
      obtain ⟨mid, hmid, hrest⟩ := execSteps_run h
      refine ⟨free_of_exec hmid, ?_⟩
      have := ih hrest
      rwa [used_exec hmid] at this

/-- A statement that only creates. -/
def Statement.Creates : Statement → Prop
  | .dropIndex _ => False
  | .dropTable _ => False
  | .renameTable _ _ => False
  | .ensureHistoryTable => False
  | _ => True

theorem Statement.Creates.after_eq {statement : Statement} (h : statement.Creates)
    (used : Set Holder) : statement.after e used = used ∪ {x | x ∈ statement.claim e} := by
  cases statement with
  | dropIndex i => exact absurd h id
  | dropTable n => exact absurd h id
  | renameTable a b => exact absurd h id
  | ensureHistoryTable => exact absurd h id
  | _ => rfl

theorem Statement.Creates.newName_eq {statement : Statement} (h : statement.Creates) :
    statement.newName e = (statement.claim e).map Holder.name := by
  cases statement with
  | renameTable a b => exact absurd h id
  | _ => rfl

theorem taken_union_singleton {used : Set Holder} {h : Holder} {n : String} :
    Taken (used ∪ {x | x ∈ some h}) n ↔ Taken used n ∨ SameName n h.name := by
  unfold Taken
  simp only [Set.mem_union]
  constructor
  · rintro ⟨x, hx | hx, hsame⟩
    · exact Or.inl ⟨x, hx, hsame⟩
    · obtain rfl := Option.some.inj hx
      exact Or.inr hsame
  · rintro (⟨x, hx, hsame⟩ | hsame)
    · exact ⟨x, Or.inl hx, hsame⟩
    · exact ⟨h, Or.inr rfl, hsame⟩

/-- **A run that only creates**: the new names are distinct and free, and
are in use afterwards. -/
theorem noClash_creates (used : Set Holder) {statements : List Statement}
    (hcreates : ∀ s ∈ statements, s.Creates) :
    (NoClash e used (statements.map .run)
        ↔ DistinctNames (statements.filterMap (Statement.claim e))
          ∧ ∀ h ∈ statements.filterMap (Statement.claim e), ¬ Taken used h.name)
      ∧ afterSteps e used (statements.map .run)
        = used ∪ {h | h ∈ statements.filterMap (Statement.claim e)} := by
  induction statements generalizing used with
  | nil =>
    refine ⟨iff_of_true trivial ⟨List.Pairwise.nil, fun h hh => absurd hh List.not_mem_nil⟩, ?_⟩
    refine (Set.union_eq_left.mpr ?_).symm
    exact fun h hh => absurd hh List.not_mem_nil
  | cons s rest ih =>
    have hs := hcreates s List.mem_cons_self
    obtain ⟨hclash, hafter⟩ :=
      ih (s.after e used) (fun s hs => hcreates s (List.mem_cons_of_mem _ hs))
    show (s.Free e used ∧ NoClash e (s.after e used) (rest.map .run) ↔ _)
      ∧ afterSteps e (s.after e used) (rest.map .run) = _
    rw [hclash, hafter, hs.after_eq, Statement.Free, hs.newName_eq]
    cases hclaim : s.claim e with
    | none =>
      rw [List.filterMap_cons_none hclaim, union_claim_none]
      exact ⟨and_iff_right (fun n hn => by cases hn), rfl⟩
    | some h =>
      rw [List.filterMap_cons_some hclaim, List.forall_mem_cons]
      unfold DistinctNames
      rw [List.pairwise_cons]
      simp only [taken_union_singleton, not_or, forall_and]
      refine ⟨⟨fun hall => ?_, fun hall => ?_⟩, ?_⟩
      · obtain ⟨hfree, hpair, hrest, hnew⟩ := hall
        exact ⟨⟨hnew, hpair⟩, hfree _ rfl, hrest⟩
      · obtain ⟨⟨hnew, hpair⟩, hfree, hrest⟩ := hall
        refine ⟨fun n hn => ?_, hpair, hrest, hnew⟩
        obtain rfl := Option.some.inj hn
        exact hfree
      · ext x
        show (x ∈ used ∨ x ∈ some h) ∨ x ∈ rest.filterMap (Statement.claim e)
          ↔ x ∈ used ∨ x ∈ h :: rest.filterMap (Statement.claim e)
        rw [or_assoc, List.mem_cons, Option.mem_def, Option.some.injEq, eq_comm]

end Runs

end Seekwel
