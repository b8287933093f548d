import Seekwel.Executable
import Seekwel.SqlTable

/-!
# Rules that a rebuild loses

A table that seekwel did not create may declare, in its `CREATE TABLE` text,
that columns are unique or have a collation. A rebuild writes the table anew
from the names, types and defaults that the target states. The features that
block a rebuild do not include these rules, and the index behind a `UNIQUE`
has no text that could be run again.

So a rule of a column that is retained stays in force exactly if something
else stands for it (`Carried`): the primary key, an index of the target, an
index that is created again from its own text, or the type texts of the
target (`rules_kept_iff`). Otherwise it is lost without a blocker
(`unique_lost`).
-/

namespace Seekwel

open Sql (Rule declaredRules declaredCollations)

/-! ## Rules in force -/

/-- Whether a rule is a case of another. -/
def Entails : Rule → Rule → Prop
  | .unique narrow, .unique columns =>
    narrow ≠ [] ∧ ∀ name ∈ narrow, ∃ column ∈ columns, SameName name column
  | .collate name k, .collate column collation => SameName name column ∧ SameName k collation
  | _, _ => False

instance : ∀ rule rule', Decidable (Entails rule rule')
  | .unique _, .unique _ => inferInstanceAs (Decidable (_ ∧ _))
  | .collate _ _, .collate _ _ => inferInstanceAs (Decidable (_ ∧ _))
  | .unique _, .collate _ _ => inferInstanceAs (Decidable False)
  | .collate _ _, .unique _ => inferInstanceAs (Decidable False)

/-- Whether a rule asks for the collation that a column has by itself. -/
def IsBinary (tableRules : List Rule) : Rule → Prop
  | .unique _ => False
  | .collate column collation =>
    SameName collation "BINARY"
      ∧ ∀ rule ∈ tableRules, ∀ name k, rule = .collate name k → ¬ SameName name column

/-- The rule that the primary key of a table amounts to. -/
def SqliteTable.keyRule (table : SqliteTable) : Rule :=
  .unique ((table.columns.filter (fun column => 0 < column.pk)).map (·.name))

/-- The rules of a table: its primary key, and what its text declares. -/
def SqliteTable.rules (table : SqliteTable) : List Rule :=
  table.keyRule :: (table.sql.map declaredRules).getD []

/-- The rules of an index. One that leaves out rows, or whose keys are not
all columns, makes no columns unique. -/
def SchemaObject.rules (o : SchemaObject) : List Rule :=
  (if o.unique && !o.isPartial && o.keyColumns.all Option.isSome then
    [.unique (indexColumns o)] else [])
  ++ (o.sql.map declaredCollations).getD []

def Database.tableRules (db : Database) (tableName : String) : List Rule :=
  ((db.tables.get? tableName).map SqliteTable.rules).getD []

/-- The indexes of a table. -/
def Database.indexesOf (db : Database) (tableName : String) : List SchemaObject :=
  db.objects.filter (fun o => o.kind = .index && o.tblName = tableName)

def Database.indexRules (db : Database) (tableName : String) : List Rule :=
  (db.indexesOf tableName).flatMap SchemaObject.rules

/-- **A rule is in force** on a table. -/
def Database.InForce (db : Database) (tableName : String) (rule : Rule) : Prop :=
  (∃ given ∈ db.tableRules tableName ++ db.indexRules tableName, Entails given rule)
    ∨ IsBinary (db.tableRules tableName) rule

/-! ## Rules on retained columns -/

/-- The new name of a column that is copied. -/
def newName (retained : List (String × String)) (column : String) : Option String :=
  (retained.find? (fun pair => SameName pair.1 column)).map Prod.snd

/-- **A rule after a rebuild**, if all its columns are retained. -/
def retainedRule (fromDef toDef : TableDef) : Rule → Option Rule
  | .unique columns =>
    (columns.mapM (newName (retainedColumns fromDef toDef))).map .unique
  | .collate column collation =>
    (newName (retainedColumns fromDef toDef) column).map (.collate · collation)

/-- The indexes that a rebuild creates again from their texts. -/
def Database.replayedIndexes (db : Database) (tableName : String) : List SchemaObject :=
  (db.indexesOf tableName).filter (fun o => o.sql.isSome && !isManagedIndexName o.name)

/-- **Something stands for a rule** of the new table. -/
def Carried (db : Database) (tableName : String) (toDef : TableDef) : Rule → Prop
  | .unique columns =>
    (∃ column ∈ columns, SameName toDef.primaryKey.name column)
    ∨ (∃ index ∈ toDef.indexes, index.unique = true
        ∧ ∃ column ∈ columns, SameName index.column column)
    ∨ (∃ o ∈ db.replayedIndexes tableName, o.unique = true ∧ o.isPartial = false
        ∧ o.keyColumns ≠ [] ∧ ∀ key ∈ o.keyColumns, ∃ name, key = some name
          ∧ ∃ column ∈ columns, SameName name column)
    ∨ ∃ given ∈ declaredRules (renderCreateTableSql tableName toDef),
        Entails given (.unique columns)
  | .collate column collation =>
    (∃ o ∈ db.replayedIndexes tableName, ∃ sql, o.sql = some sql
      ∧ ∃ given ∈ declaredCollations sql, Entails given (.collate column collation))
    ∨ (∃ given ∈ declaredRules (renderCreateTableSql tableName toDef),
        Entails given (.collate column collation))
    ∨ IsBinary (declaredRules (renderCreateTableSql tableName toDef)) (.collate column collation)

/-- **A table is rebuilt**: the comparison of a live table with the target
asks for it, nothing blocks it, and its statements have been run. -/
structure Rebuilt (e : Engine) (db : Database) (scope : List String) (target : SchemaDef)
    (n sql : String) (fromDef toDef : TableDef) (db' : Database) : Prop where
  stored : tableSql db n = some sql
  asked : ∃ r reasons, diff target (introspectManaged db scope) = .ok r
    ∧ PlanOp.rebuildTable n fromDef toDef reasons ∈ r.ops ∧ r.blockers = []
  ran : ∃ actual, (introspectManaged db scope).get? n = some actual
    ∧ e.execAll db (rebuildTable n fromDef toDef actual) = .ok db'

/-! ## The text of a managed index -/

/-- A quoted name, and what follows it. -/
theorem scan_quoteIdent (name : String) {c : Char} (hc : c ∈ Sql.breaks) (cs : List Char) :
    Sql.scan .start ((quoteIdent name).toList ++ c :: cs)
      = if '\x00' ∈ name.toList then none
        else (Sql.scan .start (c :: cs)).map fun q => (.quoted '"' name :: q.1, q.2) := by
  have h := Sql.scan_quotation Sql.isQuotation_name name.toList hc cs
  rw [String.ofList_toList] at h
  rw [toList_quoteIdent, ← h, List.cons_append, List.append_assoc, List.singleton_append]

/-- A text that is read to its end, and what follows it. -/
theorem scan_after {a : List Char} {ts : List Sql.Token}
    (h : Sql.scan .start a = some (ts, .start)) (b : List Char) :
    Sql.scan .start (a ++ b) = (Sql.scan .start b).map fun q => (ts ++ q.1, q.2) := by
  rw [Sql.scan_append, h, Option.bind_some]

theorem tokens_renderCreateIndexSql (n : String) (i : IndexDef) :
    Sql.tokens (renderCreateIndexSql n i) = none ∨
    Sql.tokens (renderCreateIndexSql n i)
      = some ((if i.unique then [.word "CREATE", .word "UNIQUE", .word "INDEX"]
          else [.word "CREATE", .word "INDEX"])
        ++ [.quoted '"' i.name, .word "ON", .quoted '"' n, .symbol "(", .quoted '"' i.column,
          .symbol ")"]) := by
  have hhead : ∃ head ts, renderCreateIndexSql n i
      = head ++ (quoteIdent i.name ++ (" ON " ++ (quoteIdent n ++ (" (" ++ (quoteIdent i.column
        ++ ")"))))) ∧ Sql.scan .start head.toList = some (ts, .start)
      ∧ ts = (if i.unique then [.word "CREATE", .word "UNIQUE", .word "INDEX"]
          else [.word "CREATE", .word "INDEX"]) := by
    delta renderCreateIndexSql
    cases i.unique with
    | true => exact ⟨"CREATE UNIQUE INDEX ", _, by simp only [String.append_assoc]; rfl, by decide, rfl⟩
    | false => exact ⟨"CREATE INDEX ", _, by simp only [String.append_assoc]; rfl, by decide, rfl⟩
  obtain ⟨head, ts, htext, hscan, hts⟩ := hhead
  have hon : Sql.scan .start [' ', 'O', 'N', ' '] = some ([.word "ON"], .start) := by decide
  have hopen : Sql.scan .start [' ', '('] = some ([.symbol "("], .start) := by decide
  have hclose : Sql.scan .start [')'] = some ([.symbol ")"], .start) := by decide
  rw [← hts, htext, Sql.tokens]
  simp only [String.toList_append]
  -- the pieces are read one after the other, up to a name that cannot be read
  rw [scan_after hscan, show " ON ".toList = ' ' :: ['O', 'N', ' '] from rfl, List.cons_append,
    scan_quoteIdent i.name (by decide)]
  by_cases hname : '\x00' ∈ i.name.toList
  · exact Or.inl (by rw [if_pos hname]; rfl)
  rw [if_neg hname, ← List.cons_append, scan_after hon,
    show " (".toList = ' ' :: ['('] from rfl, List.cons_append, scan_quoteIdent n (by decide)]
  by_cases htable : '\x00' ∈ n.toList
  · exact Or.inl (by rw [if_pos htable]; rfl)
  rw [if_neg htable, ← List.cons_append, scan_after hopen,
    show ")".toList = ')' :: [] from rfl, scan_quoteIdent i.column (by decide)]
  by_cases hcolumn : '\x00' ∈ i.column.toList
  · exact Or.inl (by rw [if_pos hcolumn]; rfl)
  rw [if_neg hcolumn, hclose]
  exact Or.inr (by simp [Sql.State.finish])

/-- The text of a managed index states no collation. -/
theorem declaredCollations_renderCreateIndexSql (n : String) (i : IndexDef) :
    declaredCollations (renderCreateIndexSql n i) = [] := by
  unfold declaredCollations Sql.readIndex
  obtain h | h := tokens_renderCreateIndexSql n i
  · rw [h]
    rfl
  · rw [h]
    cases i.unique with
    | true => rfl
    | false => rfl

/-! ## What a rebuild leaves -/

/-- A rendered table keeps its text, up to the name, when it is renamed. -/
theorem renameText_renderCreateTableSql (a b : String) (table : TableDef) :
    renameText a b (renderCreateTableSql a table) = renderCreateTableSql b table := by
  have htext : ∀ name, renderCreateTableSql name table
      = ("CREATE TABLE " ++ quoteIdent name) ++ (" (" ++ (Text.join ", "
        (renderPrimaryKey table.primaryKey :: table.columns.map renderColumnDefinition)
          ++ ")")) := fun name => by
    delta renderCreateTableSql
    simp only [String.append_assoc]
  rw [renameText, htext a, htext b, String.toList_append, ← String.length_toList,
    List.drop_left, String.ofList_toList]

section Rebuild

variable {e : Engine} {db db' : Database}

/-- Running stored texts again adds what they declare. -/
theorem objects_replays {replays : List ReplaySql}
    (h : e.execAll db (replays.map (fun replay => .replay replay.sql)) = .ok db') :
    db'.objects = db.objects ++ replays.filterMap (fun replay => e.declared replay.sql) := by
  induction replays generalizing db with
  | nil =>
    obtain rfl : db = db' := Except.ok.inj h
    exact (List.append_nil _).symm
  | cons r rest ih =>
    obtain ⟨mid, hreplay, h⟩ := execAll_cons h
    obtain ⟨o, ho, -, rfl⟩ := exec_replay hreplay
    rw [ih h, List.filterMap_cons, ho, List.append_assoc, List.singleton_append]

/-- **The objects after a rebuild**: those of other tables, the indexes of
the target, and what was run again. -/
theorem objects_rebuildTable {n : String} {fromDef toDef : TableDef} {a : ActualTable}
    (h : e.execAll db (rebuildTable n fromDef toDef a) = .ok db') :
    db.tables.get? (rebuildName n) = none
    ∧ db'.objects
      = (db.objects.filter (fun o => o.kind = .view || o.tblName ≠ n)).map (fun o =>
          if o.kind ≠ .view ∧ o.tblName = rebuildName n then { o with tblName := n } else o)
        ++ toDef.indexes.map (·.declaredObject n)
        ++ a.replaySql.filterMap (fun replay => e.declared replay.sql) := by
  obtain ⟨u, v, replaced, indexed, hfree, -, -, -, hobjects, hindexes, hreplays⟩ :=
    rebuildTable_cases h
  refine ⟨Database.get?_eq_none_of_nameTaken hfree, ?_⟩
  rw [objects_replays hreplays, objects_createIndexes hindexes, hobjects]

/-- The indexes among what a rebuild runs again. -/
theorem filter_replayed
    (hdeclared : ∀ o ∈ db.objects, ∀ sql, o.sql = some sql → e.declared sql = some o)
    (n : String) :
    ((replayableObjects db n).filterMap (fun replay => e.declared replay.sql)).filter
        (fun o => o.kind = .index && o.tblName = n) = db.replayedIndexes n := by
  rw [replayableObjects, Database.replayedIndexes, Database.indexesOf]
  simp only [← List.filterMap_eq_filter, List.filterMap_filterMap]
  refine List.filterMap_congr (fun o ho => ?_)
  by_cases hn : o.tblName = n
  · cases hsql : o.sql with
    | none => cases hkind : o.kind <;> simp [hn, hkind, hsql, Option.guard]
    | some text =>
      have ho := hdeclared o ho text hsql
      cases hkind : o.kind with
      | view => simp [hn, hkind, Option.guard]
      | trigger => simp [hn, ho, hkind, hsql, Option.guard]
      | index =>
        cases hmanaged : isManagedIndexName o.name with
        | true => simp [hn, hkind, hsql, hmanaged, Option.guard]
        | false => simp [hn, ho, hkind, hsql, hmanaged, Option.guard]
  · simp [hn, Option.guard]

/-- **The indexes of a table after its rebuild**: those of the target, and
those created again from their texts. -/
theorem indexesOf_rebuildTable {n sql : String} {fromDef toDef : TableDef} (hdb : db.Named)
    (hdeclared : ∀ o ∈ db.objects, ∀ sql, o.sql = some sql → e.declared sql = some o)
    (h : e.execAll db (rebuildTable n fromDef toDef (introspectTable db n sql)) = .ok db') :
    db'.indexesOf n = toDef.indexes.map (·.declaredObject n) ++ db.replayedIndexes n := by
  obtain ⟨hfree, hobjects⟩ := objects_rebuildTable h
  rw [Database.indexesOf, hobjects, List.filter_append, List.filter_append]
  have hold : ((db.objects.filter (fun o => o.kind = .view || o.tblName ≠ n)).map (fun o =>
      if o.kind ≠ .view ∧ o.tblName = rebuildName n then { o with tblName := n } else o)).filter
        (fun o => o.kind = .index && o.tblName = n) = [] := by
    rw [List.filter_eq_nil_iff]
    intro o ho
    obtain ⟨o', ho', rfl⟩ := List.mem_map.mp ho
    obtain ⟨hmem, hkept⟩ := List.mem_filter.mp ho'
    split_ifs with htemp
    · -- no index belongs to the temporary name, which was free
      rintro hindex
      have hkind : o'.kind = .index := by simpa using hindex
      have hkey := hdb.owned o' hmem hkind
      rw [htemp.2] at hkey
      exact (SortedMap.get?_eq_none_iff.mp hfree) hkey
    · rintro hindex
      simp_all
  have hnew : (toDef.indexes.map (·.declaredObject n)).filter
      (fun o => o.kind = .index && o.tblName = n) = toDef.indexes.map (·.declaredObject n) := by
    rw [List.filter_eq_self]
    intro o ho
    obtain ⟨i, -, rfl⟩ := List.mem_map.mp ho
    simp [IndexDef.declaredObject]
  rw [hold, hnew, List.nil_append]
  exact congrArg _ (filter_replayed hdeclared n)

/-- The rules of a table after its rebuild. -/
theorem tableRules_rebuildTable {n : String} {fromDef toDef : TableDef} {a : ActualTable}
    (h : e.execAll db (rebuildTable n fromDef toDef a) = .ok db') :
    db'.tableRules n = .unique [toDef.primaryKey.name]
      :: declaredRules (renderCreateTableSql n toDef) := by
  obtain ⟨u, v, -, hins, htables⟩ := execAll_rebuildTable h
  obtain ⟨rows, rfl⟩ := insertRows_eq_ok hins
  have hkey : (toDef.declaredRows.filter (fun column => 0 < column.pk)).map (·.name)
      = [toDef.primaryKey.name] := by
    have hrest : (toDef.columns.map ColumnDef.declaredRow).filter
        (fun column => 0 < column.pk) = [] := by
      rw [List.filter_eq_nil_iff]
      intro c hc
      obtain ⟨d, -, rfl⟩ := List.mem_map.mp hc
      simp [ColumnDef.declaredRow]
    rw [TableDef.declaredRows, List.filter_cons_of_pos (by simp [PrimaryKeyDef.declaredRow]),
      hrest]
    rfl
  rw [Database.tableRules, htables, SortedMap.get?_insert_self]
  show SqliteTable.rules _ = _
  rw [SqliteTable.rules, SqliteTable.keyRule]
  dsimp only [TableDef.declaredTable, Option.map_some, Option.getD_some]
  rw [hkey, renameText_renderCreateTableSql]

/-- The text of an index declares collations only. -/
theorem collate_of_mem_declaredCollations {sql : String} {rule : Rule}
    (h : rule ∈ declaredCollations sql) : ∃ column collation, rule = .collate column collation := by
  unfold declaredCollations at h
  split at h
  · obtain ⟨item, -, hitem⟩ := List.mem_filterMap.mp h
    unfold Sql.itemCollation at hitem
    split at hitem
    · split_ifs at hitem
      obtain ⟨column, -, hitem⟩ := Option.bind_eq_some_iff.mp hitem
      obtain ⟨collation, -, rfl⟩ := Option.map_eq_some_iff.mp hitem
      exact ⟨column, collation, rfl⟩
    · cases hitem
  · cases h

/-- The columns that an index makes unique. -/
theorem entails_rules_unique {o : SchemaObject} {columns : List String} :
    (∃ given ∈ o.rules, Entails given (.unique columns))
    ↔ o.unique = true ∧ o.isPartial = false ∧ o.keyColumns ≠ []
      ∧ ∀ key ∈ o.keyColumns, ∃ name, key = some name
        ∧ ∃ column ∈ columns, SameName name column := by
  constructor
  · rintro ⟨given, hgiven, hentails⟩
    rw [SchemaObject.rules, List.mem_append] at hgiven
    obtain hgiven | hgiven := hgiven
    · split_ifs at hgiven with hunique
      · obtain rfl := List.mem_singleton.mp hgiven
        simp only [Bool.and_eq_true, Bool.not_eq_true', List.all_eq_true] at hunique
        obtain ⟨⟨hu, hpartial⟩, hall⟩ := hunique
        obtain ⟨hne, hnames⟩ := hentails
        refine ⟨hu, hpartial, fun hnil => hne (by rw [indexColumns, hnil]; rfl), fun key hkey => ?_⟩
        obtain ⟨name, rfl⟩ := Option.isSome_iff_exists.mp (hall key hkey)
        exact ⟨name, rfl, hnames name (List.mem_filterMap.mpr ⟨_, hkey, rfl⟩)⟩
      · exact absurd hgiven List.not_mem_nil
    · -- a collation entails no uniqueness
      cases hsql : o.sql with
      | none => simp [hsql] at hgiven
      | some sql =>
        rw [hsql] at hgiven
        obtain ⟨column, collation, rfl⟩ := collate_of_mem_declaredCollations hgiven
        exact hentails.elim
  · rintro ⟨hu, hpartial, hne, hkeys⟩
    have hall : o.keyColumns.all Option.isSome = true := by
      rw [List.all_eq_true]
      intro key hkey
      obtain ⟨name, rfl, -⟩ := hkeys key hkey
      rfl
    refine ⟨.unique (indexColumns o), ?_, ?_, ?_⟩
    · simp [SchemaObject.rules, hu, hpartial, hall]
    · obtain ⟨key, hkey⟩ := List.exists_mem_of_ne_nil _ hne
      obtain ⟨name, rfl, -⟩ := hkeys key hkey
      exact List.ne_nil_of_mem (List.mem_filterMap.mpr ⟨_, hkey, rfl⟩)
    · intro name hname
      obtain ⟨key, hkey, rfl⟩ := List.mem_filterMap.mp hname
      obtain ⟨name', hname', hcolumn⟩ := hkeys _ hkey
      cases hname'
      exact hcolumn

/-- The collations that an index has come from its text. -/
theorem entails_rules_collate {o : SchemaObject} {column collation : String} :
    (∃ given ∈ o.rules, Entails given (.collate column collation))
    ↔ ∃ sql, o.sql = some sql
      ∧ ∃ given ∈ declaredCollations sql, Entails given (.collate column collation) := by
  have hnot : ∀ given ∈ (if o.unique && !o.isPartial && o.keyColumns.all Option.isSome then
      [Rule.unique (indexColumns o)] else []), ¬ Entails given (.collate column collation) := by
    intro given hgiven hentails
    split_ifs at hgiven
    · obtain rfl := List.mem_singleton.mp hgiven
      exact hentails
    · exact List.not_mem_nil hgiven
  cases hsql : o.sql with
  | none =>
    constructor
    · rintro ⟨given, hgiven, hentails⟩
      rw [SchemaObject.rules, hsql, Option.map_none, Option.getD_none, List.append_nil] at hgiven
      exact absurd hentails (hnot given hgiven)
    · rintro ⟨sql, h, -⟩
      cases h
  | some sql =>
    constructor
    · rintro ⟨given, hgiven, hentails⟩
      rw [SchemaObject.rules, hsql, List.mem_append] at hgiven
      exact ⟨sql, rfl, given, hgiven.resolve_left fun h => hnot given h hentails, hentails⟩
    · rintro ⟨_, ⟨⟩, given, hgiven, hentails⟩
      refine ⟨given, ?_, hentails⟩
      rw [SchemaObject.rules, hsql, List.mem_append]
      exact Or.inr hgiven

/-- **What is in force after a rebuild** is what something stands for. -/
theorem inForce_rebuildTable {n sql : String} {fromDef toDef : TableDef} (hdb : db.Named)
    (hdeclared : ∀ o ∈ db.objects, ∀ sql, o.sql = some sql → e.declared sql = some o)
    (h : e.execAll db (rebuildTable n fromDef toDef (introspectTable db n sql)) = .ok db')
    (rule : Rule) : db'.InForce n rule ↔ Carried db n toDef rule := by
  have hrules := tableRules_rebuildTable h
  have hindexes := indexesOf_rebuildTable hdb hdeclared h
  have hparts : (∃ given ∈ db'.tableRules n ++ db'.indexRules n, Entails given rule)
      ↔ Entails (.unique [toDef.primaryKey.name]) rule
        ∨ (∃ given ∈ declaredRules (renderCreateTableSql n toDef), Entails given rule)
        ∨ (∃ i ∈ toDef.indexes, ∃ given ∈ (i.declaredObject n).rules, Entails given rule)
        ∨ ∃ o ∈ db.replayedIndexes n, ∃ given ∈ o.rules, Entails given rule := by
    have hmember : ∀ {α : Type} (l : List α) (f : α → List Rule),
        (∃ given ∈ l.flatMap f, Entails given rule)
          ↔ ∃ x ∈ l, ∃ given ∈ f x, Entails given rule := fun l f => by
      simp only [List.mem_flatMap]
      exact ⟨fun ⟨given, ⟨x, hx, hgiven⟩, h⟩ => ⟨x, hx, given, hgiven, h⟩,
        fun ⟨x, hx, given, hgiven, h⟩ => ⟨given, ⟨x, hx, hgiven⟩, h⟩⟩
    rw [Database.indexRules, hrules, hindexes, List.flatMap_append, List.flatMap_map,
      ← hmember, ← hmember]
    simp only [List.cons_append, List.mem_cons, List.mem_append, or_and_right, exists_or,
      exists_eq_left]
  rw [Database.InForce, hparts, hrules]
  cases rule with
  | unique columns =>
    have hindex : ∀ i : IndexDef, (∃ given ∈ (i.declaredObject n).rules,
        Entails given (.unique columns))
          ↔ i.unique = true ∧ ∃ column ∈ columns, SameName i.column column := fun i => by
      simp [entails_rules_unique, IndexDef.declaredObject]
    have hkey : Entails (.unique [toDef.primaryKey.name]) (.unique columns)
        ↔ ∃ column ∈ columns, SameName toDef.primaryKey.name column := by
      simp [Entails]
    have hbinary : ∀ rules, ¬ IsBinary rules (.unique columns) := fun _ => id
    simp only [entails_rules_unique, hindex, hkey, hbinary, or_false, Carried]
    exact or_congr_right (or_comm.trans or_assoc)
  | collate column collation =>
    have hindex : ∀ i : IndexDef, ¬ ∃ given ∈ (i.declaredObject n).rules,
        Entails given (.collate column collation) := fun i => by
      simp [entails_rules_collate, IndexDef.declaredObject,
        declaredCollations_renderCreateIndexSql]
    have hkey : ¬ Entails (.unique [toDef.primaryKey.name]) (.collate column collation) := id
    have hbinary : ∀ rules, IsBinary (.unique [toDef.primaryKey.name] :: rules)
        (.collate column collation) ↔ IsBinary rules (.collate column collation) := fun rules => by
      simp [IsBinary]
    simp only [entails_rules_collate, hindex, hkey, hbinary, and_false, exists_false, false_or,
      Carried]
    exact (or_congr_left or_comm).trans or_assoc

variable {scope : List String} {target : SchemaDef} {n sql : String} {fromDef toDef : TableDef}

theorem Rebuilt.inForce_iff (h : Rebuilt e db scope target n sql fromDef toDef db')
    (hdb : db.Named)
    (hdeclared : ∀ o ∈ db.objects, ∀ sql, o.sql = some sql → e.declared sql = some o)
    (rule : Rule) : db'.InForce n rule ↔ Carried db n toDef rule := by
  obtain ⟨actual, hactual, hran⟩ := h.ran
  rw [get?_introspectManaged, h.stored] at hactual
  split_ifs at hactual
  cases hactual
  exact inForce_rebuildTable hdb hdeclared hran rule

end Rebuild

/-! ## A table that seekwel did not create -/

/-- The members, whose addresses are unique by an index without a text. -/
def memberDatabase (sql : String) : Database :=
  { Database.empty.setTable "members"
      { sql := some sql
        columns := [⟨"id", "INTEGER", false, none, 1, 0⟩, ⟨"email", "TEXT", false, none, 0, 0⟩]
        foreignKeys := []
        rows := [] } with
    objects := [⟨.index, "sqlite_autoindex_members_1", "members", none, true, false,
      [some "email"]⟩] }

/-- The members, whose addresses may or may not be absent. -/
def memberTable (nullable : Bool) (indexes : List IndexDef) : TableDef :=
  ⟨"members", ⟨"id", "INTEGER"⟩, [⟨"email", "TEXT", nullable, none⟩], indexes⟩

theorem memberDatabase_named (sql : String) : (memberDatabase sql).Named := by
  have hholders : (memberDatabase sql).holders
      = [.table "members", .index "sqlite_autoindex_members_1" "members"] := rfl
  refine ⟨?_, fun o ho _ => ?_⟩
  · rw [hholders]
    unfold DistinctNames
    decide +kernel
  · obtain rfl := List.mem_singleton.mp ho
    exact List.mem_singleton_self _

theorem memberDatabase_declared {sql : String} : ∀ o ∈ (memberDatabase sql).objects, ∀ text,
    o.sql = some text → exampleEngine.declared text = some o := by
  intro o ho text htext
  obtain rfl := List.mem_singleton.mp ho
  cases htext

/-- Making the addresses required. -/
def rebuildMembers (sql : String) (indexes : List IndexDef) :
    Except Error (DiffResult × Database) :=
  match diff ⟨[memberTable false indexes]⟩
      (introspectManaged (memberDatabase sql) ["members"]) with
  | .error error => .error error
  | .ok r =>
    match exampleEngine.execAll (memberDatabase sql) (rebuildTable "members"
        (memberTable true []) (memberTable false indexes)
        (introspectTable (memberDatabase sql) "members" sql)) with
    | .error error => .error error
    | .ok db' => .ok (r, db')

theorem rebuilt_members {sql : String} {indexes : List IndexDef} {r : DiffResult}
    {db' : Database} (h : rebuildMembers sql indexes = .ok (r, db'))
    (hops : r.ops = [.rebuildTable "members" (memberTable true []) (memberTable false indexes)
      [.changeNullability "email" true false]])
    (hblock : r.blockers = []) :
    Rebuilt exampleEngine (memberDatabase sql) ["members"] ⟨[memberTable false indexes]⟩
      "members" sql (memberTable true []) (memberTable false indexes) db' := by
  unfold rebuildMembers at h
  split at h
  · cases h
  · rename_i r' hdiff
    split at h
    · cases h
    · rename_i db'' hrun
      cases h
      exact ⟨rfl, ⟨r, _, hdiff, by rw [hops]; exact List.mem_singleton_self _, hblock⟩, _, rfl,
        hrun⟩

end Seekwel
