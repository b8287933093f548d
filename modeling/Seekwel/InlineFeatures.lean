import Seekwel.Atomicity

/-!
# Whether created tables can be rebuilt

Introspection decides from the text of a stored `CREATE TABLE` statement
whether the table has features that a rebuild would lose. It searches the
whole text for three words, wherever they stand and in whatever case. A
statement that seekwel wrote itself contains names, types and defaults that
the models chose, and mentions one of the words if one of these does, and
only then (`occurs_renderCreateTableSql`).

So a schema can be migrated from exactly when its names, types and defaults
are free of the words (`created_migratable`). A column named `checked` is
enough to make a table one that seekwel refuses to rebuild
(`checked_not_migratable`).
-/

namespace Seekwel

/-! ## Occurrences -/

/-- The words that introspection searches a statement for. -/
def inlineWords : List String := ["CHECK", "WITHOUT ROWID", "GENERATED ALWAYS"]

/-- Whether a word occurs in the upper case of a text. -/
def Occurs (w : List Char) (s : String) : Prop := w <:+: s.toList.map Char.toUpper

/-- **Whether a text is free of the words**, in whatever case. -/
def Unremarkable (s : String) : Prop := ∀ word ∈ inlineWords, ¬ Occurs word.toList s

instance (w : List Char) (s : String) : Decidable (Occurs w s) :=
  inferInstanceAs (Decidable (_ <:+: _))

instance (s : String) : Decidable (Unremarkable s) :=
  inferInstanceAs (Decidable (∀ word ∈ inlineWords, ¬ Occurs word.toList s))

theorem contains_toAsciiUppercase {s word : String} :
    Text.contains (Text.toAsciiUppercase s) word = true ↔ Occurs word.toList s := by
  rw [Text.contains, Text.toAsciiUppercase, String.toList_ofList, decide_eq_true_iff]
  rfl

/-- **No feature is reported for a text exactly when it is free of the
words.** -/
theorem inlineFeatures_eq_nil_iff {sql : String} :
    inlineFeatures sql = [] ↔ Unremarkable sql := by
  unfold inlineFeatures
  simp only [List.append_eq_nil_iff, ite_eq_right_iff, List.cons_ne_nil, imp_false,
    contains_toAsciiUppercase]
  constructor
  · intro h word hword
    simp only [inlineWords, List.mem_cons, List.not_mem_nil, or_false] at hword
    obtain rfl | rfl | rfl := hword
    · exact h.1.1
    · exact h.1.2
    · exact h.2
  · intro h
    exact ⟨⟨h _ (by simp [inlineWords]), h _ (by simp [inlineWords])⟩,
      h _ (by simp [inlineWords])⟩

/-- What makes a word easy to follow through a rendered statement: it has no
quote, bracket, comma or `F`, and the fixed texts between names, types and
defaults neither contain it nor reach into it. -/
structure Searched (w : List Char) : Prop where
  ne_nil : w ≠ []
  quote : '"' ∉ w
  comma : ',' ∉ w
  openParen : '(' ∉ w
  closeParen : ')' ∉ w
  f : 'F' ∉ w
  create : ¬ Occurs w "CREATE TABLE "
  primaryKey : ¬ Occurs w " INTEGER PRIMARY KEY"
  space : Text.NoExit w [' ']
  notNull : Text.NoEntry w " NOT NULL".toList
  beforeF : Text.NoEntry w " DE".toList
  notNullBeforeF : Text.NoEntry w " NOT NULL DE".toList
  afterF : Text.NoExit w "AULT ".toList

theorem searched_inlineWords : ∀ word ∈ inlineWords, Searched word.toList := by
  intro word hword
  simp only [inlineWords, List.mem_cons, List.not_mem_nil, or_false] at hword
  obtain rfl | rfl | rfl := hword
  all_goals
    constructor
    all_goals decide +kernel

/-! ## Where a word occurs in a statement -/

theorem toUpper_eq_quote_iff {d : Char} : d.toUpper = '"' ↔ d = '"' := by
  constructor
  · intro h
    unfold Char.toUpper at h
    split at h
    · rename_i hd
      -- a small letter becomes a capital
      have hval := congrArg (fun c : Char => c.val.toNat) h
      have hsub : ('A'.val - 'a'.val).toNat = 2 ^ 32 - 32 := by decide
      have ha : 97 ≤ d.val.toNat := hd.1
      have hz : d.val.toNat ≤ 122 := hd.2
      dsimp only at hval
      rw [UInt32.toNat_add, hsub, show '"'.val.toNat = 34 from rfl] at hval
      omega
    · exact h
  · rintro rfl
    rfl

theorem map_toUpper_replaceChar (l : List Char) :
    (Text.replaceChar '"' ['"', '"'] l).map Char.toUpper
      = Text.replaceChar '"' ['"', '"'] (l.map Char.toUpper) := by
  induction l with
  | nil => rfl
  | cons d l ih =>
    unfold Text.replaceChar at ih ⊢
    rw [List.map_cons, List.flatMap_cons, List.flatMap_cons, List.map_append, ih]
    by_cases hd : d = '"'
    · rw [if_pos hd, if_pos (toUpper_eq_quote_iff.mpr hd)]
      rfl
    · rw [if_neg hd, if_neg (fun h => hd (toUpper_eq_quote_iff.mp h))]
      rfl

section Rendering

variable {w : List Char}

theorem occurs_append_cons {x : Char} (hx : x ∉ w) (hup : x.toUpper = x) (a b : String) :
    Occurs w (a ++ (String.singleton x ++ b)) ↔ Occurs w a ∨ Occurs w b := by
  unfold Occurs
  rw [String.toList_append, String.toList_append, String.toList_singleton, List.map_append,
    List.map_append, List.map_singleton, hup, List.singleton_append,
    Text.infix_append_cons_iff hx]

/-- A word that occurs in a statement with a quoted name occurs in the name
or on one side of it. -/
theorem occurs_quoteIdent (hw : Searched w) (a n b : String) :
    Occurs w (a ++ (quoteIdent n ++ b)) ↔ Occurs w a ∨ Occurs w n ∨ Occurs w b := by
  have hquoted : quoteIdent n ++ b
      = String.singleton '"' ++ (Text.replace n '"' "\"\"" ++ (String.singleton '"' ++ b)) := by
    unfold quoteIdent
    rw [String.append_assoc, String.append_assoc]
    rfl
  have hname : Occurs w (Text.replace n '"' "\"\"") ↔ Occurs w n := by
    unfold Occurs Text.replace
    rw [String.toList_ofList, show "\"\"".toList = ['"', '"'] from rfl, map_toUpper_replaceChar,
      Text.infix_replaceChar_iff hw.quote hw.ne_nil]
  rw [hquoted, occurs_append_cons hw.quote rfl, occurs_append_cons hw.quote rfl, hname]

/-- The text of a column after its type. -/
def columnRest (column : ColumnDef) : String :=
  (if column.nullable then "" else " NOT NULL")
    ++ (match column.defaultSql with
        | some defaultSql => " DEFAULT " ++ defaultSql
        | none => "")

theorem occurs_columnRest (hw : Searched w) (a : String) (column : ColumnDef) :
    Occurs w (a ++ columnRest column)
      ↔ Occurs w a ∨ ∃ d, column.defaultSql = some d ∧ Occurs w d := by
  have hentry : ∀ b : String, Text.NoEntry w (b.toList.map Char.toUpper) →
      (Occurs w (a ++ b) ↔ Occurs w a) := by
    intro b hb
    unfold Occurs
    rw [String.toList_append, List.map_append, Text.infix_append_iff_of_noEntry hb]
  have hexit : ∀ d, Occurs w ("AULT " ++ d) ↔ Occurs w d := by
    intro d
    unfold Occurs
    rw [String.toList_append, List.map_append]
    exact Text.infix_append_iff_of_noExit hw.afterF _
  have hdefault : ∀ b d : String, Text.NoEntry w (b.toList.map Char.toUpper) →
      (Occurs w (a ++ b ++ (String.singleton 'F' ++ ("AULT " ++ d)))
        ↔ Occurs w a ∨ Occurs w d) := by
    intro b d hb
    rw [occurs_append_cons hw.f rfl, hentry b hb, hexit]
  unfold columnRest
  cases hd : column.defaultSql with
  | none =>
    cases column.nullable with
    | true => simp
    | false => simpa using hentry " NOT NULL" hw.notNull
  | some d =>
    cases column.nullable with
    | true =>
      have htext : a ++ ("" ++ (" DEFAULT " ++ d))
          = a ++ " DE" ++ (String.singleton 'F' ++ ("AULT " ++ d)) := by
        rw [show " DEFAULT " = " DE" ++ (String.singleton 'F' ++ "AULT ") from rfl]
        simp only [String.empty_append, String.append_assoc]
      simp only [if_true]
      rw [htext, hdefault " DE" d hw.beforeF]
      simp
    | false =>
      have htext : a ++ (" NOT NULL" ++ (" DEFAULT " ++ d))
          = a ++ " NOT NULL DE" ++ (String.singleton 'F' ++ ("AULT " ++ d)) := by
        rw [show " NOT NULL DE" = " NOT NULL" ++ " DE" from rfl,
          show " DEFAULT " = " DE" ++ (String.singleton 'F' ++ "AULT ") from rfl]
        simp only [String.append_assoc]
      simp only [Bool.false_eq_true, if_false]
      rw [htext, hdefault " NOT NULL DE" d hw.notNullBeforeF]
      simp

theorem not_occurs_empty (hw : Searched w) : ¬ Occurs w "" := by
  intro h
  exact hw.ne_nil (List.infix_nil.mp h)

theorem occurs_space (hw : Searched w) (a : String) : Occurs w (" " ++ a) ↔ Occurs w a := by
  unfold Occurs
  rw [String.toList_append, List.map_append]
  exact Text.infix_append_iff_of_noExit hw.space _

theorem occurs_join (hw : Searched w) (l : List String) :
    Occurs w (Text.join ", " l) ↔ ∃ s ∈ l, Occurs w s := by
  induction l with
  | nil => simpa [Text.join] using not_occurs_empty hw
  | cons s rest ih =>
    cases rest with
    | nil => simp [Text.join]
    | cons s' rest =>
      have htext : Text.join ", " (s :: s' :: rest)
          = s ++ (String.singleton ',' ++ (" " ++ Text.join ", " (s' :: rest))) := by
        show s ++ (String.singleton ',' ++ " ") ++ Text.join ", " (s' :: rest) = _
        simp only [String.append_assoc]
      rw [htext, occurs_append_cons hw.comma rfl, occurs_space hw, ih]
      simp

/-- A word occurs in the definition of a column if it occurs in its name,
its type or its default. -/
theorem occurs_renderColumnDefinition (hw : Searched w) (column : ColumnDef) :
    Occurs w (renderColumnDefinition column)
      ↔ Occurs w column.name ∨ Occurs w column.sqlType
        ∨ ∃ d, column.defaultSql = some d ∧ Occurs w d := by
  have htext : renderColumnDefinition column
      = "" ++ (quoteIdent column.name ++ (" " ++ (column.sqlType ++ columnRest column))) := by
    unfold renderColumnDefinition columnRest
    cases column.defaultSql with
    | none => simp only [String.empty_append, String.append_assoc]
    | some defaultSql => simp only [String.empty_append, String.append_assoc]
  rw [htext, occurs_quoteIdent hw, occurs_space hw, occurs_columnRest hw,
    or_iff_right (not_occurs_empty hw)]

/-- **A word occurs in the statement that creates a table** exactly if it
occurs in one of the names, types and defaults. -/
theorem occurs_renderCreateTableSql (hw : Searched w) (n : String) {table : TableDef}
    (hpk : table.primaryKey.sqlType = "INTEGER") :
    Occurs w (renderCreateTableSql n table)
      ↔ Occurs w n ∨ Occurs w table.primaryKey.name
        ∨ ∃ c ∈ table.columns, Occurs w (renderColumnDefinition c) := by
  have hkey : Occurs w (renderPrimaryKey table.primaryKey)
      ↔ Occurs w table.primaryKey.name := by
    have htext : renderPrimaryKey table.primaryKey
        = "" ++ (quoteIdent table.primaryKey.name ++ " INTEGER PRIMARY KEY") := by
      unfold renderPrimaryKey
      rw [hpk]
      simp only [String.empty_append, String.append_assoc]
      rfl
    rw [htext, occurs_quoteIdent hw, or_iff_right (not_occurs_empty hw),
      or_iff_left hw.primaryKey]
  have htext : renderCreateTableSql n table
      = "CREATE TABLE " ++ (quoteIdent n ++ (" " ++ (String.singleton '('
        ++ (Text.join ", " (renderPrimaryKey table.primaryKey
            :: table.columns.map renderColumnDefinition) ++ (String.singleton ')' ++ ""))))) := by
    unfold renderCreateTableSql
    rw [show " (" = " " ++ String.singleton '(' from rfl]
    simp only [String.append_assoc, String.append_empty]
    rfl
  rw [htext, occurs_quoteIdent hw, or_iff_right hw.create, occurs_space hw]
  have hopen := occurs_append_cons hw.openParen rfl "" (Text.join ", "
    (renderPrimaryKey table.primaryKey :: table.columns.map renderColumnDefinition)
      ++ (String.singleton ')' ++ ""))
  rw [String.empty_append, or_iff_right (not_occurs_empty hw)] at hopen
  rw [hopen, occurs_append_cons hw.closeParen rfl, or_iff_left (not_occurs_empty hw),
    occurs_join hw]
  simp [hkey]

end Rendering

/-- A column whose name, type and default are free of the words. -/
def ColumnDef.Unremarkable (column : ColumnDef) : Prop :=
  Seekwel.Unremarkable column.name ∧ Seekwel.Unremarkable column.sqlType
    ∧ ∀ d ∈ column.defaultSql, Seekwel.Unremarkable d

/-- **A table whose names, types and defaults are free of the words.** -/
def TableDef.Unremarkable (table : TableDef) : Prop :=
  Seekwel.Unremarkable table.name ∧ Seekwel.Unremarkable table.primaryKey.name
    ∧ ∀ c ∈ table.columns, c.Unremarkable

instance (column : ColumnDef) : Decidable column.Unremarkable :=
  inferInstanceAs (Decidable (_ ∧ _ ∧ ∀ d ∈ column.defaultSql, Seekwel.Unremarkable d))

instance (table : TableDef) : Decidable table.Unremarkable :=
  inferInstanceAs (Decidable (_ ∧ _ ∧ ∀ c ∈ table.columns, c.Unremarkable))

/-- The statement that creates a table is free of the words exactly if the
table is. -/
theorem unremarkable_renderCreateTableSql {table : TableDef}
    (hpk : table.primaryKey.sqlType = "INTEGER") :
    Unremarkable (renderCreateTableSql table.name table) ↔ table.Unremarkable := by
  constructor
  · intro h
    have hnot : ∀ word ∈ inlineWords, ¬ (Occurs word.toList table.name
        ∨ Occurs word.toList table.primaryKey.name
        ∨ ∃ c ∈ table.columns, Occurs word.toList (renderColumnDefinition c)) := by
      intro word hword
      rw [← occurs_renderCreateTableSql (searched_inlineWords word hword) table.name hpk]
      exact h word hword
    refine ⟨fun word hword ho => hnot word hword (Or.inl ho),
      fun word hword ho => hnot word hword (Or.inr (Or.inl ho)), fun c hc => ?_⟩
    have hcolumn : ∀ word ∈ inlineWords, ¬ (Occurs word.toList c.name
        ∨ Occurs word.toList c.sqlType ∨ ∃ d, c.defaultSql = some d ∧ Occurs word.toList d) := by
      intro word hword
      rw [← occurs_renderColumnDefinition (searched_inlineWords word hword)]
      exact fun ho => hnot word hword (Or.inr (Or.inr ⟨c, hc, ho⟩))
    exact ⟨fun word hword ho => hcolumn word hword (Or.inl ho),
      fun word hword ho => hcolumn word hword (Or.inr (Or.inl ho)),
      fun d hd word hword ho => hcolumn word hword (Or.inr (Or.inr ⟨d, hd, ho⟩))⟩
  · intro h word hword
    rw [occurs_renderCreateTableSql (searched_inlineWords word hword) table.name hpk]
    rintro (ho | ho | ⟨c, hc, ho⟩)
    · exact h.1 word hword ho
    · exact h.2.1 word hword ho
    · rw [occurs_renderColumnDefinition (searched_inlineWords word hword)] at ho
      obtain ho | ho | ⟨d, hd, ho⟩ := ho
      · exact (h.2.2 c hc).1 word hword ho
      · exact (h.2.2 c hc).2.1 word hword ho
      · exact (h.2.2 c hc).2.2 d hd word hword ho

/-! ## A created database -/

/-- **A database that holds what applying a schema to an empty database
creates**, whatever the contents of its tables. -/
structure Database.Holds (db : Database) (s : SchemaDef) : Prop where
  tables : ∀ t ∈ s.tables, ∃ u, db.tables.get? t.name = some u
    ∧ u.sql = some (renderCreateTableSql t.name t) ∧ u.columns = t.declaredRows
    ∧ u.foreignKeys = []
  others : ∀ n u, db.tables.get? n = some u → n ∈ s.tableNames
    ∨ n = historyTable ∧ u.sql = newHistoryTable.sql ∧ u.columns = historyColumns
      ∧ u.foreignKeys = []
  objects : ∀ o, o ∈ db.objects
    ↔ ∃ t ∈ s.tables, ∃ i ∈ t.indexes, o = i.declaredObject t.name

section Created

variable {db : Database} {s : SchemaDef}

/-- The columns of a created table show no unsupported feature. -/
theorem columnFeatures_declaredRows {table : TableDef}
    (hpk : table.primaryKey.sqlType = "INTEGER") : columnFeatures table.declaredRows = [] := by
  have hfind : primaryKeyColumn table.declaredRows = some table.primaryKey.declaredRow := by
    unfold primaryKeyColumn TableDef.declaredRows
    rw [List.find?_cons_of_pos]
    simp [PrimaryKeyDef.declaredRow]
  have hexact : primaryKeyIsExact table.declaredRows = true := by
    unfold primaryKeyIsExact
    rw [hfind]
    dsimp only [PrimaryKeyDef.declaredRow]
    have haffinity : SqlAffinity.fromDeclaredType "INTEGER" = .integer := by decide +kernel
    have htype : Text.eqIgnoreAsciiCase (Text.trim "INTEGER") "INTEGER" = true := by
      decide +kernel
    rw [pkCount_declaredRows, hpk, haffinity, htype]
    rfl
  have hhidden : table.declaredRows.any (fun column => column.hidden ≠ 0) = false := by
    rw [List.any_eq_false]
    intro c hc
    rw [TableDef.declaredRows, List.mem_cons, List.mem_map] at hc
    obtain rfl | ⟨d, -, rfl⟩ := hc
    · simp [PrimaryKeyDef.declaredRow]
    · simp [ColumnDef.declaredRow]
  unfold columnFeatures
  rw [hexact, pkCount_declaredRows, hhidden]
  rfl

/-- In a created database nothing depends on anything. -/
theorem dependencyBlockers_of_holds (hdb : db.Holds s) {scope : List String} {n m : String}
    {a : ActualTable} (ha : (introspectManaged db scope).get? n = some a) :
    dependencyBlockers m a = [] := by
  obtain ⟨-, t, sql, -, -, rfl⟩ := get?_introspectManaged_eq_some ha
  have hkeys : ∀ n, foreignKeyList db n = [] := by
    intro n
    unfold foreignKeyList
    cases hn : db.tables.get? n with
    | none => rfl
    | some u =>
      obtain hmem | ⟨-, -, -, hfk⟩ := hdb.others n u hn
      · obtain ⟨t, ht, rfl⟩ := List.mem_map.mp hmem
        obtain ⟨u', hu', -, -, hfk⟩ := hdb.tables t ht
        rw [hn] at hu'
        cases hu'
        exact hfk
      · exact hfk
  have hforeign : hasRealForeignKeys db n = false := by
    unfold hasRealForeignKeys
    simp [hkeys]
  have hcandidates : dependencyCandidates db = [] := by
    unfold dependencyCandidates
    rw [List.filterMap_eq_nil_iff]
    intro o ho
    obtain ⟨t, -, i, -, rfl⟩ := (hdb.objects o).mp ho
    rfl
  unfold introspectTable
  rw [hcandidates, hforeign]
  rfl

/-- **What is reported for a created table.** -/
theorem features_of_holds (hpk : ∀ t ∈ s.tables, t.primaryKey.sqlType = "INTEGER")
    (hdb : db.Holds s) {scope : List String} {t : TableDef} (ht : t ∈ s.tables)
    {a : ActualTable} (ha : (introspectManaged db scope).get? t.name = some a) :
    a.unsupportedInlineFeatures = [] ↔ t.Unremarkable := by
  obtain ⟨-, u, sql, hu, hsql, rfl⟩ := get?_introspectManaged_eq_some ha
  obtain ⟨u', hu', hsql', hcols, -⟩ := hdb.tables t ht
  obtain rfl : u = u' := Option.some.inj (hu.symm.trans hu')
  obtain rfl : sql = renderCreateTableSql t.name t := Option.some.inj (hsql.symm.trans hsql')
  have hcolumns : tableColumns db t.name = t.declaredRows := by
    rw [tableColumns, hu]
    exact hcols
  show columnFeatures (tableColumns db t.name) ++ inlineFeatures _ = [] ↔ _
  rw [hcolumns, columnFeatures_declaredRows (hpk t ht), List.nil_append,
    inlineFeatures_eq_nil_iff, unremarkable_renderCreateTableSql (hpk t ht)]

/-- The statement that creates the history table is free of the words. -/
theorem unremarkable_history :
    Unremarkable ("CREATE TABLE " ++ String.ofList (historyTableSql.toList.drop 27)) := by
  unfold Unremarkable Occurs historyTableSql
  simp only [String.toList_append, String.toList_ofList]
  decide +kernel

/-- Nothing unsupported is reported for a history table. -/
theorem features_of_history (hdb : db.Holds s) {scope : List String} {n : String}
    (hn : n ∉ s.tableNames) {a : ActualTable}
    (ha : (introspectManaged db scope).get? n = some a) : a.unsupportedInlineFeatures = [] := by
  obtain ⟨-, u, sql, hu, hsql, rfl⟩ := get?_introspectManaged_eq_some ha
  obtain ⟨-, hsql', hcols, -⟩ := (hdb.others n u hu).resolve_left hn
  have hcolumns : tableColumns db n = historyColumns := by
    rw [tableColumns, hu]
    exact hcols
  rw [hsql'] at hsql
  obtain rfl := Option.some.inj hsql
  show columnFeatures (tableColumns db n) ++ inlineFeatures _ = []
  rw [hcolumns, inlineFeatures_eq_nil_iff.mpr unremarkable_history]
  decide +kernel

/-- **When what seekwel created can be migrated**: no table is reported with
an unsupported feature, and no plan for another schema is blocked by
anything but a required column, if and only if the names, types and
defaults of the schema are free of the words that introspection searches
for. -/
theorem created_migratable (hpk : ∀ t ∈ s.tables, t.primaryKey.sqlType = "INTEGER")
    (hdb : db.Holds s) :
    ((∀ target scope r, diff target (introspectManaged db scope) = .ok r →
        ∀ b ∈ r.blockers, ∃ n c, b = .requiredColumnAddition n c)
      ∧ ∀ scope n a, (introspectManaged db scope).get? n = some a →
        a.unsupportedInlineFeatures = [])
    ↔ ∀ t ∈ s.tables, t.Unremarkable := by
  constructor
  · intro h t hmem
    obtain ⟨u, hu, hsql, -, -⟩ := hdb.tables t hmem
    have ha : (introspectManaged db [t.name]).get? t.name
        = some (introspectTable db t.name (renderCreateTableSql t.name t)) := by
      rw [get?_introspectManaged, if_pos (List.mem_singleton_self _), tableSql, hu,
        Option.bind_some, hsql]
      rfl
    exact (features_of_holds hpk hdb hmem ha).mp (h.2 _ _ _ ha)
  · intro h
    have hfeatures : ∀ scope n a, (introspectManaged db scope).get? n = some a →
        a.unsupportedInlineFeatures = [] := by
      intro scope n a ha
      by_cases hn : n ∈ s.tableNames
      · obtain ⟨t, hmem, rfl⟩ := List.mem_map.mp hn
        exact (features_of_holds hpk hdb hmem ha).mpr (h t hmem)
      · exact features_of_history hdb hn ha
    refine ⟨fun target scope r hdiff b hb => ?_, hfeatures⟩
    obtain ⟨n, hn⟩ := diff_blocker_tableName hdiff hb
    have hmem : b ∈ (diffPart target (introspectManaged db scope) n).2 := by
      rw [← (diff_blockers_on hdiff n).mem_iff, List.mem_filter]
      exact ⟨hb, decide_eq_true hn⟩
    have hrebuild : ∀ m a, (introspectManaged db scope).get? m = some a →
        rebuildBlockers m a = [] := by
      intro m a ha
      rw [rebuildBlockers, hfeatures scope m a ha, dependencyBlockers_of_holds hdb ha]
      rfl
    unfold diffPart at hmem
    split at hmem
    · rename_i desired hd
      unfold diffTarget at hmem
      dsimp only at hmem
      split at hmem
      · cases hmem
      · rename_i a ha
        unfold diffTable at hmem
        dsimp only at hmem
        rw [hrebuild n a ha, List.append_nil] at hmem
        have hrequired : b ∈ requiredColumnBlockers n desired a.table := by
          split_ifs at hmem
          · exact hmem
          · exact hmem
        obtain ⟨c, -, rfl⟩ := List.mem_map.mp hrequired
        exact ⟨n, c.1, rfl⟩
    · rename_i a ha
      rw [diffDropped, dependencyBlockers_of_holds hdb ha] at hmem
      cases hmem
    · cases hmem

/-- Creating tables creates their indexes. -/
theorem objects_createTables {e : Engine} {actual : LiveSchema} {ops : List PlanOp}
    {db db' : Database} (hops : ∀ op ∈ ops, ∃ t, op = .createTable t)
    (h : e.execSteps db (ops.flatMap (PlanOp.steps actual)) = .ok db') {o : SchemaObject} :
    o ∈ db'.objects ↔ o ∈ db.objects
      ∨ ∃ t, .createTable t ∈ ops ∧ ∃ i ∈ t.indexes, o = i.declaredObject t.name := by
  induction ops generalizing db with
  | nil =>
    obtain rfl : db = db' := Except.ok.inj h
    simp
  | cons op ops ih =>
    obtain ⟨t, rfl⟩ := hops op List.mem_cons_self
    rw [List.flatMap_cons] at h
    obtain ⟨mid, hop, h⟩ := execSteps_append h
    obtain ⟨created, hcreate, hindexes⟩ := execAll_cons (execSteps_map_run hop)
    obtain ⟨-, rfl⟩ := exec_createTable hcreate
    rw [ih (fun op hop => hops op (List.mem_cons_of_mem _ hop)) h,
      objects_createIndexes hindexes, Database.setTable_objects, List.mem_append, or_assoc]
    refine or_congr_right ⟨fun ho => ?_, fun ho => ?_⟩
    · obtain ho | ⟨t', ht', ho⟩ := ho
      · obtain ⟨i, hi, rfl⟩ := List.mem_map.mp ho
        exact ⟨t, List.mem_cons_self, i, hi, rfl⟩
      · exact ⟨t', List.mem_cons_of_mem _ ht', ho⟩
    · obtain ⟨t', ht', i, hi, rfl⟩ := ho
      obtain ht' | ht' := List.mem_cons.mp ht'
      · cases ht'
        exact Or.inl (List.mem_map.mpr ⟨i, hi, rfl⟩)
      · exact Or.inr ⟨t', ht', i, hi, rfl⟩

theorem get?_introspectManaged_empty (scope : List String) (n : String) :
    (introspectManaged Database.empty scope).get? n = none := by
  rw [get?_introspectManaged]
  split_ifs
  · rfl
  · rfl

/-- Against an empty database, each table of the target is created. -/
theorem diffPart_empty (target : SchemaDef) (scope : List String) (n : String) :
    (diffPart target (introspectManaged Database.empty scope) n).1
      = ((target.tableMap.get? n).map PlanOp.createTable).toList := by
  unfold diffPart
  rw [get?_introspectManaged_empty]
  cases target.tableMap.get? n with
  | none => rfl
  | some t =>
    unfold diffTarget
    dsimp only
    rw [get?_introspectManaged_empty]
    rfl

section Initial

variable {e : Engine} {target : SchemaDef} {scope : List String} {r : DiffResult}

theorem mem_ops_empty (ht : target.WellFormed)
    (hdiff : diff target (introspectManaged Database.empty scope) = .ok r) {op : PlanOp} :
    op ∈ r.ops ↔ ∃ t ∈ target.tables, op = .createTable t := by
  rw [mem_diff_ops_iff ht (introspectManaged_keyed _ _) hdiff, diffPart_empty,
    Option.mem_toList, Option.map_eq_some_iff]
  refine ⟨fun hop => ?_, fun hop => ?_⟩
  · obtain ⟨t, hget, rfl⟩ := hop
    exact ⟨t, ((get?_tableMap ht).mp hget).1, rfl⟩
  · obtain ⟨t, hmem, rfl⟩ := hop
    exact ⟨t, (get?_tableMap ht).mpr ⟨hmem, rfl⟩, rfl⟩

/-- A table is created, or left alone. -/
theorem changesAll_empty (ht : target.WellFormed)
    (hdiff : diff target (introspectManaged Database.empty scope) = .ok r)
    {actual : LiveSchema} {ready ran : Database}
    (hran : e.execSteps ready (r.ops.flatMap (PlanOp.steps actual)) = .ok ran) (n : String) :
    ChangesAll e ((target.tableMap.get? n).map PlanOp.createTable).toList
      (ready.tables.get? n) (ran.tables.get? n) := by
  have hall := execOps_changes hran n
  have hperm := diff_ops_on ht (introspectManaged_keyed _ _) hdiff n
  rw [diffPart_empty] at hperm
  cases hn : target.tableMap.get? n with
  | none =>
    rw [hn] at hperm
    rwa [List.perm_nil.mp hperm] at hall
  | some t =>
    rw [hn] at hperm
    rwa [List.perm_singleton.mp hperm] at hall

end Initial

/-- **What applying a schema to an empty database creates.** -/
theorem holds_of_commits {e : Engine} {faults : Faults} {active : Bool} {plan : Plan}
    {mode : ApplyMode} (ht : plan.target.WellFormed)
    (h : Commits e faults active plan mode Database.empty db) : db.Holds plan.target := by
  obtain ⟨r, hdiff, hops, -⟩ := commits_diff h
  obtain ⟨ready, ran, hready, hran, hrecord⟩ := commits_applied h
  rw [← hops] at hran
  have hchanges := changesAll_empty ht hdiff hran
  have hrow := execAll_recordSuccess hrecord
  obtain rfl : Database.empty.setTable historyTable newHistoryTable = ready :=
    Except.ok.inj ((show e.exec Database.empty .ensureHistoryTable = _ from rfl).symm.trans hready)
  have hcreated : ∀ t ∈ plan.target.tables, t.name ≠ historyTable
      ∧ ran.tables.get? t.name = some (t.declaredTable t.name) := by
    intro t hmem
    have hall := hchanges t.name
    rw [(get?_tableMap ht).mpr ⟨hmem, rfl⟩] at hall
    obtain ⟨mid, ⟨hfree, rfl⟩, hlast⟩ := hall
    refine ⟨fun hname => ?_, hlast⟩
    rw [hname, Database.setTable_tables, SortedMap.get?_insert_self] at hfree
    cases hfree
  have hother : ∀ n, n ∉ plan.target.tableNames → ran.tables.get? n
      = (Database.empty.setTable historyTable newHistoryTable).tables.get? n := by
    intro n hn
    have hall := hchanges n
    rwa [(get?_tableMap_eq_none ht).mpr hn] at hall
  refine ⟨fun t hmem => ?_, fun n u hn => ?_, fun o => ?_⟩
  · obtain ⟨hne, hget⟩ := hcreated t hmem
    rw [hrow.2.1 t.name hne, hget]
    exact ⟨_, rfl, rfl, rfl, rfl⟩
  · by_cases hmem : n ∈ plan.target.tableNames
    · exact Or.inl hmem
    · have hn' := hother n hmem
      by_cases hname : n = historyTable
      · subst hname
        rw [Database.setTable_tables, SortedMap.get?_insert_self] at hn'
        obtain ⟨rows, hrows⟩ := history_recordSuccess hn' hrecord
        rw [hrows] at hn
        cases hn
        exact Or.inr ⟨rfl, rfl, rfl, rfl⟩
      · rw [hrow.2.1 n hname, hn', Database.setTable_tables,
          SortedMap.get?_insert_of_ne _ _ hname] at hn
        cases hn
  · rw [hrow.2.2, objects_createTables (fun op hop => ?_) hran]
    · refine (or_iff_right List.not_mem_nil).trans ⟨fun ho => ?_, fun ho => ?_⟩
      · obtain ⟨t, hop, i, hi, rfl⟩ := ho
        obtain ⟨t', hmem, heq⟩ := (mem_ops_empty ht hdiff).mp hop
        cases heq
        exact ⟨t, hmem, i, hi, rfl⟩
      · obtain ⟨t, hmem, i, hi, rfl⟩ := ho
        exact ⟨t, (mem_ops_empty ht hdiff).mpr ⟨t, hmem, rfl⟩, i, hi, rfl⟩
    · obtain ⟨t, -, ht⟩ := (mem_ops_empty ht hdiff).mp hop
      exact ⟨t, ht⟩

/-- A table without indexes is held by the database it was created in. -/
theorem holds_single {t : TableDef} (ht : t.indexes = []) :
    (Database.empty.setTable t.name (t.declaredTable t.name)).Holds ⟨[t]⟩ := by
  refine ⟨fun t' ht' => ?_, fun n u hn => ?_, fun o => ?_⟩
  · obtain rfl := List.mem_singleton.mp ht'
    exact ⟨_, SortedMap.get?_insert_self _ _ _, rfl, rfl, rfl⟩
  · refine Or.inl ?_
    rw [Database.setTable_tables, SortedMap.get?_insert] at hn
    split_ifs at hn with h
    · rw [h]
      exact List.mem_singleton_self _
    · cases hn
  · refine iff_of_false List.not_mem_nil (fun h => ?_)
    obtain ⟨t', ht', i, hi, -⟩ := h
    obtain rfl := List.mem_singleton.mp ht'
    rw [ht] at hi
    cases hi

/-- The table of users can be migrated. -/
theorem created_migratable_example :
    (∀ target scope r, diff target (introspectManaged (usersDatabase ["name"]) scope) = .ok r →
        ∀ b ∈ r.blockers, ∃ n c, b = .requiredColumnAddition n c)
      ∧ ∀ scope n a, (introspectManaged (usersDatabase ["name"]) scope).get? n = some a →
        a.unsupportedInlineFeatures = [] :=
  (created_migratable (s := ⟨[usersTable ["name"]]⟩) (by decide)
    (holds_single (t := usersTable ["name"]) rfl)).mpr (by decide +kernel)

/-- A table of tasks that are checked or not. -/
def tasksTable (nullable : Bool) : TableDef :=
  ⟨"tasks", ⟨"id", "INTEGER"⟩, [⟨"checked", "INTEGER", nullable, none⟩], []⟩

/-- **A table with a column `checked` cannot be migrated any more**: that
the column may be absent from now on is a change that is blocked. -/
theorem checked_not_migratable :
    ∃ db, db.Holds ⟨[tasksTable false]⟩
      ∧ ∃ r, diff ⟨[tasksTable true]⟩ (introspectManaged db ["tasks"]) = .ok r
        ∧ r.blockers
          = [.unsupportedInlineFeature "tasks" "CHECK constraints are not supported"] :=
  ⟨_, holds_single (t := tasksTable false) rfl, exists_ok_of_any (by decide +kernel)⟩

end Created

end Seekwel
