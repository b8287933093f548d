import Seekwel.SqlStatement

/-!
# Reading definitions

Besides the commands, two statements: an `ALTER TABLE` that adds a column,
and an `INSERT` of the rows of a `SELECT`. They are read in the same way,
from the same texts of names and columns, so a text is read as one
definition at most (`readDefinition`).

Names are put into these texts with or without quotation marks. In a list of
columns to select they stand at the place of an expression, where more is
asked of them (`OperandText`).
-/

namespace Sql

/-- **A definition.** -/
inductive Definition where
  | command (c : Command)
  | addColumn (table : String) (column : ColumnText)
  /-- The columns that rows are put into, and those they are taken from. -/
  | insertSelect (table : String) (columns : List String) (source : String)
    (taken : List String)
  deriving DecidableEq

/-- What follows the words `ALTER TABLE`. -/
def addColumn? : List Token → Option Definition
  | n :: a :: c :: ts =>
    if a.isKeyword "ADD" && c.isKeyword "COLUMN" then
      n.name?.bind fun table => (columnText? ts).map (.addColumn table)
    else none
  | _ => none

/-- The columns of a `SELECT` without a condition, and its table. -/
def selectedFrom? (ts : List Token) : Option (List String × String) :=
  (splitAt? "FROM" ts).bind fun p =>
    ((p.1.splitOn (.symbol ",")).mapM (single Token.column?)).bind fun columns =>
      (single Token.name? p.2).map fun table => (columns, table)

/-- What follows the words `INSERT INTO`, if the rows are selected. -/
def insertSelect? (ts : List Token) : Option Definition :=
  (named ts).bind fun table =>
    (table.items.mapM (single Token.name?)).bind fun columns =>
      match table.options with
      | s :: us =>
        if s.isKeyword "SELECT" then
          (selectedFrom? us).bind fun selection =>
            if selection.1.length = columns.length then
              some (.insertSelect table.name columns selection.2 selection.1)
            else none
        else none
      | [] => none

/-- The definitions that are no commands. -/
def alteration? : List Token → Option Definition
  | a :: b :: ts =>
    if a.isKeyword "ALTER" && b.isKeyword "TABLE" then addColumn? ts
    else if a.isKeyword "INSERT" && b.isKeyword "INTO" then insertSelect? ts
    else none
  | _ => none

def definition? (ts : List Token) : Option Definition :=
  ((command? ts).map .command).or (alteration? ts)

/-- **Reading a definition.** -/
def readDefinition (text : String) : Option Definition := (tokens text).bind definition?

example : readDefinition "INSERT INTO \"a b\" (x, \"from\") SELECT y, \"(\" FROM t"
    = some (.insertSelect "a b" ["x", "from"] "t" ["y", "("]) := by
  decide +kernel

/-! ## Definitions that were written -/

/-- A command is read as a definition. -/
theorem readDefinition_of_readCommand {text : String} {c : Command}
    (h : readCommand text = some c) : readDefinition text = some (.command c) := by
  obtain ⟨ts, hts, hcommand⟩ := Option.bind_eq_some_iff.mp h
  rw [readDefinition, hts, Option.bind_some, definition?, hcommand]
  rfl

theorem readDefinition_of_reads {text : String} {ts : List Token} (h : Reads text.toList ts) :
    readDefinition text = definition? ts := by
  rw [readDefinition, h.tokens_eq, Option.bind_some]

/-- Words with a space between them. -/
theorem reads_spaced {words : List String} (h : ∀ word ∈ words, isIdentifier word = true)
    (hne : words ≠ []) : Reads (Text.join " " words).toList (words.map .word) := by
  induction words with
  | nil => exact absurd rfl hne
  | cons word words ih =>
    have hword := reads_identifier (h word List.mem_cons_self)
    cases words with
    | nil => exact hword
    | cons word' words =>
      have hrest := ih (fun w hw => h w (List.mem_cons_of_mem _ hw)) (List.cons_ne_nil _ _)
      rw [show Text.join " " (word :: word' :: words)
        = word ++ " " ++ Text.join " " (word' :: words) from rfl, String.toList_append,
        String.toList_append, List.append_assoc]
      exact hword.separate separator_space hrest

/-- Words that are no keywords are a type. -/
theorem isType_words {words : List String} (h : ∀ word ∈ words, PlainTable word) :
    IsType (words.map .word) (words.map .word) [] := by
  refine ⟨(List.append_nil _).symm, ?_, .none, fun h => absurd rfl h⟩
  rw [List.forall_mem_map]
  exact fun word hword => decide_eq_true (h word hword).2

/-- **The text of an added column is read as the column.** -/
theorem readDefinition_addColumn {tableText table columnText : String} {t : Token}
    {column : ColumnText} (ht : NameText tableText table t) (hc : ItemText columnText column) :
    readDefinition ("ALTER TABLE " ++ tableText ++ " ADD COLUMN " ++ columnText)
      = some (.addColumn table column) := by
  obtain ⟨ts, hreads, -, hmeans⟩ := hc
  have hhead : scan .start "ALTER TABLE ".toList
      = some ([.word "ALTER", .word "TABLE"], .start) := by decide
  have hadd : Separator " ADD COLUMN " [.word "ADD", .word "COLUMN"] := ⟨by decide, by decide⟩
  have htext := Reads.after hhead (ht.reads.separate hadd hreads)
  have hread : readDefinition ("ALTER TABLE " ++ tableText ++ " ADD COLUMN " ++ columnText)
      = addColumn? (t :: .word "ADD" :: .word "COLUMN" :: ts) := by
    refine Eq.trans (readDefinition_of_reads ?_) (rfl : definition? (.word "ALTER" ::
      .word "TABLE" :: t :: .word "ADD" :: .word "COLUMN" :: ts) = _)
    simpa only [String.toList_append, List.append_assoc, List.cons_append, List.nil_append]
      using htext
  rw [hread, addColumn?, if_pos (by decide), ht.means, Option.bind_some, hmeans]
  rfl

/-- **A text that is read as a name** also at the place of an expression. -/
structure OperandText (text name : String) (t : Token) : Prop
    extends NameText text name t where
  column : t.column? = some name

/-- Names with commas between them. -/
structure NameList (texts names : List String) (items : List (List Token)) : Prop where
  reads : List.Forall₂ (fun text ts => Reads (String.toList text) ts) texts items
  tokens : ∀ ts ∈ items, ∃ t text name, ts = [t] ∧ OperandText text name t
  asNames : items.mapM (single Token.name?) = some names
  asColumns : items.mapM (single Token.column?) = some names

theorem exists_nameList {texts names : List String}
    (h : List.Forall₂ (fun text name => ∃ t, OperandText text name t) texts names) :
    ∃ items, NameList texts names items := by
  induction h with
  | nil => exact ⟨[], .nil, nofun, rfl, rfl⟩
  | cons hname _ ih =>
    obtain ⟨t, ht⟩ := hname
    obtain ⟨items, hitems⟩ := ih
    refine ⟨[t] :: items, .cons ht.reads hitems.reads, ?_, ?_, ?_⟩
    · rintro ts hts
      obtain rfl | hts := List.mem_cons.mp hts
      · exact ⟨t, _, _, rfl, ht⟩
      · exact hitems.tokens ts hts
    · rw [List.mapM_cons, hitems.asNames, single, ht.means]
      rfl
    · rw [List.mapM_cons, hitems.asColumns, single, ht.column]
      rfl

theorem NameList.isItem {texts names : List String} {items : List (List Token)}
    (h : NameList texts names items) : ∀ ts ∈ items, IsItem ts := by
  intro ts hts
  obtain ⟨t, text, name, rfl, ht⟩ := h.tokens ts hts
  exact isItem_token ht.isPlain.1 ht.isPlain.2

theorem NameList.ne_nil {texts names : List String} {items : List (List Token)}
    (h : NameList texts names items) (hne : texts ≠ []) : items ≠ [] :=
  ne_nil_of_forall₂ h.reads hne

/-- Selected columns end where their table is named. -/
theorem NameList.selectedFrom? {texts names : List String} {items : List (List Token)}
    (h : NameList texts names items) (hne : texts ≠ []) {sourceText source : String} {s : Token}
    (hs : NameText sourceText source s) :
    Sql.selectedFrom? (List.intercalate [.symbol ","] items ++ [.word "FROM", s])
      = some (names, source) := by
  have hbefore : ∀ t ∈ List.intercalate [.symbol ","] items, t.isKeyword "FROM" = false := by
    intro t ht
    obtain rfl | ⟨ts, hts, ht⟩ := mem_intercalate ht
    · rfl
    · obtain ⟨u, text, name, rfl, hu⟩ := h.tokens ts hts
      obtain rfl := List.mem_singleton.mp ht
      exact isKeyword_of_name? hu.means (by decide)
  have hsplit : (List.intercalate [.symbol ","] items).splitOn (.symbol ",") = items := by
    refine List.splitOn_intercalate _ (fun ts hts hmem => ?_) (h.ne_nil hne)
    obtain ⟨u, text, name, rfl, hu⟩ := h.tokens ts hts
    exact hu.isPlain.2 (List.mem_singleton.mp hmem).symm
  rw [Sql.selectedFrom?, splitAt?_append hbefore (by decide), Option.bind_some, hsplit, h.asColumns,
    Option.bind_some, single, hs.means]
  rfl

/-- **The text of copied rows is read as the columns** they are put into and
those they are taken from. -/
theorem readDefinition_insertSelect {targetText target sourceText source : String} {t s : Token}
    (ht : NameText targetText target t) (hs : NameText sourceText source s)
    {texts names texts' names' : List String}
    (hcolumns : List.Forall₂ (fun text name => ∃ t, OperandText text name t) texts names)
    (htaken : List.Forall₂ (fun text name => ∃ t, OperandText text name t) texts' names')
    (hne : texts ≠ []) (hlength : names'.length = names.length) :
    readDefinition ("INSERT INTO " ++ targetText ++ " (" ++ Text.join ", " texts ++ ") SELECT "
        ++ Text.join ", " texts' ++ " FROM " ++ sourceText)
      = some (.insertSelect target names source names') := by
  obtain ⟨items, hitems⟩ := exists_nameList hcolumns
  obtain ⟨items', hitems'⟩ := exists_nameList htaken
  have hne' : texts' ≠ [] := by
    have hlengths := htaken.length_eq.trans (hlength.trans hcolumns.length_eq.symm)
    exact fun h => hne (List.length_eq_zero_iff.mp (by rw [← hlengths, h, List.length_nil]))
  have hhead : scan .start "INSERT INTO ".toList
      = some ([.word "INSERT", .word "INTO"], .start) := by decide
  have hselect : Separator " SELECT " [.word "SELECT"] := ⟨by decide, by decide⟩
  have hfrom : Separator " FROM " [.word "FROM"] := ⟨by decide, by decide⟩
  have hrest : Reads (')' :: (" SELECT ".toList
        ++ ((Text.join ", " texts').toList ++ (" FROM ".toList ++ sourceText.toList))))
      (.symbol ")" :: .word "SELECT" ::
        (List.intercalate [.symbol ","] items' ++ [.word "FROM", s])) :=
    reads_close.separate hselect ((reads_join hitems'.reads hne').separate hfrom hs.reads)
  have htext := Reads.after hhead (reads_named ht hitems.reads hne hrest)
  have hnamed := named_intercalate ht hitems.isItem (hitems.ne_nil hne) (.word "SELECT" ::
    (List.intercalate [.symbol ","] items' ++ [.word "FROM", s]))
  have hread : readDefinition ("INSERT INTO " ++ targetText ++ " (" ++ Text.join ", " texts
        ++ ") SELECT " ++ Text.join ", " texts' ++ " FROM " ++ sourceText)
      = definition? (.word "INSERT" :: .word "INTO" :: t :: .symbol "("
        :: (List.intercalate [.symbol ","] items ++ .symbol ")" :: .word "SELECT"
          :: (List.intercalate [.symbol ","] items' ++ [.word "FROM", s]))) := by
    refine readDefinition_of_reads ?_
    simpa only [String.toList_append, List.append_assoc, List.cons_append, List.nil_append,
      show ") SELECT ".toList = ')' :: " SELECT ".toList from rfl] using htext
  -- the words after the columns are not those of an `INSERT` of values
  have hnone : command? (.word "INSERT" :: .word "INTO" :: t :: .symbol "("
      :: (List.intercalate [.symbol ","] items ++ .symbol ")" :: .word "SELECT"
        :: (List.intercalate [.symbol ","] items' ++ [.word "FROM", s]))) = none := by
    have hlong : (List.intercalate [.symbol ","] items ++ .symbol ")" :: .word "SELECT"
        :: (List.intercalate [.symbol ","] items' ++ [.word "FROM", s])).length ≠ 1 := by
      simp only [List.length_append, List.length_cons]
      omega
    rw [command?_insert, insert?_open _ hlong, hnamed, Option.bind_some, hitems.asNames,
      Option.bind_some]
    split
    · rename_i v us heq
      obtain ⟨rfl, -⟩ := List.cons.inj heq
      rw [if_neg (by decide)]
    · rfl
  have hinsert : ∀ ts, alteration? (.word "INSERT" :: .word "INTO" :: ts) = insertSelect? ts :=
    fun _ => rfl
  rw [hread, definition?, hnone, hinsert, insertSelect?, hnamed, Option.bind_some, hitems.asNames,
    Option.bind_some]
  dsimp only
  rw [if_pos (by decide), hitems'.selectedFrom? hne' hs, Option.bind_some, if_pos hlength]
  rfl

end Sql
