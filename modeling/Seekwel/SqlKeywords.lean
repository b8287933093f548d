import Seekwel.SqlStatement

/-!
# Names in statements that are read

A name that is a keyword keeps its statement from being read, so the names
in a statement that is read are plain. Which names that asks of differs: an
`INSERT` has its columns where only a name may stand, a `SELECT` where an
expression may stand, and an `UPDATE` has both.

The name of the table is put into a statement as it is. If the statement is
read as one about a table of that name, then the name is plain as well
(`plainTable_of_readCommand`).
-/

namespace Sql

/-! ## Tables -/

/-- The table a statement is about. -/
def Command.table : Command → String
  | createTable name _ => name
  | createIndex _ _ table _ => table
  | insert table _ _ => table
  | insertDefaults table => table
  | update table _ _ _ => table
  | delete table _ _ => table
  | select _ table _ _ => table

theorem named_eq_some {ts : List Token} {table : TableText} (h : named ts = some table) :
    ∃ t us, ts = t :: us ∧ t.name? = some table.name := by
  unfold named at h
  split at h
  · rename_i n us
    obtain ⟨name, hname, h⟩ := Option.bind_eq_some_iff.mp h
    obtain ⟨p, -, rfl⟩ := Option.map_eq_some_iff.mp h
    exact ⟨n, _, rfl, hname⟩
  · cases h

theorem insert?_table {ts : List Token} {c : Command} (h : insert? ts = some c) :
    ∃ t us, ts = t :: us ∧ t.name? = some c.table := by
  unfold insert? at h
  split at h
  · rename_i n d v
    split_ifs at h
    obtain ⟨name, hname, rfl⟩ := Option.map_eq_some_iff.mp h
    exact ⟨n, _, rfl, hname⟩
  · obtain ⟨table, htable, hrest⟩ := Option.bind_eq_some_iff.mp h
    obtain ⟨columns, -, hvalues⟩ := Option.bind_eq_some_iff.mp hrest
    obtain ⟨t, us, hts, hname⟩ := named_eq_some htable
    refine ⟨t, us, hts, hname.trans (congrArg some ?_)⟩
    split at hvalues
    · split_ifs at hvalues
      split at hvalues
      · obtain ⟨values, -, hinsert⟩ := Option.bind_eq_some_iff.mp hvalues
        split_ifs at hinsert
        cases hinsert
        rfl
      · cases hvalues
    · cases hvalues

theorem update?_table {ts : List Token} {c : Command} (h : update? ts = some c) :
    ∃ t us, ts = t :: us ∧ t.name? = some c.table := by
  unfold update? at h
  split at h
  · rename_i n s us
    split_ifs at h
    obtain ⟨table, hname, h⟩ := Option.bind_eq_some_iff.mp h
    obtain ⟨p, -, h⟩ := Option.bind_eq_some_iff.mp h
    obtain ⟨changes, -, h⟩ := Option.bind_eq_some_iff.mp h
    obtain ⟨key, -, rfl⟩ := Option.map_eq_some_iff.mp h
    exact ⟨n, _, rfl, hname⟩
  · cases h

theorem delete?_table {ts : List Token} {c : Command} (h : delete? ts = some c) :
    ∃ t us, ts = t :: us ∧ t.name? = some c.table := by
  unfold delete? at h
  split at h
  · rename_i n w us
    split_ifs at h
    obtain ⟨table, hname, h⟩ := Option.bind_eq_some_iff.mp h
    obtain ⟨key, -, rfl⟩ := Option.map_eq_some_iff.mp h
    exact ⟨n, _, rfl, hname⟩
  · cases h

/-- A text that ends no quotation. -/
def NoMarks (text : String) : Prop := ∀ mark ∈ closingMarks, mark ∉ text.toList

theorem noMarks_of_all (text : String)
    (h : (closingMarks.all fun mark => mark ∉ text.toList) = true) : NoMarks text :=
  fun mark hmark => of_decide_eq_true (List.all_eq_true.mp h mark hmark)

theorem NoMarks.append {a b : String} (ha : NoMarks a) (hb : NoMarks b) : NoMarks (a ++ b) := by
  intro mark hmark h
  rw [String.toList_append, List.mem_append] at h
  exact h.elim (ha mark hmark) (hb mark hmark)

theorem noMarks_join {texts : List String} (h : ∀ text ∈ texts, NoMarks text) :
    NoMarks (Text.join ", " texts) := fun mark hmark =>
  Text.not_mem_join (noMarks_of_all ", " (by decide) mark hmark)
    fun text htext => h text htext mark hmark

theorem noMarks_identifier {name : String} (h : isIdentifier name = true) : NoMarks name :=
  fun _ hmark => not_mem_of_isIdentifier h hmark

theorem noMarks_param (n : ℕ) : NoMarks ("?" ++ toString n) := fun _ hmark => not_mem_param hmark n

theorem noMarks_equals {name : String} (h : isIdentifier name = true) (n : ℕ) :
    NoMarks (name ++ " = ?" ++ toString n) := by
  rw [show " = ?" = " = " ++ "?" from rfl, ← String.append_assoc, String.append_assoc]
  exact ((noMarks_identifier h).append (noMarks_of_all _ (by decide))).append (noMarks_param n)

/-- **A name that is read as a table of that name is plain.** -/
theorem plainTable_of_readCommand (table : String) {head final : String} {heads : List Token} {c : Command}
    (hhead : scan .start head.toList = some (heads, .start))
    (hbegins : ∀ ts, command? (heads ++ ts) = some c → ∃ t us, ts = t :: us
      ∧ t.name? = some c.table)
    (hfinal : NoMarks final)
    (h : readCommand (head ++ table ++ final) = some c) (htable : c.table = table) :
    PlainTable table := by
  obtain ⟨ts, hts, hcommand⟩ := Option.bind_eq_some_iff.mp h
  rw [tokens_eq_lex, String.toList_append, String.toList_append, List.append_assoc,
    lex_append hhead] at hts
  obtain ⟨us, hus, rfl⟩ := Option.map_eq_some_iff.mp hts
  obtain ⟨t, us, rfl, hname⟩ := hbegins us hcommand
  -- the name is the only part, with nothing of its own after it
  have hparts : ∀ part ∈ [(⟨table, [], 0, fun name => Text.toAsciiUppercase name ∉ keywords⟩ : Part)],
      part.Separates := by
    intro part hpart
    obtain rfl := List.mem_singleton.mp hpart
    exact separates_of_all (by decide)
  have hsays := says_of_name? (htable ▸ hname)
  exact Woven.identifiers hparts hfinal hus ⟨t, [], us, rfl, hsays, rfl, trivial⟩ _
    (List.mem_singleton.mpr rfl)

/-! ## Columns -/

theorem not_mem_keywords_of_name? {name name' : String} (h : (Token.word name).name? = some name') :
    Text.toAsciiUppercase name ∉ keywords := by
  rw [Token.name?] at h
  split_ifs at h with hmem
  exact hmem

theorem isName_of_column? {name name' : String} (h : (Token.word name).column? = some name') :
    isName name = true := by
  obtain ⟨heq, hname⟩ | ⟨mark, heq⟩ := says_of_column? h
  · rwa [Token.word.inj heq]
  · cases heq

/-- A text is split where nothing but the rest fits. -/
theorem eq_of_splitAt? {keyword : String} {a b a' b' : List Token} {w : Token}
    (h : splitAt? keyword (a ++ w :: b) = some (a', b')) (hlength : b'.length = b.length) :
    a' = a ∧ b' = b := by
  obtain ⟨w', heq⟩ := splitAt?_eq_some h
  obtain ⟨ha, hb⟩ := List.append_inj' heq (congrArg Nat.succ hlength.symm)
  exact ⟨ha.symm, (List.cons.inj hb).2.symm⟩

theorem isName_of_key? {key : String} {n : ℕ} {p : String × Atom}
    (h : key? [.word key, .symbol "=", .param ("?" ++ toString n)] = some p) :
    isName key = true := by
  obtain ⟨column, hcolumn, -⟩ := Option.bind_eq_some_iff.mp h
  exact isName_of_column? hcolumn

theorem length_of_key? {ts : List Token} {p : String × Atom} (h : key? ts = some p) :
    ts.length = 3 := by
  have heq : key? ts = some (p.1, p.2) := h
  obtain ⟨c, v, rfl, -⟩ := key?_eq_some heq
  rfl

section Statements

variable {table key : String} {columns : List String} {c : Command}

/-- **The names in an `INSERT` that is read.** -/
theorem plain_of_readCommand_insert (ht : PlainTable table)
    (hcolumns : ∀ c ∈ columns, isIdentifier c = true) (hne : columns ≠ []) {ns : List ℕ}
    (hns : ns ≠ [])
    (h : readCommand ("INSERT INTO " ++ table ++ " (" ++ Text.join ", " columns ++ ") VALUES ("
      ++ Text.join ", " (ns.map fun n => "?" ++ toString n) ++ ")") = some c) :
    ∀ c ∈ columns, PlainTable c := by
  rw [readCommand_insert_eq ht hcolumns hne hns,
    insert?_open _ (by simp only [List.length_append, List.length_cons]; omega),
    named_intercalate ht.nameText (isItem_words columns) (by simpa using hne),
    Option.bind_some] at h
  obtain ⟨names, hnames, -⟩ := Option.bind_eq_some_iff.mp h
  have hmeans := mapM_eq_some_iff.mp hnames
  rw [List.forall₂_map_left_iff] at hmeans
  intro column hcolumn
  obtain ⟨name, hname⟩ := exists_of_mem_left hmeans hcolumn
  exact ⟨hcolumns column hcolumn, not_mem_keywords_of_name? hname⟩

/-- **The names in an `UPDATE` that is read.** -/
theorem plain_of_readCommand_update (ht : PlainTable table) (hk : isIdentifier key = true)
    {texts : List String} {items : List (List Token)}
    (hreads : List.Forall₂ (fun text ts => Reads (String.toList text) ts) texts items)
    (hne : texts ≠ []) (hitems : ∀ ts ∈ items, Token.symbol "," ∉ ts) {n : ℕ}
    (h : readCommand ("UPDATE " ++ table ++ " SET " ++ Text.join ", " texts ++ " WHERE " ++ key
      ++ " = ?" ++ toString n) = some c) :
    PlainName key ∧ ∀ ts ∈ items, ∃ change, change? ts = some change := by
  rw [readCommand_update_eq ht hk hreads hne, update?, if_pos (by decide), ht.nameText.means,
    Option.bind_some] at h
  obtain ⟨⟨before, after⟩, hsplit, h⟩ := Option.bind_eq_some_iff.mp h
  obtain ⟨changes, hchanges, h⟩ := Option.bind_eq_some_iff.mp h
  obtain ⟨p, hkey, -⟩ := Option.map_eq_some_iff.mp h
  obtain ⟨rfl, rfl⟩ := eq_of_splitAt? hsplit (length_of_key? hkey)
  refine ⟨⟨hk, isName_of_key? hkey⟩, fun ts hts => ?_⟩
  rw [List.splitOn_intercalate _ hitems (ne_nil_of_forall₂ hreads hne)] at hchanges
  exact exists_of_mem_left (mapM_eq_some_iff.mp hchanges) hts

/-- **The names in a `DELETE` that is read.** -/
theorem plain_of_readCommand_delete (ht : PlainTable table) (hk : isIdentifier key = true) {n : ℕ}
    (h : readCommand ("DELETE FROM " ++ table ++ " WHERE " ++ key ++ " = ?" ++ toString n)
      = some c) : PlainName key := by
  rw [readCommand_delete_eq ht hk, delete?, if_pos (by decide), ht.nameText.means,
    Option.bind_some] at h
  obtain ⟨p, hkey, -⟩ := Option.map_eq_some_iff.mp h
  exact ⟨hk, isName_of_key? hkey⟩

/-- **The names in a `SELECT` that is read.** -/
theorem plain_of_readCommand_select (ht : PlainTable table) (hk : isIdentifier key = true)
    (hcolumns : ∀ c ∈ columns, isIdentifier c = true) (hne : columns ≠ []) {n : ℕ}
    (h : readCommand ("SELECT " ++ Text.join ", " columns ++ " FROM " ++ table ++ " WHERE " ++ key
      ++ " = ?" ++ toString n) = some c) :
    PlainName key ∧ ∀ c ∈ columns, PlainName c := by
  rw [readCommand_select_eq ht hk hcolumns hne, select?] at h
  obtain ⟨⟨before, after⟩, hsplit, h⟩ := Option.bind_eq_some_iff.mp h
  obtain ⟨names, hnames, h⟩ := Option.bind_eq_some_iff.mp h
  dsimp only at h hnames
  split at h
  · rename_i n' w us hafter
    split_ifs at h
    obtain ⟨name, -, h⟩ := Option.bind_eq_some_iff.mp h
    obtain ⟨p, hkey, -⟩ := Option.map_eq_some_iff.mp h
    obtain ⟨rfl, hrest⟩ := eq_of_splitAt? hsplit (by
      rw [List.length_cons, List.length_cons, length_of_key? hkey]
      rfl)
    cases hrest
    refine ⟨⟨hk, isName_of_key? hkey⟩, fun column hcolumn => ⟨hcolumns column hcolumn, ?_⟩⟩
    rw [splitOn_words hne, mapM_eq_some_iff, List.forall₂_map_left_iff] at hnames
    obtain ⟨name, hname⟩ := exists_of_mem_left hnames hcolumn
    exact isName_of_column? hname
  · cases h

end Statements

end Sql
