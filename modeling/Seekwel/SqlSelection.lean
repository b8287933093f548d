import Seekwel.SqlKeywords
import Seekwel.SqlLimit
import Seekwel.SqlParens
import Seekwel.SqlStore

/-!
# Queries

A `SELECT` of the rows of a table that satisfy a condition, which is any
expression that is read, with the limits at its end.

Nothing is said about the order of the rows but that it depends on their
rowids alone (`Scan`): SQLite visits a table in the order of its rowids, and
the equal entries of an index too. So changes that keep the rowids keep the
order (`Scan.find?_visit_map`).
-/

namespace Sql

/-! ## Reading -/

/-- **A query.** -/
structure Selection where
  columns : List String
  table : String
  condition : Expr
  limits : Limits

/-- What follows the word `SELECT`. -/
def selection? (ts : List Token) : Option Selection :=
  (splitAt? "FROM" ts).bind fun p =>
    ((p.1.splitOn (.symbol ",")).mapM (single Token.column?)).bind fun columns =>
      match p.2 with
      | n :: w :: ts =>
        if w.isKeyword "WHERE" then
          n.name?.bind fun table =>
            (expr (2 * ts.length + 2) 0 ts).bind fun e =>
              (limits e.2).toOption.map fun limits => ⟨columns, table, e.1, limits⟩
        else none
      | _ => none

/-- **Reading a query.** -/
def readSelection (text : String) : Option Selection :=
  (tokens text).bind fun ts =>
    match ts with
    | s :: ts => if s.isKeyword "SELECT" then selection? ts else none
    | [] => none

/-! ### The columns of a condition -/

def Atom.columns : Atom → List String
  | column name => [name]
  | null | integer _ | param _ => []

/-- The columns an expression refers to. -/
def Expr.columns : Expr → List String
  | atom a => a.columns
  | compare _ l r | is l r | isNot l r | and l r | or l r => l.columns ++ r.columns
  | mem e items => e.columns ++ items.flatMap Atom.columns
  | not e => e.columns

/-! ## Visiting rows -/

variable {V : Type}

/-- **The order in which rows are visited**, which depends on their rowids
alone. -/
structure Scan (V : Type) where
  visit : List (Stored V) → List (Stored V)
  perm : ∀ rows, (visit rows).Perm rows
  map : ∀ (rows : List (Stored V)) (f : Stored V → Stored V),
    (∀ row ∈ rows, (f row).rowid = row.rowid) → visit (rows.map f) = (visit rows).map f

/-- The order of the rowids. -/
def Scan.ofRowids : Scan V where
  visit rows := rows.mergeSort fun a b => a.rowid ≤ b.rowid
  perm rows := List.mergeSort_perm rows _
  map rows f h := by
    refine (List.map_mergeSort fun a ha b hb => ?_).symm
    rw [h a ha, h b hb]

namespace Scan

variable (scan : Scan V) {rows : List (Stored V)} {p : Stored V → Bool}

/-- **The first row that satisfies a condition** is still the first one when
rows change and the condition holds of the same ones as before. -/
theorem find?_visit_map {f : Stored V → Stored V} (hf : ∀ row ∈ rows, (f row).rowid = row.rowid)
    (hp : ∀ row ∈ rows, p (f row) = p row) :
    (scan.visit (rows.map f)).find? p = ((scan.visit rows).find? p).map f := by
  have hcongr : ∀ visited : List (Stored V), (∀ row ∈ visited, row ∈ rows) →
      visited.find? (p ∘ f) = visited.find? p := by
    intro visited hvisited
    have hfilter : visited.filter (p ∘ f) = visited.filter p :=
      List.filter_congr fun row hrow => hp row (hvisited row hrow)
    rw [← List.head?_filter, ← List.head?_filter, hfilter]
  rw [scan.map rows f hf, List.find?_map, hcongr _ fun row => (scan.perm rows).mem_iff.mp]

/-- A row that is added is the first one if no other one satisfies the
condition. -/
theorem find?_visit_append (h : ∀ row ∈ rows, p row = false) {row : Stored V} (hrow : p row = true) :
    (scan.visit (rows ++ [row])).find? p = some row := by
  have hmem : ∀ row', row' ∈ scan.visit (rows ++ [row]) ↔ row' ∈ rows ∨ row' = row := fun row' => by
    rw [(scan.perm _).mem_iff, List.mem_append, List.mem_singleton]
  cases hfind : (scan.visit (rows ++ [row])).find? p with
  | none =>
    have hnone := List.find?_eq_none.mp hfind row ((hmem row).mpr (.inr rfl))
    exact absurd hrow hnone
  | some found =>
    obtain hold | rfl := (hmem found).mp (List.mem_of_find?_eq_some hfind)
    · have hfound := List.find?_some hfind
      rw [h found hold] at hfound
      cases hfound
    · rfl

end Scan

/-! ## Running a query -/

section Run

variable (D : Domain V) (values : Values V) (scan : Scan V)

/-- Whether a row satisfies a condition. -/
def Table.satisfies (t : Table V) (params : List V) (e : Expr) (row : Stored V) : Bool :=
  e.holds D (t.get values row) params = .yes

/-- **Running a query** on the rows of a table. -/
def Table.query (t : Table V) (params : List V) (s : Selection) : Except String (List (List V)) :=
  if s.table = t.name then
    if (s.columns ++ s.condition.columns).all t.hasColumn then
      .ok ((s.limits.window ((scan.visit t.rows).filter
        (t.satisfies D values params s.condition))).map fun row => s.columns.map (t.get values row))
    else .error "no such column"
  else .error "no such table"

/-- **A query for one row** finds the first one that satisfies the
condition. -/
theorem Table.query_one {t : Table V} {params : List V} {columns : List String} {e : Expr}
    (hcolumns : (columns ++ e.columns).all t.hasColumn = true) :
    t.query D values scan params ⟨columns, t.name, e, ⟨some 1, none⟩⟩
      = .ok (((scan.visit t.rows).find? (t.satisfies D values params e)).toList.map
          fun row => columns.map (t.get values row)) := by
  have hwindow : ∀ rows : List (Stored V), (⟨some 1, none⟩ : Limits).window rows
      = rows.head?.toList := fun rows => by
    cases rows <;> rfl
  rw [query, if_pos rfl, if_pos hcolumns, hwindow, List.head?_filter]

end Run

/-! ## Queries that were written -/

section Read

variable {table clause : String} {columns : List String}

/-- The tokens of a query. -/
theorem readSelection_eq (ht : PlainTable table) (hcolumns : ∀ c ∈ columns, isIdentifier c = true)
    (hne : columns ≠ []) {ts : List Token} (hclause : Reads clause.toList ts) (n : ℕ) :
    readSelection ("SELECT " ++ Text.join ", " columns ++ " FROM " ++ table
        ++ (" WHERE " ++ clause) ++ (" LIMIT " ++ toString n))
      = selection? (List.intercalate [.symbol ","] (columns.map fun c => [Token.word c])
          ++ .word "FROM" :: .word table :: .word "WHERE"
            :: (ts ++ [.word "LIMIT", .number (toString n)])) := by
  have hhead : scan .start "SELECT ".toList = some ([.word "SELECT"], .start) := by decide
  have hfrom : Separator " FROM " [.word "FROM"] := ⟨by decide, by decide⟩
  have hlimit : Reads (clause.toList ++ (" LIMIT " ++ toString n).toList)
      (ts ++ [.word "LIMIT", .number (toString n)]) := by
    have hlimit := reads_limit n
    rw [String.toList_append] at hlimit ⊢
    exact hclause.append (by decide) hlimit
  have htext := Reads.after hhead ((reads_join (reads_words hcolumns) hne).separate hfrom
    (ht.nameText.reads.separate separator_where hlimit))
  have htokens : tokens ("SELECT " ++ Text.join ", " columns ++ " FROM " ++ table
        ++ (" WHERE " ++ clause) ++ (" LIMIT " ++ toString n))
      = some (.word "SELECT"
        :: (List.intercalate [.symbol ","] (columns.map fun c => [Token.word c])
          ++ .word "FROM" :: .word table :: .word "WHERE"
            :: (ts ++ [.word "LIMIT", .number (toString n)]))) := by
    refine Reads.tokens_eq ?_
    simpa only [String.toList_append, List.append_assoc, List.cons_append, List.nil_append]
      using htext
  rw [readSelection, htokens]
  rfl

theorem isKeyword_words {keyword : String}
    (h : ∀ c ∈ columns, (Token.word c).isKeyword keyword = false) :
    ∀ t ∈ List.intercalate [.symbol ","] (columns.map fun c => [Token.word c]),
      t.isKeyword keyword = false := by
  intro t ht
  obtain rfl | ⟨ts, hts, ht⟩ := mem_intercalate ht
  · rfl
  · obtain ⟨c, hc, rfl⟩ := List.mem_map.mp hts
    obtain rfl := List.mem_singleton.mp ht
    exact h c hc

theorem PlainTable.isKeyword {name keyword : String} (h : PlainTable name)
    (hkeyword : keyword ∈ keywords) : (Token.word name).isKeyword keyword = false :=
  isKeyword_of_name? h.nameText.means hkeyword

/-- **Reading a query.** -/
theorem readSelection_of_textOf (ht : PlainTable table) (hcolumns : ∀ c ∈ columns, PlainName c)
    (hne : columns ≠ []) {e : Expr} (hclause : TextOf clause e) {n : ℕ} (hn : n < 2 ^ 63) :
    readSelection ("SELECT " ++ Text.join ", " columns ++ " FROM " ++ table
        ++ (" WHERE " ++ clause) ++ (" LIMIT " ++ toString n))
      = some ⟨columns, table, e, ⟨some n, none⟩⟩ := by
  obtain ⟨ts, hreads, hparses⟩ := hclause
  have hmeans : (columns.map fun c => [Token.word c]).mapM (single Token.column?)
      = some columns := by
    rw [mapM_eq_some_iff, List.forall₂_map_left_iff, List.forall₂_same]
    exact fun c hc => (hcolumns c hc).column?
  have hcondition := hparses (2 * (ts ++ [Token.word "LIMIT", .number (toString n)]).length + 2)
    [.word "LIMIT", .number (toString n)] (by rw [List.length_append]; omega) ⟨rfl, rfl⟩
  have hlimits : limits [.word "LIMIT", .number (toString n)] = .ok ⟨some n, none⟩ := by
    rw [limits_limit, bound_natural, if_pos hn]
    rfl
  rw [readSelection_eq ht (fun c hc => (hcolumns c hc).1) hne hreads, selection?,
    splitAt?_append (isKeyword_words fun c hc => (hcolumns c hc).plainTable.isKeyword (by decide))
      (by decide), Option.bind_some, splitOn_words hne, hmeans, Option.bind_some]
  dsimp only
  rw [if_pos (by decide), ht.nameText.means, Option.bind_some, hcondition, Option.bind_some,
    hlimits]
  rfl

/-- **The names in a query that is read.** The first one may be any, if the
others may be written. -/
theorem plain_of_readSelection {key : String} (ht : PlainTable table)
    (hkey : isIdentifier key = true) (hcolumns : ∀ c ∈ columns, PlainTable c)
    (hclause : Closed clause) {n : ℕ} {s : Selection}
    (h : readSelection ("SELECT " ++ Text.join ", " (key :: columns) ++ " FROM " ++ table
        ++ (" WHERE " ++ clause) ++ (" LIMIT " ++ toString n)) = some s) :
    PlainName key ∧ ∀ c ∈ columns, PlainName c := by
  obtain ⟨ts, hreads, -⟩ := hclause
  have hids : ∀ c ∈ key :: columns, isIdentifier c = true :=
    List.forall_mem_cons.mpr ⟨hkey, fun c hc => (hcolumns c hc).1⟩
  have hne : key :: columns ≠ [] := List.cons_ne_nil _ _
  rw [readSelection_eq ht hids hne hreads, selection?] at h
  obtain ⟨⟨before, after⟩, hsplit, h⟩ := Option.bind_eq_some_iff.mp h
  obtain ⟨names, hnames, -⟩ := Option.bind_eq_some_iff.mp h
  by_cases hfrom : (Token.word key).isKeyword "FROM" = true
  · -- the key is taken for the end of the columns, and there are none before it
    obtain ⟨us, hus⟩ : ∃ us, List.intercalate [.symbol ","]
        ((key :: columns).map fun c => [Token.word c]) = .word key :: us := by
      cases columns with
      | nil => exact ⟨[], rfl⟩
      | cons c columns => exact ⟨_, intercalate_cons_cons ..⟩
    rw [hus, List.cons_append] at hsplit
    have hnil : splitAt? "FROM" (.word key :: (us ++ .word "FROM" :: .word table
        :: .word "WHERE" :: (ts ++ [.word "LIMIT", .number (toString n)])))
        = some ([], us ++ .word "FROM" :: .word table
          :: .word "WHERE" :: (ts ++ [.word "LIMIT", .number (toString n)])) :=
      @splitAt?_append "FROM" [] _ _ nofun hfrom
    obtain ⟨rfl, -⟩ := Prod.mk.inj (Option.some.inj (hnil.symm.trans hsplit))
    cases hnames
  · have hwords : ∀ c ∈ key :: columns, (Token.word c).isKeyword "FROM" = false :=
      List.forall_mem_cons.mpr ⟨Bool.not_eq_true _ ▸ hfrom,
        fun c hc => (hcolumns c hc).isKeyword (by decide)⟩
    rw [splitAt?_append (isKeyword_words hwords) (by decide)] at hsplit
    obtain ⟨rfl, -⟩ := Prod.mk.inj (Option.some.inj hsplit)
    dsimp only at hnames
    rw [splitOn_words hne, mapM_eq_some_iff, List.forall₂_map_left_iff] at hnames
    have hplain : ∀ c ∈ key :: columns, PlainName c := by
      intro c hc
      obtain ⟨name, hname⟩ := exists_of_mem_left hnames hc
      exact ⟨hids c hc, isName_of_column? hname⟩
    exact List.forall_mem_cons.mp hplain

end Read

end Sql
