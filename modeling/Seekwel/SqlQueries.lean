import Seekwel.SqlSelection

/-!
# Queries with everything after the table

A `SELECT` of columns or constants, or of the number of rows, with a
condition, an order and limits after the name of the table, each of which may
be missing. It may stand in parentheses and be counted by another one.

The rows are visited in some order (`Scan`), those that satisfy the condition
are kept, sorted and cut off. The sort is stable, so that any order of rows
that are equal in it is the one of some scan.
-/

namespace Sql

/-! ## Reading -/

/-- What is returned of a row. -/
inductive Output where
  | items (atoms : List Atom)
  /-- The number of the rows, once. -/
  | count
  deriving DecidableEq

/-- A column by which rows are sorted. -/
structure OrderItem where
  column : String
  descending : Bool
  deriving DecidableEq

/-- **A query for rows of a table.** -/
structure RowQuery where
  output : Output
  table : String
  condition : Option Expr
  ordering : List OrderItem
  deriving DecidableEq

/-- A query with the limits at its end. -/
structure LimitedQuery extends RowQuery where
  limits : Limits
  deriving DecidableEq

/-- **What a statement asks for**: the rows of a query, or how many they
are. -/
inductive Inquiry where
  | rows (q : LimitedQuery)
  | count (q : LimitedQuery)
  deriving DecidableEq

/-- What is selected. -/
def output? : List Token → Option Output
  | [w, .symbol "(", .symbol "*", .symbol ")"] => if w.isKeyword "COUNT" then some .count else none
  | ts => ((ts.splitOn (.symbol ",")).mapM (single Token.atom?)).map .items

/-- The condition that tokens begin with, if they do, and what follows it. -/
def condition? : List Token → Option (Option Expr × List Token)
  | t :: ts =>
    if t.isKeyword "WHERE" then (expr (2 * ts.length + 2) 0 ts).map fun p => (some p.1, p.2)
    else some (none, t :: ts)
  | [] => some (none, [])

def orderItem? : List Token → Option OrderItem
  | [c] => c.column?.map fun column => ⟨column, false⟩
  | [c, d] =>
    if d.isKeyword "ASC" then c.column?.map fun column => ⟨column, false⟩
    else if d.isKeyword "DESC" then c.column?.map fun column => ⟨column, true⟩
    else none
  | _ => none

/-- Whether a token does not begin the limits. -/
def beforeLimits (t : Token) : Bool := !t.isKeyword "LIMIT"

/-- The order that tokens begin with, if they do, and what follows it. -/
def ordering? : List Token → Option (List OrderItem × List Token)
  | t :: b :: ts =>
    if t.isKeyword "ORDER" then
      if b.isKeyword "BY" then
        (((ts.takeWhile beforeLimits).splitOn (.symbol ",")).mapM orderItem?).map fun items =>
          (items, ts.dropWhile beforeLimits)
      else none
    else some ([], t :: b :: ts)
  | ts => some ([], ts)

/-- What follows the word `SELECT`, up to the limits. -/
def rowQuery? (ts : List Token) : Option (RowQuery × List Token) :=
  (splitAt? "FROM" ts).bind fun p =>
    (output? p.1).bind fun output =>
      match p.2 with
      | n :: ts =>
        n.name?.bind fun table =>
          (condition? ts).bind fun c =>
            (ordering? c.2).map fun o => (⟨output, table, c.1, o.1⟩, o.2)
      | [] => none

/-- What follows the word `SELECT`. -/
def limitedQuery (ts : List Token) : Except String LimitedQuery :=
  match rowQuery? ts with
  | some p => (limits p.2).map fun limits => ⟨p.1, limits⟩
  | none => .error "syntax error"

/-- The tokens of a query whose rows are counted. -/
def counted? : List Token → Option (List Token)
  | c :: .symbol "(" :: .symbol "*" :: .symbol ")" :: f :: .symbol "(" :: s :: ts =>
    if c.isKeyword "COUNT" && f.isKeyword "FROM" && s.isKeyword "SELECT" then
      match ts.reverse with
      | name :: w :: .symbol ")" :: inner =>
        if w.isKeyword "AS" && name.name?.isSome then some inner.reverse else none
      | _ => none
    else none
  | _ => none

/-- **Reading a query.** -/
def readInquiry (text : String) : Except String Inquiry :=
  match tokens text with
  | some (s :: ts) =>
    if s.isKeyword "SELECT" then
      match counted? ts with
      | some inner => (limitedQuery inner).map .count
      | none => (limitedQuery ts).map .rows
    else .error "syntax error"
  | some [] | none => .error "unrecognized token"

example : readInquiry "SELECT COUNT(*) FROM (SELECT 1 FROM t ORDER BY a DESC, b LIMIT 2) AS n"
    = .ok (.count ⟨⟨.items [.integer 1], "t", none, [⟨"a", true⟩, ⟨"b", false⟩]⟩,
      ⟨some 2, none⟩⟩) := by
  decide

/-! ## Orders -/

section Order

variable {V : Type} (D : Domain V) (values : Values V)

/-- The order of the values of a column. Nulls come first. -/
def Domain.rank (column : String) (x y : V) : Ordering :=
  if D.isNull x then if D.isNull y then .eq else .lt
  else if D.isNull y then .gt
  else D.order (some column) (some column) x y

/-- **The values of every column are ordered.** -/
structure Domain.IsOrdered : Prop where
  trans : ∀ column, Std.TransCmp (D.rank column)

/-- How two rows are to each other by a column. -/
def OrderItem.compare (t : Table V) (item : OrderItem) (a b : Stored V) : Ordering :=
  if item.descending then
    D.rank item.column (t.get values b item.column) (t.get values a item.column)
  else D.rank item.column (t.get values a item.column) (t.get values b item.column)

/-- **How two rows are to each other**: by the first column by which they
differ. -/
def Table.compareRows (t : Table V) : List OrderItem → Stored V → Stored V → Ordering
  | [] => fun _ _ => .eq
  | item :: items => compareLex (item.compare D values t) (t.compareRows items)

/-- Whether a row may stand before another one. -/
def Table.precedes (t : Table V) (ordering : List OrderItem) (a b : Stored V) : Bool :=
  (t.compareRows D values ordering a b).isLE

variable {D} {values}

/-- A comparison of what is found in two places. -/
theorem transCmp_on {α β : Type} {cmp : β → β → Ordering} (h : Std.TransCmp cmp) (f : α → β) :
    Std.TransCmp fun a b => cmp (f a) (f b) where
  eq_swap := h.eq_swap
  isLE_trans := h.isLE_trans

theorem OrderItem.transCmp_compare (hD : D.IsOrdered) (t : Table V) (item : OrderItem) :
    Std.TransCmp (item.compare D values t) := by
  have htrans := transCmp_on (hD.trans item.column) fun row => t.get values row item.column
  obtain ⟨column, descending⟩ := item
  cases descending with
  | false => exact htrans
  | true => exact htrans.opposite

/-- **Rows are ordered by columns** one after the other. -/
theorem Table.transCmp_compareRows (hD : D.IsOrdered) (t : Table V) (ordering : List OrderItem) :
    Std.TransCmp (t.compareRows D values ordering) := by
  induction ordering with
  | nil => exact { eq_swap := rfl, isLE_trans := fun _ _ => rfl }
  | cons item items ih =>
    have hitem : Std.TransCmp (item.compare D values t) := item.transCmp_compare hD t
    exact inferInstanceAs
      (Std.TransCmp (compareLex (item.compare D values t) (t.compareRows D values items)))

/-- **Sorted rows are in order.** -/
theorem Table.pairwise_mergeSort (hD : D.IsOrdered) (t : Table V) (ordering : List OrderItem)
    (rows : List (Stored V)) :
    (rows.mergeSort (t.precedes D values ordering)).Pairwise fun a b =>
      t.precedes D values ordering a b = true := by
  have htrans : Std.TransCmp (t.compareRows D values ordering) := t.transCmp_compareRows hD ordering
  have hle : ∀ a b c, t.precedes D values ordering a b = true →
      t.precedes D values ordering b c = true → t.precedes D values ordering a c = true :=
    fun _ _ _ => htrans.isLE_trans
  refine List.pairwise_mergeSort hle (fun a b => ?_) rows
  have hswap : t.compareRows D values ordering b a = (t.compareRows D values ordering a b).swap :=
    htrans.eq_swap
  rw [Bool.or_eq_true, precedes, precedes, hswap]
  cases t.compareRows D values ordering a b <;> simp

end Order

/-! ## Running a query -/

section Run

variable {V : Type} (D : Domain V) (values : Values V) (scan : Scan V)

/-- The columns of what is selected. -/
def Output.columns : Output → List String
  | items atoms => atoms.flatMap Atom.columns
  | count => []

/-- The columns a query refers to. -/
def RowQuery.columns (q : RowQuery) : List String :=
  q.output.columns ++ (q.condition.map Expr.columns).getD [] ++ q.ordering.map OrderItem.column

/-- Whether a row satisfies a condition, if there is one. -/
def Table.meets (t : Table V) (params : List V) (condition : Option Expr) (row : Stored V) : Bool :=
  condition.all fun e => t.satisfies D values params e row

/-- **The rows that are asked for**, in their order. -/
def Table.found (t : Table V) (params : List V) (q : RowQuery) : List (Stored V) :=
  ((scan.visit t.rows).filter (t.meets D values params q.condition)).mergeSort
    (t.precedes D values q.ordering)

/-- What is returned of the rows. -/
def Table.returned (t : Table V) (params : List V) (q : LimitedQuery) : List (List V) :=
  let found := t.found D values scan params q.toRowQuery
  match q.output with
  | .items atoms => (q.limits.window found).map fun row => atoms.map (t.value values params row)
  | .count => q.limits.window [[values.integer found.length]]

/-- The rows of a query, if the table has its columns. -/
def Table.limitedRows (t : Table V) (params : List V) (q : LimitedQuery) :
    Except String (List (List V)) :=
  if q.table = t.name then
    if q.columns.all t.hasColumn then .ok (t.returned D values scan params q)
    else .error "no such column"
  else .error "no such table"

/-- **Answering a statement.** -/
def Table.answer (t : Table V) (params : List V) : Inquiry → Except String (List (List V))
  | .rows q => t.limitedRows D values scan params q
  | .count q => (t.limitedRows D values scan params q).map fun rows =>
      [[values.integer rows.length]]

variable {D} {values} {scan}

/-- **The rows that are asked for** are those of the table that satisfy the
condition. -/
theorem Table.found_perm (t : Table V) (params : List V) (q : RowQuery) :
    (t.found D values scan params q).Perm (t.rows.filter (t.meets D values params q.condition)) :=
  (List.mergeSort_perm _ _).trans ((scan.perm t.rows).filter _)

/-- They are in order. -/
theorem Table.pairwise_found (hD : D.IsOrdered) (t : Table V) (params : List V) (q : RowQuery) :
    (t.found D values scan params q).Pairwise fun a b =>
      t.precedes D values q.ordering a b = true :=
  t.pairwise_mergeSort hD q.ordering _

end Run

/-! ## Queries that were written -/

section Written

/-- **A text that may follow another one**: it begins where a token ends. -/
def Follows (text : String) (ts : List Token) : Prop :=
  (text = "" ∧ ts = []) ∨ (text.toList.head?.any (· ∈ breaks) = true ∧ Reads text.toList ts)

theorem Reads.follow {a b : String} {ts us : List Token} (ha : Reads a.toList ts)
    (hb : Follows b us) : Reads (a ++ b).toList (ts ++ us) := by
  rw [String.toList_append]
  obtain ⟨rfl, rfl⟩ | ⟨hbegins, hreads⟩ := hb
  · simpa using ha
  · cases hl : b.toList with
    | nil => simp [hl] at hbegins
    | cons c cs =>
      rw [hl] at hbegins hreads
      exact ha.append (by simpa using hbegins) hreads

theorem Follows.append {a b : String} {ts us : List Token} (ha : Follows a ts)
    (hb : Follows b us) : Follows (a ++ b) (ts ++ us) := by
  obtain ⟨rfl, rfl⟩ | ⟨hbegins, hreads⟩ := ha
  · simpa using hb
  · refine .inr ⟨?_, hreads.follow hb⟩
    rw [String.toList_append]
    cases hl : a.toList with
    | nil => simp [hl] at hbegins
    | cons c cs => simpa [hl] using hbegins

/-- A text after a separator. -/
theorem Separator.follows {sep b : String} {us vs : List Token} (hsep : Separator sep us)
    (hb : Reads b.toList vs) : Follows (sep ++ b) (us ++ vs) := by
  have hbegins := hsep.begins
  refine .inr ⟨?_, ?_⟩
  · rw [String.toList_append]
    cases hl : sep.toList with
    | nil => simp [hl] at hbegins
    | cons c cs => simpa [hl] using hbegins
  · rw [String.toList_append]
    exact Reads.after hsep.reads hb

/-! ### Orders -/

def OrderItem.direction (item : OrderItem) : String := if item.descending then "DESC" else "ASC"

def OrderItem.text (item : OrderItem) : String := item.column ++ " " ++ item.direction

def OrderItem.tokens (item : OrderItem) : List Token := [.word item.column, .word item.direction]

theorem reads_orderItem {item : OrderItem} (h : PlainName item.column) :
    Reads item.text.toList item.tokens := by
  have hdirection : Reads item.direction.toList [.word item.direction] := by
    refine reads_identifier ?_
    unfold OrderItem.direction
    cases item.descending <;> decide
  have htext := (reads_identifier h.1).separate separator_space hdirection
  simpa only [OrderItem.text, OrderItem.tokens, String.toList_append, List.append_assoc,
    List.nil_append, List.cons_append] using htext

theorem orderItem?_tokens {item : OrderItem} (h : PlainName item.column) :
    orderItem? item.tokens = some item := by
  rw [OrderItem.tokens, orderItem?, h.column?]
  obtain ⟨column, descending⟩ := item
  cases descending with
  | false => exact if_pos (show (Token.word "ASC").isKeyword "ASC" = true by decide)
  | true =>
    exact (if_neg (show ¬ (Token.word "DESC").isKeyword "ASC" = true by decide)).trans
      (if_pos (show (Token.word "DESC").isKeyword "DESC" = true by decide))

/-- The tokens of an order, if there is one. -/
def orderTokens (items : List OrderItem) : List Token :=
  if items = [] then []
  else .word "ORDER" :: .word "BY" :: List.intercalate [.symbol ","] (items.map OrderItem.tokens)

/-- The text of an order, if there is one. -/
def orderText (items : List OrderItem) : String :=
  if items = [] then "" else " ORDER BY " ++ Text.join ", " (items.map OrderItem.text)

theorem follows_orderText {items : List OrderItem} (h : ∀ item ∈ items, PlainName item.column) :
    Follows (orderText items) (orderTokens items) := by
  unfold orderText orderTokens
  split_ifs with hnil
  · exact .inl ⟨rfl, rfl⟩
  · have hitems : List.Forall₂ (fun piece ts => Reads (String.toList piece) ts)
        (items.map OrderItem.text) (items.map OrderItem.tokens) := by
      rw [List.forall₂_map_left_iff, List.forall₂_map_right_iff, List.forall₂_same]
      exact fun item hitem => reads_orderItem (h item hitem)
    have horder : Separator " ORDER BY " [.word "ORDER", .word "BY"] := ⟨by decide, by decide⟩
    exact horder.follows (reads_join hitems (by simpa using hnil))

theorem isKeyword_of_ne {t : Token} {a b : String} (h : t.isKeyword a = true) (hne : a ≠ b) :
    t.isKeyword b = false := by
  cases t with
  | word text =>
    rw [Token.isKeyword, decide_eq_true_eq] at h
    rw [Token.isKeyword, h]
    exact decide_eq_false hne
  | quoted mark text => rfl
  | number text => rfl
  | param text => rfl
  | symbol text => rfl

/-- **Tokens that are limits**, if there are any. -/
def AreLimits (ls : List Token) : Prop := ∀ t ∈ ls.head?, beforeLimits t = false

theorem AreLimits.isKeyword {ls : List Token} (h : AreLimits ls) {keyword : String}
    (hne : keyword ≠ "LIMIT") : ∀ t ∈ ls.head?, t.isKeyword keyword = false := by
  intro t ht
  have hlimit := h t ht
  rw [beforeLimits, Bool.not_eq_false'] at hlimit
  exact isKeyword_of_ne hlimit hne.symm

theorem beforeLimits_items {items : List OrderItem} (h : ∀ item ∈ items, PlainName item.column) :
    ∀ t ∈ List.intercalate [.symbol ","] (items.map OrderItem.tokens), beforeLimits t = true := by
  intro t ht
  obtain rfl | ⟨ts, hts, ht⟩ := mem_intercalate ht
  · rfl
  · obtain ⟨item, hitem, rfl⟩ := List.mem_map.mp hts
    obtain rfl | ht := List.mem_cons.mp ht
    · rw [beforeLimits, (h item hitem).plainTable.isKeyword (by decide)]
      rfl
    · obtain rfl := List.mem_singleton.mp ht
      unfold OrderItem.direction
      cases item.descending <;> decide

/-- **Reading an order.** -/
theorem ordering?_tokens {items : List OrderItem} (h : ∀ item ∈ items, PlainName item.column)
    {ls : List Token} (hls : AreLimits ls) :
    ordering? (orderTokens items ++ ls) = some (items, ls) := by
  unfold orderTokens
  split_ifs with hnil
  · subst hnil
    rw [List.nil_append]
    match ls, hls with
    | [], _ => rfl
    | [t], _ => rfl
    | t :: b :: ts, hls =>
      have horder : t.isKeyword "ORDER" = false := hls.isKeyword (by decide) t rfl
      rw [ordering?, horder]
      rfl
  · have hbefore := beforeLimits_items h
    have hsplit : (List.intercalate [.symbol ","] (items.map OrderItem.tokens)).splitOn (.symbol ",")
        = items.map OrderItem.tokens := by
      refine List.splitOn_intercalate _ (fun ts hts hmem => ?_) (by simpa using hnil)
      obtain ⟨item, -, rfl⟩ := List.mem_map.mp hts
      simp [OrderItem.tokens] at hmem
    have hmeans : (items.map OrderItem.tokens).mapM orderItem? = some items := by
      rw [mapM_eq_some_iff, List.forall₂_map_left_iff, List.forall₂_same]
      exact fun item hitem => orderItem?_tokens (h item hitem)
    have htake : ls.takeWhile beforeLimits = [] ∧ ls.dropWhile beforeLimits = ls := by
      cases ls with
      | nil => exact ⟨rfl, rfl⟩
      | cons t ts =>
        have ht := hls t rfl
        exact ⟨List.takeWhile_cons_of_neg (by simp [ht]), List.dropWhile_cons_of_neg (by simp [ht])⟩
    rw [List.cons_append, List.cons_append, ordering?, if_pos (by decide), if_pos (by decide),
      List.takeWhile_append_of_pos hbefore, List.dropWhile_append_of_pos hbefore, htake.1, htake.2,
      List.append_nil, hsplit, hmeans]
    rfl

/-! ### Conditions -/

def conditionTokens : Option (List Token) → List Token
  | none => []
  | some ts => .word "WHERE" :: ts

def conditionText : Option String → String
  | none => ""
  | some clause => " WHERE " ++ clause

/-- **Reading a condition**, before an order or limits. -/
theorem condition?_tokens {cs : Option (List Token)} {e : Option Expr} (h : Option.Rel Parses cs e)
    {items : List OrderItem} {ls : List Token} (hls : AreLimits ls) :
    condition? (conditionTokens cs ++ (orderTokens items ++ ls))
      = some (e, orderTokens items ++ ls) := by
  have hstops : Stops (orderTokens items ++ ls)
      ∧ ∀ t ∈ (orderTokens items ++ ls).head?, t.isKeyword "WHERE" = false := by
    unfold orderTokens
    split_ifs
    · rw [List.nil_append]
      refine ⟨?_, hls.isKeyword (by decide)⟩
      cases ls with
      | nil => exact stops_nil
      | cons t ts =>
        have hkeyword : ∀ keyword, keyword ≠ "LIMIT" → t.isKeyword keyword = false :=
          fun keyword hne => hls.isKeyword hne t rfl
        cases t with
        | symbol s => cases hls _ rfl
        | _ =>
          simp [Stops, infix?, membership?, hkeyword "OR" (by decide), hkeyword "AND" (by decide),
            hkeyword "IS" (by decide), hkeyword "IN" (by decide)]
    · exact ⟨⟨rfl, rfl⟩, fun t ht => by cases ht; decide⟩
  obtain ⟨hstops, hwhere⟩ := hstops
  cases h with
  | none =>
    rw [conditionTokens, List.nil_append]
    cases hrest : orderTokens items ++ ls with
    | nil => rfl
    | cons t ts =>
      rw [hrest] at hwhere
      rw [condition?, hwhere t rfl]
      rfl
  | @some ts e hparses =>
    have hread := hparses (2 * (ts ++ (orderTokens items ++ ls)).length + 2) _
      (by rw [List.length_append]; omega) hstops
    rw [conditionTokens, List.cons_append, condition?, if_pos (by decide), hread]
    rfl

/-! ### Statements -/

/-- **The tokens of what is selected.** They do not begin a query that is
counted. -/
structure IsOutput (os : List Token) (output : Output) : Prop where
  means : output? os = some output
  noFrom : ∀ t ∈ os, t.isKeyword "FROM" = false
  alone : ∀ table rest, counted? (os ++ .word "FROM" :: .word table :: rest) = none

def OutputText (text : String) (output : Output) : Prop :=
  ∃ os, Reads text.toList os ∧ IsOutput os output

theorem outputText_one : OutputText "1" (.items [.integer 1]) :=
  ⟨[.number "1"], Reads.of_scan (u := []) (s := .number ['1']) (by decide) (by decide) rfl,
    by decide, by decide, fun _ _ => rfl⟩

theorem outputText_count : OutputText "COUNT(*)" .count := by
  refine ⟨[.word "COUNT", .symbol "(", .symbol "*", .symbol ")"], ?_, by decide, by decide,
    fun table rest => ?_⟩
  · exact Reads.of_scan (u := [.word "COUNT", .symbol "(", .symbol "*", .symbol ")"]) (v := [])
      (s := .start) (by decide) rfl rfl
  · cases rest <;> rfl

/-- Names of columns are read as columns. -/
theorem outputText_columns {columns : List String} (h : ∀ c ∈ columns, PlainName c)
    (hne : columns ≠ []) :
    OutputText (Text.join ", " columns) (.items (columns.map .column)) := by
  refine ⟨_, reads_join (reads_words fun c hc => (h c hc).1) hne, ?_,
    isKeyword_words fun c hc => (h c hc).plainTable.isKeyword (by decide), ?_⟩
  · have hmeans : (columns.map fun c => [Token.word c]).mapM (single Token.atom?)
        = some (columns.map .column) := by
      rw [mapM_eq_some_iff, List.forall₂_map_left_iff, List.forall₂_map_right_iff,
        List.forall₂_same]
      exact fun c hc => atom?_word (h c hc)
    rw [output?, splitOn_words hne, hmeans]
    · rfl
    · intro w heq
      have hmem : Token.symbol "(" ∈ List.intercalate [.symbol ","]
          (columns.map fun c => [Token.word c]) := heq ▸ by simp
      obtain hcomma | ⟨ts, hts, hopen⟩ := mem_intercalate hmem
      · exact absurd hcomma (by decide)
      · obtain ⟨c, -, rfl⟩ := List.mem_map.mp hts
        cases List.mem_singleton.mp hopen
  · intro table rest
    match columns, hne with
    | [c], _ => rfl
    | c :: c' :: columns, _ =>
      rw [List.map_cons, List.map_cons, intercalate_cons_cons]
      rfl

/-- **The text of limits**, if there are any. -/
def LimitsText (text : String) : Prop := ∃ ls, Follows text ls ∧ AreLimits ls

theorem Follows.readLimits_eq {text : String} {ls : List Token} (h : Follows text ls) :
    readLimits text = limits ls := by
  obtain ⟨rfl, rfl⟩ | ⟨-, hreads⟩ := h
  · rfl
  · exact readLimits_of_reads hreads

/-- The text of a query. -/
def queryText (output table : String) (clause : Option String) (items : List OrderItem)
    (tail : String) : String :=
  "SELECT " ++ (output ++ (" FROM " ++ (table ++ (conditionText clause
    ++ (orderText items ++ tail)))))

variable {output table tail : String} {clause : Option String} {items : List OrderItem}
  {o : Output} {e : Option Expr}

/-- The tokens of a query. -/
theorem reads_queryText (ho : OutputText output o) (ht : PlainTable table)
    (hc : Option.Rel TextOf clause e) (hitems : ∀ item ∈ items, PlainName item.column)
    (htail : LimitsText tail) :
    ∃ us, Reads (queryText output table clause items tail).toList (.word "SELECT" :: us)
      ∧ counted? us = none
      ∧ limitedQuery us = (readLimits tail).map fun limits => ⟨⟨o, table, e, items⟩, limits⟩ := by
  obtain ⟨os, houtput, hos⟩ := ho
  obtain ⟨ls, hfollows, hls⟩ := htail
  obtain ⟨cs, hcondition, hparses⟩ : ∃ cs, Follows (conditionText clause) (conditionTokens cs)
      ∧ Option.Rel Parses cs e := by
    cases hc with
    | none => exact ⟨none, .inl ⟨rfl, rfl⟩, .none⟩
    | some htext =>
      obtain ⟨ts, hreads, hparses⟩ := htext
      exact ⟨some ts, separator_where.follows hreads, .some hparses⟩
  have hhead : scan .start "SELECT ".toList = some ([.word "SELECT"], .start) := by decide
  have hfrom : Separator " FROM " [.word "FROM"] := ⟨by decide, by decide⟩
  have hrest := hcondition.append ((follows_orderText hitems).append hfollows)
  have hreads := houtput.follow (hfrom.follows (ht.nameText.reads.follow hrest))
  have hquery : rowQuery? (os ++ .word "FROM" :: .word table
      :: (conditionTokens cs ++ (orderTokens items ++ ls)))
      = some (⟨o, table, e, items⟩, ls) := by
    rw [rowQuery?, splitAt?_append hos.noFrom (by decide), Option.bind_some, hos.means,
      Option.bind_some]
    dsimp only
    rw [ht.nameText.means, Option.bind_some, condition?_tokens hparses hls, Option.bind_some,
      ordering?_tokens hitems hls]
    rfl
  refine ⟨os ++ .word "FROM" :: .word table :: (conditionTokens cs ++ (orderTokens items ++ ls)),
    ?_, hos.alone _ _, ?_⟩
  · rw [queryText, String.toList_append]
    exact Reads.after hhead hreads
  · rw [limitedQuery, hquery, hfollows.readLimits_eq]

/-- **A query is read** as what it was put together from. -/
theorem readInquiry_queryText (ho : OutputText output o) (ht : PlainTable table)
    (hc : Option.Rel TextOf clause e) (hitems : ∀ item ∈ items, PlainName item.column)
    (htail : LimitsText tail) :
    readInquiry (queryText output table clause items tail)
      = (readLimits tail).map fun limits => .rows ⟨⟨o, table, e, items⟩, limits⟩ := by
  obtain ⟨us, hreads, halone, hquery⟩ := reads_queryText ho ht hc hitems htail
  rw [readInquiry, hreads.tokens_eq]
  dsimp only
  rw [if_pos (by decide), halone, hquery]
  cases readLimits tail <;> rfl

/-- **A query that is counted is read** as that. -/
theorem readInquiry_counted (ho : OutputText output o) (ht : PlainTable table)
    (hc : Option.Rel TextOf clause e) (hitems : ∀ item ∈ items, PlainName item.column)
    (htail : LimitsText tail) {name : String} (hname : PlainTable name) :
    readInquiry ("SELECT COUNT(*) FROM (" ++ (queryText output table clause items tail
        ++ (") AS " ++ name)))
      = (readLimits tail).map fun limits => .count ⟨⟨o, table, e, items⟩, limits⟩ := by
  obtain ⟨us, hreads, -, hquery⟩ := reads_queryText ho ht hc hitems htail
  have hhead : scan .start "SELECT COUNT(*) FROM (".toList
      = some ([.word "SELECT", .word "COUNT", .symbol "(", .symbol "*", .symbol ")",
        .word "FROM", .symbol "("], .start) := by decide
  have has : Separator ") AS " [.symbol ")", .word "AS"] := ⟨by decide, by decide⟩
  have htext := Reads.after hhead (hreads.follow (has.follows hname.nameText.reads))
  rw [← String.toList_append] at htext
  have hcounted : counted? (.word "COUNT" :: .symbol "(" :: .symbol "*" :: .symbol ")"
      :: .word "FROM" :: .symbol "(" :: .word "SELECT"
      :: (us ++ [.symbol ")", .word "AS", .word name])) = some us := by
    have hreverse : (us ++ [Token.symbol ")", .word "AS", .word name]).reverse
        = .word name :: .word "AS" :: .symbol ")" :: us.reverse := by simp
    rw [counted?, if_pos (by decide), hreverse]
    show (if (Token.word "AS").isKeyword "AS" && (Token.word name).name?.isSome then
      some us.reverse.reverse else none) = _
    rw [hname.nameText.means, show (Token.word "AS").isKeyword "AS" = true by decide]
    exact congrArg some (List.reverse_reverse us)
  rw [readInquiry, htext.tokens_eq]
  show (if (Token.word "SELECT").isKeyword "SELECT" then
    match counted? (.word "COUNT" :: .symbol "(" :: .symbol "*" :: .symbol ")"
      :: .word "FROM" :: .symbol "(" :: .word "SELECT"
      :: (us ++ [.symbol ")", .word "AS", .word name])) with
    | some inner => (limitedQuery inner).map Inquiry.count
    | none => _
    else _) = _
  rw [if_pos (by decide), hcounted]
  dsimp only
  rw [hquery]
  cases readLimits tail <;> rfl

end Written

end Sql
