import Seekwel.SqlNames
import Seekwel.SqlTable

/-!
# Reading statements

What a statement says of a table and its columns. The reader covers
`CREATE TABLE` with columns that have a type, `NOT NULL`, `PRIMARY KEY` and
a literal default, `CREATE INDEX` on columns, and `INSERT`, `UPDATE`,
`DELETE` and `SELECT` of the rows that have a given key. A text outside this
fragment is not read.

Where only a name may stand, more words are taken for names than at the
place of an expression.
-/

namespace Sql

/-! ## Columns -/

/-- A constraint of a column. -/
inductive Constraint where
  | primaryKey
  | notNull
  | default (value : List Token)
  deriving DecidableEq

/-- **The text of a column.** -/
structure ColumnText where
  name : String
  type : List Token
  constraints : List Constraint
  deriving DecidableEq

def isTypeWord : Token → Bool
  | .word text => Text.toAsciiUppercase text ∉ keywords
  | _ => false

/-- The one or two numerals in parentheses that a type may end with. -/
def typeArguments : List Token → List Token × List Token
  | .symbol "(" :: .number a :: .symbol ")" :: ts =>
    ([.symbol "(", .number a, .symbol ")"], ts)
  | .symbol "(" :: .number a :: .symbol "," :: .number b :: .symbol ")" :: ts =>
    ([.symbol "(", .number a, .symbol ",", .number b, .symbol ")"], ts)
  | ts => ([], ts)

/-- The type of a column, and the tokens after it. -/
def columnType (ts : List Token) : List Token × List Token :=
  let arguments := typeArguments (ts.dropWhile isTypeWord)
  (ts.takeWhile isTypeWord ++ arguments.1, arguments.2)

/-- The values of a default that are a single token. -/
def isLiteral : Token → Bool
  | .word text => Text.toAsciiUppercase text ∉ keywords || Text.toAsciiUppercase text = "NULL"
  | .quoted mark _ => mark = '\''
  | .number _ => true
  | _ => false

/-- The constraints of a column. -/
def constraints? : List Token → Option (List Constraint)
  | [] => some []
  | a :: .symbol sign :: .number n :: ts =>
    if a.isKeyword "DEFAULT" && (sign = "-" || sign = "+") then
      (constraints? ts).map (.default [.symbol sign, .number n] :: ·)
    else none
  | a :: b :: ts =>
    if a.isKeyword "PRIMARY" && b.isKeyword "KEY" then (constraints? ts).map (.primaryKey :: ·)
    else if a.isKeyword "NOT" && b.isKeyword "NULL" then (constraints? ts).map (.notNull :: ·)
    else if a.isKeyword "DEFAULT" && isLiteral b then (constraints? ts).map (.default [b] :: ·)
    else none
  | [_] => none

/-- **The column an item defines.** -/
def columnText? : List Token → Option ColumnText
  | [] => none
  | t :: ts =>
    t.name?.bind fun name =>
      (constraints? (columnType ts).2).map fun constraints =>
        ⟨name, (columnType ts).1, constraints⟩

/-! ## Statements -/

/-- **A statement.** -/
inductive Command where
  | createTable (name : String) (columns : List ColumnText)
  | createIndex (unique : Bool) (name table column : String)
  | insert (table : String) (columns : List String) (values : List Atom)
  | insertDefaults (table : String)
  /-- Changes in the rows whose key has a value. -/
  | update (table : String) (changes : List (String × Atom)) (key : String) (value : Atom)
  | delete (table key : String) (value : Atom)
  | select (columns : List String) (table key : String) (value : Atom)
  deriving DecidableEq

/-- The column a token refers to at the place of an expression. -/
def Token.column? (t : Token) : Option String :=
  match t.atom? with
  | some (.column name) => some name
  | _ => none

/-- The one token of a list item. -/
def single {α : Type} (f : Token → Option α) : List Token → Option α
  | [t] => f t
  | _ => none

/-- A condition on the key. -/
def key? : List Token → Option (String × Atom)
  | [c, .symbol "=", v] => c.column?.bind fun key => v.atom?.map fun value => (key, value)
  | _ => none

def change? : List Token → Option (String × Atom)
  | [c, .symbol "=", v] => c.name?.bind fun column => v.atom?.map fun value => (column, value)
  | _ => none

/-- The tokens before a keyword, and those after it. -/
def splitAt? (keyword : String) (ts : List Token) : Option (List Token × List Token) :=
  match ts.dropWhile (fun t => !t.isKeyword keyword) with
  | _ :: rest => some (ts.takeWhile (fun t => !t.isKeyword keyword), rest)
  | [] => none

def createTable? (ts : List Token) : Option Command :=
  (tableText? ts).bind fun table =>
    if table.options = [] then
      (table.items.mapM columnText?).map (.createTable table.name)
    else none

def createIndex? (ts : List Token) : Option Command :=
  (indexText? ts).bind fun index =>
    match index.items, index.options with
    | [item], [] =>
      (single Token.column? item).map (.createIndex index.unique index.name index.table)
    | _, _ => none

/-- What follows the words `INSERT INTO`. -/
def insert? : List Token → Option Command
  | [n, d, v] =>
    if d.isKeyword "DEFAULT" && v.isKeyword "VALUES" then n.name?.map .insertDefaults else none
  | ts =>
    (named ts).bind fun table =>
      (table.items.mapM (single Token.name?)).bind fun columns =>
        match table.options with
        | v :: .symbol "(" :: us =>
          if v.isKeyword "VALUES" then
            match splitItems 0 [] us with
            | some (values, []) =>
              (values.mapM (single Token.atom?)).bind fun values =>
                if values.length = columns.length then
                  some (.insert table.name columns values)
                else none
            | _ => none
          else none
        | _ => none

/-- What follows the word `UPDATE`. -/
def update? : List Token → Option Command
  | n :: s :: ts =>
    if s.isKeyword "SET" then
      n.name?.bind fun table =>
        (splitAt? "WHERE" ts).bind fun p =>
          ((p.1.splitOn (.symbol ",")).mapM change?).bind fun changes =>
            (key? p.2).map fun key => .update table changes key.1 key.2
    else none
  | _ => none

/-- What follows the words `DELETE FROM`. -/
def delete? : List Token → Option Command
  | n :: w :: ts =>
    if w.isKeyword "WHERE" then
      n.name?.bind fun table => (key? ts).map fun key => .delete table key.1 key.2
    else none
  | _ => none

/-- What follows the word `SELECT`. -/
def select? (ts : List Token) : Option Command :=
  (splitAt? "FROM" ts).bind fun p =>
    ((p.1.splitOn (.symbol ",")).mapM (single Token.column?)).bind fun columns =>
      match p.2 with
      | n :: w :: ts =>
        if w.isKeyword "WHERE" then
          n.name?.bind fun table => (key? ts).map fun key => .select columns table key.1 key.2
        else none
      | _ => none

def command? : List Token → Option Command
  | a :: b :: ts =>
    if a.isKeyword "CREATE" && b.isKeyword "TABLE" then createTable? (a :: b :: ts)
    else if a.isKeyword "CREATE" then createIndex? (a :: b :: ts)
    else if a.isKeyword "INSERT" && b.isKeyword "INTO" then insert? ts
    else if a.isKeyword "UPDATE" then update? (b :: ts)
    else if a.isKeyword "DELETE" && b.isKeyword "FROM" then delete? ts
    else if a.isKeyword "SELECT" then select? (b :: ts)
    else none
  | _ => none

/-- **Reading a statement.** -/
def readCommand (text : String) : Option Command := (tokens text).bind command?

example : readCommand "UPDATE t SET a = ?1, b = b WHERE id = ?2"
    = some (.update "t" [("a", .param 1), ("b", .column "b")] "id" (.param 2)) := by
  decide +kernel

/-! ## Lists -/

theorem mapM_eq_some_iff {α β : Type} {f : α → Option β} {as : List α} {bs : List β} :
    as.mapM f = some bs ↔ List.Forall₂ (fun a b => f a = some b) as bs := by
  induction as generalizing bs with
  | nil => simp [eq_comm]
  | cons a as ih =>
    rw [List.mapM_cons, List.forall₂_cons_left_iff]
    simp only [Option.bind_eq_bind, Option.bind_eq_some_iff, Option.pure_def, ih]
    constructor
    · rintro ⟨b, hb, cs, hcs, h⟩
      cases h
      exact ⟨b, cs, hb, hcs, rfl⟩
    · rintro ⟨b, cs, hb, hcs, rfl⟩
      exact ⟨b, hb, cs, hcs, rfl⟩

theorem intercalate_cons_cons {α : Type} (s : α) (ts us : List α) (items : List (List α)) :
    List.intercalate [s] (ts :: us :: items) = ts ++ s :: List.intercalate [s] (us :: items) := by
  simp [List.intercalate]

theorem mem_intercalate {α : Type} {s x : α} {items : List (List α)}
    (h : x ∈ List.intercalate [s] items) : x = s ∨ ∃ ts ∈ items, x ∈ ts := by
  induction items with
  | nil => simp [List.intercalate] at h
  | cons ts items ih =>
    cases items with
    | nil => exact Or.inr ⟨ts, List.mem_cons_self, by simpa [List.intercalate] using h⟩
    | cons us items =>
      rw [intercalate_cons_cons, List.mem_append, List.mem_cons] at h
      obtain h | rfl | h := h
      · exact Or.inr ⟨ts, List.mem_cons_self, h⟩
      · exact Or.inl rfl
      · obtain rfl | ⟨vs, hvs, hx⟩ := ih h
        · exact Or.inl rfl
        · exact Or.inr ⟨vs, List.mem_cons_of_mem _ hvs, hx⟩

/-- What relates two lists through something in between relates them through
a list. -/
theorem exists_middle {α β γ : Type} {R : α → β → Prop} {S : β → γ → Prop} {as : List α}
    {cs : List γ} (h : List.Forall₂ (fun a c => ∃ b, R a b ∧ S b c) as cs) :
    ∃ bs, List.Forall₂ R as bs ∧ List.Forall₂ S bs cs := by
  induction h with
  | nil => exact ⟨[], .nil, .nil⟩
  | cons hac _ ih =>
    obtain ⟨b, hab, hbc⟩ := hac
    obtain ⟨bs, hR, hS⟩ := ih
    exact ⟨b :: bs, .cons hab hR, .cons hbc hS⟩

theorem ne_nil_of_forall₂ {α β : Type} {R : α → β → Prop} {as : List α} {bs : List β}
    (h : List.Forall₂ R as bs) (hne : as ≠ []) : bs ≠ [] := by
  cases h with
  | nil => exact absurd rfl hne
  | cons _ _ => exact List.cons_ne_nil _ _

theorem exists_of_mem_left {α β : Type} {R : α → β → Prop} {as : List α} {bs : List β}
    (h : List.Forall₂ R as bs) {a : α} (ha : a ∈ as) : ∃ b, R a b := by
  induction h with
  | nil => exact absurd ha List.not_mem_nil
  | cons hab _ ih =>
    obtain rfl | ha := List.mem_cons.mp ha
    · exact ⟨_, hab⟩
    · exact ih ha

/-- Tokens that are one item of a list in parentheses, or a part of one. -/
def IsItem (ts : List Token) : Prop :=
  ∀ item rest, splitItems 0 item (ts ++ rest) = splitItems 0 (item ++ ts) rest

theorem isItem_nil : IsItem [] := fun item rest => by simp

theorem IsItem.append {ts us : List Token} (ht : IsItem ts) (hu : IsItem us) :
    IsItem (ts ++ us) := fun item rest => by
  rw [List.append_assoc, ht, hu, List.append_assoc]

theorem isItem_token {t : Token} (h : t.IsPlain) (hc : t ≠ .symbol ",") : IsItem [t] :=
  fun item rest => by
    simp [splitItems, h.1, h.2, hc]

theorem isItem_tokens {ts : List Token} (h : ∀ t ∈ ts, t.IsPlain ∧ t ≠ .symbol ",") :
    IsItem ts := by
  induction ts with
  | nil => exact isItem_nil
  | cons t ts ih =>
    have ht := h t List.mem_cons_self
    exact (isItem_token ht.1 ht.2).append (ih fun u hu => h u (List.mem_cons_of_mem _ hu))

/-- A list in parentheses is split into its items. -/
theorem splitItems_intercalate {items : List (List Token)} (hitems : ∀ ts ∈ items, IsItem ts)
    (hne : items ≠ []) (rest : List Token) :
    splitItems 0 [] (List.intercalate [.symbol ","] items ++ .symbol ")" :: rest)
      = some (items, rest) := by
  induction items with
  | nil => exact absurd rfl hne
  | cons ts items ih =>
    have hts := hitems ts List.mem_cons_self
    cases items with
    | nil =>
      have h := hts [] (.symbol ")" :: rest)
      simpa [List.intercalate, splitItems] using h
    | cons us items =>
      have ih := ih (fun vs hvs => hitems vs (List.mem_cons_of_mem _ hvs)) (by simp)
      have h := hts [] (.symbol "," :: (List.intercalate [.symbol ","] (us :: items)
        ++ .symbol ")" :: rest))
      rw [intercalate_cons_cons, List.append_assoc, List.cons_append, h, List.nil_append]
      simp [splitItems, ih]

/-! ## Columns that were written -/

inductive IsArguments : List Token → Prop where
  | none : IsArguments []
  | one (a : String) : IsArguments [.symbol "(", .number a, .symbol ")"]
  | two (a b : String) :
    IsArguments [.symbol "(", .number a, .symbol ",", .number b, .symbol ")"]

/-- The tokens of a type: words, and one or two numerals in parentheses. -/
structure IsType (ts words arguments : List Token) : Prop where
  eq : ts = words ++ arguments
  of_words : ∀ t ∈ words, isTypeWord t = true
  of_arguments : IsArguments arguments
  ne_nil : arguments ≠ [] → words ≠ []

/-- **A text that names a type.** -/
def TypeText (text : String) : Prop :=
  ∃ ts words arguments, Reads text.toList ts ∧ IsType ts words arguments

/-- The tokens of a literal value. -/
inductive IsValue : List Token → Prop where
  | one {t : Token} (h : isLiteral t = true) : IsValue [t]
  | signed {sign : String} (h : sign = "-" ∨ sign = "+") (n : String) :
    IsValue [.symbol sign, .number n]

/-- **A text that is a literal value.** -/
def ValueText (text : String) : Prop := ∃ ts, Reads text.toList ts ∧ IsValue ts

theorem isPlain_of_isTypeWord {t : Token} (h : isTypeWord t = true) :
    t.IsPlain ∧ t ≠ .symbol "," := by
  cases t <;> simp_all [isTypeWord, Token.IsPlain]

theorem isPlain_of_isLiteral {t : Token} (h : isLiteral t = true) :
    t.IsPlain ∧ t ≠ .symbol "," := by
  cases t <;> simp_all [isLiteral, Token.IsPlain]

theorem IsType.isItem {ts words arguments : List Token} (h : IsType ts words arguments) :
    IsItem ts := by
  rw [h.eq]
  refine (isItem_tokens fun t ht => isPlain_of_isTypeWord (h.of_words t ht)).append ?_
  cases h.of_arguments with
  | none => exact isItem_nil
  | one a =>
    intro item rest
    simp [splitItems]
  | two a b =>
    intro item rest
    simp [splitItems]

theorem IsValue.isItem {ts : List Token} (h : IsValue ts) : IsItem ts := by
  cases h with
  | one h =>
    have hplain := isPlain_of_isLiteral h
    exact isItem_token hplain.1 hplain.2
  | signed h n =>
    refine isItem_tokens fun t ht => ?_
    simp only [List.mem_cons, List.not_mem_nil, or_false] at ht
    obtain rfl | rfl := ht
    · obtain rfl | rfl := h
      all_goals decide
    · simp [Token.IsPlain]

/-- Tokens that begin with a keyword, or none at all. -/
def BeginsKeyword (ts : List Token) : Prop :=
  ∀ t ∈ ts.head?, (∃ w, t = .word w) ∧ isTypeWord t = false

theorem IsArguments.typeArguments_append {arguments rest : List Token}
    (h : IsArguments arguments) (hrest : BeginsKeyword rest) :
    typeArguments (arguments ++ rest) = (arguments, rest) := by
  cases h with
  | one a => rfl
  | two a b => rfl
  | none =>
    cases rest with
    | nil => rfl
    | cons t rest =>
      obtain ⟨⟨w, rfl⟩, -⟩ := hrest t rfl
      rfl

/-- A type is read up to the keyword that follows it. -/
theorem IsType.columnType_append {ts words arguments rest : List Token}
    (h : IsType ts words arguments) (hrest : BeginsKeyword rest) :
    columnType (ts ++ rest) = (ts, rest) := by
  have hstop : (arguments ++ rest).takeWhile isTypeWord = []
      ∧ (arguments ++ rest).dropWhile isTypeWord = arguments ++ rest := by
    cases h.of_arguments with
    | one a => exact ⟨rfl, rfl⟩
    | two a b => exact ⟨rfl, rfl⟩
    | none =>
      cases rest with
      | nil => exact ⟨rfl, rfl⟩
      | cons t rest =>
        have ht := (hrest t rfl).2
        simp [ht]
  unfold columnType
  rw [h.eq, List.append_assoc, List.takeWhile_append_of_pos h.of_words,
    List.dropWhile_append_of_pos h.of_words, hstop.1, hstop.2,
    h.of_arguments.typeArguments_append hrest, List.append_nil]

theorem constraints?_default {ts : List Token} (h : IsValue ts) :
    constraints? (.word "DEFAULT" :: ts) = some [.default ts] := by
  cases h with
  | signed h n =>
    obtain rfl | rfl := h
    all_goals rfl
  | one h =>
    rename_i t
    have hdefault : (Token.word "DEFAULT").isKeyword "DEFAULT" = true := by decide
    have hprimary : (Token.word "DEFAULT").isKeyword "PRIMARY" = false := by decide
    have hnot : (Token.word "DEFAULT").isKeyword "NOT" = false := by decide
    cases t with
    | symbol s => cases h
    | param s => cases h
    | word w => simp [constraints?, hdefault, hprimary, hnot, h]
    | quoted m w => simp [constraints?, hdefault, hprimary, hnot, h]
    | number n => simp [constraints?, hdefault, hprimary, hnot, h]

theorem constraints?_notNull (ts : List Token) :
    constraints? (.word "NOT" :: .word "NULL" :: ts) = (constraints? ts).map (.notNull :: ·) :=
  rfl

/-- A text that is read as a name, quoted or not. -/
structure NameText (text name : String) (t : Token) : Prop where
  reads : Reads text.toList [t]
  means : t.name? = some name

theorem NameText.isPlain {text name : String} {t : Token} (h : NameText text name t) :
    t.IsPlain ∧ t ≠ .symbol "," := by
  have hmeans := h.means
  cases t <;> simp_all [Token.name?, Token.IsPlain]

/-- A text that is read as a column. -/
def ItemText (text : String) (column : ColumnText) : Prop :=
  ∃ ts, Reads text.toList ts ∧ IsItem ts ∧ columnText? ts = some column

/-- A text that begins where a token ends, and is read to its end. -/
structure Separator (sep : String) (us : List Token) : Prop where
  begins : sep.toList.head?.any (· ∈ breaks) = true
  reads : scan .start sep.toList = some (us, .start)

/-- A piece, a text that separates, and another piece. -/
theorem Reads.separate {a b : List Char} {sep : String} {ts us vs : List Token}
    (ha : Reads a ts) (hsep : Separator sep us) (hb : Reads b vs) :
    Reads (a ++ (sep.toList ++ b)) (ts ++ (us ++ vs)) := by
  have hbegins := hsep.begins
  have hafter := Reads.after hsep.reads hb
  cases hl : sep.toList with
  | nil => simp [hl] at hbegins
  | cons c cs =>
    rw [hl] at hbegins hafter
    exact ha.append (by simpa using hbegins) hafter

theorem separator_space : Separator " " [] := ⟨by decide, by decide⟩

theorem separator_where : Separator " WHERE " [.word "WHERE"] := ⟨by decide, by decide⟩

/-- The tokens of the constraints of a column. -/
def constraintTokens (nullable : Bool) (value : Option (List Token)) : List Token :=
  (if nullable then [] else [.word "NOT", .word "NULL"])
  ++ match value with
    | none => []
    | some ts => .word "DEFAULT" :: ts

theorem constraintTokens_spec (nullable : Bool) {value : Option (List Token)}
    (hvalue : ∀ ts ∈ value, IsValue ts) :
    constraints? (constraintTokens nullable value)
        = some ((if nullable then [] else [.notNull]) ++ (value.map .default).toList)
      ∧ BeginsKeyword (constraintTokens nullable value)
      ∧ IsItem (constraintTokens nullable value) := by
  cases value with
  | none =>
    cases nullable with
    | true => exact ⟨rfl, fun t ht => (Option.not_mem_none t ht).elim, isItem_nil⟩
    | false =>
      refine ⟨rfl, ?_, isItem_tokens (by decide)⟩
      rintro t ⟨⟩
      exact ⟨⟨_, rfl⟩, by decide⟩
  | some ts =>
    have hts := hvalue ts rfl
    have hitem : IsItem (.word "DEFAULT" :: ts) :=
      (isItem_token (t := .word "DEFAULT") (by decide) (by decide)).append hts.isItem
    cases nullable with
    | true =>
      refine ⟨constraints?_default hts, ?_, hitem⟩
      rintro t ⟨⟩
      exact ⟨⟨_, rfl⟩, by decide⟩
    | false =>
      have hwords : IsItem [.word "NOT", .word "NULL"] := isItem_tokens (by decide)
      refine ⟨?_, ?_, hwords.append hitem⟩
      · show constraints? (.word "NOT" :: .word "NULL" :: .word "DEFAULT" :: ts) = _
        rw [constraints?_notNull, constraints?_default hts]
        rfl
      · rintro t ⟨⟩
        exact ⟨⟨_, rfl⟩, by decide⟩

def defaultClause : Option String → String
  | some text => " DEFAULT " ++ text
  | none => ""

/-- A name, its type and whether it may be null. -/
theorem reads_typed {nameText name typeText : String} {t : Token} {ts : List Token}
    (hname : NameText nameText name t) (htype : Reads typeText.toList ts) (nullable : Bool) :
    Reads (nameText ++ " " ++ typeText ++ (if nullable then "" else " NOT NULL")).toList
      (t :: ts ++ (if nullable then [] else [.word "NOT", .word "NULL"])) := by
  have hhead : Reads (nameText ++ " " ++ typeText).toList (t :: ts) := by
    simpa using hname.reads.separate separator_space htype
  have hnotNull : Reads " NOT NULL".toList [.word "NOT", .word "NULL"] :=
    Reads.of_scan (u := [.word "NOT"]) (s := .word ['N', 'U', 'L', 'L']) (by decide)
      (by decide) rfl
  cases nullable with
  | true => simpa using hhead
  | false =>
    rw [if_neg Bool.false_ne_true, if_neg Bool.false_ne_true, String.toList_append]
    exact hhead.append (by decide) hnotNull

/-- **The text of a column is read as the column.** -/
theorem itemText_column {nameText name typeText : String} {t : Token} {ts words arguments : List Token}
    (hname : NameText nameText name t) (htype : Reads typeText.toList ts)
    (his : IsType ts words arguments) (nullable : Bool) {valueText : Option String}
    {value : Option (List Token)}
    (hvalue : Option.Rel (fun text ts => Reads text.toList ts ∧ IsValue ts) valueText value) :
    ItemText (nameText ++ " " ++ typeText ++ (if nullable then "" else " NOT NULL")
        ++ defaultClause valueText)
      ⟨name, ts, (if nullable then [] else [.notNull]) ++ (value.map .default).toList⟩ := by
  have hvalues : ∀ ts ∈ value, IsValue ts := by
    rintro ts ⟨⟩
    cases hvalue with
    | some h => exact h.2
  obtain ⟨hconstraints, hbegins, hitem⟩ := constraintTokens_spec nullable hvalues
  have hfirst := reads_typed hname htype nullable
  refine ⟨t :: (ts ++ constraintTokens nullable value), ?_, ?_, ?_⟩
  · unfold constraintTokens
    rw [← List.cons_append, ← List.append_assoc]
    cases hvalue with
    | none => simpa [defaultClause] using hfirst
    | some h =>
      have hdefault : Separator " DEFAULT " [.word "DEFAULT"] := ⟨by decide, by decide⟩
      rename_i text ts'
      have htext : (defaultClause (some text)).toList = " DEFAULT ".toList ++ text.toList :=
        String.toList_append
      rw [String.toList_append, htext]
      exact hfirst.separate hdefault h.1
  · exact (isItem_token hname.isPlain.1 hname.isPlain.2).append (his.isItem.append hitem)
  · rw [columnText?, hname.means, Option.bind_some, his.columnType_append hbegins, hconstraints]
    rfl

/-- The text of a primary key is read as the key. -/
theorem itemText_primaryKey {nameText name typeText : String} {t : Token}
    {ts words arguments : List Token} (hname : NameText nameText name t)
    (htype : Reads typeText.toList ts) (his : IsType ts words arguments) :
    ItemText (nameText ++ " " ++ typeText ++ " PRIMARY KEY") ⟨name, ts, [.primaryKey]⟩ := by
  have hhead : Reads (nameText ++ " " ++ typeText).toList (t :: ts) := by
    simpa using hname.reads.separate separator_space htype
  have hkey : Reads " PRIMARY KEY".toList [.word "PRIMARY", .word "KEY"] :=
    Reads.of_scan (u := [.word "PRIMARY"]) (s := .word ['K', 'E', 'Y']) (by decide)
      (by decide) rfl
  have hbegins : BeginsKeyword [.word "PRIMARY", .word "KEY"] := by
    rintro t ⟨⟩
    exact ⟨⟨_, rfl⟩, by decide⟩
  have hwords : IsItem [.word "PRIMARY", .word "KEY"] := isItem_tokens (by decide)
  refine ⟨t :: (ts ++ [.word "PRIMARY", .word "KEY"]), ?_, ?_, ?_⟩
  · rw [String.toList_append]
    exact hhead.append (by decide) hkey
  · exact (isItem_token hname.isPlain.1 hname.isPlain.2).append (his.isItem.append hwords)
  · rw [columnText?, hname.means, Option.bind_some, his.columnType_append hbegins]
    rfl

/-! ## Statements that were written -/

theorem reads_close : Reads [')'] [.symbol ")"] :=
  Reads.of_scan (u := [.symbol ")"]) (s := .start) (by decide) (by decide) rfl

/-- A name, and a list in parentheses after it. -/
theorem reads_named {nameText name : String} {t : Token} (hname : NameText nameText name t)
    {texts : List String} {items : List (List Token)}
    (hreads : List.Forall₂ (fun text ts => Reads (String.toList text) ts) texts items)
    (hne : texts ≠ []) {rest : List Char} {us : List Token} (hrest : Reads (')' :: rest) (.symbol ")" :: us)) :
    Reads (nameText.toList ++ (" (".toList ++ ((Text.join ", " texts).toList ++ ')' :: rest)))
      (t :: .symbol "(" :: (List.intercalate [.symbol ","] items ++ .symbol ")" :: us)) := by
  have hopen : Separator " (" [.symbol "("] := ⟨by decide, by decide⟩
  have hlist := (reads_join hreads hne).append (by decide) hrest
  exact hname.reads.separate hopen hlist

theorem named_intercalate {nameText name : String} {t : Token} (hname : NameText nameText name t)
    {items : List (List Token)} (hitems : ∀ ts ∈ items, IsItem ts) (hne : items ≠ [])
    (us : List Token) :
    named (t :: .symbol "(" :: (List.intercalate [.symbol ","] items ++ .symbol ")" :: us))
      = some ⟨name, items, us⟩ := by
  rw [named, hname.means, Option.bind_some, splitItems_intercalate hitems hne]
  rfl

theorem readCommand_of_reads {text : String} {ts : List Token} (h : Reads text.toList ts) :
    readCommand text = command? ts := by
  rw [readCommand, h.tokens_eq, Option.bind_some]

/-- **The text of a table is read as the table.** -/
theorem readCommand_createTable {head nameText name : String} {heads : List Token} {t : Token}
    (hhead : scan .start head.toList = some (heads, .start))
    (hcreate : ∀ ts, command? (heads ++ t :: .symbol "(" :: ts)
      = (named (t :: .symbol "(" :: ts)).bind fun table =>
          if table.options = [] then
            (table.items.mapM columnText?).map (.createTable table.name)
          else none)
    (hname : NameText nameText name t) {texts : List String} {columns : List ColumnText}
    (htexts : List.Forall₂ ItemText texts columns) (hne : texts ≠ []) :
    readCommand (head ++ nameText ++ " (" ++ Text.join ", " texts ++ ")")
      = some (.createTable name columns) := by
  obtain ⟨items, hreads, hmeans⟩ := exists_middle htexts
  have hitems : ∀ ts ∈ items, IsItem ts := fun ts hts =>
    (exists_of_mem_left hmeans hts).elim fun _ h => h.1
  have hcolumns := mapM_eq_some_iff.mpr (hmeans.imp fun _ _ h => h.2)
  have hne' := ne_nil_of_forall₂ hreads hne
  have htext : Reads (head ++ nameText ++ " (" ++ Text.join ", " texts ++ ")").toList
      (heads ++ t :: .symbol "("
        :: (List.intercalate [.symbol ","] items ++ .symbol ")" :: [])) := by
    simpa using Reads.after hhead (reads_named hname hreads hne reads_close)
  rw [readCommand_of_reads htext, hcreate, named_intercalate hname hitems hne', Option.bind_some,
    if_pos rfl, hcolumns]
  rfl

/-! ### Plain names -/

/-- **A plain name of a table**: one that is read as itself where only a name
may stand. -/
def PlainTable (name : String) : Prop :=
  isIdentifier name = true ∧ Text.toAsciiUppercase name ∉ keywords

instance (name : String) : Decidable (PlainTable name) := inferInstanceAs (Decidable (_ ∧ _))

theorem mem_reserved_of_mem_keywords {word : String} (h : word ∈ keywords) : word ∈ reserved :=
  (List.mem_filter.mp h).1

theorem PlainName.plainTable {name : String} (h : PlainName name) : PlainTable name := by
  refine ⟨h.1, fun hk => ?_⟩
  have hname := h.2
  rw [isName, decide_eq_true_iff] at hname
  exact hname (mem_reserved_of_mem_keywords hk)

theorem PlainTable.nameText {name : String} (h : PlainTable name) :
    NameText name name (.word name) :=
  ⟨reads_identifier h.1, by simp [Token.name?, h.2]⟩

theorem PlainName.column? {name : String} (h : PlainName name) :
    (Token.word name).column? = some name := by
  rw [Token.column?, atom?_word h]

/-- A name is no keyword. -/
theorem isKeyword_of_name? {t : Token} {name keyword : String} (h : t.name? = some name)
    (hk : keyword ∈ keywords) : t.isKeyword keyword = false := by
  cases t with
  | word text =>
    rw [Token.name?] at h
    split_ifs at h with hmem
    rw [Token.isKeyword, decide_eq_false_iff_not]
    rintro rfl
    exact hmem hk
  | quoted mark text => rfl
  | number text => rfl
  | param text => rfl
  | symbol text => rfl

/-- An atom is no keyword but `NULL`. -/
theorem isKeyword_of_atom? {t : Token} {a : Atom} {keyword : String} (h : t.atom? = some a)
    (hk : keyword ∈ reserved) (hnull : keyword ≠ "NULL") : t.isKeyword keyword = false := by
  cases t with
  | word text =>
    rw [Token.isKeyword, decide_eq_false_iff_not]
    rintro rfl
    rw [Token.atom?, if_neg hnull, isName] at h
    simp [hk] at h
  | quoted mark text => rfl
  | number text => rfl
  | param text => rfl
  | symbol text => rfl

theorem splitAt?_append {keyword : String} {ts rest : List Token} {w : Token}
    (hts : ∀ t ∈ ts, t.isKeyword keyword = false) (hw : w.isKeyword keyword = true) :
    splitAt? keyword (ts ++ w :: rest) = some (ts, rest) := by
  have hpos : ∀ t ∈ ts, (!t.isKeyword keyword) = true := fun t ht => by rw [hts t ht]; rfl
  rw [splitAt?, List.dropWhile_append_of_pos hpos, List.takeWhile_append_of_pos hpos]
  simp [hw]

/-! ### Conditions and changes -/

theorem reads_equals {name : String} {t : Token} (h : Reads name.toList [t]) (n : ℕ) :
    Reads (name ++ " = " ++ ("?" ++ toString n)).toList
      [t, .symbol "=", .param ("?" ++ toString n)] :=
  reads_compare h .eq n

theorem key?_param {name : String} (h : PlainName name) (n : ℕ) :
    key? [.word name, .symbol "=", .param ("?" ++ toString n)] = some (name, .param n) := by
  rw [key?, h.column?, atom?_param]
  rfl

/-- A text that is read as a change. -/
def ChangeText (text : String) (change : String × Atom) : Prop :=
  ∃ ts, Reads text.toList ts ∧ change? ts = some change

/-- A change has no comma and no `WHERE` in it. -/
theorem change?_tokens {ts : List Token} {change : String × Atom} (h : change? ts = some change) :
    ∀ t ∈ ts, t ≠ .symbol "," ∧ t.isKeyword "WHERE" = false := by
  unfold change? at h
  split at h
  · rename_i c v
    obtain ⟨column, hc, h⟩ := Option.bind_eq_some_iff.mp h
    obtain ⟨value, hv, -⟩ := Option.map_eq_some_iff.mp h
    intro t ht
    simp only [List.mem_cons, List.not_mem_nil, or_false] at ht
    obtain rfl | rfl | rfl := ht
    · refine ⟨?_, isKeyword_of_name? hc (by decide)⟩
      rintro rfl
      cases hc
    · exact ⟨by decide, rfl⟩
    · refine ⟨?_, isKeyword_of_atom? hv (by decide) (by decide)⟩
      rintro rfl
      cases hv
  · cases h

theorem command?_insert (ts : List Token) :
    command? (.word "INSERT" :: .word "INTO" :: ts) = insert? ts := rfl

theorem command?_update (t : Token) (ts : List Token) :
    command? (.word "UPDATE" :: t :: ts) = update? (t :: ts) := rfl

theorem command?_delete (ts : List Token) :
    command? (.word "DELETE" :: .word "FROM" :: ts) = delete? ts := rfl

theorem command?_select {ts : List Token} (hne : ts ≠ []) :
    command? (.word "SELECT" :: ts) = select? ts := by
  cases ts with
  | nil => exact absurd rfl hne
  | cons t ts => rfl

theorem reads_key {key : String} (h : isIdentifier key = true) (n : ℕ) :
    Reads (key ++ " = ?" ++ toString n).toList
      [.word key, .symbol "=", .param ("?" ++ toString n)] := by
  simpa using reads_equals (reads_identifier h) n

/-- The tokens of an `UPDATE`. -/
theorem readCommand_update_eq {table key : String} (ht : PlainTable table)
    (hk : isIdentifier key = true) {texts : List String} {items : List (List Token)}
    (hreads : List.Forall₂ (fun text ts => Reads (String.toList text) ts) texts items)
    (hne : texts ≠ []) (n : ℕ) :
    readCommand ("UPDATE " ++ table ++ " SET " ++ Text.join ", " texts ++ " WHERE " ++ key
        ++ " = ?" ++ toString n)
      = update? (.word table :: .word "SET"
        :: (List.intercalate [.symbol ","] items ++ .word "WHERE" ::
          [.word key, .symbol "=", .param ("?" ++ toString n)])) := by
  have hset : Separator " SET " [.word "SET"] := ⟨by decide, by decide⟩
  have hhead : scan .start "UPDATE ".toList = some ([.word "UPDATE"], .start) := by decide
  have htext := Reads.after hhead (ht.nameText.reads.separate hset
    ((reads_join hreads hne).separate separator_where (reads_key hk n)))
  refine Eq.trans (readCommand_of_reads ?_) (command?_update _ _)
  simpa only [String.toList_append, List.append_assoc, List.cons_append, List.nil_append]
    using htext

/-- **Reading an `UPDATE`.** -/
theorem readCommand_update {table key : String} (ht : PlainTable table) (hk : PlainName key)
    {texts : List String} {changes : List (String × Atom)}
    (hchanges : List.Forall₂ ChangeText texts changes) (hne : texts ≠ []) (n : ℕ) :
    readCommand ("UPDATE " ++ table ++ " SET " ++ Text.join ", " texts ++ " WHERE " ++ key
      ++ " = ?" ++ toString n) = some (.update table changes key (.param n)) := by
  obtain ⟨items, hreads, hmeans⟩ := exists_middle hchanges
  have hne' := ne_nil_of_forall₂ hreads hne
  have htokens : ∀ ts ∈ items, ∀ t ∈ ts, t ≠ .symbol "," ∧ t.isKeyword "WHERE" = false :=
    fun ts hts => (exists_of_mem_left hmeans hts).elim fun _ h => change?_tokens h
  have hbefore : ∀ t ∈ List.intercalate [.symbol ","] items, t.isKeyword "WHERE" = false := by
    intro t h
    obtain rfl | ⟨ts, hts, h⟩ := mem_intercalate h
    · rfl
    · exact (htokens ts hts t h).2
  have hitems : (List.intercalate [.symbol ","] items).splitOn (.symbol ",") = items :=
    List.splitOn_intercalate _ (fun ts hts hmem => (htokens ts hts _ hmem).1 rfl) hne'
  rw [readCommand_update_eq ht hk.1 hreads hne, update?, if_pos (by decide), ht.nameText.means,
    Option.bind_some, splitAt?_append hbefore (by decide), Option.bind_some, hitems,
    mapM_eq_some_iff.mpr hmeans, Option.bind_some, key?_param hk]
  rfl

/-! ### The other statements -/

/-- The tokens of a `DELETE`. -/
theorem readCommand_delete_eq {table key : String} (ht : PlainTable table)
    (hk : isIdentifier key = true) (n : ℕ) :
    readCommand ("DELETE FROM " ++ table ++ " WHERE " ++ key ++ " = ?" ++ toString n)
      = delete? (.word table :: .word "WHERE" ::
          [.word key, .symbol "=", .param ("?" ++ toString n)]) := by
  have hhead : scan .start "DELETE FROM ".toList
      = some ([.word "DELETE", .word "FROM"], .start) := by decide
  have htext := Reads.after hhead (ht.nameText.reads.separate separator_where (reads_key hk n))
  refine Eq.trans (readCommand_of_reads ?_) (command?_delete _)
  simpa only [String.toList_append, List.append_assoc, List.cons_append, List.nil_append]
    using htext

/-- **Reading a `DELETE`.** -/
theorem readCommand_delete {table key : String} (ht : PlainTable table) (hk : PlainName key)
    (n : ℕ) :
    readCommand ("DELETE FROM " ++ table ++ " WHERE " ++ key ++ " = ?" ++ toString n)
      = some (.delete table key (.param n)) := by
  rw [readCommand_delete_eq ht hk.1, delete?, if_pos (by decide), ht.nameText.means,
    Option.bind_some, key?_param hk]
  rfl

/-- Identifiers are read as words. -/
theorem reads_words {columns : List String} (h : ∀ c ∈ columns, isIdentifier c = true) :
    List.Forall₂ (fun text ts => Reads (String.toList text) ts) columns
      (columns.map fun c => [Token.word c]) := by
  rw [List.forall₂_map_right_iff, List.forall₂_same]
  exact fun c hc => reads_identifier (h c hc)

/-- Words with commas between them, split at the commas. -/
theorem splitOn_words {columns : List String} (hne : columns ≠ []) :
    (List.intercalate [.symbol ","] (columns.map fun c => [Token.word c])).splitOn (.symbol ",")
      = columns.map fun c => [Token.word c] := by
  refine List.splitOn_intercalate _ (fun ts hts hmem => ?_) (by simpa using hne)
  obtain ⟨c, hc, rfl⟩ := List.mem_map.mp hts
  cases List.mem_singleton.mp hmem

/-- The tokens of a `SELECT`. -/
theorem readCommand_select_eq {table key : String} (ht : PlainTable table)
    (hk : isIdentifier key = true) {columns : List String}
    (hcolumns : ∀ c ∈ columns, isIdentifier c = true) (hne : columns ≠ []) (n : ℕ) :
    readCommand ("SELECT " ++ Text.join ", " columns ++ " FROM " ++ table ++ " WHERE " ++ key
        ++ " = ?" ++ toString n)
      = select? (List.intercalate [.symbol ","] (columns.map fun c => [Token.word c])
          ++ .word "FROM" :: .word table :: .word "WHERE" ::
            [.word key, .symbol "=", .param ("?" ++ toString n)]) := by
  have hhead : scan .start "SELECT ".toList = some ([.word "SELECT"], .start) := by decide
  have hfrom : Separator " FROM " [.word "FROM"] := ⟨by decide, by decide⟩
  have htext := Reads.after hhead ((reads_join (reads_words hcolumns) hne).separate hfrom
    (ht.nameText.reads.separate separator_where (reads_key hk n)))
  refine Eq.trans (readCommand_of_reads ?_) (command?_select (by simp))
  simpa only [String.toList_append, List.append_assoc, List.cons_append, List.nil_append]
    using htext

/-- **Reading a `SELECT`.** -/
theorem readCommand_select {table key : String} (ht : PlainTable table) (hk : PlainName key)
    {columns : List String} (hcolumns : ∀ c ∈ columns, PlainName c) (hne : columns ≠ [])
    (n : ℕ) :
    readCommand ("SELECT " ++ Text.join ", " columns ++ " FROM " ++ table ++ " WHERE " ++ key
      ++ " = ?" ++ toString n) = some (.select columns table key (.param n)) := by
  have hbefore : ∀ t ∈ List.intercalate [.symbol ","] (columns.map fun c => [Token.word c]),
      t.isKeyword "FROM" = false := by
    intro t h
    obtain rfl | ⟨ts, hts, h⟩ := mem_intercalate h
    · rfl
    · obtain ⟨c, hc, rfl⟩ := List.mem_map.mp hts
      obtain rfl := List.mem_singleton.mp h
      exact isKeyword_of_name? (hcolumns c hc).plainTable.nameText.means (by decide)
  have hmeans : (columns.map fun c => [Token.word c]).mapM (single Token.column?)
      = some columns := by
    rw [mapM_eq_some_iff, List.forall₂_map_left_iff, List.forall₂_same]
    exact fun c hc => (hcolumns c hc).column?
  rw [readCommand_select_eq ht hk.1 (fun c hc => (hcolumns c hc).1) hne, select?,
    splitAt?_append hbefore (by decide), Option.bind_some, splitOn_words hne, hmeans,
    Option.bind_some]
  dsimp only
  rw [if_pos (by decide), ht.nameText.means, Option.bind_some, key?_param hk]
  rfl

/-- Words are items of a list. -/
theorem isItem_words (columns : List String) :
    ∀ ts ∈ columns.map fun c => [Token.word c], IsItem ts := by
  intro ts hts
  obtain ⟨c, hc, rfl⟩ := List.mem_map.mp hts
  exact isItem_token ⟨nofun, nofun⟩ nofun

/-- Parameters as the items of a list. -/
theorem items_params (ns : List ℕ) :
    List.Forall₂ (fun text ts => Reads (String.toList text) ts)
        (ns.map fun n => "?" ++ toString n) (ns.map fun n => [Token.param ("?" ++ toString n)])
      ∧ (∀ ts ∈ ns.map fun n => [Token.param ("?" ++ toString n)], IsItem ts)
      ∧ (ns.map fun n => [Token.param ("?" ++ toString n)]).mapM (single Token.atom?)
        = some (ns.map .param) := by
  refine ⟨?_, fun ts hts => ?_, ?_⟩
  · simp only [List.forall₂_map_right_iff, List.forall₂_map_left_iff, List.forall₂_same]
    exact fun n _ => reads_param n
  · obtain ⟨n, -, rfl⟩ := List.mem_map.mp hts
    exact isItem_token ⟨nofun, nofun⟩ nofun
  · simp only [mapM_eq_some_iff, List.forall₂_map_right_iff, List.forall₂_map_left_iff,
      List.forall₂_same]
    exact fun n _ => atom?_param n

theorem insert?_open {t : Token} (us : List Token) (hus : us.length ≠ 1) :
    insert? (t :: .symbol "(" :: us)
      = (named (t :: .symbol "(" :: us)).bind fun table =>
        (table.items.mapM (single Token.name?)).bind fun columns =>
          match table.options with
          | v :: .symbol "(" :: us =>
            if v.isKeyword "VALUES" then
              match splitItems 0 [] us with
              | some (values, []) =>
                (values.mapM (single Token.atom?)).bind fun values =>
                  if values.length = columns.length then
                    some (.insert table.name columns values)
                  else none
              | _ => none
            else none
          | _ => none := by
  rw [insert?]
  rintro n d v h
  cases h
  exact hus rfl

/-- The tokens of an `INSERT`. -/
theorem readCommand_insert_eq {table : String} (ht : PlainTable table) {columns : List String}
    (hcolumns : ∀ c ∈ columns, isIdentifier c = true) (hne : columns ≠ []) {ns : List ℕ}
    (hns : ns ≠ []) :
    readCommand ("INSERT INTO " ++ table ++ " (" ++ Text.join ", " columns ++ ") VALUES ("
        ++ Text.join ", " (ns.map fun n => "?" ++ toString n) ++ ")")
      = insert? (.word table :: .symbol "("
        :: (List.intercalate [.symbol ","] (columns.map fun c => [Token.word c])
          ++ .symbol ")" :: .word "VALUES" :: .symbol "("
          :: (List.intercalate [.symbol ","] (ns.map fun n => [Token.param ("?" ++ toString n)])
            ++ [.symbol ")"]))) := by
  obtain ⟨hparams, -, -⟩ := items_params ns
  have hhead : scan .start "INSERT INTO ".toList
      = some ([.word "INSERT", .word "INTO"], .start) := by decide
  have hvalues : Separator " VALUES (" [.word "VALUES", .symbol "("] := ⟨by decide, by decide⟩
  have hrest : Reads (')' :: (" VALUES (".toList
        ++ ((Text.join ", " (ns.map fun n => "?" ++ toString n)).toList ++ [')'])))
      (.symbol ")" :: .word "VALUES" :: .symbol "("
        :: (List.intercalate [.symbol ","] (ns.map fun n => [Token.param ("?" ++ toString n)])
          ++ [.symbol ")"])) :=
    reads_close.separate hvalues
      ((reads_join hparams (by simpa using hns)).append (by decide) reads_close)
  have htext := Reads.after hhead (reads_named ht.nameText (reads_words hcolumns) hne hrest)
  refine Eq.trans (readCommand_of_reads ?_) (command?_insert _)
  simpa only [show ") VALUES (".toList = ')' :: " VALUES (".toList from rfl,
    String.toList_append, List.append_assoc, List.cons_append, List.nil_append,
    show ")".toList = [')'] from rfl] using htext

/-- **Reading an `INSERT`.** -/
theorem readCommand_insert {table : String} (ht : PlainTable table) {columns : List String}
    (hcolumns : ∀ c ∈ columns, PlainTable c) (hne : columns ≠ []) {ns : List ℕ}
    (hlength : ns.length = columns.length) :
    readCommand ("INSERT INTO " ++ table ++ " (" ++ Text.join ", " columns ++ ") VALUES ("
      ++ Text.join ", " (ns.map fun n => "?" ++ toString n) ++ ")")
      = some (.insert table columns (ns.map .param)) := by
  obtain ⟨hparams, hparamItems, hparamMeans⟩ := items_params ns
  have hns : ns ≠ [] := fun h => hne (List.length_eq_zero_iff.mp (by rw [← hlength, h]; rfl))
  have hparamNe := ne_nil_of_forall₂ hparams (by simpa using hns)
  have hnameMeans : (columns.map fun c => [Token.word c]).mapM (single Token.name?)
      = some columns := by
    rw [mapM_eq_some_iff, List.forall₂_map_left_iff, List.forall₂_same]
    exact fun c hc => (hcolumns c hc).nameText.means
  rw [readCommand_insert_eq ht (fun c hc => (hcolumns c hc).1) hne hns,
    insert?_open _ (by simp only [List.length_append, List.length_cons]; omega),
    named_intercalate ht.nameText (isItem_words columns) (by simpa using hne), Option.bind_some,
    hnameMeans, Option.bind_some]
  have hkeyword : (Token.word "VALUES").isKeyword "VALUES" = true := by decide
  simp only [hkeyword, if_true, splitItems_intercalate hparamItems hparamNe, hparamMeans,
    Option.bind_some, List.length_map, hlength]

/-- **Reading an `INSERT` of defaults.** -/
theorem readCommand_insertDefaults {table : String} (ht : PlainTable table) :
    readCommand ("INSERT INTO " ++ table ++ " DEFAULT VALUES")
      = some (.insertDefaults table) := by
  have hhead : scan .start "INSERT INTO ".toList
      = some ([.word "INSERT", .word "INTO"], .start) := by decide
  have hend : Reads " DEFAULT VALUES".toList [.word "DEFAULT", .word "VALUES"] :=
    Reads.of_scan (u := [.word "DEFAULT"]) (s := .word ['V', 'A', 'L', 'U', 'E', 'S'])
      (by decide) (by decide) rfl
  have htext : Reads ("INSERT INTO ".toList ++ (table.toList ++ " DEFAULT VALUES".toList))
      [.word "INSERT", .word "INTO", .word table, .word "DEFAULT", .word "VALUES"] :=
    Reads.after hhead (ht.nameText.reads.append (by decide) hend)
  have hread : readCommand ("INSERT INTO " ++ table ++ " DEFAULT VALUES")
      = command? [.word "INSERT", .word "INTO", .word table, .word "DEFAULT", .word "VALUES"] := by
    refine readCommand_of_reads ?_
    simpa only [String.toList_append, List.append_assoc, List.cons_append, List.nil_append]
      using htext
  rw [hread, command?_insert, insert?, if_pos (by decide), ht.nameText.means]
  rfl

/-- **The text of an index is read as the index.** -/
theorem readCommand_indexOn {head nameText name tableText table columnText column : String}
    {heads : List Token} {n t c : Token} (unique : Bool)
    (hhead : scan .start head.toList = some (heads, .start))
    (hcreate : ∀ ts, command? (heads ++ n :: .word "ON" :: ts)
      = (n.name?.bind fun name => (named ts).map fun t =>
          IndexText.mk unique name t.name t.items t.options).bind fun index =>
        match index.items, index.options with
        | [item], [] =>
          (single Token.column? item).map (.createIndex index.unique index.name index.table)
        | _, _ => none)
    (hn : NameText nameText name n) (ht : NameText tableText table t)
    (hc : Reads columnText.toList [c]) (hcolumn : c.column? = some column) (hitem : IsItem [c]) :
    readCommand (head ++ nameText ++ " ON " ++ tableText ++ " (" ++ columnText ++ ")")
      = some (.createIndex unique name table column) := by
  have hon : Separator " ON " [.word "ON"] := ⟨by decide, by decide⟩
  have htail := Reads.after hhead (hn.reads.separate hon
    (reads_named ht (.cons hc .nil) (List.cons_ne_nil _ _) reads_close))
  have hread : readCommand (head ++ nameText ++ " ON " ++ tableText ++ " (" ++ columnText ++ ")")
      = command? (heads ++ n :: .word "ON" :: t :: .symbol "("
        :: (List.intercalate [.symbol ","] [[c]] ++ [.symbol ")"])) := by
    refine readCommand_of_reads ?_
    simpa only [String.toList_append, List.append_assoc, List.cons_append, List.nil_append,
      Text.join, show ")".toList = [')'] from rfl] using htail
  rw [hread, hcreate, hn.means, Option.bind_some,
    named_intercalate ht (List.forall_mem_singleton.mpr hitem) (List.cons_ne_nil _ _)]
  show (single Token.column? [c]).map _ = _
  rw [single, hcolumn]
  rfl

/-- **Reading a `CREATE INDEX`.** -/
theorem readCommand_createIndex {name table column : String} (hn : PlainTable name)
    (ht : PlainTable table) (hc : PlainName column) (unique : Bool) :
    readCommand ("CREATE " ++ (if unique then "UNIQUE " else "") ++ "INDEX IF NOT EXISTS "
      ++ name ++ " ON " ++ table ++ " (" ++ column ++ ")")
      = some (.createIndex unique name table column) := by
  have hread := reads_identifier hc.1
  have hitem : IsItem [.word column] := isItem_token ⟨nofun, nofun⟩ nofun
  cases unique with
  | true =>
    have hhead : scan .start "CREATE UNIQUE INDEX IF NOT EXISTS ".toList
        = some ([.word "CREATE", .word "UNIQUE", .word "INDEX", .word "IF", .word "NOT",
          .word "EXISTS"], .start) := by decide
    exact readCommand_indexOn true hhead (fun _ => rfl) hn.nameText ht.nameText hread hc.column?
      hitem
  | false =>
    have hhead : scan .start "CREATE INDEX IF NOT EXISTS ".toList
        = some ([.word "CREATE", .word "INDEX", .word "IF", .word "NOT", .word "EXISTS"],
          .start) := by decide
    exact readCommand_indexOn false hhead (fun _ => rfl) hn.nameText ht.nameText hread hc.column?
      hitem

/-! ## Names that come out as they went in -/

theorem says_of_column? {t : Token} {name : String} (h : t.column? = some name) :
    (t = .word name ∧ isName name = true) ∨ ∃ mark, t = .quoted mark name := by
  unfold Token.column? at h
  split at h
  · rename_i column ha
    cases h
    cases t with
    | word text =>
      rw [Token.atom?] at ha
      split_ifs at ha with hnull hname
      · cases ha
      · cases ha
        exact Or.inl ⟨rfl, hname⟩
    | quoted mark text =>
      rw [Token.atom?] at ha
      split_ifs at ha
      all_goals cases ha
      exact Or.inr ⟨mark, rfl⟩
    | number text =>
      obtain ⟨n, -, ha⟩ := Option.bind_eq_some_iff.mp ha
      split_ifs at ha
      cases ha
    | param text =>
      rw [Token.atom?] at ha
      split at ha
      · obtain ⟨n, -, ha⟩ := Option.map_eq_some_iff.mp ha
        cases ha
      · cases ha
    | symbol text => cases ha
  · cases h

theorem says_of_name? {t : Token} {name : String} (h : t.name? = some name) :
    (t = .word name ∧ Text.toAsciiUppercase name ∉ keywords) ∨ ∃ mark, t = .quoted mark name := by
  cases t with
  | word text =>
    rw [Token.name?] at h
    split_ifs at h with hk
    cases h
    exact Or.inl ⟨rfl, hk⟩
  | quoted mark text =>
    cases h
    exact Or.inr ⟨mark, rfl⟩
  | number text => cases h
  | param text => cases h
  | symbol text => cases h

theorem splitAt?_eq_some {keyword : String} {ts a b : List Token}
    (h : splitAt? keyword ts = some (a, b)) : ∃ w, ts = a ++ w :: b := by
  unfold splitAt? at h
  split at h
  · rename_i w rest hdrop
    cases h
    refine ⟨w, ?_⟩
    rw [← hdrop, List.takeWhile_append_dropWhile]
  · cases h

/-- The columns of a `SELECT`, with what follows them. -/
def columnParts : List String → List Part
  | [] => []
  | [c] => [⟨c, " FROM ".toList, 1, fun name => isName name = true⟩]
  | c :: cs => ⟨c, ", ".toList, 1, fun name => isName name = true⟩ :: columnParts cs

/-- The table and the key of a `SELECT`, with what follows them. -/
def conditionParts (table key : String) : List Part :=
  [⟨table, " WHERE ".toList, 1, fun name => Text.toAsciiUppercase name ∉ keywords⟩,
    ⟨key, " = ".toList, 1, fun name => isName name = true⟩]

theorem separates_of_all {name : String} {after : List Char} {count : ℕ}
    {accepts : String → Prop}
    (h : (closingMarks.all (fun mark => mark ∉ after)
      && after.tails.all (fun l =>
        (scan .start l).any (fun p => p.2 = .start ∧ p.1.length ≤ count))) = true) :
    Part.Separates ⟨name, after, count, accepts⟩ := by
  rw [Bool.and_eq_true, List.all_eq_true, List.all_eq_true] at h
  refine ⟨fun mark hm => of_decide_eq_true (h.1 mark hm), fun l hl => ?_⟩
  have hl := h.2 l hl
  cases hscan : scan .start l with
  | none => simp [hscan] at hl
  | some p =>
    rw [hscan] at hl
    obtain ⟨hstart, hlength⟩ := of_decide_eq_true hl
    exact ⟨p.1, by rw [← hstart], hlength⟩

theorem columnParts_separates {columns : List String} :
    ∀ part ∈ columnParts columns, part.Separates := by
  induction columns with
  | nil => exact fun part h => absurd h List.not_mem_nil
  | cons c columns ih =>
    cases columns with
    | nil =>
      intro part h
      obtain rfl := List.mem_singleton.mp h
      exact separates_of_all (by decide)
    | cons d columns =>
      intro part h
      obtain rfl | h := List.mem_cons.mp h
      · exact separates_of_all (by decide)
      · exact ih part h

theorem conditionParts_separates {table key : String} :
    ∀ part ∈ conditionParts table key, part.Separates := by
  intro part h
  obtain rfl | h := List.mem_cons.mp h
  · exact separates_of_all (by decide)
  · obtain rfl := List.mem_singleton.mp h
    exact separates_of_all (by decide)

/-- The text of columns is woven of them. -/
theorem woven_columns {columns : List String} (hne : columns ≠ []) (rest : List Part)
    (final : List Char) :
    woven (columnParts columns ++ rest) final
      = (Text.join ", " columns).toList ++ (" FROM ".toList ++ woven rest final) := by
  induction columns with
  | nil => exact absurd rfl hne
  | cons c columns ih =>
    cases columns with
    | nil => rfl
    | cons d columns =>
      have ih := ih (List.cons_ne_nil d columns)
      rw [columnParts, List.cons_append, woven, List.foldr_cons, ← woven, ih,
        show Text.join ", " (c :: d :: columns) = c ++ ", " ++ Text.join ", " (d :: columns) from rfl]
      · simp only [String.toList_append, List.append_assoc]
      · exact List.cons_ne_nil d columns

theorem mem_columnParts {columns : List String} {c : String} (h : c ∈ columns) :
    ∃ after, (⟨c, after, 1, fun name => isName name = true⟩ : Part) ∈ columnParts columns := by
  induction columns with
  | nil => exact absurd h List.not_mem_nil
  | cons d columns ih =>
    cases columns with
    | nil =>
      obtain rfl := List.mem_singleton.mp h
      exact ⟨_, List.mem_singleton.mpr rfl⟩
    | cons e columns =>
      obtain rfl | h := List.mem_cons.mp h
      · exact ⟨_, List.mem_cons_self⟩
      · obtain ⟨after, hafter⟩ := ih h
        exact ⟨after, List.mem_cons_of_mem _ hafter⟩

theorem not_mem_param {mark : Char} (hm : mark ∈ closingMarks) (n : ℕ) :
    mark ∉ ("?" ++ toString n).toList := by
  have hmarks : closingMarks.all (fun mark => mark ≠ '?' && !mark.isDigit) = true := by decide
  have hmark := List.all_eq_true.mp hmarks mark hm
  rw [String.toList_append]
  intro h
  obtain h | h := List.mem_append.mp h
  · obtain rfl : mark = '?' := List.mem_singleton.mp h
    cases hmark
  · rw [isDigit_of_mem_toString mark h] at hmark
    simp at hmark

/-- The tokens of columns say them. -/
theorem says_columns {items : List (List Token)} {columns : List String}
    (h : List.Forall₂ (fun ts column => single Token.column? ts = some column) items columns)
    (f : Token) {rest : List Part} {vs : List Token} (hrest : Woven rest vs)
    (hne : columns ≠ []) :
    Woven (columnParts columns ++ rest) (List.intercalate [.symbol ","] items ++ f :: vs) := by
  induction h with
  | nil => exact absurd rfl hne
  | @cons ts column items columns hcolumn htail ih =>
    obtain ⟨t, rfl⟩ : ∃ t, ts = [t] := by
      unfold single at hcolumn
      split at hcolumn
      · exact ⟨_, rfl⟩
      · cases hcolumn
    have hsays := says_of_column? hcolumn
    cases htail with
    | nil => exact ⟨t, [f], vs, rfl, hsays, rfl, hrest⟩
    | cons hd htail =>
      refine ⟨t, [.symbol ","], _, ?_, hsays, rfl, ih (List.cons_ne_nil _ _)⟩
      rw [intercalate_cons_cons]
      rfl

theorem key?_eq_some {ts : List Token} {key : String} {value : Atom}
    (h : key? ts = some (key, value)) :
    ∃ c v, ts = [c, .symbol "=", v] ∧ c.column? = some key := by
  unfold key? at h
  split at h
  · rename_i c v
    obtain ⟨column, hc, h⟩ := Option.bind_eq_some_iff.mp h
    obtain ⟨value, hv, h⟩ := Option.map_eq_some_iff.mp h
    cases h
    exact ⟨c, v, rfl, hc⟩
  · cases h

/-- The tokens of a `SELECT` say its names. -/
theorem says_select {ts : List Token} {columns : List String} {table key : String} {value : Atom}
    (h : select? ts = some (.select columns table key value)) (hne : columns ≠ []) :
    Woven (columnParts columns ++ conditionParts table key) ts := by
  unfold select? at h
  obtain ⟨⟨before, after⟩, hsplit, h₁⟩ := Option.bind_eq_some_iff.mp h
  obtain ⟨columns', hcolumns, h₂⟩ := Option.bind_eq_some_iff.mp h₁
  obtain ⟨f, hts⟩ := splitAt?_eq_some hsplit
  dsimp only at h₂ hcolumns
  split at h₂
  · rename_i n w us
    split_ifs at h₂
    obtain ⟨table', hn, h₃⟩ := Option.bind_eq_some_iff.mp h₂
    obtain ⟨⟨key', value'⟩, hkey, h₄⟩ := Option.map_eq_some_iff.mp h₃
    cases h₄
    obtain ⟨c, v, rfl, hc⟩ := key?_eq_some hkey
    have hcondition : Woven (conditionParts table key') (n :: w :: [c, .symbol "=", v]) :=
      ⟨n, [w], _, rfl, says_of_name? hn, rfl, c, [.symbol "="], [v], rfl, says_of_column? hc, rfl,
        trivial⟩
    have hsays := says_columns (mapM_eq_some_iff.mp hcolumns) f hcondition hne
    rw [List.intercalate_splitOn] at hsays
    rw [hts]
    exact hsays
  · cases h₂

theorem eq_select_of_command? {ts : List Token} {c : Command}
    (h : command? (.word "SELECT" :: ts) = some c) : select? ts = some c := by
  cases ts with
  | nil => cases h
  | cons t ts => exact h

/-- **Reading a `SELECT` that names what was put into it.** -/
theorem readCommand_select_iff {table key : String} {columns : List String} (hne : columns ≠ [])
    (n : ℕ) :
    readCommand ("SELECT " ++ Text.join ", " columns ++ " FROM " ++ table ++ " WHERE " ++ key
        ++ " = ?" ++ toString n) = some (.select columns table key (.param n))
      ↔ PlainTable table ∧ PlainName key ∧ ∀ c ∈ columns, PlainName c := by
  constructor
  · intro h
    obtain ⟨ts, hts, hcommand⟩ := Option.bind_eq_some_iff.mp h
    have hhead : scan .start "SELECT ".toList = some ([.word "SELECT"], .start) := by decide
    have htext : ("SELECT " ++ Text.join ", " columns ++ " FROM " ++ table ++ " WHERE " ++ key
        ++ " = ?" ++ toString n).toList = "SELECT ".toList
          ++ woven (columnParts columns ++ conditionParts table key) ("?" ++ toString n).toList := by
      rw [woven_columns hne]
      simp only [String.toList_append, List.append_assoc, conditionParts, woven, List.foldr]
      rfl
    rw [tokens_eq_lex, htext, lex_append hhead] at hts
    obtain ⟨us, hus, rfl⟩ := Option.map_eq_some_iff.mp hts
    have hsays := says_select (eq_select_of_command? hcommand) hne
    have hparts : ∀ part ∈ columnParts columns ++ conditionParts table key, part.Separates := by
      intro part h
      obtain h | h := List.mem_append.mp h
      · exact columnParts_separates part h
      · exact conditionParts_separates part h
    have hall := Woven.identifiers hparts (fun mark hm => not_mem_param hm n) hus hsays
    refine ⟨?_, ?_, fun c hc => ?_⟩
    · exact hall ⟨table, _, _, _⟩ (List.mem_append_right _ List.mem_cons_self)
    · exact hall ⟨key, _, _, _⟩
        (List.mem_append_right _ (List.mem_cons_of_mem _ (List.mem_singleton.mpr rfl)))
    · obtain ⟨after, hafter⟩ := mem_columnParts hc
      exact hall _ (List.mem_append_left _ hafter)
  · rintro ⟨ht, hk, hcolumns⟩
    exact readCommand_select ht hk hcolumns hne n

/-! ## Texts that are not read -/

/-- **A text that is not read**, whatever follows it. -/
def Unread (text : List Char) : Prop := ∀ rest, scan .start (text ++ rest) = none

theorem Unread.append {a : List Char} (h : Unread a) (b : List Char) : Unread (a ++ b) :=
  fun rest => by rw [List.append_assoc, h]

theorem unread_after {a b : List Char} {ts : List Token}
    (ha : scan .start a = some (ts, .start)) (hb : Unread b) : Unread (a ++ b) := fun rest => by
  rw [List.append_assoc, scan_append, ha, Option.bind_some, hb]
  rfl

/-- A piece that is read does not keep the rest from not being read. -/
theorem Reads.unread {a b : List Char} {c : Char} {ts : List Token} (ha : Reads a ts)
    (hc : c ∈ breaks) (hb : Unread (c :: b)) : Unread (a ++ c :: b) := fun rest => by
  obtain ⟨us, s, vs, hscan, hfinish, hended, rfl⟩ := ha
  rw [List.append_assoc, scan_append, hscan, Option.bind_some, List.cons_append,
    scan_of_ended hfinish hended hc, ← List.cons_append, hb]
  rfl

theorem Reads.unread_separate {a b : List Char} {sep : String} {ts us : List Token}
    (ha : Reads a ts) (hsep : Separator sep us) (hb : Unread b) :
    Unread (a ++ (sep.toList ++ b)) := by
  have hbegins := hsep.begins
  have hafter := unread_after hsep.reads hb
  cases hl : sep.toList with
  | nil => simp [hl] at hbegins
  | cons c cs =>
    rw [hl] at hbegins hafter
    exact ha.unread (by simpa using hbegins) hafter

theorem unread_quotation {mark : Char} (hm : IsQuotation mark) {text : List Char}
    (h : '\x00' ∈ text) : Unread (mark :: (Text.replaceChar mark [mark, mark] text ++ [mark])) := by
  intro rest
  have hopen : ∀ l, scan .start (mark :: l) = scan (.quoted mark []) l := fun l => by
    simp [scan, State.step, State.extend, State.finish, hm.begins]
  rw [List.cons_append, hopen, List.append_assoc]
  exact scan_quoted_nul hm.closes hm.ne_nul h [] _

/-- **One piece that is not read** keeps the whole list from being read. -/
theorem unread_join {texts : List String}
    (htexts : ∀ text ∈ texts, (∃ ts, Reads text.toList ts) ∨ Unread text.toList)
    (h : ∃ text ∈ texts, Unread text.toList) : Unread (Text.join ", " texts).toList := by
  induction texts with
  | nil =>
    obtain ⟨text, hmem, -⟩ := h
    exact absurd hmem List.not_mem_nil
  | cons text texts ih =>
    have hcomma : Separator ", " [.symbol ","] := ⟨by decide, by decide⟩
    cases texts with
    | nil =>
      obtain ⟨text', hmem, hunread⟩ := h
      obtain rfl := List.mem_singleton.mp hmem
      exact hunread
    | cons text' texts =>
      rw [show Text.join ", " (text :: text' :: texts)
        = text ++ ", " ++ Text.join ", " (text' :: texts) from rfl, String.toList_append,
        String.toList_append, List.append_assoc]
      obtain ⟨ts, hts⟩ | hunread := htexts text List.mem_cons_self
      · by_cases hrest : ∃ text ∈ text' :: texts, Unread text.toList
        · exact hts.unread_separate hcomma
            (ih (fun t ht => htexts t (List.mem_cons_of_mem _ ht)) hrest)
        · obtain ⟨t, hmem, hunread⟩ := h
          obtain rfl | hmem := List.mem_cons.mp hmem
          · exact hunread.append _
          · exact absurd ⟨t, hmem, hunread⟩ hrest
      · exact hunread.append _

theorem Unread.tokens_eq {text : String} (h : Unread text.toList) : tokens text = none := by
  have hscan := h []
  rw [List.append_nil] at hscan
  rw [tokens, hscan]
  rfl

theorem Unread.readCommand {text : String} (h : Unread text.toList) :
    Sql.readCommand text = none := by
  rw [Sql.readCommand, h.tokens_eq]
  rfl

end Sql
