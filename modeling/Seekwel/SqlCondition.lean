import Mathlib.Data.List.Forall2
import Seekwel.SqlLexer

/-!
# SQL conditions

What a condition of a `WHERE` clause says: its syntax as SQL's precedence
has it, and its value on a row under three-valued logic.

The values are those of a `Domain`, which says how two of them compare. What
a comparison finds may depend on the columns compared, whose types decide
about conversions and collations, so the order takes their names.

The reader covers names, numerals, parameters, comparisons, `IS`, `IN`,
`NOT`, `AND` and `OR`, and parentheses. A text outside this fragment is not
read. `Parses` says that a list of tokens is read as an expression wherever
it stands whole or in parentheses, and `Parses.and`, `Parses.or` put two
such lists together.
-/

namespace Sql

/-! ## Three-valued logic -/

/-- **A truth value** of SQL. -/
inductive Truth where
  | yes
  | no
  | unknown
  deriving DecidableEq

namespace Truth

def ofBool (b : Bool) : Truth := if b then yes else no

def not : Truth → Truth
  | yes => no
  | no => yes
  | unknown => unknown

def and : Truth → Truth → Truth
  | no, _ => no
  | _, no => no
  | yes, yes => yes
  | _, _ => unknown

def or : Truth → Truth → Truth
  | yes, _ => yes
  | _, yes => yes
  | no, no => no
  | _, _ => unknown

@[simp] theorem and_eq_yes {p q : Truth} : p.and q = yes ↔ p = yes ∧ q = yes := by
  cases p <;> cases q <;> decide

@[simp] theorem or_eq_yes {p q : Truth} : p.or q = yes ↔ p = yes ∨ q = yes := by
  cases p <;> cases q <;> decide

end Truth

/-! ## Expressions -/

inductive Operator where
  | eq
  | ne
  | lt
  | le
  | gt
  | ge
  deriving DecidableEq

/-- Whether an operator holds of two values that are in this order. -/
def Operator.holds : Operator → Ordering → Bool
  | eq, o => o.isEq
  | ne, o => o.isNe
  | lt, o => o.isLT
  | le, o => o.isLE
  | gt, o => o.isGT
  | ge, o => o.isGE

/-- An expression without parts. -/
inductive Atom where
  | null
  | integer (n : ℕ)
  | column (name : String)
  | param (n : ℕ)
  deriving DecidableEq

/-- **An expression.** -/
inductive Expr where
  | atom (a : Atom)
  | compare (op : Operator) (l r : Expr)
  | is (l r : Expr)
  | isNot (l r : Expr)
  | mem (e : Expr) (items : List Atom)
  | not (e : Expr)
  | and (l r : Expr)
  | or (l r : Expr)
  deriving DecidableEq

/-- The column an expression is, if it is one. -/
def Expr.column? : Expr → Option String
  | atom (.column name) => some name
  | _ => none

/-! ## Values -/

/-- **The values expressions take.** -/
structure Domain (V : Type) where
  null : V
  integer : ℤ → V
  isNull : V → Bool
  /-- A value as a condition. -/
  truth : V → Truth
  /-- The value of a condition. -/
  ofTruth : Truth → V
  /-- The order of two values that are not null, given the columns they are
  the values of. -/
  order : Option String → Option String → V → V → Ordering
  truth_ofTruth : ∀ t, truth (ofTruth t) = t
  isNull_null : isNull null = true
  isNull_integer : ∀ n, isNull (integer n) = false
  order_integer : ∀ m n, order none none (integer m) (integer n) = Ord.compare m n

section Values

variable {V : Type} (D : Domain V)

/-- A comparison: unknown if one of the values is null. -/
def Domain.compare (op : Operator) (l r : Option String) (x y : V) : Truth :=
  if D.isNull x || D.isNull y then .unknown else .ofBool (op.holds (D.order l r x y))

/-- Whether two values are the same, for which null is a value like any
other. -/
def Domain.same (l r : Option String) (x y : V) : Truth :=
  if D.isNull x || D.isNull y then .ofBool (D.isNull x && D.isNull y)
  else .ofBool (D.order l r x y).isEq

/-- Whether a value equals one of a list. -/
def Domain.mem (l : Option String) (x : V) (ys : List V) : Truth :=
  ys.foldr (fun y t => (D.compare .eq l none x y).or t) .no

def Atom.eval (row : String → V) (params : List V) : Atom → V
  | null => D.null
  | integer n => D.integer n
  | column name => row name
  | param n => (params[n - 1]?).getD D.null

/-- **The value of an expression** on a row, with the parameters bound in
order. -/
def Expr.eval (row : String → V) (params : List V) : Expr → V
  | atom a => a.eval D row params
  | compare op l r =>
    D.ofTruth (D.compare op l.column? r.column? (l.eval row params) (r.eval row params))
  | is l r => D.ofTruth (D.same l.column? r.column? (l.eval row params) (r.eval row params))
  | isNot l r =>
    D.ofTruth (D.same l.column? r.column? (l.eval row params) (r.eval row params)).not
  | mem e items =>
    D.ofTruth (D.mem e.column? (e.eval row params) (items.map (Atom.eval D row params)))
  | not e => D.ofTruth (D.truth (e.eval row params)).not
  | and l r => D.ofTruth ((D.truth (l.eval row params)).and (D.truth (r.eval row params)))
  | or l r => D.ofTruth ((D.truth (l.eval row params)).or (D.truth (r.eval row params)))

/-- An expression as a condition. -/
def Expr.holds (row : String → V) (params : List V) (e : Expr) : Truth :=
  D.truth (e.eval D row params)

end Values

/-! ## Words -/

/-- The words that SQLite does not take for a name, or not at the place of
an expression. -/
def reserved : List String :=
  ["ADD", "ALL", "ALTER", "AND", "AS", "AUTOINCREMENT", "BETWEEN", "CASE", "CHECK",
    "COLLATE", "COMMIT", "CONSTRAINT", "CREATE", "DEFAULT", "DEFERRABLE", "DELETE",
    "DISTINCT", "DROP", "ELSE", "ESCAPE", "EXCEPT", "EXISTS", "FOREIGN", "FROM", "GROUP",
    "HAVING", "IN", "INDEX", "INSERT", "INTERSECT", "INTO", "IS", "ISNULL", "JOIN",
    "LIMIT", "NOT", "NOTHING", "NOTNULL", "NULL", "ON", "OR", "ORDER", "PRIMARY",
    "REFERENCES", "RETURNING", "SELECT", "SET", "TABLE", "THEN", "TO", "TRANSACTION",
    "UNION", "UNIQUE", "UPDATE", "USING", "VALUES", "WHEN", "WHERE",
    "CAST", "RAISE", "CURRENT_DATE", "CURRENT_TIME", "CURRENT_TIMESTAMP"]

/-- Whether a word is a name at the place of an expression. -/
def isName (word : String) : Bool := Text.toAsciiUppercase word ∉ reserved

/-- **A plain identifier**: a name that is read as itself without quotes. -/
def PlainName (name : String) : Prop := isIdentifier name = true ∧ isName name = true

instance (name : String) : Decidable (PlainName name) := inferInstanceAs (Decidable (_ ∧ _))

/-! ## The reader -/

/-- What stands between two operands. -/
inductive Infix where
  | or
  | and
  | compare (op : Operator)
  | is
  | isNot
  deriving DecidableEq

/-- How tightly an operator binds. The level between `AND` and the
comparisons is that of `NOT`. -/
def Infix.level : Infix → ℕ
  | or => 1
  | and => 2
  | compare .eq => 4
  | compare .ne => 4
  | is => 4
  | isNot => 4
  | compare _ => 5

/-- The expression an operator makes of two. -/
def Infix.node : Infix → Expr → Expr → Expr
  | or => .or
  | and => .and
  | compare op => .compare op
  | is => .is
  | isNot => .isNot

/-- The operator a list of tokens begins with. -/
def infix? : List Token → Option (Infix × List Token)
  | .symbol s :: ts =>
    if s = "=" || s = "==" then some (.compare .eq, ts)
    else if s = "!=" || s = "<>" then some (.compare .ne, ts)
    else if s = "<" then some (.compare .lt, ts)
    else if s = "<=" then some (.compare .le, ts)
    else if s = ">" then some (.compare .gt, ts)
    else if s = ">=" then some (.compare .ge, ts)
    else none
  | t :: ts =>
    if t.isKeyword "OR" then some (.or, ts)
    else if t.isKeyword "AND" then some (.and, ts)
    else if t.isKeyword "IS" then
      match ts with
      | t :: ts' => if t.isKeyword "NOT" then some (.isNot, ts') else some (.is, ts)
      | [] => some (.is, ts)
    else none
  | [] => none

/-- The number a text of digits denotes. -/
def natural? (digits : List Char) : Option ℕ :=
  if digits ≠ [] && digits.all Char.isDigit then some (Nat.ofDigitChars 10 digits 0) else none

/-- An atom. A numeral is one if it is an integer of 64 bits. -/
def Token.atom? : Token → Option Atom
  | word text =>
    if Text.toAsciiUppercase text = "NULL" then some .null
    else if Sql.isName text then some (.column text)
    else none
  | quoted mark text => if mark = '\'' then none else some (.column text)
  | number text =>
    (natural? text.toList).bind fun n => if n < 2 ^ 63 then some (.integer n) else none
  | param text =>
    match text.toList with
    | '?' :: digits => (natural? digits).map .param
    | _ => none
  | symbol _ => none

/-- The rest of a list in parentheses: atoms with commas between them. -/
def items : List Token → Option (List Atom × List Token)
  | t :: .symbol s :: ts =>
    t.atom?.bind fun a =>
      if s = ")" then some ([a], ts)
      else if s = "," then (items ts).map fun p => (a :: p.1, p.2)
      else none
  | _ => none

/-- A list in parentheses. -/
def list? : List Token → Option (List Atom × List Token)
  | .symbol "(" :: .symbol ")" :: ts => some ([], ts)
  | .symbol "(" :: ts => items ts
  | _ => none

/-- What follows a value of which it is asked whether it is in a list. -/
def membership? : List Token → Option (List Atom × List Token)
  | t :: ts => if t.isKeyword "IN" then list? ts else none
  | [] => none

mutual

/-- **An expression** whose operators bind at least as tightly as `level`
says, and the tokens after it. -/
def expr : ℕ → ℕ → List Token → Option (Expr × List Token)
  | 0, _, _ => none
  | fuel + 1, level, ts => (operand fuel ts).bind fun p => operators fuel level p.1 p.2

/-- What an expression begins with. -/
def operand : ℕ → List Token → Option (Expr × List Token)
  | 0, _ => none
  | _ + 1, [] => none
  | fuel + 1, t :: ts =>
    if t = .symbol "(" then
      (expr fuel 0 ts).bind fun p =>
        match p.2 with
        | .symbol ")" :: ts => some (p.1, ts)
        | _ => none
    else if t.isKeyword "NOT" then (expr fuel 3 ts).map fun p => (.not p.1, p.2)
    else t.atom?.map fun a => (.atom a, ts)

/-- What goes on from an expression by operators. -/
def operators : ℕ → ℕ → Expr → List Token → Option (Expr × List Token)
  | 0, _, _, _ => none
  | fuel + 1, level, e, ts =>
    match infix? ts with
    | some (op, ts') =>
      if op.level < level then some (e, ts)
      else
        (expr fuel (op.level + 1) ts').bind fun p =>
          operators fuel level (op.node e p.1) p.2
    | none =>
      match membership? ts with
      | some p => if 4 < level then some (e, ts) else operators fuel level (.mem e p.1) p.2
      | none => some (e, ts)

end

/-- **The expression a text is.** -/
def parse (text : String) : Option Expr :=
  (tokens text).bind fun ts =>
    match expr (2 * ts.length + 2) 0 ts with
    | some (e, []) => some e
    | _ => none

/-! ## Reading what was written -/

/-- Whether an expression cannot go on with these tokens. -/
def Stops (ts : List Token) : Prop := infix? ts = none ∧ membership? ts = none

theorem stops_nil : Stops [] := ⟨rfl, rfl⟩

theorem stops_close (ts : List Token) : Stops (.symbol ")" :: ts) := ⟨rfl, rfl⟩

theorem operators_of_stops {ts : List Token} (h : Stops ts) (fuel level : ℕ) (e : Expr) :
    operators (fuel + 1) level e ts = some (e, ts) := by
  simp [operators, h.1, h.2]

/-- **The tokens of an expression**, which are read to their end wherever no
operator follows. -/
def Parses (ts : List Token) (e : Expr) : Prop :=
  ∀ fuel rest, 2 * ts.length + 2 ≤ fuel → Stops rest →
    expr fuel 0 (ts ++ rest) = some (e, rest)

theorem Parses.parse_eq {text : String} {ts : List Token} {e : Expr}
    (ht : tokens text = some ts) (h : Parses ts e) : parse text = some e := by
  have he := h (2 * ts.length + 2) [] le_rfl stops_nil
  rw [List.append_nil] at he
  simp [parse, ht, he]

/-- An expression in parentheses. -/
theorem Parses.operand {ts : List Token} {e : Expr} (h : Parses ts e) (fuel : ℕ)
    (hf : 2 * ts.length + 3 ≤ fuel) (rest : List Token) :
    operand fuel (.symbol "(" :: (ts ++ .symbol ")" :: rest)) = some (e, rest) := by
  obtain ⟨fuel, rfl⟩ : ∃ k, fuel = k + 1 := ⟨fuel - 1, by omega⟩
  have he := h fuel (.symbol ")" :: rest) (by omega) (stops_close rest)
  simp [Sql.operand, he]

/-- Two expressions in parentheses, with `AND` or `OR` between them. -/
theorem Parses.connect {ls rs : List Token} {l r : Expr} {t : Token} {op : Infix}
    (hl : Parses ls l) (hr : Parses rs r)
    (ht : ∀ ts, infix? (t :: ts) = some (op, ts)) :
    Parses (.symbol "(" :: (ls ++ .symbol ")" :: t :: .symbol "(" :: (rs ++ [.symbol ")"])))
      (op.node l r) := by
  intro fuel rest hf hrest
  simp only [List.length_cons, List.length_append, List.length_nil] at hf
  obtain ⟨k, rfl⟩ : ∃ k, fuel = k + 3 := ⟨fuel - 3, by omega⟩
  have hleft := hl.operand (k + 2) (by omega)
    (t :: .symbol "(" :: (rs ++ .symbol ")" :: rest))
  have hright := hr.operand k (by omega) rest
  have hend : expr (k + 1) (op.level + 1) (.symbol "(" :: (rs ++ .symbol ")" :: rest))
      = some (r, rest) := by
    obtain ⟨k, rfl⟩ : ∃ j, k = j + 1 := ⟨k - 1, by omega⟩
    simp [expr, hright, operators_of_stops hrest]
  have htext : .symbol "(" :: (ls ++ .symbol ")" :: t :: .symbol "(" :: (rs ++ [.symbol ")"]))
      ++ rest
      = .symbol "(" :: (ls ++ .symbol ")" :: t :: .symbol "(" :: (rs ++ .symbol ")" :: rest)) := by
    simp
  rw [htext, expr, hleft, Option.bind_some, operators, ht]
  simp only [Nat.not_lt_zero, if_false]
  rw [hend, Option.bind_some, operators_of_stops hrest]

theorem operand_of_atom {t : Token} {a : Atom} (h : t.atom? = some a) (fuel : ℕ)
    (ts : List Token) : operand (fuel + 1) (t :: ts) = some (.atom a, ts) := by
  have hparen : t ≠ .symbol "(" := by
    rintro rfl
    simp [Token.atom?] at h
  have hnot : t.isKeyword "NOT" = false := by
    cases t with
    | word text =>
      by_contra hk
      have hk : Text.toAsciiUppercase text = "NOT" := by simpa [Token.isKeyword] using hk
      have hr : isName text = false := by simp [isName, hk, reserved]
      simp [Token.atom?, hk, hr] at h
    | _ => rfl
  simp [operand, hparen, hnot, h]

/-- Two atoms with an operator between them. -/
theorem parses_infix_atoms {s t : Token} {a b : Atom} {os : List Token} (op : Infix)
    (hs : s.atom? = some a) (ht : t.atom? = some b)
    (ho : ∀ ts, infix? (os ++ t :: ts) = some (op, t :: ts)) :
    Parses (s :: (os ++ [t])) (op.node (.atom a) (.atom b)) := by
  intro fuel rest hf hrest
  simp only [List.length_cons, List.length_append, List.length_nil] at hf
  obtain ⟨k, rfl⟩ : ∃ k, fuel = k + 4 := ⟨fuel - 4, by omega⟩
  have hright : expr (k + 2) (op.level + 1) (t :: rest) = some (.atom b, rest) := by
    rw [expr, operand_of_atom ht, Option.bind_some, operators_of_stops hrest]
  have htext : s :: (os ++ [t]) ++ rest = s :: (os ++ t :: rest) := by simp
  rw [htext, expr, operand_of_atom hs, Option.bind_some, operators, ho]
  simp only [Nat.not_lt_zero, if_false]
  rw [hright, Option.bind_some, operators_of_stops hrest]

theorem items_eq {ts : List Token} {as : List Atom}
    (h : List.Forall₂ (fun t a => t.atom? = some a) ts as) (hne : ts ≠ [])
    (rest : List Token) :
    items (List.intercalate [.symbol ","] (ts.map ([·])) ++ .symbol ")" :: rest)
      = some (as, rest) := by
  induction h with
  | nil => exact absurd rfl hne
  | cons ht hrest ih =>
    cases hrest with
    | nil => simp [List.intercalate, items, ht]
    | cons ht' hrest =>
      have ih := ih (by simp)
      simp_all [List.intercalate, items]

theorem infix?_in (ts : List Token) : infix? (.word "IN" :: ts) = none := rfl

theorem membership?_in (ts : List Token) : membership? (.word "IN" :: ts) = list? ts := rfl

/-- An atom that is asked to be in a list. -/
theorem parses_mem {s : Token} {a : Atom} {ts : List Token} {as : List Atom}
    (hs : s.atom? = some a) (h : List.Forall₂ (fun t a => t.atom? = some a) ts as)
    (hne : ts ≠ []) :
    Parses (s :: .word "IN" :: .symbol "("
        :: (List.intercalate [.symbol ","] (ts.map ([·])) ++ [.symbol ")"]))
      (.mem (.atom a) as) := by
  intro fuel rest hf hrest
  simp only [List.length_cons, List.length_append, List.length_nil] at hf
  obtain ⟨k, rfl⟩ : ∃ k, fuel = k + 3 := ⟨fuel - 3, by omega⟩
  have hlist : membership? (.word "IN" :: .symbol "("
      :: (List.intercalate [.symbol ","] (ts.map ([·])) ++ .symbol ")" :: rest))
      = some (as, rest) := by
    have hitems := items_eq h hne rest
    have hhead : list? (.symbol "("
        :: (List.intercalate [.symbol ","] (ts.map ([·])) ++ .symbol ")" :: rest))
        = items (List.intercalate [.symbol ","] (ts.map ([·])) ++ .symbol ")" :: rest) := by
      cases h with
      | nil => exact absurd rfl hne
      | @cons t a l₁ l₂ ht hrest =>
        have hclose : t ≠ .symbol ")" := by
          rintro rfl
          simp [Token.atom?] at ht
        cases l₁ <;> simp [List.intercalate, list?, hclose]
    exact (membership?_in _).trans (hhead.trans hitems)
  have htext : s :: .word "IN" :: .symbol "("
        :: (List.intercalate [.symbol ","] (ts.map ([·])) ++ [.symbol ")"]) ++ rest
      = s :: .word "IN" :: .symbol "("
        :: (List.intercalate [.symbol ","] (ts.map ([·])) ++ .symbol ")" :: rest) := by simp
  rw [htext, expr, operand_of_atom hs, Option.bind_some, operators, hlist]
  simp only [infix?_in, Nat.not_lt_zero, if_false]
  exact operators_of_stops hrest ..

/-! ### Atoms -/

theorem atom?_word {name : String} (h : PlainName name) :
    (Token.word name).atom? = some (.column name) := by
  have hnull : Text.toAsciiUppercase name ≠ "NULL" := by
    intro hn
    have := h.2
    simp [isName, hn, reserved] at this
  simp [Token.atom?, hnull, h.2]

theorem natural?_toDigits (n : ℕ) : natural? (Nat.toDigits 10 n) = some n := by
  have hd : ∀ c ∈ Nat.toDigits 10 n, c.isDigit = true :=
    fun c hc => Nat.isDigit_of_mem_toDigits (by decide) (by decide) hc
  simp [natural?, Nat.toDigits_ne_nil, List.all_eq_true.mpr hd, Nat.ofDigitChars_ten_toDigits]

theorem natural?_toString (n : ℕ) : natural? (toString n).toList = some n := by
  rw [Nat.toString_eq_repr, Nat.toList_repr, natural?_toDigits]

theorem atom?_param (n : ℕ) : (Token.param ("?" ++ toString n)).atom? = some (.param n) := by
  have hl : ("?" ++ toString n).toList = '?' :: Nat.toDigits 10 n := by
    rw [String.toList_append, Nat.toString_eq_repr, Nat.toList_repr]
    rfl
  simp [Token.atom?, natural?_toDigits]

/-! ### Texts of conditions -/

/-- The text of an operator, with spaces around it. -/
def Operator.text : Operator → String
  | eq => " = "
  | ne => " != "
  | lt => " < "
  | le => " <= "
  | gt => " > "
  | ge => " >= "

def Operator.token : Operator → Token
  | eq => .symbol "="
  | ne => .symbol "!="
  | lt => .symbol "<"
  | le => .symbol "<="
  | gt => .symbol ">"
  | ge => .symbol ">="

/-- **The text of an expression**: it is read as tokens that are read as the
expression. -/
def TextOf (text : String) (e : Expr) : Prop :=
  ∃ ts, Reads text.toList ts ∧ Parses ts e

theorem TextOf.parse_eq {text : String} {e : Expr} (h : TextOf text e) :
    parse text = some e := by
  obtain ⟨ts, ht, he⟩ := h
  exact he.parse_eq ht.tokens_eq

section Column

variable {name : String} {ts : List Token} (h : Reads name.toList ts)

include h

/-- The tokens of a name, an operator and a parameter. -/
theorem reads_compare (op : Operator) (n : ℕ) :
    Reads (name ++ op.text ++ ("?" ++ toString n)).toList
      (ts ++ ([op.token] ++ [.param ("?" ++ toString n)])) := by
  have hop : ∃ cs, op.text.toList = ' ' :: cs
      ∧ scan .start (' ' :: cs) = some ([op.token], .start) := by
    cases op <;> exact ⟨_, rfl, by decide⟩
  obtain ⟨cs, hcs, hscan⟩ := hop
  have htext := h.append (by decide) (Reads.after hscan (reads_param n))
  simpa [hcs] using htext

theorem reads_isNull :
    Reads (name ++ " IS NULL").toList (ts ++ ([.word "IS"] ++ [.word "NULL"])) := by
  have htail : Reads " IS NULL".toList ([.word "IS"] ++ [.word "NULL"]) :=
    Reads.of_scan (s := .word ['N', 'U', 'L', 'L']) (by decide) (by decide) rfl
  rw [String.toList_append]
  exact h.append (by decide) htail

theorem reads_isNotNull :
    Reads (name ++ " IS NOT NULL").toList
      (ts ++ ([.word "IS", .word "NOT"] ++ [.word "NULL"])) := by
  have htail : Reads " IS NOT NULL".toList ([.word "IS", .word "NOT"] ++ [.word "NULL"]) :=
    Reads.of_scan (s := .word ['N', 'U', 'L', 'L']) (by decide) (by decide) rfl
  rw [String.toList_append]
  exact h.append (by decide) htail

/-- The tokens of a name and a list of parameters. -/
theorem reads_mem {ns : List ℕ} (hne : ns ≠ []) :
    Reads (name ++ " IN (" ++ Text.join ", " (ns.map fun n => "?" ++ toString n) ++ ")").toList
      (ts ++ .word "IN" :: .symbol "(" :: (List.intercalate [.symbol ","]
        ((ns.map fun n => Token.param ("?" ++ toString n)).map ([·])) ++ [.symbol ")"])) := by
  have hreads : List.Forall₂ (fun piece us => Reads (String.toList piece) us)
      (ns.map fun n => "?" ++ toString n)
      ((ns.map fun n => Token.param ("?" ++ toString n)).map ([·])) := by
    simp only [List.forall₂_map_left_iff, List.forall₂_map_right_iff, List.forall₂_same]
    exact fun n _ => reads_param n
  have hclose : Reads [')'] [.symbol ")"] :=
    Reads.of_scan (u := [.symbol ")"]) (s := .start) (by decide) (by decide) rfl
  have hopen : scan .start [' ', 'I', 'N', ' ', '('] = some ([.word "IN", .symbol "("], .start) := by
    decide
  have hlist := (reads_join hreads (by simpa using hne)).append (by decide) hclose
  have htext := h.append (by decide) (Reads.after hopen hlist)
  simpa using htext

end Column

theorem reads_false : Reads "0 = 1".toList [.number "0", .symbol "=", .number "1"] :=
  Reads.of_scan (u := [.number "0", .symbol "="]) (s := .number ['1']) (by decide)
    (by decide) rfl

/-- The tokens of two texts in parentheses. -/
theorem reads_connected {left right word : String} {ls rs : List Token}
    (hl : Reads left.toList ls) (hr : Reads right.toList rs)
    (hw : isIdentifier word = true) :
    Reads ("(" ++ left ++ ") " ++ word ++ " (" ++ right ++ ")").toList
      (.symbol "(" :: (ls ++ .symbol ")" :: .word word :: .symbol "("
        :: (rs ++ [.symbol ")"]))) := by
  have hclose : Reads [')'] [.symbol ")"] :=
    Reads.of_scan (u := [.symbol ")"]) (s := .start) (by decide) (by decide) rfl
  have hopen : scan .start ['('] = some ([.symbol "("], .start) := by decide
  have hshut : scan .start [')', ' '] = some ([.symbol ")"], .start) := by decide
  have hagain : scan .start [' ', '('] = some ([.symbol "("], .start) := by decide
  have hright := Reads.after hagain (hr.append (by decide) hclose)
  have hword := Reads.after hshut ((reads_identifier hw).append (by decide) hright)
  have htext := Reads.after hopen (hl.append (by decide) hword)
  simpa using htext

/-- A column and a parameter. -/
theorem textOf_compare {name : String} (h : PlainName name) (op : Operator) (n : ℕ) :
    TextOf (name ++ op.text ++ ("?" ++ toString n))
      (.compare op (.atom (.column name)) (.atom (.param n))) := by
  refine ⟨_, reads_compare (reads_identifier h.1) op n,
    parses_infix_atoms (.compare op) (atom?_word h) (atom?_param n) ?_⟩
  cases op <;> exact fun ts => rfl

theorem textOf_isNull {name : String} (h : PlainName name) :
    TextOf (name ++ " IS NULL") (.is (.atom (.column name)) (.atom .null)) :=
  ⟨_, reads_isNull (reads_identifier h.1),
    parses_infix_atoms .is (atom?_word h) (by decide) (fun _ => rfl)⟩

theorem textOf_isNotNull {name : String} (h : PlainName name) :
    TextOf (name ++ " IS NOT NULL") (.isNot (.atom (.column name)) (.atom .null)) :=
  ⟨_, reads_isNotNull (reads_identifier h.1),
    parses_infix_atoms .isNot (atom?_word h) (by decide) (fun _ => rfl)⟩

theorem textOf_false :
    TextOf "0 = 1" (.compare .eq (.atom (.integer 0)) (.atom (.integer 1))) := by
  have hzero : (Token.number "0").atom? = some (.integer 0) := by decide
  have hone : (Token.number "1").atom? = some (.integer 1) := by decide
  have heq : ∀ ts, infix? ([.symbol "="] ++ .number "1" :: ts)
      = some (.compare .eq, .number "1" :: ts) := fun _ => rfl
  exact ⟨_, reads_false, parses_infix_atoms (.compare .eq) hzero hone heq⟩

/-- A column and a list of parameters. -/
theorem textOf_mem {name : String} (h : PlainName name) {ns : List ℕ} (hne : ns ≠ []) :
    TextOf (name ++ " IN (" ++ Text.join ", " (ns.map fun n => "?" ++ toString n) ++ ")")
      (.mem (.atom (.column name)) (ns.map .param)) := by
  have hts : List.Forall₂ (fun t a => Token.atom? t = some a)
      (ns.map fun n => .param ("?" ++ toString n)) (ns.map .param) := by
    simp only [List.forall₂_map_left_iff, List.forall₂_map_right_iff, List.forall₂_same]
    exact fun n _ => atom?_param n
  exact ⟨_, reads_mem (reads_identifier h.1) hne,
    parses_mem (atom?_word h) hts (by simpa using hne)⟩

/-- Two expressions in parentheses. -/
theorem TextOf.connect {left right word : String} {l r : Expr} {op : Infix}
    (hl : TextOf left l) (hr : TextOf right r) (hw : isIdentifier word = true)
    (hop : ∀ ts, infix? (.word word :: ts) = some (op, ts)) :
    TextOf ("(" ++ left ++ ") " ++ word ++ " (" ++ right ++ ")") (op.node l r) := by
  obtain ⟨ls, hls, hl⟩ := hl
  obtain ⟨rs, hrs, hr⟩ := hr
  exact ⟨_, reads_connected hls hrs hw, hl.connect hr hop⟩

end Sql
