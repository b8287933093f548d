import Seekwel.SqlParens

/-!
# Reading the texts of tables and indexes

What the text of a `CREATE TABLE` or a `CREATE INDEX` lists in its
parentheses, item by item, and the rules it declares in them: the columns
that are unique together, and the collations of columns.

An item of a table is the definition of a column or a constraint, which its
first token tells. Constraints and checks may contain any expression in
parentheses, so a keyword counts where no parenthesis is open.
-/

namespace Sql

/-- The words that begin an operand, and are names elsewhere. -/
def operandWords : List String :=
  ["CAST", "RAISE", "CURRENT_DATE", "CURRENT_TIME", "CURRENT_TIMESTAMP"]

/-- The words that SQLite does not take for a name anywhere. -/
def keywords : List String := reserved.filter (fun word => word ∉ operandWords)

/-- The name a token is, where only a name may stand. -/
def Token.name? : Token → Option String
  | word text => if Text.toAsciiUppercase text ∈ keywords then none else some text
  | quoted _ text => some text
  | _ => none

/-! ## Items -/

/-- The rest of a list in parentheses, split at its commas, and the tokens
after it. Commas inside further parentheses do not count. -/
def splitItems : ℕ → List Token → List Token → Option (List (List Token) × List Token)
  | _, _, [] => none
  | depth, item, t :: ts =>
    if t = .symbol "(" then splitItems (depth + 1) (item ++ [t]) ts
    else if t = .symbol ")" then
      match depth with
      | 0 => some ([item], ts)
      | depth + 1 => splitItems depth (item ++ [t]) ts
    else if depth = 0 ∧ t = .symbol "," then
      (splitItems 0 [] ts).map fun p => (item :: p.1, p.2)
    else splitItems depth (item ++ [t]) ts

/-- What follows an `IF NOT EXISTS`, if there is one. -/
def afterIfNotExists : List Token → List Token
  | a :: b :: c :: ts =>
    if a.isKeyword "IF" && b.isKeyword "NOT" && c.isKeyword "EXISTS" then ts
    else a :: b :: c :: ts
  | ts => ts

/-- **The text of a table.** -/
structure TableText where
  name : String
  items : List (List Token)
  /-- What follows the items. -/
  options : List Token
  deriving DecidableEq

/-- **The text of an index.** -/
structure IndexText where
  unique : Bool
  name : String
  table : String
  items : List (List Token)
  /-- What follows the items. -/
  options : List Token
  deriving DecidableEq

/-- A name, and the list in parentheses that follows it. -/
def named : List Token → Option TableText
  | n :: .symbol "(" :: ts =>
    n.name?.bind fun name => (splitItems 0 [] ts).map fun p => ⟨name, p.1, p.2⟩
  | _ => none

def tableText? : List Token → Option TableText
  | c :: t :: ts =>
    if c.isKeyword "CREATE" && t.isKeyword "TABLE" then named (afterIfNotExists ts) else none
  | _ => none

/-- What follows the words `CREATE INDEX`. -/
def indexOn (unique : Bool) (ts : List Token) : Option IndexText :=
  match afterIfNotExists ts with
  | n :: o :: ts =>
    if o.isKeyword "ON" then
      n.name?.bind fun name =>
        (named ts).map fun t => ⟨unique, name, t.name, t.items, t.options⟩
    else none
  | _ => none

def indexText? : List Token → Option IndexText
  | c :: t :: ts =>
    if !c.isKeyword "CREATE" then none
    else if t.isKeyword "INDEX" then indexOn false ts
    else
      match ts with
      | i :: ts => if t.isKeyword "UNIQUE" && i.isKeyword "INDEX" then indexOn true ts else none
      | [] => none
  | _ => none

/-- **Reading the text of a table.** -/
def readTable (text : String) : Option TableText := (tokens text).bind tableText?

/-- **Reading the text of an index.** -/
def readIndex (text : String) : Option IndexText := (tokens text).bind indexText?

example : readTable "CREATE TABLE \"t\" (a TEXT, UNIQUE (a, b)) STRICT"
    = some ⟨"t", [[.word "a", .word "TEXT"],
        [.word "UNIQUE", .symbol "(", .word "a", .symbol ",", .word "b", .symbol ")"]],
      [.word "STRICT"]⟩ := by
  decide +kernel

/-! ## Rules -/

/-- **A rule about columns.** -/
inductive Rule where
  /-- No two rows agree on all these columns. -/
  | unique (columns : List String)
  | collate (column collation : String)
  deriving DecidableEq

/-- The words that a constraint of a table begins with. -/
def isConstraint (t : Token) : Bool :=
  t.isKeyword "CONSTRAINT" || t.isKeyword "PRIMARY" || t.isKeyword "UNIQUE"
    || t.isKeyword "CHECK" || t.isKeyword "FOREIGN"

/-- The number of open parentheses after a token. -/
def depthAfter (depth : ℕ) (t : Token) : ℕ :=
  if t = .symbol "(" then depth + 1 else if t = .symbol ")" then depth - 1 else depth

/-- The rules among the constraints of a column. -/
def columnRules (column : String) : ℕ → List Token → List Rule
  | _, [] => []
  | depth, t :: ts =>
    (if depth = 0 && t.isKeyword "UNIQUE" then [.unique [column]] else [])
    ++ (if depth = 0 && t.isKeyword "COLLATE" then
        ((ts.head?.bind Token.name?).map (.collate column)).toList else [])
    ++ columnRules column (depthAfter depth t) ts

/-- The collation of an item of an index, if it states one. -/
def itemCollation : List Token → Option Rule
  | n :: c :: k :: _ =>
    if c.isKeyword "COLLATE" then
      n.name?.bind fun column => k.name?.map (.collate column)
    else none
  | _ => none

/-- The rules of a constraint. -/
def constraintRules : ℕ → List Token → List Rule
  | _, [] => []
  | depth, t :: ts =>
    (match ts with
    | .symbol "(" :: us =>
      if depth = 0 && (t.isKeyword "UNIQUE" || t.isKeyword "KEY") then
        match splitItems 0 [] us with
        | some (items, _) =>
          (if t.isKeyword "UNIQUE" then
            [.unique (items.filterMap fun item => item.head?.bind Token.name?)] else [])
          ++ items.filterMap itemCollation
        | none => []
      else []
    | _ => [])
    ++ constraintRules (depthAfter depth t) ts

/-- The rules of an item of a table. -/
def itemRules : List Token → List Rule
  | [] => []
  | t :: ts =>
    if isConstraint t then constraintRules 0 (t :: ts)
    else
      match t.name? with
      | some column => columnRules column 0 ts
      | none => []

/-- **The rules that the text of a table declares.** -/
def declaredRules (text : String) : List Rule :=
  match readTable text with
  | some table => table.items.flatMap itemRules
  | none => []

/-- **The collations that the text of an index declares.** -/
def declaredCollations (text : String) : List Rule :=
  match readIndex text with
  | some index => index.items.filterMap itemCollation
  | none => []

example : declaredRules "CREATE TABLE t (id INTEGER PRIMARY KEY, a TEXT NOT NULL UNIQUE,
    b TEXT COLLATE NOCASE DEFAULT (lower('UNIQUE')), CONSTRAINT u UNIQUE (a, \"b\" COLLATE RTRIM))"
    = [.unique ["a"], .collate "b" "NOCASE", .unique ["a", "b"], .collate "b" "RTRIM"] := by
  decide +kernel

end Sql
