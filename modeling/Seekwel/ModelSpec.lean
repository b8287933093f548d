import Mathlib.Data.List.DropRight
import Seekwel.Desired
import Seekwel.ModelSql
import Seekwel.SqlNumeral
import Seekwel.SqlStatement
import Seekwel.SqlTokenText

/-!
# From the declaration of a model to its columns

What the macro makes of the declaration of a model: the columns with the SQL
of their defaults, and the names of the indexes. The names of a declaration
are arbitrary texts, those of the indexes are made to be plain
(`plainTable_indexName`).

A default is a numeral, perhaps with a minus, a text in quotation marks or
`NULL` (`defaultText_of_expr`), so it is the text of a literal as long as
there is no `NUL` in it.
-/

namespace Seekwel.Model

/-! ## Declarations -/

/-- **A stored field of a model**, as it is declared. -/
structure StoredField where
  storageColumnName : String
  /-- The `SQL_TYPE` of the field's type. -/
  sqlType : String
  nullable : Bool
  default : Option Seekwel.Expr
  indexed : Bool
  unique : Bool
  deriving DecidableEq

/-- **The declaration of a model.** -/
structure ModelSpec where
  tableName : String
  primaryKeyName : String
  autoIncrement : Bool
  fields : List StoredField
  deriving DecidableEq

/-- Characters but letters, digits and underscores become underscores, of
which none is the last one and none follows another one. -/
def sanitizeIndexNamePart (value : String) : String :=
  let output := value.toList.foldl (fun output ch =>
    if ch.isAlphanum || ch = '_' then output ++ [ch.toLower]
    else if output.getLast? = some '_' then output
    else output ++ ['_']) []
  let output := output.rdropWhile (· = '_')
  if output.isEmpty then "value" else String.ofList output

def indexName (tableName columnName : String) : String :=
  "seekwel_idx_" ++ sanitizeIndexNamePart tableName ++ "_" ++ sanitizeIndexNamePart columnName

def StoredField.columnDef (field : StoredField) : Except String ColumnDef :=
  match field.default with
  | some expr => (defaultSqlFromExpr expr).map fun defaultSql =>
      ⟨field.storageColumnName, field.sqlType, field.nullable, some defaultSql⟩
  | none => .ok ⟨field.storageColumnName, field.sqlType, field.nullable, none⟩

def ModelSpec.indexDefs (spec : ModelSpec) : List IndexDef :=
  (spec.fields.filter fun field => field.indexed || field.unique).map fun field =>
    ⟨indexName spec.tableName field.storageColumnName, field.storageColumnName, field.unique⟩

/-- **The model that is declared**, if its defaults have SQL texts. The types
a primary key may have are all integers. -/
def ModelSpec.modelDef (spec : ModelSpec) : Except String ModelDef :=
  (spec.fields.mapM StoredField.columnDef).map fun columns =>
    { tableName := spec.tableName
      primaryKey := ⟨spec.primaryKeyName, "INTEGER", spec.autoIncrement⟩
      columns := columns
      indexes := spec.indexDefs }

/-- The columns an `INSERT` gives values for. -/
def ModelDef.insertColumns (M : ModelDef) : List ColumnDef :=
  if M.primaryKey.autoIncrement then M.columns
  else ⟨M.primaryKey.name, M.primaryKey.sqlType, false, none⟩ :: M.columns

/-- The table of a model in a schema. -/
def tableForModel (M : ModelDef) : TableDef where
  name := M.tableName
  primaryKey := ⟨M.primaryKey.name, M.primaryKey.sqlType⟩
  columns := M.columns
  indexes := M.indexes

/-! ## The names of indexes -/

theorem lt_of_isAlphanum {c : Char} (h : c.isAlphanum = true) : c.toNat < 128 := by
  have hle : c.val ≤ 122 := by
    have htrans : ∀ {b : UInt32}, c.val ≤ b → b ≤ 122 → c.val ≤ 122 := UInt32.le_trans
    simp only [Char.isAlphanum, Sql.isAlpha_eq, Sql.isUpper_eq, Sql.isLower_eq, Char.isDigit,
      Bool.or_eq_true, Bool.and_eq_true, decide_eq_true_eq] at h
    obtain (⟨-, h⟩ | ⟨-, h⟩) | ⟨-, h⟩ := h
    · exact htrans h (by decide)
    · exact htrans h (by decide)
    · exact htrans h (by decide)
  have : c.toNat ≤ 122 := hle
  omega

theorem isIdChar_toLower {c : Char} (h : c.isAlphanum = true) :
    Sql.isIdChar c.toLower = true := by
  have hall : ∀ n < 128, (Char.ofNat n).isAlphanum = true
      → Sql.isIdChar (Char.ofNat n).toLower = true := by decide
  have hc := hall c.toNat (lt_of_isAlphanum h)
  rw [Char.ofNat_toNat] at hc
  exact hc h

theorem isIdChar_sanitized (value : String) :
    ∀ c ∈ (sanitizeIndexNamePart value).toList, Sql.isIdChar c = true := by
  have hlower : ∀ c : Char, c.isAlphanum = true ∨ c = '_' → Sql.isIdChar c.toLower = true := by
    rintro c (h | rfl)
    · exact isIdChar_toLower h
    · decide
  have hfold : ∀ (cs output : List Char), (∀ c ∈ output, Sql.isIdChar c = true) →
      ∀ c ∈ cs.foldl (fun output ch =>
        if ch.isAlphanum || ch = '_' then output ++ [ch.toLower]
        else if output.getLast? = some '_' then output
        else output ++ ['_']) output, Sql.isIdChar c = true := by
    intro cs
    induction cs with
    | nil => exact fun output h => h
    | cons ch cs ih =>
      intro output h
      refine ih _ ?_
      dsimp only
      split_ifs with hch hlast
      · intro c hc
        obtain hc | hc := List.mem_append.mp hc
        · exact h c hc
        · obtain rfl := List.mem_singleton.mp hc
          exact hlower ch (by simpa using hch)
      · exact h
      · intro c hc
        obtain hc | hc := List.mem_append.mp hc
        · exact h c hc
        · obtain rfl := List.mem_singleton.mp hc
          decide
  unfold sanitizeIndexNamePart
  dsimp only
  split_ifs
  · have hall : "index".toList.all Sql.isIdChar = true := by decide
    exact List.all_eq_true.mp hall
  · rw [String.toList_ofList]
    exact fun c hc => hfold _ [] (by simp) c ((List.rdropWhile_prefix _ _).subset hc)

/-- **The name of an index is plain**, whatever it is an index of. -/
theorem plainTable_indexName (tableName columnName : String) :
    Sql.PlainTable (indexName tableName columnName) := by
  have htext : (indexName tableName columnName).toList = "seekwel_idx_".toList
      ++ ((sanitizeIndexNamePart tableName).toList ++ ('_'
        :: (sanitizeIndexNamePart columnName).toList)) := by
    delta indexName
    simp only [String.toList_append, List.append_assoc]
    rfl
  constructor
  · rw [Sql.isIdentifier, htext]
    show (_ && _) = true
    rw [Bool.and_eq_true, List.all_eq_true]
    refine ⟨by decide, fun c hc => ?_⟩
    obtain hc | hc := List.mem_append.mp hc
    · have hall : "eekwel_idx_".toList.all Sql.isIdChar = true := by decide
      exact List.all_eq_true.mp hall c hc
    obtain hc | hc := List.mem_append.mp hc
    · exact isIdChar_sanitized tableName c hc
    obtain rfl | hc := List.mem_cons.mp hc
    · decide
    · exact isIdChar_sanitized columnName c hc
  · -- no keyword begins like the name of an index
    have hno : Sql.keywords.all (fun word => !"SEE".toList.isPrefixOf word.toList) = true := by
      decide
    intro hmem
    have hword := List.all_eq_true.mp hno _ hmem
    rw [Text.toAsciiUppercase, String.toList_ofList, htext, List.map_append,
      show "seekwel_idx_".toList.map Char.toUpper = ['S', 'E', 'E', 'K', 'W', 'E', 'L', '_', 'I',
        'D', 'X', '_'] from by decide] at hword
    simp [List.isPrefixOf] at hword

/-! ## The texts of defaults -/

/-- A text that is a numeral and begins with a digit. -/
structure NumberText (text : String) : Prop where
  begins : text.toList.head?.any Char.isDigit = true
  not_nul : '\x00' ∉ text.toList
  reads : Sql.Reads text.toList [.number text]

/-- A literal whose digits are those of a number. -/
def WrittenLit : Lit → Prop
  | .int base10Digits => base10Digits ≠ "" ∧ ∀ c ∈ base10Digits.toList, c.isDigit = true
  | .float base10Digits => NumberText base10Digits
  | _ => True

/-- An expression whose numbers have digits of numbers. -/
def Written : Seekwel.Expr → Prop
  | .lit lit => WrittenLit lit
  | .paren expr | .group expr | .neg expr | .callSome expr => Written expr
  | .pathNone | .other => True

/-- **What the text of a default may be.** -/
inductive DefaultText : String → Prop where
  | number {text : String} (h : NumberText text) : DefaultText text
  | negative {text : String} (h : NumberText text) : DefaultText ("-" ++ text)
  | quoted (value : String) : DefaultText (sqlStringLiteral value)
  | null : DefaultText "NULL"

theorem numberText_digits {text : String} (hne : text ≠ "")
    (h : ∀ c ∈ text.toList, c.isDigit = true) : NumberText text := by
  have hnil : text.toList ≠ [] := fun he => hne (String.toList_eq_nil_iff.mp he)
  have hfinish : Sql.State.finish (.number text.toList) = some [.number text] := by
    simp [Sql.State.finish, Sql.isNumeral_of_isDigit h hnil]
  have hnul : '\x00' ∉ text.toList := fun hmem => absurd (h _ hmem) (by decide)
  cases hl : text.toList with
  | nil => exact absurd hl hnil
  | cons d ds =>
    rw [hl] at h
    have hd := Sql.begin_of_isDigit (h d List.mem_cons_self)
    have hds := Sql.scan_number_digits (fun c hc => h c (List.mem_cons_of_mem d hc)) [d]
    have hscan : Sql.scan .start text.toList = some ([], .number text.toList) := by
      simp [hl, Sql.scan, Sql.State.step, Sql.State.extend, Sql.State.finish, hd, hds]
    exact ⟨by simp [hl, h d List.mem_cons_self], hnul, Sql.Reads.of_scan hscan hfinish rfl⟩

theorem defaultText_of_lit {lit : Lit} {text : String} (h : defaultSqlFromLit lit = .ok text)
    (hw : WrittenLit lit) : DefaultText text := by
  cases lit with
  | bool value =>
    cases h
    cases value
    · exact .number (numberText_digits (by decide) (List.all_eq_true.mp (by decide)))
    · exact .number (numberText_digits (by decide) (List.all_eq_true.mp (by decide)))
  | int digits =>
    cases h
    exact .number (numberText_digits hw.1 hw.2)
  | float digits =>
    cases h
    exact .number hw
  | str value =>
    cases h
    exact .quoted value
  | char value =>
    cases h
    exact .quoted (String.singleton value)
  | other => cases h

theorem startsWith_append (pat s : String) : Text.startsWith (pat ++ s) pat = true := by
  simp [Text.startsWith]

/-- **Every default has one of the texts.** -/
theorem defaultText_of_expr {expr : Seekwel.Expr} {text : String}
    (h : defaultSqlFromExpr expr = .ok text) (hw : Written expr) : DefaultText text := by
  induction expr generalizing text with
  | lit lit => exact defaultText_of_lit h hw
  | paren expr ih => exact ih h hw
  | group expr ih => exact ih h hw
  | callSome expr ih => exact ih h hw
  | pathNone =>
    cases h
    exact .null
  | other => cases h
  | neg expr ih =>
    rw [defaultSqlFromExpr] at h
    cases hinner : defaultSqlFromExpr expr with
    | error message =>
      rw [hinner] at h
      cases h
    | ok inner =>
      rw [hinner] at h
      dsimp only at h
      split_ifs at h with hsign
      cases h
      simp only [Bool.or_eq_true, decide_eq_true_eq, not_or] at hsign
      cases ih hinner hw with
      | number htext => exact .negative htext
      | negative => exact absurd (startsWith_append "-" _) hsign.1.1
      | quoted value =>
        have hquote := startsWith_append "'" (Text.replace value '\'' "''" ++ "'")
        rw [← String.append_assoc] at hquote
        exact absurd hquote hsign.1.2
      | null => exact absurd rfl hsign.2

theorem isQuotation_text : Sql.IsQuotation '\'' := by
  constructor <;> decide

theorem toList_sqlStringLiteral (value : String) :
    (sqlStringLiteral value).toList
      = '\'' :: (Text.replaceChar '\'' ['\'', '\''] value.toList ++ ['\'']) := by
  simp [sqlStringLiteral, Text.replace]

theorem nul_mem_sqlStringLiteral {value : String} :
    '\x00' ∈ (sqlStringLiteral value).toList ↔ '\x00' ∈ value.toList := by
  have hreplace : ∀ l : List Char, '\x00' ∈ Text.replaceChar '\'' ['\'', '\''] l ↔ '\x00' ∈ l := by
    intro l
    rw [Text.replaceChar, List.mem_flatMap]
    constructor
    · rintro ⟨d, hd, h⟩
      split_ifs at h
      · simp at h
      · rwa [List.mem_singleton.mp h]
    · exact fun h => ⟨_, h, by simp⟩
  rw [toList_sqlStringLiteral]
  simp [hreplace]

/-- A minus before a numeral. -/
theorem NumberText.reads_negative {text : String} (h : NumberText text) :
    Sql.Reads ("-" ++ text).toList [.symbol "-", .number text] := by
  have hbegins := h.begins
  cases hl : text.toList with
  | nil => simp [hl] at hbegins
  | cons d ds =>
    rw [hl] at hbegins
    have hd : d.isDigit = true := by simpa using hbegins
    have hreads := h.reads
    obtain ⟨us, s, vs, hscan, hfinish, hended, heq⟩ := hreads
    rw [hl] at hscan
    have hstart : Sql.scan (.number [d]) ds = some (us, s) := by
      simpa [Sql.scan, Sql.State.step, Sql.State.extend, Sql.State.finish,
        Sql.begin_of_isDigit hd] using hscan
    -- a digit goes on with no operator, so the minus is a token by itself
    have hextend : Sql.State.extend (.symbol ['-']) d = none := by
      have hne : d ≠ '>' ∧ d ≠ '-' := by
        constructor <;> (rintro rfl; cases hd)
      simp [Sql.State.extend, Sql.isOperator, hne]
    have hsigned : Sql.scan .start ("-" ++ text).toList = some (.symbol "-" :: us, s) := by
      rw [String.toList_append, hl, show "-".toList = ['-'] from rfl, List.singleton_append,
        Sql.scan, show Sql.State.start.step '-' = some ([], .symbol ['-']) from by decide]
      simp [Sql.scan, Sql.State.step, hextend, Sql.State.finish, Sql.begin_of_isDigit hd, hstart]
    rw [heq]
    exact Sql.Reads.of_scan hsigned hfinish hended

theorem reads_null : Sql.Reads "NULL".toList [.word "NULL"] :=
  Sql.Reads.of_scan (u := []) (s := .word ['N', 'U', 'L', 'L']) (by decide) (by decide) rfl

/-- **A default without a `NUL` is a literal**, and its tokens are written
like the default. -/
theorem DefaultText.exists_value {text : String} (h : DefaultText text)
    (hnul : '\x00' ∉ text.toList) :
    ∃ ts, Sql.Reads text.toList ts ∧ Sql.IsValue ts ∧ Text.join "" (ts.map Sql.Token.text) = text := by
  cases h with
  | number h => exact ⟨_, h.reads, .one rfl, rfl⟩
  | negative h =>
    refine ⟨_, h.reads_negative, .signed (Or.inl rfl) _, ?_⟩
    simp [Text.join, Sql.Token.text]
  | quoted value =>
    rw [nul_mem_sqlStringLiteral] at hnul
    have hreads := Sql.reads_quotation isQuotation_text hnul
    rw [← toList_sqlStringLiteral] at hreads
    refine ⟨_, hreads, .one rfl, ?_⟩
    rw [List.map_singleton, Text.join, Sql.Token.text, Sql.spelled, String.toList_ofList,
      if_pos isQuotation_text.closes, isQuotation_text.closes, ← toList_sqlStringLiteral,
      String.ofList_toList]
  | null => exact ⟨_, reads_null, .one (by decide), rfl⟩

theorem DefaultText.valueText {text : String} (h : DefaultText text)
    (hnul : '\x00' ∉ text.toList) : Sql.ValueText text :=
  (h.exists_value hnul).imp fun _ hts => ⟨hts.1, hts.2.1⟩

/-- A default with a `NUL` is a text in quotation marks. -/
theorem DefaultText.of_nul {text : String} (h : DefaultText text) (hnul : '\x00' ∈ text.toList) :
    ∃ value, text = sqlStringLiteral value ∧ '\x00' ∈ value.toList := by
  cases h with
  | number h => exact absurd hnul h.not_nul
  | negative h =>
    rw [String.toList_append] at hnul
    obtain hnul | hnul := List.mem_append.mp hnul
    · exact absurd hnul (by decide)
    · exact absurd hnul h.not_nul
  | quoted value => exact ⟨value, rfl, nul_mem_sqlStringLiteral.mp hnul⟩
  | null => exact absurd hnul (by decide)

end Seekwel.Model
