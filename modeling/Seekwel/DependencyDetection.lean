import Seekwel.DiffSpec
import Seekwel.Execution
import Seekwel.Namespace
import Seekwel.SqlTokenText
import Seekwel.DoubledMarks

/-!
# Dependencies that are found

A table that a view or a trigger uses is not rebuilt or dropped. Whether it is
used is found out by a search in the text for its name, in quotation marks and
as a word.

Neither search knows all of SQL's names. A quotation mark inside of a name is
written twice but searched for once, and a word may have a dollar sign or a
character beyond ASCII, at which the search takes it apart. `references_iff`
says which names are always found, for each way to write them, and
`blocked_of_uses` what is found is for: the plan is blocked.
-/

namespace Seekwel

open Sql (Token State IsEdge isIdChar isIdStart isIdentifier closingMark spelled)
open Text (replaceChar MarksAtEnds)

/-! ## Names as they are written -/

/-- How a name may be written. -/
inductive Spelling where
  | bare
  | doubleQuotes
  | backticks
  | brackets

def Spelling.token : Spelling → String → Token
  | bare, name => .word name
  | doubleQuotes, name => .quoted '"' name
  | backticks, name => .quoted '\x60' name
  | brackets, name => .quoted '[' name

/-- **A statement that uses a name**, written in some way and in any case.
It is one of a view or a trigger, which have no parameters. -/
def Uses (sql : String) (spelling : Spelling) (identifier : String) : Prop :=
  ∃ ts, Sql.tokens sql = some ts ∧ (∀ t ∈ ts, t.isParam = false)
    ∧ ∃ name, SameName name identifier ∧ spelling.token name ∈ ts

/-- **The names that are found** if they are written in some way. -/
def Spelling.Reveals (identifier : String) : Spelling → Prop
  | bare => isIdentifier identifier = true → ∀ c ∈ identifier.toList, isWordChar c = true
  | doubleQuotes => MarksAtEnds '"' identifier.toList
  | backticks => MarksAtEnds '\x60' identifier.toList
  | brackets => True

/-! ## Letters in lower case -/

/-- The letters are all there is to a character in lower case. -/
theorem toLower_cases (c : Char) :
    c.toLower = c ∨ c.isAlphanum = true ∧ c.toLower.isAlphanum = true
      ∧ isIdStart c = true ∧ isIdStart c.toLower = true := by
  by_cases h : c.isUpper = true
  · have hall : ∀ n < 128, (Char.ofNat n).isUpper = true →
        (Char.ofNat n).isAlphanum = true ∧ (Char.ofNat n).toLower.isAlphanum = true
          ∧ isIdStart (Char.ofNat n) = true ∧ isIdStart (Char.ofNat n).toLower = true := by
      decide
    have hlt : c.toNat < 128 := by
      have hle : c.toNat ≤ 90 := (of_decide_eq_true h).2
      omega
    have hc := hall c.toNat hlt
    rw [Char.ofNat_toNat] at hc
    exact .inr (hc h)
  · unfold Char.toLower
    exact .inl (dif_neg fun hupper => h (decide_eq_true hupper))

theorem isWordChar_toLower (c : Char) : isWordChar c.toLower = isWordChar c := by
  obtain h | ⟨h, h', -⟩ := toLower_cases c
  · rw [h]
  · simp [isWordChar, h, h']

theorem isIdChar_toLower_eq (c : Char) : isIdChar c.toLower = isIdChar c := by
  obtain h | ⟨h, h', -⟩ := toLower_cases c
  · rw [h]
  · simp [isIdChar, h, h']

theorem isIdStart_toLower (c : Char) : isIdStart c.toLower = isIdStart c := by
  obtain h | ⟨-, -, h, h'⟩ := toLower_cases c
  · rw [h]
  · rw [h, h']

/-- A mark is none of the letters. -/
theorem toLower_eq_iff {c m : Char} (hm : m.isAlphanum = false) : c.toLower = m ↔ c = m := by
  obtain h | ⟨h, h', -⟩ := toLower_cases c
  · rw [h]
  · refine iff_of_false ?_ ?_
    · rintro rfl
      rw [hm] at h'
      cases h'
    · rintro rfl
      rw [hm] at h
      cases h

theorem map_toLower_replaceChar {m : Char} (hm : m.isAlphanum = false) (l : List Char) :
    (replaceChar m [m, m] l).map Char.toLower = replaceChar m [m, m] (l.map Char.toLower) := by
  induction l with
  | nil => rfl
  | cons c l ih =>
    by_cases hc : c = m
    · subst hc
      have hself : c.toLower = c := (toLower_eq_iff hm).mpr rfl
      rw [Text.replaceChar_mark, List.map_cons, List.map_cons, ih, List.map_cons, hself,
        Text.replaceChar_mark]
    · rw [Text.replaceChar_other hc, List.map_cons, ih, List.map_cons,
        Text.replaceChar_other fun heq => hc ((toLower_eq_iff hm).mp heq)]

theorem marksAtEnds_map_toLower {m : Char} (hm : m.isAlphanum = false) {l : List Char} :
    MarksAtEnds m (l.map Char.toLower) ↔ MarksAtEnds m l := by
  have hself : m.toLower = m := (toLower_eq_iff hm).mpr rfl
  constructor
  · rintro ⟨i, mid, j, heq, hmid⟩
    have hreplicate : ∀ (k : ℕ) (part : List Char),
        part.map Char.toLower = List.replicate k m → part = List.replicate k m := by
      intro k part hpart
      refine List.eq_replicate_iff.mpr ⟨?_, fun c hc => ?_⟩
      · rw [← List.length_map, hpart, List.length_replicate]
      · have hmem := @List.mem_map_of_mem _ _ _ _ Char.toLower hc
        rw [hpart] at hmem
        exact (toLower_eq_iff hm).mp (List.eq_of_mem_replicate hmem)
    obtain ⟨first, rest, rfl, hfirst, hrest⟩ := List.map_eq_append_iff.mp heq
    obtain ⟨middle, last, rfl, rfl, hlast⟩ := List.map_eq_append_iff.mp hrest
    refine ⟨i, middle, j, ?_, fun hmem => hmid ?_⟩
    · rw [hreplicate i first hfirst, hreplicate j last hlast]
    · rw [← hself]
      exact List.mem_map_of_mem hmem
  · rintro ⟨i, mid, j, rfl, hmid⟩
    refine ⟨i, mid.map Char.toLower, j, ?_, fun hmem => hmid ?_⟩
    · rw [List.map_append, List.map_append, List.map_replicate, List.map_replicate, hself]
    · obtain ⟨c, hc, heq⟩ := List.mem_map.mp hmem
      rwa [(toLower_eq_iff hm).mp heq] at hc

/-! ## Words that are found -/

theorem scanTokens_append {identifier token w : List Char} (h : ∀ c ∈ w, isWordChar c = true)
    (rest : List Char) :
    scanTokens identifier token (w ++ rest) = scanTokens identifier (token ++ w) rest := by
  induction w generalizing token with
  | nil => rw [List.append_nil, List.nil_append]
  | cons c w ih =>
    rw [List.forall_mem_cons] at h
    rw [List.cons_append, scanTokens, if_pos h.1, ih h.2, List.append_assoc, List.singleton_append]

theorem scanTokens_self {identifier : List Char} {rest : List Char}
    (h : ∀ c ∈ rest.head?, isWordChar c = false) :
    scanTokens identifier identifier rest = true := by
  cases rest with
  | nil => simp [scanTokens]
  | cons c rest =>
    rw [scanTokens, h c rfl]
    simp

/-- A word is read anew after a character that no word has. -/
theorem scanTokens_after {identifier token before rest : List Char} {c : Char}
    (hc : isWordChar c = false) (h : scanTokens identifier [] rest = true) :
    scanTokens identifier token (before ++ c :: rest) = true := by
  induction before generalizing token with
  | nil =>
    rw [List.nil_append, scanTokens, hc, h]
    simp
  | cons d before ih =>
    rw [List.cons_append, scanTokens, ih, ih]
    split <;> simp

/-- **A word of the text** is found. -/
theorem scanTokens_of_word {before w after : List Char} (hw : ∀ c ∈ w, isWordChar c = true)
    (hbefore : ∀ c ∈ before.getLast?, isWordChar c = false)
    (hafter : ∀ c ∈ after.head?, isWordChar c = false) :
    scanTokens w [] (before ++ (w ++ after)) = true := by
  have hword : scanTokens w [] (w ++ after) = true := by
    rw [scanTokens_append hw, List.nil_append, scanTokens_self hafter]
  obtain rfl | ⟨before, c, rfl⟩ := List.eq_nil_or_concat before
  · exact hword
  · have hc : isWordChar c = false := hbefore c (by simp)
    simp only [List.concat_eq_append, List.append_assoc, List.singleton_append]
    exact scanTokens_after hc hword

/-- A name that is not a word is not found among the words. -/
theorem scanTokens_eq_false {identifier token : List Char} {c : Char} (hc : c ∈ identifier)
    (hword : isWordChar c = false) (htoken : ∀ d ∈ token, isWordChar d = true)
    (rest : List Char) : scanTokens identifier token rest = false := by
  have hne : ∀ token : List Char, (∀ d ∈ token, isWordChar d = true) → token ≠ identifier := by
    rintro token htoken rfl
    exact absurd (htoken c hc) (by rw [hword]; exact Bool.false_ne_true)
  induction rest generalizing token with
  | nil => exact decide_eq_false (hne token htoken)
  | cons d rest ih =>
    rw [scanTokens]
    split_ifs with hd
    · exact ih (List.forall_mem_append.mpr ⟨htoken, List.forall_mem_singleton.mpr hd⟩)
    · rw [ih (List.forall_mem_nil _), decide_eq_false (hne token htoken)]
      rfl

/-! ## Names that are found -/

/-- The characters of a text in lower case. -/
def lowered (s : String) : List Char := s.toList.map Char.toLower

theorem toList_toAsciiLowercase (s : String) : (Text.toAsciiLowercase s).toList = lowered s :=
  String.toList_ofList

theorem SameName.lowered_eq {x y : String} (h : SameName x y) : lowered x = lowered y := by
  rw [← toList_toAsciiLowercase, h, toList_toAsciiLowercase]

section Found

variable {sql identifier : String}

/-- **What is looked for**, character by character. -/
theorem references_eq_true_iff :
    sqlReferencesIdentifier sql identifier = true
      ↔ '"' :: (lowered identifier ++ ['"']) <:+: lowered sql
        ∨ '[' :: (lowered identifier ++ [']']) <:+: lowered sql
        ∨ '\x60' :: (lowered identifier ++ ['\x60']) <:+: lowered sql
        ∨ scanTokens (lowered identifier) [] (lowered sql) = true := by
  simp [sqlReferencesIdentifier, Text.contains, toList_toAsciiLowercase, or_assoc]

/-- A name that is quoted in the text is quoted in the text in lower case. -/
theorem infix_of_quoted {mark : Char} {name : String} (hm : mark.isAlphanum = false)
    (hclose : (closingMark mark).isAlphanum = false) (hname : SameName name identifier)
    (h : (Token.quoted mark name).StandsIn sql.toList) :
    mark :: (spelled mark (lowered identifier) ++ [closingMark mark]) <:+: lowered sql := by
  have hspelled : (spelled mark name.toList).map Char.toLower
      = spelled mark (lowered identifier) := by
    rw [← hname.lowered_eq, lowered]
    unfold spelled
    split_ifs
    · exact map_toLower_replaceChar hm _
    · rfl
  have hmap := List.IsInfix.map Char.toLower h
  rwa [List.map_cons, List.map_append, hspelled, List.map_singleton, (toLower_eq_iff hm).mpr rfl,
    (toLower_eq_iff hclose).mpr rfl] at hmap

/-- A word of the text is a word of the text in lower case. -/
theorem scanTokens_of_stands {name : String} (hname : SameName name identifier)
    (hword : ∀ c ∈ identifier.toList, isWordChar c = true)
    (h : (Token.word name).StandsIn sql.toList) :
    scanTokens (lowered identifier) [] (lowered sql) = true := by
  obtain ⟨-, before, after, hsql, hbefore, hafter⟩ := h
  have hedge : ∀ c : Char, isIdChar c = false → isWordChar c.toLower = false := by
    intro c hc
    rw [isWordChar_toLower]
    simp only [isIdChar, Bool.or_eq_false_iff] at hc
    simp [isWordChar, hc.1.1]
  have hsplit : lowered sql
      = before.map Char.toLower ++ (lowered identifier ++ after.map Char.toLower) := by
    rw [lowered, hsql, List.map_append, List.map_append, ← hname.lowered_eq, lowered]
  rw [hsplit]
  refine scanTokens_of_word ?_ ?_ ?_
  · refine List.forall_mem_map.mpr fun c hc => ?_
    rw [isWordChar_toLower]
    exact hword c hc
  · rw [List.getLast?_map]
    rintro c hc
    obtain ⟨d, hd, rfl⟩ := Option.map_eq_some_iff.mp hc
    exact hedge d (hbefore d hd)
  · rw [List.head?_map]
    rintro c hc
    obtain ⟨d, hd, rfl⟩ := Option.map_eq_some_iff.mp hc
    exact hedge d (hafter d hd)

theorem isIdChar_of_isIdentifier {name : String} (h : isIdentifier name = true) :
    ∀ c ∈ name.toList, isIdChar c = true := by
  unfold isIdentifier at h
  cases hname : name.toList with
  | nil => exact List.forall_mem_nil _
  | cons c cs =>
    rw [hname] at h
    simp only [Bool.and_eq_true, List.all_eq_true] at h
    exact List.forall_mem_cons.mpr ⟨Sql.isIdChar_of_isIdStart h.1, h.2⟩

theorem isIdentifier_of_sameName {x y : String} (h : SameName x y)
    (hx : isIdentifier x = true) : isIdentifier y = true := by
  have hlowered : ∀ s : String, isIdentifier s
      = ((lowered s).head?.any isIdStart && (lowered s).tail.all isIdChar) := by
    intro s
    rw [isIdentifier, lowered]
    cases s.toList with
    | nil => rfl
    | cons c cs =>
      have hall : (cs.map Char.toLower).all isIdChar = cs.all isIdChar := by
        rw [List.all_map]
        exact congrArg cs.all (funext isIdChar_toLower_eq)
      rw [List.map_cons, List.head?_cons, List.tail_cons, hall, Option.any_some,
        isIdStart_toLower]
  rw [hlowered, ← h.lowered_eq, ← hlowered, hx]

/-- **The names that are found** are those that the spelling reveals. -/
theorem references_of_uses {spelling : Spelling} (h : Uses sql spelling identifier)
    (hreveals : spelling.Reveals identifier) : sqlReferencesIdentifier sql identifier = true := by
  obtain ⟨ts, htokens, hparam, name, hname, hmem⟩ := h
  have hstands := Sql.standsIn_of_tokens htokens hparam _ hmem
  have hmarks : ∀ mark : Char, closingMark mark = mark → mark.isAlphanum = false →
      (Token.quoted mark name).StandsIn sql.toList → MarksAtEnds mark identifier.toList →
      mark :: (lowered identifier ++ [mark]) <:+: lowered sql := by
    intro mark hclose hm hquoted hends
    have hinfix := infix_of_quoted hm (by rwa [hclose]) hname hquoted
    rw [spelled, if_pos hclose, hclose] at hinfix
    exact (Text.infix_replaceChar_marks_iff.mpr ((marksAtEnds_map_toLower hm).mpr hends)).trans
      hinfix
  rw [references_eq_true_iff]
  cases spelling with
  | bare =>
    have hidentifier := isIdentifier_of_sameName hname hstands.1
    exact .inr (.inr (.inr (scanTokens_of_stands hname (hreveals hidentifier) hstands)))
  | doubleQuotes => exact .inl (hmarks '"' rfl rfl hstands hreveals)
  | backticks => exact .inr (.inr (.inl (hmarks '\x60' rfl rfl hstands hreveals)))
  | brackets => exact .inr (.inl (infix_of_quoted rfl rfl hname hstands))

end Found

/-! ## Names that are not found -/

/-- There is no mark in what a view begins with. -/
theorem not_mem_view {m : Char} (hm : m = '"' ∨ m = '[' ∨ m = '\x60') :
    m ∉ "create view v as select * from ".toList := by
  obtain rfl | rfl | rfl := hm
  all_goals decide +kernel

/-- A view of a table whose name is written in some way. -/
def viewOf (written : List Char) : String :=
  "CREATE VIEW v AS SELECT * FROM " ++ String.ofList written

theorem lowered_viewOf (written : List Char) :
    lowered (viewOf written)
      = "create view v as select * from ".toList ++ written.map Char.toLower := by
  have hview : "CREATE VIEW v AS SELECT * FROM ".toList.map Char.toLower
      = "create view v as select * from ".toList := by
    decide +kernel
  have htext : (viewOf written).toList = "CREATE VIEW v AS SELECT * FROM ".toList ++ written := by
    delta viewOf
    rw [String.toList_append]
    exact congrArg _ String.toList_ofList
  rw [lowered, htext, List.map_append, hview]

theorem uses_viewOf {written : List Char} {spelling : Spelling} {identifier : String}
    (h : Sql.Reads written [spelling.token identifier]) :
    Uses (viewOf written) spelling identifier := by
  have hscan : Sql.scan .start "CREATE VIEW v AS SELECT * FROM ".toList
      = some ([.word "CREATE", .word "VIEW", .word "v", .word "AS", .word "SELECT", .symbol "*",
        .word "FROM"], .start) := by
    decide +kernel
  have htokens := Sql.Reads.after hscan h
  rw [← String.toList_ofList (l := written), ← String.toList_append] at htokens
  refine ⟨_, htokens.tokens_eq, ?_, identifier, SameName.refl identifier, by simp⟩
  cases spelling <;> simp [Spelling.token, Token.isParam]

section Missed

variable {identifier : String}

/-- A word that has other characters is taken apart. -/
theorem not_references_bare (h : isIdentifier identifier = true)
    (hword : ¬ ∀ c ∈ identifier.toList, isWordChar c = true) :
    sqlReferencesIdentifier (viewOf identifier.toList) identifier ≠ true := by
  have hchars : ∀ c ∈ lowered identifier, isIdChar c = true := by
    refine List.forall_mem_map.mpr fun c hc => ?_
    rw [isIdChar_toLower_eq]
    exact isIdChar_of_isIdentifier h c hc
  have hmarks : ∀ {m : Char}, m = '"' ∨ m = '[' ∨ m = '\x60' →
      m ∉ lowered (viewOf identifier.toList) := by
    intro m hm hmem
    rw [lowered_viewOf, List.mem_append] at hmem
    obtain hmem | hmem := hmem
    · exact not_mem_view hm hmem
    · have hchar := hchars m hmem
      obtain rfl | rfl | rfl := hm
      all_goals exact absurd hchar (by decide)
  rw [Ne, references_eq_true_iff]
  rintro (hfound | hfound | hfound | hfound)
  · exact hmarks (.inl rfl) (hfound.subset List.mem_cons_self)
  · exact hmarks (.inr (.inl rfl)) (hfound.subset List.mem_cons_self)
  · exact hmarks (.inr (.inr rfl)) (hfound.subset List.mem_cons_self)
  · push Not at hword
    obtain ⟨c, hc, hother⟩ := hword
    have hmem : c.toLower ∈ lowered identifier := List.mem_map_of_mem hc
    have hlower : isWordChar c.toLower = false := by
      rw [isWordChar_toLower]
      exact Bool.eq_false_iff.mpr hother
    rw [scanTokens_eq_false hmem hlower (List.forall_mem_nil _)] at hfound
    cases hfound

/-- A name with a mark inside of it is not found in such marks. -/
theorem not_references_quoted {m : Char} (hm : m = '"' ∨ m = '\x60')
    (h : ¬ MarksAtEnds m identifier.toList) :
    sqlReferencesIdentifier
      (viewOf (m :: (replaceChar m [m, m] identifier.toList ++ [m]))) identifier ≠ true := by
  have hletter : m.isAlphanum = false := by
    obtain rfl | rfl := hm
    all_goals rfl
  have hself : m.toLower = m := (toLower_eq_iff hletter).mpr rfl
  have hlowered : lowered (viewOf (m :: (replaceChar m [m, m] identifier.toList ++ [m])))
      = "create view v as select * from ".toList
        ++ m :: (replaceChar m [m, m] (lowered identifier) ++ [m]) := by
    rw [lowered_viewOf, List.map_cons, List.map_append, map_toLower_replaceChar hletter,
      List.map_singleton, hself]
    rfl
  have hsame : ¬ m :: (lowered identifier ++ [m])
      <:+: lowered (viewOf (m :: (replaceChar m [m, m] identifier.toList ++ [m]))) := by
    rw [hlowered]
    intro hinfix
    have hmarks := Text.infix_replaceChar_marks_iff.mp
      (Text.infix_of_infix_append (not_mem_view (by tauto)) hinfix)
    exact h ((marksAtEnds_map_toLower hletter).mp hmarks)
  have hother : ∀ {c d : Char}, c = '"' ∨ c = '[' ∨ c = '\x60' → c ≠ m →
      ¬ c :: (lowered identifier ++ [d])
        <:+: lowered (viewOf (m :: (replaceChar m [m, m] identifier.toList ++ [m]))) := by
    intro c d hc hne
    rw [hlowered]
    exact Text.not_infix_of_other (not_mem_view hc) hne
  have hscan : scanTokens (lowered identifier) []
      (lowered (viewOf (m :: (replaceChar m [m, m] identifier.toList ++ [m])))) = false := by
    have hmem : m ∈ lowered identifier := by
      by_contra hnot
      exact h ((marksAtEnds_map_toLower hletter).mp (Text.marksAtEnds_of_not_mem hnot))
    have hword : isWordChar m = false := by
      obtain rfl | rfl := hm
      all_goals rfl
    exact scanTokens_eq_false hmem hword (List.forall_mem_nil _) _
  rw [Ne, references_eq_true_iff, hscan]
  rintro (hfound | hfound | hfound | hfound)
  · obtain rfl | rfl := hm
    · exact hsame hfound
    · exact hother (.inl rfl) (by decide) hfound
  · exact hother (.inr (.inl rfl)) (by obtain rfl | rfl := hm <;> decide) hfound
  · obtain rfl | rfl := hm
    · exact hother (.inr (.inr rfl)) (by decide) hfound
    · exact hsame hfound
  · cases hfound

end Missed

/-- **Names are found** exactly if the way they are written reveals them. -/
theorem references_iff {identifier : String} (hnul : '\x00' ∉ identifier.toList)
    {spelling : Spelling} :
    (∀ sql, Uses sql spelling identifier → sqlReferencesIdentifier sql identifier = true)
      ↔ spelling.Reveals identifier := by
  refine ⟨fun hall => ?_, fun hreveals sql huses => references_of_uses huses hreveals⟩
  have hquoted : ∀ {m : Char}, Sql.IsQuotation m → m = '"' ∨ m = '\x60' →
      spelling.token identifier = .quoted m identifier → MarksAtEnds m identifier.toList := by
    intro m hquotation hm htoken
    by_contra hnot
    have hreads := Sql.reads_quotation hquotation hnul
    rw [String.ofList_toList, ← htoken] at hreads
    exact not_references_quoted hm hnot (hall _ (uses_viewOf hreads))
  cases spelling with
  | bare =>
    intro hidentifier
    by_contra hnot
    exact not_references_bare hidentifier hnot
      (hall _ (uses_viewOf (Sql.reads_identifier hidentifier)))
  | doubleQuotes => exact hquoted Sql.isQuotation_name (.inl rfl) rfl
  | backticks => exact hquoted (by constructor <;> decide) (.inr rfl) rfl
  | brackets => trivial

/-! ## Plans that are blocked -/

section Plans

variable {target : SchemaDef} {actual : LiveSchema} {r : DiffResult}

/-- A table that is rebuilt or dropped is there, and what depends on it blocks
the plan. -/
theorem dependencyBlockers_of_destructive (ht : target.WellFormed) (hk : actual.Keyed)
    (h : diff target actual = .ok r) {op : PlanOp} (hop : op ∈ r.ops)
    (hdestructive : op.isDestructive = true) :
    ∃ a, actual.get? op.tableName = some a
      ∧ ∀ b ∈ dependencyBlockers op.tableName a, b ∈ (diffPart target actual op.tableName).2 := by
  have hmem := (mem_diff_ops_iff ht hk h).mp hop
  unfold diffPart at hmem ⊢
  cases hd : target.tableMap.get? op.tableName with
  | none =>
    rw [hd] at hmem
    cases ha : actual.get? op.tableName with
    | none =>
      rw [ha] at hmem
      cases hmem
    | some a => exact ⟨a, rfl, fun b hb => hb⟩
  | some desired =>
    rw [hd] at hmem
    unfold diffTarget at hmem ⊢
    dsimp only at hmem ⊢
    cases ha : actual.get? op.tableName with
    | none =>
      rw [ha] at hmem
      rw [List.mem_singleton.mp hmem] at hdestructive
      cases hdestructive
    | some a =>
      rw [ha] at hmem
      dsimp only at hmem ⊢
      unfold diffTable at hmem ⊢
      dsimp only at hmem ⊢
      split_ifs at hmem ⊢ with hreasons
      · exact ⟨a, rfl, fun b hb => List.mem_append_right _ (List.mem_append_right _ hb)⟩
      · obtain hadd | hindex := List.mem_append.mp hmem
        · obtain ⟨c, -, heq⟩ := List.mem_map.mp hadd
          rw [← heq] at hdestructive
          cases hdestructive
        · obtain ⟨i, heq⟩ | ⟨i, heq⟩ := indexOps_cases hindex
          all_goals
            rw [heq] at hdestructive
            cases hdestructive

/-- A view, or a trigger of another table, that uses a table blocks its
removal. -/
theorem dependencyBlockers_ne_nil {db : Database} {identifier text : String} {o : SchemaObject}
    {sql : String} (ho : (o, sql) ∈ dependencyCandidates db) (htable : o.tblName ≠ identifier)
    (hreferences : sqlReferencesIdentifier sql identifier = true) :
    dependencyBlockers identifier (introspectTable db identifier text) ≠ [] := by
  have hmem : (o, sql) ∈ (dependencyCandidates db).filter (fun candidate =>
      candidate.1.tblName ≠ identifier && sqlReferencesIdentifier candidate.2 identifier) :=
    List.mem_filter.mpr ⟨ho, by simp [htable, hreferences]⟩
  have hkind : o.kind = .view ∨ o.kind = .trigger := by
    obtain ⟨o', -, heq⟩ := List.mem_filterMap.mp ho
    split at heq
    next hview _ =>
      cases heq
      exact .inl hview
    next htrigger _ =>
      cases heq
      exact .inr htrigger
    next => cases heq
  intro hnil
  rw [dependencyBlockers, List.append_eq_nil_iff, List.append_eq_nil_iff, List.map_eq_nil_iff,
    List.map_eq_nil_iff] at hnil
  obtain hview | htrigger := hkind
  · have hname : o.name ∈ (introspectTable db identifier text).dependentViews :=
      List.mem_map.mpr ⟨(o, sql), List.mem_filter.mpr ⟨hmem, decide_eq_true hview⟩, rfl⟩
    rw [hnil.1.2] at hname
    exact List.not_mem_nil hname
  · have hname : o.name ∈ (introspectTable db identifier text).dependentExternalTriggers :=
      List.mem_map.mpr ⟨(o, sql), List.mem_filter.mpr ⟨hmem, decide_eq_true htrigger⟩, rfl⟩
    rw [hnil.2] at hname
    exact List.not_mem_nil hname

/-- **A table that is used is neither rebuilt nor dropped**, if the way its
name is written reveals it. -/
theorem blocked_of_uses (ht : target.WellFormed) {db : Database} {scope : List String}
    (h : diff target (introspectManaged db scope) = .ok r) {o : SchemaObject} {sql : String}
    (ho : (o, sql) ∈ dependencyCandidates db) {op : PlanOp} (hop : op ∈ r.ops)
    (hdestructive : op.isDestructive = true) (htable : o.tblName ≠ op.tableName)
    (hreferences : sqlReferencesIdentifier sql op.tableName = true) : r.blockers ≠ [] := by
  obtain ⟨a, ha, hblockers⟩ := dependencyBlockers_of_destructive ht
    (introspectManaged_keyed db scope) h hop hdestructive
  obtain ⟨-, -, text, -, -, rfl⟩ := get?_introspectManaged_eq_some ha
  intro hnil
  have hpart := part_blockers_eq_nil h hnil op.tableName
  obtain ⟨b, hb⟩ := List.exists_mem_of_ne_nil _ (dependencyBlockers_ne_nil ho htable hreferences)
  rw [hpart] at hblockers
  exact List.not_mem_nil (hblockers b hb)

end Plans

/-- **Dependencies are found** exactly if the way that a name is written
reveals it: a word has only letters, digits and underscores, and a name in
quotation marks has such a mark at its ends only. Then a table that is used is
neither rebuilt nor dropped. -/
theorem dependencies_found_iff {identifier : String} (hnul : '\x00' ∉ identifier.toList)
    (spelling : Spelling) :
    ((∀ sql, Uses sql spelling identifier → sqlReferencesIdentifier sql identifier = true)
        ↔ spelling.Reveals identifier)
      ∧ (spelling.Reveals identifier → ∀ db scope target r, SchemaDef.WellFormed target →
        diff target (introspectManaged db scope) = .ok r →
        ∀ o sql, (o, sql) ∈ dependencyCandidates db → o.tblName ≠ identifier →
        Uses sql spelling identifier →
        ∀ op ∈ r.ops, op.isDestructive = true → op.tableName = identifier → r.blockers ≠ []) := by
  refine ⟨references_iff hnul, ?_⟩
  rintro hreveals db scope target r ht h o sql ho htable huses op hop hdestructive rfl
  exact blocked_of_uses ht h ho hop hdestructive htable (references_of_uses huses hreveals)

/-- A view of a table with a name in letters and underscores is found. -/
theorem user_posts_found :
    sqlReferencesIdentifier "CREATE VIEW v AS SELECT * FROM User_Posts" "user_posts" = true := by
  have hnul : '\x00' ∉ "user_posts".toList := by decide
  have huses : Uses "CREATE VIEW v AS SELECT * FROM User_Posts" .bare "user_posts" :=
    ⟨[.word "CREATE", .word "VIEW", .word "v", .word "AS", .word "SELECT", .symbol "*",
      .word "FROM", .word "User_Posts"], by decide +kernel, by decide, "User_Posts",
      by unfold SameName; decide, by simp [Spelling.token]⟩
  have hreveals : Spelling.bare.Reveals "user_posts" := fun _ => by
    simp [isWordChar]
  exact (dependencies_found_iff hnul .bare).1.mpr hreveals _ huses

/-- **A view of `café`** is not found. -/
theorem cafe_not_found :
    Uses "CREATE VIEW v AS SELECT * FROM café" .bare "café"
      ∧ sqlReferencesIdentifier "CREATE VIEW v AS SELECT * FROM café" "café" = false := by
  refine ⟨⟨[.word "CREATE", .word "VIEW", .word "v", .word "AS", .word "SELECT", .symbol "*",
    .word "FROM", .word "café"], by decide +kernel, by decide, "café", SameName.refl _, ?_⟩, ?_⟩
  · simp [Spelling.token]
  · decide +kernel

end Seekwel
