import Seekwel.Text
import Mathlib.Data.List.TakeWhile
import Mathlib.Data.List.Forall2

/-!
# JSON

`Json.parse` reads a text as JSON. It is strict: a string has no control
character and only the escapes there are, a number has no leading zero, a
list no trailing comma, and nothing but white space follows the value.

A text is put together from texts of its parts, and what it is read as from
what they are read as. `Reads` is a text with what it is read as, wherever it
stands, and there is one rule for each form of a value (`reads_string`,
`reads_array`, `reads_object`, …).
-/

/-- A value that JSON has. -/
inductive Json where
  | null
  | bool (value : Bool)
  /-- A number, which is its mantissa times a power of ten. -/
  | number (mantissa exponent : ℤ)
  | string (value : String)
  | array (elements : List Json)
  | object (members : List (String × Json))

namespace Json

/-! ## The parser

A parser takes a part of the text and says what is left. What is nested, and
what is repeated, is counted down by a number that the length of the text
bounds. -/

def isSpace (c : Char) : Bool := c = ' ' || c = '\t' || c = '\n' || c = '\r'

def skipSpace (s : List Char) : List Char := s.dropWhile isSpace

/-! ### Strings -/

def hexValue (c : Char) : Option ℕ :=
  if '0' ≤ c ∧ c ≤ '9' then some (c.toNat - 48)
  else if 'a' ≤ c ∧ c ≤ 'f' then some (c.toNat - 87)
  else if 'A' ≤ c ∧ c ≤ 'F' then some (c.toNat - 55)
  else none

/-- Four hexadecimal digits. -/
def codeUnit : List Char → Option (ℕ × List Char)
  | a :: b :: c :: d :: rest =>
    match hexValue a, hexValue b, hexValue c, hexValue d with
    | some a, some b, some c, some d => some (((a * 16 + b) * 16 + c) * 16 + d, rest)
    | _, _, _, _ => none
  | _ => none

/-- A character by its code unit, or by two of them. -/
def unicodeEscape (s : List Char) : Option (Char × List Char) :=
  match codeUnit s with
  | none => none
  | some (high, rest) =>
    if high < 0xd800 ∨ 0xdfff < high then some (Char.ofNat high, rest)
    else if high < 0xdc00 then
      match rest with
      | '\\' :: 'u' :: rest =>
        match codeUnit rest with
        | none => none
        | some (low, rest) =>
          if 0xdc00 ≤ low ∧ low ≤ 0xdfff then
            some (Char.ofNat (0x10000 + (high - 0xd800) * 0x400 + (low - 0xdc00)), rest)
          else none
      | _ => none
    else none

/-- A character after a backslash. -/
def escape : List Char → Option (Char × List Char)
  | [] => none
  | c :: rest =>
    if c = '"' ∨ c = '\\' ∨ c = '/' then some (c, rest)
    else if c = 'b' then some (Char.ofNat 8, rest)
    else if c = 'f' then some (Char.ofNat 12, rest)
    else if c = 'n' then some ('\n', rest)
    else if c = 'r' then some ('\r', rest)
    else if c = 't' then some ('\t', rest)
    else if c = 'u' then unicodeEscape rest
    else none

/-- A character of a string. -/
def character : List Char → Option (Char × List Char)
  | [] => none
  | c :: rest =>
    if c = '\\' then escape rest
    else if c.toNat < 0x20 then none
    else some (c, rest)

/-- A string after its first quotation mark. -/
def stringBody : ℕ → List Char → Option (List Char × List Char)
  | 0, _ => none
  | n + 1, s =>
    if s.head? = some '"' then some ([], s.tail)
    else
      match character s with
      | none => none
      | some (c, rest) => (stringBody n rest).map fun r => (c :: r.1, r.2)

/-! ### Numbers -/

def digits (s : List Char) : List Char × List Char :=
  (s.takeWhile Char.isDigit, s.dropWhile Char.isDigit)

/-- The digits after a point. There is at least one. -/
def fraction (s : List Char) : Option (List Char × List Char) :=
  if s.head? = some '.' then
    let (ds, rest) := digits s.tail
    if ds = [] then none else some (ds, rest)
  else some ([], s)

def exponent (s : List Char) : Option (ℤ × List Char) :=
  if s.head? = some 'e' ∨ s.head? = some 'E' then
    let sign := s.tail.head?
    let unsigned := if sign = some '+' ∨ sign = some '-' then s.tail.tail else s.tail
    let (ds, rest) := digits unsigned
    let n : ℤ := Nat.ofDigitChars 10 ds 0
    if ds = [] then none else some (if sign = some '-' then -n else n, rest)
  else some (0, s)

/-- A number, whose whole part has no leading zero. -/
def numberBody (s : List Char) : Option (Json × List Char) :=
  let negative := s.head? = some '-'
  let (whole, rest) := digits (if negative then s.tail else s)
  if whole = [] ∨ (whole.head? = some '0' ∧ whole ≠ ['0']) then none
  else
    match fraction rest with
    | none => none
    | some (part, rest) =>
      match exponent rest with
      | none => none
      | some (e, rest) =>
        let n : ℤ := Nat.ofDigitChars 10 (whole ++ part) 0
        some (number (if negative then -n else n) (e - part.length), rest)

/-! ### Values -/

/-- Parts with commas between them, up to a bracket. -/
def sequence {α : Type} (close : Char) (p : List Char → Option (α × List Char)) :
    ℕ → List Char → Option (List α × List Char)
  | 0, _ => none
  | n + 1, s =>
    match p s with
    | none => none
    | some (a, rest) =>
      match skipSpace rest with
      | [] => none
      | c :: rest =>
        if c = ',' then (sequence close p n rest).map fun r => (a :: r.1, r.2)
        else if c = close then some ([a], rest)
        else none

/-- What stands in brackets, or nothing. -/
def bracketed {α : Type} (close : Char) (p : List Char → Option (α × List Char)) (n : ℕ)
    (s : List Char) : Option (List α × List Char) :=
  if (skipSpace s).head? = some close then some ([], (skipSpace s).tail)
  else sequence close p n s

/-- A member of an object. -/
def member (value : List Char → Option (Json × List Char)) (n : ℕ) (s : List Char) :
    Option ((String × Json) × List Char) :=
  if (skipSpace s).head? = some '"' then
    match stringBody n (skipSpace s).tail with
    | none => none
    | some (key, rest) =>
      if (skipSpace rest).head? = some ':' then
        (value (skipSpace rest).tail).map fun r => ((String.ofList key, r.1), r.2)
      else none
  else none

def literals : List (List Char × Json) :=
  [(['n', 'u', 'l', 'l'], null), (['t', 'r', 'u', 'e'], bool true),
    (['f', 'a', 'l', 's', 'e'], bool false)]

/-- **A value**, after white space. -/
def value : ℕ → List Char → Option (Json × List Char)
  | 0, _ => none
  | n + 1, s =>
    let s := skipSpace s
    if s.head? = some '"' then (stringBody n s.tail).map fun r => (string (String.ofList r.1), r.2)
    else if s.head? = some '[' then (bracketed ']' (value n) n s.tail).map fun r => (array r.1, r.2)
    else if s.head? = some '\x7b' then
      (bracketed '\x7d' (member (value n) n) n s.tail).map fun r => (object r.1, r.2)
    else
      match literals.find? fun l => l.1.isPrefixOf s with
      | some (word, j) => some (j, s.drop word.length)
      | none => numberBody s

/-- **The value of a text.** -/
def parse (text : String) : Option Json :=
  match value (text.length + 1) text.toList with
  | some (j, rest) => if skipSpace rest = [] then some j else none
  | none => none

/-! ## Texts and what they are read as -/

/-- What may follow a value inside another one. -/
def Ends (rest : List Char) : Prop := ∀ c ∈ rest.head?, c = ',' ∨ c = ']' ∨ c = '\x7d'

/-- A text that a parser reads, whatever follows. -/
def ReadsBy {α : Type} (p : ℕ → List Char → Option (α × List Char)) (text : String) (a : α) :
    Prop :=
  ∀ n rest, text.length < n → Ends rest → p n (text.toList ++ rest) = some (a, rest)

/-- **A text of a value.** -/
def Reads : String → Json → Prop := ReadsBy value

/-- A text of a member of an object. -/
def ReadsMember : String → String × Json → Prop := ReadsBy fun n => member (value n) n

/-- A text of a string, between its quotation marks. -/
def Spells (text s : String) : Prop :=
  ∀ n rest, text.length < n →
    stringBody n (text.toList ++ '"' :: rest) = some (s.toList, rest)

theorem skipSpace_cons {c : Char} (h : isSpace c = false) (s : List Char) :
    skipSpace (c :: s) = c :: s :=
  List.dropWhile_cons_of_neg (by rw [h]; exact Bool.false_ne_true)

/-- **Reading a whole text.** -/
theorem parse_of_reads {text : String} {j : Json} (h : Reads text j) : parse text = some j := by
  have hvalue := h (text.length + 1) [] (Nat.lt_succ_self _) nofun
  rw [List.append_nil] at hvalue
  rw [parse, hvalue]
  rfl

/-! ### Strings -/

/-- A text of a character in a string. -/
structure ReadsChar (text : List Char) (c : Char) : Prop where
  head : ∃ d, text.head? = some d ∧ d ≠ '"'
  eq : ∀ rest, character (text ++ rest) = some (c, rest)

theorem stringBody_flatten {spelling : List (List Char)} {cs : List Char}
    (h : List.Forall₂ ReadsChar spelling cs) {n : ℕ} (hn : spelling.flatten.length < n)
    (rest : List Char) :
    stringBody n (spelling.flatten ++ '"' :: rest) = some (cs, rest) := by
  induction h generalizing n with
  | nil =>
    obtain ⟨m, rfl⟩ := Nat.exists_eq_add_of_lt hn
    rfl
  | @cons text c spelling cs hhead _ ih =>
    obtain ⟨⟨d, hd, hquote⟩, hcharacter⟩ := hhead
    obtain ⟨m, rfl⟩ := Nat.exists_eq_succ_of_ne_zero (Nat.ne_of_gt (Nat.lt_of_le_of_lt
      (Nat.zero_le _) hn))
    have htext : text = d :: text.tail := by
      cases text with
      | nil => cases hd
      | cons e text => rw [← Option.some.inj hd]; rfl
    have hlength : spelling.flatten.length < m := by
      rw [List.flatten_cons, List.length_append, htext, List.length_cons] at hn
      omega
    have hne : (text ++ (spelling.flatten ++ '"' :: rest)).head? ≠ some '"' := by
      rw [htext]
      exact fun heq => hquote (Option.some.inj heq)
    rw [List.flatten_cons, List.append_assoc, stringBody, if_neg hne, hcharacter]
    simp only [ih hlength, Option.map_some]

/-- **A string whose characters are spelled** one by one. -/
theorem spells_flatMap {f : Char → List Char} {s : String}
    (h : ∀ c ∈ s.toList, ReadsChar (f c) c) : Spells (String.ofList (s.toList.flatMap f)) s := by
  intro n rest hn
  have hspelling : List.Forall₂ ReadsChar (s.toList.map f) s.toList :=
    List.forall₂_map_left_iff.mpr (List.forall₂_same.mpr h)
  rw [String.length_ofList, List.flatMap_def] at hn
  rw [String.toList_ofList, List.flatMap_def]
  exact stringBody_flatten hspelling hn rest

/-- A character that spells itself. -/
def isPlain (c : Char) : Bool := c ≠ '"' && c ≠ '\\' && 0x20 ≤ c.toNat

theorem readsChar_plain {c : Char} (h : isPlain c = true) : ReadsChar [c] c := by
  simp only [isPlain, Bool.and_eq_true, decide_eq_true_eq] at h
  refine ⟨⟨c, rfl, h.1.1⟩, fun rest => ?_⟩
  rw [List.singleton_append, character, if_neg h.1.2, if_neg (Nat.not_lt.mpr h.2)]

theorem spells_plain {s : String} (h : s.toList.all isPlain = true) : Spells s s := by
  have hself := spells_flatMap fun c hc => readsChar_plain (List.all_eq_true.mp h c hc)
  rwa [List.flatMap_singleton', String.ofList_toList] at hself

/-- A number that bounds something is the successor of one. -/
theorem exists_succ_of_lt {k n : ℕ} (h : k < n) : ∃ m, n = m + 1 ∧ k ≤ m := by
  cases n with
  | zero => cases h
  | succ m => exact ⟨m, rfl, Nat.le_of_lt_succ h⟩

theorem reads_string {text s : String} (h : Spells text s) :
    Reads ("\"" ++ text ++ "\"") (string s) := by
  intro n rest hn _
  obtain ⟨m, rfl, hm⟩ := exists_succ_of_lt hn
  have hlist : ("\"" ++ text ++ "\"").toList ++ rest = '"' :: (text.toList ++ '"' :: rest) := by
    simp
  have hbody : stringBody m (text.toList ++ '"' :: rest) = some (s.toList, rest) := by
    refine h m rest ?_
    rw [String.length_append, String.length_append] at hm
    have hquote : "\"".length = 1 := rfl
    omega
  rw [hlist, value, skipSpace_cons rfl, List.head?_cons, if_pos rfl, List.tail_cons, hbody,
    Option.map_some, String.ofList_toList]

/-! ### Literals and numbers -/

theorem reads_null : Reads "null" null := by
  intro n rest hn _
  obtain ⟨m, rfl, -⟩ := exists_succ_of_lt hn
  rfl

theorem reads_bool (b : Bool) : Reads (toString b) (bool b) := by
  intro n rest hn _
  obtain ⟨m, rfl, -⟩ := exists_succ_of_lt hn
  cases b <;> rfl

/-- Only zero is written with a leading zero. -/
theorem eq_zero_of_head_toDigits {n : ℕ} (h : (Nat.toDigits 10 n).head? = some '0') : n = 0 := by
  induction n using Nat.strong_induction_on with
  | _ n ih =>
    rw [Nat.toDigits_eq_if (by decide)] at h
    split_ifs at h with hlt
    · have hall : ∀ n < 10, Nat.digitChar n = '0' → n = 0 := by decide
      exact hall n hlt (Option.some.inj h)
    · rw [List.head?_append_of_ne_nil _ Nat.toDigits_ne_nil] at h
      have hzero := ih (n / 10) (by omega) h
      omega

/-- Digits that something else follows. -/
theorem digits_append {ds rest : List Char} (hds : ∀ c ∈ ds, c.isDigit = true)
    (hrest : ∀ c ∈ rest.head?, c.isDigit = false) : digits (ds ++ rest) = (ds, rest) := by
  have hnone : rest.takeWhile Char.isDigit = [] ∧ rest.dropWhile Char.isDigit = rest := by
    cases rest with
    | nil => exact ⟨rfl, rfl⟩
    | cons c rest =>
      have hc : ¬ c.isDigit = true := by rw [hrest c rfl]; exact Bool.false_ne_true
      exact ⟨List.takeWhile_cons_of_neg hc, List.dropWhile_cons_of_neg hc⟩
  rw [digits, List.takeWhile_append_of_pos hds, List.dropWhile_append_of_pos hds, hnone.1,
    hnone.2, List.append_nil]

theorem numberBody_toDigits (n : ℕ) {rest : List Char} (hends : Ends rest) :
    numberBody (Nat.toDigits 10 n ++ rest) = some (number n 0, rest) := by
  have hds : ∀ c ∈ Nat.toDigits 10 n, c.isDigit = true :=
    fun c hc => Nat.isDigit_of_mem_toDigits (by decide) (by decide) hc
  have hne : Nat.toDigits 10 n ≠ [] := Nat.toDigits_ne_nil
  have hrest : ∀ c ∈ rest.head?, c.isDigit = false ∧ c ≠ '.' ∧ c ≠ 'e' ∧ c ≠ 'E' := by
    intro c hc
    obtain rfl | rfl | rfl := hends c hc
    all_goals decide
  have hhead : (Nat.toDigits 10 n ++ rest).head? ≠ some '-' := by
    rw [List.head?_append_of_ne_nil _ hne]
    intro hminus
    exact absurd (hds _ (List.mem_of_mem_head? hminus)) (by decide)
  have hzero : ¬ (Nat.toDigits 10 n = [] ∨ (Nat.toDigits 10 n).head? = some '0'
      ∧ Nat.toDigits 10 n ≠ ['0']) := by
    rintro (hnil | ⟨hlead, hlong⟩)
    · exact hne hnil
    · obtain rfl := eq_zero_of_head_toDigits hlead
      exact hlong rfl
  have hfraction : fraction rest = some ([], rest) :=
    if_neg fun hpoint => (hrest _ hpoint).2.1 rfl
  have hexponent : exponent rest = some (0, rest) := by
    refine if_neg ?_
    rintro (he | he)
    · exact (hrest _ he).2.2.1 rfl
    · exact (hrest _ he).2.2.2 rfl
  simp only [numberBody, hhead, if_false, digits_append hds fun c hc => (hrest c hc).1,
    if_neg hzero, hfraction, hexponent, List.append_nil, Nat.ofDigitChars_ten_toDigits,
    List.length_nil]
  rfl

theorem reads_nat (n : ℕ) : Reads (toString n) (number n 0) := by
  intro m rest hm hends
  obtain ⟨m, rfl, -⟩ := exists_succ_of_lt hm
  have hlist : (toString n).toList = Nat.toDigits 10 n := by
    rw [Nat.toString_eq_repr, Nat.toList_repr]
  obtain ⟨c, ds, hcons⟩ := List.exists_cons_of_ne_nil
    (Nat.toDigits_ne_nil : Nat.toDigits 10 n ≠ [])
  have hdigit : c.isDigit = true :=
    Nat.isDigit_of_mem_toDigits (by decide) (by decide) (hcons ▸ List.mem_cons_self)
  have hne : ∀ d : Char, d.isDigit = false → c ≠ d := by
    rintro d hd rfl
    exact absurd (hdigit.symm.trans hd) (by decide)
  have hspace : isSpace c = false := by
    simp [isSpace, hne ' ' (by decide), hne '\t' (by decide), hne '\n' (by decide),
      hne '\r' (by decide)]
  have hliteral : (literals.find? fun l => l.1.isPrefixOf (c :: (ds ++ rest))) = none := by
    simp [literals, (hne 'n' (by decide)).symm, (hne 't' (by decide)).symm,
      (hne 'f' (by decide)).symm]
  have hnumber := numberBody_toDigits n hends
  rw [hcons, List.cons_append] at hnumber
  rw [hlist, hcons, List.cons_append, value]
  simp only [skipSpace_cons hspace, List.head?_cons, Option.some.injEq, hne '"' (by decide),
    hne '[' (by decide), hne '\x7b' (by decide), if_false, hliteral]
  exact hnumber

/-! ### Lists and objects -/

theorem ends_cons {c : Char} (h : c = ',' ∨ c = ']' ∨ c = '\x7d') (rest : List Char) :
    Ends (c :: rest) := by
  rintro d ⟨⟩
  exact h

theorem join_cons (first next : String) (texts : List String) :
    Text.join "," (first :: next :: texts) = first ++ "," ++ Text.join "," (next :: texts) :=
  rfl

section Sequences

variable {α : Type} {p : List Char → Option (α × List Char)} {texts : List String}
  {as : List α} {close : Char}

/-- **Parts that are joined by commas** are read one after the other. -/
theorem sequence_join (hclose : close = ']' ∨ close = '\x7d')
    (h : List.Forall₂ (fun text a => ∀ rest, Ends rest →
      p (text.toList ++ rest) = some (a, rest)) texts as)
    (hne : texts ≠ []) {n : ℕ} (hn : texts.length ≤ n) (rest : List Char) :
    sequence close p n ((Text.join "," texts).toList ++ close :: rest) = some (as, rest) := by
  have hspace : isSpace close = false ∧ close ≠ ',' := by
    obtain rfl | rfl := hclose
    all_goals decide
  induction h generalizing n with
  | nil => exact absurd rfl hne
  | @cons text a texts as hhead htail ih =>
    obtain ⟨m, rfl, hm⟩ := exists_succ_of_lt hn
    cases htail with
    | nil =>
      rw [Text.join, sequence, hhead _ (ends_cons (.inr hclose) rest)]
      simp only [skipSpace_cons hspace.1, if_neg hspace.2, if_true]
    | @cons next b texts bs hnext htail =>
      have hlist : (Text.join "," (text :: next :: texts)).toList ++ close :: rest
          = text.toList ++ ',' :: ((Text.join "," (next :: texts)).toList ++ close :: rest) := by
        rw [join_cons]
        simp
      rw [hlist, sequence, hhead _ (ends_cons (.inl rfl) _)]
      simp only [skipSpace_cons (show isSpace ',' = false from rfl), if_true,
        ih (List.cons_ne_nil _ _) hm, Option.map_some]

/-- What is in brackets. -/
theorem bracketed_join (hclose : close = ']' ∨ close = '\x7d')
    (hhead : ∀ s r, p s = some r → (skipSpace s).head? ≠ some close)
    (h : List.Forall₂ (fun text a => ∀ rest, Ends rest →
      p (text.toList ++ rest) = some (a, rest)) texts as)
    {n : ℕ} (hn : texts.length ≤ n) (rest : List Char) :
    bracketed close p n ((Text.join "," texts).toList ++ close :: rest) = some (as, rest) := by
  have hspace : isSpace close = false := by
    obtain rfl | rfl := hclose
    all_goals rfl
  cases h with
  | nil =>
    show bracketed close p n (close :: rest) = _
    rw [bracketed, skipSpace_cons hspace, List.head?_cons, if_pos rfl, List.tail_cons]
  | @cons text a texts as hfirst htail =>
    have hsequence := sequence_join hclose (.cons hfirst htail) (List.cons_ne_nil _ _) hn rest
    have hne : (skipSpace ((Text.join "," (text :: texts)).toList ++ close :: rest)).head?
        ≠ some close := by
      obtain ⟨m, rfl, -⟩ := exists_succ_of_lt hn
      rw [sequence] at hsequence
      split at hsequence
      · cases hsequence
      · next heq => exact hhead _ _ heq
    rw [bracketed, if_neg hne, hsequence]

end Sequences

/-- Texts that are joined are not longer than what they are joined to. -/
theorem length_le_length_join {text : String} {texts : List String} (h : text ∈ texts) :
    text.length ≤ (Text.join "," texts).length := by
  induction texts with
  | nil => cases h
  | cons first texts ih =>
    cases texts with
    | nil => rw [List.mem_singleton.mp h, Text.join]
    | cons next texts =>
      rw [join_cons, String.length_append, String.length_append]
      obtain rfl | hmem := List.mem_cons.mp h
      · omega
      · have := ih hmem
        omega

theorem length_le_join (texts : List String) :
    texts.length ≤ (Text.join "," texts).length + 1 := by
  induction texts with
  | nil => exact Nat.zero_le _
  | cons first texts ih =>
    cases texts with
    | nil => exact Nat.le_add_left _ _
    | cons next texts =>
      rw [join_cons, String.length_append, String.length_append, List.length_cons]
      have hcomma : ",".length = 1 := rfl
      omega

/-- No value begins with a bracket that closes one. -/
theorem head_of_value {n : ℕ} {s : List Char} {r : Json × List Char}
    (h : value n s = some r) : (skipSpace s).head? ≠ some ']' := by
  intro hhead
  cases n with
  | zero => cases h
  | succ n =>
    cases hs : skipSpace s with
    | nil =>
      rw [hs] at hhead
      cases hhead
    | cons c rest =>
      rw [hs] at hhead
      obtain rfl : c = ']' := Option.some.inj hhead
      rw [value, hs] at h
      cases h

theorem head_of_member {v : List Char → Option (Json × List Char)} {n : ℕ} {s : List Char}
    {r : (String × Json) × List Char} (h : member v n s = some r) :
    (skipSpace s).head? ≠ some '\x7d' := by
  intro hhead
  rw [member, hhead] at h
  cases h

/-- Parts of a text are read as they are by themselves. -/
theorem forall₂_of_readsBy {α : Type} {p : ℕ → List Char → Option (α × List Char)}
    {texts : List String} {as : List α} (h : List.Forall₂ (ReadsBy p) texts as) {n : ℕ}
    (hn : (Text.join "," texts).length < n) :
    List.Forall₂ (fun text a => ∀ rest, Ends rest → p n (text.toList ++ rest) = some (a, rest))
      texts as := by
  have hlength : ∀ text ∈ texts, text.length < n := fun text hmem =>
    (length_le_length_join hmem).trans_lt hn
  exact ((List.forall₂_and_left texts as).mpr ⟨hlength, h⟩).imp
    fun text a hboth rest => hboth.2 n rest hboth.1

/-- **A list.** -/
theorem reads_array {texts : List String} {js : List Json} (h : List.Forall₂ Reads texts js) :
    Reads ("[" ++ Text.join "," texts ++ "]") (array js) := by
  intro n rest hn _
  obtain ⟨m, rfl, hm⟩ := exists_succ_of_lt hn
  have hlist : ("[" ++ Text.join "," texts ++ "]").toList ++ rest
      = '[' :: ((Text.join "," texts).toList ++ ']' :: rest) := by
    simp
  have hlength : (Text.join "," texts).length + 2 ≤ m := by
    rw [String.length_append, String.length_append] at hm
    have hbrackets : "[".length = 1 ∧ "]".length = 1 := ⟨rfl, rfl⟩
    omega
  have hparts := forall₂_of_readsBy h (show (Text.join "," texts).length < m by omega)
  have hbracketed := bracketed_join (.inl rfl) (fun _ _ => head_of_value) hparts
    ((length_le_join texts).trans (by omega : _ ≤ m)) rest
  rw [hlist, value]
  simp only [skipSpace_cons (show isSpace '[' = false from rfl), List.head?_cons]
  simp [hbracketed]

/-- **A member**, its name and its value. -/
theorem readsMember {key name text : String} {j : Json} (hkey : Spells key name)
    (h : Reads text j) : ReadsMember ("\"" ++ key ++ "\":" ++ text) (name, j) := by
  intro n rest hn hends
  have hlist : ("\"" ++ key ++ "\":" ++ text).toList ++ rest
      = '"' :: (key.toList ++ '"' :: ':' :: (text.toList ++ rest)) := by
    simp
  have hlength : key.length < n ∧ text.length < n := by
    simp only [String.length_append] at hn
    omega
  have hbody := hkey n (':' :: (text.toList ++ rest)) hlength.1
  have hvalue : value n (text.toList ++ rest) = some (j, rest) := h n rest hlength.2 hends
  show member (value n) n _ = _
  rw [hlist, member, skipSpace_cons rfl, List.head?_cons, if_pos rfl, List.tail_cons, hbody]
  simp only [skipSpace_cons (show isSpace ':' = false from rfl), List.head?_cons, List.tail_cons,
    if_true, hvalue, Option.map_some, String.ofList_toList]

/-- **An object.** -/
theorem reads_object {texts : List String} {members : List (String × Json)}
    (h : List.Forall₂ ReadsMember texts members) :
    Reads ("\x7b" ++ Text.join "," texts ++ "\x7d") (object members) := by
  intro n rest hn _
  obtain ⟨m, rfl, hm⟩ := exists_succ_of_lt hn
  have hlist : ("\x7b" ++ Text.join "," texts ++ "\x7d").toList ++ rest
      = '\x7b' :: ((Text.join "," texts).toList ++ '\x7d' :: rest) := by
    simp
  have hlength : (Text.join "," texts).length + 2 ≤ m := by
    rw [String.length_append, String.length_append] at hm
    have hbrackets : "\x7b".length = 1 ∧ "\x7d".length = 1 := ⟨rfl, rfl⟩
    omega
  have hparts := forall₂_of_readsBy h (show (Text.join "," texts).length < m by omega)
  have hbracketed := bracketed_join (.inr rfl) (fun _ _ => head_of_member) hparts
    ((length_le_join texts).trans (by omega : _ ≤ m)) rest
  rw [hlist, value]
  simp only [skipSpace_cons (show isSpace '\x7b' = false from rfl), List.head?_cons]
  simp [hbracketed]

/-! ## Objects with given names -/

/-- A field of an object, with its text and with its value. -/
structure Field (text : String × String) (member : String × Json) : Prop where
  name : text.1 = member.1
  plain : text.1.toList.all isPlain = true
  reads : Reads text.2 member.2

theorem field {name text : String} {j : Json} (hplain : name.toList.all isPlain = true)
    (h : Reads text j) : Field (name, text) (name, j) :=
  ⟨rfl, hplain, h⟩

/-- The text of an object. -/
def objectText (fields : List (String × String)) : String :=
  "\x7b" ++ Text.join "," (fields.map fun field => "\"" ++ field.1 ++ "\":" ++ field.2) ++ "\x7d"

/-- **An object with given fields**, however its text is put together. -/
theorem reads_of_fields {text : String} {fields : List (String × String)}
    {members : List (String × Json)} (h : List.Forall₂ Field fields members)
    (htext : text.toList = (objectText fields).toList) : Reads text (object members) := by
  rw [String.toList_inj.mp htext]
  refine reads_object (List.forall₂_map_left_iff.mpr (h.imp ?_))
  rintro ⟨name, text⟩ ⟨_, j⟩ ⟨rfl, hplain, hreads⟩
  exact readsMember (spells_plain hplain) hreads

/-- A string that spells itself. -/
theorem reads_plain {s : String} (h : s.toList.all isPlain = true) :
    Reads ("\"" ++ s ++ "\"") (string s) :=
  reads_string (spells_plain h)

/-! ## Reading a value -/

variable {α : Type}

/-- The member of a name. -/
def get? (name : String) : Json → Option Json
  | object members => (members.find? fun m => m.1 = name).map Prod.snd
  | _ => none

def string? : Json → Option String
  | string s => some s
  | _ => none

def bool? : Json → Option Bool
  | bool b => some b
  | _ => none

def nat? : Json → Option ℕ
  | number mantissa e => if e = 0 ∧ 0 ≤ mantissa then some mantissa.toNat else none
  | _ => none

/-- A list, each of whose elements is read. -/
def list? (read : Json → Option α) : Json → Option (List α)
  | array elements => elements.mapM read
  | _ => none

/-- A value that may be missing. -/
def option? (read : Json → Option α) : Json → Option (Option α)
  | null => some none
  | j => (read j).map some

/-- The field of a name, which is read. -/
def field? (read : Json → Option α) (name : String) (j : Json) : Option α :=
  (j.get? name).bind read

/-- **A list that was written** element by element is read back. -/
theorem list?_map {β : Type} {read : Json → Option β} {write : α → Json} {f : α → β}
    (h : ∀ a, read (write a) = some (f a)) (as : List α) :
    list? read (array (as.map write)) = some (as.map f) := by
  rw [list?]
  induction as with
  | nil => rfl
  | cons a as ih => rw [List.map_cons, List.mapM_cons, h, ih]; rfl

theorem list?_map_self {read : Json → Option α} {write : α → Json}
    (h : ∀ a, read (write a) = some a) (as : List α) :
    list? read (array (as.map write)) = some as := by
  have hall := list?_map h as
  rwa [List.map_id'] at hall

end Json
