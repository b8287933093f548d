import Mathlib.Data.List.TakeWhile
import Mathlib.Data.String.Basic
import Seekwel.Text

/-!
# Reading SQL text

The tokens of SQL text, read character by character: words, quoted texts
under the four quotation marks of SQLite, numerals, parameters, and symbols;
white space and comments separate them.

A text is put together from pieces, and `scan` reads it piece by piece: it
yields the tokens that are complete and the state the piece ends in
(`scan_append`). A piece that is a fixed text is read by computation. The
pieces that are not are read by `scan_word`, `scan_plain`, `scan_param` and
`scan_quoted`. `Reads` forgets the state when the piece ends where a token
may end.
-/

namespace Sql

/-- **A token** of SQL text. -/
inductive Token where
  /-- A keyword, or a name that is not quoted. -/
  | word (text : String)
  /-- What stands between two quotation marks, and the opening one. -/
  | quoted (mark : Char) (text : String)
  | number (text : String)
  /-- A parameter, with the mark it begins with. -/
  | param (text : String)
  /-- An operator or a punctuation mark. -/
  | symbol (text : String)
  deriving DecidableEq

/-- Whether a token is a keyword, whatever its case. -/
def Token.isKeyword (keyword : String) : Token → Bool
  | word text => Text.toAsciiUppercase text = keyword
  | _ => false

/-! ## Characters -/

def spaces : List Char := [' ', '\t', '\n', '\x0c', '\r']

/-- The marks that are a token by themselves, whatever follows. -/
def punctuation : List Char := ['(', ')', ',', ';', '+', '*', '%', '&', '~']

/-- The characters a word may begin with. -/
def isIdStart (c : Char) : Bool := c.isAlpha || c = '_' || 0x80 ≤ c.toNat

/-- The characters a word may go on with. -/
def isIdChar (c : Char) : Bool := c.isAlphanum || c = '_' || c = '$' || 0x80 ≤ c.toNat

/-- The marks that may be the first of an operator of several characters. -/
def operatorStarts : List Char := ['-', '/', '=', '<', '>', '!', '|', '.']

/-- The operators of two and three characters, as one with the last one
left out and that last one. -/
def isOperator (read : List Char) (c : Char) : Bool :=
  (read, c) ∈ [(['='], '='), (['<'], '='), (['<'], '>'), (['<'], '<'), (['>'], '='),
    (['>'], '>'), (['!'], '='), (['|'], '|'), (['-'], '>'), (['-', '>'], '>')]

/-- The mark that ends a quotation. -/
def closingMark (mark : Char) : Char := if mark = '[' then ']' else mark

/-- Digits, a fraction and an exponent. -/
def isDecimal (l : List Char) : Bool :=
  let whole := l.takeWhile Char.isDigit
  let rest := l.dropWhile Char.isDigit
  let (fraction, rest) := match rest with
    | '.' :: rest => (rest.takeWhile Char.isDigit, rest.dropWhile Char.isDigit)
    | rest => ([], rest)
  (!whole.isEmpty || !fraction.isEmpty) && match rest with
    | [] => true
    | e :: rest =>
      let digits := match rest with
        | '+' :: rest => rest
        | '-' :: rest => rest
        | rest => rest
      (e = 'e' || e = 'E') && !digits.isEmpty && digits.all Char.isDigit

def isHexDigit (c : Char) : Bool :=
  c.isDigit || ('a' ≤ c && c ≤ 'f') || ('A' ≤ c && c ≤ 'F')

/-- Whether a text is a numeral. -/
def isNumeral : List Char → Bool
  | '0' :: 'x' :: digits => !digits.isEmpty && digits.all isHexDigit
  | '0' :: 'X' :: digits => !digits.isEmpty && digits.all isHexDigit
  | l => isDecimal l

/-- Whether a sign may follow, as the one of an exponent. -/
def endsInExponent (read : List Char) : Bool :=
  (read.getLast? = some 'e' || read.getLast? = some 'E') && isDecimal read.dropLast

/-! ## The scanner -/

/-- **Where in a token the scanner is**, with what it has read of it. -/
inductive State where
  | start
  | word (read : List Char)
  | number (read : List Char)
  | param (read : List Char)
  | quoted (mark : Char) (read : List Char)
  /-- After a closing mark, which a second one would turn into text. -/
  | closing (mark : Char) (read : List Char)
  | symbol (read : List Char)
  | lineComment
  | blockComment
  /-- In a comment, after a star. -/
  | blockCommentStar
  deriving DecidableEq

/-- The state after one more character, if it belongs to the same token. -/
def State.extend : State → Char → Option State
  | start, _ => none
  | word read, c => if isIdChar c then some (word (read ++ [c])) else none
  | number read, c =>
    if isIdChar c || c = '.' || ((c = '+' || c = '-') && endsInExponent read) then
      some (number (read ++ [c]))
    else none
  | param read, c =>
    if (if read.head? = some '?' then c.isDigit else isIdChar c) then
      some (param (read ++ [c]))
    else none
  | quoted mark read, c =>
    if c = '\x00' then none
    else if c = closingMark mark then some (closing mark read)
    else some (quoted mark (read ++ [c]))
  | closing mark read, c =>
    if c = closingMark mark && c = mark then some (quoted mark (read ++ [c])) else none
  | symbol read, c =>
    if isOperator read c then some (symbol (read ++ [c]))
    else if read = ['-'] && c = '-' then some lineComment
    else if read = ['/'] && c = '*' then some blockComment
    else if read = ['.'] && c.isDigit then some (number (read ++ [c]))
    else none
  | lineComment, c => some (if c = '\n' then start else lineComment)
  | blockComment, c => some (if c = '*' then blockCommentStar else blockComment)
  | blockCommentStar, c =>
    some (if c = '/' then start else if c = '*' then blockCommentStar else blockComment)

/-- The token that ends here, if one may. -/
def State.finish : State → Option (List Token)
  | start => some []
  | word read => some [.word (String.ofList read)]
  | number read => if isNumeral read then some [.number (String.ofList read)] else none
  | param read =>
    if read = ['?'] || 1 < read.length then some [.param (String.ofList read)] else none
  | quoted _ _ => none
  | closing mark read => some [.quoted mark (String.ofList read)]
  | symbol read => if read = ['!'] then none else some [.symbol (String.ofList read)]
  | lineComment => some []
  | blockComment => some []
  | blockCommentStar => some []

/-- The token that a character begins, or makes by itself. -/
def begin (c : Char) : Option (List Token × State) :=
  if c ∈ spaces then some ([], .start)
  else if c ∈ punctuation then some ([.symbol (String.ofList [c])], .start)
  else if isIdStart c then some ([], .word [c])
  else if c.isDigit then some ([], .number [c])
  else if c ∈ ['?', ':', '@', '$'] then some ([], .param [c])
  else if c ∈ ['"', '\'', '\x60', '['] then some ([], .quoted c [])
  else if c ∈ operatorStarts then some ([], .symbol [c])
  else none

/-- One character. -/
def State.step (s : State) (c : Char) : Option (List Token × State) :=
  match s.extend c with
  | some s' => some ([], s')
  | none => s.finish.bind fun ts => (begin c).map fun p => (ts ++ p.1, p.2)

/-- **Reading a piece of text**: the tokens that are complete, and the state
in which it ends. -/
def scan : State → List Char → Option (List Token × State)
  | s, [] => some ([], s)
  | s, c :: cs =>
    (s.step c).bind fun p => (scan p.2 cs).map fun q => (p.1 ++ q.1, q.2)

/-- **The tokens of a text.** -/
def tokens (text : String) : Option (List Token) :=
  (scan .start text.toList).bind fun p => p.2.finish.map (p.1 ++ ·)

example : tokens "a.\"b\"\"c\" <= ?12 -- rest" = some [.word "a", .symbol ".",
    .quoted '"' "b\"c", .symbol "<=", .param "?12"] := by
  decide

/-! ## Pieces -/

theorem scan_append (s : State) (a b : List Char) :
    scan s (a ++ b)
      = (scan s a).bind fun p => (scan p.2 b).map fun q => (p.1 ++ q.1, q.2) := by
  induction a generalizing s with
  | nil => simp [scan]
  | cons c cs ih =>
    simp only [List.cons_append, scan, ih]
    cases s.step c with
    | none => rfl
    | some p =>
      obtain ⟨ts, t⟩ := p
      cases ht : scan t cs with
      | none => simp [ht]
      | some q => simp [ht, Function.comp_def, List.append_assoc]

/-- Two pieces that are read one after the other. -/
theorem scan_append_of_eq {s t u : State} {a b : List Char} {ts us : List Token}
    (ha : scan s a = some (ts, t)) (hb : scan t b = some (us, u)) :
    scan s (a ++ b) = some (ts ++ us, u) := by
  rw [scan_append, ha]
  simp [hb]

theorem scan_word {w : List Char} (h : ∀ c ∈ w, isIdChar c = true) (read : List Char) :
    scan (.word read) w = some ([], .word (read ++ w)) := by
  induction w generalizing read with
  | nil => simp [scan]
  | cons c cs ih =>
    have hc := h c List.mem_cons_self
    simp [scan, State.step, State.extend, hc, ih (fun d hd => h d (List.mem_cons_of_mem c hd))]

/-- Whether a text is a word: a name that needs no quotes, or a keyword. -/
def isIdentifier (name : String) : Bool :=
  match name.toList with
  | [] => false
  | c :: cs => isIdStart c && cs.all isIdChar

theorem begin_of_isIdStart {c : Char} (h : isIdStart c = true) :
    begin c = some ([], .word [c]) := by
  have hmem : (spaces ++ punctuation).all (fun d => !isIdStart d) = true := by decide
  have h₁ : c ∉ spaces ++ punctuation := fun hc => by
    simpa [h] using List.all_eq_true.mp hmem c hc
  rw [List.mem_append, not_or] at h₁
  simp [begin, h, h₁.1, h₁.2]

theorem scan_identifier {name : String} (h : isIdentifier name = true) :
    scan .start name.toList = some ([], .word name.toList) := by
  unfold isIdentifier at h
  cases hl : name.toList with
  | nil => simp [hl] at h
  | cons c cs =>
    simp only [hl, Bool.and_eq_true, List.all_eq_true] at h
    simp [scan, State.step, State.extend, State.finish, begin_of_isIdStart h.1, scan_word h.2]

theorem isUpper_eq (c : Char) : c.isUpper = decide (65 ≤ c.val ∧ c.val ≤ 90) := rfl

theorem isLower_eq (c : Char) : c.isLower = (decide (97 ≤ c.val) && decide (c.val ≤ 122)) := rfl

theorem isAlpha_eq (c : Char) : c.isAlpha = (c.isUpper || c.isLower) := rfl

theorem not_isIdStart_of_isDigit {c : Char} (h : c.isDigit = true) : isIdStart c = false := by
  rw [Char.isDigit_iff_toNat] at h
  have hle : c.toNat ≤ 57 := h.2
  have hne : c ≠ '_' := by
    rintro rfl
    revert hle
    decide
  have h65 : ¬ 65 ≤ c.val := fun h65 => by
    have : 65 ≤ c.toNat := by exact_mod_cast h65
    omega
  have h97 : ¬ 97 ≤ c.val := fun h97 => by
    have : 97 ≤ c.toNat := by exact_mod_cast h97
    omega
  have h128 : ¬ 128 ≤ c.toNat := by omega
  simp [isIdStart, isAlpha_eq, isUpper_eq, isLower_eq, h65, h97, hne, h128]

theorem begin_of_isDigit {c : Char} (h : c.isDigit = true) :
    begin c = some ([], .number [c]) := by
  have hmem : (spaces ++ punctuation).all (fun d => !d.isDigit) = true := by decide
  have h₁ : c ∉ spaces ++ punctuation := fun hc => by
    simpa [h] using List.all_eq_true.mp hmem c hc
  rw [List.mem_append, not_or] at h₁
  simp [begin, h, h₁.1, h₁.2, not_isIdStart_of_isDigit h]

theorem scan_number_digits {ds : List Char} (h : ∀ c ∈ ds, c.isDigit = true)
    (read : List Char) : scan (.number read) ds = some ([], .number (read ++ ds)) := by
  induction ds generalizing read with
  | nil => simp [scan]
  | cons c cs ih =>
    have hc : isIdChar c = true := by simp [isIdChar, Char.isAlphanum, h c List.mem_cons_self]
    simp [scan, State.step, State.extend, hc, ih (fun d hd => h d (List.mem_cons_of_mem c hd))]

theorem isDigit_of_mem_toString {n : ℕ} : ∀ c ∈ (toString n).toList, c.isDigit = true := by
  simp only [Nat.toString_eq_repr, Nat.toList_repr]
  exact fun c hc => Nat.isDigit_of_mem_toDigits (by decide) (by decide) hc

theorem toList_toString_ne_nil (n : ℕ) : (toString n).toList ≠ [] := by
  simp [Nat.toString_eq_repr, Nat.toList_repr, Nat.toDigits_ne_nil]

theorem scan_natural (n : ℕ) :
    scan .start (toString n).toList = some ([], .number (toString n).toList) := by
  have hd := isDigit_of_mem_toString (n := n)
  cases hl : (toString n).toList with
  | nil => exact absurd hl (toList_toString_ne_nil n)
  | cons c cs =>
    rw [hl] at hd
    have hc := begin_of_isDigit (hd c List.mem_cons_self)
    have hcs := scan_number_digits (fun d hd' => hd d (List.mem_cons_of_mem c hd')) [c]
    simp [scan, State.step, State.extend, State.finish, hc, hcs]

theorem scan_param_digits {ds : List Char} (h : ∀ c ∈ ds, c.isDigit = true) (read : List Char) :
    scan (.param ('?' :: read)) ds = some ([], .param ('?' :: (read ++ ds))) := by
  induction ds generalizing read with
  | nil => simp [scan]
  | cons c cs ih =>
    have hc := h c List.mem_cons_self
    simp [scan, State.step, State.extend, hc, ih (fun d hd => h d (List.mem_cons_of_mem c hd))]

theorem scan_param (n : ℕ) :
    scan .start ("?" ++ toString n).toList = some ([], .param ("?" ++ toString n).toList) := by
  have hm : scan .start "?".toList = some ([], .param ['?']) := by decide
  rw [String.toList_append]
  exact scan_append_of_eq hm (scan_param_digits isDigit_of_mem_toString [])

/-- A text in quotation marks, with the closing mark doubled where it
occurs, is read as one token. -/
theorem scan_quoted {mark : Char} (hm : closingMark mark = mark) (h0 : mark ≠ '\x00')
    {text : List Char} (h : '\x00' ∉ text) (read : List Char) :
    scan (.quoted mark read) (Text.replaceChar mark [mark, mark] text ++ [mark])
      = some ([], .closing mark (read ++ text)) := by
  induction text generalizing read with
  | nil => simp [Text.replaceChar, scan, State.step, State.extend, hm, h0]
  | cons c cs ih =>
    have hc : c ≠ '\x00' := fun e => h (e ▸ List.mem_cons_self)
    have ih := ih (fun hmem => h (List.mem_cons_of_mem c hmem)) (read ++ [c])
    by_cases he : c = mark
    · subst he
      simp_all [Text.replaceChar, scan, State.step, State.extend]
    · simp_all [Text.replaceChar, scan, State.step, State.extend]

/-- A quoted text cannot contain a `NUL`. -/
theorem scan_quoted_nul {mark : Char} (hm : closingMark mark = mark) (h0 : mark ≠ '\x00')
    {text : List Char} (h : '\x00' ∈ text) (read rest : List Char) :
    scan (.quoted mark read) (Text.replaceChar mark [mark, mark] text ++ rest) = none := by
  induction text generalizing read with
  | nil => exact absurd h List.not_mem_nil
  | cons c cs ih =>
    by_cases hc : c = '\x00'
    · subst hc
      simp [Text.replaceChar, Ne.symm h0, scan, State.step, State.extend, State.finish]
    · have ih := ih ((List.mem_cons.mp h).resolve_left (Ne.symm hc)) (read ++ [c])
      by_cases he : c = mark
      · subst he
        simp_all [Text.replaceChar, scan, State.step, State.extend]
      · simp_all [Text.replaceChar, scan, State.step, State.extend]

/-! ## Pieces that end where a token may end -/

/-- The characters that end every token but a quoted one. -/
def breaks : List Char := [' ', '(', ')', ',', ';']

/-- Whether the token, if the scanner is in one, may end. -/
def State.ended : State → Bool
  | start => true
  | word _ => true
  | number _ => true
  | param _ => true
  | quoted _ _ => false
  | closing mark _ => mark ∉ breaks
  | symbol _ => true
  | lineComment => false
  | blockComment => false
  | blockCommentStar => false

theorem State.extend_of_ended {s : State} (h : s.ended = true) {c : Char} (hc : c ∈ breaks) :
    s.extend c = none := by
  have hid : breaks.all (fun d => isIdChar d = false ∧ d.isDigit = false ∧ d ≠ '.' ∧ d ≠ '+'
      ∧ d ≠ '-' ∧ d ≠ '*') = true := by decide
  obtain ⟨h₁, h₂, h₃, h₄, h₅, h₆⟩ := of_decide_eq_true (List.all_eq_true.mp hid c hc)
  have hop : ∀ d ∈ breaks, ∀ read, isOperator read d = false := by
    simp [breaks, isOperator]
  cases s with
  | closing mark read =>
    have hne : c ≠ mark := by
      rintro rfl
      simp [State.ended, hc] at h
    simp [State.extend, hne]
  | _ => simp_all [State.ended, State.extend]

/-- **A piece and the tokens it consists of**, if what follows does not go
on with the last one. -/
def Reads (text : List Char) (ts : List Token) : Prop :=
  ∃ us s vs, scan .start text = some (us, s) ∧ s.finish = some vs ∧ s.ended = true
    ∧ ts = us ++ vs

theorem Reads.of_scan {text : List Char} {u v : List Token} {s : State}
    (h : scan .start text = some (u, s)) (hs : s.finish = some v) (he : s.ended = true) :
    Reads text (u ++ v) :=
  ⟨u, s, v, h, hs, he, rfl⟩

theorem Reads.tokens_eq {text : String} {ts : List Token} (h : Reads text.toList ts) :
    tokens text = some ts := by
  obtain ⟨us, s, vs, h, hs, -, rfl⟩ := h
  simp [tokens, h, hs]

theorem scan_of_ended {s : State} {vs : List Token} (hs : s.finish = some vs)
    (he : s.ended = true) {c : Char} (hc : c ∈ breaks) (cs : List Char) :
    scan s (c :: cs) = (scan .start (c :: cs)).map fun q => (vs ++ q.1, q.2) := by
  have h₁ := State.extend_of_ended he hc
  simp only [scan, State.step, h₁, hs]
  cases begin c with
  | none => rfl
  | some p => simp [State.extend, State.finish, Function.comp_def]

/-- A piece after one that is read to its end. -/
theorem Reads.after {a b : List Char} {t us : List Token}
    (ha : scan .start a = some (t, .start)) (hb : Reads b us) : Reads (a ++ b) (t ++ us) := by
  obtain ⟨us, s, vs, hb, hs, he, rfl⟩ := hb
  exact ⟨t ++ us, s, vs, scan_append_of_eq ha hb, hs, he, (List.append_assoc ..).symm⟩

/-- A piece that begins where a token ends. -/
theorem Reads.append {a b : List Char} {c : Char} {ts us : List Token} (ha : Reads a ts)
    (hc : c ∈ breaks) (hb : Reads (c :: b) us) : Reads (a ++ c :: b) (ts ++ us) := by
  obtain ⟨ts, s, vs, ha, hs, he, rfl⟩ := ha
  obtain ⟨us, t, ws, hb, ht, he', rfl⟩ := hb
  have hmid : scan s (c :: b) = some (vs ++ us, t) := by
    rw [scan_of_ended hs he hc, hb]
    rfl
  exact ⟨ts ++ (vs ++ us), t, ws, scan_append_of_eq ha hmid, ht, he', by simp⟩

theorem reads_identifier {name : String} (h : isIdentifier name = true) :
    Reads name.toList [.word name] := by
  simpa [String.ofList_toList] using
    Reads.of_scan (v := [.word name]) (scan_identifier h)
      (by simp [State.finish]) rfl

theorem reads_param (n : ℕ) :
    Reads ("?" ++ toString n).toList [.param ("?" ++ toString n)] := by
  have hlen : 1 < ("?" ++ toString n).toList.length := by
    have := List.length_pos_iff.mpr (toList_toString_ne_nil n)
    simp only [String.toList_append, List.length_append]
    have : "?".toList.length = 1 := by decide
    omega
  have hf : State.finish (.param ("?" ++ toString n).toList)
      = some [.param ("?" ++ toString n)] := by
    simp only [State.finish, hlen, decide_true, Bool.or_true, if_true, String.ofList_toList]
  exact Reads.of_scan (scan_param n) hf rfl

/-- The quotation marks that are doubled inside a quotation. -/
structure IsQuotation (mark : Char) : Prop where
  begins : begin mark = some ([], .quoted mark [])
  closes : closingMark mark = mark
  not_break : mark ∉ breaks
  ne_nul : mark ≠ '\x00'

theorem isQuotation_name : IsQuotation '"' := by
  constructor <;> decide

theorem reads_quotation {mark : Char} (hm : IsQuotation mark) {text : List Char}
    (h : '\x00' ∉ text) :
    Reads (mark :: (Text.replaceChar mark [mark, mark] text ++ [mark]))
      [.quoted mark (String.ofList text)] := by
  refine Reads.of_scan (u := []) (s := .closing mark text) ?_ rfl ?_
  · simp [scan, State.step, State.extend, State.finish, hm.begins,
      scan_quoted hm.closes hm.ne_nul h]
  · simp [State.ended, hm.not_break]

/-- A quotation at the beginning of a text. -/
theorem scan_quotation {mark : Char} (hm : IsQuotation mark) (text : List Char) {c : Char}
    (hc : c ∈ breaks) (cs : List Char) :
    scan .start (mark :: (Text.replaceChar mark [mark, mark] text ++ mark :: c :: cs))
      = if '\x00' ∈ text then none
        else (scan .start (c :: cs)).map fun q =>
          (.quoted mark (String.ofList text) :: q.1, q.2) := by
  have hopen : ∀ l, scan .start (mark :: l) = scan (.quoted mark []) l := fun l => by
    simp [scan, State.step, State.extend, State.finish, hm.begins]
  rw [hopen]
  split_ifs with h
  · exact scan_quoted_nul hm.closes hm.ne_nul h [] _
  · have hclose := scan_quoted hm.closes hm.ne_nul h []
    have hrest := scan_of_ended (s := .closing mark text) rfl
      (by simp [State.ended, hm.not_break]) hc cs
    rw [List.append_cons, scan_append, hclose]
    simp [hrest, Function.comp_def]

theorem isNumeral_of_isDigit {ds : List Char} (h : ∀ c ∈ ds, c.isDigit = true)
    (hne : ds ≠ []) : isNumeral ds = true := by
  have hw : ds.takeWhile Char.isDigit = ds := List.takeWhile_eq_self_iff.mpr h
  have hr : ds.dropWhile Char.isDigit = [] := List.dropWhile_eq_nil_iff.mpr h
  have hx : ∀ x y rest, ds = x :: y :: rest → y ≠ 'x' ∧ y ≠ 'X' := by
    rintro x y rest rfl
    have hy := h y (by simp)
    constructor <;> (rintro rfl; simp at hy)
  unfold isNumeral
  split
  · exact absurd rfl (hx _ _ _ rfl).1
  · exact absurd rfl (hx _ _ _ rfl).2
  · simp [isDecimal, hw, hr, hne]

theorem reads_natural (n : ℕ) : Reads (toString n).toList [.number (toString n)] := by
  have hf : State.finish (.number (toString n).toList) = some [.number (toString n)] := by
    simp only [State.finish,
      isNumeral_of_isDigit isDigit_of_mem_toString (toList_toString_ne_nil n), if_true,
      String.ofList_toList]
  exact Reads.of_scan (scan_natural n) hf rfl

/-- Pieces joined by commas. -/
theorem reads_join {pieces : List String} {tss : List (List Token)}
    (h : List.Forall₂ (fun piece ts => Reads piece.toList ts) pieces tss) (hne : pieces ≠ []) :
    Reads (Text.join ", " pieces).toList (List.intercalate [.symbol ","] tss) := by
  induction h with
  | nil => exact absurd rfl hne
  | cons hp hrest ih =>
    cases hrest with
    | nil => simpa [Text.join, List.intercalate] using hp
    | cons hq hrest =>
      have hsep : scan .start [',', ' '] = some ([.symbol ","], .start) := by decide
      have hjoin := hp.append (c := ',') (by decide) (Reads.after hsep (ih (by simp)))
      simpa [Text.join, List.intercalate] using hjoin

end Sql
