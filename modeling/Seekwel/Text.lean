import Mathlib.Data.List.Infix
import Mathlib.Data.List.Basic
import Mathlib.Data.String.Basic

/-!
# Text

The operations of a standard string library that the programs verified here
rely on, on Lean strings: ASCII case mapping, trimming, substring search,
replacement of a character, and splitting a text into lines and a line into
fields. Each is defined on the character list of the string, following the
documented behaviour of the operation it stands for.

Two groups of facts carry the proofs that use them.

* **Splitting inverts joining.** `split_join` and `lines_unlines` say when
  a separated text is taken apart into the pieces it was made of, and
  `not_mem_of_mem_split`, `not_mem_of_mem_lines` say that no piece of any
  text ever contains the separator.
* **Where a word can occur.** `infix_append_cons_iff` says that a word
  cannot reach across a character it does not contain; `NoEntry` and
  `NoExit` describe the fixed texts a word cannot reach into from one side.
-/

namespace Text

/-! ## Character classes and case -/

/-- White space as Unicode's `White_Space` property has it. -/
def isWhitespace (c : Char) : Bool :=
  let n := c.toNat
  (9 ≤ n && n ≤ 13) || n = 32 || n = 0x85 || n = 0xa0 || n = 0x1680
    || (0x2000 ≤ n && n ≤ 0x200a) || n = 0x2028 || n = 0x2029 || n = 0x202f
    || n = 0x205f || n = 0x3000

/-- Removing the white space at both ends. -/
def trim (s : String) : String :=
  String.ofList
    (((s.toList.dropWhile isWhitespace).reverse.dropWhile isWhitespace).reverse)

/-- Mapping the ASCII letters to upper case. -/
def toAsciiUppercase (s : String) : String := String.ofList (s.toList.map Char.toUpper)

/-- Mapping the ASCII letters to lower case. -/
def toAsciiLowercase (s : String) : String := String.ofList (s.toList.map Char.toLower)

/-- Equality up to the case of the ASCII letters. -/
def eqIgnoreAsciiCase (s t : String) : Bool :=
  toAsciiLowercase s = toAsciiLowercase t

/-! ## Searching and replacing -/

/-- Whether `pat` occurs in `s` as a block of consecutive characters. -/
def contains (s pat : String) : Bool := pat.toList <:+: s.toList

/-- Whether `s` begins with `pat`. -/
def startsWith (s pat : String) : Bool := pat.toList <+: s.toList

/-- Replacing every occurrence of a character. -/
def replaceChar (c : Char) (new : List Char) (l : List Char) : List Char :=
  l.flatMap (fun d => if d = c then new else [d])

/-- Replacing every occurrence of a character by a string. -/
def replace (s : String) (c : Char) (new : String) : String :=
  String.ofList (replaceChar c new.toList s.toList)

/-- The words between white space. -/
def splitWhitespace (s : String) : List String :=
  ((s.toList.splitOnP isWhitespace).filter (· ≠ [])).map String.ofList

/-- Joining with a separator. -/
def join (sep : String) : List String → String
  | [] => ""
  | [s] => s
  | s :: rest => s ++ sep ++ join sep rest

/-- A joined text has only the characters of its pieces and of the
separator. -/
theorem not_mem_join {c : Char} {sep : String} {r : List String} (hsep : c ∉ sep.toList)
    (h : ∀ f ∈ r, c ∉ f.toList) : c ∉ (join sep r).toList := by
  induction r with
  | nil => exact List.not_mem_nil
  | cons f rest ih =>
    have hf := h f List.mem_cons_self
    cases rest with
    | nil => exact hf
    | cons g rest =>
      have ih := ih (fun x hx => h x (List.mem_cons_of_mem _ hx))
      show c ∉ (f ++ sep ++ join sep (g :: rest)).toList
      rw [String.toList_append, String.toList_append, List.mem_append, List.mem_append,
        not_or, not_or]
      exact ⟨⟨hf, hsep⟩, ih⟩

/-! ## Fields -/

/-- Splitting the rest of a text, `cur` being the field read so far. -/
def splitFrom (sep : Char) (cur : List Char) : List Char → List (List Char)
  | [] => [cur]
  | c :: rest =>
    if c = sep then cur :: splitFrom sep [] rest
    else splitFrom sep (cur ++ [c]) rest

/-- Splitting at every occurrence of a separator. -/
def split (sep : Char) (s : String) : List String :=
  (splitFrom sep [] s.toList).map String.ofList

theorem splitFrom_append {sep : Char} {cur a b : List Char} (h : sep ∉ a) :
    splitFrom sep cur (a ++ sep :: b) = (cur ++ a) :: splitFrom sep [] b := by
  induction a generalizing cur with
  | nil => simp [splitFrom]
  | cons c a ih =>
    rw [List.mem_cons, not_or] at h
    rw [List.cons_append, splitFrom, if_neg (Ne.symm h.1), ih h.2, List.append_assoc]
    rfl

theorem splitFrom_of_not_mem {sep : Char} {cur a : List Char} (h : sep ∉ a) :
    splitFrom sep cur a = [cur ++ a] := by
  induction a generalizing cur with
  | nil => simp [splitFrom]
  | cons c a ih =>
    rw [List.mem_cons, not_or] at h
    rw [splitFrom, if_neg (Ne.symm h.1), ih h.2, List.append_assoc]
    rfl

/-- **Splitting inverts joining** as long as no field contains the
separator. -/
theorem split_join {sep : Char} (fields : List String) (hne : fields ≠ [])
    (h : ∀ f ∈ fields, sep ∉ f.toList) :
    split sep (join (String.singleton sep) fields) = fields := by
  induction fields with
  | nil => exact absurd rfl hne
  | cons f rest ih =>
    have hf := h f List.mem_cons_self
    cases rest with
    | nil => simp [split, join, splitFrom_of_not_mem hf]
    | cons g rest =>
      have ih := ih (List.cons_ne_nil _ _) (fun x hx => h x (List.mem_cons_of_mem _ hx))
      unfold split at ih ⊢
      rw [join, String.toList_append, String.toList_append, List.append_assoc,
        String.toList_singleton, List.singleton_append, splitFrom_append hf,
        List.map_cons, ih, List.nil_append, String.ofList_toList]
      exact List.cons_ne_nil _ _

theorem mem_splitFrom {sep : Char} {cur l f : List Char} (hcur : sep ∉ cur)
    (hf : f ∈ splitFrom sep cur l) : sep ∉ f ∧ ∀ c ∈ f, c ∈ cur ∨ c ∈ l := by
  induction l generalizing cur with
  | nil =>
    rw [splitFrom, List.mem_singleton] at hf
    subst hf
    exact ⟨hcur, fun c hc => Or.inl hc⟩
  | cons d l ih =>
    rw [splitFrom] at hf
    split_ifs at hf with hd
    · rcases List.mem_cons.mp hf with rfl | hf
      · exact ⟨hcur, fun c hc => Or.inl hc⟩
      · refine (ih List.not_mem_nil hf).imp id (fun h c hc => ?_)
        exact Or.inr (List.mem_cons_of_mem _ ((h c hc).resolve_left List.not_mem_nil))
    · have hcur' : sep ∉ cur ++ [d] := by
        simp [hcur, Ne.symm hd]
      refine (ih hcur' hf).imp id (fun h c hc => ?_)
      rcases h c hc with h | h
      · rcases List.mem_append.mp h with h | h
        · exact Or.inl h
        · exact Or.inr (List.mem_cons.mpr (Or.inl (List.mem_singleton.mp h)))
      · exact Or.inr (List.mem_cons_of_mem _ h)

/-- No field contains the separator, and a field has no character of its
own. -/
theorem not_mem_of_mem_split {sep : Char} {s f : String} (hf : f ∈ split sep s) :
    sep ∉ f.toList ∧ ∀ c ∈ f.toList, c ∈ s.toList := by
  obtain ⟨l, hl, rfl⟩ := List.mem_map.mp hf
  rw [String.toList_ofList]
  refine (mem_splitFrom List.not_mem_nil hl).imp id (fun h c hc => ?_)
  exact (h c hc).resolve_left List.not_mem_nil

/-! ## Lines -/

/-- Dropping one carriage return at the end of a line. -/
def stripCr (l : List Char) : List Char :=
  if l.getLast? = some '\r' then l.dropLast else l

/-- The lines of the rest of a text, `cur` being the line read so far. Only
a line that a newline ends loses a carriage return. -/
def linesFrom (cur : List Char) : List Char → List (List Char)
  | [] => if cur = [] then [] else [cur]
  | c :: rest =>
    if c = '\n' then stripCr cur :: linesFrom [] rest
    else linesFrom (cur ++ [c]) rest

/-- The lines of a text, without their line endings. -/
def lines (s : String) : List String := (linesFrom [] s.toList).map String.ofList

/-- Writing each line with a newline after it. -/
def unlines : List String → String
  | [] => ""
  | l :: rest => l ++ "\n" ++ unlines rest

theorem linesFrom_append {cur a b : List Char} (h : '\n' ∉ a) :
    linesFrom cur (a ++ '\n' :: b) = stripCr (cur ++ a) :: linesFrom [] b := by
  induction a generalizing cur with
  | nil => simp [linesFrom]
  | cons c a ih =>
    rw [List.mem_cons, not_or] at h
    rw [List.cons_append, linesFrom, if_neg (Ne.symm h.1), ih h.2, List.append_assoc]
    rfl

/-- **Reading back what was written line by line**, up to a carriage return
at the end of a line. -/
theorem lines_unlines (ls : List String) (h : ∀ l ∈ ls, '\n' ∉ l.toList) :
    lines (unlines ls) = ls.map (fun l => String.ofList (stripCr l.toList)) := by
  induction ls with
  | nil => rfl
  | cons l rest ih =>
    have ih := ih (fun x hx => h x (List.mem_cons_of_mem _ hx))
    unfold lines at ih ⊢
    rw [unlines, String.toList_append, String.toList_append, List.append_assoc,
      show ("\n" : String).toList = ['\n'] from rfl, List.singleton_append,
      linesFrom_append (h l List.mem_cons_self), List.map_cons, ih, List.nil_append]
    rfl

theorem mem_stripCr {l : List Char} {c : Char} (h : c ∈ stripCr l) : c ∈ l := by
  unfold stripCr at h
  split_ifs at h
  · exact List.mem_of_mem_dropLast h
  · exact h

theorem stripCr_eq_self_iff {l : List Char} :
    stripCr l = l ↔ l.getLast? ≠ some '\r' := by
  unfold stripCr
  split_ifs with h
  · refine iff_of_false (fun hl => ?_) (not_not.mpr h)
    have hne : l ≠ [] := by
      rintro rfl
      simp at h
    have := congrArg List.length hl
    rw [List.length_dropLast] at this
    have := List.length_pos_iff.mpr hne
    omega
  · exact iff_of_true rfl h

/-- Stripping the carriage return of a line only touches its last field. -/
theorem stripCr_append {a b : List Char} (ha : a.getLast? ≠ some '\r') :
    stripCr (a ++ b) = a ++ stripCr b := by
  cases b with
  | nil =>
    rw [List.append_nil, show stripCr [] = [] from rfl, List.append_nil]
    exact stripCr_eq_self_iff.mpr ha
  | cons c b =>
    unfold stripCr
    rw [List.getLast?_append_of_ne_nil _ (List.cons_ne_nil _ _)]
    split_ifs
    · exact List.dropLast_append_of_ne_nil (List.cons_ne_nil _ _)
    · rfl

theorem mem_linesFrom {cur l f : List Char} (hcur : '\n' ∉ cur)
    (hf : f ∈ linesFrom cur l) : '\n' ∉ f := by
  induction l generalizing cur with
  | nil =>
    rw [linesFrom] at hf
    split_ifs at hf with h
    · exact absurd hf List.not_mem_nil
    · rwa [List.mem_singleton.mp hf]
  | cons d l ih =>
    rw [linesFrom] at hf
    split_ifs at hf with hd
    · rcases List.mem_cons.mp hf with rfl | hf
      · exact fun h => hcur (mem_stripCr h)
      · exact ih List.not_mem_nil hf
    · exact ih (by simp [hcur, Ne.symm hd]) hf

/-- No line contains a newline. -/
theorem not_mem_of_mem_lines {s l : String} (hl : l ∈ lines s) : '\n' ∉ l.toList := by
  obtain ⟨f, hf, rfl⟩ := List.mem_map.mp hl
  rw [String.toList_ofList]
  exact mem_linesFrom List.not_mem_nil hf

/-! ## Where a word can occur -/

variable {w : List Char}

theorem prefix_cons_of_not_mem {x : Char} {u b : List Char} (hx : x ∉ u)
    (h : u <+: x :: b) : u = [] := by
  rcases List.prefix_cons_iff.mp h with rfl | ⟨t, rfl, -⟩
  · rfl
  · exact absurd List.mem_cons_self hx

/-- **A word does not reach across a character it does not contain.** -/
theorem infix_append_cons_iff {x : Char} (hx : x ∉ w) (a b : List Char) :
    w <:+: a ++ x :: b ↔ w <:+: a ∨ w <:+: b := by
  constructor
  · intro h
    rcases List.infix_append_iff.mp h with h | h | ⟨u, v, rfl, hu, hv⟩
    · exact Or.inl h
    · rcases List.infix_cons_iff.mp h with h | h
      · exact Or.inl (prefix_cons_of_not_mem hx h ▸ List.nil_infix)
      · exact Or.inr h
    · have hv := prefix_cons_of_not_mem (fun h => hx (List.mem_append_right _ h)) hv
      rw [hv, List.append_nil]
      exact Or.inl hu.isInfix
  · rintro (h | h)
    · exact h.trans (List.infix_append_left)
    · exact h.trans ((List.infix_cons List.infix_rfl).trans List.infix_append_right)

/-- A fixed text the word cannot reach into from the left: no beginning of
it is the end of the word or ends with the word. -/
def NoEntry (w b : List Char) : Prop :=
  ¬ w <:+: b ∧ ∀ u ∈ b.inits, u ≠ [] → ¬ u <:+ w

/-- A fixed text the word cannot reach into from the right: no end of it
is the beginning of the word or begins with the word. -/
def NoExit (w b : List Char) : Prop :=
  ¬ w <:+: b ∧ ∀ u ∈ b.tails, u ≠ [] → ¬ u <+: w

instance (w b : List Char) : Decidable (NoEntry w b) :=
  inferInstanceAs (Decidable (_ ∧ _))

instance (w b : List Char) : Decidable (NoExit w b) :=
  inferInstanceAs (Decidable (_ ∧ _))

theorem infix_append_iff_of_noEntry {b : List Char} (h : NoEntry w b) (a : List Char) :
    w <:+: a ++ b ↔ w <:+: a := by
  refine ⟨fun hw => ?_, fun hw => hw.trans List.infix_append_left⟩
  rcases List.infix_append_iff.mp hw with hw | hw | ⟨u, v, rfl, hu, hv⟩
  · exact hw
  · exact absurd hw h.1
  · by_cases hne : v = []
    · subst hne
      rw [List.append_nil]
      exact hu.isInfix
    · exact absurd (List.suffix_append u v) (h.2 v ((List.mem_inits v b).mpr hv) hne)

theorem infix_append_iff_of_noExit {a : List Char} (h : NoExit w a) (b : List Char) :
    w <:+: a ++ b ↔ w <:+: b := by
  refine ⟨fun hw => ?_, fun hw => hw.trans List.infix_append_right⟩
  rcases List.infix_append_iff.mp hw with hw | hw | ⟨u, v, rfl, hu, hv⟩
  · exact absurd hw h.1
  · exact hw
  · by_cases hne : u = []
    · subst hne
      exact hv.isInfix
    · exact absurd (List.prefix_append u v) (h.2 u ((List.mem_tails u a).mpr hu) hne)

/-- Replacing a character the word does not contain neither makes nor
breaks an occurrence, as long as the word does not occur in the
replacement and cannot reach into it. -/
theorem infix_replaceChar_iff {c : Char} (hc : c ∉ w) (hw : w ≠ []) (l : List Char) :
    w <:+: replaceChar c [c, c] l ↔ w <:+: l := by
  suffices h : ∀ cur, w <:+: cur ++ replaceChar c [c, c] l ↔ w <:+: cur ++ l by
    simpa using h []
  induction l with
  | nil => simp [replaceChar]
  | cons d l ih =>
    intro cur
    rw [replaceChar, List.flatMap_cons]
    split_ifs with hd
    · subst hd
      have hnil : ¬ w <:+: [] := by simpa using hw
      have := ih []
      rw [List.nil_append, List.nil_append] at this
      show w <:+: cur ++ d :: ([] ++ d :: replaceChar d [d, d] l) ↔ _
      rw [infix_append_cons_iff hc, infix_append_cons_iff hc, infix_append_cons_iff hc,
        this]
      simp [hnil]
    · have := ih (cur ++ [d])
      simpa [replaceChar] using this

end Text
