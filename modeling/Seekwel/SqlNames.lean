import Seekwel.SqlLexer

/-!
# Names that are read as themselves

A statement may be put together from names and the texts between them, the
names being put in as they are. This module decides which names come out as
they went in.

A word is read as itself, and what a quotation says is shorter than the
quotation by its marks. So if some name came out of a quotation, the closing
mark would stand behind the name, which is in a later name, as the texts in
between have no marks. This later name then would not be a word either, and
its own quotation would end later still. Since the names are finitely many,
all of them are words (`Woven.identifiers`).
-/

namespace Sql

/-! ## The first token of a text -/

/-- The tokens of a text, after what the state has read. -/
def State.lex (s : State) (l : List Char) : Option (List Token) :=
  (scan s l).bind fun p => p.2.finish.map (p.1 ++ ·)

/-- The tokens of a list of characters. -/
def lex (l : List Char) : Option (List Token) := State.start.lex l

theorem tokens_eq_lex (text : String) : tokens text = lex text.toList := rfl

theorem State.lex_nil (s : State) : s.lex [] = s.finish := by
  simp [State.lex, scan]

theorem State.lex_extend {s s' : State} {c : Char} (h : s.extend c = some s') (cs : List Char) :
    s.lex (c :: cs) = s'.lex cs := by
  rw [State.lex, State.lex, scan, State.step, h, Option.bind_some]
  cases scan s' cs <;> rfl

theorem lex_begin (c : Char) (cs : List Char) :
    lex (c :: cs) = (begin c).bind fun p => (p.2.lex cs).map (p.1 ++ ·) := by
  rw [lex, State.lex, scan, State.step, show State.start.extend c = none from rfl,
    show State.start.finish = some [] from rfl]
  simp only [Option.bind_some, List.nil_append]
  cases begin c with
  | none => rfl
  | some p =>
    rw [Option.map_some, Option.bind_some, Option.bind_some, State.lex]
    cases scan p.2 cs with
    | none => rfl
    | some q => cases hq : q.2.finish <;> simp [hq]

/-- A token that ends before a character. -/
theorem State.lex_finish {s : State} {c : Char} (h : s.extend c = none) (cs : List Char) :
    s.lex (c :: cs) = s.finish.bind fun us => (Sql.lex (c :: cs)).map (us ++ ·) := by
  rw [lex_begin, State.lex, scan, State.step, h]
  cases s.finish with
  | none => rfl
  | some us =>
    simp only [Option.bind_some]
    cases begin c with
    | none => rfl
    | some p =>
      rw [Option.map_some, Option.bind_some, Option.bind_some, State.lex]
      cases scan p.2 cs with
      | none => rfl
      | some q => cases hq : q.2.finish <;> simp [hq]

/-- A text that is read to its end, and what follows it. -/
theorem lex_append {a : List Char} {ts : List Token} (h : scan .start a = some (ts, .start))
    (b : List Char) : lex (a ++ b) = (lex b).map (ts ++ ·) := by
  rw [lex, State.lex, scan_append, h, Option.bind_some, lex, State.lex]
  cases scan .start b with
  | none => rfl
  | some p => cases hp : p.2.finish <;> simp [hp]

/-- The marks that may end a quotation. -/
def closingMarks : List Char := ['"', '\'', '\x60', ']']

/-- What a token that is a word or a quotation says of its characters. -/
def Token.IsSource : Token → List Char → Prop
  | word text, src => src = text.toList ∧ isIdentifier text = true
  | quoted _ text, src =>
    text.toList.length + 2 ≤ src.length ∧ ∃ mark ∈ closingMarks, src.getLast? = some mark
  | _, _ => True

/-- What a token says of the characters of it that were still to be read in
a state. -/
def State.Completes : State → List Char → Token → Prop
  | word read, src, t => t = .word (String.ofList (read ++ src)) ∧ ∀ c ∈ src, isIdChar c = true
  | quoted mark read, src, t =>
    ∃ text, t = .quoted mark (String.ofList text) ∧ text.length + 1 ≤ read.length + src.length
      ∧ src.getLast? = some (closingMark mark)
  | closing mark read, src, t =>
    ∃ text, t = .quoted mark (String.ofList text) ∧ text.length ≤ read.length + src.length
      ∧ (src = [] ∨ src.getLast? = some (closingMark mark))
  | _, src, t => ∃ a b, src = a ++ b ∧ t.IsSource b

theorem completes_finish {s : State} {t : Token} {ts : List Token}
    (h : s.finish = some (t :: ts)) : ts = [] ∧ s.Completes [] t := by
  cases s with
  | word read =>
    cases h
    exact ⟨rfl, by simp [State.Completes]⟩
  | number read =>
    simp only [State.finish] at h
    split_ifs at h
    cases h
    exact ⟨rfl, [], [], rfl, trivial⟩
  | param read =>
    simp only [State.finish] at h
    split_ifs at h
    cases h
    exact ⟨rfl, [], [], rfl, trivial⟩
  | closing mark read =>
    cases h
    exact ⟨rfl, read, by simp⟩
  | symbol read =>
    simp only [State.finish] at h
    split_ifs at h
    cases h
    exact ⟨rfl, [], [], rfl, trivial⟩
  | start => cases h
  | quoted mark read => cases h
  | lineComment => cases h
  | blockComment => cases h
  | blockCommentStar => cases h

theorem getLast?_cons_of_eq_some {c d : Char} {l : List Char} (h : l.getLast? = some d) :
    (c :: l).getLast? = some d := by
  cases l with
  | nil => cases h
  | cons e l => rw [List.getLast?_cons_cons, h]

theorem isSource_skip {a src : List Char} {t : Token} (h : ∃ a b, src = a ++ b ∧ t.IsSource b) :
    ∃ a' b, a ++ src = a' ++ b ∧ t.IsSource b := by
  obtain ⟨a', b, rfl, hb⟩ := h
  exact ⟨a ++ a', b, (List.append_assoc ..).symm, hb⟩

/-- The characters that a state has before it belong to the same token. -/
theorem completes_extend {s s' : State} {c : Char} (h : s.extend c = some s') {src : List Char}
    {t : Token} (hc : s'.Completes src t) : s.Completes (c :: src) t := by
  cases s with
  | start => cases h
  | word read =>
    simp only [State.extend] at h
    split_ifs at h with hid
    cases h
    obtain ⟨rfl, hall⟩ := hc
    exact ⟨by simp, List.forall_mem_cons.mpr ⟨hid, hall⟩⟩
  | number read =>
    simp only [State.extend] at h
    split_ifs at h
    cases h
    exact isSource_skip (a := [c]) hc
  | param read =>
    simp only [State.extend] at h
    split_ifs at h
    all_goals cases h
    all_goals exact isSource_skip (a := [c]) hc
  | quoted mark read =>
    simp only [State.extend] at h
    split_ifs at h with hnul hclose
    · cases h
      obtain ⟨text, rfl, hlength, hlast⟩ := hc
      refine ⟨text, rfl, by simpa [Nat.add_assoc] using Nat.succ_le_succ hlength, ?_⟩
      obtain rfl | hlast := hlast
      · rw [List.getLast?_singleton, hclose]
      · exact getLast?_cons_of_eq_some hlast
    · cases h
      obtain ⟨text, rfl, hlength, hlast⟩ := hc
      simp only [List.length_append, List.length_singleton] at hlength
      exact ⟨text, rfl, by simp only [List.length_cons]; omega, getLast?_cons_of_eq_some hlast⟩
  | closing mark read =>
    simp only [State.extend] at h
    split_ifs at h
    cases h
    obtain ⟨text, rfl, hlength, hlast⟩ := hc
    simp only [List.length_append, List.length_singleton] at hlength
    exact ⟨text, rfl, by simp only [List.length_cons]; omega,
      Or.inr (getLast?_cons_of_eq_some hlast)⟩
  | symbol read =>
    simp only [State.extend] at h
    split_ifs at h
    all_goals cases h
    all_goals exact isSource_skip (a := [c]) hc
  | lineComment =>
    cases h
    split_ifs at hc
    all_goals exact isSource_skip (a := [c]) hc
  | blockComment =>
    cases h
    split_ifs at hc
    all_goals exact isSource_skip (a := [c]) hc
  | blockCommentStar =>
    cases h
    split_ifs at hc
    all_goals exact isSource_skip (a := [c]) hc

/-- The first character of a token. -/
theorem completes_begin {s : State} {c : Char} (h : begin c = some ([], s)) {src : List Char}
    {t : Token} (hc : s.Completes src t) : State.start.Completes (c :: src) t := by
  unfold begin at h
  split_ifs at h with hspace hpunct hid hdigit hparam hquote hop
  all_goals cases h
  · exact isSource_skip (a := [c]) hc
  · obtain ⟨rfl, hall⟩ := hc
    refine ⟨[], c :: src, rfl, ?_⟩
    show c :: src = (String.ofList ([c] ++ src)).toList ∧ _
    refine ⟨by simp, ?_⟩
    simp [isIdentifier, hid, List.all_eq_true.mpr hall]
  · exact isSource_skip (a := [c]) hc
  · exact isSource_skip (a := [c]) hc
  · obtain ⟨text, rfl, hlength, hlast⟩ := hc
    refine ⟨[], c :: src, rfl, ?_⟩
    show (String.ofList text).toList.length + 2 ≤ _ ∧ _
    refine ⟨?_, closingMark c, ?_, getLast?_cons_of_eq_some hlast⟩
    · simp only [String.toList_ofList, List.length_cons, List.length_nil] at hlength ⊢
      omega
    · simp only [List.mem_cons, List.not_mem_nil, or_false] at hquote
      obtain rfl | rfl | rfl | rfl := hquote
      all_goals decide
  · exact isSource_skip (a := [c]) hc

theorem begin_token {c : Char} {t : Token} {ts : List Token} {s : State}
    (h : begin c = some (t :: ts, s)) : ts = [] ∧ s = .start ∧ t.IsSource [c] := by
  unfold begin at h
  split_ifs at h
  all_goals cases h
  exact ⟨rfl, rfl, trivial⟩

/-- **The first token of a text**: it completes what was read, and the
other tokens are those of the rest. -/
theorem first_token {s : State} {l : List Char} {t : Token} {ts : List Token}
    (h : s.lex l = some (t :: ts)) :
    ∃ src b, l = src ++ b ∧ lex b = some ts ∧ s.Completes src t := by
  induction l generalizing s with
  | nil =>
    rw [State.lex_nil] at h
    obtain ⟨rfl, hc⟩ := completes_finish h
    exact ⟨[], [], rfl, rfl, hc⟩
  | cons c cs ih =>
    cases hextend : s.extend c with
    | some s' =>
      rw [State.lex_extend hextend] at h
      obtain ⟨src, b, rfl, hb, hc⟩ := ih h
      exact ⟨c :: src, b, rfl, hb, completes_extend hextend hc⟩
    | none =>
      rw [State.lex_finish hextend] at h
      obtain ⟨us, hus, h⟩ := Option.bind_eq_some_iff.mp h
      obtain ⟨vs, hvs, heq⟩ := Option.map_eq_some_iff.mp h
      cases us with
      | cons u us =>
        obtain ⟨rfl, hc⟩ := completes_finish hus
        obtain ⟨rfl, rfl⟩ := List.cons.inj heq
        exact ⟨[], c :: cs, rfl, hvs, hc⟩
      | nil =>
        -- nothing was read, so the character begins the token
        have hstart : s = .start := by
          cases s with
          | start => rfl
          | number read =>
            simp only [State.finish] at hus
            split_ifs at hus
            cases hus
          | param read =>
            simp only [State.finish] at hus
            split_ifs at hus
            cases hus
          | symbol read =>
            simp only [State.finish] at hus
            split_ifs at hus
            cases hus
          | word read => cases hus
          | quoted mark read => cases hus
          | closing mark read => cases hus
          | lineComment => cases hextend
          | blockComment => cases hextend
          | blockCommentStar => cases hextend
        subst hstart
        rw [List.nil_append] at heq
        subst heq
        rw [lex_begin] at hvs
        obtain ⟨⟨ws, s'⟩, hbegin, hvs⟩ := Option.bind_eq_some_iff.mp hvs
        obtain ⟨xs, hxs, heq⟩ := Option.map_eq_some_iff.mp hvs
        cases ws with
        | nil =>
          obtain rfl : xs = t :: ts := heq
          obtain ⟨src, b, rfl, hb, hc⟩ := ih hxs
          exact ⟨c :: src, b, rfl, hb, completes_begin hbegin hc⟩
        | cons w ws =>
          obtain ⟨rfl, rfl, hsource⟩ := begin_token hbegin
          obtain ⟨rfl, rfl⟩ := List.cons.inj heq
          exact ⟨[c], cs, rfl, hxs, [], [c], rfl, hsource⟩

/-- The first token of a text, and where the rest begins. -/
theorem lex_cons {l : List Char} {t : Token} {ts : List Token} (h : lex l = some (t :: ts)) :
    ∃ a src b, l = a ++ src ++ b ∧ t.IsSource src ∧ lex b = some ts := by
  obtain ⟨src, b, rfl, hb, a, src', rfl, hsource⟩ := first_token h
  exact ⟨a, src', b, rfl, hsource, hb⟩

/-- The rest after some tokens. -/
theorem lex_drop {us vs : List Token} {l : List Char} (h : lex l = some (us ++ vs)) :
    ∃ b, b <:+ l ∧ lex b = some vs := by
  induction us generalizing l with
  | nil => exact ⟨l, List.suffix_rfl, h⟩
  | cons u us ih =>
    obtain ⟨a, src, b, rfl, -, hb⟩ := lex_cons h
    obtain ⟨b', hsuffix, hb'⟩ := ih hb
    exact ⟨b', hsuffix.trans (List.suffix_append _ _), hb'⟩

/-! ## Names between fixed texts -/

/-- A name in a statement, with the text after it. -/
structure Part where
  name : String
  /-- What follows the name. -/
  after : List Char
  /-- How many tokens the text after the name has. -/
  count : ℕ
  /-- Which words are taken for this name. -/
  accepts : String → Prop

/-- The text of names and what follows them. -/
def woven (parts : List Part) (final : List Char) : List Char :=
  parts.foldr (fun part rest => part.name.toList ++ (part.after ++ rest)) final

/-- Whether a token says a name. -/
def Part.Says (part : Part) (t : Token) : Prop :=
  (t = .word part.name ∧ part.accepts part.name) ∨ ∃ mark, t = .quoted mark part.name

/-- Whether tokens say the names, with the right number of tokens between
them. -/
def Woven : List Part → List Token → Prop
  | [], _ => True
  | part :: rest, ts =>
    ∃ t us vs, ts = t :: (us ++ vs) ∧ part.Says t ∧ us.length = part.count ∧ Woven rest vs

/-- **A text that separates names**: it has none of the marks, and wherever
one begins to read in it, it is read to its end and has no more tokens than
it has. -/
def Part.Separates (part : Part) : Prop :=
  (∀ mark ∈ closingMarks, mark ∉ part.after)
  ∧ ∀ l ∈ part.after.tails, ∃ ts, scan .start l = some (ts, .start) ∧ ts.length ≤ part.count

theorem not_mem_of_isIdentifier {name : String} (h : isIdentifier name = true) {mark : Char}
    (hm : mark ∈ closingMarks) : mark ∉ name.toList := by
  have hno : closingMarks.all (fun mark => !isIdStart mark && !isIdChar mark) = true := by decide
  have hmark := List.all_eq_true.mp hno mark hm
  simp only [Bool.and_eq_true, Bool.not_eq_true'] at hmark
  unfold isIdentifier at h
  cases hl : name.toList with
  | nil => exact List.not_mem_nil
  | cons c cs =>
    rw [hl, Bool.and_eq_true, List.all_eq_true] at h
    intro hmem
    obtain rfl | hmem := List.mem_cons.mp hmem
    · rw [hmark.1] at h
      cases h.1
    · have := h.2 mark hmem
      rw [hmark.2] at this
      cases this

/-- A character in a text is in its first part, or what begins there is in
the second part. -/
theorem mem_or_suffix {c : Char} {u a b : List Char} (h : c :: u <:+ a ++ b) :
    c ∈ a ∨ c :: u <:+ b := by
  obtain h' | h' := List.suffix_or_suffix_of_suffix h (List.suffix_append a b)
  · exact Or.inr h'
  · obtain ⟨z, hz⟩ := h'
    rw [← hz, List.suffix_append_self_iff] at h
    cases z with
    | nil => exact Or.inr ⟨[], hz.symm⟩
    | cons d z =>
      obtain ⟨rfl, -⟩ := List.cons.inj hz
      exact Or.inl (h.subset List.mem_cons_self)

/-- After a name that was read where it stands or later, the next name is
read where it stands or later. -/
theorem Part.Separates.next {part : Part} (h : part.Separates) {rest l : List Char}
    {us vs : List Token} (hl : l <:+ part.after ++ rest) (hlex : lex l = some (us ++ vs))
    (hcount : us.length = part.count) : ∃ b, b <:+ l ∧ b <:+ rest ∧ lex b = some vs := by
  obtain hrest | hrest := List.suffix_or_suffix_of_suffix hl (List.suffix_append _ rest)
  · obtain ⟨b, hb, hvs⟩ := lex_drop hlex
    exact ⟨b, hb, hb.trans hrest, hvs⟩
  · obtain ⟨z, rfl⟩ := hrest
    have hz : z <:+ part.after := List.suffix_append_self_iff.mp hl
    obtain ⟨ts, hts, hlength⟩ := h.2 z ((List.mem_tails _ _).mpr hz)
    rw [lex_append hts] at hlex
    obtain ⟨ws, hws, heq⟩ := Option.map_eq_some_iff.mp hlex
    obtain ⟨xs, rfl⟩ : ts <+: us := by
      refine List.prefix_of_prefix_length_le (List.prefix_append ts ws) ?_ (hcount ▸ hlength)
      rw [heq]
      exact List.prefix_append us vs
    rw [List.append_assoc, List.append_cancel_left_eq] at heq
    subst heq
    obtain ⟨b, hb, hvs⟩ := lex_drop hws
    exact ⟨b, hb.trans (List.suffix_append _ _), hb, hvs⟩

/-- **The tokens of woven names are words, and no name is read after its
place.** The first part is for tokens that begin at the first name or later,
the second for tokens that begin behind a mark. -/
theorem woven_words {parts : List Part} {final : List Char}
    (hparts : ∀ part ∈ parts, part.Separates) (hfinal : ∀ mark ∈ closingMarks, mark ∉ final) :
    (∀ l ts, l <:+ woven parts final → lex l = some ts → Woven parts ts →
      ∀ part ∈ parts, isIdentifier part.name = true ∧ part.accepts part.name)
    ∧ ∀ mark ∈ closingMarks, ∀ u, mark :: u <:+ woven parts final →
      ∀ l ts, l <:+ u → lex l = some ts → ¬ Woven parts ts := by
  induction parts with
  | nil =>
    refine ⟨fun _ _ _ _ _ part hpart => absurd hpart List.not_mem_nil, ?_⟩
    intro mark hm u hu
    exact absurd (hu.subset List.mem_cons_self) (hfinal mark hm)
  | cons part rest ih =>
    have hpart := hparts part List.mem_cons_self
    obtain ⟨ihwords, ihlate⟩ := ih fun p hp => hparts p (List.mem_cons_of_mem _ hp)
    have hmark : ∀ mark ∈ closingMarks, ∀ u, mark :: u <:+ part.after ++ woven rest final →
        mark :: u <:+ woven rest final := fun mark hm u hu =>
      (mem_or_suffix hu).resolve_left (hpart.1 mark hm)
    -- the first name is a word: a quotation would end in a later name
    have hfirst : ∀ l t us vs, l <:+ woven (part :: rest) final → lex l = some (t :: (us ++ vs)) →
        part.Says t → us.length = part.count → Woven rest vs →
        isIdentifier part.name = true ∧ part.accepts part.name
          ∧ ∃ b, b <:+ l ∧ b <:+ woven rest final ∧ lex b = some vs := by
      intro l t us vs hl hlex hsays hcount hrest
      obtain ⟨a, src, b, rfl, hsource, hb⟩ := lex_cons hlex
      have hbl : b <:+ part.name.toList ++ (part.after ++ woven rest final) :=
        (List.suffix_append _ _).trans hl
      have hlength := hl.length_le
      rw [woven, List.foldr_cons] at hlength
      simp only [List.length_append] at hlength
      obtain ⟨rfl, haccepts⟩ | ⟨mark, rfl⟩ := hsays
      · obtain ⟨rfl, hid⟩ := hsource
        have hb' : b <:+ part.after ++ woven rest final := by
          refine List.suffix_of_suffix_length_le hbl (List.suffix_append _ _) ?_
          simp only [List.length_append, woven]
          omega
        obtain ⟨b', hsuffix, hrest', hvs⟩ := hpart.next hb' hb hcount
        exact ⟨hid, haccepts, b', hsuffix.trans (List.suffix_append _ _), hrest', hvs⟩
      · obtain ⟨hsrc, mark', hm', hlast⟩ := hsource
        obtain ⟨src', rfl⟩ := List.getLast?_eq_some_iff.mp hlast
        have hclose : mark' :: b <:+ part.after ++ woven rest final := by
          have hwhole : mark' :: b <:+ part.name.toList ++ (part.after ++ woven rest final) :=
            List.IsSuffix.trans ⟨a ++ src', by simp⟩ hl
          refine List.suffix_of_suffix_length_le hwhole (List.suffix_append _ _) ?_
          simp only [List.length_append, List.length_cons, List.length_nil, woven]
            at hsrc hlength ⊢
          omega
        obtain ⟨b', hsuffix, hvs⟩ := lex_drop hb
        exact absurd hrest (ihlate mark' hm' b (hmark mark' hm' b hclose) b' vs hsuffix hvs)
    constructor
    · rintro l ts hl hlex ⟨t, us, vs, rfl, hsays, hcount, hrest⟩ p hp
      obtain ⟨hid, haccepts, b, -, hb, hvs⟩ := hfirst l t us vs hl hlex hsays hcount hrest
      obtain rfl | hp := List.mem_cons.mp hp
      · exact ⟨hid, haccepts⟩
      · exact ihwords b vs hb hvs hrest p hp
    · rintro mark hm u hu l ts hl hlex ⟨t, us, vs, rfl, hsays, hcount, hrest⟩
      have hl' : l <:+ woven (part :: rest) final :=
        (hl.trans (List.suffix_cons mark u)).trans hu
      obtain ⟨hid, -, b, hbl, -, hvs⟩ := hfirst l t us vs hl' hlex hsays hcount hrest
      have hu' := (mem_or_suffix hu).resolve_left (not_mem_of_isIdentifier hid hm)
      exact ihlate mark hm u (hmark mark hm u hu') b vs (hbl.trans hl) hvs hrest

/-- **Names that come out of a text as they went in are words.** -/
theorem Woven.identifiers {parts : List Part} {final : List Char} {ts : List Token}
    (hparts : ∀ part ∈ parts, part.Separates) (hfinal : ∀ mark ∈ closingMarks, mark ∉ final)
    (hlex : lex (woven parts final) = some ts) (h : Woven parts ts) :
    ∀ part ∈ parts, isIdentifier part.name = true ∧ part.accepts part.name :=
  (woven_words hparts hfinal).1 _ ts List.suffix_rfl hlex h

end Sql
