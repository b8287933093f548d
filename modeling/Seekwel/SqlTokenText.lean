import Seekwel.SqlLexer

/-!
# Where the tokens of a text stand

Every name that the scanner reads stands in the text: a word by itself,
between characters that no word has, and a quoted name in its quotation marks
(`standsIn_of_tokens`).

The scanner is at some place in a token at any time, and what it has read of
the token is what the text ends in up to there (`State.EndsIn`). This is kept
by every character (`endsIn_step`). Only after a parameter may a word begin
without anything between them.
-/

namespace Sql

/-- What a quotation is written as, without its marks. -/
def spelled (mark : Char) (text : List Char) : List Char :=
  if closingMark mark = mark then Text.replaceChar mark [mark, mark] text else text

/-- What a token is written as. -/
def Token.text : Token → String
  | word text | number text | param text | symbol text => text
  | quoted mark text => String.ofList (mark :: (spelled mark text.toList ++ [closingMark mark]))

/-- A place that is not inside of a word, by the character at it. -/
def IsEdge (c : Option Char) : Prop := ∀ d ∈ c, isIdChar d = false

/-- **A token that stands in a text.** Only words and quotations are looked
at. -/
def Token.StandsIn (text : List Char) : Token → Prop
  | word w => isIdentifier w = true ∧ ∃ before after,
      text = before ++ (w.toList ++ after) ∧ IsEdge before.getLast? ∧ IsEdge after.head?
  | quoted mark w => mark :: (spelled mark w.toList ++ [closingMark mark]) <:+: text
  | _ => True

/-- A token that stands in a text which goes on after it. -/
def Token.StandsBefore (text : List Char) : Token → Prop
  | word w => isIdentifier w = true ∧ ∃ before c after,
      text = before ++ (w.toList ++ c :: after) ∧ IsEdge before.getLast? ∧ isIdChar c = false
  | quoted mark w => mark :: (spelled mark w.toList ++ [closingMark mark]) <:+: text
  | _ => True

theorem Token.StandsBefore.append {text : List Char} {t : Token} (h : t.StandsBefore text)
    (more : List Char) : t.StandsBefore (text ++ more) := by
  cases t with
  | word w =>
    obtain ⟨hw, before, c, after, rfl, hbefore, hc⟩ := h
    exact ⟨hw, before, c, after ++ more, by simp, hbefore, hc⟩
  | quoted mark w =>
    exact List.IsInfix.trans h (List.infix_append' [] text more)
  | _ => trivial

theorem Token.StandsBefore.standsIn {text : List Char} {t : Token} (h : t.StandsBefore text) :
    t.StandsIn text := by
  cases t with
  | word w =>
    obtain ⟨hw, before, c, after, rfl, hbefore, hc⟩ := h
    exact ⟨hw, before, c :: after, rfl, hbefore, fun d hd => Option.some.inj hd ▸ hc⟩
  | _ => exact h

/-- **What the scanner has read of a token** is what the text ends in. -/
def State.EndsIn (text : List Char) : State → Prop
  | start => IsEdge text.getLast?
  | symbol _ => IsEdge text.getLast?
  | word read => isIdentifier (String.ofList read) = true
      ∧ ∃ before, text = before ++ read ∧ IsEdge before.getLast?
  | quoted mark read => isIdChar (closingMark mark) = false ∧ mark :: spelled mark read <:+ text
  | closing mark read => isIdChar (closingMark mark) = false
      ∧ mark :: (spelled mark read ++ [closingMark mark]) <:+ text
  | _ => True

/-- Whether a token is a parameter. -/
def Token.isParam : Token → Bool
  | param _ => true
  | _ => false

section Steps

variable {text : List Char} {s s' : State} {c : Char}

theorem isEdge_concat (h : isIdChar c = false) : IsEdge (text ++ [c]).getLast? := by
  intro d hd
  rw [List.getLast?_concat] at hd
  exact Option.some.inj hd ▸ h

theorem suffix_concat {part : List Char} (h : part <:+ text) : part ++ [c] <:+ text ++ [c] := by
  obtain ⟨before, rfl⟩ := h
  exact ⟨before, (List.append_assoc ..).symm⟩

theorem spelled_concat {mark : Char} {read : List Char} (h : c ≠ closingMark mark) :
    spelled mark (read ++ [c]) = spelled mark read ++ [c] := by
  unfold spelled
  split_ifs with hm
  · rw [hm] at h
    simp [Text.replaceChar, h]
  · rfl

theorem spelled_concat_mark {mark : Char} (h : closingMark mark = mark) (read : List Char) :
    spelled mark (read ++ [mark]) = spelled mark read ++ [mark] ++ [mark] := by
  simp [spelled, h, Text.replaceChar]

theorem isIdentifier_concat {read : List Char} (h : isIdentifier (String.ofList read) = true)
    (hc : isIdChar c = true) : isIdentifier (String.ofList (read ++ [c])) = true := by
  cases read with
  | nil => simp [isIdentifier] at h
  | cons d read => simpa [isIdentifier, hc] using h

theorem isIdChar_of_isOperator {read : List Char} (h : isOperator read c = true) :
    isIdChar c = false := by
  have hmem : c ∈ ['=', '>', '<', '|'] := by
    simp only [isOperator, List.mem_cons, Prod.mk.injEq, decide_eq_true_eq] at h ⊢
    tauto
  have hall : ['=', '>', '<', '|'].all (fun c => !isIdChar c) = true := by decide
  simpa using List.all_eq_true.mp hall c hmem

/-- A character that belongs to the token. -/
theorem endsIn_extend (h : s.extend c = some s') (hs : s.EndsIn text) :
    s'.EndsIn (text ++ [c]) := by
  cases s with
  | start => cases h
  | word read =>
    rw [State.extend] at h
    split_ifs at h with hc
    obtain rfl := Option.some.inj h
    obtain ⟨hread, before, rfl, hbefore⟩ := hs
    exact ⟨isIdentifier_concat hread hc, before, List.append_assoc .., hbefore⟩
  | number read =>
    rw [State.extend] at h
    split_ifs at h
    obtain rfl := Option.some.inj h
    trivial
  | param read =>
    rw [State.extend] at h
    split_ifs at h
    all_goals
      obtain rfl := Option.some.inj h
      trivial
  | quoted mark read =>
    rw [State.extend] at h
    split_ifs at h with hnul hclose
    · obtain rfl := Option.some.inj h
      rw [hclose]
      exact ⟨hs.1, suffix_concat hs.2⟩
    · obtain rfl := Option.some.inj h
      refine ⟨hs.1, ?_⟩
      rw [spelled_concat hclose]
      exact suffix_concat hs.2
  | closing mark read =>
    rw [State.extend] at h
    split_ifs at h with hc
    obtain rfl := Option.some.inj h
    obtain ⟨hclose, rfl⟩ : c = closingMark mark ∧ c = mark := by simpa using hc
    refine ⟨hs.1, ?_⟩
    rw [spelled_concat_mark hclose.symm]
    have hsuffix := hs.2
    rw [← hclose] at hsuffix
    exact suffix_concat hsuffix
  | symbol read =>
    rw [State.extend] at h
    split_ifs at h with hoperator
    · obtain rfl := Option.some.inj h
      exact isEdge_concat (isIdChar_of_isOperator hoperator)
    all_goals
      obtain rfl := Option.some.inj h
      trivial
  | lineComment =>
    rw [State.extend] at h
    obtain rfl := Option.some.inj h
    split_ifs with hc
    · exact isEdge_concat (hc ▸ by decide)
    · trivial
  | blockComment =>
    rw [State.extend] at h
    obtain rfl := Option.some.inj h
    split_ifs
    all_goals trivial
  | blockCommentStar =>
    rw [State.extend] at h
    obtain rfl := Option.some.inj h
    split_ifs with hc
    · exact isEdge_concat (hc ▸ by decide)
    all_goals trivial

/-- What ends here is a word, a quotation, or tokens of which nothing is
asked. -/
theorem finish_cases {ts : List Token} (h : s.finish = some ts) :
    (∃ read, s = .word read ∧ ts = [.word (String.ofList read)])
      ∨ (∃ mark read, s = .closing mark read ∧ ts = [.quoted mark (String.ofList read)])
      ∨ ∀ t ∈ ts, ∀ l, t.StandsBefore l ∧ t.StandsIn l := by
  cases s with
  | word read => exact Or.inl ⟨read, rfl, (Option.some.inj h).symm⟩
  | closing mark read => exact Or.inr (Or.inl ⟨mark, read, rfl, (Option.some.inj h).symm⟩)
  | quoted mark read => cases h
  | number read =>
    rw [State.finish] at h
    split_ifs at h
    obtain rfl := Option.some.inj h
    exact Or.inr (Or.inr (List.forall_mem_singleton.mpr fun _ => ⟨trivial, trivial⟩))
  | param read =>
    rw [State.finish] at h
    split_ifs at h
    obtain rfl := Option.some.inj h
    exact Or.inr (Or.inr (List.forall_mem_singleton.mpr fun _ => ⟨trivial, trivial⟩))
  | symbol read =>
    rw [State.finish] at h
    split_ifs at h
    obtain rfl := Option.some.inj h
    exact Or.inr (Or.inr (List.forall_mem_singleton.mpr fun _ => ⟨trivial, trivial⟩))
  | _ =>
    obtain rfl := Option.some.inj h
    exact Or.inr (Or.inr (List.forall_mem_nil _))

/-- A token that ends before a character. -/
theorem standsBefore_finish (hextend : s.extend c = none) {ts : List Token}
    (hfinish : s.finish = some ts) (hs : s.EndsIn text) :
    ∀ t ∈ ts, t.StandsBefore (text ++ [c]) := by
  obtain ⟨read, rfl, rfl⟩ | ⟨mark, read, rfl, rfl⟩ | hfree := finish_cases hfinish
  · obtain ⟨hread, before, rfl, hbefore⟩ := hs
    have hc : isIdChar c = false := by
      by_contra hc
      rw [State.extend, if_pos (Bool.eq_true_of_not_eq_false hc)] at hextend
      cases hextend
    refine List.forall_mem_singleton.mpr ⟨hread, before, c, [], ?_, hbefore, hc⟩
    rw [String.toList_ofList, List.append_assoc]
  · refine List.forall_mem_singleton.mpr ?_
    have hinfix := hs.2.isInfix.trans (List.infix_append' [] text [c])
    rwa [Token.StandsBefore, String.toList_ofList]
  · exact fun t ht => (hfree t ht _).1

/-- Where a word begins, there was no other one. -/
theorem isEdge_of_finish (hextend : s.extend c = none) {ts : List Token}
    (hfinish : s.finish = some ts) (hs : s.EndsIn text) (hc : isIdChar c = true)
    (hparam : ∀ t ∈ ts, t.isParam = false) : IsEdge text.getLast? := by
  cases s with
  | start => exact hs
  | symbol read => exact hs
  | word read =>
    rw [State.extend, if_pos hc] at hextend
    cases hextend
  | number read =>
    rw [State.extend, hc, Bool.true_or, Bool.true_or, if_pos rfl] at hextend
    cases hextend
  | param read =>
    rw [State.finish] at hfinish
    split_ifs at hfinish
    obtain rfl := Option.some.inj hfinish
    cases hparam _ List.mem_cons_self
  | quoted mark read => cases hfinish
  | closing mark read =>
    obtain ⟨hclose, before, rfl⟩ := hs
    rw [← List.cons_append, ← List.append_assoc]
    exact isEdge_concat hclose
  | lineComment => cases hextend
  | blockComment => cases hextend
  | blockCommentStar => cases hextend

theorem isIdChar_of_isIdStart (h : isIdStart c = true) : isIdChar c = true := by
  simp only [isIdStart, isIdChar, Char.isAlphanum, Bool.or_eq_true] at h ⊢
  tauto

/-- A character that begins a token. -/
theorem endsIn_begin {ts : List Token} (h : begin c = some (ts, s'))
    (hedge : isIdStart c = true → IsEdge text.getLast?) :
    s'.EndsIn (text ++ [c]) ∧ ∀ t ∈ ts, t.StandsBefore (text ++ [c]) := by
  have hmarks : (spaces ++ punctuation ++ operatorStarts).all (fun c => !isIdChar c) = true := by
    decide
  have hnone : ∀ c ∈ spaces ++ punctuation ++ operatorStarts, isIdChar c = false := fun c hc => by
    simpa using List.all_eq_true.mp hmarks c hc
  unfold begin at h
  split_ifs at h with hspace hpunctuation hword hdigit hparam hquote hoperator
  all_goals obtain ⟨rfl, rfl⟩ := Prod.mk.inj (Option.some.inj h)
  · exact ⟨isEdge_concat (hnone c (by simp [hspace])), nofun⟩
  · exact ⟨isEdge_concat (hnone c (by simp [hpunctuation])),
      List.forall_mem_singleton.mpr trivial⟩
  · refine ⟨⟨?_, text, rfl, hedge hword⟩, nofun⟩
    simp [isIdentifier, hword]
  · exact ⟨trivial, nofun⟩
  · exact ⟨trivial, nofun⟩
  · have hclose : isIdChar (closingMark c) = false := by
      have hall : ['"', '\'', '\x60', '['].all (fun c => !isIdChar (closingMark c)) = true := by
        decide
      simpa using List.all_eq_true.mp hall c hquote
    refine ⟨⟨hclose, text, ?_⟩, nofun⟩
    simp [spelled, Text.replaceChar]
  · exact ⟨isEdge_concat (hnone c (by simp [hoperator])), nofun⟩

/-- **One character** keeps what the text ends in, and the tokens that it
ends stand in the text. -/
theorem endsIn_step {ts : List Token} (h : s.step c = some (ts, s')) (hs : s.EndsIn text)
    (hparam : ∀ t ∈ ts, t.isParam = false) :
    s'.EndsIn (text ++ [c]) ∧ ∀ t ∈ ts, t.StandsBefore (text ++ [c]) := by
  unfold State.step at h
  cases hextend : s.extend c with
  | some next =>
    rw [hextend] at h
    obtain ⟨rfl, rfl⟩ := Prod.mk.inj (Option.some.inj h)
    exact ⟨endsIn_extend hextend hs, nofun⟩
  | none =>
    rw [hextend] at h
    obtain ⟨us, hfinish, hmap⟩ := Option.bind_eq_some_iff.mp h
    obtain ⟨⟨vs, next⟩, hbegin, heq⟩ := Option.map_eq_some_iff.mp hmap
    obtain ⟨rfl, rfl⟩ := Prod.mk.inj heq
    rw [List.forall_mem_append] at hparam
    obtain ⟨hends, hvs⟩ := endsIn_begin hbegin fun hc =>
      isEdge_of_finish hextend hfinish hs (isIdChar_of_isIdStart hc) hparam.1
    exact ⟨hends, List.forall_mem_append.mpr
      ⟨standsBefore_finish hextend hfinish hs, hvs⟩⟩

/-- **A whole run of the scanner.** -/
theorem endsIn_scan {cs : List Char} {ts : List Token} (h : scan s cs = some (ts, s'))
    (hs : s.EndsIn text) (hparam : ∀ t ∈ ts, t.isParam = false) :
    s'.EndsIn (text ++ cs) ∧ ∀ t ∈ ts, t.StandsBefore (text ++ cs) := by
  induction cs generalizing s text ts with
  | nil =>
    obtain ⟨rfl, rfl⟩ := Prod.mk.inj (Option.some.inj h)
    rw [List.append_nil]
    exact ⟨hs, nofun⟩
  | cons c cs ih =>
    rw [scan] at h
    obtain ⟨⟨us, next⟩, hstep, hmap⟩ := Option.bind_eq_some_iff.mp h
    obtain ⟨⟨vs, last⟩, hscan, heq⟩ := Option.map_eq_some_iff.mp hmap
    obtain ⟨rfl, rfl⟩ := Prod.mk.inj heq
    rw [List.forall_mem_append] at hparam
    obtain ⟨hends, hus⟩ := endsIn_step hstep hs hparam.1
    obtain ⟨hends', hvs⟩ := ih hscan hends hparam.2
    rw [List.append_assoc] at hends' hvs
    refine ⟨hends', List.forall_mem_append.mpr ⟨fun t ht => ?_, hvs⟩⟩
    have happend := (hus t ht).append cs
    rwa [List.append_assoc] at happend

/-- A token that the text ends with. -/
theorem standsIn_finish {ts : List Token} (hfinish : s.finish = some ts) (hs : s.EndsIn text) :
    ∀ t ∈ ts, t.StandsIn text := by
  obtain ⟨read, rfl, rfl⟩ | ⟨mark, read, rfl, rfl⟩ | hfree := finish_cases hfinish
  · obtain ⟨hread, before, rfl, hbefore⟩ := hs
    have hafter : IsEdge ([] : List Char).head? := fun d hd => absurd hd (Option.not_mem_none d)
    refine List.forall_mem_singleton.mpr ⟨hread, before, [], ?_, hbefore, hafter⟩
    rw [String.toList_ofList, List.append_nil]
  · refine List.forall_mem_singleton.mpr ?_
    rw [Token.StandsIn, String.toList_ofList]
    exact hs.2.isInfix
  · exact fun t ht => (hfree t ht _).2

end Steps

/-- **The tokens of a text stand in it**, if there is no parameter among
them. -/
theorem standsIn_of_tokens {text : String} {ts : List Token} (h : tokens text = some ts)
    (hparam : ∀ t ∈ ts, t.isParam = false) : ∀ t ∈ ts, t.StandsIn text.toList := by
  obtain ⟨⟨us, s⟩, hscan, hmap⟩ := Option.bind_eq_some_iff.mp h
  obtain ⟨vs, hfinish, rfl⟩ := Option.map_eq_some_iff.mp hmap
  rw [List.forall_mem_append] at hparam
  have hstart : State.EndsIn [] .start := nofun
  obtain ⟨hends, hus⟩ := endsIn_scan hscan hstart hparam.1
  exact List.forall_mem_append.mpr
    ⟨fun t ht => (hus t ht).standsIn, standsIn_finish hfinish hends⟩

end Sql
