import Seekwel.Text
import Mathlib.Data.List.DropRight

/-!
# Marks that are doubled

A text is quoted by a mark at either end, and the marks in it are doubled.
Someone who looks for the text between two marks, without doubling any, finds
it exactly if it has marks at its ends only (`infix_replaceChar_marks_iff`):
those that were doubled make no difference there, since a text may begin
anywhere.
-/

namespace Text

variable {m : Char}

/-- **A text that has a mark only at its ends.** -/
def MarksAtEnds (m : Char) (l : List Char) : Prop :=
  ∃ i mid j, l = List.replicate i m ++ (mid ++ List.replicate j m) ∧ m ∉ mid

theorem replaceChar_append (a b : List Char) :
    replaceChar m [m, m] (a ++ b) = replaceChar m [m, m] a ++ replaceChar m [m, m] b :=
  List.flatMap_append

theorem replaceChar_mark (l : List Char) :
    replaceChar m [m, m] (m :: l) = m :: m :: replaceChar m [m, m] l := by
  simp [replaceChar]

theorem replaceChar_other {c : Char} (h : c ≠ m) (l : List Char) :
    replaceChar m [m, m] (c :: l) = c :: replaceChar m [m, m] l := by
  simp [replaceChar, h]

theorem replaceChar_replicate (n : ℕ) :
    replaceChar m [m, m] (List.replicate n m) = List.replicate n m ++ List.replicate n m := by
  induction n with
  | zero => rfl
  | succ n ih =>
    rw [List.replicate_succ, replaceChar_mark, ih, List.cons_append, List.append_cons,
      ← List.replicate_succ', List.replicate_succ, List.cons_append]

theorem replaceChar_of_not_mem {l : List Char} (h : m ∉ l) : replaceChar m [m, m] l = l := by
  induction l with
  | nil => rfl
  | cons c l ih =>
    rw [List.mem_cons, not_or] at h
    rw [replaceChar_other (Ne.symm h.1), ih h.2]

/-- Doubling makes a text longer by the marks it has. -/
theorem length_replaceChar (l : List Char) :
    (replaceChar m [m, m] l).length = l.length + l.count m := by
  induction l with
  | nil => rfl
  | cons c l ih =>
    by_cases hc : c = m
    · subst hc
      rw [replaceChar_mark, List.length_cons, List.length_cons, ih, List.length_cons,
        List.count_cons_self]
      omega
    · rw [replaceChar_other hc, List.length_cons, ih, List.length_cons, List.count_cons_of_ne hc]
      omega

theorem countP_replaceChar (l : List Char) :
    (replaceChar m [m, m] l).countP (· ≠ m) = l.countP (· ≠ m) := by
  induction l with
  | nil => rfl
  | cons c l ih =>
    by_cases hc : c = m
    · subst hc
      simpa [replaceChar_mark] using ih
    · rw [replaceChar_other hc, List.countP_cons, List.countP_cons, ih]

theorem count_replaceChar_of_ne {c : Char} (h : c ≠ m) (l : List Char) :
    (replaceChar m [m, m] l).count c = l.count c := by
  induction l with
  | nil => rfl
  | cons d l ih =>
    by_cases hd : d = m
    · subst hd
      rw [replaceChar_mark, List.count_cons_of_ne (Ne.symm h), List.count_cons_of_ne (Ne.symm h),
        List.count_cons_of_ne (Ne.symm h), ih]
    · rw [replaceChar_other hd, List.count_cons, List.count_cons, ih]

theorem reverse_replaceChar (l : List Char) :
    (replaceChar m [m, m] l).reverse = replaceChar m [m, m] l.reverse := by
  induction l with
  | nil => rfl
  | cons c l ih =>
    rw [List.reverse_cons, replaceChar_append, ← ih]
    by_cases hc : c = m
    · subst hc
      simp [replaceChar]
    · simp [replaceChar, hc]

/-- The text between the marks at the ends of a text. -/
def stripMarks (m : Char) (l : List Char) : List Char :=
  (l.dropWhile (· = m)).rdropWhile (· = m)

theorem stripMarks_append {a : List Char} (h : ∀ c ∈ a, c = m) (l : List Char) :
    stripMarks m (a ++ l) = stripMarks m l := by
  rw [stripMarks, List.dropWhile_append_of_pos (by simpa using h), stripMarks]

theorem dropWhile_replaceChar (l : List Char) :
    (replaceChar m [m, m] l).dropWhile (· = m) = replaceChar m [m, m] (l.dropWhile (· = m)) := by
  induction l with
  | nil => rfl
  | cons c l ih =>
    by_cases hc : c = m
    · subst hc
      simpa [replaceChar_mark] using ih
    · simp [replaceChar_other hc, hc]

theorem stripMarks_replaceChar (l : List Char) :
    stripMarks m (replaceChar m [m, m] l) = replaceChar m [m, m] (stripMarks m l) := by
  rw [stripMarks, dropWhile_replaceChar, List.rdropWhile, reverse_replaceChar,
    dropWhile_replaceChar, reverse_replaceChar, stripMarks, List.rdropWhile]

theorem stripMarks_append_right (l : List Char) {b : List Char} (h : ∀ c ∈ b, c = m) :
    stripMarks m (l ++ b) = stripMarks m l := by
  have hb : ∀ c ∈ b, (decide (c = m)) = true := by simpa using h
  have hreverse : ∀ x : List Char, (x ++ b).rdropWhile (· = m) = x.rdropWhile (· = m) := by
    intro x
    rw [List.rdropWhile, List.reverse_append, List.dropWhile_append_of_pos (by simpa using h),
      List.rdropWhile]
  rw [stripMarks, List.dropWhile_append]
  split_ifs with hnil
  · rw [List.isEmpty_iff] at hnil
    rw [stripMarks, hnil, List.dropWhile_eq_nil_iff.mpr hb]
  · exact hreverse _

/-- What is left of a text besides the marks at its ends. -/
theorem exists_replicate_stripMarks (l : List Char) :
    ∃ i j, l = List.replicate i m ++ (stripMarks m l ++ List.replicate j m) := by
  have hfirst : l.takeWhile (· = m) = List.replicate (l.takeWhile (· = m)).length m :=
    List.eq_replicate_of_mem fun c hc => by simpa using List.mem_takeWhile_imp hc
  have hlast : (l.dropWhile (· = m)).rtakeWhile (· = m)
      = List.replicate ((l.dropWhile (· = m)).rtakeWhile (· = m)).length m :=
    List.eq_replicate_of_mem fun c hc => by simpa using List.mem_rtakeWhile_imp hc
  refine ⟨(l.takeWhile (· = m)).length, ((l.dropWhile (· = m)).rtakeWhile (· = m)).length, ?_⟩
  rw [← hfirst, ← hlast, stripMarks, List.rdropWhile_append_rtakeWhile,
    List.takeWhile_append_dropWhile]

/-- **A text in marks is found** where the marks in it are doubled exactly if
it has none but at its ends. -/
theorem infix_replaceChar_marks_iff {l : List Char} :
    m :: (l ++ [m]) <:+: m :: (replaceChar m [m, m] l ++ [m]) ↔ MarksAtEnds m l := by
  constructor
  · rintro ⟨u, v, heq⟩
    have hcount := congrArg (List.countP (· ≠ m)) heq
    simp only [List.countP_append, List.countP_cons, countP_replaceChar] at hcount
    have hu : ∀ c ∈ u, c = m := by
      have hzero : u.countP (· ≠ m) = 0 := by omega
      simpa using List.countP_eq_zero.mp hzero
    have hv : ∀ c ∈ v, c = m := by
      have hzero : v.countP (· ≠ m) = 0 := by omega
      simpa using List.countP_eq_zero.mp hzero
    have hleft : stripMarks m (u ++ m :: (l ++ [m]) ++ v) = stripMarks m l := by
      rw [stripMarks_append_right _ hv, stripMarks_append hu]
      exact (stripMarks_append (List.forall_mem_singleton.mpr rfl) _).trans
        (stripMarks_append_right _ (List.forall_mem_singleton.mpr rfl))
    have hright : stripMarks m (m :: (replaceChar m [m, m] l ++ [m]))
        = replaceChar m [m, m] (stripMarks m l) := by
      rw [← stripMarks_replaceChar]
      exact (stripMarks_append (List.forall_mem_singleton.mpr rfl) _).trans
        (stripMarks_append_right _ (List.forall_mem_singleton.mpr rfl))
    have hstrip : stripMarks m l = replaceChar m [m, m] (stripMarks m l) := by
      rw [← hright, ← heq, hleft]
    have hlength := congrArg List.length hstrip
    rw [length_replaceChar] at hlength
    obtain ⟨i, j, hl⟩ := exists_replicate_stripMarks (m := m) l
    exact ⟨i, _, j, hl, List.count_eq_zero.mp (by omega)⟩
  · rintro ⟨i, mid, j, rfl, hmid⟩
    refine ⟨List.replicate i m, List.replicate j m, ?_⟩
    have hcommute : ∀ (k : ℕ) (rest : List Char), List.replicate k m ++ m :: rest
        = m :: (List.replicate k m ++ rest) := by
      intro k rest
      rw [← List.cons_append, ← List.replicate_succ, List.replicate_succ', List.append_assoc,
        List.singleton_append]
    rw [replaceChar_append, replaceChar_append, replaceChar_replicate, replaceChar_replicate,
      replaceChar_of_not_mem hmid]
    simp only [List.append_assoc, List.cons_append, List.append_nil, hcommute]

theorem marksAtEnds_of_not_mem {l : List Char} (h : m ∉ l) : MarksAtEnds m l :=
  ⟨0, l, 0, by simp, h⟩

/-- A text that begins with a mark does not begin before the first one. -/
theorem infix_of_infix_append {a l part : List Char} (ha : m ∉ a)
    (h : m :: part <:+: a ++ l) : m :: part <:+: l := by
  obtain ⟨before, after, heq⟩ := h
  rw [List.append_assoc, List.append_eq_append_iff] at heq
  obtain ⟨mid, rfl, hl⟩ | ⟨mid, rfl, rfl⟩ := heq
  · cases mid with
    | nil => exact ⟨[], after, by simpa using hl⟩
    | cons c mid =>
      obtain ⟨rfl, -⟩ := List.cons.inj hl
      simp at ha
  · exact ⟨mid, after, List.append_assoc ..⟩

/-- A text in marks of another kind is not found where there are none. -/
theorem not_infix_of_other {a l : List Char} {c d : Char} (ha : c ∉ a) (h : c ≠ m) :
    ¬ c :: (l ++ [d]) <:+: a ++ m :: (replaceChar m [m, m] l ++ [m]) := by
  intro hinfix
  have hcount := hinfix.sublist.count_le c
  rw [List.count_cons_self, List.count_append, List.count_append, List.count_eq_zero.mpr ha,
    List.count_cons_of_ne (Ne.symm h), List.count_append, count_replaceChar_of_ne h,
    List.count_cons_of_ne (Ne.symm h), List.count_nil] at hcount
  omega

end Text
