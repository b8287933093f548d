import Seekwel.ParamValue

/-!
# The segments of a flat key

The segments of a key are found by byte offsets: what stands up to a bracket,
between two brackets, and after one is cut out of the key. A slice that does
not begin and end between characters would be a panic.

No slice is: the offsets are those of brackets and of what follows them
(`keySegments_eq`). What comes out is the path that the key was made of, or
the key itself if it was not made of one (`keySegments_spec`).
-/

namespace Seekwel.Model

/-! ## Offsets and slices -/

/-- The offset of the first occurrence of a character. -/
def findByte (c : Char) : List Char → Option ℕ
  | [] => none
  | d :: s => if d = c then some 0 else (findByte c s).map (d.utf8Size + ·)

/-- The text up to an offset, if it is one between characters. -/
def sliceTo : List Char → ℕ → Option (List Char)
  | _, 0 => some []
  | [], _ + 1 => none
  | c :: s, n + 1 =>
    if c.utf8Size ≤ n + 1 then (sliceTo s (n + 1 - c.utf8Size)).map (c :: ·) else none

/-- The text from an offset on. -/
def sliceFrom : List Char → ℕ → Option (List Char)
  | s, 0 => some s
  | [], _ + 1 => none
  | c :: s, n + 1 => if c.utf8Size ≤ n + 1 then sliceFrom s (n + 1 - c.utf8Size) else none

/-- The text between two offsets. -/
def slice (s : List Char) (start stop : ℕ) : Option (List Char) :=
  (sliceTo s stop).bind (sliceFrom · start)

theorem sliceFrom_length_le {s s' : List Char} {n : ℕ} (h : sliceFrom s n = some s') :
    s'.length ≤ s.length := by
  induction s, n using sliceFrom.induct with
  | case1 s =>
    rw [sliceFrom] at h
    cases h
    rfl
  | case2 n =>
    rw [sliceFrom] at h
    cases h
  | case3 c s n hsize ih =>
    rw [sliceFrom, if_pos hsize] at h
    exact (ih h).trans (Nat.le_succ _)
  | case4 c s n hsize =>
    rw [sliceFrom, if_neg hsize] at h
    cases h

theorem sliceFrom_succ_length_lt {s s' : List Char} {n : ℕ}
    (h : sliceFrom s (n + 1) = some s') : s'.length < s.length := by
  cases s with
  | nil =>
    rw [sliceFrom] at h
    cases h
  | cons c s =>
    rw [sliceFrom] at h
    split_ifs at h
    exact Nat.lt_succ_of_le (sliceFrom_length_le h)

theorem exists_utf8Size (c : Char) (n : ℕ) : ∃ m, c.utf8Size + n = m + 1 :=
  ⟨c.utf8Size - 1 + n, by have := c.utf8Size_pos; omega⟩

/-- A slice that begins with a whole character. -/
theorem sliceTo_cons (c : Char) (s : List Char) (n : ℕ) :
    sliceTo (c :: s) (c.utf8Size + n) = (sliceTo s n).map (c :: ·) := by
  obtain ⟨m, hm⟩ := exists_utf8Size c n
  rw [hm, sliceTo, ← hm, if_pos (Nat.le_add_right _ _), Nat.add_sub_cancel_left]

theorem sliceFrom_cons (c : Char) (s : List Char) (n : ℕ) :
    sliceFrom (c :: s) (c.utf8Size + n) = sliceFrom s n := by
  obtain ⟨m, hm⟩ := exists_utf8Size c n
  rw [hm, sliceFrom, ← hm, if_pos (Nat.le_add_right _ _), Nat.add_sub_cancel_left]

/-- **What stands before a character**, and where it begins. -/
theorem findByte_append {c : Char} {before : List Char} (h : c ∉ before) (after : List Char) :
    ∃ n, findByte c (before ++ c :: after) = some n
      ∧ sliceTo (before ++ c :: after) n = some before
      ∧ ∀ m, sliceFrom (before ++ c :: after) (n + m) = sliceFrom (c :: after) m := by
  induction before with
  | nil =>
    refine ⟨0, by simp [findByte], by rw [sliceTo], fun m => ?_⟩
    rw [Nat.zero_add, List.nil_append]
  | cons d before ih =>
    rw [List.mem_cons, not_or] at h
    obtain ⟨n, hfind, hto, hfrom⟩ := ih h.2
    refine ⟨d.utf8Size + n, ?_, ?_, fun m => ?_⟩
    · rw [List.cons_append, findByte, if_neg (Ne.symm h.1), hfind]
      rfl
    · rw [List.cons_append, sliceTo_cons, hto]
      rfl
    · rw [List.cons_append, Nat.add_assoc, sliceFrom_cons, hfrom]

theorem findByte_eq_none {c : Char} {s : List Char} : findByte c s = none ↔ c ∉ s := by
  induction s with
  | nil => simp [findByte]
  | cons d s ih =>
    rw [findByte]
    by_cases hd : d = c
    · simp [hd]
    · simp [hd, ih, Ne.symm hd]

/-! ## The segments of a key -/

/-- The segments in the rest of a key, after some others. It is `none` if a
slice panics. -/
def segmentsFrom (key : String) (segments : List String) (rest : List Char) :
    Option (List String) :=
  if rest.isEmpty then some segments
  else if rest.head? ≠ some '[' then some [key]
  else
    match findByte ']' rest with
    | none => some [key]
    | some stop =>
      (slice rest 1 stop).bind fun segment =>
        match _hrest : sliceFrom rest (stop + 1) with
        | some rest' => segmentsFrom key (segments ++ [String.ofList segment]) rest'
        | none => none
termination_by rest.length
decreasing_by exact sliceFrom_succ_length_lt _hrest

/-- **The segments of a flat key**, as they are cut out of it. -/
def keySegments (key : String) : Option (List String) :=
  match findByte '[' key.toList with
  | none => some [key]
  | some firstBracket =>
    (sliceTo key.toList firstBracket).bind fun root =>
      if root.isEmpty then some [key]
      else
        (sliceFrom key.toList firstBracket).bind fun rest =>
          segmentsFrom key [String.ofList root] rest

/-! ## No slice panics -/

/-- A text that is split at the first occurrence of a character. -/
theorem takeWhile_append_cons {c : Char} {before : List Char} (h : c ∉ before)
    (after : List Char) :
    (before ++ c :: after).takeWhile (· ≠ c) = before
      ∧ (before ++ c :: after).dropWhile (· ≠ c) = c :: after := by
  have hall : ∀ d ∈ before, (decide (d ≠ c)) = true := fun d hd =>
    decide_eq_true fun heq => h (heq ▸ hd)
  rw [List.takeWhile_append_of_pos hall, List.dropWhile_append_of_pos hall]
  simp

theorem bracketSegments_append {before : List Char} (h : ']' ∉ before) (after : List Char) :
    bracketSegments ('[' :: (before ++ ']' :: after))
      = (bracketSegments after).map (String.ofList before :: ·) := by
  obtain ⟨htake, hdrop⟩ := takeWhile_append_cons h after
  rw [bracketSegments, if_neg (by simp), if_neg (by simp)]
  simp only [htake, hdrop, List.drop_one, List.tail_cons]

/-- What may be the rest of a key. -/
theorem rest_cases (rest : List Char) :
    rest = [] ∨ (∃ c cs, rest = c :: cs ∧ c ≠ '[') ∨ (∃ cs, rest = '[' :: cs ∧ ']' ∉ cs)
      ∨ ∃ before after, rest = '[' :: (before ++ ']' :: after) ∧ ']' ∉ before := by
  cases rest with
  | nil => exact .inl rfl
  | cons c cs =>
    by_cases hc : c = '['
    · subst hc
      by_cases hmem : ']' ∈ cs
      · obtain ⟨before, after, rfl, hbefore⟩ := List.eq_append_cons_of_mem hmem
        exact .inr (.inr (.inr ⟨before, after, rfl, hbefore⟩))
      · exact .inr (.inr (.inl ⟨cs, rfl, hmem⟩))
    · exact .inr (.inl ⟨c, cs, rfl, hc⟩)

/-- **The loop over the rest of a key** cuts out the segments in brackets. -/
theorem segmentsFrom_eq (key : String) (segments : List String) (rest : List Char) :
    segmentsFrom key segments rest
      = some (match bracketSegments rest with
        | none => [key]
        | some more => segments ++ more) := by
  induction hn : rest.length using Nat.strong_induction_on generalizing segments rest with
  | _ n ih =>
    obtain rfl | ⟨c, cs, rfl, hc⟩ | ⟨cs, rfl, hcs⟩ | ⟨before, after, rfl, hbefore⟩ :=
      rest_cases rest
    · rw [segmentsFrom, bracketSegments]
      simp
    · rw [segmentsFrom, bracketSegments, if_neg (by simp), if_pos (by simpa using hc), if_pos hc]
    · have hfind : findByte ']' ('[' :: cs) = none := findByte_eq_none.mpr (by simpa using hcs)
      rw [segmentsFrom, bracketSegments, if_neg (by simp), if_neg (by simp), hfind,
        if_neg (by simp), if_pos hcs]
    · have hopen : ']' ∉ '[' :: before := by simpa using hbefore
      obtain ⟨stop, hfind, hto, hfrom⟩ := findByte_append hopen after
      have hsegment : slice ('[' :: before ++ ']' :: after) 1 stop = some before := by
        rw [slice, hto, Option.bind_some]
        exact (sliceFrom_cons '[' before 0).trans (by rw [sliceFrom])
      have hrest : sliceFrom ('[' :: before ++ ']' :: after) (stop + 1) = some after := by
        rw [hfrom 1]
        exact (sliceFrom_cons ']' after 0).trans (by rw [sliceFrom])
      have hlt : after.length < n := by
        rw [← hn]
        simp only [List.length_cons, List.length_append]
        omega
      rw [List.cons_append] at hfind hsegment hrest
      rw [bracketSegments_append hbefore, segmentsFrom, if_neg (by simp), if_neg (by simp)]
      simp only [hfind, hsegment, Option.bind_some]
      split
      next rest' heq =>
        cases hrest.symm.trans heq
        rw [ih _ hlt _ _ rfl]
        cases bracketSegments after with
        | none => rfl
        | some more => simp
      next heq => cases hrest.symm.trans heq

/-- **No slice panics**, and the segments are those of the key. -/
theorem keySegments_eq (key : String) : keySegments key = some (paramKeySegments key) := by
  rw [keySegments, paramKeySegments]
  by_cases hmem : '[' ∈ key.toList
  · obtain ⟨root, after, hkey, hroot⟩ := List.eq_append_cons_of_mem hmem
    obtain ⟨stop, hfind, hto, hfrom⟩ := findByte_append hroot after
    obtain ⟨htake, hdrop⟩ := takeWhile_append_cons hroot after
    rw [if_neg (not_not_intro hmem), hkey, hfind, htake, hdrop]
    simp only [hto, Option.bind_some]
    split_ifs with hempty
    · rfl
    · have hrest : sliceFrom (root ++ '[' :: after) stop = some ('[' :: after) := by
        have h := hfrom 0
        rwa [Nat.add_zero, sliceFrom] at h
      rw [hrest, Option.bind_some, segmentsFrom_eq]
      cases bracketSegments ('[' :: after) with
      | none => rfl
      | some more => rfl
  · rw [findByte_eq_none.mpr hmem, if_pos hmem]

/-! ## What the segments say about the key -/

theorem bracketed_cons (segment : String) (segments : List String) :
    bracketed (segment :: segments) = '[' :: (segment.toList ++ ']' :: bracketed segments) := by
  simp [bracketed]

/-- What is read as segments in brackets is those segments in brackets. -/
theorem bracketed_bracketSegments {rest : List Char} {segments : List String}
    (h : bracketSegments rest = some segments) :
    bracketed segments = rest ∧ ∀ segment ∈ segments, ']' ∉ segment.toList := by
  induction hn : rest.length using Nat.strong_induction_on generalizing segments rest with
  | _ n ih =>
    obtain rfl | ⟨c, cs, rfl, hc⟩ | ⟨cs, rfl, hcs⟩ | ⟨before, after, rfl, hbefore⟩ :=
      rest_cases rest
    · rw [bracketSegments] at h
      cases h
      exact ⟨rfl, by simp⟩
    · rw [bracketSegments, if_pos hc] at h
      cases h
    · rw [bracketSegments, if_neg (by simp), if_pos hcs] at h
      cases h
    · rw [bracketSegments_append hbefore] at h
      obtain ⟨more, hmore, rfl⟩ := Option.map_eq_some_iff.mp h
      have hlt : after.length < n := by
        rw [← hn]
        simp only [List.length_cons, List.length_append]
        omega
      obtain ⟨hchars, hfree⟩ := ih _ hlt hmore rfl
      refine ⟨?_, ?_⟩
      · rw [bracketed_cons, String.toList_ofList, hchars]
      · rintro segment (_ | ⟨_, hsegment⟩)
        · rwa [String.toList_ofList]
        · exact hfree segment hsegment

/-- A key that is a path in brackets. -/
structure IsPath (key root : String) (segments : List String) : Prop where
  key_eq : key = flatKey root segments
  segments_ne : segments ≠ []
  root_ne : root ≠ ""
  root_free : '[' ∉ root.toList
  segments_free : ∀ segment ∈ segments, ']' ∉ segment.toList

/-- The segments are the key itself, or the path that the key is. -/
theorem paramKeySegments_cases (key : String) :
    paramKeySegments key = [key]
      ∨ ∃ root segments, IsPath key root segments ∧ paramKeySegments key = root :: segments := by
  by_cases hmem : '[' ∈ key.toList
  · obtain ⟨root, after, hkey, hroot⟩ := List.eq_append_cons_of_mem hmem
    obtain ⟨htake, hdrop⟩ := takeWhile_append_cons hroot after
    rw [paramKeySegments, if_neg (not_not_intro hmem), hkey, htake, hdrop]
    by_cases hempty : root.isEmpty = true
    · exact .inl (if_pos hempty)
    · rw [if_neg hempty]
      cases hsegments : bracketSegments ('[' :: after) with
      | none => exact .inl rfl
      | some segments =>
        obtain ⟨hchars, hfree⟩ := bracketed_bracketSegments hsegments
        refine .inr ⟨_, _, ⟨?_, ?_, ?_, ?_, hfree⟩, rfl⟩
        · rw [← String.toList_inj, flatKey, String.toList_append, String.toList_ofList,
            String.toList_ofList, hchars, hkey]
        · rintro rfl
          cases hchars
        · intro hnil
          rw [← String.toList_inj, String.toList_ofList] at hnil
          exact hempty (List.isEmpty_iff.mpr hnil)
        · rwa [String.toList_ofList]
  · exact .inl (by rw [paramKeySegments, if_pos hmem])

theorem paramKeySegments_of_isPath {key root : String} {segments : List String}
    (h : IsPath key root segments) : paramKeySegments key = root :: segments := by
  rw [h.key_eq]
  exact paramKeySegments_flatKey h.root_ne h.root_free h.segments_free

/-- **A flat key is split exactly.** No slice panics, the segments written one
after the other are the key, and they are several if and only if the key is a
path in brackets, which they then are. -/
theorem keySegments_spec (key : String) :
    ∃ first further, keySegments key = some (first :: further)
      ∧ flatKey first further = key
      ∧ (1 < (first :: further).length ↔ ∃ root segments, IsPath key root segments)
      ∧ ∀ root segments, IsPath key root segments → first = root ∧ further = segments := by
  have hpath : ∀ {first further}, paramKeySegments key = first :: further →
      ∀ root segments, IsPath key root segments → first = root ∧ further = segments :=
    fun hkey root segments h =>
      List.cons.inj (hkey.symm.trans (paramKeySegments_of_isPath h))
  obtain hkey | ⟨root, segments, h, hkey⟩ := paramKeySegments_cases key
  · refine ⟨key, [], by rw [keySegments_eq, hkey], by simp [flatKey, bracketed], ?_, hpath hkey⟩
    refine iff_of_false (lt_irrefl 1) ?_
    rintro ⟨root, segments, h⟩
    exact h.segments_ne (hpath hkey root segments h).2.symm
  · refine ⟨root, segments, by rw [keySegments_eq, hkey], h.key_eq.symm, ?_, hpath hkey⟩
    have hlength : 0 < segments.length := List.length_pos_of_ne_nil h.segments_ne
    exact iff_of_true (Nat.succ_lt_succ hlength) ⟨root, segments, h⟩

end Seekwel.Model
