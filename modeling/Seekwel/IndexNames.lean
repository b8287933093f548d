import Seekwel.ModelSpec

/-!
# The names of indexes

The name of an index is put together from the name of the table and that of
the column, with an underscore between them, which may occur in both. So two
columns of different tables may have the same index name, for example `id` of
`user_posts` and `posts_id` of `user`. The index that is created second is
then taken for the first one, and is not created.

`indexName_ne_iff` says exactly which ones have.
-/

namespace Seekwel.Model

/-! ## Names with a separator -/

/-- **Two pairs that are joined to the same**: the separator may be found in
one part or the other. -/
theorem append_cons_eq_iff {α : Type} {s : α} {a b a' b' : List α} :
    a ++ s :: b = a' ++ s :: b'
      ↔ a = a' ∧ b = b' ∨ (∃ x, a' = a ++ s :: x ∧ b = x ++ s :: b')
        ∨ ∃ x, a = a' ++ s :: x ∧ b' = x ++ s :: b := by
  rw [List.append_eq_append_iff]
  constructor
  · rintro (⟨x, rfl, h⟩ | ⟨x, rfl, h⟩)
    · cases x with
      | nil => exact .inl ⟨(List.append_nil a).symm, (List.cons.inj h).2⟩
      | cons y x =>
        obtain ⟨rfl, rfl⟩ := List.cons.inj h
        exact .inr (.inl ⟨x, rfl, rfl⟩)
    · cases x with
      | nil => exact .inl ⟨List.append_nil a', ((List.cons.inj h).2).symm⟩
      | cons y x =>
        obtain ⟨rfl, rfl⟩ := List.cons.inj h
        exact .inr (.inr ⟨x, rfl, rfl⟩)
  · rintro (⟨rfl, rfl⟩ | ⟨x, rfl, rfl⟩ | ⟨x, rfl, rfl⟩)
    · exact .inl ⟨[], (List.append_nil a).symm, rfl⟩
    · exact .inl ⟨s :: x, rfl, rfl⟩
    · exact .inr ⟨s :: x, rfl, rfl⟩

/-! ## Snake case -/

/-- A name of lower-case letters, digits and underscores. -/
def IsSnakeName (name : String) : Prop :=
  name ≠ "" ∧ ∀ c ∈ name.toList, c.isLower = true ∨ c.isDigit = true ∨ c = '_'

/-- What is left of a name without the underscores at its end. -/
def stem (name : String) : List Char :=
  let stem := name.toList.rdropWhile (· = '_')
  if stem.isEmpty then "value".toList else stem

theorem toLower_of_snake {c : Char} (h : c.isLower = true ∨ c.isDigit = true ∨ c = '_') :
    c.toLower = c := by
  have hall : ∀ n < 128, (Char.ofNat n).isLower = true ∨ (Char.ofNat n).isDigit = true →
      (Char.ofNat n).toLower = Char.ofNat n := by decide
  have hcase : ∀ c : Char, c.isLower = true ∨ c.isDigit = true → c.toLower = c := by
    intro c hc
    have halphanum : c.isAlphanum = true := by
      obtain hc | hc := hc
      all_goals simp [Char.isAlphanum, Sql.isAlpha_eq, hc]
    have heq := hall c.toNat (lt_of_isAlphanum halphanum)
    rw [Char.ofNat_toNat] at heq
    exact heq hc
  obtain hc | hc | rfl := h
  · exact hcase c (.inl hc)
  · exact hcase c (.inr hc)
  · decide

/-- **A name in snake case** keeps its characters. -/
theorem toList_sanitizeIndexNamePart {name : String} (h : IsSnakeName name) :
    (sanitizeIndexNamePart name).toList = stem name := by
  have hfold : ∀ (cs output : List Char),
      (∀ c ∈ cs, c.isLower = true ∨ c.isDigit = true ∨ c = '_') →
      cs.foldl (fun output ch =>
        if ch.isAlphanum || ch = '_' then output ++ [ch.toLower]
        else if output.getLast? = some '_' then output
        else output ++ ['_']) output = output ++ cs := by
    intro cs
    induction cs with
    | nil => simp
    | cons c cs ih =>
      intro output hcs
      have hc := hcs c List.mem_cons_self
      have hkept : (c.isAlphanum || c = '_') = true := by
        obtain hc | hc | rfl := hc
        · simp [Char.isAlphanum, Sql.isAlpha_eq, hc]
        · simp [Char.isAlphanum, hc]
        · decide
      rw [List.foldl_cons, if_pos hkept, toLower_of_snake hc,
        ih _ fun d hd => hcs d (List.mem_cons_of_mem c hd), List.append_assoc, List.singleton_append]
  unfold sanitizeIndexNamePart stem
  rw [hfold name.toList [] h.2, List.nil_append]
  dsimp only
  split_ifs
  · rfl
  · rw [String.toList_ofList]

/-- **Two columns have one index name**: their names without the underscores
at their ends are the same, or the name of one table goes on with an
underscore and what the column of the other one begins with. -/
def SharesIndexName (table column table' column' : String) : Prop :=
  stem table = stem table' ∧ stem column = stem column'
    ∨ (∃ x, stem table' = stem table ++ '_' :: x ∧ stem column = x ++ '_' :: stem column')
    ∨ ∃ x, stem table = stem table' ++ '_' :: x ∧ stem column' = x ++ '_' :: stem column

/-- **When the names of indexes differ.** -/
theorem indexName_ne_iff {table column table' column' : String} (ht : IsSnakeName table)
    (hc : IsSnakeName column) (ht' : IsSnakeName table') (hc' : IsSnakeName column') :
    indexName table column ≠ indexName table' column'
      ↔ ¬ SharesIndexName table column table' column' := by
  have htext : ∀ {t c : String}, IsSnakeName t → IsSnakeName c →
      (indexName t c).toList = "seekwel_idx_".toList ++ (stem t ++ '_' :: stem c) := by
    intro t c ht hc
    simp only [indexName, String.toList_append, List.append_assoc,
      toList_sanitizeIndexNamePart ht, toList_sanitizeIndexNamePart hc]
    rfl
  refine not_congr ?_
  rw [← String.toList_inj, htext ht hc, htext ht' hc', List.append_cancel_left_eq,
    append_cons_eq_iff, SharesIndexName]

/-- **A column of `user` and one of `user_posts`** have one index name. -/
theorem user_posts_share_name :
    ("user_posts", "id") ≠ ("user", "posts_id")
      ∧ indexName "user_posts" "id" = indexName "user" "posts_id" := by
  decide +kernel

/-- Columns with index names of their own. -/
theorem users_pets_differ : indexName "users" "name" ≠ indexName "pets" "name" := by
  have husersName : IsSnakeName "users" := ⟨by decide, by simp⟩
  have hnameName : IsSnakeName "name" := ⟨by decide, by simp⟩
  have hpetsName : IsSnakeName "pets" := ⟨by decide, by simp⟩
  refine (indexName_ne_iff husersName hnameName hpetsName hnameName).mpr ?_
  have husers : stem "users" = 'u' :: "sers".toList := by decide
  have hpets : stem "pets" = 'p' :: "ets".toList := by decide
  rw [SharesIndexName, husers, hpets]
  rintro (⟨h, -⟩ | ⟨x, h, -⟩ | ⟨x, h, -⟩)
  all_goals exact absurd (List.cons.inj h).1 (by decide)

end Seekwel.Model
