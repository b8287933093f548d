import Mathlib.Data.List.Sort
import Mathlib.Data.List.Nodup

/-!
# Stable sorting by a key

`sortBy key l` is the stable sort of `l` by the key of its elements. What a
client uses is that it is a permutation of the list (`sortBy_perm`) in key
order (`pairwise_sortBy`), and that it leaves a list alone which is already
in order (`sortBy_eq_self`).

`adjacentDuplicate` looks for two equal neighbours. On a sorted list it
finds every repetition (`adjacentDuplicate_eq_none_iff`), which is how a
sort followed by a look at neighbours decides distinctness.
-/

variable {α κ : Type} [LinearOrder κ]

/-- The stable sort of a list by a key. -/
def sortBy (key : α → κ) (l : List α) : List α :=
  l.insertionSort (fun a b => key a ≤ key b)

theorem sortBy_perm (key : α → κ) (l : List α) : (sortBy key l).Perm l :=
  List.perm_insertionSort _ l

@[simp] theorem mem_sortBy {key : α → κ} {l : List α} {a : α} :
    a ∈ sortBy key l ↔ a ∈ l :=
  (sortBy_perm key l).mem_iff

instance total_sortBy (key : α → κ) : Std.Total (fun a b => key a ≤ key b) :=
  ⟨fun a b => le_total (key a) (key b)⟩

instance isTrans_sortBy (key : α → κ) : IsTrans α (fun a b => key a ≤ key b) :=
  ⟨fun _ _ _ => le_trans⟩

theorem pairwise_sortBy (key : α → κ) (l : List α) :
    (sortBy key l).Pairwise (fun a b => key a ≤ key b) :=
  List.pairwise_insertionSort _ l

theorem sortBy_eq_self {key : α → κ} {l : List α}
    (h : l.Pairwise (fun a b => key a ≤ key b)) : sortBy key l = l :=
  h.insertionSort_eq

/-- The first key that its right neighbour repeats. -/
def adjacentDuplicate : List κ → Option κ
  | a :: b :: rest => if a = b then some a else adjacentDuplicate (b :: rest)
  | _ => none

/-- **On a sorted list, no two neighbours are equal exactly when no two
elements are.** -/
theorem adjacentDuplicate_eq_none_iff {l : List κ} (h : l.Pairwise (· ≤ ·)) :
    adjacentDuplicate l = none ↔ l.Nodup := by
  induction l with
  | nil => simp [adjacentDuplicate]
  | cons a l ih =>
    rw [List.pairwise_cons] at h
    cases l with
    | nil => simp [adjacentDuplicate]
    | cons b rest =>
      rw [adjacentDuplicate]
      split_ifs with hab
      · refine iff_of_false (by simp) (fun hnd => ?_)
        exact (List.nodup_cons.mp hnd).1 (hab ▸ List.mem_cons_self)
      · rw [ih h.2, List.nodup_cons (a := a)]
        refine ⟨fun hnd => ⟨fun ha => ?_, hnd⟩, fun hnd => hnd.2⟩
        rcases List.mem_cons.mp ha with rfl | ha
        · exact hab rfl
        · have hba : b ≤ a := (List.pairwise_cons.mp h.2).1 a ha
          exact hab (le_antisymm (h.1 b List.mem_cons_self) hba)

/-! ## Lists in another order -/

section Order

variable {β : Type} {key : α → κ} {key' : β → κ}

/-- **The keys of a sorted list** do not depend on its order. -/
theorem map_sortBy_eq_of_perm {l l' : List α} (h : (l.map key).Perm (l'.map key)) :
    (sortBy key l).map key = (sortBy key l').map key := by
  have hsorted : ∀ m : List α, ((sortBy key m).map key).Pairwise (· ≤ ·) := fun m =>
    List.pairwise_map.mpr (pairwise_sortBy key m)
  have hperm : ((sortBy key l).map key).Perm ((sortBy key l').map key) :=
    ((sortBy_perm key l).map key).trans (h.trans ((sortBy_perm key l').map key).symm)
  exact List.Perm.eq_of_pairwise' (hsorted l) (hsorted l') hperm

/-- **A list with distinct keys** is sorted in one way only. -/
theorem sortBy_eq_of_perm {l l' : List α} (h : l.Perm l') (hnodup : (l.map key).Nodup) :
    sortBy key l = sortBy key l' := by
  have hperm : (sortBy key l).Perm (sortBy key l') :=
    (sortBy_perm key l).trans (h.trans (sortBy_perm key l').symm)
  refine List.Perm.eq_of_pairwise (fun a b ha hb hab hba => ?_) (pairwise_sortBy key l)
    (pairwise_sortBy key l') hperm
  exact List.inj_on_of_nodup_map hnodup (mem_sortBy.mp ha) (h.mem_iff.mpr (mem_sortBy.mp hb))
    (le_antisymm hab hba)

/-- Sorting keeps elements side by side that have the same key. -/
theorem forall₂_sortBy {R : α → β → Prop} (hkey : ∀ a b, R a b → key a = key' b)
    {l : List α} {l' : List β} (h : List.Forall₂ R l l') :
    List.Forall₂ R (sortBy key l) (sortBy key' l') := by
  have hinsert : ∀ {a b m m'}, R a b → List.Forall₂ R m m' →
      List.Forall₂ R (m.orderedInsert (fun a b => key a ≤ key b) a)
        (m'.orderedInsert (fun a b => key' a ≤ key' b) b) := by
    intro a b m m' hab hm
    induction hm with
    | nil => exact .cons hab .nil
    | cons hhead htail ih =>
      rw [List.orderedInsert_cons, List.orderedInsert_cons, hkey _ _ hab, hkey _ _ hhead]
      split_ifs
      · exact .cons hab (.cons hhead htail)
      · exact .cons hhead ih
  induction h with
  | nil => exact .nil
  | cons hhead _ ih => exact hinsert hhead ih

end Order
