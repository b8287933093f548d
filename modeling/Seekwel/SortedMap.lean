import Mathlib.Data.List.Sort
import Mathlib.Data.List.Nodup

/-!
# Sorted maps

A finite map kept as the list of its entries in strictly increasing key
order, which is what an iteration over an ordered map visits. The order is
a field of the structure, so a map with a repeated or misplaced key cannot
be built, and everything about a map can be read off either its lookup
function `get?` or its entry list: `mem_entries_iff` says the two agree.

`byKey` collects a list of values under a key read off each value, later
values replacing earlier ones, as a loop of insertions does. On a list
without repeated keys it forgets nothing (`get?_byKey`).
-/

variable {κ α β : Type} [LinearOrder κ]

/-- **A sorted map**: entries in strictly increasing key order. -/
structure SortedMap (κ α : Type) [LinearOrder κ] where
  /-- The entries, in key order. -/
  entries : List (κ × α)
  /-- The keys increase strictly. -/
  sorted : (entries.map Prod.fst).Pairwise (· < ·)

namespace SortedMap

/-- The map without entries. -/
def empty : SortedMap κ α := ⟨[], List.Pairwise.nil⟩

instance : Inhabited (SortedMap κ α) := ⟨empty⟩

@[ext] theorem ext {m m' : SortedMap κ α} (h : m.entries = m'.entries) :
    m = m' := by
  cases m
  cases m'
  simpa using h

instance [DecidableEq α] : DecidableEq (SortedMap κ α) :=
  fun m m' => decidable_of_iff (m.entries = m'.entries) ⟨ext, fun h => h ▸ rfl⟩

/-- The keys, in order. -/
def keys (m : SortedMap κ α) : List κ := m.entries.map Prod.fst

/-- The values, in key order. -/
def values (m : SortedMap κ α) : List α := m.entries.map Prod.snd

/-- The value stored under a key. -/
def get? (m : SortedMap κ α) (k : κ) : Option α :=
  (m.entries.find? (fun e => e.1 = k)).map Prod.snd

/-- Insertion into an entry list, replacing the entry of an equal key. -/
def insertEntry (k : κ) (v : α) : List (κ × α) → List (κ × α)
  | [] => [(k, v)]
  | e :: rest =>
    if k < e.1 then (k, v) :: e :: rest
    else if k = e.1 then (k, v) :: rest
    else e :: insertEntry k v rest

theorem mem_keys_insertEntry {k x : κ} {v : α} {l : List (κ × α)}
    (h : x ∈ (insertEntry k v l).map Prod.fst) :
    x = k ∨ x ∈ l.map Prod.fst := by
  induction l with
  | nil => simpa [insertEntry] using h
  | cons e rest ih =>
    rw [insertEntry] at h
    split_ifs at h with h₁ h₂
    · simpa using h
    · rw [List.map_cons, List.mem_cons] at h ⊢
      exact h.imp id Or.inr
    · rw [List.map_cons, List.mem_cons] at h ⊢
      rcases h with h | h
      · exact Or.inr (Or.inl h)
      · exact (ih h).imp id Or.inr

theorem sorted_insertEntry {k : κ} {v : α} {l : List (κ × α)}
    (h : (l.map Prod.fst).Pairwise (· < ·)) :
    ((insertEntry k v l).map Prod.fst).Pairwise (· < ·) := by
  induction l with
  | nil => simp [insertEntry]
  | cons e rest ih =>
    rw [List.map_cons, List.pairwise_cons] at h
    rw [insertEntry]
    split_ifs with h₁ h₂
    · refine List.pairwise_cons.mpr ⟨fun x hx => ?_, List.pairwise_cons.mpr h⟩
      rcases List.mem_cons.mp hx with rfl | hx
      · exact h₁
      · exact h₁.trans (h.1 x hx)
    · exact List.pairwise_cons.mpr ⟨fun x hx => h₂ ▸ h.1 x hx, h.2⟩
    · refine List.pairwise_cons.mpr ⟨fun x hx => ?_, ih h.2⟩
      rcases mem_keys_insertEntry hx with rfl | hx
      · exact lt_of_le_of_ne (not_lt.mp h₁) (Ne.symm h₂)
      · exact h.1 x hx

/-- The later of two insertions under one key counts. -/
theorem insertEntry_insertEntry (k : κ) (v w : α) (l : List (κ × α)) :
    insertEntry k v (insertEntry k w l) = insertEntry k v l := by
  induction l with
  | nil => simp [insertEntry]
  | cons e rest ih =>
    by_cases hlt : k < e.1
    · simp [insertEntry, hlt]
    · by_cases heq : k = e.1
      · simp [insertEntry, heq]
      · simp [insertEntry, hlt, heq, ih]

/-- Insertions under two keys can be swapped. -/
theorem insertEntry_comm_of_lt {k k' : κ} (h : k < k') (v w : α) (l : List (κ × α)) :
    insertEntry k v (insertEntry k' w l) = insertEntry k' w (insertEntry k v l) := by
  have hgt : ¬ k' < k := not_lt.mpr h.le
  induction l with
  | nil => simp [insertEntry, h, hgt, h.ne']
  | cons e rest ih =>
    -- where the smaller key goes decides what the larger one finds
    rcases lt_trichotomy k e.1 with hlt | heq | hgt'
    · by_cases hlt' : k' < e.1
      · simp [insertEntry, hlt, hlt', h, hgt, h.ne']
      · by_cases heq' : k' = e.1
        · subst heq'
          simp [insertEntry, h, hgt, h.ne']
        · simp [insertEntry, hlt, hlt', heq', hgt, h.ne']
    · subst heq
      simp [insertEntry, hgt, h.ne']
    · have hk : ¬ k < e.1 := not_lt.mpr hgt'.le
      have hk' : ¬ k' < e.1 := not_lt.mpr (hgt'.trans h).le
      simp [insertEntry, hk, hk', hgt'.ne', (hgt'.trans h).ne', ih]

theorem insertEntry_comm {k k' : κ} (h : k ≠ k') (v w : α) (l : List (κ × α)) :
    insertEntry k v (insertEntry k' w l) = insertEntry k' w (insertEntry k v l) := by
  rcases lt_or_gt_of_ne h with hlt | hgt
  · exact insertEntry_comm_of_lt hlt v w l
  · exact (insertEntry_comm_of_lt hgt w v l).symm

/-- Storing a value under a key, replacing the one already there. -/
def insert (m : SortedMap κ α) (k : κ) (v : α) : SortedMap κ α :=
  ⟨insertEntry k v m.entries, sorted_insertEntry m.sorted⟩

/-- Removing a key. -/
def erase (m : SortedMap κ α) (k : κ) : SortedMap κ α :=
  ⟨m.entries.filter (fun e => e.1 ≠ k),
    List.Pairwise.sublist (List.filter_sublist.map Prod.fst) m.sorted⟩

/-- Changing every value, keeping the keys. -/
def mapVal (f : α → β) (m : SortedMap κ α) : SortedMap κ β :=
  ⟨m.entries.map (fun e => (e.1, f e.2)), by
    rw [List.map_map]
    exact m.sorted⟩

/-- Inserting the elements of a list one after the other, each under its
own key. -/
def byKey (key : α → κ) (l : List α) : SortedMap κ α :=
  l.foldl (fun m a => m.insert (key a) a) empty

/-! ## Lookup and entries -/

theorem nodup_keys (m : SortedMap κ α) : m.keys.Nodup :=
  m.sorted.imp ne_of_lt

theorem get?_eq_some_iff {m : SortedMap κ α} {k : κ} {v : α} :
    m.get? k = some v ↔ (k, v) ∈ m.entries := by
  unfold get?
  rw [Option.map_eq_some_iff]
  constructor
  · rintro ⟨⟨k', v'⟩, hf, rfl⟩
    obtain rfl : k' = k := by simpa using List.find?_some hf
    exact List.mem_of_find?_eq_some hf
  · intro hm
    have hex : (m.entries.find? (fun e => e.1 = k)).isSome := by
      rw [List.find?_isSome]
      exact ⟨(k, v), hm, by simp⟩
    obtain ⟨⟨k', v'⟩, hf⟩ := Option.isSome_iff_exists.mp hex
    obtain rfl : k' = k := by simpa using List.find?_some hf
    have hinj := List.inj_on_of_nodup_map m.nodup_keys
      (List.mem_of_find?_eq_some hf) hm rfl
    exact ⟨(k', v'), hf, congrArg Prod.snd hinj⟩

theorem mem_entries_iff {m : SortedMap κ α} {e : κ × α} :
    e ∈ m.entries ↔ m.get? e.1 = some e.2 :=
  get?_eq_some_iff.symm

theorem mem_keys_iff {m : SortedMap κ α} {k : κ} :
    k ∈ m.keys ↔ ∃ v, m.get? k = some v := by
  simp only [keys, List.mem_map, get?_eq_some_iff]
  constructor
  · rintro ⟨⟨k', v⟩, hm, rfl⟩
    exact ⟨v, hm⟩
  · rintro ⟨v, hm⟩
    exact ⟨(k, v), hm, rfl⟩

theorem get?_eq_none_iff {m : SortedMap κ α} {k : κ} :
    m.get? k = none ↔ k ∉ m.keys := by
  rw [mem_keys_iff, Option.eq_none_iff_forall_ne_some, not_exists]

theorem mem_values_iff {m : SortedMap κ α} {v : α} :
    v ∈ m.values ↔ ∃ k, m.get? k = some v := by
  simp only [values, List.mem_map, get?_eq_some_iff]
  constructor
  · rintro ⟨⟨k, v'⟩, hm, rfl⟩
    exact ⟨k, hm⟩
  · rintro ⟨k, hm⟩
    exact ⟨(k, v), hm, rfl⟩

/-- **A sorted map is its lookup function.** -/
theorem ext_get? {m m' : SortedMap κ α} (h : ∀ k, m.get? k = m'.get? k) :
    m = m' := by
  have hasymm : ∀ a b : κ × α, a ∈ m.entries → b ∈ m'.entries →
      a.1 < b.1 → b.1 < a.1 → a = b :=
    fun a b _ _ hab hba => absurd hab (not_lt.mpr hba.le)
  refine ext (List.Perm.eq_of_pairwise hasymm (List.pairwise_map.mp m.sorted)
    (List.pairwise_map.mp m'.sorted) ?_)
  refine (List.perm_ext_iff_of_nodup (List.Nodup.of_map _ m.nodup_keys)
    (List.Nodup.of_map _ m'.nodup_keys)).mpr (fun e => ?_)
  rw [mem_entries_iff, mem_entries_iff, h]

@[simp] theorem get?_empty (k : κ) : (empty : SortedMap κ α).get? k = none := rfl

theorem find?_insertEntry (k k' : κ) (v : α) (l : List (κ × α)) :
    ((insertEntry k v l).find? (fun e => e.1 = k')).map Prod.snd
      = if k' = k then some v
        else (l.find? (fun e => e.1 = k')).map Prod.snd := by
  induction l with
  | nil =>
    by_cases h : k = k'
    · simp [insertEntry, h]
    · simp [insertEntry, h, Ne.symm h]
  | cons e rest ih =>
    rw [insertEntry]
    split_ifs with h₁ h₂ h₃ h₄ h₅
    · simp [h₂]
    · simp [Ne.symm h₂]
    · simp [h₄]
    · have : ¬ e.1 = k' := fun h => h₄ (h ▸ h₃.symm)
      simp [Ne.symm h₄, this]
    · have : ¬ e.1 = k' := fun h => h₃ (h₅ ▸ h.symm)
      rw [List.find?_cons_of_neg (by simpa using this), ih, if_pos h₅]
    · by_cases h : e.1 = k'
      · simp [h]
      · rw [List.find?_cons_of_neg (by simpa using h), ih, if_neg h₅,
          List.find?_cons_of_neg (by simpa using h)]

theorem get?_insert (m : SortedMap κ α) (k k' : κ) (v : α) :
    (m.insert k v).get? k' = if k' = k then some v else m.get? k' :=
  find?_insertEntry k k' v m.entries

@[simp] theorem get?_insert_self (m : SortedMap κ α) (k : κ) (v : α) :
    (m.insert k v).get? k = some v := by
  rw [get?_insert, if_pos rfl]

theorem get?_insert_of_ne (m : SortedMap κ α) {k k' : κ} (v : α) (h : k' ≠ k) :
    (m.insert k v).get? k' = m.get? k' := by
  rw [get?_insert, if_neg h]

theorem get?_erase (m : SortedMap κ α) (k k' : κ) :
    (m.erase k).get? k' = if k' = k then none else m.get? k' := by
  refine Option.ext (fun v => ?_)
  rw [get?_eq_some_iff]
  split_ifs with h
  · simp [erase, h]
  · rw [get?_eq_some_iff]
    simp [erase, h]

@[simp] theorem get?_erase_self (m : SortedMap κ α) (k : κ) :
    (m.erase k).get? k = none := by
  rw [get?_erase, if_pos rfl]

theorem get?_erase_of_ne (m : SortedMap κ α) {k k' : κ} (h : k' ≠ k) :
    (m.erase k).get? k' = m.get? k' := by
  rw [get?_erase, if_neg h]

@[simp] theorem get?_mapVal (f : α → β) (m : SortedMap κ α) (k : κ) :
    (m.mapVal f).get? k = (m.get? k).map f := by
  refine Option.ext (fun v => ?_)
  rw [get?_eq_some_iff, Option.map_eq_some_iff]
  simp only [mapVal, List.mem_map, Prod.mk.injEq, get?_eq_some_iff]
  constructor
  · rintro ⟨⟨k', v'⟩, hm, rfl, rfl⟩
    exact ⟨v', hm, rfl⟩
  · rintro ⟨v', hm, rfl⟩
    exact ⟨(k, v'), hm, rfl, rfl⟩

/-! ## Collecting a list -/

theorem get?_foldl_insert (key : α → κ) (l : List α) (m : SortedMap κ α) (k : κ)
    (hnodup : (l.map key).Nodup) :
    (l.foldl (fun m a => m.insert (key a) a) m).get? k
      = ((l.find? (fun a => key a = k)).or (m.get? k)) := by
  induction l generalizing m with
  | nil => simp
  | cons a rest ih =>
    rw [List.map_cons, List.nodup_cons] at hnodup
    rw [List.foldl_cons, ih _ hnodup.2, get?_insert]
    by_cases h : key a = k
    · have hnone : rest.find? (fun b => key b = k) = none := by
        rw [List.find?_eq_none]
        intro b hb hbk
        exact hnodup.1 (List.mem_map.mpr ⟨b, hb, (by simpa using hbk : key b = k).trans h.symm⟩)
      rw [hnone, if_pos h.symm, List.find?_cons_of_pos (by simpa using h)]
      rfl
    · rw [if_neg (Ne.symm h), List.find?_cons_of_neg (by simpa using h)]

/-- **Collecting a list without repeated keys forgets nothing.** -/
theorem get?_byKey {key : α → κ} {l : List α} (hnodup : (l.map key).Nodup)
    {k : κ} {a : α} : (byKey key l).get? k = some a ↔ a ∈ l ∧ key a = k := by
  rw [byKey, get?_foldl_insert key l empty k hnodup, get?_empty, Option.or_none]
  constructor
  · intro h
    exact ⟨List.mem_of_find?_eq_some h, by simpa using List.find?_some h⟩
  · rintro ⟨hm, rfl⟩
    have hex : (l.find? (fun b => key b = key a)).isSome := by
      rw [List.find?_isSome]
      exact ⟨a, hm, by simp⟩
    obtain ⟨b, hb⟩ := Option.isSome_iff_exists.mp hex
    rw [hb, List.inj_on_of_nodup_map hnodup (List.mem_of_find?_eq_some hb) hm
      (by simpa using List.find?_some hb)]

theorem get?_byKey_eq_none {key : α → κ} {l : List α}
    (hnodup : (l.map key).Nodup) {k : κ} :
    (byKey key l).get? k = none ↔ ∀ a ∈ l, key a ≠ k := by
  rw [Option.eq_none_iff_forall_ne_some]
  simp only [ne_eq, get?_byKey hnodup, not_and]

theorem mem_entries_byKey {key : α → κ} {l : List α}
    (hnodup : (l.map key).Nodup) {e : κ × α} :
    e ∈ (byKey key l).entries ↔ e.2 ∈ l ∧ key e.2 = e.1 := by
  rw [mem_entries_iff, get?_byKey hnodup]

/-- The entries of a collected list are its elements under their keys. -/
theorem entries_byKey_perm {key : α → κ} {l : List α}
    (hnodup : (l.map key).Nodup) :
    (byKey key l).entries.Perm (l.map (fun a => (key a, a))) := by
  refine (List.perm_ext_iff_of_nodup
    (List.Nodup.of_map _ (byKey key l).nodup_keys) ?_).mpr (fun e => ?_)
  · refine List.Nodup.of_map Prod.fst ?_
    rwa [List.map_map]
  · rw [mem_entries_byKey hnodup, List.mem_map]
    constructor
    · rintro ⟨hm, hk⟩
      exact ⟨e.2, hm, Prod.ext hk rfl⟩
    · rintro ⟨a, hm, rfl⟩
      exact ⟨hm, rfl⟩

/-! ## Picking out what one key contributed -/

/-- When every key contributes elements of its own kind, the elements of
one kind are what that key contributed. -/
theorem filter_flatMap_of_nodup {l : List (κ × α)} (hnodup : (l.map Prod.fst).Nodup)
    (f : κ × α → List β) (p : β → Bool) (k : κ)
    (h : ∀ e ∈ l, ∀ b ∈ f e, p b = true ↔ e.1 = k) :
    (l.flatMap f).filter p = ((l.find? (fun e => e.1 = k)).map f).getD [] := by
  induction l with
  | nil => rfl
  | cons e rest ih =>
    rw [List.map_cons, List.nodup_cons] at hnodup
    have ih := ih hnodup.2 (fun x hx => h x (List.mem_cons_of_mem _ hx))
    have he := h e List.mem_cons_self
    rw [List.flatMap_cons, List.filter_append, ih]
    by_cases hk : e.1 = k
    · have hrest : rest.find? (fun e => e.1 = k) = none := by
        rw [List.find?_eq_none]
        intro x hx hxk
        exact hnodup.1 (List.mem_map.mpr ⟨x, hx, (by simpa using hxk : x.1 = k).trans hk.symm⟩)
      have hself : (f e).filter p = f e :=
        List.filter_eq_self.mpr (fun b hb => (he b hb).mpr hk)
      rw [hrest, hself, List.find?_cons_of_pos (by simpa using hk)]
      exact List.append_nil _
    · have hnil : (f e).filter p = [] :=
        List.filter_eq_nil_iff.mpr (fun b hb hpb => hk ((he b hb).mp hpb))
      rw [hnil, List.nil_append, List.find?_cons_of_neg (by simpa using hk)]

/-- The elements that one key of a map contributed. -/
theorem filter_flatMap_entries (m : SortedMap κ α) (f : κ × α → List β) (p : β → Bool)
    (k : κ) (h : ∀ e ∈ m.entries, ∀ b ∈ f e, p b = true ↔ e.1 = k) :
    (m.entries.flatMap f).filter p = ((m.get? k).map (fun v => f (k, v))).getD [] := by
  rw [filter_flatMap_of_nodup m.nodup_keys f p k h, get?]
  cases hf : m.entries.find? (fun e => e.1 = k) with
  | none => rfl
  | some e =>
    obtain rfl : e.1 = k := by simpa using List.find?_some hf
    rfl

end SortedMap
