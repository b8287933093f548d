import Mathlib.Data.List.Induction
import Mathlib.Data.List.Nodup

/-!
# Options that are declared once

A reader goes through a list of items and collects options. Items may declare
several options each, in several ways; an option has a name, and declaring a
name again is an error.

What such a reader collects does not depend on how the options are spread over
the items: it succeeds exactly if every item declares its options and no name
is declared twice, and the result is what the options come to
(`foldlM_eq_ok_iff`).
-/

namespace OptionLists

variable {ι ο α ε ν : Type}

/-- **The options that a list of items declares**, in order. -/
inductive Declared (declares : ι → List ο → Prop) : List ι → List ο → Prop
  | nil : Declared declares [] []
  | cons {item : ι} {items : List ι} {os os' : List ο} (h : declares item os)
      (h' : Declared declares items os') : Declared declares (item :: items) (os ++ os')

variable {declares : ι → List ο → Prop}

theorem declared_nil_iff {os : List ο} : Declared declares [] os ↔ os = [] := by
  constructor
  · rintro ⟨⟩
    rfl
  · rintro rfl
    exact .nil

theorem declared_cons_iff {item : ι} {items : List ι} {os : List ο} :
    Declared declares (item :: items) os
      ↔ ∃ here there, declares item here ∧ Declared declares items there ∧ os = here ++ there := by
  constructor
  · rintro ⟨⟩
    exact ⟨_, _, ‹_›, ‹_›, rfl⟩
  · rintro ⟨here, there, h, h', rfl⟩
    exact .cons h h'

theorem declared_append_iff {items items' : List ι} {os : List ο} :
    Declared declares (items ++ items') os
      ↔ ∃ here there, Declared declares items here ∧ Declared declares items' there
        ∧ os = here ++ there := by
  induction items generalizing os with
  | nil => simp [declared_nil_iff]
  | cons item items ih =>
    rw [List.cons_append, declared_cons_iff]
    constructor
    · rintro ⟨here, there, h, h', rfl⟩
      obtain ⟨more, rest, hmore, hrest, rfl⟩ := ih.mp h'
      exact ⟨here ++ more, rest, .cons h hmore, hrest, (List.append_assoc ..).symm⟩
    · rintro ⟨here, there, h, h', rfl⟩
      obtain ⟨first, more, hfirst, hmore, rfl⟩ := declared_cons_iff.mp h
      exact ⟨first, more ++ there, hfirst, ih.mpr ⟨more, there, hmore, h', rfl⟩,
        List.append_assoc ..⟩

/-- Two lists whose items declare the same, one by one. -/
theorem declared_congr {ι' : Type} {declares' : ι' → List ο → Prop} {items : List ι}
    {items' : List ι'}
    (h : List.Forall₂ (fun item item' => ∀ os, declares item os ↔ declares' item' os) items items')
    (os : List ο) : Declared declares items os ↔ Declared declares' items' os := by
  induction h generalizing os with
  | nil => rw [declared_nil_iff, declared_nil_iff]
  | cons hitem hitems ih => simp only [declared_cons_iff, hitem, ih]

/-- One item that declares anything. -/
theorem Declared.exists_of_mem {items : List ι} {os : List ο} (h : Declared declares items os) :
    ∀ item ∈ items, ∃ here, declares item here := by
  induction h with
  | nil => exact fun item hitem => absurd hitem List.not_mem_nil
  | cons hitem hitems ih =>
    intro item hmem
    obtain rfl | hmem := List.mem_cons.mp hmem
    · exact ⟨_, hitem⟩
    · exact ih item hmem

/-! ## Reading the items -/

variable {step : α → ι → Except ε α} {set : α → ο → Except ε α}

/-- Two steps that both succeed. -/
theorem exists_ok_of_bind {β : Type} {x : Except ε α} {f : α → Except ε β} {b : β}
    (h : (x >>= f) = .ok b) : ∃ a, x = .ok a ∧ f a = .ok b := by
  cases x with
  | error e => cases h
  | ok a => exact ⟨a, rfl, h⟩

/-- **Reading items one after another** is setting their options one after
another. -/
theorem foldlM_eq_ok_iff_set
    (hstep : ∀ a item b, step a item = .ok b ↔ ∃ os, declares item os ∧ os.foldlM set a = .ok b)
    (items : List ι) : ∀ a b, items.foldlM step a = .ok b
      ↔ ∃ os, Declared declares items os ∧ os.foldlM set a = .ok b := by
  induction items with
  | nil => simp [declared_nil_iff]
  | cons item items ih =>
    intro a b
    rw [List.foldlM_cons]
    constructor
    · intro h
      obtain ⟨c, hc, hb⟩ := exists_ok_of_bind h
      obtain ⟨here, hhere, hset⟩ := (hstep a item c).mp hc
      obtain ⟨there, hthere, hsets⟩ := (ih c b).mp hb
      refine ⟨here ++ there, .cons hhere hthere, ?_⟩
      rw [List.foldlM_append, hset]
      exact hsets
    · rintro ⟨os, hos, hset⟩
      obtain ⟨here, there, hhere, hthere, rfl⟩ := declared_cons_iff.mp hos
      rw [List.foldlM_append] at hset
      obtain ⟨c, hc, hb⟩ := exists_ok_of_bind hset
      rw [(hstep a item c).mpr ⟨here, hhere, hc⟩]
      exact (ih c b).mpr ⟨there, hthere, hb⟩

/-! ## Setting the options -/

variable {collect : List ο → α} {name : ο → ν} {duplicate : List ο → ο → ε} [DecidableEq ν]

/-- **Setting options one after another** succeeds exactly if no name is set
twice. -/
theorem foldlM_set_eq_ok_iff
    (hset : ∀ os o, set (collect os) o = if name o ∈ os.map name then .error (duplicate os o)
      else .ok (collect (os ++ [o])))
    (os : List ο) {b : α} :
    os.foldlM set (collect []) = .ok b ↔ (os.map name).Nodup ∧ b = collect os := by
  induction os using List.reverseRecOn generalizing b with
  | nil =>
    show Except.ok (collect []) = .ok b ↔ _
    simp [eq_comm]
  | append_singleton os o ih =>
    rw [List.foldlM_append, List.map_append, List.nodup_append]
    constructor
    · intro h
      obtain ⟨c, hc, hb⟩ := exists_ok_of_bind h
      obtain ⟨hnodup, rfl⟩ := ih.mp hc
      rw [List.foldlM_cons, hset] at hb
      split_ifs at hb with hmem
      · cases hb
      · cases hb
        exact ⟨⟨hnodup, List.nodup_singleton _, by simpa using hmem⟩, rfl⟩
    · rintro ⟨⟨hnodup, -, hdisjoint⟩, rfl⟩
      have hmem : name o ∉ os.map name := by simpa using hdisjoint
      rw [ih.mpr ⟨hnodup, rfl⟩]
      show [o].foldlM set (collect os) = _
      rw [List.foldlM_cons, hset, if_neg hmem]
      rfl

/-- **What is collected** of a list of items. -/
theorem foldlM_eq_ok_iff
    (hstep : ∀ a item b, step a item = .ok b ↔ ∃ os, declares item os ∧ os.foldlM set a = .ok b)
    (hset : ∀ os o, set (collect os) o = if name o ∈ os.map name then .error (duplicate os o)
      else .ok (collect (os ++ [o])))
    (items : List ι) {b : α} :
    items.foldlM step (collect []) = .ok b
      ↔ ∃ os, Declared declares items os ∧ (os.map name).Nodup ∧ b = collect os := by
  rw [foldlM_eq_ok_iff_set hstep]
  simp only [foldlM_set_eq_ok_iff hset]

end OptionLists
