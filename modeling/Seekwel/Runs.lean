import Mathlib.Data.List.Induction

/-!
# Runs of a machine

A machine whose steps may not be possible, its runs, and the induction on
them: what holds at the start and is kept by every step of a run holds of
the state that the run leads to.

Where steps with different keys commute, a run only depends on the order of
the steps with each key (`foldl_eq_of_reorders`).
-/

namespace Machine

variable {σ α : Type} {step : σ → α → Option σ}

/-- **One step after the other**, if all are possible. -/
def run (step : σ → α → Option σ) (s : σ) (as : List α) : Option σ := as.foldlM step s

theorem run_append {s s' : σ} {as bs : List α} (h : run step s (as ++ bs) = some s') :
    ∃ t, run step s as = some t ∧ run step t bs = some s' := by
  rw [run, List.foldlM_append] at h
  exact Option.bind_eq_some_iff.mp h

theorem run_cons {s s' : σ} {a : α} {as : List α} (h : run step s (a :: as) = some s') :
    ∃ t, step s a = some t ∧ run step t as = some s' := by
  rw [run, List.foldlM_cons] at h
  exact Option.bind_eq_some_iff.mp h

/-- **What holds at the start and is kept by every step** holds in the end,
together with the steps taken. -/
theorem run_induction {start : σ} {P : List α → σ → Prop} (hstart : P [] start)
    (hstep : ∀ as s a s', run step start as = some s → P as s → step s a = some s' →
      P (as ++ [a]) s')
    {as : List α} {s : σ} (h : run step start as = some s) : P as s := by
  induction as using List.reverseRecOn generalizing s with
  | nil =>
    cases h
    exact hstart
  | append_singleton as a ih =>
    obtain ⟨t, ht, h⟩ := run_append h
    obtain ⟨u, hu, h⟩ := run_cons h
    cases h
    exact hstep as t a s ht (ih ht) hu

end Machine

/-! ## Steps in another order -/

section Reordering

variable {σ α κ : Type} [DecidableEq κ] {key : α → κ} {f : σ → α → σ}

/-- **The same elements in another order**, in which elements with equal keys
keep theirs. -/
structure Reorders (key : α → κ) (as bs : List α) : Prop where
  perm : as.Perm bs
  order : ∀ k, as.filter (fun a => key a = k) = bs.filter (fun b => key b = k)

/-- A step moves before those that it commutes with. -/
theorem foldl_comm {a : α} {as : List α} (h : ∀ s, ∀ b ∈ as, f (f s a) b = f (f s b) a) (s : σ) :
    as.foldl f (f s a) = f (as.foldl f s) a := by
  induction as generalizing s with
  | nil => rfl
  | cons b as ih =>
    rw [List.foldl_cons, List.foldl_cons, h s b List.mem_cons_self,
      ih fun s c hc => h s c (List.mem_cons_of_mem _ hc)]

/-- The first of some elements is also the first one with its key in another
order. -/
theorem Reorders.exists_split {a : α} {as bs : List α} (h : Reorders key (a :: as) bs) :
    ∃ before after, bs = before ++ a :: after ∧ (∀ b ∈ before, key b ≠ key a)
      ∧ Reorders key as (before ++ after) := by
  have hfound : (bs.find? fun b => key b = key a).isSome := by
    rw [List.find?_isSome]
    exact ⟨a, h.perm.mem_iff.mp List.mem_cons_self, by simp⟩
  obtain ⟨b, hb⟩ := Option.isSome_iff_exists.mp hfound
  obtain ⟨hkey, before, after, rfl, hbefore⟩ := List.find?_eq_some_iff_append.mp hb
  have hkey : key b = key a := by simpa using hkey
  have hbefore : ∀ c ∈ before, key c ≠ key a := by simpa using hbefore
  have hnone : before.filter (fun c => key c = key a) = [] := by
    simpa [List.filter_eq_nil_iff] using hbefore
  have hfirst := h.order (key a)
  rw [List.filter_cons_of_pos (by simp), List.filter_append, hnone, List.nil_append,
    List.filter_cons_of_pos (by simpa using hkey), List.cons.injEq] at hfirst
  obtain rfl := hfirst.1
  refine ⟨before, after, rfl, hbefore, ?_, fun k => ?_⟩
  · exact List.perm_cons a |>.mp (h.perm.trans List.perm_middle)
  · by_cases hk : key a = k
    · subst hk
      rw [List.filter_append, hnone, List.nil_append, hfirst.2]
    · have horder := h.order k
      rw [List.filter_cons_of_neg (by simpa using hk), List.filter_append,
        List.filter_cons_of_neg (by simpa using hk)] at horder
      rw [horder, List.filter_append]

/-- **Steps can be reordered** if those with different keys commute. -/
theorem foldl_eq_of_reorders {as bs : List α}
    (hcomm : ∀ s, ∀ a ∈ as, ∀ b ∈ as, key a ≠ key b → f (f s a) b = f (f s b) a)
    (h : Reorders key as bs) (s : σ) : as.foldl f s = bs.foldl f s := by
  induction as generalizing bs s with
  | nil => rw [List.nil_perm.mp h.perm]
  | cons a as ih =>
    obtain ⟨before, after, rfl, hbefore, hrest⟩ := h.exists_split
    have hmem : ∀ b ∈ before, b ∈ a :: as := fun b hb =>
      h.perm.mem_iff.mpr (List.mem_append_left _ hb)
    have hmove : before.foldl f (f s a) = f (before.foldl f s) a :=
      foldl_comm (fun s b hb => hcomm s a List.mem_cons_self b (hmem b hb)
        (hbefore b hb).symm) s
    rw [List.foldl_cons, ih (fun s b hb c hc => hcomm s b (List.mem_cons_of_mem _ hb) c
      (List.mem_cons_of_mem _ hc)) hrest, List.foldl_append, hmove, List.foldl_append,
      List.foldl_cons]

end Reordering
