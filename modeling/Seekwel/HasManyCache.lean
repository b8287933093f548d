import Mathlib.Data.List.Nodup
import Mathlib.Data.List.Pairwise
import Mathlib.Data.List.Perm.Basic
import Seekwel.Runs

/-!
# The cache of an association

A `HasMany` association keeps its children once they are loaded. `load` looks
at the cache, queries the children and stores them in three steps, and
`append` inserts a row and pushes it to the cache in two, so calls of several
threads interleave: a run is any sequence of such steps.

What a load stores and what appends are still to push make up the rows, or
they do not (`State.Balanced`), and only a store can change which. So whether
the cache is right in the end depends on the last store alone: the appends
that it missed must push after it, and those that it did not miss before
(`coherent_iff`).
-/

namespace Seekwel.Model.HasManyCache

/-! ## Calls and their steps -/

/-- **Where a call of `load` or `append` is.** -/
inductive Call (Child : Type) where
  /-- A load that has not looked at the cache. -/
  | load
  /-- A load that found the cache empty. -/
  | query
  /-- A load that has queried the children. -/
  | store (children : List Child)
  /-- A load that has returned. -/
  | loaded (children : List Child)
  /-- An append that has not inserted. -/
  | append
  /-- An append that has inserted its row. -/
  | push (child : Child)
  /-- An append that has returned. -/
  | appended (child : Child)
  deriving DecidableEq

/-- The rows of the parent's children, the cache, and the calls so far. -/
structure State (Child : Type) where
  children : List Child
  cached : Option (List Child)
  calls : List (Call Child)
  deriving DecidableEq

/-- **A step.** All but the first two, with which a call begins, are steps of
the call at an index. -/
inductive Step (Child : Type) where
  | load
  | append
  | check (i : ℕ)
  /-- A query may return the rows in any order. -/
  | query (i : ℕ) (children : List Child)
  | store (i : ℕ)
  /-- The row that is inserted is a new one. -/
  | insert (i : ℕ) (child : Child)
  | push (i : ℕ)
  deriving DecidableEq

variable {Child : Type}

/-- The call whose step it is, unless it is a new one. -/
def Step.call? : Step Child → Option ℕ
  | load | append => none
  | check i | query i _ | store i | insert i _ | push i => some i

/-- The call at an index has come to the next place. -/
def State.move (s : State Child) (i : ℕ) (call : Call Child) : State Child :=
  { s with calls := s.calls.set i call }

section Runs

variable [DecidableEq Child]

/-- **One step**, if the call is there. -/
def State.step (s : State Child) : Step Child → Option (State Child)
  | .load => some { s with calls := s.calls ++ [.load] }
  | .append => some { s with calls := s.calls ++ [.append] }
  | .check i =>
    match s.calls[i]?, s.cached with
    | some .load, some children => some (s.move i (.loaded children))
    | some .load, none => some (s.move i .query)
    | _, _ => none
  | .query i children =>
    match s.calls[i]? with
    | some .query =>
      if children.Perm s.children then some (s.move i (.store children)) else none
    | _ => none
  | .store i =>
    match s.calls[i]? with
    | some (.store children) =>
      some { s.move i (.loaded children) with cached := some children }
    | _ => none
  | .insert i child =>
    match s.calls[i]? with
    | some .append =>
      if child ∈ s.children then none
      else some { s.move i (.push child) with children := s.children ++ [child] }
    | _ => none
  | .push i =>
    match s.calls[i]? with
    | some (.push child) =>
      -- Nothing is pushed to a cache that is empty.
      some { s.move i (.appended child) with
        cached := s.cached.map fun children => children ++ [child] }
    | _ => none

/-- **An interleaving of calls.** -/
def State.run (s : State Child) (steps : List (Step Child)) : Option (State Child) :=
  Machine.run State.step s steps

/-- What a step does, by cases. -/
inductive Stepped (s : State Child) : Step Child → State Child → Prop where
  | load : Stepped s .load { s with calls := s.calls ++ [.load] }
  | append : Stepped s .append { s with calls := s.calls ++ [.append] }
  | hit {i children} : s.calls[i]? = some .load → s.cached = some children →
      Stepped s (.check i) (s.move i (.loaded children))
  | miss {i} : s.calls[i]? = some .load → s.cached = none →
      Stepped s (.check i) (s.move i .query)
  | query {i children} : s.calls[i]? = some .query → children.Perm s.children →
      Stepped s (.query i children) (s.move i (.store children))
  | store {i children} : s.calls[i]? = some (.store children) →
      Stepped s (.store i) { s.move i (.loaded children) with cached := some children }
  | insert {i child} : s.calls[i]? = some .append → child ∉ s.children →
      Stepped s (.insert i child)
        { s.move i (.push child) with children := s.children ++ [child] }
  | push {i child} : s.calls[i]? = some (.push child) →
      Stepped s (.push i) { s.move i (.appended child) with
        cached := s.cached.map fun children => children ++ [child] }

theorem stepped_of_step {s s' : State Child} {step : Step Child}
    (h : s.step step = some s') : Stepped s step s' := by
  cases step with
  | load =>
    cases h
    exact .load
  | append =>
    cases h
    exact .append
  | check i =>
    simp only [State.step] at h
    split at h
    · cases h
      exact .hit ‹_› ‹_›
    · cases h
      exact .miss ‹_› ‹_›
    · cases h
  | query i children =>
    simp only [State.step] at h
    split at h
    · split at h
      · cases h
        exact .query ‹_› ‹_›
      · cases h
    · cases h
  | store i =>
    simp only [State.step] at h
    split at h
    · cases h
      exact .store ‹_›
    · cases h
  | insert i child =>
    simp only [State.step] at h
    split at h
    · split at h
      · cases h
      · cases h
        exact .insert ‹_› ‹_›
    · cases h
  | push i =>
    simp only [State.step] at h
    split at h
    · cases h
      exact .push ‹_›
    · cases h

end Runs

/-! ## Rows that are still to be pushed -/

/-- The row that a call is about to push. -/
def Call.push? : Call Child → Option Child
  | push child => some child
  | _ => none

/-- **The rows between their insert and their push.** -/
def State.pushes (s : State Child) : List Child := s.calls.filterMap Call.push?

/-- An element of a list in the place of another one. -/
theorem filterMap_set_perm {α β : Type} (f : α → Option β) {l : List α} {i : ℕ} {a : α}
    (h : l[i]? = some a) (b : α) :
    ((l.set i b).filterMap f ++ (f a).toList).Perm (l.filterMap f ++ (f b).toList) := by
  induction l generalizing i with
  | nil => simp at h
  | cons x l ih =>
    cases i with
    | zero =>
      obtain rfl : x = a := by simpa using h
      rw [List.set_cons_zero, List.filterMap_cons, List.filterMap_cons]
      cases hb : f b with
      | none => cases hx : f x <;> simp
      | some y =>
        cases hx : f x with
        | none => simp [(List.perm_append_singleton y _).symm]
        | some z =>
          show (y :: (l.filterMap f ++ [z])).Perm (z :: (l.filterMap f ++ [y]))
          exact ((List.perm_append_singleton z _).cons y).trans ((List.Perm.swap z y _).trans
            ((List.perm_append_singleton y _).symm.cons z))
    | succ i =>
      have h : l[i]? = some a := by simpa using h
      rw [List.set_cons_succ, List.filterMap_cons, List.filterMap_cons]
      cases f x with
      | none => exact ih h
      | some y => exact (ih h).cons y

theorem pushes_set (s : State Child) {i : ℕ} {a : Call Child} (h : s.calls[i]? = some a)
    (b : Call Child) :
    ((s.move i b).pushes ++ a.push?.toList).Perm (s.pushes ++ b.push?.toList) :=
  filterMap_set_perm Call.push? h b

theorem pushes_same {s : State Child} {i : ℕ} {a b : Call Child} (h : s.calls[i]? = some a)
    (ha : a.push? = none) (hb : b.push? = none) : (s.move i b).pushes.Perm s.pushes := by
  simpa [ha, hb] using pushes_set s h b

theorem pushes_inserted {s : State Child} {i : ℕ} (h : s.calls[i]? = some .append)
    {child : Child} : (s.move i (.push child)).pushes.Perm (s.pushes ++ [child]) := by
  simpa [Call.push?] using pushes_set s h (.push child)

theorem pushes_pushed {s : State Child} {i : ℕ} {child : Child}
    (h : s.calls[i]? = some (.push child)) :
    s.pushes.Perm ((s.move i (.appended child)).pushes ++ [child]) := by
  simpa [Call.push?] using (pushes_set s h (.appended child)).symm

theorem pushes_begin (s : State Child) {call : Call Child} (h : call.push? = none) :
    State.pushes { s with calls := s.calls ++ [call] } = s.pushes := by
  show (s.calls ++ [call]).filterMap Call.push? = _
  rw [List.filterMap_append, List.filterMap_cons, h, List.filterMap_nil, List.append_nil]
  rfl

/-- **What is cached and what is still to be pushed** are the rows. -/
def State.Balanced (s : State Child) : Prop :=
  ∀ cached ∈ s.cached, (cached ++ s.pushes).Perm s.children

variable {s s' : State Child} {step : Step Child}

/-- Whatever does not store keeps the balance, or the imbalance. -/
theorem balanced_iff (h : Stepped s step s') (hstore : ∀ i, step ≠ .store i) :
    s'.Balanced ↔ s.Balanced := by
  unfold State.Balanced
  cases h with
  | load => rw [pushes_begin s rfl]
  | append => rw [pushes_begin s rfl]
  | hit hc _ => exact forall₂_congr fun cached _ =>
      ((pushes_same hc rfl rfl).append_left cached).congr_left _
  | miss hc _ => exact forall₂_congr fun cached _ =>
      ((pushes_same hc rfl rfl).append_left cached).congr_left _
  | query hc _ => exact forall₂_congr fun cached _ =>
      ((pushes_same hc rfl rfl).append_left cached).congr_left _
  | @store i => exact absurd rfl (hstore i)
  | @insert i child hc _ =>
    refine forall₂_congr fun cached _ => ?_
    show (cached ++ (s.move i (.push child)).pushes).Perm (s.children ++ [child]) ↔ _
    rw [((pushes_inserted hc).append_left cached).congr_left, ← List.append_assoc,
      List.perm_append_right_iff]
  | @push i child hc =>
    show (∀ cached ∈ s.cached.map fun children => children ++ [child],
      (cached ++ (s.move i (.appended child)).pushes).Perm s.children) ↔ _
    simp only [Option.mem_def, Option.map_eq_some_iff, forall_exists_index, and_imp,
      forall_apply_eq_imp_iff₂]
    refine forall₂_congr fun cached _ => List.Perm.congr_left ?_ _
    rw [List.append_assoc]
    exact (List.perm_append_comm.trans (pushes_pushed hc).symm).append_left cached

/-! ## What the steps so far tell of the state -/

/-- The row that a step inserts. -/
def Step.inserted? : Step Child → Option Child
  | insert _ child => some child
  | _ => none

theorem mem_inserted {steps : List (Step Child)} {child : Child} :
    child ∈ steps.filterMap Step.inserted? ↔ ∃ i, .insert i child ∈ steps := by
  rw [List.mem_filterMap]
  constructor
  · rintro ⟨step, hstep, h⟩
    cases step <;> cases h
    exact ⟨_, hstep⟩
  · rintro ⟨i, h⟩
    exact ⟨_, h, rfl⟩

theorem calls_move (s : State Child) {i : ℕ} {a : Call Child} (h : s.calls[i]? = some a)
    (b : Call Child) (j : ℕ) :
    (s.move i b).calls[j]? = if j = i then some b else s.calls[j]? := by
  obtain ⟨hi, -⟩ := List.getElem?_eq_some_iff.mp h
  show (s.calls.set i b)[j]? = _
  rw [List.getElem?_set]
  by_cases hij : i = j
  · rw [if_pos hij, if_pos hij.symm, if_pos hi]
  · rw [if_neg hij, if_neg (Ne.symm hij)]

/-- **A state after some steps**, from a state with certain rows. -/
structure History (children : List Child) (steps : List (Step Child)) (s : State Child) :
    Prop where
  children_eq : s.children = children ++ steps.filterMap Step.inserted?
  nodup : s.children.Nodup
  nodup_pushes : s.pushes.Nodup
  push_iff : ∀ j child, s.calls[j]? = some (.push child)
    ↔ .insert j child ∈ steps ∧ .push j ∉ steps
  /-- A call that has not inserted has not pushed either. -/
  fresh : ∀ j, s.calls[j]? = none ∨ s.calls[j]? = some .append →
    .push j ∉ steps ∧ ∀ child, .insert j child ∉ steps
  /-- What a load is about to store it has queried. -/
  store : ∀ i rows, s.calls[i]? = some (.store rows) → ∃ a b,
    steps = a ++ .query i rows :: b
      ∧ rows.Perm (children ++ a.filterMap Step.inserted?)
  /-- A load queries once. -/
  queried : ∀ i rows, .query i rows ∈ steps →
    s.calls[i]? = some (.store rows) ∨ ∃ loaded, s.calls[i]? = some (.loaded loaded)

section

variable {children : List Child} {steps : List (Step Child)}

theorem History.mem_pushes (h : History children steps s) {child : Child} :
    child ∈ s.pushes ↔ ∃ j, .insert j child ∈ steps ∧ .push j ∉ steps := by
  rw [State.pushes, List.mem_filterMap]
  constructor
  · rintro ⟨call, hcall, hpush⟩
    cases call <;> cases hpush
    obtain ⟨j, hj⟩ := List.mem_iff_getElem?.mp hcall
    exact ⟨j, (h.push_iff j child).mp hj⟩
  · rintro ⟨j, hj⟩
    exact ⟨_, List.mem_of_getElem? ((h.push_iff j child).mpr hj), rfl⟩

/-- **From one place of a call to the next**, by a step of it. -/
inductive Next (i : ℕ) : Call Child → Step Child → Call Child → Prop where
  | hit {rows : List Child} : Next i .load (.check i) (.loaded rows)
  | miss : Next i .load (.check i) .query
  | query {rows : List Child} : Next i .query (.query i rows) (.store rows)
  | store {rows : List Child} : Next i (.store rows) (.store i) (.loaded rows)
  | insert {child : Child} : Next i .append (.insert i child) (.push child)
  | push {child : Child} : Next i (.push child) (.push i) (.appended child)

/-- **What becomes of the place of a call**: it stays, or the call begins, or
it takes its next step. -/
inductive Places (s s' : State Child) (step : Step Child) (j : ℕ) : Prop where
  | same : s'.calls[j]? = s.calls[j]? → step.call? ≠ some j → Places s s' step j
  | begun : s.calls[j]? = none → step.call? = none →
      s'.calls[j]? = some .load ∨ s'.calls[j]? = some .append → Places s s' step j
  | next {a b : Call Child} : s.calls[j]? = some a → s'.calls[j]? = some b → Next j a step b →
      Places s s' step j

theorem places_begin (s : State Child) {call : Call Child} (hcall : call = .load ∨ call = .append)
    {step : Step Child} (hstep : step.call? = none) (j : ℕ) :
    Places s { s with calls := s.calls ++ [call] } step j := by
  have hplace : (s.calls ++ [call])[j]?
      = if j = s.calls.length then some call else s.calls[j]? := by grind
  by_cases hj : j = s.calls.length
  · rw [if_pos hj] at hplace
    refine .begun (by simp [hj]) hstep ?_
    rcases hcall with rfl | rfl
    · exact .inl hplace
    · exact .inr hplace
  · rw [if_neg hj] at hplace
    exact .same hplace (by simp [hstep])

theorem places_move {i : ℕ} {a b : Call Child} (h : s.calls[i]? = some a)
    (hcalls : s'.calls = s.calls.set i b) (hnext : Next i a step b) (j : ℕ) :
    Places s s' step j := by
  have hcall : step.call? = some i := by cases hnext <;> rfl
  have hplace : s'.calls[j]? = if j = i then some b else s.calls[j]? := by
    rw [hcalls]
    exact calls_move s h b j
  by_cases hj : j = i
  · subst hj
    exact .next h (hplace.trans (if_pos rfl)) hnext
  · refine .same (hplace.trans (if_neg hj)) ?_
    rw [hcall]
    exact fun h => hj (Option.some.inj h).symm

theorem Stepped.places (hs : Stepped s step s') (j : ℕ) : Places s s' step j := by
  cases hs with
  | load => exact places_begin s (.inl rfl) rfl j
  | append => exact places_begin s (.inr rfl) rfl j
  | hit hc _ => exact places_move hc rfl .hit j
  | miss hc _ => exact places_move hc rfl .miss j
  | query hc _ => exact places_move hc rfl .query j
  | store hc => exact places_move (b := .loaded _) hc rfl .store j
  | insert hc _ => exact places_move (b := .push _) hc rfl .insert j
  | push hc => exact places_move (b := .appended _) hc rfl .push j

theorem Stepped.children_eq (h : Stepped s step s') :
    s'.children = s.children ++ step.inserted?.toList := by
  cases h <;> simp [Step.inserted?, State.move]

theorem History.stepped (h : History children steps s) (hs : Stepped s step s') :
    History children (steps ++ [step]) s' where
  children_eq := by
    rw [hs.children_eq, h.children_eq, List.filterMap_append, List.append_assoc]
    cases hi : step.inserted? <;> simp [hi]
  nodup := by
    rw [hs.children_eq]
    cases hs with
    | insert hc hnew =>
      refine List.nodup_append.mpr ⟨h.nodup, List.nodup_singleton _, ?_⟩
      rintro child hchild _ hrow rfl
      obtain rfl := List.mem_singleton.mp hrow
      exact hnew hchild
    | _ => simpa [Step.inserted?] using h.nodup
  nodup_pushes := by
    have hsub : ∀ child ∈ s.pushes, child ∈ s.children := by
      intro child hchild
      obtain ⟨j, hj, -⟩ := h.mem_pushes.mp hchild
      rw [h.children_eq]
      exact List.mem_append_right _ (mem_inserted.mpr ⟨j, hj⟩)
    cases hs with
    | load =>
      rw [pushes_begin s rfl]
      exact h.nodup_pushes
    | append =>
      rw [pushes_begin s rfl]
      exact h.nodup_pushes
    | hit hc _ => exact (pushes_same hc rfl rfl).nodup_iff.mpr h.nodup_pushes
    | miss hc _ => exact (pushes_same hc rfl rfl).nodup_iff.mpr h.nodup_pushes
    | query hc _ => exact (pushes_same hc rfl rfl).nodup_iff.mpr h.nodup_pushes
    | @store i rows hc =>
      exact (pushes_same (b := .loaded rows) hc rfl rfl).nodup_iff.mpr h.nodup_pushes
    | @insert i child hc hnew =>
      refine (pushes_inserted hc).nodup_iff.mpr (List.nodup_append.mpr ⟨h.nodup_pushes, by simp, ?_⟩)
      rintro row hrow _ hchild rfl
      obtain rfl := List.mem_singleton.mp hchild
      exact hnew (hsub _ hrow)
    | @push i child hc =>
      exact ((pushes_pushed hc).nodup_iff.mp h.nodup_pushes).of_append_left
  push_iff j child := by
    have hpush := h.push_iff j child
    have hfresh := h.fresh j
    cases hs.places j with
    | same hsame hcall => grind [Step.call?]
    | begun hnone hcall hbegun => grind [Step.call?]
    | next ha hb hnext => cases hnext <;> grind
  fresh j := by
    have hpush := h.push_iff j
    have hfresh := h.fresh j
    cases hs.places j with
    | same hsame hcall => grind [Step.call?]
    | begun hnone hcall hbegun => grind [Step.call?]
    | next ha hb hnext => cases hnext <;> grind
  store i rows hi := by
    cases hs.places i with
    | same hsame hcall =>
      obtain ⟨a, b, rfl, hrows⟩ := h.store i rows (hsame.symm.trans hi)
      exact ⟨a, b ++ [step], by simp, hrows⟩
    | begun hnone hcall hbegun => grind
    | next ha hb hnext => 
      cases hnext with
      | query =>
        cases hs with
        | query hc hr =>
          obtain rfl : rows = _ := by simpa using hi.symm.trans hb
          exact ⟨steps, [], by simp, h.children_eq ▸ hr⟩
      | _ => grind
  queried i rows := by
    have hqueried := h.queried i rows
    cases hs.places i with
    | same hsame hcall => grind [Step.call?]
    | begun hnone hcall hbegun => grind [Step.call?]
    | next ha hb hnext => cases hnext <;> grind

/-! ## Stores -/

/-- **A load that is in time**, whose query comes after the steps `a` and
whose store after the steps `b` as well: the appends that inserted before the
query push before the store, and those that inserted after it do not. -/
structure Timely (a b : List (Step Child)) : Prop where
  seen : ∀ i child, .insert i child ∈ a → .push i ∈ a ++ b
  missed : ∀ i child, .insert i child ∈ b → .push i ∉ b

/-- Each row is inserted once. -/
theorem History.pairwise (h : History children steps s) : steps.Pairwise fun x y =>
    ∀ child, x.inserted? = some child → y.inserted? ≠ some child := by
  have hnodup := h.nodup
  rw [h.children_eq] at hnodup
  have hinserted := List.pairwise_filterMap.mp (List.nodup_append.mp hnodup).2.1
  exact hinserted.imp fun hne child hx hy => hne child hx child hy rfl

theorem History.insert_unique (h : History children steps s) {i j : ℕ} {child : Child}
    (hi : .insert i child ∈ steps) (hj : .insert j child ∈ steps) : i = j := by
  by_contra hne
  have hsymm : Std.Symm fun x y : Step Child =>
      ∀ child, x.inserted? = some child → y.inserted? ≠ some child :=
    ⟨fun x y hxy child hy hx => hxy child hx hy⟩
  exact h.pairwise.forall hi hj (by simpa using hne) child rfl rfl

end

section Runs

variable [DecidableEq Child] {children : List Child} {steps : List (Step Child)}

/-- No calls, and nothing cached. -/
def State.start (children : List Child) : State Child := ⟨children, none, []⟩

theorem history_run (hn : children.Nodup) (h : (State.start children).run steps = some s) :
    History children steps s := by
  refine Machine.run_induction (P := History children) ?_
    (fun steps s step s' _ h hs => h.stepped (stepped_of_step hs)) h
  exact ⟨by simp [State.start], hn, by simp [State.pushes, State.start],
    by simp [State.start], by simp, by simp [State.start], by simp⟩

/-- No call pushes before it inserts. -/
theorem not_push_before (hn : children.Nodup) {a b : List (Step Child)} {i : ℕ} {child : Child}
    (h : (State.start children).run (a ++ .insert i child :: b) = some s) : .push i ∉ a := by
  obtain ⟨t, ht, h⟩ := Machine.run_append h
  obtain ⟨u, hu, -⟩ := Machine.run_cons h
  cases stepped_of_step hu with
  | insert hc _ => exact ((history_run hn ht).fresh i (.inr hc)).1

/-- **What was queried and what is to be pushed are the rows exactly if** the
load is in time. -/
theorem perm_iff_timely (hn : children.Nodup) {a b : List (Step Child)} {i : ℕ}
    {rows : List Child} (h : (State.start children).run (a ++ .query i rows :: b) = some s) :
    (rows ++ s.pushes).Perm s.children ↔ Timely a b := by
  have hist := history_run hn h
  have hrows : rows.Perm (children ++ a.filterMap Step.inserted?) := by
    obtain ⟨t, ht, h⟩ := Machine.run_append h
    obtain ⟨u, hu, -⟩ := Machine.run_cons h
    cases stepped_of_step hu with
    | query _ hr => exact (history_run hn ht).children_eq ▸ hr
  have hchildren : s.children
      = children ++ a.filterMap Step.inserted? ++ b.filterMap Step.inserted? := by
    rw [hist.children_eq, List.filterMap_append, List.append_assoc]
    rfl
  have hnodup : (b.filterMap Step.inserted?).Nodup :=
    (List.nodup_append.mp (hchildren ▸ hist.nodup)).2.1
  rw [hchildren, (hrows.append_right s.pushes).congr_left, List.perm_append_left_iff,
    List.perm_ext_iff_of_nodup hist.nodup_pushes hnodup]
  simp only [hist.mem_pushes, mem_inserted]
  constructor
  · intro hmem
    constructor
    · intro j child hj
      by_contra hpush
      obtain ⟨k, hk⟩ := (hmem child).mp ⟨j, by simp [hj], by simpa using hpush⟩
      have hdisjoint := List.pairwise_append.mp hist.pairwise
      exact hdisjoint.2.2 _ hj _ (List.mem_cons_of_mem _ hk) child rfl rfl
    · intro j child hj hpush
      obtain ⟨k, hk, hnot⟩ := (hmem child).mpr ⟨j, hj⟩
      have hin : .insert j child ∈ a ++ .query i rows :: b := by simp [hj]
      obtain rfl := hist.insert_unique hk hin
      exact hnot (by simp [hpush])
  · intro htimely child
    constructor
    · rintro ⟨j, hj, hnot⟩
      rcases List.mem_append.mp hj with hj | hj
      · exact absurd (htimely.seen j child hj) (by simpa using hnot)
      · exact ⟨j, by simpa using hj⟩
    · rintro ⟨j, hj⟩
      refine ⟨j, by simp [hj], ?_⟩
      obtain ⟨c, d, rfl⟩ := List.append_of_mem hj
      have hbefore : .push j ∉ a ++ .query i rows :: c :=
        not_push_before hn (b := d) (by simpa using h)
      have hafter := htimely.missed j child hj
      simp_all

/-- Without stores, a run keeps the balance, or the imbalance. -/
theorem balanced_run_iff {t : State Child} (h : t.run steps = some s)
    (hstore : ∀ i, .store i ∉ steps) : s.Balanced ↔ t.Balanced := by
  induction steps generalizing t with
  | nil =>
    cases h
    exact Iff.rfl
  | cons step steps ih =>
    obtain ⟨u, hu, h⟩ := Machine.run_cons h
    rw [ih h fun i hi => hstore i (List.mem_cons_of_mem step hi)]
    refine balanced_iff (stepped_of_step hu) ?_
    rintro i rfl
    exact hstore i List.mem_cons_self

/-- The balance after a load has stored, and no other after it. -/
theorem balanced_iff_timely (hn : children.Nodup) {a b c : List (Step Child)} {i : ℕ}
    {rows : List Child}
    (h : (State.start children).run (a ++ .query i rows :: (b ++ .store i :: c)) = some s)
    (hc : ∀ j, .store j ∉ c) : s.Balanced ↔ Timely a b := by
  have hsplit : a ++ .query i rows :: (b ++ .store i :: c)
      = (a ++ .query i rows :: b) ++ .store i :: c := by simp
  obtain ⟨t, ht, h⟩ := Machine.run_append (hsplit ▸ h)
  obtain ⟨u, hu, h⟩ := Machine.run_cons h
  rw [balanced_run_iff h hc, ← perm_iff_timely hn ht]
  cases stepped_of_step hu with
  | @store _ stored hplace =>
    -- What the load stores is what it queried.
    have hstored : stored = rows := by
      rcases (history_run hn ht).queried i rows (by simp) with hq | ⟨loaded, hq⟩
      · simpa using hplace.symm.trans hq
      · simpa using hplace.symm.trans hq
    have hpushes := pushes_same (b := .loaded stored) hplace rfl rfl
    subst hstored
    rw [← (hpushes.append_left stored).congr_left]
    exact ⟨fun h => h stored rfl, fun h cached hcached => Option.some.inj hcached ▸ h⟩

/-- The last element of a list with a property, if there is one. -/
theorem exists_last {α : Type} (p : α → Prop) (l : List α) :
    (∀ x ∈ l, ¬ p x) ∨ ∃ a x b, l = a ++ x :: b ∧ p x ∧ ∀ y ∈ b, ¬ p y := by
  induction l using List.reverseRecOn with
  | nil => exact .inl (by simp)
  | append_singleton l x ih =>
    by_cases hx : p x
    · exact .inr ⟨l, x, [], by simp, hx, by simp⟩
    · rcases ih with h | ⟨a, y, b, rfl, hy, hb⟩
      · exact .inl (by simpa [or_imp, forall_and] using ⟨h, hx⟩)
      · exact .inr ⟨a, y, b ++ [x], by simp, hy, by simpa [or_imp, forall_and] using ⟨hb, hx⟩⟩

/-- **The last load that stores is in time**, if any stores. -/
def LastStoreTimely (steps : List (Step Child)) : Prop :=
  ∀ a i rows b c, steps = a ++ .query i rows :: (b ++ .store i :: c) →
    (∀ j, .store j ∉ c) → Timely a b

theorem balanced_iff_lastStoreTimely (hn : children.Nodup)
    (h : (State.start children).run steps = some s) :
    s.Balanced ↔ LastStoreTimely steps := by
  constructor
  · rintro hbalanced a i rows b c rfl hc
    exact (balanced_iff_timely hn h hc).mp hbalanced
  · intro htimely
    rcases exists_last (fun step => ∃ i, step = .store i) steps with hnone | hlast
    · refine (balanced_run_iff h fun i hi => hnone _ hi ⟨i, rfl⟩).mpr ?_
      rintro cached ⟨⟩
    · obtain ⟨d, _, c, rfl, ⟨i, rfl⟩, hc⟩ := hlast
      have hc : ∀ j, .store j ∉ c := fun j hj => hc _ hj ⟨j, rfl⟩
      obtain ⟨t, ht, h'⟩ := Machine.run_append h
      obtain ⟨u, hu, -⟩ := Machine.run_cons h'
      cases stepped_of_step hu with
      | @store _ rows hplace =>
        obtain ⟨a, b, rfl, -⟩ := (history_run hn ht).store i rows hplace
        have hsplit : a ++ .query i rows :: b ++ .store i :: c
            = a ++ .query i rows :: (b ++ .store i :: c) := by simp
        exact (balanced_iff_timely hn (hsplit ▸ h) hc).mpr (htimely a i rows b c hsplit hc)

/-! ## When all calls have returned -/

def Call.Returned : Call Child → Prop
  | loaded _ | appended _ => True
  | _ => False

/-- What a load may return that runs when all the others have returned. -/
def State.Loads (s : State Child) (rows : List Child) : Prop :=
  ∃ steps s', s.run (.load :: steps) = some s'
    ∧ (∀ step ∈ steps, step.call? = some s.calls.length)
    ∧ s'.calls[s.calls.length]? = some (.loaded rows)

/-- **The cache lost and duplicated nothing**: it is empty or holds every
child exactly once, and a later load returns them all. -/
structure State.Coherent (s : State Child) : Prop where
  cached : ∀ cached ∈ s.cached, cached.Nodup ∧ ∀ child, child ∈ cached ↔ child ∈ s.children
  loads : ∃ rows, s.Loads rows
  loaded : ∀ rows, s.Loads rows → rows.Nodup ∧ ∀ child, child ∈ rows ↔ child ∈ s.children

/-- Where a load is that runs alone. -/
inductive Alone (s t : State Child) : Prop where
  | load : t.calls[s.calls.length]? = some .load → t.cached = s.cached → Alone s t
  | query : t.calls[s.calls.length]? = some .query → Alone s t
  | store {rows : List Child} : t.calls[s.calls.length]? = some (.store rows) →
      rows.Perm s.children → Alone s t
  | loaded {rows : List Child} : t.calls[s.calls.length]? = some (.loaded rows) →
      s.cached = some rows ∨ rows.Perm s.children → Alone s t

omit [DecidableEq Child] in
theorem Alone.stepped {t t' : State Child} {step : Step Child} (h : Alone s t)
    (hchildren : t.children = s.children) (hs : Stepped t step t')
    (hcall : step.call? = some s.calls.length) :
    Alone s t' ∧ t'.children = s.children := by
  have hplace : ∀ {i a} b, t.calls[i]? = some a → i = s.calls.length →
      (t.calls.set i b)[s.calls.length]? = some b := by
    rintro i a b hc rfl
    exact (calls_move t hc b _).trans (if_pos rfl)
  cases hs with
  | load => cases hcall
  | append => cases hcall
  | @hit i rows hc hcached =>
    obtain rfl := Option.some.inj hcall
    refine ⟨.loaded (hplace (.loaded rows) hc rfl) (.inl ?_), hchildren⟩
    cases h with
    | load _ hsame => exact hsame ▸ hcached
    | _ => grind
  | miss hc _ =>
    exact ⟨.query (hplace .query hc (Option.some.inj hcall)), hchildren⟩
  | @query i rows hc hrows =>
    exact ⟨.store (hplace (.store rows) hc (Option.some.inj hcall)) (hchildren ▸ hrows),
      hchildren⟩
  | @store i rows hc =>
    obtain rfl := Option.some.inj hcall
    refine ⟨.loaded (hplace (.loaded rows) hc rfl) (.inr ?_), hchildren⟩
    cases h with
    | @store stored hstored hperm =>
      obtain rfl : rows = stored := by simpa using hc.symm.trans hstored
      exact hperm
    | _ => grind
  | insert hc _ =>
    obtain rfl := Option.some.inj hcall
    cases h <;> grind
  | push hc =>
    obtain rfl := Option.some.inj hcall
    cases h <;> grind

theorem Alone.run {t t' : State Child} (h : Alone s t) (hchildren : t.children = s.children)
    (hrun : t.run steps = some t')
    (hcalls : ∀ step ∈ steps, step.call? = some s.calls.length) : Alone s t' := by
  induction steps generalizing t with
  | nil =>
    cases hrun
    exact h
  | cons step steps ih =>
    obtain ⟨u, hu, hrun⟩ := Machine.run_cons hrun
    obtain ⟨h, hchildren⟩ :=
      h.stepped hchildren (stepped_of_step hu) (hcalls step List.mem_cons_self)
    exact ih h hchildren hrun fun step hstep => hcalls step (List.mem_cons_of_mem _ hstep)

/-- A later load returns what is cached or the rows. -/
theorem eq_or_perm_of_loads {rows : List Child} (h : s.Loads rows) :
    s.cached = some rows ∨ rows.Perm s.children := by
  obtain ⟨steps, s', hrun, hcalls, hloaded⟩ := h
  obtain ⟨t, ht, hrun⟩ := Machine.run_cons hrun
  cases ht
  have hstart : Alone s { s with calls := s.calls ++ [.load] } :=
    .load (by simp) rfl
  cases hstart.run rfl hrun hcalls with
  | @loaded loaded hplace h =>
    obtain rfl : rows = loaded := by simpa using hloaded.symm.trans hplace
    exact h
  | _ => grind

/-- A later load returns. -/
theorem exists_loads (s : State Child) : ∃ rows, s.Loads rows := by
  have hplace : ∀ (call : Call Child), (s.calls ++ [call])[s.calls.length]? = some call := by simp
  have hmove : ∀ (a b : Call Child) (cached : Option (List Child)),
      State.move ⟨s.children, cached, s.calls ++ [a]⟩ s.calls.length b
        = ⟨s.children, cached, s.calls ++ [b]⟩ := by simp [State.move]
  cases hc : s.cached with
  | some cached =>
    refine ⟨cached, [.check s.calls.length], ⟨s.children, s.cached, s.calls ++ [.loaded cached]⟩,
      ?_, by simp [Step.call?], hplace _⟩
    simp [State.run, Machine.run, State.step, hc, hmove]
  | none =>
    refine ⟨s.children, [.check s.calls.length, .query s.calls.length s.children,
      .store s.calls.length], ⟨s.children, some s.children, s.calls ++ [.loaded s.children]⟩,
      ?_, by simp [Step.call?], hplace _⟩
    simp [State.run, Machine.run, State.step, hc, hmove]

theorem coherent_iff_perm (hn : s.children.Nodup) :
    s.Coherent ↔ ∀ cached ∈ s.cached, cached.Perm s.children := by
  have hperm : ∀ {rows : List Child}, rows.Perm s.children ↔
      rows.Nodup ∧ ∀ child, child ∈ rows ↔ child ∈ s.children := fun {rows} =>
    ⟨fun h => ⟨h.nodup_iff.mpr hn, fun child => h.mem_iff⟩,
      fun h => (List.perm_ext_iff_of_nodup h.1 hn).mpr h.2⟩
  constructor
  · exact fun h cached hcached => hperm.mpr (h.cached cached hcached)
  · intro h
    refine ⟨fun cached hcached => hperm.mp (h cached hcached), exists_loads s,
      fun rows hrows => ?_⟩
    exact hperm.mp ((eq_or_perm_of_loads hrows).elim (h rows) id)

omit [DecidableEq Child] in
theorem pushes_of_returned (h : ∀ call ∈ s.calls, call.Returned) : s.pushes = [] := by
  refine List.filterMap_eq_nil_iff.mpr fun call hcall => ?_
  have hreturned := h call hcall
  cases call <;> first | rfl | cases hreturned

/-- **The cache of an association loses and duplicates nothing exactly if**
the last load that stores is in time. -/
theorem coherent_iff (hn : children.Nodup) (h : (State.start children).run steps = some s)
    (hreturned : ∀ call ∈ s.calls, call.Returned) :
    s.Coherent ↔ LastStoreTimely steps := by
  rw [coherent_iff_perm (history_run hn h).nodup, ← balanced_iff_lastStoreTimely hn h]
  simp only [State.Balanced, pushes_of_returned hreturned, List.append_nil]

end Runs

/-- Two loads and two appends, one of which inserts after both queries. -/
def overlapping : List (Step ℕ) :=
  [.load, .load, .append, .check 0, .check 1, .insert 2 7, .query 0 [3, 7], .push 2,
    .query 1 [7, 3], .append, .insert 3 8, .store 1, .store 0, .push 3]

theorem overlapping_coherent :
    (⟨[3, 7, 8], some [3, 7, 8], [.loaded [3, 7], .loaded [7, 3], .appended 7, .appended 8]⟩ :
      State ℕ).Coherent := by
  have hrun : (State.start [3]).run overlapping = some ⟨[3, 7, 8], some [3, 7, 8],
      [.loaded [3, 7], .loaded [7, 3], .appended 7, .appended 8]⟩ := by decide
  refine (coherent_iff (by decide) hrun (by simp [Call.Returned])).mpr ?_
  refine (balanced_iff_lastStoreTimely (by decide) hrun).mp ?_
  rintro cached ⟨⟩
  exact List.Perm.refl _

/-- A row that was inserted before the query is pushed after the store. -/
theorem child_cached_twice :
    ¬ ∀ (children : List ℕ) (steps : List (Step ℕ)) (s : State ℕ), children.Nodup →
      (State.start children).run steps = some s → (∀ call ∈ s.calls, call.Returned) →
      s.Coherent := by
  intro h
  have hrun : (State.start []).run [.load, .append, .check 0, .insert 1 7, .query 0 [7],
      .store 0, .push 1] = some ⟨[7], some [7, 7], [.loaded [7], .appended 7]⟩ := by decide
  have hcached := (h [] _ _ List.nodup_nil hrun (by simp [Call.Returned])).cached [7, 7] rfl
  exact absurd hcached.1 (by decide)

end Seekwel.Model.HasManyCache
