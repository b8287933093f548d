import Mathlib.Data.List.Infix

/-!
# Reading what grows

A reader fetches a sequence piece by piece, and between two of its calls the
sequence may become another one, of which the last one is an initial segment.
Whatever was read then is still where it was, so nothing is read twice or left
out: as long as the reader runs, it has read an initial segment of what there
is, and when it ends by itself, it has read all that there was
(`IsReader.readsOnce`).

A call may also fail, which ends the reader as well.
-/

namespace Reader

variable {γ σ ε α : Type}

/-- **What calls return**, one after the other. Each may meet something else. -/
def returned {β : Type} (next : γ → σ → Option β × σ) : σ → List γ → List (Option β)
  | _, [] => []
  | s, g :: gs => (next g s).1 :: returned next (next g s).2 gs

/-- A reader that returns something else in the same way. -/
theorem returned_map {β β' : Type} {next : γ → σ → Option β × σ} (f : β → β') (s : σ)
    (gs : List γ) :
    returned (fun g s => ((next g s).1.map f, (next g s).2)) s gs
      = (returned next s gs).map (Option.map f) := by
  induction gs generalizing s with
  | nil => rfl
  | cons g gs ih => exact congrArg _ (ih _)

/-- What the calls meet, by way of something else. -/
theorem returned_comp {γ' β : Type} {next : γ' → σ → Option β × σ} (f : γ → γ') (s : σ)
    (gs : List γ) : returned (fun g => next (f g)) s gs = returned next s (gs.map f) := by
  induction gs generalizing s with
  | nil => rfl
  | cons g gs ih => exact congrArg _ (ih _)

/-- **Readers that do the same** return the same. -/
theorem returned_congr {σ' β : Type} {next : γ → σ → Option β × σ} {next' : γ → σ' → Option β × σ'}
    {r : σ → σ' → Prop} {gs : List γ}
    (h : ∀ g ∈ gs, ∀ s s', r s s' → (next g s).1 = (next' g s').1 ∧ r (next g s).2 (next' g s').2)
    {s : σ} {s' : σ'} (hs : r s s') : returned next s gs = returned next' s' gs := by
  induction gs generalizing s s' with
  | nil => rfl
  | cons g gs ih =>
    obtain ⟨hout, hnext⟩ := h g List.mem_cons_self s s' hs
    rw [returned, returned, hout, ih (fun g' hg' => h g' (List.mem_cons_of_mem _ hg')) hnext]

/-! ## One call -/

section Call

variable (limit : Option ℕ) (size : ℕ) (At : List α → σ → Prop) (Done : σ → Prop)

/-- **One call of a reader** that has read something of what there is: what it
returns, and where it stands then. -/
inductive Fetches (result : Except ε (List α)) (read : List α) :
    Option (Except ε (List α)) × σ → Prop
  /-- A piece. -/
  | piece {items rest : List α} {s : σ} : result = .ok (read ++ items ++ rest) →
      items.length = size → At (read ++ items) s → Fetches result read (some (.ok items), s)
  /-- The last piece. -/
  | last {items : List α} {s : σ} : result = .ok (read ++ items) → items ≠ [] →
      items.length ≤ size → Done s → Fetches result read (some (.ok items), s)
  | ended {s : σ} : limit = some read.length ∨ result = .ok read → Done s →
      Fetches result read (none, s)
  | failed {error : ε} {s : σ} : result = .error error → Done s →
      Fetches result read (some (.error error), s)

/-- **A reader**: it stands at what it has read, or it is done and returns
nothing any more. -/
structure IsReader (next : γ → σ → Option (Except ε (List α)) × σ)
    (result : γ → Except ε (List α)) : Prop where
  fetches : ∀ {read s g}, At read s → (∀ records, result g = .ok records → read <+: records) →
    Fetches limit size At Done (result g) read (next g s)
  done : ∀ {s} g, Done s → (next g s).1 = none ∧ Done (next g s).2

end Call

/-! ## Any number of calls -/

/-- What is there now begins with what was there before. -/
def Grows (before now : Except ε (List α)) : Prop :=
  ∀ x, before = .ok x → ∀ y, now = .ok y → x <+: y

/-- **What is returned after the last piece.** -/
inductive Rest (limit : Option ℕ) (results : List (Except ε (List α))) (n : ℕ) (read : List α) :
    List (Option (Except ε (List α))) → Prop
  /-- The last call returned a piece. -/
  | running : results.length = n → Rest limit results n read []
  /-- As many have been read as may be, or all that there were at the last
  piece or at the call after it. -/
  | ended (k : ℕ) : (limit = some read.length ∨ ∃ j, j ≤ n ∧ n ≤ j + 1
      ∧ results[j]? = some (.ok read)) → Rest limit results n read (List.replicate k none)
  | failed {error : ε} (k : ℕ) : results[n]? = some (.error error) →
      Rest limit results n read (some (.error error) :: List.replicate k none)

/-- **Everything is read once**: the pieces make up an initial segment of what
there is from the last piece on. -/
structure ReadOnce (limit : Option ℕ) (size : ℕ) (results : List (Except ε (List α)))
    (pieces : List (List α)) (rest : List (Option (Except ε (List α)))) : Prop where
  initial : ∀ j records, results[j]? = some (.ok records) → pieces.length ≤ j + 1 →
    pieces.flatten <+: records
  sizes : ∀ piece ∈ pieces, piece ≠ [] ∧ piece.length ≤ size
  full : ∀ piece ∈ pieces.dropLast, piece.length = size
  rest : Rest limit results pieces.length pieces.flatten rest

/-- **What is returned if everything is read once.** -/
def ReadsOnce (limit : Option ℕ) (size : ℕ) (results : List (Except ε (List α)))
    (out : List (Option (Except ε (List α)))) : Prop :=
  ∃ (pieces : List (List α)) (rest : List (Option (Except ε (List α)))),
    out = pieces.map (fun piece => some (Except.ok piece)) ++ rest
      ∧ ReadOnce limit size results pieces rest

section Run

variable {limit : Option ℕ} {size : ℕ} {At : List α → σ → Prop} {Done : σ → Prop}
  {next : γ → σ → Option (Except ε (List α)) × σ} {result : γ → Except ε (List α)}

theorem IsReader.returned_done (h : IsReader limit size At Done next result) {s : σ} (hs : Done s)
    (gs : List γ) : returned next s gs = List.replicate gs.length none := by
  induction gs generalizing s with
  | nil => rfl
  | cons g gs ih =>
    obtain ⟨hnone, hdone⟩ := h.done g hs
    rw [returned, hnone, ih hdone]
    rfl

/-- The calls from some point on. -/
theorem IsReader.exists_pieces (h : IsReader limit size At Done next result) (hsize : 0 < size)
    {gs : List γ} (hgrows : (gs.map result).Pairwise Grows) {read : List α} {s : σ}
    (hs : At read s) (hread : ∀ g ∈ gs, ∀ records, result g = .ok records → read <+: records) :
    ∃ (pieces : List (List α)) (rest : List (Option (Except ε (List α)))),
      returned next s gs = pieces.map (fun piece => some (Except.ok piece)) ++ rest
      ∧ (∀ j records, (gs.map result)[j]? = some (.ok records) → pieces.length ≤ j + 1 →
        read ++ pieces.flatten <+: records)
      ∧ (∀ piece ∈ pieces, piece ≠ [] ∧ piece.length ≤ size)
      ∧ (∀ piece ∈ pieces.dropLast, piece.length = size)
      ∧ Rest limit (gs.map result) pieces.length (read ++ pieces.flatten) rest := by
  induction gs generalizing read s with
  | nil => exact ⟨[], [], rfl, fun j _ hj => (by simp at hj), by simp, by simp, .running rfl⟩
  | cons g gs ih =>
    rw [List.map_cons, List.pairwise_cons] at hgrows
    have hfirst := h.fetches hs (hread g List.mem_cons_self)
    rw [returned]
    generalize next g s = out at hfirst
    -- what is there later begins with what was read now
    have hlater : ∀ {all}, result g = .ok all → ∀ g' ∈ gs, ∀ records,
        result g' = .ok records → all <+: records := fun hall g' hg' records hrecords =>
      hgrows.1 _ (List.mem_map_of_mem hg') _ hall _ hrecords
    cases hfirst with
    | @piece items tail s' hall hlength hat =>
      have hmore : ∀ g' ∈ gs, ∀ records, result g' = .ok records →
          read ++ items <+: records := fun g' hg' records hrecords =>
        (List.prefix_append _ tail).trans (hlater hall g' hg' records hrecords)
      obtain ⟨pieces, rest, hout, hinitial, hpieces, hfull, hrest⟩ := ih hgrows.2 hat hmore
      have hne : items ≠ [] := List.ne_nil_of_length_pos (hlength ▸ hsize)
      refine ⟨items :: pieces, rest, ?_, ?_, ?_, ?_, ?_⟩
      · rw [hout]
        rfl
      · intro j records hj hle
        rw [List.flatten_cons, ← List.append_assoc]
        cases j with
        | zero =>
          obtain rfl : pieces = [] := List.eq_nil_of_length_eq_zero (by simpa using hle)
          obtain rfl := Except.ok.inj ((Option.some.inj hj).symm.trans hall)
          simp
        | succ j => exact hinitial j records (by simpa using hj) (by simpa using hle)
      · exact List.forall_mem_cons.mpr ⟨⟨hne, hlength.le⟩, hpieces⟩
      · intro piece hmem
        cases pieces with
        | nil => cases hmem
        | cons p ps =>
          rw [List.dropLast_cons_cons] at hmem
          exact (List.mem_cons.mp hmem).elim (fun heq => heq ▸ hlength) (hfull piece)
      · rw [List.flatten_cons, ← List.append_assoc]
        cases hrest with
        | running hlen => exact .running (congrArg (· + 1) hlen)
        | ended k hend =>
          refine .ended k (hend.imp_right ?_)
          rintro ⟨j, hle, hge, hj⟩
          exact ⟨j + 1, Nat.succ_le_succ hle, Nat.succ_le_succ hge, hj⟩
        | failed k herror => exact .failed k herror
    | @last items s' hall hne hle hdone =>
      refine ⟨[items], List.replicate gs.length none, ?_, ?_, ?_, ?_, ?_⟩
      · rw [h.returned_done hdone]
        rfl
      · intro j records hj _
        rw [List.flatten_singleton]
        cases j with
        | zero =>
          obtain rfl := Except.ok.inj ((Option.some.inj hj).symm.trans hall)
          exact List.prefix_rfl
        | succ j =>
          have hmem := List.mem_of_getElem? (show (gs.map result)[j]? = _ from hj)
          obtain ⟨g', hg', hrecords⟩ := List.mem_map.mp hmem
          exact hlater hall g' hg' records hrecords
      · exact List.forall_mem_singleton.mpr ⟨hne, hle⟩
      · exact fun piece hmem => absurd hmem List.not_mem_nil
      · rw [List.flatten_singleton]
        exact .ended _ (.inr ⟨0, Nat.zero_le _, le_rfl, congrArg some hall⟩)
    | ended hend hdone =>
      refine ⟨[], List.replicate (gs.length + 1) none, ?_, ?_, by simp, by simp, ?_⟩
      · rw [h.returned_done hdone]
        rfl
      · intro j records hj _
        obtain ⟨g', hg', hrecords⟩ := List.mem_map.mp (List.mem_of_getElem? hj)
        rw [List.flatten_nil, List.append_nil]
        exact hread g' hg' records hrecords
      · rw [List.flatten_nil, List.append_nil]
        exact .ended _ (hend.imp_right fun hall => ⟨0, le_rfl, Nat.zero_le _, congrArg some hall⟩)
    | @failed error s' herror hdone =>
      refine ⟨[], some (.error error) :: List.replicate gs.length none, ?_, ?_, by simp, by simp,
        .failed _ (congrArg some herror)⟩
      · rw [h.returned_done hdone]
        rfl
      · intro j records hj _
        obtain ⟨g', hg', hrecords⟩ := List.mem_map.mp (List.mem_of_getElem? hj)
        rw [List.flatten_nil, List.append_nil]
        exact hread g' hg' records hrecords

/-- **A reader reads everything once** while there is more and more. -/
theorem IsReader.readsOnce (h : IsReader limit size At Done next result) (hsize : 0 < size)
    {gs : List γ} (hgrows : (gs.map result).Pairwise Grows) {s : σ} (hs : At [] s) :
    ReadsOnce limit size (gs.map result) (returned next s gs) := by
  obtain ⟨pieces, rest, hout, hinitial, hsizes, hfull, hrest⟩ :=
    h.exists_pieces hsize hgrows hs fun _ _ _ _ => List.nil_prefix
  exact ⟨pieces, rest, hout, hinitial, hsizes, hfull, hrest⟩

end Run

end Reader
