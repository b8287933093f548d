import Mathlib.Data.Finset.Basic

/-!
# Locks and who holds them

A mutex and a lock of readers and writers, with the threads that hold them
and whether they are poisoned. A lock says nothing of what its holders do:
`Mutex.HeldBy` and `RwLock.HeldBy` state that a lock is held exactly by the
threads with some property, say the ones at certain places of a program, and
there is a rule for each operation, for a property that changes at one thread
only.
-/

namespace Sync

variable {Tid : Type}

/-! ## Mutexes -/

/-- **A mutex.** It is poisoned when its holder panics. -/
structure Mutex (Tid : Type) where
  holder : Option Tid
  poisoned : Bool
  deriving DecidableEq

/-- A mutex that was not used. -/
def Mutex.new : Mutex Tid := ⟨none, false⟩

/-- Taking a mutex, unless one has to wait, and whether it is poisoned. It
is held then either way. -/
def Mutex.lock (m : Mutex Tid) (t : Tid) : Option (Bool × Mutex Tid) :=
  match m.holder with
  | none => some (m.poisoned, { m with holder := some t })
  | some _ => none

/-- Giving it back, maybe while panicking. -/
def Mutex.unlock (m : Mutex Tid) (panicking : Bool) : Mutex Tid :=
  ⟨none, m.poisoned || panicking⟩

/-- **The holder of a mutex is the thread with a property.** -/
def Mutex.HeldBy (m : Mutex Tid) (P : Tid → Prop) : Prop := ∀ t, m.holder = some t ↔ P t

namespace Mutex.HeldBy

variable {m m' : Mutex Tid} {P Q : Tid → Prop} {t u : Tid}

theorem eq (h : m.HeldBy P) (ht : P t) (hu : P u) : t = u :=
  Option.some.inj (((h t).mpr ht).symm.trans ((h u).mpr hu))

theorem free (h : m.HeldBy P) (hP : ∀ t, ¬ P t) : m.holder = none :=
  Option.eq_none_iff_forall_ne_some.mpr fun t ht => hP t ((h t).mp ht)

theorem congr (h : m.HeldBy P) (hPQ : ∀ t, Q t ↔ P t) : m.HeldBy Q :=
  fun t => (h t).trans (hPQ t).symm

theorem lock (h : m.HeldBy P) {poisoned : Bool} (hlock : m.lock t = some (poisoned, m'))
    (ht : Q t) (hu : ∀ u, u ≠ t → (Q u ↔ P u)) : m'.HeldBy Q := by
  unfold Mutex.lock at hlock
  split at hlock
  · next hfree =>
    cases hlock
    intro u
    show some t = some u ↔ Q u
    by_cases hut : u = t
    · subst hut
      exact iff_of_true rfl ht
    · rw [hu u hut, ← h u, hfree]
      exact iff_of_false (fun h => hut (Option.some.inj h).symm) (by simp)
  · cases hlock

theorem unlock (h : m.HeldBy P) (ht : P t) (hnot : ¬ Q t) (hu : ∀ u, u ≠ t → (Q u ↔ P u))
    (panicking : Bool) : (m.unlock panicking).HeldBy Q := by
  intro u
  refine iff_of_false (by simp [Mutex.unlock]) fun hq => ?_
  by_cases hut : u = t
  · exact hnot (hut ▸ hq)
  · exact hut (h.eq ((hu u hut).mp hq) ht)

end Mutex.HeldBy

theorem Mutex.exists_lock {m : Mutex Tid} (h : m.holder = none) (t : Tid) :
    ∃ poisoned m', m.lock t = some (poisoned, m') := by
  rw [Mutex.lock, h]
  exact ⟨_, _, rfl⟩

/-! ## Locks of readers and writers -/

/-- **A lock of readers and writers.** Only a writer that panics poisons
it. -/
structure RwLock (Tid : Type) where
  readers : Finset Tid
  writer : Option Tid
  poisoned : Bool

/-- A lock that was not used. -/
def RwLock.new : RwLock Tid := ⟨∅, none, false⟩

/-- Nobody holds the lock. -/
def RwLock.Free (l : RwLock Tid) : Prop := l.readers = ∅ ∧ l.writer = none

instance [DecidableEq Tid] (l : RwLock Tid) : Decidable l.Free :=
  inferInstanceAs (Decidable (_ ∧ _))

/-- Becoming a reader, unless one has to wait for a writer. -/
def RwLock.read [DecidableEq Tid] (l : RwLock Tid) (t : Tid) : Option (Bool × RwLock Tid) :=
  match l.writer with
  | none => some (l.poisoned, { l with readers := insert t l.readers })
  | some _ => none

/-- Becoming the writer, unless one has to wait for anyone. -/
def RwLock.write [DecidableEq Tid] (l : RwLock Tid) (t : Tid) : Option (Bool × RwLock Tid) :=
  if l.Free then some (l.poisoned, { l with writer := some t }) else none

def RwLock.endRead [DecidableEq Tid] (l : RwLock Tid) (t : Tid) : RwLock Tid :=
  { l with readers := l.readers.erase t }

def RwLock.endWrite (l : RwLock Tid) (panicking : Bool) : RwLock Tid :=
  { l with writer := none, poisoned := l.poisoned || panicking }

/-- **The readers and the writer are the threads with some properties**, and
are not there at once. -/
structure RwLock.HeldBy (l : RwLock Tid) (R W : Tid → Prop) : Prop where
  reader : ∀ t, t ∈ l.readers ↔ R t
  writer : ∀ t, l.writer = some t ↔ W t
  alone : ∀ t u, W t → ¬ R u

namespace RwLock.HeldBy

variable {l l' : RwLock Tid} {R R' W W' : Tid → Prop} {t u : Tid}

theorem eq (h : l.HeldBy R W) (ht : W t) (hu : W u) : t = u :=
  Option.some.inj (((h.writer t).mpr ht).symm.trans ((h.writer u).mpr hu))

theorem free (h : l.HeldBy R W) (hR : ∀ t, ¬ R t) (hW : ∀ t, ¬ W t) : l.Free :=
  ⟨Finset.eq_empty_of_forall_notMem fun t ht => hR t ((h.reader t).mp ht),
    Option.eq_none_iff_forall_ne_some.mpr fun t ht => hW t ((h.writer t).mp ht)⟩

theorem congr (h : l.HeldBy R W) (hR : ∀ t, R' t ↔ R t) (hW : ∀ t, W' t ↔ W t) :
    l.HeldBy R' W' :=
  ⟨fun t => (h.reader t).trans (hR t).symm, fun t => (h.writer t).trans (hW t).symm,
    fun t u ht hu => h.alone t u ((hW t).mp ht) ((hR u).mp hu)⟩

variable [DecidableEq Tid]

theorem read (h : l.HeldBy R W) {poisoned : Bool} (hread : l.read t = some (poisoned, l'))
    (ht : R' t) (hR : ∀ u, u ≠ t → (R' u ↔ R u)) (hW : ∀ u, W' u ↔ W u) :
    l'.HeldBy R' W' := by
  unfold RwLock.read at hread
  split at hread
  · next hnone =>
    cases hread
    have hno : ∀ u, ¬ W u := fun u hu => by simpa [hnone] using (h.writer u).mpr hu
    refine ⟨fun u => ?_, fun u => (h.writer u).trans (hW u).symm,
      fun u _ hu => absurd ((hW u).mp hu) (hno u)⟩
    show u ∈ insert t l.readers ↔ R' u
    rw [Finset.mem_insert]
    by_cases hut : u = t
    · subst hut
      exact iff_of_true (.inl rfl) ht
    · rw [hR u hut, ← h.reader u]
      exact or_iff_right hut
  · cases hread

theorem write (h : l.HeldBy R W) {poisoned : Bool} (hwrite : l.write t = some (poisoned, l'))
    (hR : ∀ u, R' u ↔ R u) (ht : W' t) (hW : ∀ u, u ≠ t → (W' u ↔ W u)) :
    l'.HeldBy R' W' := by
  unfold RwLock.write at hwrite
  split at hwrite
  · next hfree =>
    cases hwrite
    have hno : ∀ u, ¬ R' u := fun u hu => by
      simpa [hfree.1] using (h.reader u).mpr ((hR u).mp hu)
    refine ⟨fun u => (h.reader u).trans (hR u).symm, fun u => ?_, fun _ u _ => hno u⟩
    show some t = some u ↔ W' u
    by_cases hut : u = t
    · subst hut
      exact iff_of_true rfl ht
    · rw [hW u hut, ← h.writer u, hfree.2]
      exact iff_of_false (fun h => hut (Option.some.inj h).symm) (by simp)
  · cases hwrite

theorem endRead (h : l.HeldBy R W) (ht : ¬ R' t) (hR : ∀ u, u ≠ t → (R' u ↔ R u))
    (hW : ∀ u, W' u ↔ W u) : (l.endRead t).HeldBy R' W' := by
  have hreader : ∀ u, u ∈ l.readers.erase t ↔ R' u := by
    intro u
    rw [Finset.mem_erase]
    by_cases hut : u = t
    · subst hut
      exact iff_of_false (fun h => h.1 rfl) ht
    · rw [hR u hut, ← h.reader u]
      exact and_iff_right hut
  refine ⟨hreader, fun u => (h.writer u).trans (hW u).symm, fun u v hu hv => ?_⟩
  exact h.alone u v ((hW u).mp hu) ((h.reader v).mp (Finset.mem_of_mem_erase ((hreader v).mpr hv)))

theorem endWrite (h : l.HeldBy R W) (ht : W t) (hR : ∀ u, R' u ↔ R u) (hnot : ¬ W' t)
    (hW : ∀ u, u ≠ t → (W' u ↔ W u)) (panicking : Bool) :
    (l.endWrite panicking).HeldBy R' W' := by
  have hno : ∀ u, ¬ W' u := by
    intro u hu
    by_cases hut : u = t
    · exact hnot (hut ▸ hu)
    · exact hut (h.eq ((hW u hut).mp hu) ht)
  exact ⟨fun u => (h.reader u).trans (hR u).symm,
    fun u => iff_of_false (by simp [RwLock.endWrite]) (hno u), fun u _ hu => absurd hu (hno u)⟩

end RwLock.HeldBy

variable [DecidableEq Tid]

theorem RwLock.exists_read {l : RwLock Tid} (h : l.writer = none) (t : Tid) :
    ∃ poisoned l', l.read t = some (poisoned, l') := by
  rw [RwLock.read, h]
  exact ⟨_, _, rfl⟩

theorem RwLock.exists_write {l : RwLock Tid} (h : l.Free) (t : Tid) :
    ∃ poisoned l', l.write t = some (poisoned, l') :=
  ⟨_, _, if_pos h⟩

end Sync
