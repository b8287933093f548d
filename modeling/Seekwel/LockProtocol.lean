import Mathlib.Algebra.BigOperators.Ring.Finset
import Seekwel.ConnectionManager
import Seekwel.Runs

/-!
# The lock protocol of the connection manager

Whatever the threads do, and in whatever order: the locks are held by the
threads whose guards say so, every connection is in the pool or in one
guard, and as long as a thread sleeps there are enough others that will look
at the pool for every connection in it (`Inv`). So an exclusive closure runs
alone, at most one closure writes, and no connection is lost or shared.

All threads ask for their guards in one order: a connection, the gate, the
writer. A thread that waits for the last of these is never in the way of the
one that it waits for, so some thread can go on, whichever of those that wait
for the gate are admitted when it is free (`lock_protocol`).
-/

namespace Seekwel.ConnectionManager

open Sync (Mutex RwLock)

variable {Tid Conn : Type} [DecidableEq Tid]

/-! ## What steps do -/

theorem stage_put (s : State Tid Conn) (t : Tid) (stage : Stage Conn) (u : Tid) :
    (s.put t stage).stage u = if u = t then stage else s.stage u :=
  Function.update_apply ..

/-- **What a step does**, by cases. -/
inductive Stepped (s : State Tid Conn) (t : Tid) : Action Tid → State Tid Conn → Prop where
  | start {op ops} : s.stage t = .idle → s.ops t = op :: ops →
      Stepped s t .start { s.put t (.acquire op [] (op.requests s.file)) with
        ops := Function.update s.ops t ops }
  | enterPool {op held requests pool} : s.stage t = .acquire op held (.conn :: requests) →
      lock s.pool t = some pool →
      Stepped s t .acquire { s.put t (.checkout op held requests) with pool := pool }
  | startRead {op held requests gate} : s.stage t = .acquire op held (.gateRead :: requests) →
      readLock s.gate t = some gate →
      Stepped s t .acquire
        { s.put t (.acquire op (.gateRead :: held) requests) with gate := gate }
  | startWrite {op held requests gate} : s.stage t = .acquire op held (.gateWrite :: requests) →
      writeLock s.gate t = some gate →
      Stepped s t .acquire
        { s.put t (.acquire op (.gateWrite :: held) requests) with gate := gate }
  | takeWriter {op held requests writer} : s.stage t = .acquire op held (.writer :: requests) →
      lock s.writer t = some writer →
      Stepped s t .acquire
        { s.put t (.acquire op (.writer :: held) requests) with writer := writer }
  | takeConn {op held requests conn conns} : s.stage t = .checkout op held requests →
      s.conns = conn :: conns →
      Stepped s t .checkout { s.put t (.acquire op (.conn conn :: held) requests) with
        conns := conns
        pool := s.pool.unlock false }
  | sleep {op held requests} : s.stage t = .checkout op held requests → s.conns = [] →
      Stepped s t .checkout { s.put t (.asleep op held requests) with
        pool := s.pool.unlock false }
  | wake {op held requests} : s.stage t = .asleep op held requests →
      Stepped s t .wake (s.put t (.acquire op held (.conn :: requests)))
  | refuse {op held} : s.stage t = .acquire op held [] →
      Stepped s t (.call false) (s.put t (.drop op held false))
  | call {op held begun} : s.stage t = .acquire op held [] →
      Stepped s t (.call begun) (s.put t (.inside op held))
  | leave {op held panicking} : s.stage t = .inside op held →
      Stepped s t (.leave panicking) (s.put t (.drop op held panicking))
  | dropConn {op conn held panicking pool} : s.stage t = .drop op (.conn conn :: held) panicking →
      lock s.pool t = some pool →
      Stepped s t .drop { s.put t (.checkin op conn held panicking) with pool := pool }
  | endRead {op held panicking} : s.stage t = .drop op (.gateRead :: held) panicking →
      Stepped s t .drop { s.put t (.drop op held panicking) with gate := s.gate.endRead t }
  | endWrite {op held panicking} : s.stage t = .drop op (.gateWrite :: held) panicking →
      Stepped s t .drop
        { s.put t (.drop op held panicking) with gate := s.gate.endWrite panicking }
  | dropWriter {op held panicking} : s.stage t = .drop op (.writer :: held) panicking →
      Stepped s t .drop
        { s.put t (.drop op held panicking) with writer := s.writer.unlock panicking }
  | checkin {op conn held panicking} : s.stage t = .checkin op conn held panicking →
      Stepped s t .checkin
        { s.put t (.notify op held panicking) with conns := conn :: s.conns }
  | notify {op held panicking u op' held' requests} : s.stage t = .notify op held panicking →
      s.stage u = .asleep op' held' requests →
      Stepped s t (.notify (some u)) { (s.put t (.drop op held panicking)).put u
        (.acquire op' held' (.conn :: requests)) with pool := s.pool.unlock false }
  | notifyNone {op held panicking} : s.stage t = .notify op held panicking →
      (∀ u, (s.stage u).isAsleep = false) →
      Stepped s t (.notify none)
        { s.put t (.drop op held panicking) with pool := s.pool.unlock false }
  | finish {op panicking caught} : s.stage t = .drop op [] panicking →
      Stepped s t (.finish caught) { s.put t .idle with
        ops := if panicking = true ∧ caught = false then Function.update s.ops t []
          else s.ops }

theorem stepped_of_step [Fintype Tid] {s s' : State Tid Conn} {t : Tid} {action : Action Tid}
    (h : s.step (t, action) = some s') : Stepped s t action s' := by
  cases action with
  | start =>
    simp only [State.step] at h
    split at h
    · cases h
      exact .start ‹_› ‹_›
    · cases h
  | acquire =>
    simp only [State.step] at h
    split at h
    · next op held request requests hstage =>
      cases request with
      | conn =>
        obtain ⟨pool, hpool, rfl⟩ := Option.map_eq_some_iff.mp h
        exact .enterPool hstage hpool
      | gateRead =>
        obtain ⟨gate, hgate, rfl⟩ := Option.map_eq_some_iff.mp h
        exact .startRead hstage hgate
      | gateWrite =>
        obtain ⟨gate, hgate, rfl⟩ := Option.map_eq_some_iff.mp h
        exact .startWrite hstage hgate
      | writer =>
        obtain ⟨writer, hwriter, rfl⟩ := Option.map_eq_some_iff.mp h
        exact .takeWriter hstage hwriter
    · cases h
  | checkout =>
    simp only [State.step] at h
    split at h
    · cases h
      exact .takeConn ‹_› ‹_›
    · cases h
      exact .sleep ‹_› ‹_›
    · cases h
  | wake =>
    simp only [State.step] at h
    split at h
    · cases h
      exact .wake ‹_›
    · cases h
  | call begun =>
    simp only [State.step] at h
    split at h
    · split at h
      · next hstage hbegun =>
        cases h
        obtain ⟨-, rfl⟩ := hbegun
        exact .refuse hstage
      · cases h
        exact .call ‹_›
    · cases h
  | leave panicking =>
    simp only [State.step] at h
    split at h
    · cases h
      exact .leave ‹_›
    · cases h
  | drop =>
    simp only [State.step] at h
    split at h
    · next op guard held panicking hstage =>
      cases guard with
      | conn conn =>
        obtain ⟨pool, hpool, rfl⟩ := Option.map_eq_some_iff.mp h
        exact .dropConn hstage hpool
      | gateRead =>
        cases h
        exact .endRead hstage
      | gateWrite =>
        cases h
        exact .endWrite hstage
      | writer =>
        cases h
        exact .dropWriter hstage
    · cases h
  | checkin =>
    simp only [State.step] at h
    split at h
    · cases h
      exact .checkin ‹_›
    · cases h
  | notify woken =>
    simp only [State.step] at h
    split at h
    · split at h
      · cases h
        exact .notify ‹_› ‹_›
      · cases h
    · split at h
      · cases h
        exact .notifyNone ‹_› ‹_›
      · cases h
    · cases h
  | finish caught =>
    simp only [State.step] at h
    split at h
    · cases h
      exact .finish ‹_›
    · cases h

/-! ## Guards -/

/-- The guards that a thread holds. -/
def State.held (s : State Tid Conn) (t : Tid) : List (Guard Conn) := (s.stage t).held

/-- **What a step means for the guards of its thread**: they stay, or one
comes or goes together with what it guards. -/
inductive Moves (s s' : State Tid Conn) (t : Tid) : Prop where
  | keep : s'.held t = s.held t → s'.conns = s.conns → s'.gate = s.gate →
      s'.writer = s.writer → Moves s s' t
  | takeConn (conn : Conn) : s'.held t = .conn conn :: s.held t →
      s.conns = conn :: s'.conns → s'.gate = s.gate → s'.writer = s.writer → Moves s s' t
  | putConn (conn : Conn) : s.held t = .conn conn :: s'.held t →
      s'.conns = conn :: s.conns → s'.gate = s.gate → s'.writer = s.writer → Moves s s' t
  | startRead : s'.held t = .gateRead :: s.held t → s'.conns = s.conns →
      readLock s.gate t = some s'.gate → s'.writer = s.writer → Moves s s' t
  | endRead : s.held t = .gateRead :: s'.held t → s'.conns = s.conns →
      s'.gate = s.gate.endRead t → s'.writer = s.writer → Moves s s' t
  | startWrite : s'.held t = .gateWrite :: s.held t → s'.conns = s.conns →
      writeLock s.gate t = some s'.gate → s'.writer = s.writer → Moves s s' t
  | endWrite (panicking : Bool) : s.held t = .gateWrite :: s'.held t → s'.conns = s.conns →
      s'.gate = s.gate.endWrite panicking → s'.writer = s.writer → Moves s s' t
  | takeWriter : s'.held t = .writer :: s.held t → s'.conns = s.conns → s'.gate = s.gate →
      lock s.writer t = some s'.writer → Moves s s' t
  | dropWriter (panicking : Bool) : s.held t = .writer :: s'.held t → s'.conns = s.conns →
      s'.gate = s.gate → s'.writer = s.writer.unlock panicking → Moves s s' t

variable {s s' : State Tid Conn} {t : Tid} {action : Action Tid}

section

variable {before after : Stage Conn} {guard : Guard Conn}

theorem held_keep (hbefore : s.stage t = before) (hafter : s'.stage = (s.put t after).stage)
    (h : after.held = before.held) : s'.held t = s.held t := by
  rw [State.held, hafter, stage_put, if_pos rfl, State.held, hbefore, h]

theorem held_push (hbefore : s.stage t = before) (hafter : s'.stage = (s.put t after).stage)
    (h : after.held = guard :: before.held) : s'.held t = guard :: s.held t := by
  rw [State.held, hafter, stage_put, if_pos rfl, State.held, hbefore, h]

theorem held_pop (hbefore : s.stage t = before) (hafter : s'.stage = (s.put t after).stage)
    (h : before.held = guard :: after.held) : s.held t = guard :: s'.held t := by
  rw [State.held, State.held, hafter, stage_put, if_pos rfl, hbefore, h]

end

theorem Stepped.moves (h : Stepped s t action s') : Moves s s' t := by
  cases h with
  | start hstage _ => exact .keep (held_keep hstage rfl rfl) rfl rfl rfl
  | enterPool hstage _ => exact .keep (held_keep hstage rfl rfl) rfl rfl rfl
  | startRead hstage hgate => exact .startRead (held_push hstage rfl rfl) rfl hgate rfl
  | startWrite hstage hgate => exact .startWrite (held_push hstage rfl rfl) rfl hgate rfl
  | takeWriter hstage hwriter => exact .takeWriter (held_push hstage rfl rfl) rfl rfl hwriter
  | takeConn hstage hconns => exact .takeConn _ (held_push hstage rfl rfl) hconns rfl rfl
  | sleep hstage _ => exact .keep (held_keep hstage rfl rfl) rfl rfl rfl
  | wake hstage => exact .keep (held_keep hstage rfl rfl) rfl rfl rfl
  | refuse hstage => exact .keep (held_keep hstage rfl rfl) rfl rfl rfl
  | call hstage => exact .keep (held_keep hstage rfl rfl) rfl rfl rfl
  | leave hstage => exact .keep (held_keep hstage rfl rfl) rfl rfl rfl
  | dropConn hstage _ => exact .keep (held_keep hstage rfl rfl) rfl rfl rfl
  | endRead hstage => exact .endRead (held_pop hstage rfl rfl) rfl rfl rfl
  | endWrite hstage => exact .endWrite _ (held_pop hstage rfl rfl) rfl rfl rfl
  | dropWriter hstage => exact .dropWriter _ (held_pop hstage rfl rfl) rfl rfl rfl
  | checkin hstage => exact .putConn _ (held_pop hstage rfl rfl) rfl rfl rfl
  | @notify op held panicking u op' held' requests hstage hasleep =>
    have hne : t ≠ u := fun h => by
      rw [h, hasleep] at hstage
      cases hstage
    refine .keep ?_ rfl rfl rfl
    show (((s.put t _).put u _).stage t).held = _
    rw [stage_put, if_neg hne]
    exact held_keep hstage rfl rfl
  | notifyNone hstage _ => exact .keep (held_keep hstage rfl rfl) rfl rfl rfl
  | finish hstage => exact .keep (held_keep hstage rfl rfl) rfl rfl rfl

/-- Other threads keep their guards. -/
theorem Stepped.held_of_ne (h : Stepped s t action s') {u : Tid} (hu : u ≠ t) :
    s'.held u = s.held u := by
  have hput : ∀ {s' : State Tid Conn} {stage : Stage Conn}, s'.stage = (s.put t stage).stage →
      s'.held u = s.held u := by
    intro s' stage h
    rw [State.held, h, stage_put, if_neg hu, State.held]
  cases h with
  | @notify op held panicking v op' held' requests hstage hasleep =>
    show (((s.put t _).put v _).stage u).held = _
    rw [stage_put]
    split
    · next huv =>
      rw [huv, State.held, hasleep]
      rfl
    · exact hput rfl
  | _ => exact hput rfl

/-! ## Stages that are possible -/

/-- **A stage of an operation**: what is held and what is still asked for
make up what the operation asks for, before the closure, and what is held is
a part of it after. -/
def Stage.WellFormed (file : Bool) : Stage Conn → Prop
  | idle => True
  | acquire op held requests =>
    (held.map Guard.request).reverse ++ requests = op.requests file
  | checkout op held requests | asleep op held requests =>
    (held.map Guard.request).reverse ++ .conn :: requests = op.requests file
  | inside op held => (held.map Guard.request).reverse = op.requests file
  | drop op held _ | notify op held _ =>
    (held.map Guard.request).reverse <+: op.requests file
  | checkin op conn held _ =>
    ((Guard.conn conn :: held).map Guard.request).reverse <+: op.requests file

theorem Stage.WellFormed.prefix {file : Bool} {stage : Stage Conn} (h : stage.WellFormed file) :
    ∃ op : Op, (stage.held.map Guard.request).reverse <+: op.requests file := by
  cases stage with
  | idle => exact ⟨.read, List.nil_prefix⟩
  | acquire op held requests => exact ⟨op, _, h⟩
  | checkout op held requests => exact ⟨op, _, h⟩
  | asleep op held requests => exact ⟨op, _, h⟩
  | inside op held => exact ⟨op, [], (List.append_nil _).trans h⟩
  | drop op held panicking => exact ⟨op, h⟩
  | checkin op conn held panicking => exact ⟨op, h⟩
  | notify op held panicking => exact ⟨op, h⟩

theorem nodup_requests (op : Op) (file : Bool) : (op.requests file).Nodup := by
  cases op <;> cases file <;> decide

/-- A thread does not get the same guard twice. -/
theorem Stage.WellFormed.nodup {file : Bool} {stage : Stage Conn} (h : stage.WellFormed file) :
    (stage.held.map Guard.request).Nodup := by
  obtain ⟨op, hop⟩ := h.prefix
  exact List.nodup_reverse.mp ((nodup_requests op file).sublist hop.sublist)

theorem Stepped.file_eq (h : Stepped s t action s') : s'.file = s.file := by
  cases h <;> rfl

section

variable {op : Op} {held : List (Guard Conn)} {file : Bool}

theorem requests_push (guard : Guard Conn) {requests : List Request}
    (h : (held.map Guard.request).reverse ++ guard.request :: requests = op.requests file) :
    ((guard :: held).map Guard.request).reverse ++ requests = op.requests file := by
  rw [← h]
  simp

theorem prefix_pop {guard : Guard Conn}
    (h : ((guard :: held).map Guard.request).reverse <+: op.requests file) :
    (held.map Guard.request).reverse <+: op.requests file := by
  rw [List.map_cons, List.reverse_cons] at h
  exact (List.prefix_append _ _).trans h

end

/-- **Steps lead to possible stages.** -/
theorem Stepped.wellFormed (h : Stepped s t action s')
    (hs : ∀ u, (s.stage u).WellFormed s.file) (u : Tid) : (s'.stage u).WellFormed s'.file := by
  rw [h.file_eq]
  have hput : ∀ {before after : Stage Conn}, s.stage t = before →
      (before.WellFormed s.file → after.WellFormed s.file) →
      ((s.put t after).stage u).WellFormed s.file := by
    intro before after hbefore hafter
    rw [stage_put]
    split
    · exact hafter (hbefore ▸ hs t)
    · exact hs u
  cases h with
  | start hstage _ => exact hput hstage fun _ => rfl
  | enterPool hstage _ => exact hput hstage id
  | startRead hstage _ => exact hput hstage (requests_push .gateRead)
  | startWrite hstage _ => exact hput hstage (requests_push .gateWrite)
  | takeWriter hstage _ => exact hput hstage (requests_push .writer)
  | takeConn hstage _ => exact hput hstage (requests_push (.conn _))
  | sleep hstage _ => exact hput hstage id
  | wake hstage => exact hput hstage id
  | refuse hstage => exact hput hstage fun h => ⟨[], h⟩
  | call hstage => exact hput hstage fun h => (List.append_nil _).symm.trans h
  | leave hstage => exact hput hstage fun h => ⟨[], (List.append_nil _).trans h⟩
  | dropConn hstage _ => exact hput hstage id
  | endRead hstage => exact hput hstage prefix_pop
  | endWrite hstage => exact hput hstage prefix_pop
  | dropWriter hstage => exact hput hstage prefix_pop
  | checkin hstage => exact hput hstage prefix_pop
  | @notify op held panicking v op' held' requests hstage hasleep =>
    show (((s.put t _).put v _).stage u).WellFormed s.file
    rw [stage_put]
    split
    · have hv := hs v
      rw [hasleep] at hv
      exact hv
    · exact hput hstage id
  | notifyNone hstage _ => exact hput hstage id
  | finish hstage => exact hput hstage fun _ => trivial

/-! ## The locks and the connections -/

/-- **The connections** are in the pool or held, by one thread each. -/
structure Pooled (all : List Conn) (s : State Tid Conn) : Prop where
  nodup : s.conns.Nodup
  apart : ∀ t conn, .conn conn ∈ s.held t → conn ∉ s.conns
  one : ∀ t u conn, .conn conn ∈ s.held t → .conn conn ∈ s.held u → t = u
  mem_iff : ∀ conn, conn ∈ all ↔ conn ∈ s.conns ∨ ∃ t, .conn conn ∈ s.held t

section

omit [DecidableEq Tid]

variable {all : List Conn}

theorem Pooled.congr (h : Pooled all s) (hconns : s'.conns = s.conns)
    (hheld : ∀ u conn, .conn conn ∈ s'.held u ↔ .conn conn ∈ s.held u) : Pooled all s' := by
  constructor
  · rw [hconns]
    exact h.nodup
  · intro u conn hu
    rw [hconns]
    exact h.apart u conn ((hheld u conn).mp hu)
  · intro u v conn hu hv
    exact h.one u v conn ((hheld u conn).mp hu) ((hheld v conn).mp hv)
  · intro conn
    simp only [hconns, hheld]
    exact h.mem_iff conn

theorem Pooled.take (h : Pooled all s) {conn : Conn} (hconns : s.conns = conn :: s'.conns)
    (ht : s'.held t = .conn conn :: s.held t) (hne : ∀ u, u ≠ t → s'.held u = s.held u) :
    Pooled all s' := by
  have hnodup := h.nodup
  rw [hconns, List.nodup_cons] at hnodup
  -- Who has a connection had it before, or took it from the pool just now.
  have hheld : ∀ u c, .conn c ∈ s'.held u ↔ .conn c ∈ s.held u ∨ u = t ∧ c = conn := by
    intro u c
    by_cases hu : u = t
    · subst hu
      simp [ht, or_comm]
    · simp [hne u hu, hu]
  have hnew : ∀ u, .conn conn ∉ s.held u := fun u hu =>
    h.apart u conn hu (by simp [hconns])
  constructor
  · exact hnodup.2
  · intro u c hu hc
    rcases (hheld u c).mp hu with hu | ⟨-, rfl⟩
    · exact h.apart u c hu (by simp [hconns, hc])
    · exact hnodup.1 hc
  · intro u v c hu hv
    rcases (hheld u c).mp hu with hu | ⟨rfl, rfl⟩ <;> rcases (hheld v c).mp hv with hv | ⟨rfl, hc⟩
    · exact h.one u v c hu hv
    · exact absurd (hc ▸ hu) (hnew u)
    · exact absurd hv (hnew v)
    · rfl
  · intro c
    rw [h.mem_iff c, hconns, List.mem_cons]
    simp only [hheld, exists_or, exists_eq_left]
    grind

theorem Pooled.put (h : Pooled all s) {conn : Conn} (hconns : s'.conns = conn :: s.conns)
    (ht : s.held t = .conn conn :: s'.held t) (hnot : .conn conn ∉ s'.held t)
    (hne : ∀ u, u ≠ t → s'.held u = s.held u) : Pooled all s' := by
  have hmem : .conn conn ∈ s.held t := by simp [ht]
  have hheld : ∀ u c, .conn c ∈ s.held u ↔ .conn c ∈ s'.held u ∨ u = t ∧ c = conn := by
    intro u c
    by_cases hu : u = t
    · subst hu
      simp [ht, or_comm]
    · simp [hne u hu, hu]
  have hgone : ∀ u, .conn conn ∉ s'.held u := by
    intro u hu
    by_cases hut : u = t
    · exact hnot (hut ▸ hu)
    · exact hut (h.one u t conn (hne u hut ▸ hu) hmem)
  constructor
  · rw [hconns, List.nodup_cons]
    exact ⟨h.apart t conn hmem, h.nodup⟩
  · intro u c hu hc
    rw [hconns, List.mem_cons] at hc
    rcases hc with rfl | hc
    · exact hgone u hu
    · exact h.apart u c ((hheld u c).mpr (.inl hu)) hc
  · intro u v c hu hv
    exact h.one u v c ((hheld u c).mpr (.inl hu)) ((hheld v c).mpr (.inl hv))
  · intro c
    rw [h.mem_iff c, hconns, List.mem_cons]
    simp only [hheld, exists_or, exists_eq_left]
    grind

end

/-- **Guards are what they say**: who has a guard holds what it guards. -/
structure Guarded (all : List Conn) (s : State Tid Conn) : Prop where
  writer : s.writer.HeldBy fun t => .writer ∈ s.held t
  gate : s.gate.HeldBy (fun t => .gateRead ∈ s.held t) (fun t => .gateWrite ∈ s.held t)
  conns : Pooled all s

/-- A lock that is taken, poisoned or not. -/
theorem exists_of_map_snd {α β : Type} {x : Option (α × β)} {b : β}
    (h : x.map Prod.snd = some b) : ∃ a, x = some (a, b) := by
  obtain ⟨⟨a, _⟩, hx, rfl⟩ := Option.map_eq_some_iff.mp h
  exact ⟨a, hx⟩

/-- A guard that came is new, and one that went is gone. -/
theorem Guarded.moved {all : List Conn} (h : Guarded all s) (hm : Moves s s' t)
    (hne : ∀ u, u ≠ t → s'.held u = s.held u)
    (hnodup : ((s.held t).map Guard.request).Nodup) : Guarded all s' := by
  -- What the guards of all threads have in common, if it is so for this thread's.
  have hother : ∀ (g : Guard Conn) (u : Tid), u ≠ t → (g ∈ s'.held u ↔ g ∈ s.held u) :=
    fun g u hu => by rw [hne u hu]
  have hall : ∀ g : Guard Conn, (g ∈ s'.held t ↔ g ∈ s.held t) →
      ∀ u, g ∈ s'.held u ↔ g ∈ s.held u := by
    intro g hg u
    by_cases hu : u = t
    · rw [hu]
      exact hg
    · exact hother g u hu
  cases hm with
  | keep hheld hconns hgate hwriter =>
    have hsame : ∀ g : Guard Conn, ∀ u, g ∈ s'.held u ↔ g ∈ s.held u := fun g =>
      hall g (by rw [hheld])
    exact ⟨hwriter ▸ h.writer.congr (hsame _), hgate ▸ h.gate.congr (hsame _) (hsame _),
      h.conns.congr hconns fun u conn => hsame _ u⟩
  | takeConn conn hheld hconns hgate hwriter =>
    exact ⟨hwriter ▸ h.writer.congr (hall _ (by simp [hheld])),
      hgate ▸ h.gate.congr (hall _ (by simp [hheld])) (hall _ (by simp [hheld])),
      h.conns.take hconns hheld hne⟩
  | putConn conn hheld hconns hgate hwriter =>
    rw [hheld, List.map_cons, List.nodup_cons] at hnodup
    exact ⟨hwriter ▸ h.writer.congr (hall _ (by simp [hheld])),
      hgate ▸ h.gate.congr (hall _ (by simp [hheld])) (hall _ (by simp [hheld])),
      h.conns.put hconns hheld (fun hg => hnodup.1 (List.mem_map_of_mem hg)) hne⟩
  | startRead hheld hconns hgate hwriter =>
    obtain ⟨poisoned, hread⟩ := exists_of_map_snd hgate
    exact ⟨hwriter ▸ h.writer.congr (hall _ (by simp [hheld])),
      h.gate.read hread (by simp [hheld]) (hother _) (hall _ (by simp [hheld])),
      h.conns.congr hconns fun u conn => hall _ (by simp [hheld]) u⟩
  | endRead hheld hconns hgate hwriter =>
    rw [hheld, List.map_cons, List.nodup_cons] at hnodup
    exact ⟨hwriter ▸ h.writer.congr (hall _ (by simp [hheld])),
      hgate ▸ h.gate.endRead (fun hg => hnodup.1 (List.mem_map_of_mem hg)) (hother _)
        (hall _ (by simp [hheld])),
      h.conns.congr hconns fun u conn => hall _ (by simp [hheld]) u⟩
  | startWrite hheld hconns hgate hwriter =>
    obtain ⟨poisoned, hwrite⟩ := exists_of_map_snd hgate
    exact ⟨hwriter ▸ h.writer.congr (hall _ (by simp [hheld])),
      h.gate.write hwrite (hall _ (by simp [hheld])) (by simp [hheld]) (hother _),
      h.conns.congr hconns fun u conn => hall _ (by simp [hheld]) u⟩
  | endWrite panicking hheld hconns hgate hwriter =>
    rw [hheld, List.map_cons, List.nodup_cons] at hnodup
    exact ⟨hwriter ▸ h.writer.congr (hall _ (by simp [hheld])),
      hgate ▸ h.gate.endWrite (by simp [hheld]) (hall _ (by simp [hheld]))
        (fun hg => hnodup.1 (List.mem_map_of_mem hg)) (hother _) panicking,
      h.conns.congr hconns fun u conn => hall _ (by simp [hheld]) u⟩
  | takeWriter hheld hconns hgate hwriter =>
    obtain ⟨poisoned, hlock⟩ := exists_of_map_snd hwriter
    exact ⟨h.writer.lock hlock (by simp [hheld]) (hother _),
      hgate ▸ h.gate.congr (hall _ (by simp [hheld])) (hall _ (by simp [hheld])),
      h.conns.congr hconns fun u conn => hall _ (by simp [hheld]) u⟩
  | dropWriter panicking hheld hconns hgate hwriter =>
    rw [hheld, List.map_cons, List.nodup_cons] at hnodup
    exact ⟨hwriter ▸ h.writer.unlock (by simp [hheld])
        (fun hg => hnodup.1 (List.mem_map_of_mem hg)) (hother _) panicking,
      hgate ▸ h.gate.congr (hall _ (by simp [hheld])) (hall _ (by simp [hheld])),
      h.conns.congr hconns fun u conn => hall _ (by simp [hheld]) u⟩

/-! ## The pool -/

/-- **The mutex of the pool** is with the thread at one of its stages. -/
theorem Stepped.pool (h : Stepped s t action s')
    (hs : s.pool.HeldBy fun u => (s.stage u).locksPool = true) :
    s'.pool.HeldBy fun u => (s'.stage u).locksPool = true := by
  have hself : ∀ {after : Stage Conn}, ((s.put t after).stage t).locksPool = after.locksPool := by
    intro after
    rw [stage_put, if_pos rfl]
  have hother : ∀ {after : Stage Conn} (u : Tid), u ≠ t →
      (((s.put t after).stage u).locksPool = true ↔ (s.stage u).locksPool = true) := by
    intro after u hu
    rw [stage_put, if_neg hu]
  have hsame : ∀ {before after : Stage Conn}, s.stage t = before →
      after.locksPool = before.locksPool →
      s.pool.HeldBy fun u => ((s.put t after).stage u).locksPool = true := by
    intro before after hbefore hlocks
    refine hs.congr fun u => ?_
    by_cases hu : u = t
    · rw [hu, hself, hbefore, hlocks]
    · exact hother u hu
  have hlock : ∀ {after : Stage Conn} {pool : Mutex Tid}, lock s.pool t = some pool →
      after.locksPool = true →
      pool.HeldBy fun u => ((s.put t after).stage u).locksPool = true := by
    intro after pool hpool hlocks
    obtain ⟨poisoned, hpool⟩ := exists_of_map_snd hpool
    exact hs.lock hpool (hself.trans hlocks) hother
  have hunlock : ∀ {before after : Stage Conn}, s.stage t = before → before.locksPool = true →
      after.locksPool = false →
      (s.pool.unlock false).HeldBy fun u => ((s.put t after).stage u).locksPool = true := by
    intro before after hbefore hlocks hnot
    refine hs.unlock (by rw [hbefore, hlocks]) ?_ hother false
    rw [hself, hnot]
    exact Bool.false_ne_true
  cases h with
  | start hstage _ => exact hsame hstage rfl
  | enterPool hstage hpool => exact hlock hpool rfl
  | startRead hstage _ => exact hsame hstage rfl
  | startWrite hstage _ => exact hsame hstage rfl
  | takeWriter hstage _ => exact hsame hstage rfl
  | takeConn hstage _ => exact hunlock hstage rfl rfl
  | sleep hstage _ => exact hunlock hstage rfl rfl
  | wake hstage => exact hsame hstage rfl
  | refuse hstage => exact hsame hstage rfl
  | call hstage => exact hsame hstage rfl
  | leave hstage => exact hsame hstage rfl
  | dropConn hstage hpool => exact hlock hpool rfl
  | endRead hstage => exact hsame hstage rfl
  | endWrite hstage => exact hsame hstage rfl
  | dropWriter hstage => exact hsame hstage rfl
  | checkin hstage => exact hsame hstage rfl
  | @notify op held panicking v op' held' requests hstage hasleep =>
    have hdrop : (s.pool.unlock false).HeldBy fun u =>
        ((s.put t (.drop op held panicking)).stage u).locksPool = true :=
      hunlock hstage rfl rfl
    refine hdrop.congr fun u => ?_
    show (((s.put t _).put v _).stage u).locksPool = true ↔ _
    rw [stage_put]
    split
    · next huv =>
      have hut : u ≠ t := fun h => by
        rw [← huv, h, hstage] at hasleep
        cases hasleep
      rw [stage_put, if_neg hut, huv, hasleep]
      exact Iff.rfl
    · exact Iff.rfl
  | notifyNone hstage _ => exact hunlock hstage rfl rfl
  | finish hstage => exact hsame hstage rfl

/-- A thread that will look at the pool, or wake one that will. -/
def Stage.awake : Stage Conn → Bool
  | acquire _ _ (.conn :: _) | checkout .. | notify .. => true
  | _ => false

section Awake

variable [Fintype Tid]

/-- How many threads will look at the pool. -/
def State.awake (s : State Tid Conn) : ℕ := ∑ t, (s.stage t).awake.toNat

/-- **No connection is left in the pool for which all wait**: there are as
many threads that will look at the pool as connections in it. -/
def State.Watched (s : State Tid Conn) : Prop :=
  (∃ t, (s.stage t).isAsleep = true) → s.conns.length ≤ s.awake

theorem awake_put (stage : Stage Conn) (h : s'.stage = (s.put t stage).stage) :
    s'.awake + (s.stage t).awake.toNat = s.awake + stage.awake.toNat := by
  have hsum : ∀ u, ((s'.stage u).awake).toNat
      = Function.update (fun u => (s.stage u).awake.toNat) t stage.awake.toNat u := by
    intro u
    rw [h, stage_put, Function.update_apply]
    split <;> rfl
  have hsplit := Finset.add_sum_erase Finset.univ (fun u => (s.stage u).awake.toNat)
    (Finset.mem_univ t)
  rw [State.awake, State.awake, Finset.sum_congr rfl fun u _ => hsum u,
    Finset.sum_update_of_mem (Finset.mem_univ t), Finset.sdiff_singleton_eq_erase, ← hsplit]
  omega

/-- A thread that does not fall asleep, with the connections that it puts
into the pool or takes from there. -/
theorem watched_put {before after : Stage Conn} (hs : s.Watched) (hbefore : s.stage t = before)
    (h : s'.stage = (s.put t after).stage) (hafter : after.isAsleep = false)
    (hconns : s'.conns.length + before.awake.toNat ≤ s.conns.length + after.awake.toNat) :
    s'.Watched := by
  rintro ⟨u, hu⟩
  have hut : u ≠ t := fun hut => by
    rw [hut, h, stage_put, if_pos rfl, hafter] at hu
    cases hu
  rw [h, stage_put, if_neg hut] at hu
  have hlength := hs ⟨u, hu⟩
  have hawake := awake_put after h
  rw [hbefore] at hawake
  omega

/-- **Steps keep the pool watched.** -/
theorem Stepped.watched (h : Stepped s t action s') (hs : s.Watched) : s'.Watched := by
  cases h with
  | start hstage _ => exact watched_put hs hstage rfl rfl (Nat.le_add_right _ _)
  | enterPool hstage _ => exact watched_put hs hstage rfl rfl le_rfl
  | startRead hstage _ => exact watched_put hs hstage rfl rfl (Nat.le_add_right _ _)
  | startWrite hstage _ => exact watched_put hs hstage rfl rfl (Nat.le_add_right _ _)
  | takeWriter hstage _ => exact watched_put hs hstage rfl rfl (Nat.le_add_right _ _)
  | takeConn hstage hconns =>
    refine watched_put hs hstage rfl rfl ?_
    rw [hconns]
    exact Nat.le_add_right _ _
  | sleep hstage hconns =>
    rintro -
    show s.conns.length ≤ _
    rw [hconns]
    exact Nat.zero_le _
  | wake hstage => exact watched_put hs hstage rfl rfl (Nat.le_add_right _ _)
  | refuse hstage => exact watched_put hs hstage rfl rfl le_rfl
  | call hstage => exact watched_put hs hstage rfl rfl le_rfl
  | leave hstage => exact watched_put hs hstage rfl rfl le_rfl
  | dropConn hstage _ => exact watched_put hs hstage rfl rfl le_rfl
  | endRead hstage => exact watched_put hs hstage rfl rfl le_rfl
  | endWrite hstage => exact watched_put hs hstage rfl rfl le_rfl
  | dropWriter hstage => exact watched_put hs hstage rfl rfl le_rfl
  | checkin hstage => exact watched_put hs hstage rfl rfl le_rfl
  | @notify op held panicking v op' held' requests hstage hasleep =>
    -- The sleeper that wakes up makes up for the thread that woke it.
    rintro -
    have hlength := hs ⟨v, by rw [hasleep]; rfl⟩
    have hdrop : (s.put t (.drop op held panicking)).awake + 1 = s.awake := by
      have h := awake_put (s := s) (t := t) (.drop op held panicking) rfl
      rw [hstage] at h
      exact h
    have hv : (s.put t (.drop op held panicking)).stage v = .asleep op' held' requests := by
      have hvt : v ≠ t := fun h => by
        rw [← h, hasleep] at hstage
        cases hstage
      rw [stage_put, if_neg hvt, hasleep]
    have hwake : ((s.put t (.drop op held panicking)).put v
        (.acquire op' held' (.conn :: requests))).awake
          = (s.put t (.drop op held panicking)).awake + 1 := by
      have h := awake_put (s := s.put t (.drop op held panicking)) (t := v)
        (.acquire op' held' (.conn :: requests)) rfl
      rw [hv] at h
      exact h
    show s.conns.length ≤ ((s.put t _).put v _).awake
    omega
  | @notifyNone op held panicking hstage hasleep =>
    rintro ⟨u, hu⟩
    replace hu : ((s.put t (.drop op held panicking)).stage u).isAsleep = true := hu
    rw [stage_put] at hu
    split at hu
    · cases hu
    · rw [hasleep u] at hu
      cases hu
  | finish hstage => exact watched_put hs hstage rfl rfl le_rfl

end Awake

/-! ## The invariant -/

section Invariant

variable [Fintype Tid]

/-- **What holds in every state**, whatever the threads do. -/
structure Inv (readers : Option (List Conn)) (s : State Tid Conn) : Prop where
  file : s.file = readers.isSome
  wellFormed : ∀ t, (s.stage t).WellFormed s.file
  guarded : Guarded (readers.getD []) s
  pool : s.pool.HeldBy fun t => (s.stage t).locksPool = true
  watched : s.Watched

variable {readers : Option (List Conn)}

omit [DecidableEq Tid] in
theorem inv_start (hnodup : ∀ conns ∈ readers, conns.Nodup) (ops : Tid → List Op) :
    Inv readers (State.start readers ops) where
  file := rfl
  wellFormed _ := trivial
  guarded :=
    { writer := fun t => by simp [State.start, Mutex.new, State.held, Stage.held]
      gate := ⟨fun t => by simp [State.start, RwLock.new, State.held, Stage.held],
        fun t => by simp [State.start, RwLock.new, State.held, Stage.held],
        fun t u ht => by simp [State.start, State.held, Stage.held] at ht⟩
      conns :=
        { nodup := by
            cases readers with
            | none => exact List.nodup_nil
            | some conns => exact hnodup conns rfl
          apart := fun t conn h => by simp [State.start, State.held, Stage.held] at h
          one := fun t u conn h => by simp [State.start, State.held, Stage.held] at h
          mem_iff := fun conn => by simp [State.start, State.held, Stage.held] } }
  pool := fun t => by simp [State.start, Mutex.new, Stage.locksPool]
  watched := by
    rintro ⟨t, ht⟩
    cases ht

theorem Inv.step (h : Inv readers s) (hs : Stepped s t action s') : Inv readers s' where
  file := hs.file_eq.trans h.file
  wellFormed := hs.wellFormed h.wellFormed
  guarded := h.guarded.moved hs.moves (fun _ hu => hs.held_of_ne hu) (h.wellFormed t).nodup
  pool := hs.pool h.pool
  watched := hs.watched h.watched

/-- **Any interleaving** of what the threads do. -/
def State.run (s : State Tid Conn) (steps : List (Tid × Action Tid)) :
    Option (State Tid Conn) :=
  Machine.run State.step s steps

theorem inv_run (hnodup : ∀ conns ∈ readers, conns.Nodup) {ops : Tid → List Op}
    {steps : List (Tid × Action Tid)} (h : (State.start readers ops).run steps = some s) :
    Inv readers s :=
  Machine.run_induction (P := fun _ => Inv readers) (inv_start hnodup ops)
    (fun _ _ _ _ _ hinv hstep => hinv.step (stepped_of_step hstep)) h

end Invariant

/-! ## Closures -/

/-- A thread is in the closure of an operation. -/
def State.Inside (s : State Tid Conn) (t : Tid) (op : Op) : Prop :=
  ∃ held, s.stage t = .inside op held

section

variable {file : Bool}

/-- In a closure, a thread holds what the operation asked for. -/
theorem mem_held_of_inside {op : Op} {held : List (Guard Conn)}
    (h : (Stage.inside op held).WellFormed file) {request : Request}
    (hr : request ∈ op.requests file) : ∃ guard ∈ held, guard.request = request := by
  rw [← h, List.mem_reverse, List.mem_map] at hr
  exact hr

theorem guard_eq_gateRead {guard : Guard Conn} (h : guard.request = .gateRead) :
    guard = .gateRead := by
  cases guard <;> cases h
  rfl

theorem guard_eq_gateWrite {guard : Guard Conn} (h : guard.request = .gateWrite) :
    guard = .gateWrite := by
  cases guard <;> cases h
  rfl

theorem guard_eq_writer {guard : Guard Conn} (h : guard.request = .writer) :
    guard = .writer := by
  cases guard <;> cases h
  rfl

theorem gate_mem_requests (op : Op) (file : Bool) :
    op ≠ .exclusiveWrite ∧ .gateRead ∈ op.requests file
      ∨ op = .exclusiveWrite ∧ .gateWrite ∈ op.requests file := by
  cases op <;> cases file <;> decide

end

section Inside

variable [Fintype Tid] {readers : Option (List Conn)} {op : Op}

omit [DecidableEq Tid] in
theorem Inv.mem_of_inside (h : Inv readers s) (hi : s.Inside t op) {request : Request}
    (hr : request ∈ op.requests s.file) : ∃ guard ∈ s.held t, guard.request = request := by
  obtain ⟨held, hstage⟩ := hi
  have hwf := h.wellFormed t
  rw [hstage] at hwf
  rw [State.held, hstage]
  exact mem_held_of_inside hwf hr

omit [DecidableEq Tid] in
/-- **An exclusive closure is alone.** -/
theorem Inv.exclusive (h : Inv readers s) {u : Tid} (ht : s.Inside t .exclusiveWrite)
    (hu : s.Inside u op) : u = t := by
  have hwrite : .gateWrite ∈ Op.exclusiveWrite.requests s.file := by
    cases s.file <;> decide
  obtain ⟨guard, hguard, hr⟩ := h.mem_of_inside ht hwrite
  rw [guard_eq_gateWrite hr] at hguard
  rcases gate_mem_requests op s.file with ⟨-, hop⟩ | ⟨-, hop⟩
  · obtain ⟨other, hother, hr⟩ := h.mem_of_inside hu hop
    rw [guard_eq_gateRead hr] at hother
    exact absurd hother (h.guarded.gate.alone t u hguard)
  · obtain ⟨other, hother, hr⟩ := h.mem_of_inside hu hop
    rw [guard_eq_gateWrite hr] at hother
    exact h.guarded.gate.eq hother hguard

omit [DecidableEq Tid] in
/-- **At most one closure has the writer's connection.** -/
theorem Inv.writers (h : Inv readers s) {u : Tid} {op' : Op} (ht : s.Inside t op)
    (hu : s.Inside u op') (hop : .writer ∈ op.requests s.file)
    (hop' : .writer ∈ op'.requests s.file) : t = u := by
  obtain ⟨guard, hguard, hr⟩ := h.mem_of_inside ht hop
  obtain ⟨other, hother, hr'⟩ := h.mem_of_inside hu hop'
  rw [guard_eq_writer hr] at hguard
  rw [guard_eq_writer hr'] at hother
  exact h.guarded.writer.eq hguard hother

end Inside

/-! ## Going on -/

/-- A thread that waits for the gate. -/
def State.WaitsForGate (s : State Tid Conn) (t : Tid) : Prop :=
  ∃ op held request requests, s.stage t = .acquire op held (request :: requests)
    ∧ (request = .gateRead ∨ request = .gateWrite)

/-- A thread whose operations are not all done. -/
def State.Unfinished (s : State Tid Conn) (t : Tid) : Prop :=
  s.stage t ≠ .idle ∨ s.ops t ≠ []

section GoingOn

variable [Fintype Tid]

/-- **Some thread in an operation can go on**, without waking up for no
reason, and if it waits for the gate it is one of those admitted. -/
def State.CanGoOn (s : State Tid Conn) (admitted : Tid → Prop) : Prop :=
  ∃ t action, action ≠ .wake ∧ action ≠ .start ∧ (s.step (t, action)).isSome = true
    ∧ (s.WaitsForGate t → admitted t)

/-- What a thread may be that cannot go on by itself. -/
inductive Stage.Waits : Stage Conn → Prop where
  | idle : Waits .idle
  | asleep {op held requests} : Waits (.asleep op held requests)
  | acquire {op held request requests} : Waits (.acquire op held (request :: requests))
  | dropConn {op conn held panicking} : Waits (.drop op (.conn conn :: held) panicking)

variable {admitted : Tid → Prop}

/-- The other stages. -/
theorem waits_of_not_canGoOn (h : ¬ s.CanGoOn admitted) (t : Tid) : (s.stage t).Waits := by
  by_contra hwaits
  have hgate : ¬ s.WaitsForGate t := by
    rintro ⟨op, held, request, requests, hstage, -⟩
    exact hwaits (hstage ▸ .acquire)
  suffices hstep : ∃ action : Action Tid, action ≠ .wake ∧ action ≠ .start
      ∧ (s.step (t, action)).isSome = true by
    obtain ⟨action, hwake, hstart, hstep⟩ := hstep
    exact h ⟨t, action, hwake, hstart, hstep, fun hg => absurd hg hgate⟩
  cases hstage : s.stage t with
  | idle => exact absurd (hstage ▸ .idle) hwaits
  | asleep op held requests => exact absurd (hstage ▸ .asleep) hwaits
  | acquire op held requests =>
    cases requests with
    | nil => exact ⟨.call true, by simp, by simp, by simp [State.step, hstage]⟩
    | cons request requests => exact absurd (hstage ▸ .acquire) hwaits
  | checkout op held requests =>
    refine ⟨.checkout, by simp, by simp, ?_⟩
    cases hconns : s.conns <;> simp [State.step, hstage, hconns]
  | inside op held => exact ⟨.leave false, by simp, by simp, by simp [State.step, hstage]⟩
  | drop op held panicking =>
    cases held with
    | nil => exact ⟨.finish true, by simp, by simp, by simp [State.step, hstage]⟩
    | cons guard held =>
      refine ⟨.drop, by simp, by simp, ?_⟩
      cases guard with
      | conn conn => exact absurd (hstage ▸ .dropConn) hwaits
      | gateRead => simp [State.step, hstage, State.drop]
      | gateWrite => simp [State.step, hstage, State.drop]
      | writer => simp [State.step, hstage, State.drop]
  | checkin op conn held panicking =>
    exact ⟨.checkin, by simp, by simp, by simp [State.step, hstage]⟩
  | notify op held panicking =>
    by_cases hasleep : ∀ u, (s.stage u).isAsleep = false
    · exact ⟨.notify none, by simp, by simp, by simp [State.step, hstage, hasleep]⟩
    · obtain ⟨u, hu⟩ := not_forall.mp hasleep
      refine ⟨.notify (some u), by simp, by simp, ?_⟩
      cases hother : s.stage u <;> simp_all [State.step, Stage.isAsleep]

/-- **The order of the requests**: what was got before a request that is still
open. -/
theorem requests_split {op : Op} {file : Bool} {got : List Request} {request : Request}
    {requests : List Request} (h : got ++ request :: requests = op.requests file) :
    (got = [] ∧ request ≠ .writer) ∨ (got = [.conn] ∧ request = .gateRead)
      ∨ ((got = [.gateRead] ∨ got = [.gateWrite]) ∧ request = .writer) := by
  rcases got with _ | ⟨first, _ | ⟨second, got⟩⟩ <;> cases op <;> cases file <;>
    simp_all [Op.requests]

/-- A thread that waits for a request has no guard that comes after it. -/
theorem request_of_mem {op : Op} {file : Bool} {held : List (Guard Conn)} {request : Request}
    {requests : List Request}
    (h : (held.map Guard.request).reverse ++ request :: requests = op.requests file)
    {guard : Guard Conn} (hg : guard ∈ held) :
    guard.request = .conn ∧ request = .gateRead
      ∨ (guard.request = .gateRead ∨ guard.request = .gateWrite) ∧ request = .writer := by
  have hmem : guard.request ∈ (held.map Guard.request).reverse :=
    List.mem_reverse.mpr (List.mem_map_of_mem hg)
  rcases requests_split h with ⟨hgot, -⟩ | ⟨hgot, hr⟩ | ⟨hgot | hgot, hr⟩
  · rw [hgot] at hmem
    cases hmem
  · rw [hgot, List.mem_singleton] at hmem
    exact .inl ⟨hmem, hr⟩
  · rw [hgot, List.mem_singleton] at hmem
    exact .inr ⟨.inl hmem, hr⟩
  · rw [hgot, List.mem_singleton] at hmem
    exact .inr ⟨.inr hmem, hr⟩

variable {readers : Option (List Conn)}

/-- If nobody can go on, the mutex of the pool is free, and nobody asks for it. -/
theorem Inv.not_asks_for_pool (h : Inv readers s) (hstuck : ¬ s.CanGoOn admitted) (t : Tid) :
    (∀ op held requests, s.stage t ≠ .acquire op held (.conn :: requests))
      ∧ ∀ op conn held panicking, s.stage t ≠ .drop op (.conn conn :: held) panicking := by
  have hfree : s.pool.holder = none := h.pool.free fun u hu => by
    cases hwaits : s.stage u with
    | checkout => 
      have := waits_of_not_canGoOn hstuck u
      rw [hwaits] at this
      cases this
    | checkin => 
      have := waits_of_not_canGoOn hstuck u
      rw [hwaits] at this
      cases this
    | notify => 
      have := waits_of_not_canGoOn hstuck u
      rw [hwaits] at this
      cases this
    | _ => simp [hwaits, Stage.locksPool] at hu
  obtain ⟨poisoned, pool, hlock⟩ := Mutex.exists_lock hfree t
  have hlock : lock s.pool t = some pool := by rw [lock, hlock]; rfl
  constructor
  · intro op held requests hstage
    refine hstuck ⟨t, .acquire, by simp, by simp, ?_, ?_⟩
    · simp [State.step, hstage, State.acquire, hlock]
    · rintro ⟨op', held', request, requests', hstage', hr⟩
      rw [hstage] at hstage'
      cases hstage'
      rcases hr with hr | hr <;> cases hr
  · intro op conn held panicking hstage
    refine hstuck ⟨t, .drop, by simp, by simp, ?_, ?_⟩
    · simp [State.step, hstage, State.drop, hlock]
    · rintro ⟨op', held', request, requests', hstage', hr⟩
      rw [hstage] at hstage'
      cases hstage'

/-- **Then a thread that holds a guard waits for the gate or the writer.** -/
theorem Inv.waits_of_held (h : Inv readers s) (hstuck : ¬ s.CanGoOn admitted) {u : Tid}
    {guard : Guard Conn} (hg : guard ∈ s.held u) :
    guard.request = .conn ∧ s.WaitsForGate u
      ∨ (guard.request = .gateRead ∨ guard.request = .gateWrite)
        ∧ ∃ op held requests, s.stage u = .acquire op held (.writer :: requests) := by
  have hwaits := waits_of_not_canGoOn hstuck u
  have hwf := h.wellFormed u
  have hdrop := (h.not_asks_for_pool hstuck u).2
  rw [State.held] at hg
  cases hstage : s.stage u with
  | idle =>
    rw [hstage] at hg
    cases hg
  | asleep op held requests =>
    rw [hstage] at hg hwf
    rcases request_of_mem hwf hg with ⟨-, hr⟩ | ⟨-, hr⟩ <;> cases hr
  | acquire op held requests =>
    rw [hstage] at hg hwf hwaits
    cases hwaits with
    | @acquire _ _ request requests =>
      rcases request_of_mem hwf hg with ⟨hc, hr⟩ | ⟨hgate, hr⟩
      · exact .inl ⟨hc, op, held, request, requests, hstage, .inl hr⟩
      · exact .inr ⟨hgate, op, held, requests, by rw [hr]⟩
  | drop op held panicking =>
    rw [hstage] at hwaits
    cases hwaits
    exact absurd hstage (hdrop _ _ _ _)
  | _ =>
    rw [hstage] at hwaits
    cases hwaits

/-- Nobody waits for the writer. -/
theorem Inv.not_asks_for_writer (h : Inv readers s) (hstuck : ¬ s.CanGoOn admitted) (t : Tid)
    (op : Op) (held : List (Guard Conn)) (requests : List Request) :
    s.stage t ≠ .acquire op held (.writer :: requests) := by
  intro hstage
  have hfree : s.writer.holder = none := h.guarded.writer.free fun u hu => by
    rcases h.waits_of_held hstuck hu with ⟨hr, -⟩ | ⟨hr | hr, -⟩ <;> cases hr
  obtain ⟨poisoned, writer, hlock⟩ := Mutex.exists_lock hfree t
  have hlock : lock s.writer t = some writer := by rw [lock, hlock]; rfl
  refine hstuck ⟨t, .acquire, by simp, by simp, ?_, ?_⟩
  · simp [State.step, hstage, State.acquire, hlock]
  · rintro ⟨op', held', request, requests', hstage', hr⟩
    rw [hstage] at hstage'
    cases hstage'
    rcases hr with hr | hr <;> cases hr

/-- The gate is free. -/
theorem Inv.gate_free (h : Inv readers s) (hstuck : ¬ s.CanGoOn admitted) : s.gate.Free := by
  have hwriter := h.not_asks_for_writer hstuck
  refine h.guarded.gate.free (fun u hu => ?_) fun u hu => ?_
  · rcases h.waits_of_held hstuck hu with ⟨hr, -⟩ | ⟨-, op, held, requests, hstage⟩
    · cases hr
    · exact hwriter u op held requests hstage
  · rcases h.waits_of_held hstuck hu with ⟨hr, -⟩ | ⟨-, op, held, requests, hstage⟩
    · cases hr
    · exact hwriter u op held requests hstage

/-- Nobody waits for the gate, since who is admitted could go on. -/
theorem Inv.not_waits_for_gate (h : Inv readers s) (hstuck : ¬ s.CanGoOn admitted)
    (hadmitted : s.gate.Free → (∃ t, s.WaitsForGate t) → ∃ t, s.WaitsForGate t ∧ admitted t)
    (t : Tid) : ¬ s.WaitsForGate t := by
  intro ht
  have hfree := h.gate_free hstuck
  obtain ⟨u, hu, hadmitted⟩ := hadmitted hfree ⟨t, ht⟩
  refine hstuck ⟨u, .acquire, by simp, by simp, ?_, fun _ => hadmitted⟩
  obtain ⟨op, held, request, requests, hstage, rfl | rfl⟩ := hu
  · obtain ⟨poisoned, gate, hread⟩ := RwLock.exists_read hfree.2 u
    simp [State.step, hstage, State.acquire, readLock, hread]
  · obtain ⟨poisoned, gate, hwrite⟩ := RwLock.exists_write hfree u
    simp [State.step, hstage, State.acquire, writeLock, hwrite]

/-- **Some thread can go on** as long as one is in an operation. -/
theorem Inv.canGoOn (h : Inv readers s) (hne : readers ≠ some [])
    (hadmitted : s.gate.Free → (∃ t, s.WaitsForGate t) → ∃ t, s.WaitsForGate t ∧ admitted t)
    (hbusy : s.stage t ≠ .idle) : s.CanGoOn admitted := by
  by_contra hstuck
  have hgate := h.not_waits_for_gate hstuck hadmitted
  -- All threads that are in an operation sleep.
  have hstage : ∀ u, s.stage u = .idle ∨ ∃ op held requests,
      s.stage u = .asleep op held requests := by
    intro u
    have hwaits := waits_of_not_canGoOn hstuck u
    have hpool := h.not_asks_for_pool hstuck u
    cases hstage : s.stage u with
    | idle => exact .inl rfl
    | asleep op held requests => exact .inr ⟨_, _, _, rfl⟩
    | acquire op held requests =>
      rw [hstage] at hwaits
      cases hwaits with
      | @acquire _ _ request requests =>
        cases request with
        | conn => exact absurd hstage (hpool.1 _ _ _)
        | gateRead => exact absurd ⟨_, _, _, _, hstage, .inl rfl⟩ (hgate u)
        | gateWrite => exact absurd ⟨_, _, _, _, hstage, .inr rfl⟩ (hgate u)
        | writer => exact absurd hstage (h.not_asks_for_writer hstuck u _ _ _)
    | drop op held panicking =>
      rw [hstage] at hwaits
      cases hwaits
      exact absurd hstage (hpool.2 _ _ _ _)
    | _ =>
      rw [hstage] at hwaits
      cases hwaits
  obtain ⟨op, held, requests, hasleep⟩ := (hstage t).resolve_left hbusy
  -- So all connections are in the pool, and nobody looks at it.
  have hheld : ∀ u, s.held u = [] := by
    intro u
    refine List.eq_nil_iff_forall_not_mem.mpr fun guard hg => ?_
    rcases h.waits_of_held hstuck hg with ⟨-, hu⟩ | ⟨-, op, held, requests, hu⟩
    · exact hgate u hu
    · exact h.not_asks_for_writer hstuck u _ _ _ hu
  have hawake : s.awake = 0 := by
    refine Finset.sum_eq_zero fun u _ => ?_
    rcases hstage u with hu | ⟨_, _, _, hu⟩ <;> rw [hu] <;> rfl
  have hconns := h.watched ⟨t, by rw [hasleep]; rfl⟩
  rw [hawake, Nat.le_zero, List.length_eq_zero_iff] at hconns
  have hconn : .conn ∈ op.requests s.file := by
    have hwf := h.wellFormed t
    rw [hasleep] at hwf
    exact hwf ▸ List.mem_append_right _ List.mem_cons_self
  cases readers with
  | none =>
    rw [show s.file = false from h.file] at hconn
    cases op <;> simp [Op.requests] at hconn
  | some conns =>
    obtain ⟨conn, hmem⟩ := List.exists_mem_of_ne_nil conns fun h => hne (congrArg some h)
    rcases (h.guarded.conns.mem_iff conn).mp hmem with hin | ⟨u, hu⟩
    · rw [hconns] at hin
      cases hin
    · rw [hheld u] at hu
      cases hu

end GoingOn

/-! ## The protocol -/

section Protocol

variable [Fintype Tid]

/-- **What the locks of a connection manager ensure.** -/
structure Protocol (readers : Option (List Conn)) (s : State Tid Conn) : Prop where
  /-- While a thread is in an exclusive closure, no other is in a closure. -/
  exclusive : ∀ t u op, s.Inside t .exclusiveWrite → s.Inside u op → u = t
  /-- One thread at most is in a closure that may write. -/
  writers : ∀ t u op op', s.Inside t op → s.Inside u op' → op ≠ .read → op' ≠ .read → t = u
  /-- The connections in the pool and those held are always the same. -/
  conns : Pooled (readers.getD []) s
  /-- As long as a thread is unfinished, some thread can take a step, and not
  only by waking up or by starting something new while others wait; which
  ones are admitted to a gate that is free is not for them to say. -/
  progress : ∀ admitted : Tid → Prop,
    (s.gate.Free → (∃ t, s.WaitsForGate t) → ∃ t, s.WaitsForGate t ∧ admitted t) →
    (∃ t, s.Unfinished t) →
    ∃ t action, action ≠ .wake ∧ (action = .start → ∀ u, s.stage u = .idle)
      ∧ (s.step (t, action)).isSome = true ∧ (s.WaitsForGate t → admitted t)

/-- **In every state that any interleaving reaches** the protocol holds. -/
theorem lock_protocol {readers : Option (List Conn)} (hne : readers ≠ some [])
    (hnodup : ∀ conns ∈ readers, conns.Nodup) {ops : Tid → List Op}
    {steps : List (Tid × Action Tid)} {s : State Tid Conn}
    (h : (State.start readers ops).run steps = some s) : Protocol readers s := by
  have hinv := inv_run hnodup h
  refine ⟨fun t u op ht hu => hinv.exclusive ht hu, fun t u op op' ht hu hop hop' => ?_,
    hinv.guarded.conns, fun admitted hadmitted hunfinished => ?_⟩
  · have hwriter : ∀ op : Op, op ≠ .read → .writer ∈ op.requests s.file := by
      intro op hop
      cases op <;> simp_all [Op.requests]
    exact hinv.writers ht hu (hwriter op hop) (hwriter op' hop')
  · by_cases hidle : ∀ u, s.stage u = .idle
    · obtain ⟨t, ht⟩ := hunfinished
      obtain ⟨op, ops, hops⟩ := List.exists_cons_of_ne_nil (ht.resolve_left (not_not_intro (hidle t)))
      refine ⟨t, .start, by simp, fun _ => hidle, by simp [State.step, hidle t, hops], ?_⟩
      rintro ⟨_, _, _, _, hstage, -⟩
      rw [hidle t] at hstage
      cases hstage
    · obtain ⟨t, ht⟩ := not_forall.mp hidle
      obtain ⟨u, action, hwake, hstart, hstep⟩ := hinv.canGoOn hne hadmitted ht
      exact ⟨u, action, hwake, fun h => absurd h hstart, hstep⟩

end Protocol

/-- Two threads that read, with one connection between them, and one that
writes exclusively. -/
def operations : Fin 3 → List Op
  | 0 => [.read, .write]
  | 1 => [.read]
  | 2 => [.exclusiveWrite]

/-- The second reader sleeps until the first one has panicked. -/
def interleaving : List (Fin 3 × Action (Fin 3)) :=
  [(0, .start), (0, .acquire), (0, .checkout), (1, .start), (1, .acquire), (1, .checkout),
    (2, .start), (0, .acquire), (0, .call true), (0, .leave true), (0, .drop), (2, .acquire),
    (0, .drop), (0, .checkin), (0, .notify (some 1)), (0, .finish false), (1, .acquire),
    (1, .checkout)]

theorem interleaving_protocol : ∃ s : State (Fin 3) ℕ,
    (State.start (some [0]) operations).run interleaving = some s ∧ s.WaitsForGate 1
      ∧ Protocol (some [0]) s := by
  have hstage : ((State.start (some [0]) operations).run interleaving).map
      (fun s : State (Fin 3) ℕ => s.stage 1) = some (.acquire .read [.conn 0] [.gateRead]) := by
    decide
  obtain ⟨s, hrun, hstage⟩ := Option.map_eq_some_iff.mp hstage
  exact ⟨s, hrun, ⟨_, _, _, _, hstage, .inl rfl⟩,
    lock_protocol (by decide) (by simp) hrun⟩

end Seekwel.ConnectionManager
