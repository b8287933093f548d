import Mathlib.Data.List.Nodup
import Seekwel.AutomaticRollback

/-!
# The cache of an association and rollbacks

A `HasMany` association keeps the children that it loaded, and `append` pushes
to them when the row is inserted. A transaction around these calls may still
undo the row, and nothing tells the cache.

A run is a sequence of calls of `load`, `append` and `clear_cache` and of
transactions with such a sequence inside (`Calls`). Without savepoints and
without a thread, its state is the rows, the rows on which the open transaction
began, and the cache (`Moment`); running the calls does to these what
`Calls.after` and `Calls.reached` say (`run_moments`). A rollback is the only
step that can part the cache from the rows, and it does exactly if it undoes
rows and the cache is filled (`loads_rows_iff`).
-/

namespace Seekwel.Model.RolledBackCache

open Savepoint (Conn Effect Tx)

/-! ## Calls -/

/-- The order in which a query returns the rows. -/
structure QueryOrder (Child : Type) where
  sort : List Child → List Child
  perm : ∀ rows, (sort rows).Perm rows

/-- **What the insert of an append comes to.** -/
inductive Insert (Child : Type) where
  /-- A row, unless it is there already. -/
  | row (child : Child)
  | fails (error : Error)
  /-- It fails, and SQLite ends the transaction. -/
  | aborts (error : Error)

/-- **The calls of a run**, one after the other. -/
inductive Calls (Child : Type) where
  | done
  /-- What the query comes to, if the load makes one. -/
  | load (query : Except Error (QueryOrder Child)) (next : Calls Child)
  | append (insert : Insert Child) (next : Calls Child)
  | clearCache (next : Calls Child)
  /-- A transaction: the calls inside, and what it ends in. -/
  | transaction (body : Calls Child) (ended : Except Error Unit) (next : Calls Child)

/-- **Where a run is**: the thread with its connection, whose content is the
parent's child rows, and the cache. -/
structure World (Child : Type) where
  thread : Thread (List Child)
  cached : Option (List Child)

variable {Child : Type}

/-- The rows visible in the database. -/
def World.rows (w : World Child) : List Child := w.thread.conn.view

def World.load (w : World Child) (query : Except Error (QueryOrder Child)) :
    World Child × Except Error (List Child) :=
  match w.cached with
  | some children => (w, .ok children)
  | none =>
    match query with
    | .ok order => ({ w with cached := some (order.sort w.rows) }, .ok (order.sort w.rows))
    | .error error => (w, .error error)

def World.clearCache (w : World Child) : World Child := { w with cached := none }

section Runs

variable [DecidableEq Child]

/-- The statement of an insert. -/
def Insert.statement : Insert Child → List Child → Effect (List Child) Child Error
  | .row child, rows =>
    if child ∈ rows then .failed (.sqlite "UNIQUE constraint failed")
    else .done (rows ++ [child]) child
  | .fails error, _ => .failed error
  | .aborts error, _ => .aborted error

def World.append (w : World Child) (insert : Insert Child) : World Child × Except Error Child :=
  let (conn, answer) := w.thread.conn.exec insert.statement
  let w := { w with thread := { w.thread with conn := conn } }
  match answer with
  | .ok child => ({ w with cached := w.cached.map fun children => children ++ [child] }, .ok child)
  | .error error => (w, .error error)

/-- What a transaction ends in. -/
def ending : Except Error Unit → Outcome Unit
  | .ok value => .ok value
  | .error error => .error error

/-- The thread as the body of a transaction finds it. -/
def entered (th : Thread (List Child)) : Option (Thread (List Child)) :=
  match th.txState with
  | some _ => (th.beginSavepoint (V := Unit)).map (·.1)
  | none => th.conn.begin.map fun conn => ⟨some ⟨1, 0⟩, conn⟩

/-- **Running the calls**: where the run ends, and all places where it was,
inside its transactions as well. -/
def Calls.run : Calls Child → World Child → Option (World Child × List (World Child))
  | .done, w => some (w, [w])
  | .load query next, w => (next.run (w.load query).1).map fun r => (r.1, w :: r.2)
  | .append insert next, w => (next.run (w.append insert).1).map fun r => (r.1, w :: r.2)
  | .clearCache next, w => (next.run w.clearCache).map fun r => (r.1, w :: r.2)
  | .transaction body ended next, w =>
    let f : Thread (List Child) → Option (Run (List Child) Unit) := fun th =>
      (body.run ⟨th, w.cached⟩).map fun r => ⟨r.1.thread, ending ended, []⟩
    -- Only the thread takes part in the transaction. The cache stays as the body left it.
    (Seekwel.transaction f w.thread).bind fun called =>
      ((entered w.thread).bind fun th => body.run ⟨th, w.cached⟩).bind fun inner =>
        (next.run ⟨called.thread, inner.1.cached⟩).map fun r => (r.1, w :: inner.2 ++ r.2)

end Runs

/-! ## Moments -/

/-- **What matters of a place in a run.** -/
structure Moment (Child : Type) where
  /-- The rows on which the open transaction began. -/
  base : Option (List Child)
  rows : List Child
  cached : Option (List Child)

/-- What matters of a world. -/
def World.moment (w : World Child) : Moment Child :=
  ⟨w.thread.conn.tx.map fun _ => w.thread.conn.committed, w.rows, w.cached⟩

namespace Moment

def load (m : Moment Child) (query : Except Error (QueryOrder Child)) : Moment Child :=
  match m.cached, query with
  | none, .ok order => { m with cached := some (order.sort m.rows) }
  | _, _ => m

def clearCache (m : Moment Child) : Moment Child := { m with cached := none }

/-- SQLite ends the transaction that is open, if any. -/
def abort (m : Moment Child) : Moment Child :=
  { m with base := none, rows := m.base.getD m.rows }

/-- What the body of a transaction finds. -/
def enter (m : Moment Child) : Moment Child := { m with base := some (m.base.getD m.rows) }

/-- What a transaction leaves whose body left `inner` and ended in a value or
not. -/
def leave (m : Moment Child) (value : Bool) (inner : Moment Child) : Moment Child :=
  match inner.base with
  | some _ => { inner with base := m.base, rows := if value then inner.rows else m.rows }
  | none => inner

/-- **A rollback spares the cache** if the cache is empty or no row is
undone. -/
def Spares (m after : Moment Child) : Prop := m.cached = none ∨ after.rows.Perm m.rows

/-- What is cached are the rows. -/
def Coherent (m : Moment Child) : Prop :=
  ∀ children, m.cached = some children → children.Perm m.rows

end Moment

/-! ## What one step keeps -/

/-- **A rollback keeps the cache coherent exactly if it spares it.** -/
theorem coherent_iff_spares {m after : Moment Child} (h : m.Coherent)
    (hcached : after.cached = m.cached) : after.Coherent ↔ m.Spares after := by
  unfold Moment.Coherent Moment.Spares
  rw [hcached]
  cases hm : m.cached with
  | none => exact iff_of_true (fun children h => by cases h) (Or.inl rfl)
  | some children =>
    have hperm : children.Perm m.rows := h children hm
    constructor
    · intro hafter
      exact Or.inr ((hafter children rfl).symm.trans hperm)
    · rintro (hnone | hrows) _ ⟨⟩
      · cases hnone
      · exact hperm.trans hrows.symm

theorem coherent_load {m : Moment Child} (h : m.Coherent)
    (query : Except Error (QueryOrder Child)) : (m.load query).Coherent := by
  obtain ⟨base, rows, cached⟩ := m
  cases cached with
  | some children => exact h
  | none =>
    cases query with
    | error error => exact h
    | ok order =>
      rintro _ ⟨⟩
      exact order.perm rows

theorem coherent_clearCache (m : Moment Child) : m.clearCache.Coherent :=
  fun children h => by cases h

@[simp] theorem leave_cached (m inner : Moment Child) (value : Bool) :
    (m.leave value inner).cached = inner.cached := by
  unfold Moment.leave
  split <;> rfl

/-- No row is there twice, also after a rollback. -/
def Moment.Distinct (m : Moment Child) : Prop :=
  m.rows.Nodup ∧ ∀ base, m.base = some base → base.Nodup

theorem distinct_enter {m : Moment Child} (h : m.Distinct) : m.enter.Distinct := by
  refine ⟨h.1, ?_⟩
  rintro _ ⟨⟩
  cases hbase : m.base with
  | none => exact h.1
  | some base => exact h.2 base hbase

theorem distinct_abort {m : Moment Child} (h : m.Distinct) : m.abort.Distinct :=
  ⟨(distinct_enter h).2 _ rfl, fun base hbase => by cases hbase⟩

theorem distinct_load {m : Moment Child} (h : m.Distinct)
    (query : Except Error (QueryOrder Child)) : (m.load query).Distinct := by
  unfold Moment.load
  split <;> exact h

theorem distinct_leave {m inner : Moment Child} (h : m.Distinct) (hinner : inner.Distinct)
    (value : Bool) : (m.leave value inner).Distinct := by
  unfold Moment.leave
  split
  · refine ⟨?_, h.2⟩
    cases value with
    | true => exact hinner.1
    | false => exact h.1
  · exact hinner

/-! ## Runs of moments -/

section Moments

variable [DecidableEq Child]

def Moment.append (m : Moment Child) : Insert Child → Moment Child
  | .row child =>
    if child ∈ m.rows then m
    else { m with
      rows := m.rows ++ [child]
      cached := m.cached.map fun children => children ++ [child] }
  | .fails _ => m
  | .aborts _ => m.abort

/-- Whether a transaction ends in a value. -/
def succeeds (ended : Except Error Unit) : Bool := (ending ended).isValue

/-- What the calls leave. -/
def Calls.after : Calls Child → Moment Child → Moment Child
  | .done, m => m
  | .load query next, m => next.after (m.load query)
  | .append insert next, m => next.after (m.append insert)
  | .clearCache next, m => next.after m.clearCache
  | .transaction body ended next, m => next.after (m.leave (succeeds ended) (body.after m.enter))

/-- The moments of a run, in order. -/
def Calls.reached : Calls Child → Moment Child → List (Moment Child)
  | .done, m => [m]
  | .load query next, m => m :: next.reached (m.load query)
  | .append insert next, m => m :: next.reached (m.append insert)
  | .clearCache next, m => m :: next.reached m.clearCache
  | .transaction body ended next, m =>
    m :: body.reached m.enter
      ++ next.reached (m.leave (succeeds ended) (body.after m.enter))

/-- **Every rollback spares the cache**: those of the transactions that end in
an error, and those that SQLite makes by itself. -/
def Calls.SparesCache : Calls Child → Moment Child → Prop
  | .done, _ => True
  | .load query next, m => next.SparesCache (m.load query)
  | .append insert next, m =>
    (∀ error, insert = .aborts error → m.Spares m.abort) ∧ next.SparesCache (m.append insert)
  | .clearCache next, m => next.SparesCache m.clearCache
  | .transaction body ended next, m =>
    let inner := body.after m.enter
    body.SparesCache m.enter ∧ inner.Spares (m.leave (succeeds ended) inner)
      ∧ next.SparesCache (m.leave (succeeds ended) inner)

/-! ## When the cache stays coherent -/

theorem after_mem_reached (calls : Calls Child) (m : Moment Child) :
    calls.after m ∈ calls.reached m := by
  induction calls generalizing m with
  | done => exact List.mem_singleton_self m
  | load query next ih => exact List.mem_cons_of_mem _ (ih _)
  | append insert next ih => exact List.mem_cons_of_mem _ (ih _)
  | clearCache next ih => exact List.mem_cons_of_mem _ (ih _)
  | transaction body ended next _ ih => exact List.mem_append_right _ (ih _)

theorem self_mem_reached (calls : Calls Child) (m : Moment Child) : m ∈ calls.reached m := by
  cases calls with
  | done => exact List.mem_singleton_self m
  | load | append | clearCache | transaction => exact List.mem_cons_self

/-- An append keeps the cache coherent unless SQLite ends the transaction. -/
theorem coherent_append {m : Moment Child} (h : m.Coherent) (insert : Insert Child) :
    (m.append insert).Coherent ↔ ∀ error, insert = .aborts error → m.Spares m.abort := by
  cases insert with
  | row child =>
    refine iff_of_true ?_ (fun error h => by cases h)
    rw [Moment.append]
    split
    · exact h
    · intro children hcached
      obtain ⟨before, hbefore, rfl⟩ := Option.map_eq_some_iff.mp hcached
      exact (h before hbefore).append_right [child]
  | fails error => exact iff_of_true h (fun error h => by cases h)
  | aborts error =>
    have habort : m.abort.Coherent ↔ m.Spares m.abort := coherent_iff_spares h rfl
    exact habort.trans ⟨fun h _ _ => h, fun h => h error rfl⟩

/-- **The cache is coherent wherever a run comes to, exactly if every rollback
spares it.** -/
theorem reached_coherent_iff (calls : Calls Child) {m : Moment Child} (h : m.Coherent) :
    (∀ m' ∈ calls.reached m, m'.Coherent) ↔ calls.SparesCache m := by
  induction calls generalizing m with
  | done => exact iff_of_true (fun m' hm' => List.mem_singleton.mp hm' ▸ h) trivial
  | load query next ih =>
    rw [Calls.reached, List.forall_mem_cons, Calls.SparesCache, ih (coherent_load h query)]
    exact and_iff_right h
  | clearCache next ih =>
    rw [Calls.reached, List.forall_mem_cons, Calls.SparesCache, ih (coherent_clearCache m)]
    exact and_iff_right h
  | append insert next ih =>
    rw [Calls.reached, List.forall_mem_cons, Calls.SparesCache, ← coherent_append h insert]
    constructor
    · rintro ⟨-, hnext⟩
      have happend := hnext _ (self_mem_reached next _)
      exact ⟨happend, (ih happend).mp hnext⟩
    · rintro ⟨happend, hnext⟩
      exact ⟨h, (ih happend).mpr hnext⟩
  | transaction body ended next ihbody ihnext =>
    rw [Calls.reached, Calls.SparesCache, List.cons_append, List.forall_mem_cons,
      List.forall_mem_append, ihbody (m := m.enter) h]
    -- Where the body ends the cache is coherent, so that only the end of the call counts.
    have hleave (hbody : body.SparesCache m.enter) :=
      coherent_iff_spares ((ihbody (m := m.enter) h).mpr hbody _ (after_mem_reached body _))
        (leave_cached m (body.after m.enter) (succeeds ended))
    constructor
    · rintro ⟨-, hbody, hnext⟩
      have hleft := hnext _ (self_mem_reached next _)
      exact ⟨hbody, (hleave hbody).mp hleft, (ihnext hleft).mp hnext⟩
    · rintro ⟨hbody, hspares, hnext⟩
      exact ⟨h, hbody, (ihnext ((hleave hbody).mpr hspares)).mpr hnext⟩

theorem distinct_append {m : Moment Child} (h : m.Distinct) (insert : Insert Child) :
    (m.append insert).Distinct := by
  cases insert with
  | row child =>
    rw [Moment.append]
    split
    · exact h
    · rename_i hnew
      refine ⟨?_, h.2⟩
      rw [← List.concat_eq_append]
      exact h.1.concat hnew
  | fails error => exact h
  | aborts error => exact distinct_abort h

theorem reached_distinct (calls : Calls Child) {m : Moment Child} (h : m.Distinct) :
    ∀ m' ∈ calls.reached m, m'.Distinct := by
  induction calls generalizing m with
  | done => exact fun m' hm' => List.mem_singleton.mp hm' ▸ h
  | load query next ih => exact List.forall_mem_cons.mpr ⟨h, ih (distinct_load h query)⟩
  | append insert next ih => exact List.forall_mem_cons.mpr ⟨h, ih (distinct_append h insert)⟩
  | clearCache next ih => exact List.forall_mem_cons.mpr ⟨h, ih (m := m.clearCache) h⟩
  | transaction body ended next ihbody ihnext =>
    have hbody := ihbody (distinct_enter h)
    have hleft := distinct_leave h (hbody _ (after_mem_reached body _)) (succeeds ended)
    rw [Calls.reached, List.cons_append]
    exact List.forall_mem_cons.mpr
      ⟨h, List.forall_mem_append.mpr ⟨hbody, ihnext hleft⟩⟩

end Moments

/-! ## Where a run may be -/

/-- **The same place in a transaction**: the depth of the thread, and the
transaction with its savepoints unless SQLite ended it. -/
structure SamePlace (th th' : Thread (List Child)) : Prop where
  depth : th'.txState.map (·.depth) = th.txState.map (·.depth)
  conn : th'.conn.tx = none ∨ ∃ t working, th.conn.tx = some t
    ∧ th'.conn = ⟨th.conn.committed, some { t with working := working }⟩

/-- A thread outside any call is outside any transaction. -/
structure Placed (th : Thread (List Child)) : Prop where
  settled : th.conn.Settled
  outside : th.txState = none → th.conn.tx = none

theorem samePlace_refl (th : Thread (List Child)) : SamePlace th th := by
  refine ⟨rfl, ?_⟩
  obtain ⟨txState, committed, tx⟩ := th
  cases tx with
  | none => exact Or.inl rfl
  | some t => exact Or.inr ⟨t, t.working, rfl, rfl⟩

theorem SamePlace.trans {th th' th'' : Thread (List Child)} (h : SamePlace th th')
    (h' : SamePlace th' th'') : SamePlace th th'' := by
  refine ⟨h'.depth.trans h.depth, ?_⟩
  obtain hnone | ⟨t', working', ht', hconn'⟩ := h'.conn
  · exact Or.inl hnone
  obtain hnone | ⟨t, working, ht, hconn⟩ := h.conn
  · rw [hnone] at ht'
    cases ht'
  · rw [hconn] at ht' hconn'
    cases ht'
    exact Or.inr ⟨t, working', ht, hconn'⟩

theorem SamePlace.placed {th th' : Thread (List Child)} (h : SamePlace th th')
    (hth : Placed th) : Placed th' := by
  have hnone (hstate : th'.txState = none) : th.txState = none := by
    have hdepth := h.depth
    rw [hstate] at hdepth
    exact Option.map_eq_none_iff.mp hdepth.symm
  obtain hended | ⟨t, working, ht, hconn⟩ := h.conn
  · refine ⟨fun t ht => ?_, fun _ => hended⟩
    rw [hended] at ht
    cases ht
  · refine ⟨fun t' ht' => ?_, fun hstate => ?_⟩
    · rw [hconn] at ht'
      cases ht'
      exact hth.settled t ht
    · rw [hth.outside (hnone hstate)] at ht
      cases ht

/-! ## The calls do what their moments say -/

theorem load_moment (w : World Child) (query : Except Error (QueryOrder Child)) :
    (w.load query).1.moment = w.moment.load query := by
  obtain ⟨th, cached⟩ := w
  cases cached with
  | some children => rfl
  | none => cases query <;> rfl

theorem load_thread (w : World Child) (query : Except Error (QueryOrder Child)) :
    (w.load query).1.thread = w.thread := by
  unfold World.load
  split
  · rfl
  · split <;> rfl

/-- What the body of a transaction finds. -/
theorem entered_moment {th : Thread (List Child)} (h : Placed th)
    (cached : Option (List Child)) :
    ∃ th', entered th = some th' ∧ Placed th'
      ∧ World.moment ⟨th', cached⟩ = (World.moment ⟨th, cached⟩).enter := by
  obtain ⟨txState, committed, tx⟩ := th
  cases txState with
  | none =>
    obtain rfl : tx = none := h.outside rfl
    exact ⟨_, rfl, ⟨fun t ht => by cases ht; rfl, fun hstate => by cases hstate⟩, rfl⟩
  | some state =>
    cases tx with
    | none => exact ⟨_, rfl, ⟨fun t ht => by cases ht; rfl, fun hstate => by cases hstate⟩, rfl⟩
    | some t =>
      refine ⟨_, rfl, ⟨fun t' ht' => ?_, fun hstate => by cases hstate⟩, rfl⟩
      cases ht'
      exact Bool.and_false _

/-- **The end of the outermost call.** -/
theorem outerTransaction_moment {f : Thread (List Child) → Option (Run (List Child) Unit)}
    {th th' : Thread (List Child)} (h : Placed th) (hstate : th.txState = none)
    (hentered : entered th = some th') {body : Run (List Child) Unit} (hbody : f th' = some body)
    (hplace : SamePlace th' body.thread) (cached cached' : Option (List Child)) :
    ∃ r, outerTransaction f th = some r ∧ SamePlace th r.thread
      ∧ World.moment ⟨r.thread, cached'⟩
        = (World.moment ⟨th, cached⟩).leave body.outcome.isValue
          (World.moment ⟨body.thread, cached'⟩) := by
  obtain ⟨txState, committed, tx⟩ := th
  obtain rfl : txState = none := hstate
  obtain rfl : tx = none := h.outside rfl
  cases hentered
  obtain ⟨⟨txState', conn⟩, outcome, events⟩ := body
  unfold outerTransaction
  dsimp only [Conn.begin]
  rw [hbody]
  obtain hended | ⟨t, working, ht, hconn⟩ := hplace.conn
  · obtain ⟨c, tx⟩ := conn
    obtain rfl : tx = none := hended
    cases outcome with
    | ok value => exact ⟨_, rfl, ⟨rfl, Or.inl rfl⟩, rfl⟩
    | error error => exact ⟨_, rfl, ⟨rfl, Or.inl rfl⟩, rfl⟩
    | panic payload => exact ⟨_, rfl, ⟨rfl, Or.inl rfl⟩, rfl⟩
  · cases ht
    obtain rfl : conn = _ := hconn
    cases outcome with
    | ok value => exact ⟨_, rfl, ⟨rfl, Or.inl rfl⟩, rfl⟩
    | error error => exact ⟨_, rfl, ⟨rfl, Or.inl rfl⟩, rfl⟩
    | panic payload => exact ⟨_, rfl, ⟨rfl, Or.inl rfl⟩, rfl⟩

/-- **The end of a call inside another.** -/
theorem nestedTransaction_moment {f : Thread (List Child) → Option (Run (List Child) Unit)}
    {th th' : Thread (List Child)} {state : TransactionState} (h : Placed th)
    (hstate : th.txState = some state) (hentered : entered th = some th')
    {body : Run (List Child) Unit} (hbody : f th' = some body)
    (hplace : SamePlace th' body.thread) (cached cached' : Option (List Child)) :
    ∃ r, nestedTransaction f th = some r ∧ SamePlace th r.thread
      ∧ World.moment ⟨r.thread, cached'⟩
        = (World.moment ⟨th, cached⟩).leave body.outcome.isValue
          (World.moment ⟨body.thread, cached'⟩) := by
  obtain ⟨txState, committed, tx⟩ := th
  obtain rfl : txState = some state := hstate
  obtain ⟨⟨txState', conn⟩, outcome, events⟩ := body
  set name := savepointName (state.nextSavepoint + 1) with hname
  obtain ⟨conn', hset, rfl⟩ : ∃ conn',
      (⟨some state, ⟨committed, tx⟩⟩ : Thread _).conn.savepoint name = some conn'
        ∧ th' = ⟨some ⟨state.depth + 1, state.nextSavepoint + 1⟩, conn'⟩ := by
    cases tx <;> (cases hentered; exact ⟨_, rfl, rfl⟩)
  obtain ⟨⟨depth, n⟩, rfl, hdepth⟩ := Option.map_eq_some_iff.mp hplace.depth
  obtain rfl : depth = state.depth + 1 := hdepth
  obtain ⟨⟨⟨txState'', conn''⟩, outcome', events'⟩, hr, hstate', hconn'', -⟩ :=
    nestedTransaction_eq rfl hset hbody rfl
  obtain rfl : txState'' = _ := hstate'
  obtain rfl : conn'' = _ := hconn''
  refine ⟨_, hr, ?_⟩
  rw [← hname]
  dsimp only
  obtain hended | ⟨t', working, ht', hconn⟩ := hplace.conn
  · obtain ⟨c, tx'⟩ := conn
    obtain rfl : tx' = none := hended
    have hleft := leftConn_idle c name outcome.isValue
    rw [show leftConn outcome.isValue name ⟨c, none⟩ = .idle c from hleft]
    exact ⟨⟨rfl, Or.inl rfl⟩, rfl⟩
  · obtain rfl : conn = _ := hconn
    cases tx with
    | none =>
      -- The savepoint opened the transaction, and its release ends it.
      cases hset
      cases ht'
      have hleft := leftConn_pushed committed committed ⟨working, [], true⟩ name outcome.isValue
      rw [show leftConn outcome.isValue name _ = _ from hleft]
      exact ⟨⟨rfl, Or.inl rfl⟩, rfl⟩
    | some t =>
      cases hset
      cases ht'
      have hleft := leftConn_pushed committed t.working { t with working := working } name
        outcome.isValue
      rw [show leftConn outcome.isValue name _ = _ from hleft, h.settled t rfl,
        if_neg Bool.false_ne_true]
      exact ⟨⟨rfl, Or.inr ⟨t, _, rfl, rfl⟩⟩, rfl⟩

/-- **The end of a call.** -/
theorem transaction_moment {f : Thread (List Child) → Option (Run (List Child) Unit)}
    {th th' : Thread (List Child)} (h : Placed th) (hentered : entered th = some th')
    {body : Run (List Child) Unit} (hbody : f th' = some body)
    (hplace : SamePlace th' body.thread) (cached cached' : Option (List Child)) :
    ∃ r, Seekwel.transaction f th = some r ∧ SamePlace th r.thread
      ∧ World.moment ⟨r.thread, cached'⟩
        = (World.moment ⟨th, cached⟩).leave body.outcome.isValue
          (World.moment ⟨body.thread, cached'⟩) := by
  rw [Seekwel.transaction]
  cases hstate : th.txState with
  | none =>
    rw [if_neg (by simp)]
    exact outerTransaction_moment h hstate hentered hbody hplace cached cached'
  | some state =>
    rw [if_pos (Option.isSome_some)]
    exact nestedTransaction_moment h hstate hentered hbody hplace cached cached'

section Simulation

variable [DecidableEq Child]

/-- **An append** does to the rows and the cache what it should. -/
theorem append_moment (w : World Child) (insert : Insert Child) :
    (w.append insert).1.moment = w.moment.append insert
      ∧ SamePlace w.thread (w.append insert).1.thread := by
  obtain ⟨⟨txState, committed, tx⟩, cached⟩ := w
  unfold World.append
  cases insert with
  | row child =>
    by_cases hmem : child ∈ (⟨committed, tx⟩ : Conn (List Child)).view
    · have hstatement : (Insert.row child).statement (⟨committed, tx⟩ : Conn _).view = _ :=
        if_pos hmem
      rw [Conn.exec_of_failed hstatement]
      exact ⟨(if_pos hmem).symm, samePlace_refl _⟩
    · have hstatement : (Insert.row child).statement (⟨committed, tx⟩ : Conn _).view = _ :=
        if_neg hmem
      rw [Conn.exec_of_done hstatement]
      dsimp only
      constructor
      · refine Eq.trans ?_ (if_neg hmem).symm
        cases tx <;> rfl
      · cases tx with
        | none => exact ⟨rfl, Or.inl rfl⟩
        | some t => exact ⟨rfl, Or.inr ⟨t, _, rfl, rfl⟩⟩
  | fails error => exact ⟨rfl, samePlace_refl _⟩
  | aborts error =>
    refine ⟨?_, rfl, Or.inl rfl⟩
    cases tx <;> rfl

/-- **Running the calls does what their moments say**, wherever a run may
be. -/
theorem run_moments (calls : Calls Child) {w : World Child} (h : Placed w.thread) :
    ∃ last reached, calls.run w = some (last, reached) ∧ SamePlace w.thread last.thread
      ∧ last.moment = calls.after w.moment
      ∧ reached.map World.moment = calls.reached w.moment := by
  induction calls generalizing w with
  | done => exact ⟨w, [w], rfl, samePlace_refl _, rfl, rfl⟩
  | load query next ih =>
    have hthread := load_thread w query
    obtain ⟨last, reached, hrun, hplace, hlast, hreached⟩ :=
      ih (w := (w.load query).1) (hthread ▸ h)
    rw [load_moment] at hlast hreached
    refine ⟨last, w :: reached, ?_, hthread ▸ hplace, hlast, ?_⟩
    · rw [Calls.run, hrun, Option.map_some]
    · rw [List.map_cons, hreached, Calls.reached]
  | append insert next ih =>
    obtain ⟨hmoment, happend⟩ := append_moment w insert
    obtain ⟨last, reached, hrun, hplace, hlast, hreached⟩ := ih (happend.placed h)
    rw [hmoment] at hlast hreached
    refine ⟨last, w :: reached, ?_, happend.trans hplace, hlast, ?_⟩
    · rw [Calls.run, hrun, Option.map_some]
    · rw [List.map_cons, hreached, Calls.reached]
  | clearCache next ih =>
    obtain ⟨last, reached, hrun, hplace, hlast, hreached⟩ := ih (w := w.clearCache) h
    refine ⟨last, w :: reached, ?_, hplace, hlast, ?_⟩
    · rw [Calls.run, hrun, Option.map_some]
    · rw [List.map_cons, hreached]
      rfl
  | transaction body ended next ihbody ihnext =>
    obtain ⟨th, cached⟩ := w
    obtain ⟨th', hentered, hplaced, hmoment⟩ := entered_moment h cached
    obtain ⟨inner, within, hbody, hinner, hafter, hwithin⟩ :=
      ihbody (w := ⟨th', cached⟩) hplaced
    rw [hmoment] at hafter hwithin
    obtain ⟨called, hcalled, hplace, hleft⟩ := transaction_moment
      (f := fun th => (body.run ⟨th, cached⟩).map fun r => ⟨r.1.thread, ending ended, []⟩) h
      hentered (congrArg _ hbody) hinner cached inner.cached
    obtain ⟨last, reached, hrun, hlastplace, hlast, hreached⟩ :=
      ihnext (w := ⟨called.thread, inner.cached⟩) (hplace.placed h)
    have hleft : World.moment ⟨called.thread, inner.cached⟩
        = (World.moment ⟨th, cached⟩).leave (succeeds ended)
          (body.after (World.moment ⟨th, cached⟩).enter) :=
      hleft.trans (congrArg _ hafter)
    rw [hleft] at hlast hreached
    refine ⟨last, ⟨th, cached⟩ :: within ++ reached, ?_, hplace.trans hlastplace, hlast, ?_⟩
    · rw [Calls.run]
      dsimp only
      rw [hcalled, hentered, Option.bind_some, Option.bind_some, hbody, Option.bind_some, hrun,
        Option.map_some]
    · rw [List.cons_append, List.map_cons, List.map_append, hwithin, hreached, Calls.reached]
      rfl

/-! ## What load returns -/

/-- **A load at this place** returns exactly the visible rows, each once. -/
def World.LoadsRows (w : World Child) : Prop :=
  ∀ query children, (w.load query).2 = .ok children →
    children.Nodup ∧ ∀ child, child ∈ children ↔ child ∈ w.rows

omit [DecidableEq Child] in
theorem loadsRows_iff {w : World Child} (h : w.rows.Nodup) :
    w.LoadsRows ↔ w.moment.Coherent := by
  obtain ⟨th, cached⟩ := w
  cases cached with
  | some children =>
    constructor
    · rintro hloads _ ⟨⟩
      have hload := hloads (.error .rollback) children rfl
      exact (List.perm_ext_iff_of_nodup hload.1 h).mpr hload.2
    · rintro hcoherent query _ ⟨⟩
      have hperm := hcoherent children rfl
      exact ⟨hperm.nodup_iff.mpr h, fun child => hperm.mem_iff⟩
  | none =>
    refine iff_of_true ?_ (fun children h => by cases h)
    intro query children hload
    cases query with
    | error error => cases hload
    | ok order =>
      cases hload
      have hperm := order.perm (World.rows ⟨th, none⟩)
      exact ⟨hperm.nodup_iff.mpr h, fun child => hperm.mem_iff⟩

/-- Rows in the order in which they were inserted. -/
def insertionOrder : QueryOrder ℕ := ⟨fun rows => rows, fun rows => List.Perm.refl rows⟩

end Simulation

end Seekwel.Model.RolledBackCache
