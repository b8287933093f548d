import Seekwel.NestedTransaction

/-!
# When SQLite ends a transaction by itself

Some errors make SQLite roll the whole transaction back, after which the
connection is outside any transaction and each further statement takes
effect at once. The transaction state of the thread does not notice: nested
calls go on setting savepoints, which now open transactions of their own,
and the statements that would end the outermost one are refused.

`Body.trail` says where the effects of the statements of a body go: they
are kept for the `COMMIT` to come, or they escape it. Running a body does
what its trail says (`run_trail`), so an outermost call that returns an
error leaves the database as it was exactly if what escaped does not change
it (`failed_without_trace`).
-/

namespace Seekwel

open Savepoint (Conn Effect Tx)

variable {σ ρ V : Type}

/-! ## Where the effects go -/

/-- **The statements whose effects last**, in order. -/
inductive Trail (σ ρ : Type) where
  /-- The transaction is open, and they will be committed with it. -/
  | kept (statements : List (σ → Effect σ ρ Error))
  /-- SQLite ended the transaction, and they took effect after that. -/
  | escaped (statements : List (σ → Effect σ ρ Error))

namespace Trail

/-- The content a statement sees, in a transaction begun on `base`. -/
def content (base : σ) : Trail σ ρ → σ
  | kept statements => replay base statements
  | escaped statements => replay base statements

/-- One more statement took effect. -/
def add (statement : σ → Effect σ ρ Error) : Trail σ ρ → Trail σ ρ
  | kept statements => kept (statements ++ [statement])
  | escaped statements => escaped (statements ++ [statement])

/-- SQLite ends the transaction that is open, if any. -/
def aborted : Trail σ ρ → Trail σ ρ
  | kept _ => escaped []
  | escaped statements => escaped statements

/-- What a nested body starts from. Outside a transaction its savepoint
begins one. -/
def enter (base : σ) : Trail σ ρ → σ × Trail σ ρ
  | kept statements => (base, kept statements)
  | escaped statements => (replay base statements, kept [])

/-- What a nested call leaves, if its body left `inner` and ended in a value
or not. -/
def leave (value : Bool) : Trail σ ρ → Trail σ ρ → Trail σ ρ
  | kept statements, kept inner => kept (if value then inner else statements)
  | kept _, escaped inner => escaped inner
  | escaped statements, kept inner =>
    escaped (if value then statements ++ inner else statements)
  | escaped statements, escaped inner => escaped (statements ++ inner)

end Trail

/-- Whether a call came to a value. -/
def Outcome.isValue : Outcome V → Bool
  | .ok _ => true
  | _ => false

/-- What a nested call comes to: the savepoint is not there any more if
SQLite ended the transaction. -/
def Trail.returned (name : String) : Trail σ ρ → Outcome V → Outcome V
  | escaped _, .ok _ => .error (.sqlite ("no such savepoint: " ++ name))
  | _, outcome => outcome

/-- The trail of a body, how many savepoints were set before its end, and
what it comes to. -/
structure Walk (σ ρ V : Type) where
  trail : Trail σ ρ
  savepoints : ℕ
  outcome : Outcome V

/-- **Where the effects of a body go** that is run after `savepoints`
savepoints were set, in a transaction begun on `base`. -/
def Body.trail : Body σ ρ V → σ → Trail σ ρ → ℕ → Walk σ ρ V
  | .ret outcome, _, t, n => ⟨t, n, outcome⟩
  | .exec statement next, base, t, n =>
    match statement (t.content base) with
    | .done _ answer => (next (.ok answer)).trail base (t.add statement) n
    | .failed error => (next (.error error)).trail base t n
    | .aborted error => (next (.error error)).trail base t.aborted n
  | .transaction body next, base, t, n =>
    let inner := body.trail (t.enter base).1 (t.enter base).2 (n + 1)
    (next (inner.trail.returned (savepointName (n + 1)) inner.outcome)).trail base
      (t.leave inner.outcome.isValue inner.trail) inner.savepoints

/-- **What escapes does no harm**: no effect escapes, or the effects that do
leave the database as it was, or the body ends in a panic, which the call
passes on. -/
def Body.Harmless (body : Body σ ρ V) (content : σ) : Prop :=
  ∀ statements, (body.trail content (.kept []) 0).trail = .escaped statements →
    (∀ payload, (body.trail content (.kept []) 0).outcome ≠ .panic payload) →
      replay content statements = content

/-! ## A body does what its trail says -/

/-- The connection a trail is about: a transaction with the savepoints set
so far, or none. -/
def Trail.IsOn (base : σ) (savepoints : List (String × σ)) (bySavepoint : Bool) :
    Trail σ ρ → Conn σ → Prop
  | kept statements, c => c = ⟨base, some ⟨replay base statements, savepoints, bySavepoint⟩⟩
  | escaped statements, c => c = .idle (replay base statements)

theorem replay_snoc {base content : σ} {answer : ρ} {statement : σ → Effect σ ρ Error}
    {statements : List (σ → Effect σ ρ Error)}
    (h : statement (replay base statements) = .done content answer) :
    replay base (statements ++ [statement]) = content := by
  rw [replay_append, replay_cons h]
  rfl

section IsOn

variable {base : σ} {sp : List (String × σ)} {b : Bool} {t : Trail σ ρ} {c : Conn σ}

theorem view_of_isOn (h : t.IsOn base sp b c) : c.view = t.content base := by
  cases t with
  | kept statements =>
    obtain rfl := h
    rfl
  | escaped statements =>
    obtain rfl := h
    rfl

/-- A statement that takes effect. -/
theorem put_isOn (h : t.IsOn base sp b c) {statement : σ → Effect σ ρ Error} {content : σ}
    {answer : ρ} (heffect : statement (t.content base) = .done content answer) :
    (t.add statement).IsOn base sp b (c.put content) := by
  cases t with
  | kept statements =>
    obtain rfl := h
    show _ = (⟨base, some ⟨replay base (statements ++ [statement]), sp, b⟩⟩ : Conn σ)
    rw [replay_snoc heffect]
    rfl
  | escaped statements =>
    obtain rfl := h
    show _ = Conn.idle (replay base (statements ++ [statement]))
    rw [replay_snoc heffect]
    rfl

/-- A statement that makes SQLite end the transaction. -/
theorem aborted_isOn (h : t.IsOn base sp b c) :
    t.aborted.IsOn base sp b { c with tx := none } := by
  cases t with
  | kept statements =>
    obtain rfl := h
    rfl
  | escaped statements =>
    obtain rfl := h
    rfl

/-- The savepoints under the one of a nested call. -/
def Trail.under (sp : List (String × σ)) (b : Bool) : Trail σ ρ → List (String × σ) × Bool
  | kept _ => (sp, b)
  | escaped _ => ([], true)

/-- What a nested body finds: the savepoint of its call on top. -/
def Trail.IsInside (base : σ) (sp : List (String × σ)) (b : Bool) (name : String)
    (t inner : Trail σ ρ) (c : Conn σ) : Prop :=
  inner.IsOn (t.enter base).1
    ((name, (t.enter base).2.content (t.enter base).1) :: (t.under sp b).1) (t.under sp b).2 c

/-- Setting a savepoint, which opens a transaction if there is none. -/
theorem enter_isInside (h : t.IsOn base sp b c) (name : String) :
    ∃ c', c.savepoint name = some c' ∧ t.IsInside base sp b name (t.enter base).2 c' := by
  cases t with
  | kept statements =>
    obtain rfl := h
    exact ⟨_, rfl, rfl⟩
  | escaped statements =>
    obtain rfl := h
    exact ⟨_, rfl, rfl⟩

/-- The connection after the end of a nested call. -/
def leftConn (value : Bool) (name : String) (c : Conn σ) : Conn σ :=
  if value then (c.release name).getD c
  else
    let rolledBack := (c.rollbackTo name).getD c
    (rolledBack.release name).getD rolledBack

/-- The end of a nested call whose savepoint is still there. -/
theorem leftConn_pushed (committed v : σ) (t : Tx σ) (name : String) (value : Bool) :
    leftConn value name
        ⟨committed, some { t with savepoints := (name, v) :: t.savepoints }⟩
      = if t.bySavepoint && t.savepoints.isEmpty then .idle (if value then t.working else v)
        else ⟨committed, some { t with working := if value then t.working else v }⟩ := by
  unfold leftConn
  cases value with
  | true =>
    rw [if_pos rfl, Conn.release_pushed]
    rfl
  | false =>
    rw [if_neg Bool.false_ne_true, Conn.rollbackTo_pushed]
    dsimp only [Option.getD_some]
    rw [Conn.release_pushed committed v { t with working := v }]
    rfl

theorem leftConn_idle (content : σ) (name : String) (value : Bool) :
    leftConn value name (.idle content) = .idle content := by
  cases value <;> rfl

/-- **The end of a nested call** leaves what it should. -/
theorem leave_isOn (hb : (b && sp.isEmpty) = false) {name : String} {inner : Trail σ ρ}
    (h : t.IsInside base sp b name inner c) (value : Bool) :
    (t.leave value inner).IsOn base sp b (leftConn value name c) := by
  cases inner with
  | escaped statements =>
    obtain rfl : c = .idle (replay (t.enter base).1 statements) := h
    rw [leftConn_idle]
    cases t with
    | kept before => rfl
    | escaped before =>
      show _ = Conn.idle (replay base (before ++ statements))
      rw [replay_append]
      rfl
  | kept statements =>
    obtain rfl := h
    cases t with
    | kept before =>
      refine (leftConn_pushed base (replay base before) ⟨replay base statements, sp, b⟩ name
        value).trans ?_
      rw [hb, if_neg Bool.false_ne_true]
      cases value <;> rfl
    | escaped before =>
      refine (leftConn_pushed (replay base before) (replay base before)
        ⟨replay (replay base before) statements, [], true⟩ name value).trans ?_
      cases value with
      | true =>
        show Conn.idle _ = Conn.idle (replay base (before ++ statements))
        rw [replay_append]
        rfl
      | false => rfl

/-- The savepoint of a nested call is there at its end unless SQLite ended
the transaction. -/
theorem release_of_isInside {name : String} {inner : Trail σ ρ}
    (h : t.IsInside base sp b name inner c) :
    c.release name = none ↔ ∃ statements, inner = .escaped statements := by
  cases inner with
  | escaped statements =>
    obtain rfl : c = .idle (replay (t.enter base).1 statements) := h
    exact iff_of_true rfl ⟨_, rfl⟩
  | kept statements =>
    obtain rfl := h
    refine iff_of_false ?_ (fun hescaped => by obtain ⟨_, hescaped⟩ := hescaped; cases hescaped)
    intro hnone
    have hrelease := Conn.release_pushed (t.enter base).1
      ((t.enter base).2.content (t.enter base).1)
      ⟨replay (t.enter base).1 statements, (t.under sp b).1, (t.under sp b).2⟩ name
    exact absurd (hnone.symm.trans hrelease) (by simp)

theorem returned_of_isInside {name : String} {inner : Trail σ ρ}
    (h : t.IsInside base sp b name inner c) (outcome : Outcome V) :
    inner.returned name outcome
      = if outcome.isValue ∧ c.release name = none then
          .error (.sqlite ("no such savepoint: " ++ name))
        else outcome := by
  have hrelease := release_of_isInside h
  cases inner with
  | kept statements =>
    rw [if_neg (fun hnone => by obtain ⟨_, hkept⟩ := hrelease.mp hnone.2; cases hkept)]
    rfl
  | escaped statements =>
    have hnone := hrelease.mpr ⟨_, rfl⟩
    cases outcome with
    | ok value => exact (if_pos ⟨rfl, hnone⟩).symm
    | error error => exact (if_neg (fun h => by cases h.1)).symm
    | panic payload => exact (if_neg (fun h => by cases h.1)).symm

end IsOn

/-! ## Nested calls -/

theorem send_eq (th : Thread σ) (statement : Conn σ → Option (Conn σ)) :
    (th.send statement : Thread σ × List (TxEvent V))
      = ({ th with conn := (statement th.conn).getD th.conn },
          if (statement th.conn).isSome then [] else [.refused]) := by
  unfold Thread.send
  cases statement th.conn with
  | none => rfl
  | some conn => rfl

/-- Giving up a savepoint, whatever SQLite refuses. -/
theorem abandonSavepoint_eq (th : Thread σ) {depth n : ℕ}
    (h : th.txState = some ⟨depth + 1, n⟩) (name : String) :
    ∃ refused, (th.abandonSavepoint name : Option (Thread σ × List (TxEvent V)))
      = some (⟨some ⟨depth, n⟩, leftConn false name th.conn⟩, refused) := by
  obtain ⟨txState, conn⟩ := th
  obtain rfl : txState = some ⟨depth + 1, n⟩ := h
  unfold Thread.abandonSavepoint Thread.rollbackToSavepoint Thread.releaseSavepoint
  rw [sendInside_eq rfl, send_eq]
  dsimp only
  rw [sendInside_eq rfl, send_eq]
  dsimp only
  rw [finishSavepoint_eq rfl]
  exact ⟨_, rfl⟩

/-- **What a nested call comes to**, from what its body came to: the end of
the call is that of its connection, and a value is lost if the savepoint is
gone. -/
theorem nestedTransaction_eq {f : Thread σ → Option (Run σ V)} {th : Thread σ}
    {state : TransactionState} {conn : Conn σ} {body : Run σ V} {n : ℕ}
    (hstate : th.txState = some state)
    (hset : th.conn.savepoint (savepointName (state.nextSavepoint + 1)) = some conn)
    (hbody : f ⟨some ⟨state.depth + 1, state.nextSavepoint + 1⟩, conn⟩ = some body)
    (hn : body.thread.txState = some ⟨state.depth + 1, n⟩) :
    ∃ r, nestedTransaction f th = some r ∧ r.thread.txState = some ⟨state.depth, n⟩
      ∧ r.thread.conn = leftConn body.outcome.isValue
          (savepointName (state.nextSavepoint + 1)) body.thread.conn
      ∧ r.outcome = if body.outcome.isValue
            ∧ body.thread.conn.release (savepointName (state.nextSavepoint + 1)) = none then
          .error (.sqlite ("no such savepoint: " ++ savepointName (state.nextSavepoint + 1)))
        else body.outcome := by
  set name := savepointName (state.nextSavepoint + 1)
  have hbegin : (th.beginSavepoint : Option (Thread σ × Option String × List (TxEvent V)))
      = some (⟨some ⟨state.depth + 1, state.nextSavepoint + 1⟩, conn⟩, some name, []) := by
    rw [Thread.beginSavepoint, hstate]
    dsimp only
    rw [hset]
  obtain ⟨⟨txState, c⟩, outcome, events⟩ := body
  obtain rfl : txState = some ⟨state.depth + 1, n⟩ := hn
  unfold nestedTransaction
  rw [hbegin]
  dsimp only
  rw [hbody]
  dsimp only
  cases outcome with
  | ok value =>
    unfold Thread.releaseSavepoint
    rw [sendInside_eq rfl, send_eq]
    dsimp only
    rw [finishSavepoint_eq rfl]
    refine ⟨_, rfl, rfl, rfl, ?_⟩
    cases hrelease : c.release name with
    | none => exact (if_pos ⟨rfl, rfl⟩).symm
    | some released => exact (if_neg (fun h => by cases h.2)).symm
  | error error =>
    obtain ⟨refused, habandon⟩ :=
      abandonSavepoint_eq (V := V) ⟨some ⟨state.depth + 1, n⟩, c⟩ rfl name
    dsimp only
    rw [habandon]
    exact ⟨_, rfl, rfl, rfl, (if_neg (fun h => by cases h.1)).symm⟩
  | panic payload =>
    obtain ⟨refused, habandon⟩ :=
      abandonSavepoint_eq (V := V) ⟨some ⟨state.depth + 1, n⟩, c⟩ rfl name
    dsimp only
    rw [habandon]
    exact ⟨_, rfl, rfl, rfl, (if_neg (fun h => by cases h.1)).symm⟩

/-! ## Bodies -/

/-- **A body does what its trail says**: run on the connection a trail is
about, it comes to an end at the same depth, and leaves the connection that
its trail is about. -/
theorem run_trail (body : Body σ ρ V) :
    ∀ (base : σ) (sp : List (String × σ)) (b : Bool) (t : Trail σ ρ) (th : Thread σ)
      (state : TransactionState), (b && sp.isEmpty) = false → th.txState = some state →
      t.IsOn base sp b th.conn →
      ∃ r, body.run th = some r
        ∧ r.thread.txState = some ⟨state.depth, (body.trail base t state.nextSavepoint).savepoints⟩
        ∧ (body.trail base t state.nextSavepoint).trail.IsOn base sp b r.thread.conn
        ∧ r.outcome = (body.trail base t state.nextSavepoint).outcome := by
  induction body with
  | ret outcome =>
    intro base sp b t th state _ hstate hon
    exact ⟨_, rfl, hstate, hon, rfl⟩
  | exec statement next ih =>
    intro base sp b t th state hb hstate hon
    have hview := view_of_isOn hon
    rw [Body.run, hstate, Body.trail]
    dsimp only
    cases heffect : statement (t.content base) with
    | done content answer =>
      rw [Conn.exec_of_done (hview ▸ heffect)]
      have hput := put_isOn hon heffect
      have ih := ih (.ok answer) base sp b _ { th with conn := th.conn.put content } state hb
        hstate hput
      rw [hstate] at ih
      exact ih
    | failed error =>
      rw [Conn.exec_of_failed (hview ▸ heffect)]
      have ih := ih (.error error) base sp b t th state hb hstate hon
      obtain ⟨txState, conn⟩ := th
      obtain rfl : txState = some state := hstate
      exact ih
    | aborted error =>
      rw [Conn.exec_of_aborted (hview ▸ heffect)]
      have ih := ih (.error error) base sp b _ { th with conn := { th.conn with tx := none } } state
        hb hstate (aborted_isOn hon)
      rw [hstate] at ih
      exact ih
  | transaction body next ihbody ihnext =>
    intro base sp b t th state hb hstate hon
    obtain ⟨conn, hset, hinside⟩ := enter_isInside hon (savepointName (state.nextSavepoint + 1))
    obtain ⟨inner, hinner, hn, hon', houtcome⟩ := ihbody _ _ _ _
      ⟨some ⟨state.depth + 1, state.nextSavepoint + 1⟩, conn⟩ _ (Bool.and_false _) rfl hinside
    set walk := body.trail (t.enter base).1 (t.enter base).2 (state.nextSavepoint + 1)
    have hon' : t.IsInside base sp b _ walk.trail inner.thread.conn := hon'
    obtain ⟨called, hcalled, hstate', hconn, hreturned⟩ :=
      nestedTransaction_eq hstate hset hinner hn
    have hleft : (t.leave walk.outcome.isValue walk.trail).IsOn base sp b called.thread.conn := by
      rw [hconn, ← houtcome]
      exact leave_isOn hb hon' _
    have hout : called.outcome = walk.trail.returned
        (savepointName (state.nextSavepoint + 1)) walk.outcome := by
      rw [hreturned, ← houtcome, returned_of_isInside hon']
    obtain ⟨r, hr, hend⟩ := ihnext called.outcome base sp b _ called.thread _ hb hstate' hleft
    refine ⟨{ r with events := called.events ++ r.events }, ?_, ?_⟩
    · rw [Body.run, transaction, if_pos (by rw [hstate]; rfl), hcalled]
      dsimp only
      rw [hr, Option.map_some]
    · rw [Body.trail]
      rw [hout] at hend
      exact hend

/-! ## The outermost call -/

/-- The end of an outermost call, from what its body came to. -/
theorem outerTransaction_eq {f : Thread σ → Option (Run σ V)} {content : σ} {body : Run σ V}
    (hbody : f ⟨some ⟨1, 0⟩, .inside content content []⟩ = some body) :
    ∃ r, outerTransaction f ⟨none, .idle content⟩ = some r
      ∧ ((∃ error, r.outcome = .error error) ↔ (∃ error, body.outcome = .error error)
          ∨ body.outcome.isValue ∧ body.thread.conn.tx = none)
      ∧ (∀ error, r.outcome = .error error →
          r.thread.conn = .idle body.thread.conn.committed) := by
  unfold outerTransaction
  rw [Conn.begin_idle]
  dsimp only
  rw [hbody]
  obtain ⟨⟨txState, ⟨committed, tx⟩⟩, outcome, events⟩ := body
  cases outcome with
  | ok value =>
    cases tx with
    | none =>
      exact ⟨_, rfl, iff_of_true ⟨_, rfl⟩ (Or.inr ⟨rfl, rfl⟩), fun _ _ => rfl⟩
    | some t =>
      refine ⟨_, rfl, iff_of_false ?_ ?_, fun error h => by cases h⟩
      · rintro ⟨error, h⟩
        cases h
      · rintro (⟨error, h⟩ | ⟨-, h⟩)
        · cases h
        · cases h
  | error error =>
    cases tx with
    | none => exact ⟨_, rfl, iff_of_true ⟨_, rfl⟩ (Or.inl ⟨_, rfl⟩), fun _ _ => rfl⟩
    | some t => exact ⟨_, rfl, iff_of_true ⟨_, rfl⟩ (Or.inl ⟨_, rfl⟩), fun _ _ => rfl⟩
  | panic payload =>
    refine ⟨_, rfl, iff_of_false ?_ ?_, fun error h => by cases h⟩
    · rintro ⟨error, h⟩
      cases h
    · rintro (⟨error, h⟩ | ⟨h, -⟩)
      · cases h
      · cases h

/-- **A failed transaction leaves no trace exactly if what escapes does no
harm.** For every body, whichever of its statements make SQLite end the
transaction: an outermost call that returns an error leaves the database as
it was, and outside any transaction, if and only if the effects that escape
the transaction leave it as it was or the body ends in a panic. -/
theorem failed_without_trace (body : Body σ ρ V) (content : σ) :
    ∃ r, transaction body.run ⟨none, .idle content⟩ = some r
      ∧ ((∀ error, r.outcome = .error error → r.thread.conn = .idle content)
        ↔ body.Harmless content) := by
  obtain ⟨inner, hinner, -, hon, houtcome⟩ := run_trail body content [] false (.kept [])
    ⟨some ⟨1, 0⟩, .inside content content []⟩ ⟨1, 0⟩ rfl rfl rfl
  obtain ⟨r, hr, herror, hconn⟩ := outerTransaction_eq hinner
  refine ⟨r, by rw [transaction, if_neg (by simp), hr], ?_⟩
  unfold Body.Harmless
  dsimp only at hon houtcome
  set walk := body.trail content (.kept []) 0
  cases hwalk : walk.trail with
  | kept statements =>
    rw [hwalk] at hon
    have hcommitted : inner.thread.conn.committed = content := by rw [hon]
    refine iff_of_true (fun error h => ?_) (fun statements h => by cases h)
    rw [hconn error h, hcommitted]
  | escaped statements =>
    rw [hwalk] at hon
    have hcommitted : inner.thread.conn.committed = replay content statements := by
      rw [hon]
      rfl
    have htx : inner.thread.conn.tx = none := by
      rw [hon]
      rfl
    rw [hcommitted] at hconn
    constructor
    · intro hleft statements' h hpanic
      cases h
      obtain ⟨error, h⟩ : ∃ error, r.outcome = .error error := by
        rw [herror, houtcome]
        cases hout : walk.outcome with
        | ok value => exact Or.inr ⟨rfl, htx⟩
        | error error => exact Or.inl ⟨error, rfl⟩
        | panic payload => exact absurd hout (hpanic payload)
      exact congrArg Conn.committed ((hconn error h).symm.trans (hleft error h))
    · intro hharmless error h
      rw [hconn error h, hharmless statements rfl (fun payload hpanic => ?_)]
      have := herror.mp ⟨error, h⟩
      rw [houtcome, hpanic] at this
      obtain ⟨error, h⟩ | ⟨h, -⟩ := this
      · cases h
      · cases h

/-- A body that ignores that SQLite ended its transaction, writes and
returns an error. -/
def ignoringBody : Body (List ℕ) Unit ℕ :=
  .exec (fun _ => .aborted (.sqlite "RAISE(ROLLBACK)")) (fun _ =>
    .exec (appendingBody.append 1) (fun _ => .ret (.error .rollback)))

/-- The write is there after the call returned an error. -/
theorem trace_left : ∃ r error, transaction ignoringBody.run ⟨none, .idle []⟩ = some r
    ∧ r.outcome = .error error ∧ r.thread.conn = .idle [1]
    ∧ r.thread.conn ≠ .idle [] := by
  refine ⟨_, _, rfl, rfl, rfl, fun h => ?_⟩
  have h : [1] = [] := congrArg Conn.committed h
  cases h

end Seekwel
