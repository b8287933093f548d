import Seekwel.Transaction

/-!
# Nested transactions are blocks

The meaning of a body, without savepoints and without a thread
(`Body.kept`): the statements whose effect is kept, in order, and what the
body comes to. A nested body that does not end in a value keeps nothing
(`contained`).

Running a body inside an open transaction leaves the transaction with the
kept effects and the same savepoints as before, or outside of any
transaction if a statement ended it (`Keeps`, `keeps_run`). In the latter
case SQLite refuses the control statement at the end of the call, so a run
in which it refuses nothing does what the blocks mean
(`nested_transactions`).
-/

namespace Seekwel

open Savepoint (Conn Effect)

variable {σ ρ V : Type}

/-! ## Blocks -/

/-- The content after the effects of some statements. -/
def replay (content : σ) (statements : List (σ → Effect σ ρ Error)) : σ :=
  statements.foldl (fun content statement =>
    match statement content with
    | .done content' _ => content'
    | _ => content) content

/-- What a body keeps if it ends in a value, and otherwise nothing. -/
def contained (r : List (σ → Effect σ ρ Error) × Outcome V) :
    List (σ → Effect σ ρ Error) × Outcome V :=
  match r with
  | (statements, .ok value) => (statements, .ok value)
  | (_, outcome) => ([], outcome)

/-- **The statements of a body that are kept**, those of the nested calls
among them, and what the body comes to. -/
def Body.kept : Body σ ρ V → σ → List (σ → Effect σ ρ Error) × Outcome V
  | .ret outcome, _ => ([], outcome)
  | .exec statement next, content =>
    match statement content with
    | .done content' answer =>
      let rest := (next (.ok answer)).kept content'
      (statement :: rest.1, rest.2)
    | .failed error => (next (.error error)).kept content
    | .aborted error => (next (.error error)).kept content
  | .transaction body next, content =>
    let called := contained (body.kept content)
    let rest := (next called.2).kept (replay content called.1)
    (called.1 ++ rest.1, rest.2)

theorem replay_cons {content content' : σ} {answer : ρ} {statement : σ → Effect σ ρ Error}
    (h : statement content = .done content' answer)
    (rest : List (σ → Effect σ ρ Error)) :
    replay content (statement :: rest) = replay content' rest := by
  rw [replay, List.foldl_cons, h]
  rfl

theorem replay_append (content : σ) (a b : List (σ → Effect σ ρ Error)) :
    replay content (a ++ b) = replay (replay content a) b := List.foldl_append

/-! ## What a run keeps -/

/-- **What a run leaves of a connection**: the transaction that was open
with the effects that are kept, or none. -/
def Keeps (spec : σ → List (σ → Effect σ ρ Error) × Outcome V) (c : Conn σ) (r : Run σ V) :
    Prop :=
  r.thread.conn.tx = none ∨ ∃ t, c.tx = some t
    ∧ r.thread.conn = ⟨c.committed, some { t with working := replay t.working (spec t.working).1 }⟩
    ∧ r.outcome = (spec t.working).2

/-- Every nested call leaves the depth as it was and returns what its body
came to. -/
def CallsReturn (events : List (TxEvent V)) : Prop :=
  ∀ before after body returned, .call before after body returned ∈ events →
    after = before ∧ returned = body

/-- **What running in a transaction guarantees**: it comes to an end at the
same depth, and if SQLite refuses nothing, the connection is left as the
meaning says. -/
def Blocks (f : Thread σ → Option (Run σ V))
    (spec : σ → List (σ → Effect σ ρ Error) × Outcome V) : Prop :=
  ∀ (th : Thread σ) (state : TransactionState), th.txState = some state →
    ∃ r, f th = some r
      ∧ (∃ n, r.thread.txState = some ⟨state.depth, n⟩)
      ∧ (th.conn.Settled → .refused ∉ r.events → CallsReturn r.events ∧ r.thread.conn.Settled
          ∧ Keeps spec th.conn r)

/-! ## Nested calls -/

theorem sendInside_eq {th : Thread σ} {state : TransactionState}
    (h : th.txState = some state) (statement : Conn σ → Option (Conn σ)) :
    (th.sendInside statement : Option (Thread σ × List (TxEvent V)))
      = some (th.send statement) := by
  rw [Thread.sendInside, h, Option.map_some]

theorem finishSavepoint_eq {th : Thread σ} {depth n : ℕ}
    (h : th.txState = some ⟨depth + 1, n⟩) :
    th.finishSavepoint = some { th with txState := some ⟨depth, n⟩ } := by
  rw [Thread.finishSavepoint, h]
  rfl

@[simp] theorem send_txState (th : Thread σ) (statement : Conn σ → Option (Conn σ)) :
    (th.send statement : Thread σ × List (TxEvent V)).1.txState = th.txState := by
  unfold Thread.send
  split <;> rfl

/-- A control statement that is not refused takes effect. -/
theorem send_conn {th : Thread σ} {statement : Conn σ → Option (Conn σ)}
    (h : .refused ∉ (th.send statement : Thread σ × List (TxEvent V)).2) :
    (th.send statement : Thread σ × List (TxEvent V)).2 = []
      ∧ statement th.conn = some (th.send statement : Thread σ × List (TxEvent V)).1.conn := by
  unfold Thread.send at h ⊢
  split at h
  · rename_i conn hconn
    rw [hconn]
    exact ⟨rfl, rfl⟩
  · exact absurd List.mem_cons_self h

/-- Giving up a savepoint: the depth goes down by one, and what is not
refused takes effect. -/
theorem abandonSavepoint_spec {th : Thread σ} {depth n : ℕ}
    (h : th.txState = some ⟨depth + 1, n⟩) (name : String) :
    ∃ finished refused,
      (th.abandonSavepoint name : Option (Thread σ × List (TxEvent V)))
          = some (finished, refused)
        ∧ finished.txState = some ⟨depth, n⟩
        ∧ (.refused ∉ refused → refused = [] ∧ ∃ conn, th.conn.rollbackTo name = some conn
          ∧ conn.release name = some finished.conn) := by
  set rolledBack : Thread σ × List (TxEvent V) := th.send (fun conn => conn.rollbackTo name)
  have hback : rolledBack.1.txState = some ⟨depth + 1, n⟩ := (send_txState _ _).trans h
  set released : Thread σ × List (TxEvent V) :=
    rolledBack.1.send (fun conn => conn.release name)
  have hreleased : released.1.txState = some ⟨depth + 1, n⟩ := (send_txState _ _).trans hback
  refine ⟨{ released.1 with txState := some ⟨depth, n⟩ }, rolledBack.2 ++ released.2, ?_, rfl, ?_⟩
  · unfold Thread.abandonSavepoint Thread.rollbackToSavepoint Thread.releaseSavepoint
    rw [sendInside_eq h]
    dsimp only
    rw [sendInside_eq hback]
    dsimp only
    rw [finishSavepoint_eq hreleased]
    rfl
  · intro hrefused
    rw [List.mem_append, not_or] at hrefused
    obtain ⟨hnil, hconn⟩ := send_conn hrefused.1
    obtain ⟨hnil', hconn'⟩ := send_conn hrefused.2
    refine ⟨?_, _, hconn, hconn'⟩
    rw [hnil, hnil', List.append_nil]

/-- The depth of a thread in a transaction. -/
theorem depth_eq {th : Thread σ} {state : TransactionState} (h : th.txState = some state) :
    th.depth = state.depth := by
  rw [Thread.depth, h]
  rfl

/-- The calls of a body and one more, which returned what its body came
to. -/
theorem callsReturn_concat {events : List (TxEvent V)} (h : CallsReturn events) (depth : ℕ)
    (outcome : Outcome V) : CallsReturn (events ++ [.call depth depth outcome outcome]) := by
  intro before after body returned hmem
  obtain hmem | hmem := List.mem_append.mp hmem
  · exact h before after body returned hmem
  · cases List.mem_singleton.mp hmem
    exact ⟨rfl, rfl⟩

/-- A connection whose last savepoint was released is what it was, with
another content, or outside of any transaction if the savepoint opened
it. -/
theorem keeps_released {spec : σ → List (σ → Effect σ ρ Error) × Outcome V} {c : Conn σ}
    {t : Savepoint.Tx σ} {r : Run σ V} {w : σ} (hc : c.Settled)
    (hwas : (c.tx = none ∧ (t.bySavepoint && t.savepoints.isEmpty) = true) ∨ c.tx = some t)
    (hconn : r.thread.conn = if t.bySavepoint && t.savepoints.isEmpty then .idle w
      else ⟨c.committed, some { t with working := w }⟩)
    (hw : w = replay t.working (spec t.working).1)
    (houtcome : r.outcome = (spec t.working).2) :
    r.thread.conn.Settled ∧ Keeps spec c r := by
  obtain ⟨-, hopened⟩ | htx := hwas
  · rw [hopened, if_pos rfl] at hconn
    refine ⟨hconn ▸ Conn.settled_idle w, Or.inl ?_⟩
    rw [hconn]
    rfl
  · have hopened := hc t htx
    rw [hopened, if_neg Bool.false_ne_true] at hconn
    subst hw
    refine ⟨fun t' ht' => ?_, Or.inr ⟨t, htx, hconn, houtcome⟩⟩
    rw [hconn] at ht'
    cases ht'
    exact hopened

/-- What a body leaves of the connection on which the savepoint of its call
was set. -/
theorem keeps_pushed {spec : σ → List (σ → Effect σ ρ Error) × Outcome V} {committed : σ}
    {t : Savepoint.Tx σ} {name : String} {body : Run σ V}
    (h : Keeps spec ⟨committed, some { t with
      savepoints := (name, t.working) :: t.savepoints }⟩ body)
    (hopen : body.thread.conn.tx ≠ none) :
    body.thread.conn = ⟨committed, some { t with
        working := replay t.working (spec t.working).1
        savepoints := (name, t.working) :: t.savepoints }⟩
      ∧ body.outcome = (spec t.working).2 := by
  obtain hnone | ⟨t', ht', hconn, houtcome⟩ := h
  · exact absurd hnone hopen
  · cases ht'
    exact ⟨hconn, houtcome⟩

/-- Without a transaction there is no savepoint to release or to roll back
to. -/
theorem tx_ne_none {c c' : Conn σ} {name : String}
    (h : c.release name = some c' ∨ c.rollbackTo name = some c') : c.tx ≠ none := by
  intro hnone
  unfold Conn.release Conn.rollbackTo at h
  rw [hnone] at h
  obtain h | h := h
  all_goals cases h

/-- A nested call whose body did not end in a value. -/
theorem blocks_abandon {spec : σ → List (σ → Effect σ ρ Error) × Outcome V} {th : Thread σ}
    {state : TransactionState} {body : Run σ V} {t : Savepoint.Tx σ} {name : String} {n : ℕ}
    (hstate : th.txState = some state) (hn : body.thread.txState = some ⟨state.depth + 1, n⟩)
    (hwas : (th.conn.tx = none ∧ (t.bySavepoint && t.savepoints.isEmpty) = true)
      ∨ th.conn.tx = some t)
    (hbody : .refused ∉ body.events → CallsReturn body.events
      ∧ Keeps spec ⟨th.conn.committed, some { t with
        savepoints := (name, t.working) :: t.savepoints }⟩ body)
    (hvalue : ∀ value, body.outcome ≠ .ok value) :
    ∃ r, (body.thread.abandonSavepoint name).map (fun (finished, refused) =>
        (⟨finished, body.outcome, body.events ++ refused
          ++ [.call th.depth finished.depth body.outcome body.outcome]⟩ : Run σ V)) = some r
      ∧ (∃ n, r.thread.txState = some ⟨state.depth, n⟩)
      ∧ (th.conn.Settled → .refused ∉ r.events → CallsReturn r.events
        ∧ r.thread.conn.Settled ∧ Keeps (fun content => contained (spec content)) th.conn r) := by
  obtain ⟨finished, refused, habandon, hfinished, hsent⟩ := abandonSavepoint_spec hn name
  rw [habandon]
  refine ⟨_, rfl, ⟨n, hfinished⟩, fun hsettled hrefused => ?_⟩
  rw [List.mem_append, List.mem_append, not_or, not_or] at hrefused
  obtain ⟨hcalls, hkeeps⟩ := hbody hrefused.1.1
  obtain ⟨rfl, conn, hback, hreleased⟩ := hsent hrefused.1.2
  obtain ⟨hconn, houtcome⟩ := keeps_pushed hkeeps (tx_ne_none (Or.inr hback))
  constructor
  · show CallsReturn (body.events ++ [] ++ _)
    rw [List.append_nil, depth_eq hstate, depth_eq hfinished]
    exact callsReturn_concat hcalls _ _
  · have hspec : contained (spec t.working) = ([], body.outcome) := by
      rw [houtcome] at hvalue ⊢
      generalize spec t.working = r at hvalue
      obtain ⟨statements, outcome⟩ := r
      cases outcome with
      | ok value => exact absurd rfl (hvalue value)
      | error error => rfl
      | panic payload => rfl
    rw [hconn, Conn.rollbackTo_pushed _ _ { t with working := _ }] at hback
    obtain rfl := Option.some.inj hback
    rw [Conn.release_pushed] at hreleased
    refine keeps_released hsettled hwas (Option.some.inj hreleased).symm ?_ ?_
    · rw [hspec]
      rfl
    · rw [hspec]

/-- **A nested call is a block**: it is as deep afterwards as before, it
returns what its body came to, and keeps its effects only if that is a
value. -/
theorem blocks_nested {f : Thread σ → Option (Run σ V)}
    {spec : σ → List (σ → Effect σ ρ Error) × Outcome V} (hf : Blocks f spec) :
    Blocks (nestedTransaction f) (fun content => contained (spec content)) := by
  intro th state hstate
  obtain ⟨t, hset, hwas⟩ :=
    th.conn.savepoint_cases (savepointName (state.nextSavepoint + 1))
  set name := savepointName (state.nextSavepoint + 1)
  set th' : Thread σ := ⟨some ⟨state.depth + 1, state.nextSavepoint + 1⟩,
    ⟨th.conn.committed, some { t with savepoints := (name, t.working) :: t.savepoints }⟩⟩
  have hbegin : (th.beginSavepoint : Option (Thread σ × Option String × List (TxEvent V)))
      = some (th', some name, []) := by
    rw [Thread.beginSavepoint, hstate]
    dsimp only
    rw [hset]
  have hsettled' : th'.conn.Settled := by
    intro t' ht'
    cases ht'
    exact Bool.and_false _
  obtain ⟨body, hbody, ⟨n, hn⟩, hguarantee⟩ := hf th' _ rfl
  unfold nestedTransaction
  rw [hbegin]
  dsimp only
  rw [hbody]
  dsimp only
  have habandon := blocks_abandon hstate hn hwas
    (fun hrefused => ⟨(hguarantee hsettled' hrefused).1, (hguarantee hsettled' hrefused).2.2⟩)
  cases houtcome : body.outcome with
  | error error =>
    rw [houtcome] at habandon
    exact habandon (by simp)
  | panic payload =>
    rw [houtcome] at habandon
    exact habandon (by simp)
  | ok value =>
    dsimp only
    unfold Thread.releaseSavepoint
    rw [sendInside_eq hn]
    dsimp only
    set released : Thread σ × List (TxEvent V) :=
      body.thread.send (fun conn => conn.release name) with hreleased
    rw [finishSavepoint_eq ((send_txState _ _).trans hn)]
    refine ⟨_, rfl, ⟨n, rfl⟩, fun hsettled hrefused => ?_⟩
    rw [List.mem_append, List.mem_append, not_or, not_or] at hrefused
    obtain ⟨hcalls, -, hkeeps⟩ := hguarantee hsettled' hrefused.1.1
    obtain ⟨hnil, hsent⟩ := send_conn hrefused.1.2
    obtain ⟨hconn, hvalue⟩ := keeps_pushed hkeeps (tx_ne_none (Or.inl hsent))
    constructor
    · rw [hreleased, hnil, List.append_nil, depth_eq hstate]
      exact callsReturn_concat hcalls _ _
    · have hspec : contained (spec t.working) = spec t.working := by
        rw [houtcome] at hvalue
        generalize spec t.working = r at hvalue
        obtain ⟨statements, outcome⟩ := r
        cases hvalue
        rfl
      rw [hconn, Conn.release_pushed _ _ { t with working := _ }] at hsent
      refine keeps_released hsettled hwas (Option.some.inj hsent).symm ?_ ?_
      · rw [hspec]
      · rw [hspec, ← hvalue, houtcome, hreleased, hnil]
        rfl

/-! ## Bodies -/

/-- A nested call before the rest of a body, which depends on what came of
the call. -/
theorem Keeps.trans {spec : σ → List (σ → Effect σ ρ Error) × Outcome V}
    (rest : Outcome V → σ → List (σ → Effect σ ρ Error) × Outcome V) {c : Conn σ}
    {r r' : Run σ V} (h : Keeps spec c r) (h' : Keeps (rest r.outcome) r.thread.conn r')
    (events : List (TxEvent V)) :
    Keeps (fun content =>
        ((spec content).1 ++ (rest (spec content).2 (replay content (spec content).1)).1,
          (rest (spec content).2 (replay content (spec content).1)).2))
      c { r' with events := events } := by
  obtain hnone | ⟨t, ht, hconn, houtcome⟩ := h
  · obtain hnone' | ⟨t', ht', -⟩ := h'
    · exact Or.inl hnone'
    · rw [hnone] at ht'
      cases ht'
  · rw [houtcome] at h'
    obtain hnone' | ⟨t', ht', hconn', houtcome'⟩ := h'
    · exact Or.inl hnone'
    · rw [hconn] at ht' hconn'
      cases ht'
      refine Or.inr ⟨t, ht, ?_, houtcome'⟩
      rw [replay_append]
      exact hconn'

/-- Executing a statement before the rest of a body. -/
theorem exec_spec (c : Conn σ) (statement : σ → Effect σ ρ Error)
    (next : Except Error ρ → Body σ ρ V) :
    ∃ c' answer, c.exec statement = (c', answer) ∧ (c.Settled → c'.Settled
      ∧ ∀ r : Run σ V, Keeps (next answer).kept c' r →
        Keeps (Body.exec statement next).kept c r) := by
  obtain ⟨committed, tx⟩ := c
  unfold Conn.exec
  cases heffect : statement (Conn.view ⟨committed, tx⟩) with
  | done content answer =>
    cases tx with
    | none =>
      refine ⟨_, _, rfl, fun _ => ⟨fun t ht => (by cases ht), fun r hr => ?_⟩⟩
      obtain hnone | ⟨t, ht, -⟩ := hr
      · exact Or.inl hnone
      · cases ht
    | some t =>
      have heffect : statement t.working = .done content answer := heffect
      refine ⟨_, _, rfl, fun hc => ⟨fun t' ht' => ?_, fun r hr => ?_⟩⟩
      · cases ht'
        exact hc t rfl
      · obtain hnone | ⟨t', ht', hconn, houtcome⟩ := hr
        · exact Or.inl hnone
        · cases ht'
          refine Or.inr ⟨t, rfl, ?_, ?_⟩
          · rw [Body.kept, heffect, hconn]
            dsimp only
            rw [replay_cons heffect]
            rfl
          · rw [Body.kept, heffect]
            exact houtcome
  | failed error =>
    refine ⟨_, _, rfl, fun hc => ⟨hc, fun r hr => ?_⟩⟩
    obtain hnone | ⟨t, rfl, hconn, houtcome⟩ := hr
    · exact Or.inl hnone
    · have heffect : statement t.working = .failed error := heffect
      refine Or.inr ⟨t, rfl, ?_, ?_⟩
      · rw [Body.kept, heffect]
        exact hconn
      · rw [Body.kept, heffect]
        exact houtcome
  | aborted error =>
    refine ⟨_, _, rfl, fun _ => ⟨fun t ht => (by cases ht), fun r hr => ?_⟩⟩
    obtain hnone | ⟨t, ht, -⟩ := hr
    · exact Or.inl hnone
    · cases ht

/-- **A body is a block**: running it inside a transaction does what it
means. -/
theorem blocks_run (body : Body σ ρ V) : Blocks body.run body.kept := by
  induction body with
  | ret outcome =>
    intro th state hstate
    refine ⟨_, rfl, ⟨state.nextSavepoint, hstate⟩, fun hsettled _ => ⟨?_, hsettled, ?_⟩⟩
    · exact fun _ _ _ _ hmem => absurd hmem List.not_mem_nil
    · cases htx : th.conn.tx with
      | none => exact Or.inl htx
      | some t =>
        refine Or.inr ⟨t, htx, ?_, rfl⟩
        show th.conn = ⟨th.conn.committed, some t⟩
        rw [← htx]
  | exec statement next ih =>
    intro th state hstate
    obtain ⟨conn, answer, hexec, hkeeps⟩ := exec_spec th.conn statement next
    obtain ⟨r, hr, hend, hguarantee⟩ := ih answer { th with conn := conn } state hstate
    refine ⟨r, ?_, hend, fun hsettled hrefused => ?_⟩
    · rw [hstate] at hr
      rw [Body.run, hstate]
      dsimp only
      rw [hexec]
      exact hr
    · obtain ⟨hsettled', hkeeps⟩ := hkeeps hsettled
      obtain ⟨hcalls, hleft, hkept⟩ := hguarantee hsettled' hrefused
      exact ⟨hcalls, hleft, hkeeps r hkept⟩
  | transaction body next ihbody ihnext =>
    intro th state hstate
    obtain ⟨called, hcalled, ⟨n, hn⟩, hguarantee⟩ := blocks_nested ihbody th state hstate
    obtain ⟨r, hr, hend, hguarantee'⟩ := ihnext called.outcome called.thread _ hn
    refine ⟨{ r with events := called.events ++ r.events }, ?_, hend, fun hsettled hrefused => ?_⟩
    · rw [Body.run, transaction, if_pos (by rw [hstate]; rfl), hcalled]
      dsimp only
      rw [hr, Option.map_some]
    · rw [List.mem_append, not_or] at hrefused
      obtain ⟨hcalls, hleft, hkept⟩ := hguarantee hsettled hrefused.1
      obtain ⟨hcalls', hleft', hkept'⟩ := hguarantee' hleft hrefused.2
      refine ⟨fun before after body' returned hmem => ?_, hleft', ?_⟩
      · obtain hmem | hmem := List.mem_append.mp hmem
        · exact hcalls before after body' returned hmem
        · exact hcalls' before after body' returned hmem
      · exact Keeps.trans (fun outcome => (next outcome).kept) hkept hkept' _

/-! ## The outermost call -/

/-- What a body that was run in a new transaction leaves, if the
transaction is still open. -/
theorem keeps_begun {spec : σ → List (σ → Effect σ ρ Error) × Outcome V} {content : σ}
    {txState : Option TransactionState} {committed : σ} {t : Savepoint.Tx σ}
    {outcome : Outcome V} {events : List (TxEvent V)}
    (h : Keeps spec (.inside content content []) ⟨⟨txState, ⟨committed, some t⟩⟩, outcome, events⟩) :
    committed = content ∧ t.working = replay content (spec content).1
      ∧ spec content = ((spec content).1, outcome) := by
  obtain hnone | ⟨t', ht', hconn, houtcome⟩ := h
  · cases hnone
  · cases ht'
    cases hconn
    exact ⟨rfl, rfl, Prod.ext rfl houtcome.symm⟩

/-- **Nested transactions have block semantics.** For every body, the
outermost call comes to an end without the code panicking by itself and
without the depth going below zero, and leaves no transaction state. If
SQLite refuses no control statement, no transaction is open afterwards, the
database has the effects of the statements that are kept and no others, the
call returns what its body came to, and so does every nested call, after
which the depth is what it was before. -/
theorem nested_transactions (body : Body σ ρ V) (content : σ) :
    ∃ r, transaction body.run ⟨none, .idle content⟩ = some r
      ∧ r.thread.txState = none
      ∧ (.refused ∉ r.events →
        r.thread.conn = .idle (replay content (contained (body.kept content)).1)
        ∧ r.outcome = (body.kept content).2
        ∧ CallsReturn r.events) := by
  rw [transaction, if_neg (by simp), outerTransaction, Conn.begin_idle]
  dsimp only
  obtain ⟨r, hr, -, hguarantee⟩ :=
    blocks_run body ⟨some ⟨1, 0⟩, .inside content content []⟩ ⟨1, 0⟩ rfl
  have hguarantee := hguarantee (fun t ht => by cases ht; rfl)
  rw [hr]
  dsimp only
  obtain ⟨⟨txState, ⟨committed, tx⟩⟩, outcome, events⟩ := r
  cases tx with
  | none =>
    -- a statement ended the transaction, and SQLite refuses to end it again
    cases outcome with
    | ok value => exact ⟨_, rfl, rfl, fun hrefused => absurd (by simp [Thread.send]) hrefused⟩
    | error error => exact ⟨_, rfl, rfl, fun hrefused => absurd (by simp) hrefused⟩
    | panic payload =>
      exact ⟨_, rfl, rfl, fun hrefused => absurd (by simp [Thread.send, Conn.rollback]) hrefused⟩
  | some t =>
    cases outcome with
    | ok value =>
      refine ⟨_, rfl, rfl, fun hrefused => ?_⟩
      obtain ⟨hcalls, -, hkeeps⟩ := hguarantee hrefused
      obtain ⟨rfl, hworking, hspec⟩ := keeps_begun hkeeps
      rw [hspec]
      exact ⟨congrArg Conn.idle hworking, rfl, hcalls⟩
    | error error =>
      refine ⟨_, rfl, rfl, fun hrefused => ?_⟩
      obtain ⟨hcalls, -, hkeeps⟩ := hguarantee hrefused
      obtain ⟨rfl, hworking, hspec⟩ := keeps_begun hkeeps
      rw [hspec]
      exact ⟨rfl, rfl, hcalls⟩
    | panic payload =>
      refine ⟨⟨⟨none, .idle committed⟩, .panic payload, events⟩, ?_, rfl, fun hrefused => ?_⟩
      · show some (Run.mk _ _ (events ++ [])) = _
        rw [List.append_nil]
        rfl
      · obtain ⟨hcalls, -, hkeeps⟩ := hguarantee hrefused
        obtain ⟨rfl, hworking, hspec⟩ := keeps_begun hkeeps
        rw [hspec]
        exact ⟨rfl, rfl, hcalls⟩

/-- A body that appends numbers: it catches the panic of one nested call,
and keeps what another wrote that ignores the error of a third. -/
def appendingBody : Body (List ℕ) Unit ℕ :=
  .exec (append 1) (fun _ =>
    .transaction (.exec (append 2) (fun _ => .ret (.panic "boom"))) (fun _ =>
      .transaction (.exec (append 3) (fun _ =>
        .transaction (.exec (append 4) (fun _ => .ret (.error .rollback)))
          (fun _ => .ret (.ok 3)))) (fun _ => .ret (.ok 7))))
where
  /-- The statement that appends a number. -/
  append (n : ℕ) (content : List ℕ) : Effect (List ℕ) Unit Error :=
    .done (content ++ [n]) ()

theorem nested_transactions_example :
    ∃ r, transaction appendingBody.run ⟨none, .idle []⟩ = some r
      ∧ r.thread.conn = .idle [1, 3] ∧ r.outcome = .ok 7 ∧ CallsReturn r.events := by
  obtain ⟨r, hr, -, hblocks⟩ := nested_transactions appendingBody []
  have hrun : (transaction appendingBody.run ⟨none, .idle []⟩).all
      (fun r => .refused ∉ r.events) = true := by decide +kernel
  rw [hr] at hrun
  obtain ⟨hconn, houtcome, hcalls⟩ := hblocks (of_decide_eq_true hrun)
  exact ⟨r, hr, hconn, houtcome, hcalls⟩

end Seekwel
