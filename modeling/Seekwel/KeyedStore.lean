import Mathlib.Logic.Function.Basic

/-!
# Stores of values under keys

What a store of values under keys owes those who ask it for something,
whatever it is made of: a value is added under a key that is free, replaced
or removed under one that is taken, and got as it was stored last. A request
that cannot be met is refused and changes nothing.

A store may also refuse what it could do, for reasons of its own. Which
requests those are is part of what it promises (`Interface.mayRefuse`).

A machine **implements** a store if each of its steps is what the store owes
for one request (`Implements`). Then all of its runs are (`Implements.run`).
-/

namespace KeyedStore

variable {α β σ κ ν : Type}

/-- **A store**: the values under the keys that are taken. -/
abbrev Store (κ ν : Type) := κ → Option ν

/-- What a store is asked for. -/
inductive Request (κ ν : Type) where
  /-- To add a value, under a given key or one that is chosen for it. -/
  | add (key : Option κ) (value : ν)
  | replace (key : κ) (value : ν)
  | remove (key : κ)
  | get (key : κ)

/-- What a store replies. -/
inductive Reply (κ ν : Type) where
  | added (key : κ) (value : ν)
  | replaced
  | removed
  | got (key : κ) (value : ν)
  | refused

namespace Store

/-- Whether a store can do what it is asked for. -/
def CanDo (s : Store κ ν) : Request κ ν → Prop
  | .add key _ => ∀ k ∈ key, s k = none
  | .replace key _ | .remove key | .get key => s key ≠ none

/-- **A reply is right**: it is what the store owes for the request. -/
def Right (s : Store κ ν) (mayRefuse : Prop) : Request κ ν → Reply κ ν → Prop
  | .add key value, .added key' value' => s key' = none ∧ (∀ k ∈ key, k = key') ∧ value' = value
  | .replace key _, .replaced => s key ≠ none
  | .remove key, .removed => s key ≠ none
  | .get key, .got key' value => key' = key ∧ s key = some value
  | request, .refused => mayRefuse ∨ ¬ s.CanDo request
  | _, _ => False

variable [DecidableEq κ]

/-- **The store after a request** and its reply. -/
def after (s : Store κ ν) : Request κ ν → Reply κ ν → Store κ ν
  | .add _ value, .added key _ => Function.update s key (some value)
  | .replace key value, .replaced => Function.update s key (some value)
  | .remove key, .removed => Function.update s key none
  | _, _ => s

end Store

/-- How the operations and answers of a machine are requests and replies of a
store. -/
structure Interface (α β κ ν : Type) where
  request : α → Request κ ν
  reply : β → Reply κ ν
  /-- What may be refused although it could be done. -/
  mayRefuse : α → Prop

variable [DecidableEq κ] (I : Interface α β κ ν)

/-- The store after some operations and their answers. -/
def Interface.afterAll (s : Store κ ν) (log : List (α × β)) : Store κ ν :=
  log.foldl (fun s entry => s.after (I.request entry.1) (I.reply entry.2)) s

/-- **All answers are right**, each for the store that the ones before it
left. -/
def Interface.RightRun (I : Interface α β κ ν) : Store κ ν → List (α × β) → Prop
  | _, [] => True
  | s, (a, b) :: log =>
    s.Right (I.mayRefuse a) (I.request a) (I.reply b)
      ∧ I.RightRun (s.after (I.request a) (I.reply b)) log

/-- The operations of a run with their answers. -/
def log (step : σ → α → β × σ) : σ → List α → List (α × β)
  | _, [] => []
  | s, a :: as => (a, (step s a).1) :: log step (step s a).2 as

/-- The state that a run leads to. -/
def final (step : σ → α → β × σ) (s : σ) (as : List α) : σ :=
  as.foldl (fun s a => (step s a).2) s

/-- **A machine implements a store.** -/
structure Implements (step : σ → α → β × σ) (Inv : σ → Prop) (contents : σ → Store κ ν) :
    Prop where
  /-- An answer is right. -/
  right : ∀ s a, Inv s →
    (contents s).Right (I.mayRefuse a) (I.request a) (I.reply (step s a).1)
  /-- A step does what its answer tells. -/
  after : ∀ s a, Inv s →
    contents (step s a).2 = (contents s).after (I.request a) (I.reply (step s a).1)
  inv : ∀ s a, Inv s → Inv (step s a).2

variable {I} {step : σ → α → β × σ} {Inv : σ → Prop} {contents : σ → Store κ ν}

/-- **A machine that implements a store** does so in every run. -/
theorem Implements.run (h : Implements I step Inv contents) {s : σ} (hs : Inv s) (as : List α) :
    I.RightRun (contents s) (log step s as)
      ∧ contents (final step s as) = I.afterAll (contents s) (log step s as)
      ∧ Inv (final step s as) := by
  induction as generalizing s with
  | nil => exact ⟨trivial, rfl, hs⟩
  | cons a as ih =>
    obtain ⟨hright, hafter, hinv⟩ := ih (h.inv s a hs)
    rw [h.after s a hs] at hright hafter
    exact ⟨⟨h.right s a hs, hright⟩, hafter, hinv⟩

end KeyedStore
