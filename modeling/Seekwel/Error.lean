import Mathlib.Data.List.Forall2

/-!
# Errors and outcomes

The error type that every fallible operation of the crate returns. The
error of the SQLite binding is kept as its message.

A call that may also panic comes to an `Outcome`, which is a value, an error
or the payload of a panic.
-/

namespace Seekwel

/-- Errors produced by connection, model, query and schema operations. -/
inductive Error where
  /-- An error returned by the SQLite binding. -/
  | sqlite (message : String)
  /-- A transaction was intentionally rolled back. -/
  | rollback
  /-- The global connection was initialized more than once. -/
  | alreadyInitialized
  /-- The global connection was used before initialization. -/
  | notInitialized
  /-- A required builder field was not provided. -/
  | missingField (field : String)
  /-- The requested model configuration or conversion is invalid. -/
  | invalidModel (message : String)
  /-- The requested query cannot be represented safely. -/
  | invalidQuery (message : String)
  /-- The provided params cannot be assigned safely. -/
  | invalidParams (message : String)
  /-- The requested association operation is invalid for the current model
  state. -/
  | invalidAssociation (message : String)
  /-- The requested schema operation cannot be represented safely. -/
  | invalidSchema (message : String)
  /-- A schema plan exists, but cannot be applied automatically. -/
  | schemaBlocked (message : String)
  /-- The live schema drifted from the source schema used to build a
  plan. -/
  | schemaDrift (message : String)
  deriving DecidableEq

/-- A call that succeeds with a value, found by computing the call. -/
theorem exists_ok_of_any {α : Type} {x : Except Error α} {p : α → Prop} [DecidablePred p]
    (h : x.toOption.any p = true) : ∃ a, x = .ok a ∧ p a := by
  cases x with
  | error e => cases h
  | ok a => exact ⟨a, rfl, of_decide_eq_true h⟩

/-- Two calls that both succeed. -/
theorem bind_eq_ok {ε α β : Type} {x : Except ε α} {g : α → Except ε β} {b : β}
    (h : x.bind g = .ok b) : ∃ a, x = .ok a ∧ g a = .ok b := by
  cases x with
  | error e => cases h
  | ok a => exact ⟨a, rfl, h⟩

theorem map_eq_ok {ε α β : Type} {x : Except ε α} {g : α → β} {b : β}
    (h : x.map g = .ok b) : ∃ a, x = .ok a ∧ g a = b := by
  cases x with
  | error e => cases h
  | ok a => exact ⟨a, rfl, Except.ok.inj h⟩

/-- Calls on the elements of a list, all of which succeed. -/
theorem mapM_ok_iff {ε α β : Type} {f : α → Except ε β} {as : List α} {bs : List β} :
    as.mapM f = .ok bs ↔ List.Forall₂ (fun a b => f a = .ok b) as bs := by
  induction as generalizing bs with
  | nil =>
    rw [List.mapM_nil, List.forall₂_nil_left_iff]
    exact ⟨fun h => (Except.ok.inj h).symm, fun h => h ▸ rfl⟩
  | cons a as ih =>
    rw [List.mapM_cons, List.forall₂_cons_left_iff]
    constructor
    · intro h
      obtain ⟨b, hb, h⟩ := bind_eq_ok h
      obtain ⟨cs, hcs, h⟩ := bind_eq_ok h
      cases h
      exact ⟨b, cs, hb, ih.mp hcs, rfl⟩
    · rintro ⟨b, cs, ha, has, rfl⟩
      rw [ha, ih.mpr has]
      rfl

theorem exists_mem_of_forall₂ {α β : Type} {R : α → β → Prop} {as : List α} {bs : List β}
    (h : List.Forall₂ R as bs) {b : β} (hb : b ∈ bs) : ∃ a ∈ as, R a b := by
  induction h with
  | nil => exact absurd hb List.not_mem_nil
  | cons hab _ ih =>
    obtain rfl | hb := List.mem_cons.mp hb
    · exact ⟨_, List.mem_cons_self, hab⟩
    · obtain ⟨a, ha, hab⟩ := ih hb
      exact ⟨a, List.mem_cons_of_mem _ ha, hab⟩

/-- **What a call comes to.** -/
inductive Outcome (α : Type) where
  | ok (value : α)
  | error (e : Error)
  | panic (payload : String)
  deriving DecidableEq

end Seekwel
