import Seekwel.GrowingReads
import Seekwel.HasManyQuery

/-!
# Values are bound

The values that a query compares with are sent to SQLite as parameters, and so
is the key of the parent of an association. None of them reaches the text of a
statement: to a connection that answers by the texts and by the numbers of
parameters alone, queries that differ in such values only are the same
(`values_stay_bound`), however they are built and run.

Whether there is a value at all does show, for `NULL` is written into the text,
and so does the length of a list.
-/

namespace Seekwel.Model

open QueryDsl (intoQueryPlan)
open Reader (returned)

/-! ## Queries that differ in values -/

/-- **As much to compare with.** -/
def ComparisonValue.Alike : ComparisonValue → ComparisonValue → Prop
  | single a, single b => a.isSome = b.isSome
  | many as, many bs => as.length = bs.length
  | _, _ => False

structure Comparison.Alike (a b : Comparison) : Prop where
  operator : a.operator = b.operator
  value : a.value.Alike b.value

/-- **Filters that differ in their values** at most. -/
inductive QueryExpression.Alike : QueryExpression → QueryExpression → Prop
  | empty : Alike .empty .empty
  | predicate (column : String) {a b : Comparison} : a.Alike b →
      Alike (.predicate column a) (.predicate column b)
  | and {l l' r r' : QueryExpression} : Alike l l' → Alike r r' → Alike (.and l r) (.and l' r')
  | or {l l' r r' : QueryExpression} : Alike l l' → Alike r r' → Alike (.or l r) (.or l' r')

/-- Queries that differ in the values of their filters. -/
structure Query.Alike (q q' : Query) : Prop where
  expression : q.expression.Alike q'.expression
  ordering : q.ordering = q'.ordering
  limit : q.limit = q'.limit
  offset : q.offset = q'.offset

/-- Calls that differ in the values of the queries they add. -/
inductive Call.Alike : Call → Call → Prop
  | and {q q' : Query} : q.Alike q' → Alike (.and q) (.and q')
  | or {q q' : Query} : q.Alike q' → Alike (.or q) (.or q')
  | same (c : Call) : Alike c c

/-- **Associations that differ in their parents.** -/
inductive HasMany.Alike : HasMany → HasMany → Prop
  | unbound (handlers : HasManyHandlers) : Alike ⟨none, handlers⟩ ⟨none, handlers⟩
  | missing (id id' : ℕ) : Alike ⟨some id, .missing⟩ ⟨some id', .missing⟩
  | generated (column : String) (id id' : ℕ) :
      Alike ⟨some id, .generated column⟩ ⟨some id', .generated column⟩

theorem Comparison.Alike.refl (a : Comparison) : a.Alike a where
  operator := rfl
  value := by
    cases a.value
    all_goals exact rfl

theorem QueryExpression.Alike.refl (q : QueryExpression) : q.Alike q := by
  induction q with
  | empty => exact .empty
  | predicate column comparison => exact .predicate column (Comparison.Alike.refl comparison)
  | and left right ihl ihr => exact .and ihl ihr
  | or left right ihl ihr => exact .or ihl ihr

theorem Query.Alike.refl (q : Query) : q.Alike q := ⟨.refl q.expression, rfl, rfl, rfl⟩

/-! ## Results that are alike -/

/-- **The same error, or results that are related.** -/
inductive SameError {α β : Type} (r : α → β → Prop) : Except Error α → Except Error β → Prop
  | error (error : Error) : SameError r (.error error) (.error error)
  | ok {a : α} {b : β} : r a b → SameError r (.ok a) (.ok b)

namespace SameError

variable {α β α' β' : Type} {r : α → β → Prop} {r' : α' → β' → Prop} {x : Except Error α}
  {y : Except Error β}

theorem bind (h : SameError r x y) {f : α → Except Error α'} {g : β → Except Error β'}
    (hfg : ∀ a b, r a b → SameError r' (f a) (g b)) : SameError r' (x.bind f) (y.bind g) := by
  cases h with
  | error error => exact .error error
  | ok hab => exact hfg _ _ hab

theorem map (h : SameError r x y) {f : α → α'} {g : β → β'} (hfg : ∀ a b, r a b → r' (f a) (g b)) :
    SameError r' (x.map f) (y.map g) := by
  cases h with
  | error error => exact .error error
  | ok hab => exact .ok (hfg _ _ hab)

/-- Related results that are the same for what is done with them. -/
theorem bind_eq (h : SameError r x y) {f : α → Except Error α'} {g : β → Except Error α'}
    (hfg : ∀ a b, r a b → f a = g b) : x.bind f = y.bind g := by
  cases h with
  | error error => rfl
  | ok hab => exact hfg _ _ hab

end SameError

/-! ## Texts -/

/-- The same text and as many parameters. -/
def SameText {α : Type} (p p' : α × List Value) : Prop := p.1 = p'.1 ∧ p.2.length = p'.2.length

theorem sameText_comparisonClause (column operator : String) (value value' : Value)
    {params params' : List Value} (hlength : params.length = params'.length) :
    SameError SameText (comparisonClause column operator value params)
      (comparisonClause column operator value' params') := by
  refine .ok ⟨?_, ?_⟩
  · simp [hlength]
  · simp [hlength]

/-- A list of values has the same text as another one of its length. -/
theorem sameText_in (column : String) {values values' params params' : List Value}
    (hvalues : values.length = values'.length) (hlength : params.length = params'.length)
    : SameError SameText
      (.ok (column ++ " IN (" ++ Text.join ", " (pushPlaceholders params values).1 ++ ")",
        (pushPlaceholders params values).2))
      (.ok (column ++ " IN (" ++ Text.join ", " (pushPlaceholders params' values').1 ++ ")",
        (pushPlaceholders params' values').2)) := by
  refine .ok ⟨?_, ?_⟩
  · simp [pushPlaceholders_eq, hvalues, hlength]
  · simp [pushPlaceholders_eq, hvalues, hlength]

/-- **A comparison has the same text**, whatever the values. -/
theorem Comparison.Alike.intoClause {a b : Comparison} (h : a.Alike b) (column : String)
    {params params' : List Value} (hlength : params.length = params'.length) :
    SameError SameText (a.intoClause column params) (b.intoClause column params') := by
  obtain ⟨operator, value, hmany, hnull⟩ := a
  obtain ⟨operator', value', hmany', hnull'⟩ := b
  obtain rfl : operator = operator' := h.operator
  have hvalue : value.Alike value' := h.value
  cases value with
  | single x =>
    cases value' with
    | many values => exact hvalue.elim
    | single x' =>
      cases x with
      | none =>
        obtain rfl : x' = none :=
          Option.isNone_iff_eq_none.mp (Option.isSome_eq_false_iff.mp (Eq.symm hvalue))
        cases operator
        all_goals first
          | exact .ok ⟨rfl, hlength⟩
          | exact .error _
      | some x =>
        obtain ⟨x', rfl⟩ := Option.isSome_iff_exists.mp (Eq.symm hvalue)
        cases operator
        all_goals first
          | exact sameText_comparisonClause column _ x x' hlength
          | exact .ok ⟨rfl, hlength⟩
          | exact .error _
  | many values =>
    cases value' with
    | single x => exact hvalue.elim
    | many values' =>
      cases operator
      case «in» =>
        have hvalues : values.length = values'.length := hvalue
        cases values with
        | nil =>
          obtain rfl := List.eq_nil_of_length_eq_zero hvalues.symm
          exact .ok ⟨rfl, hlength⟩
        | cons x values =>
          cases values' with
          | nil => cases hvalues
          | cons x' values' => exact sameText_in column hvalues hlength
      all_goals exact .error _

theorem sameText_combineClauses {l l' r r' : Option String × List Value} (word : String)
    (hl : SameText l l') (hr : SameText r r') :
    SameText (combineClauses l.1 r.1 word, r.2) (combineClauses l'.1 r'.1 word, r'.2) :=
  ⟨by rw [hl.1, hr.1], hr.2⟩

/-- **A filter has the same text**, whatever the values. -/
theorem QueryExpression.Alike.intoClause {q q' : QueryExpression} (h : q.Alike q')
    {params params' : List Value} (hlength : params.length = params'.length) :
    SameError SameText (q.intoClause params) (q'.intoClause params') := by
  induction h generalizing params params' with
  | empty => exact .ok ⟨rfl, hlength⟩
  | predicate column hcomparison =>
    exact (hcomparison.intoClause column hlength).map fun _ _ hsame =>
      ⟨congrArg some hsame.1, hsame.2⟩
  | and _ _ ihl ihr =>
    exact (ihl hlength).bind fun l l' hl => (ihr hl.2).map fun _ _ hr =>
      sameText_combineClauses "AND" hl hr
  | or _ _ ihl ihr =>
    exact (ihl hlength).bind fun l l' hl => (ihr hl.2).map fun _ _ hr =>
      sameText_combineClauses "OR" hl hr

/-- **Plans that differ in their parameters**, but not in how many they are. -/
structure QueryPlan.Alike (plan plan' : QueryPlan) : Prop where
  eq : plan' = { plan with params := plan'.params }
  length_eq : plan.params.length = plan'.params.length

theorem Query.Alike.intoQueryPlan {q q' : Query} (h : q.Alike q') (M : ModelDef) :
    SameError QueryPlan.Alike (QueryDsl.intoQueryPlan M q) (QueryDsl.intoQueryPlan M q') := by
  obtain ⟨expression, ordering, limit, offset⟩ := q
  obtain ⟨expression', ordering', limit', offset'⟩ := q'
  obtain rfl : ordering = ordering' := h.ordering
  obtain rfl : limit = limit' := h.limit
  obtain rfl : offset = offset' := h.offset
  refine (h.expression.intoClause rfl).map fun p p' hsame => ⟨?_, hsame.2⟩
  rw [hsame.1]

/-! ## Building -/

open Fetch (forward)

/-- Joining filters, with *and* or with *or*. -/
theorem Query.Alike.join {q q' other other' : Query} (h : q.Alike q') (hother : other.Alike other') :
    (QueryDsl.andQuery q other).Alike (QueryDsl.andQuery q' other')
      ∧ (QueryDsl.orQuery q other).Alike (QueryDsl.orQuery q' other') :=
  ⟨⟨.and h.expression hother.expression, h.ordering, h.limit, h.offset⟩,
    ⟨.or h.expression hother.expression, h.ordering, h.limit, h.offset⟩⟩

theorem Query.Alike.forward {q q' : Query} {c c' : Call} (h : q.Alike q') (hc : c.Alike c') :
    (forward q c).Alike (forward q' c') := by
  cases hc with
  | and hother => exact (h.join hother).1
  | or hother => exact (h.join hother).2
  | same c =>
    cases c with
    | and other => exact (h.join (.refl other)).1
    | or other => exact (h.join (.refl other)).2
    | order order => exact ⟨h.expression, congrArg (· ++ order.terms) h.ordering, h.limit, h.offset⟩
    | limit limit => exact ⟨h.expression, h.ordering, rfl, h.offset⟩
    | offset offset => exact ⟨h.expression, h.ordering, h.limit, rfl⟩
    | lazy => exact h
    | chunked chunkSize pos => exact h

/-- Queries of associations that differ in values. -/
structure HasManyQuery.Alike (q q' : HasManyQuery) : Prop where
  scope : SameError Query.Alike q.scope q'.scope
  filters : Option.Rel Query.Alike q.filters q'.filters

theorem Query.alike_eq (column : String) (x y : Value) :
    (Query.new column (.Eq (.field x))).Alike (Query.new column (.Eq (.field y))) :=
  ⟨.predicate column ⟨rfl, rfl⟩, rfl, rfl, rfl⟩

theorem HasMany.Alike.query {association association' : HasMany}
    (h : association.Alike association') : association.query.Alike association'.query where
  filters := .none
  scope := by
    cases h with
    | unbound handlers => exact .error _
    | missing id id' => exact .error _
    | generated column id id' => exact .ok (Query.alike_eq column _ _)

theorem HasManyQuery.Alike.join {q q' : HasManyQuery} {other other' : Query} (h : q.Alike q')
    (hother : other.Alike other') :
    (QueryDsl.andQuery q other).Alike (QueryDsl.andQuery q' other')
      ∧ (QueryDsl.orQuery q other).Alike (QueryDsl.orQuery q' other') := by
  obtain ⟨scope, filters⟩ := q
  obtain ⟨scope', filters'⟩ := q'
  have hfilters : Option.Rel Query.Alike filters filters' := h.filters
  cases hfilters with
  | none => exact ⟨⟨h.scope, .some hother⟩, ⟨h.scope, .some hother⟩⟩
  | some hfilter =>
    exact ⟨⟨h.scope, .some (hfilter.join hother).1⟩, ⟨h.scope, .some (hfilter.join hother).2⟩⟩

theorem HasManyQuery.Alike.forward {q q' : HasManyQuery} {c c' : Call} (h : q.Alike q')
    (hc : c.Alike c') : (forward q c).Alike (forward q' c') := by
  cases hc with
  | and hother => exact (h.join hother).1
  | or hother => exact (h.join hother).2
  | same c =>
    cases c with
    | and other => exact (h.join (.refl other)).1
    | or other => exact (h.join (.refl other)).2
    | order order =>
      exact ⟨h.scope.map fun _ _ hq => hq.forward (.same (.order order)), h.filters⟩
    | limit limit =>
      exact ⟨h.scope.map fun _ _ hq => hq.forward (.same (.limit limit)), h.filters⟩
    | offset offset =>
      exact ⟨h.scope.map fun _ _ hq => hq.forward (.same (.offset offset)), h.filters⟩
    | lazy => exact h
    | chunked chunkSize pos => exact h

theorem HasManyQuery.Alike.intoQueryPlan {q q' : HasManyQuery} (h : q.Alike q') (M : ModelDef) :
    SameError QueryPlan.Alike (QueryDsl.intoQueryPlan M q) (QueryDsl.intoQueryPlan M q') := by
  obtain ⟨scope, filters⟩ := q
  obtain ⟨scope', filters'⟩ := q'
  have hfilters : Option.Rel Query.Alike filters filters' := h.filters
  refine h.scope.bind fun q q' hq => ?_
  cases hfilters with
  | none => exact hq.intoQueryPlan M
  | some hfilter => exact (hq.join hfilter).1.intoQueryPlan M

/-- **Any calls.** -/
theorem alike_foldl {Q : Type} [QueryDsl Q] {r : Q → Q → Prop}
    (h : ∀ {q q' c c'}, r q q' → Call.Alike c c' → r (forward q c) (forward q' c'))
    {cs cs' : List Call} (hcs : List.Forall₂ Call.Alike cs cs') {q q' : Q} (hq : r q q') :
    r (cs.foldl forward q) (cs'.foldl forward q') := by
  induction hcs generalizing q q' with
  | nil => exact hq
  | cons hc _ ih => exact ih (h hq hc)

/-! ## Running -/

/-- **A connection that does not see values**: it answers by the text and by
the number of the parameters. -/
def Blind (get : Except Error Conn) : Prop :=
  ∀ conn, get = .ok conn → ∀ query params params', params.length = params'.length →
    conn query params = conn query params'

/-- **Queries that a connection does not tell apart** if it does not see values. -/
structure Indistinguishable {R Q : Type} [QueryDsl Q] (M : PersistedModel R) (f f' : Fetch Q) :
    Prop where
  all : ∀ get, Blind get → f.all M get = f'.all M get
  first : ∀ get, Blind get → f.first M get = f'.first M get
  count : ∀ get, Blind get → f.count M get = f'.count M get
  «exists» : ∀ get, Blind get → f.exists M get = f'.exists M get
  /-- What is yielded, whatever happens between the calls. -/
  lazy : ∀ gets, (∀ get ∈ gets, Blind get) →
    (f.toLazy.tryIter M.toModelDef).map (fun it => returned (LazyTryIter.next M) it gets)
      = (f'.toLazy.tryIter M.toModelDef).map fun it => returned (LazyTryIter.next M) it gets
  chunked : ∀ size gets, (∀ get ∈ gets, Blind get) →
    ((f.toChunked size).tryIter M.toModelDef).map
        (fun it => returned (ChunkedTryIter.next M) it gets)
      = ((f'.toChunked size).tryIter M.toModelDef).map
        fun it => returned (ChunkedTryIter.next M) it gets

section Run

variable {R : Type} {M : PersistedModel R} {get : Except Error Conn}

theorem Blind.queryAllRead_eq {conn : Conn} (h : Blind (.ok conn)) {params params' : List Value}
    (hlength : params.length = params'.length) (query : String) {α : Type}
    (f : List Value → Except Error α) :
    queryAllRead conn query params f = queryAllRead conn query params' f :=
  congrArg (Except.bind · _) (h conn rfl query _ _ hlength)

theorem Blind.queryOptionalRead_eq {conn : Conn} (h : Blind (.ok conn))
    {params params' : List Value} (hlength : params.length = params'.length) (query : String)
    {α : Type} (f : List Value → Except Error α) :
    queryOptionalRead conn query params f = queryOptionalRead conn query params' f :=
  congrArg (Except.bind · _) (h conn rfl query _ _ hlength)

theorem Blind.queryRowRead_eq {conn : Conn} (h : Blind (.ok conn)) {params params' : List Value}
    (hlength : params.length = params'.length) (query : String) {α : Type}
    (f : List Value → Except Error α) :
    queryRowRead conn query params f = queryRowRead conn query params' f :=
  congrArg (Except.bind · _) (h conn rfl query _ _ hlength)

/-- A lazy iterator with other parameters. -/
theorem LazyTryIter.next_params (hblind : Blind get) {it : LazyTryIter} {params : List Value}
    (hlength : it.plan.params.length = params.length) :
    LazyTryIter.next M get { it with plan := { it.plan with params := params } }
      = ((it.next M get).1,
        { (it.next M get).2 with plan := { (it.next M get).2.plan with params := params } }) := by
  have hlimit : ({ it.plan with params := params } : QueryPlan).remainingLimit it.consumed
    = it.plan.remainingLimit it.consumed := rfl
  have hpage : ({ it.plan with params := params } : QueryPlan).pagedQuery 1 it.consumed
    = it.plan.pagedQuery 1 it.consumed := rfl
  by_cases hdone : it.done = true
  · simp only [LazyTryIter.next, hdone, if_true]
  by_cases hzero : it.plan.remainingLimit it.consumed = some 0
  · simp only [LazyTryIter.next, hdone, hlimit, hzero, if_true, if_false, Bool.false_eq_true]
  cases get with
  | error error =>
    simp only [LazyTryIter.next, hdone, hlimit, hzero, if_false, Bool.false_eq_true]
  | ok conn =>
    have hread := hblind.queryOptionalRead_eq hlength (it.plan.pagedQuery 1 it.consumed) M.fromRow
    simp only [LazyTryIter.next, hdone, hlimit, hzero, hpage, if_false, Bool.false_eq_true, ← hread]
    rcases queryOptionalRead conn (it.plan.pagedQuery 1 it.consumed) it.plan.params M.fromRow with
      _ | (_ | _)
    all_goals rfl

/-- A chunked iterator with other parameters. -/
theorem ChunkedTryIter.next_params (hblind : Blind get) {it : ChunkedTryIter} {params : List Value}
    (hlength : it.plan.params.length = params.length) :
    ChunkedTryIter.next M get { it with plan := { it.plan with params := params } }
      = ((it.next M get).1,
        { (it.next M get).2 with plan := { (it.next M get).2.plan with params := params } }) := by
  have hlimit : ∀ consumed, ({ it.plan with params := params } : QueryPlan).remainingLimit consumed
    = it.plan.remainingLimit consumed := fun _ => rfl
  have hchunk : ∀ done, ({ it with plan := { it.plan with params := params }, done := done } :
    ChunkedTryIter).chunkLimit = it.chunkLimit := fun _ => rfl
  have hpage : ({ it.plan with params := params } : QueryPlan).pagedQuery it.chunkLimit it.consumed
    = it.plan.pagedQuery it.chunkLimit it.consumed := rfl
  by_cases hdone : it.done = true
  · simp only [ChunkedTryIter.next, hdone, if_true]
  by_cases hzero : it.plan.remainingLimit it.consumed = some 0
  · simp only [ChunkedTryIter.next, hdone, hlimit, hzero, if_true, if_false, Bool.false_eq_true]
  cases get with
  | error error =>
    simp only [ChunkedTryIter.next, hdone, hlimit, hzero, if_false, Bool.false_eq_true]
  | ok conn =>
    have hread := hblind.queryAllRead_eq hlength (it.plan.pagedQuery it.chunkLimit it.consumed)
      M.fromRow
    simp only [ChunkedTryIter.next, hdone, hlimit, hzero, hchunk, hpage, if_false,
      Bool.false_eq_true, ← hread]
    rcases queryAllRead conn (it.plan.pagedQuery it.chunkLimit it.consumed) it.plan.params
      M.fromRow with _ | (_ | _)
    all_goals rfl

/-- **Plans that are alike are run alike.** -/
theorem indistinguishable {Q : Type} [QueryDsl Q] {f f' : Fetch Q}
    (h : SameError QueryPlan.Alike (intoQueryPlan M.toModelDef f.inner)
      (intoQueryPlan M.toModelDef f'.inner)) : Indistinguishable M f f' := by
  have hrun : ∀ {α : Type} {get : Except Error Conn} (read : Conn → QueryPlan → Except Error α),
      (∀ conn, get = .ok conn → ∀ plan params, plan.params.length = params.length →
        read conn plan = read conn { plan with params := params }) →
      (get.bind fun conn => (intoQueryPlan M.toModelDef f.inner).bind (read conn))
        = get.bind fun conn => (intoQueryPlan M.toModelDef f'.inner).bind (read conn) := by
    intro α get read hread
    cases get with
    | error error => rfl
    | ok conn =>
      refine h.bind_eq fun plan plan' hplan => ?_
      rw [hplan.eq]
      exact hread conn rfl plan _ hplan.length_eq
  refine ⟨fun get hblind => ?_, fun get hblind => ?_, fun get hblind => ?_, fun get hblind => ?_,
    fun gets hblind => ?_, fun size gets hblind => ?_⟩
  · rw [Fetch.all_eq, Fetch.all_eq]
    refine hrun (fun conn plan => queryAllRead conn plan.allQuery plan.params M.fromRow) ?_
    rintro conn rfl plan params hlength
    exact hblind.queryAllRead_eq hlength _ _
  · rw [Fetch.first_eq, Fetch.first_eq]
    refine hrun (fun conn plan =>
      queryOptionalRead conn plan.firstQuery plan.params M.fromRow) ?_
    rintro conn rfl plan params hlength
    exact hblind.queryOptionalRead_eq hlength _ _
  · rw [Fetch.count_eq, Fetch.count_eq]
    refine hrun (fun conn plan => (queryRowRead conn plan.countQuery plan.params getI64).bind
      fun count => .ok (count % 2 ^ 64).toNat) ?_
    rintro conn rfl plan params hlength
    exact congrArg (Except.bind · _) (hblind.queryRowRead_eq hlength _ _)
  · rw [Fetch.exists_eq, Fetch.exists_eq]
    refine hrun (fun conn plan => (queryOptionalRead conn plan.existsQuery plan.params getI64).bind
      fun value => .ok value.isSome) ?_
    rintro conn rfl plan params hlength
    exact congrArg (Except.bind · _) (hblind.queryOptionalRead_eq hlength _ _)
  · rw [Fetch.tryIter_toLazy, Fetch.tryIter_toLazy]
    generalize intoQueryPlan M.toModelDef f.inner = x at h ⊢
    generalize intoQueryPlan M.toModelDef f'.inner = y at h ⊢
    cases h with
    | error error => rfl
    | @ok plan plan' hplan =>
      refine congrArg Except.ok (Reader.returned_congr (r := fun it it' =>
        ∃ params, it.plan.params.length = params.length
          ∧ it' = { it with plan := { it.plan with params := params } }) ?_ ?_)
      · rintro get hget it it' ⟨params, hlength, rfl⟩
        rw [LazyTryIter.next_params (hblind get hget) hlength]
        exact ⟨rfl, params, (LazyTryIter.plan_next M get it).symm ▸ hlength, rfl⟩
      · exact ⟨plan'.params, hplan.length_eq, by rw [← hplan.eq]⟩
  · rw [Fetch.tryIter_toChunked, Fetch.tryIter_toChunked]
    generalize intoQueryPlan M.toModelDef f.inner = x at h ⊢
    generalize intoQueryPlan M.toModelDef f'.inner = y at h ⊢
    cases h with
    | error error => rfl
    | @ok plan plan' hplan =>
      refine congrArg Except.ok (Reader.returned_congr (r := fun it it' =>
        ∃ params, it.plan.params.length = params.length
          ∧ it' = { it with plan := { it.plan with params := params } }) ?_ ?_)
      · rintro get hget it it' ⟨params, hlength, rfl⟩
        rw [ChunkedTryIter.next_params (hblind get hget) hlength]
        exact ⟨rfl, params, (ChunkedTryIter.plan_next M get it).symm ▸ hlength, rfl⟩
      · exact ⟨plan'.params, hplan.length_eq, by rw [← hplan.eq]⟩

end Run

/-- **Values stay bound.** Queries, and queries of associations, that are built
by the same calls but for the values in them are answered alike by every
connection that does not see values: the texts of their statements and the
numbers of their parameters are the same, in whichever way they are run. -/
theorem values_stay_bound {R : Type} (M : PersistedModel R) {cs cs' : List Call}
    (hcs : List.Forall₂ Call.Alike cs cs') :
    (∀ q q' : Query, q.Alike q' →
      Indistinguishable M ((Fetch.eager q).calls cs) ((Fetch.eager q').calls cs'))
    ∧ ∀ association association' : HasMany, association.Alike association' →
      Indistinguishable M (association.calls cs) (association'.calls cs') := by
  refine ⟨fun q q' hq => indistinguishable ?_, fun association association' h =>
    indistinguishable ?_⟩
  · rw [Fetch.inner_calls, Fetch.inner_calls]
    exact (alike_foldl Query.Alike.forward hcs hq).intoQueryPlan M.toModelDef
  · rw [HasMany.calls, HasMany.calls, Fetch.inner_calls, Fetch.inner_calls]
    exact (alike_foldl HasManyQuery.Alike.forward hcs h.query).intoQueryPlan M.toModelDef

/-! ## Two pets -/

/-- Children with a name, which may be anything. -/
def petsNamed (name : String) : List Call := [.q "name" (.Eq (.field (.text name))), .lazy]

theorem alike_petsNamed (name name' : String) :
    List.Forall₂ Call.Alike (petsNamed name) (petsNamed name') :=
  .cons (.and ⟨.predicate "name" ⟨rfl, rfl⟩, rfl, rfl, rfl⟩) (.cons (.same .lazy) .nil)

theorem names_stay_bound :
    (∀ q q' : Query, q.Alike q' → Indistinguishable petModel
      ((Fetch.eager q).calls (petsNamed "Rex")) ((Fetch.eager q').calls (petsNamed "0 OR 1 = 1")))
    ∧ ∀ association association' : HasMany, association.Alike association' →
      Indistinguishable petModel (association.calls (petsNamed "Rex"))
        (association'.calls (petsNamed "0 OR 1 = 1")) :=
  values_stay_bound petModel (alike_petsNamed _ _)

end Seekwel.Model
