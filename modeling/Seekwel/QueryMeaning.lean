import Seekwel.QueryExpression
import Seekwel.SqlCondition

/-!
# What a query expression selects

A query expression has a value on each row, which `QueryExpression.holds`
gives without regard to text, numbers or parentheses: an `Empty` part says
nothing, and a comparison asks its `Test` of the value in its column.

The text that `intoClause` produces is read as the expression that the tree
says (`QueryExpression.ReadAs`), in which every parameter is bound to an
operand of its own comparison (`intoClause_spec`), and so has the value of
the tree on every row (`holds_of_readAs`).

`preservesMeaning_iff` says for which trees, moreover, the errors are those
one expects: an ordering comparison with a `NULL` operand is only recognised
if the operand was given as an `Option`.
-/

namespace Seekwel.Model

open Sql (Domain Truth Atom PlainName TextOf)

/-! ## What a comparison asks -/

/-- **What a comparison asks** of a value. -/
inductive Test where
  /-- Whether it is null, or whether it is not. -/
  | null (negated : Bool)
  | compare (operator : Sql.Operator) (operand : Value)
  | mem (operands : List Value)

/-- The test of a comparison. An ordering has none without an operand. -/
def Comparison.test (comparison : Comparison) : Option Test :=
  match comparison.operator, comparison.value with
  | .eq, .single (some value) => some (.compare .eq value)
  | .eq, .single none => some (.null false)
  | .ne, .single (some value) => some (.compare .ne value)
  | .ne, .single none => some (.null true)
  | .gt, .single (some value) => some (.compare .gt value)
  | .gte, .single (some value) => some (.compare .ge value)
  | .lt, .single (some value) => some (.compare .lt value)
  | .lte, .single (some value) => some (.compare .le value)
  | .in, .many values => some (.mem values)
  | .isNull, _ => some (.null false)
  | .isNotNull, _ => some (.null true)
  | _, _ => none

namespace Test

def operands : Test → List Value
  | null _ => []
  | compare _ operand => [operand]
  | mem operands => operands

/-- **The answer**, on the value of a column. Nothing is in an empty
list. -/
def holds (D : Domain Value) (column : String) (x : Value) : Test → Truth
  | null negated => .ofBool (D.isNull x != negated)
  | compare operator operand => D.compare operator (some column) none x operand
  | mem operands => D.mem (some column) x operands

end Test

/-- A parameter that refers to a value. -/
def Bound (params : List Value) (n : ℕ) (value : Value) : Prop :=
  0 < n ∧ params[n - 1]? = some value

/-- **What a test is read as**: its operands are those that the parameters
of the expression refer to. -/
def Test.ReadAs (params : List Value) (column : String) : Test → Sql.Expr → Prop
  | null false, e => e = .is (.atom (.column column)) (.atom .null)
  | null true, e => e = .isNot (.atom (.column column)) (.atom .null)
  | compare operator operand, e => ∃ n, Bound params n operand
      ∧ e = .compare operator (.atom (.column column)) (.atom (.param n))
  | mem [], e => e = .compare .eq (.atom (.integer 0)) (.atom (.integer 1))
  | mem (operand :: operands), e => ∃ ns : List ℕ,
      List.Forall₂ (Bound params) ns (operand :: operands)
        ∧ e = .mem (.atom (.column column)) (ns.map .param)

/-- A comparison of which one of two values is the greater. -/
def Comparison.IsOrdering (comparison : Comparison) : Prop :=
  comparison.operator ∈ [ComparisonOperator.gt, .gte, .lt, .lte]

/-! ## What a tree asks -/

namespace QueryExpression

/-- The comparisons of a tree, with their columns. -/
def leaves : QueryExpression → List (String × Comparison)
  | empty => []
  | predicate column comparison => [(column, comparison)]
  | and left right => left.leaves ++ right.leaves
  | or left right => left.leaves ++ right.leaves

/-- The operands of the comparisons, from left to right. -/
def operands (q : QueryExpression) : List Value :=
  q.leaves.flatMap fun leaf => (leaf.2.test.map Test.operands).getD []

/-- **The value of a tree** on a row, if it says anything. An ordering
without an operand holds of nothing. -/
def holds (D : Domain Value) (row : String → Value) : QueryExpression → Option Truth
  | empty => none
  | predicate column comparison =>
    some ((comparison.test.map (Test.holds D column (row column))).getD .unknown)
  | and left right => (left.holds D row).merge Truth.and (right.holds D row)
  | or left right => (left.holds D row).merge Truth.or (right.holds D row)

/-- **What a tree is read as**, if it says anything: comparison by
comparison, in the shape of the tree. -/
def ReadAs (params : List Value) : QueryExpression → Option Sql.Expr → Prop
  | empty, e => e = none
  | predicate column comparison, e => ∃ test expr, comparison.test = some test
      ∧ test.ReadAs params column expr ∧ e = some expr
  | and left right, e => ∃ l r, left.ReadAs params l ∧ right.ReadAs params r
      ∧ e = l.merge Sql.Expr.and r
  | or left right, e => ∃ l r, left.ReadAs params l ∧ right.ReadAs params r
      ∧ e = l.merge Sql.Expr.or r

end QueryExpression

/-! ## Reading with the same parameters, and more -/

theorem Bound.append {params : List Value} {n : ℕ} {value : Value} (h : Bound params n value)
    (more : List Value) : Bound (params ++ more) n value := by
  obtain ⟨h0, h⟩ := h
  have hlt : n - 1 < params.length := (List.getElem?_eq_some_iff.mp h).1
  exact ⟨h0, by rw [List.getElem?_append_left hlt, h]⟩

theorem Test.ReadAs.append {params : List Value} {column : String} {test : Test} {e : Sql.Expr}
    (h : test.ReadAs params column e) (more : List Value) :
    test.ReadAs (params ++ more) column e := by
  match test, h with
  | null false, h => exact h
  | null true, h => exact h
  | compare operator operand, ⟨n, hn, he⟩ => exact ⟨n, hn.append more, he⟩
  | mem [], h => exact h
  | mem (operand :: operands), ⟨ns, hns, he⟩ =>
    exact ⟨ns, hns.imp fun n v hn => hn.append more, he⟩

theorem QueryExpression.ReadAs.append {params : List Value} {q : QueryExpression}
    {e : Option Sql.Expr} (h : q.ReadAs params e) (more : List Value) :
    q.ReadAs (params ++ more) e := by
  induction q generalizing e with
  | empty => exact h
  | predicate column comparison =>
    obtain ⟨test, expr, ht, hr, he⟩ := h
    exact ⟨test, expr, ht, hr.append more, he⟩
  | and left right ihl ihr =>
    obtain ⟨l, r, hl, hr, he⟩ := h
    exact ⟨l, r, ihl hl, ihr hr, he⟩
  | or left right ihl ihr =>
    obtain ⟨l, r, hl, hr, he⟩ := h
    exact ⟨l, r, ihl hl, ihr hr, he⟩

/-! ## The value of what is read -/

section Values

variable (D : Domain Value) (row : String → Value) (params : List Value)

theorem eval_param {n : ℕ} {value : Value} (h : Bound params n value) :
    Atom.eval D row params (.param n) = value := by
  simp [Atom.eval, h.2]

theorem holds_of_test {column : String} {test : Test} {e : Sql.Expr}
    (h : test.ReadAs params column e) :
    e.holds D row params = test.holds D column (row column) := by
  match test, h with
  | .null false, h =>
    subst h
    cases hx : D.isNull (row column) <;>
      simp [Sql.Expr.holds, Sql.Expr.eval, Atom.eval, Domain.same, Test.holds, hx,
        D.truth_ofTruth, D.isNull_null]
  | .null true, h =>
    subst h
    cases hx : D.isNull (row column) <;>
      simp [Sql.Expr.holds, Sql.Expr.eval, Atom.eval, Domain.same, Test.holds, hx,
        D.truth_ofTruth, D.isNull_null, Truth.ofBool, Truth.not]
  | .compare operator operand, ⟨n, hn, he⟩ =>
    subst he
    simp only [Sql.Expr.holds, Sql.Expr.eval, eval_param D row params hn, Sql.Expr.column?,
      Test.holds, D.truth_ofTruth]
    rfl
  | .mem [], h =>
    subst h
    have hne : (Ord.compare (0 : ℤ) 1).isEq = false := by decide
    simp [Sql.Expr.holds, Sql.Expr.eval, Atom.eval, Sql.Expr.column?, Domain.compare, Domain.mem,
      Test.holds, D.truth_ofTruth, D.isNull_integer, D.order_integer, Sql.Operator.holds, hne,
      Truth.ofBool]
  | .mem (operand :: operands), ⟨ns, hns, he⟩ =>
    subst he
    have hvalues : (ns.map Atom.param).map (Atom.eval D row params) = operand :: operands := by
      rw [List.map_map]
      have heq : List.Forall₂ (fun n v => (Atom.eval D row params ∘ Atom.param) n = v) ns
          (operand :: operands) := hns.imp fun n v hn => eval_param D row params hn
      exact List.forall₂_eq_eq_eq ▸ List.forall₂_map_left_iff.mpr heq
    simp only [Sql.Expr.holds, Sql.Expr.eval, hvalues, Sql.Expr.column?, Test.holds,
      D.truth_ofTruth]
    rfl

theorem Option.map_merge_of {α β : Type} {f : α → α → α} {g : β → β → β} {h : α → β}
    (hfg : ∀ a b, h (f a b) = g (h a) (h b)) (x y : Option α) :
    (x.merge f y).map h = (x.map h).merge g (y.map h) := by
  cases x <;> cases y <;> simp [hfg]

/-- **A text that is read as a tree has its value.** -/
theorem holds_of_readAs {q : QueryExpression} {e : Option Sql.Expr} (h : q.ReadAs params e) :
    e.map (Sql.Expr.holds D row params) = q.holds D row := by
  induction q generalizing e with
  | empty =>
    subst h
    rfl
  | predicate column comparison =>
    obtain ⟨test, expr, ht, hr, rfl⟩ := h
    simp [QueryExpression.holds, ht, holds_of_test D row params hr]
  | and left right ihl ihr =>
    obtain ⟨l, r, hl, hr, rfl⟩ := h
    have hand : ∀ a b, Sql.Expr.holds D row params (.and a b)
        = (a.holds D row params).and (b.holds D row params) :=
      fun a b => by simp [Sql.Expr.holds, Sql.Expr.eval, D.truth_ofTruth]
    rw [Option.map_merge_of hand, ihl hl, ihr hr]
    rfl
  | or left right ihl ihr =>
    obtain ⟨l, r, hl, hr, rfl⟩ := h
    have hor : ∀ a b, Sql.Expr.holds D row params (.or a b)
        = (a.holds D row params).or (b.holds D row params) :=
      fun a b => by simp [Sql.Expr.holds, Sql.Expr.eval, D.truth_ofTruth]
    rw [Option.map_merge_of hor, ihl hl, ihr hr]
    rfl

end Values

/-! ## Rendering does what the tree says -/

theorem bound_last (params : List Value) (value : Value) :
    Bound (params ++ [value]) (params.length + 1) value :=
  ⟨Nat.succ_pos _, by simp⟩

theorem pushPlaceholders_eq (params values : List Value) :
    pushPlaceholders params values
      = ((List.range' (params.length + 1) values.length).map fun n => "?" ++ toString n,
        params ++ values) := by
  induction values generalizing params with
  | nil => simp [pushPlaceholders]
  | cons value rest ih =>
    simp [pushPlaceholders, pushPlaceholder, ih, List.range'_succ]

theorem bound_range (params values : List Value) :
    List.Forall₂ (Bound (params ++ values)) (List.range' (params.length + 1) values.length)
      values := by
  induction values generalizing params with
  | nil => simp
  | cons value rest ih =>
    have hfirst := (bound_last params value).append rest
    have hrest := ih (params ++ [value])
    simp only [List.append_assoc, List.singleton_append, List.length_append,
      List.length_singleton] at hfirst hrest
    rw [List.length_cons, List.range'_succ]
    exact .cons hfirst hrest

/-- The text of a test, after some parameters. -/
def Test.text (column : String) (params : List Value) : Test → String
  | null false => column ++ " IS NULL"
  | null true => column ++ " IS NOT NULL"
  | compare operator _ => column ++ operator.text ++ ("?" ++ toString (params.length + 1))
  | mem [] => "0 = 1"
  | mem (operand :: operands) =>
    column ++ " IN (" ++ Text.join ", "
      ((List.range' (params.length + 1) (operand :: operands).length).map fun n =>
        "?" ++ toString n) ++ ")"

/-- **A comparison is rendered as its test.** -/
theorem Comparison.intoClause_of_test {comparison : Comparison} {test : Test}
    (ht : comparison.test = some test) (column : String) (params : List Value) :
    comparison.intoClause column params
      = .ok (test.text column params, params ++ test.operands) := by
  obtain ⟨operator, value, hmany, hsingle⟩ := comparison
  cases operator with
  | «in» =>
    rcases value with (- | value) | values <;> cases ht
    cases values with
    | nil => simp [Comparison.intoClause, Test.operands, Test.text]
    | cons value rest =>
      simp only [Comparison.intoClause, pushPlaceholders_eq]
      rfl
  | isNull =>
    obtain rfl := hsingle (.inl rfl)
    cases ht
    simp [Comparison.intoClause, Test.operands, Test.text]
  | isNotNull =>
    obtain rfl := hsingle (.inr rfl)
    cases ht
    simp [Comparison.intoClause, Test.operands, Test.text]
  | _ =>
    rcases value with (- | value) | values <;> cases ht <;>
      simp [Comparison.intoClause, comparisonClause, pushPlaceholder, Test.operands, Test.text,
        Sql.Operator.text]

/-- **The text of a test is read as the test.** -/
theorem Test.textOf {column : String} (h : PlainName column) (params : List Value)
    (test : Test) : ∃ e, test.ReadAs (params ++ test.operands) column e
      ∧ TextOf (test.text column params) e := by
  match test with
  | null false => exact ⟨_, rfl, Sql.textOf_isNull h⟩
  | null true => exact ⟨_, rfl, Sql.textOf_isNotNull h⟩
  | compare operator operand =>
    exact ⟨_, ⟨_, bound_last params operand, rfl⟩, Sql.textOf_compare h operator _⟩
  | mem [] => exact ⟨_, rfl, Sql.textOf_false⟩
  | mem (operand :: operands) =>
    exact ⟨_, ⟨_, bound_range params (operand :: operands), rfl⟩,
      Sql.textOf_mem h (by simp)⟩

theorem Comparison.test_eq_none_iff {comparison : Comparison} :
    comparison.test = none ↔ comparison.IsOrdering ∧ comparison.value = .single none := by
  obtain ⟨operator, value, hmany, hsingle⟩ := comparison
  simp only [Comparison.test, Comparison.IsOrdering]
  cases operator <;> rcases value with (- | value) | values <;>
    simp_all [ComparisonValue.isMany]

theorem Comparison.intoClause_of_test_eq_none {comparison : Comparison}
    (h : comparison.test = none) (column : String) (params : List Value) :
    comparison.intoClause column params = .error (.invalidQuery
      (comparison.operator.asStr ++ " comparisons do not support NULL")) := by
  obtain ⟨hord, hvalue⟩ := Comparison.test_eq_none_iff.mp h
  obtain ⟨operator, value, hmany, hsingle⟩ := comparison
  obtain rfl : value = .single none := hvalue
  cases operator <;> first | rfl | simp [Comparison.IsOrdering] at hord

/-- Joining the texts of two trees. -/
theorem combineClauses_spec {word : String} (op : Sql.Infix)
    (hw : Sql.isIdentifier word = true)
    (hop : ∀ ts, Sql.infix? (.word word :: ts) = some (op, ts)) {left right : Option String}
    {l r : Option Sql.Expr} (hl : Option.Rel TextOf left l) (hr : Option.Rel TextOf right r) :
    Option.Rel TextOf (combineClauses left right word) (l.merge op.node r) := by
  cases hl with
  | none => cases hr with
    | none => exact .none
    | some hr => exact .some hr
  | some hl => cases hr with
    | none => exact .some hl
    | some hr => exact .some (hl.connect hr hw hop)

/-- The two parts of a tree whose text is made. -/
theorem bind_map_eq_ok {left right : QueryExpression} {params bound : List Value}
    {clause : Option String} {word : String}
    (h : ((left.intoClause params).bind fun l =>
      (right.intoClause l.2).map fun r => (combineClauses l.1 r.1 word, r.2))
        = .ok (clause, bound)) :
    ∃ l lbound r, left.intoClause params = .ok (l, lbound)
      ∧ right.intoClause lbound = .ok (r, bound) ∧ clause = combineClauses l r word := by
  obtain ⟨p, hl, h⟩ := bind_eq_ok h
  obtain ⟨q, hr, h⟩ := map_eq_ok h
  cases h
  exact ⟨p.1, p.2, q.1, hl, hr, rfl⟩

/-- **The text of a tree is read as the tree says**, and the operands follow
the initial parameters in order. -/
theorem intoClause_spec {q : QueryExpression} (hcol : ∀ leaf ∈ q.leaves, PlainName leaf.1)
    {params bound : List Value} {clause : Option String}
    (h : q.intoClause params = .ok (clause, bound)) :
    bound = params ++ q.operands ∧ ∃ e, q.ReadAs bound e ∧ Option.Rel TextOf clause e := by
  induction q generalizing params bound clause with
  | empty =>
    cases h
    exact ⟨(List.append_nil _).symm, none, rfl, .none⟩
  | predicate column comparison =>
    cases ht : comparison.test with
    | none =>
      rw [QueryExpression.intoClause, Comparison.intoClause_of_test_eq_none ht] at h
      cases h
    | some test =>
      obtain ⟨e, hread, htext⟩ := test.textOf (hcol _ List.mem_cons_self) params
      rw [QueryExpression.intoClause, Comparison.intoClause_of_test ht] at h
      cases h
      exact ⟨by simp [QueryExpression.operands, QueryExpression.leaves, ht], some e,
        ⟨test, e, ht, hread, rfl⟩, .some htext⟩
  | and left right ihl ihr =>
    rw [QueryExpression.intoClause] at h
    obtain ⟨l, lbound, r, hl, hr, rfl⟩ := bind_map_eq_ok h
    have hcol := List.forall_mem_append.mp hcol
    obtain ⟨rfl, el, hreadl, htextl⟩ := ihl hcol.1 hl
    obtain ⟨rfl, er, hreadr, htextr⟩ := ihr hcol.2 hr
    exact ⟨by simp [QueryExpression.operands, QueryExpression.leaves], el.merge Sql.Expr.and er,
      ⟨el, er, hreadl.append _, hreadr, rfl⟩,
      combineClauses_spec .and (by decide) (fun _ => rfl) htextl htextr⟩
  | or left right ihl ihr =>
    rw [QueryExpression.intoClause] at h
    obtain ⟨l, lbound, r, hl, hr, rfl⟩ := bind_map_eq_ok h
    have hcol := List.forall_mem_append.mp hcol
    obtain ⟨rfl, el, hreadl, htextl⟩ := ihl hcol.1 hl
    obtain ⟨rfl, er, hreadr, htextr⟩ := ihr hcol.2 hr
    exact ⟨by simp [QueryExpression.operands, QueryExpression.leaves], el.merge Sql.Expr.or er,
      ⟨el, er, hreadl.append _, hreadr, rfl⟩,
      combineClauses_spec .or (by decide) (fun _ => rfl) htextl htextr⟩

theorem Comparison.intoClause_eq_error_iff {comparison : Comparison} (column : String)
    (params : List Value) :
    (∃ error, comparison.intoClause column params = .error error)
      ↔ comparison.test = none := by
  constructor
  · rintro ⟨error, h⟩
    cases ht : comparison.test with
    | none => rfl
    | some test =>
      rw [Comparison.intoClause_of_test ht] at h
      cases h
  · exact fun h => ⟨_, Comparison.intoClause_of_test_eq_none h column params⟩

theorem exists_error_bind_map {α β γ : Type} {x : Except Error α} {f : α → Except Error β}
    {g : α → β → γ} {p q : Prop} (hx : (∃ error, x = .error error) ↔ p)
    (hf : ∀ a, (∃ error, f a = .error error) ↔ q) :
    (∃ error, (x.bind fun a => (f a).map (g a)) = .error error) ↔ p ∨ q := by
  cases x with
  | error e => exact iff_of_true ⟨e, rfl⟩ (.inl (hx.mp ⟨e, rfl⟩))
  | ok a =>
    have hp : ¬ p := fun hp => by
      obtain ⟨error, h⟩ := hx.mpr hp
      cases h
    rw [or_iff_right hp, ← hf a]
    cases hb : f a with
    | error e => simp [Except.bind, Except.map, hb]
    | ok b => simp [Except.bind, Except.map, hb]

/-- A tree fails to render exactly if one of its comparisons has no test. -/
theorem intoClause_eq_error_iff (q : QueryExpression) (params : List Value) :
    (∃ error, q.intoClause params = .error error)
      ↔ ∃ leaf ∈ q.leaves, leaf.2.test = none := by
  induction q generalizing params with
  | empty => simp [QueryExpression.intoClause, QueryExpression.leaves]
  | predicate column comparison =>
    have hleaf : (∃ leaf ∈ (QueryExpression.predicate column comparison).leaves,
        leaf.2.test = none) ↔ comparison.test = none := by
      simp [QueryExpression.leaves]
    rw [hleaf, QueryExpression.intoClause, ← Comparison.intoClause_eq_error_iff column params]
    cases comparison.intoClause column params <;> simp [Except.map]
  | and left right ihl ihr =>
    rw [QueryExpression.intoClause, exists_error_bind_map (ihl params) (fun l => ihr l.2)]
    simp [QueryExpression.leaves, or_and_right, exists_or]
  | or left right ihl ihr =>
    rw [QueryExpression.intoClause, exists_error_bind_map (ihl params) (fun l => ihr l.2)]
    simp [QueryExpression.leaves, or_and_right, exists_or]

/-! ## Which trees are rendered as one expects -/

namespace QueryExpression

/-- Some comparison asks whether a value is greater or less than `NULL`. -/
def HasNullOrdering (q : QueryExpression) : Prop :=
  ∃ leaf ∈ q.leaves, leaf.2.IsOrdering
    ∧ (leaf.2.value = .single none ∨ leaf.2.value = .single (some .null))

/-- **What a clause means**, with these parameters: a text is read as the
tree, with each operand bound to its own comparison, and has the value of
the tree on every row; and there is no text if the tree says nothing. -/
def MeantBy (q : QueryExpression) (bound : List Value) : Option String → Prop
  | none => ∀ D row, q.holds D row = none
  | some text => ∃ e, Sql.parse text = some e ∧ q.ReadAs bound (some e)
    ∧ ∀ D row, q.holds D row = some (e.holds D row bound)

/-- **Rendering preserves the meaning**: it fails exactly on an ordering
with `NULL`, and otherwise appends to the parameters and yields a clause
that means the tree. -/
def PreservesMeaning (q : QueryExpression) (params : List Value) : Prop :=
  ((∃ error, q.intoClause params = .error error) ↔ q.HasNullOrdering)
    ∧ ∀ clause bound, q.intoClause params = .ok (clause, bound) →
      params <+: bound ∧ q.MeantBy bound clause

end QueryExpression

theorem QueryExpression.ReadAs.meantBy {q : QueryExpression} {bound : List Value}
    {clause : Option String} {e : Option Sql.Expr} (h : q.ReadAs bound e)
    (ht : Option.Rel TextOf clause e) : q.MeantBy bound clause := by
  cases ht with
  | none => exact fun D row => (holds_of_readAs D row bound h).symm
  | some ht =>
    exact ⟨_, ht.parse_eq, h, fun D row => (holds_of_readAs D row bound h).symm⟩

/-- **What is rendered means the tree.** -/
theorem intoClause_meantBy {q : QueryExpression} (hcol : ∀ leaf ∈ q.leaves, PlainName leaf.1)
    {params bound : List Value} {clause : Option String}
    (h : q.intoClause params = .ok (clause, bound)) :
    params <+: bound ∧ q.MeantBy bound clause := by
  obtain ⟨rfl, e, hread, htext⟩ := intoClause_spec hcol h
  exact ⟨List.prefix_append _ _, hread.meantBy htext⟩

/-- **Rendering preserves the meaning of a tree exactly if** no ordering has
the value `NULL` itself as its operand, or another one has no operand. -/
theorem preservesMeaning_iff (q : QueryExpression) (params : List Value)
    (hcol : ∀ leaf ∈ q.leaves, PlainName leaf.1) :
    q.PreservesMeaning params ↔
      (∀ leaf ∈ q.leaves, leaf.2.IsOrdering → leaf.2.value ≠ .single (some .null))
        ∨ ∃ leaf ∈ q.leaves, leaf.2.IsOrdering ∧ leaf.2.value = .single none := by
  have herror : (∃ error, q.intoClause params = .error error)
      ↔ ∃ leaf ∈ q.leaves, leaf.2.IsOrdering ∧ leaf.2.value = .single none := by
    simp only [intoClause_eq_error_iff, Comparison.test_eq_none_iff]
  rw [QueryExpression.PreservesMeaning, 
    and_iff_left fun _ _ => intoClause_meantBy hcol, herror]
  constructor
  · intro h
    by_cases hnone : ∃ leaf ∈ q.leaves, leaf.2.IsOrdering ∧ leaf.2.value = .single none
    · exact .inr hnone
    · exact .inl fun leaf hleaf hord hnull =>
        hnone (h.mpr ⟨leaf, hleaf, hord, .inr hnull⟩)
  · rintro (hnull | hnone)
    · constructor
      · rintro ⟨leaf, hleaf, hord, hvalue⟩
        exact ⟨leaf, hleaf, hord, .inl hvalue⟩
      · rintro ⟨leaf, hleaf, hord, hvalue | hvalue⟩
        · exact ⟨leaf, hleaf, hord, hvalue⟩
        · exact absurd hvalue (hnull leaf hleaf hord)
    · refine iff_of_true hnone ?_
      obtain ⟨leaf, hleaf, hord, hvalue⟩ := hnone
      exact ⟨leaf, hleaf, hord, .inl hvalue⟩

theorem preservesMeaning_grouped :
    (QueryExpression.and (.or (.predicate "age" (.Gt (.field (.integer 10))))
      (.predicate "name" (.In []))) (.predicate "email" .IsNull)).PreservesMeaning [] :=
  (preservesMeaning_iff _ _ (by decide)).mpr (.inl (by
    simp [QueryExpression.leaves, Comparison.Gt, Comparison.In, Comparison.IsNull,
      Comparison.withValue, ComparisonOperand.intoSqlValue]))

/-- `NULL` given as a value is compared with, where an error is expected. -/
theorem gt_null_is_rendered :
    ¬ (QueryExpression.predicate "age" (.Gt (.field .null))).PreservesMeaning [] := by
  intro h
  have hnull : (QueryExpression.predicate "age" (.Gt (.field .null))).HasNullOrdering :=
    ⟨("age", .Gt (.field .null)), List.mem_cons_self, List.mem_cons_self, .inr rfl⟩
  obtain ⟨error, herror⟩ := h.1.mpr hnull
  cases herror

end Seekwel.Model
