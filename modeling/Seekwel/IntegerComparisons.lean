import Seekwel.FieldTypes
import Seekwel.HasManyQuery

/-!
# Comparisons of integers

A field of an integer type is compared with an operand of an integer type,
which need not be the same. Both are cast to `i64` before SQLite compares
them, and what is at least `2 ^ 63` becomes negative.

Equality suffers only where a value and an operand differ by `2 ^ 64`, since
the casts of all others differ too. An ordering is right if both are below
`2 ^ 63` or neither is. Otherwise the smaller one has to be smaller still
than the negative number that the greater one becomes (`comparison_iff`).
-/

namespace Seekwel.Model

open Sql (Domain Truth PlainName Operator)

/-! ## What is asked and what is meant -/

/-- A comparison with integers of a type. -/
inductive IntegerComparison (s : IntType) where
  | compare (operator : Operator) (operand : s.Carrier)
  | in (operands : List s.Carrier)

namespace IntegerComparison

variable {s : IntType}

/-- The comparison that the query is given. -/
def comparison : IntegerComparison s → Comparison
  | compare .eq operand => .Eq (.field (s.toSqlValue operand))
  | compare .ne operand => .Ne (.field (s.toSqlValue operand))
  | compare .gt operand => .Gt (.field (s.toSqlValue operand))
  | compare .ge operand => .Gte (.field (s.toSqlValue operand))
  | compare .lt operand => .Lt (.field (s.toSqlValue operand))
  | compare .le operand => .Lte (.field (s.toSqlValue operand))
  | .in operands => .In (operands.map fun operand => .field (s.toSqlValue operand))

end IntegerComparison

/-- The relation of integers that an operator stands for. -/
def Relates : Operator → ℤ → ℤ → Prop
  | .eq, a, b => a = b
  | .ne, a, b => a ≠ b
  | .gt, a, b => a > b
  | .ge, a, b => a ≥ b
  | .lt, a, b => a < b
  | .le, a, b => a ≤ b

/-- **What a comparison says** about an integer. -/
def IntegerComparison.Says {s : IntType} (a : ℤ) : IntegerComparison s → Prop
  | compare operator operand => Relates operator a operand.1
  | .in operands => ∃ operand ∈ operands, a = operand.1

/-- **Integers that the casts leave in their relation.** -/
def KeepsRelation : Operator → ℤ → ℤ → Prop
  | .eq, a, b | .ne, a, b => a - b ≠ 2 ^ 64 ∧ b - a ≠ 2 ^ 64
  | .gt, a, b | .le, a, b => (2 ^ 63 ≤ a ↔ 2 ^ 63 ≤ b) ∨ 2 ^ 64 < a - b ∨ 2 ^ 64 ≤ b - a
  | .ge, a, b | .lt, a, b => (2 ^ 63 ≤ a ↔ 2 ^ 63 ≤ b) ∨ 2 ^ 64 ≤ a - b ∨ 2 ^ 64 < b - a

/-- An integer of which a comparison says what it means. A list may hold one
that is cast to the same number if it holds the integer too. -/
def IntegerComparison.Reliable {s : IntType} (a : ℤ) : IntegerComparison s → Prop
  | compare operator operand => KeepsRelation operator a operand.1
  | .in operands => (∃ operand ∈ operands, a = operand.1)
    ∨ ∀ operand ∈ operands, KeepsRelation .eq a operand.1

/-! ## What SQLite answers -/

/-- SQLite compares the integers in a column as integers. -/
structure ComparesIntegers (D : Domain Value) (column : String) : Prop where
  isNull : ∀ n, D.isNull (.integer n) = false
  order : ∀ m n, D.order (some column) none (.integer m) (.integer n) = Ord.compare m n

/-- **A row satisfies a comparison**: the clause is read as an expression
that is true of the row. -/
def Satisfies (D : Domain Value) (params : List Value) (row : String → Value) (column : String)
    (comparison : Comparison) : Prop :=
  ∃ clause bound e, comparison.intoClause column params = .ok (clause, bound)
    ∧ Sql.parse clause = some e ∧ e.holds D row bound = .yes

section Answers

variable {D : Domain Value} {column : String} {params : List Value} {row : String → Value}

theorem satisfies_iff (hcol : PlainName column) {comparison : Comparison} {test : Test}
    (ht : comparison.test = some test) :
    Satisfies D params row column comparison ↔ test.holds D column (row column) = .yes := by
  obtain ⟨e, hread, htext⟩ := test.textOf hcol params
  have hclause := Comparison.intoClause_of_test ht column params
  constructor
  · rintro ⟨clause, bound, e', hrendered, hparsed, hholds⟩
    rw [hclause] at hrendered
    cases hrendered
    rw [htext.parse_eq, Option.some.injEq] at hparsed
    rw [← holds_of_test D row _ hread, hparsed]
    exact hholds
  · intro hholds
    exact ⟨_, _, e, hclause, htext.parse_eq, by rw [holds_of_test D row _ hread, hholds]⟩

theorem ofBool_eq_yes {b : Bool} : Truth.ofBool b = .yes ↔ b = true := by
  cases b <;> decide

/-- An operator holds of the order of two integers if they relate so. -/
theorem holds_compare_iff (operator : Operator) (m n : ℤ) :
    operator.holds (Ord.compare m n) = true ↔ Relates operator m n := by
  rcases lt_trichotomy m n with hlt | heq | hgt
  · rw [compare_lt_iff_lt.mpr hlt]
    cases operator
    all_goals simp [Operator.holds, Relates]
    all_goals omega
  · subst heq
    rw [compare_eq_iff_eq.mpr rfl]
    cases operator
    all_goals simp [Operator.holds, Relates]
  · rw [compare_gt_iff_gt.mpr hgt]
    cases operator
    all_goals simp [Operator.holds, Relates]
    all_goals omega

theorem compare_eq_yes_iff (h : ComparesIntegers D column) (operator : Operator) (m n : ℤ) :
    D.compare operator (some column) none (.integer m) (.integer n) = .yes
      ↔ Relates operator m n := by
  rw [Domain.compare, h.isNull, h.isNull, h.order, Bool.or_self, if_neg (by decide),
    ofBool_eq_yes, holds_compare_iff]

theorem mem_eq_yes_iff {x : Value} {ys : List Value} :
    D.mem (some column) x ys = .yes
      ↔ ∃ y ∈ ys, D.compare .eq (some column) none x y = .yes := by
  unfold Domain.mem
  induction ys with
  | nil => simp
  | cons y ys ih =>
    rw [List.foldr_cons, Truth.or_eq_yes, ih, List.exists_mem_cons_iff]

/-- **A comparison asks for the relation of the casts.** -/
theorem satisfies_comparison_iff (h : ComparesIntegers D column) (hcol : PlainName column)
    {a : ℤ} (hrow : row column = .integer a) {s : IntType} (c : IntegerComparison s) :
    Satisfies D params row column c.comparison
      ↔ match c with
        | .compare operator operand => Relates operator a (castI64 operand.1)
        | .in operands => ∃ operand ∈ operands, a = castI64 operand.1 := by
  cases c with
  | compare operator operand =>
    have htest : (IntegerComparison.compare operator operand).comparison.test
        = some (.compare operator (.integer (castI64 operand.1))) := by
      cases operator <;> rfl
    rw [satisfies_iff hcol htest, hrow]
    exact compare_eq_yes_iff h operator a (castI64 operand.1)
  | «in» operands =>
    have htest : (IntegerComparison.in operands).comparison.test
        = some (.mem (operands.map fun operand => .integer (castI64 operand.1))) := by
      show some (Test.mem ((operands.map _).filterMap _)) = _
      rw [List.filterMap_map]
      exact congrArg (fun values => some (Test.mem values))
        (congrFun List.filterMap_eq_map' operands)
    rw [satisfies_iff hcol htest, hrow, Test.holds, mem_eq_yes_iff]
    simp only [List.mem_map, exists_exists_and_eq_and, compare_eq_yes_iff h, Relates]

end Answers

/-! ## The casts -/

/-- What the cast does to an integer of any type. -/
theorem castI64_cases {t : IntType} (a : t.Carrier) :
    a.1 < 2 ^ 63 ∧ castI64 a.1 = a.1 ∨ 2 ^ 63 ≤ a.1 ∧ castI64 a.1 = a.1 - 2 ^ 64 := by
  have hge := a.2.ge
  by_cases hlt : a.1 < 2 ^ 63
  · exact Or.inl ⟨hlt, castI64_of_holds (holds_i64_iff.mpr ⟨hge, hlt⟩)⟩
  · refine Or.inr ⟨not_lt.mp hlt, castI64_of_ge (not_lt.mp hlt) a.2.lt⟩

/-- **The relation of the casts** is that of the integers exactly where it is
kept. -/
theorem relates_cast_iff {t s : IntType} (operator : Operator) (a : t.Carrier) (b : s.Carrier) :
    (Relates operator (castI64 a.1) (castI64 b.1) ↔ Relates operator a.1 b.1)
      ↔ KeepsRelation operator a.1 b.1 := by
  have ha := a.2.ge
  have hb := b.2.ge
  have ha' := a.2.lt
  have hb' := b.2.lt
  rcases castI64_cases a with ⟨hside, hcast⟩ | ⟨hside, hcast⟩
  all_goals
    rcases castI64_cases b with ⟨hside', hcast'⟩ | ⟨hside', hcast'⟩
  all_goals
    rw [hcast, hcast']
    cases operator
  all_goals
    simp only [Relates, KeepsRelation, true_iff]
    omega

/-- **A comparison says what it means exactly where the casts keep the
relation.** -/
theorem comparison_iff {D : Domain Value} {column : String} (h : ComparesIntegers D column)
    (hcol : PlainName column) {t s : IntType} (a : t.Carrier) (c : IntegerComparison s)
    (params : List Value) {row : String → Value} (hrow : row column = t.toSqlValue a) :
    (Satisfies D params row column c.comparison ↔ c.Says a.1) ↔ c.Reliable a.1 := by
  rw [satisfies_comparison_iff h hcol hrow]
  cases c with
  | compare operator operand => exact relates_cast_iff operator a operand
  | «in» operands =>
    show ((∃ operand ∈ operands, castI64 a.1 = castI64 operand.1)
        ↔ ∃ operand ∈ operands, a.1 = operand.1) ↔ _
    have hcast : ∀ operand ∈ operands,
        ((castI64 a.1 = castI64 operand.1 ↔ a.1 = operand.1) ↔ KeepsRelation .eq a.1 operand.1) :=
      fun operand _ => relates_cast_iff .eq a operand
    constructor
    · intro hmeans
      by_cases hmem : ∃ operand ∈ operands, a.1 = operand.1
      · exact Or.inl hmem
      · refine Or.inr fun operand hoperand => (hcast operand hoperand).mp (iff_of_false ?_ ?_)
        · exact fun heq => hmem (hmeans.mp ⟨operand, hoperand, heq⟩)
        · exact fun heq => hmem ⟨operand, hoperand, heq⟩
    · rintro (⟨operand, hoperand, heq⟩ | hkeeps)
      · exact iff_of_true ⟨operand, hoperand, congrArg castI64 heq⟩ ⟨operand, hoperand, heq⟩
      · refine exists_congr fun operand => and_congr_right fun hoperand => ?_
        exact (hcast operand hoperand).mpr (hkeeps operand hoperand)

/-! ## Two integers that are not of one sign -/

theorem comparesIntegers_integerDomain (column : String) :
    ComparesIntegers integerDomain column :=
  ⟨fun _ => rfl, fun _ _ => rfl⟩

/-- The greatest `u64`. -/
def greatest : IntType.u64.Carrier := ⟨2 ^ 64 - 1, by decide⟩

/-- A number of the type of most literals. -/
def five : IntType.i32.Carrier := ⟨5, by decide⟩

theorem greatest_ne_five :
    (Satisfies integerDomain [] (fun _ => IntType.u64.toSqlValue greatest) "size"
        (IntegerComparison.compare .ne five).comparison
      ↔ (IntegerComparison.compare .ne five).Says greatest.1)
      ↔ (IntegerComparison.compare .ne five).Reliable greatest.1 :=
  comparison_iff (comparesIntegers_integerDomain "size") (by decide) greatest
    (.compare .ne five) [] rfl

/-- The greatest `u64` is not found among those greater than five. -/
theorem greatest_not_gt_five :
    ¬ (Satisfies integerDomain [] (fun _ => IntType.u64.toSqlValue greatest) "size"
        (IntegerComparison.compare .gt five).comparison
      ↔ (IntegerComparison.compare .gt five).Says greatest.1) := by
  intro hmeans
  have hfound := hmeans.mpr (show (2 ^ 64 - 1 : ℤ) > 5 by decide)
  rw [satisfies_comparison_iff (comparesIntegers_integerDomain "size") (by decide)
    (a := castI64 greatest.1) rfl] at hfound
  have hgreater : castI64 greatest.1 > castI64 five.1 := hfound
  exact absurd hgreater (by decide)

end Seekwel.Model
