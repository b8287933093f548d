import Seekwel.FetchStrategies

/-!
# Counting, asking and taking the first

`count`, `exists` and `first` each send a statement of their own. A `first`
or `exists` query lowers the limit to one, and a count without limits drops
the ordering, while one with limits counts the rows of a subquery. Over rows
that do not change, their answers are those one would get from all rows
(`counts_alike`).

Only the count without limits depends on the ordering: it is right if the
ordering does not change how many rows there are. No ordering by columns
does, and a raw fragment that is an ordering does not either
(`CountsUnordered`).
-/

namespace Seekwel.Model

open QueryDsl

/-! ## Answers -/

/-- An ordering by columns. -/
def OrderTerm.IsColumn : OrderTerm → Prop
  | column _ _ => True
  | raw _ => False

/-- A plan that is ordered by columns, if at all. -/
def QueryPlan.OrderedByColumns (plan : QueryPlan) : Prop :=
  ∃ ordering : List OrderTerm, (∀ term ∈ ordering, term.IsColumn)
    ∧ plan.orderClause = orderByClause ordering

/-- The statement that counts the rows of a plan without limits and without
an order. -/
def QueryPlan.countAllText (plan : QueryPlan) : String :=
  Select.toSql { plan.select .countAll none 0 with orderClause := none }

/-- The connection finds as many rows without the ordering as with it. -/
def CountsUnordered (conn : Conn) (plan : QueryPlan) (rows : List (List Value)) : Prop :=
  conn plan.countAllText plan.params = .ok [[.integer rows.length]]

/-- **A connection over fixed rows**: those that the condition of a plan
selects, in its order. What the limits at the end of a statement leave of
them is returned, or as many ones, or their number. -/
structure AnswersOver (conn : Conn) (plan : QueryPlan) (rows : List (List Value)) : Prop where
  /-- The rows fit into a vector. -/
  length_lt : rows.length < 2 ^ 63
  columns : ∀ tail limits, Sql.readLimits tail = .ok limits →
    conn (plan.text plan.modelColumns ++ tail) plan.params = .ok (limits.window rows)
  ones : ∀ tail limits, Sql.readLimits tail = .ok limits →
    conn (plan.text .one ++ tail) plan.params
      = .ok ((limits.window rows).map fun _ => [.integer 1])
  counted : ∀ tail limits, Sql.readLimits tail = .ok limits →
    conn ("SELECT COUNT(*) FROM (" ++ (plan.text .one ++ tail) ++ ") AS seekwel_count")
      plan.params = .ok [[.integer (limits.window rows).length]]
  /-- An ordering by columns does not change how many rows there are. -/
  countedAll : plan.OrderedByColumns → CountsUnordered conn plan rows

/-- **The four ways to run a query agree** about the records. -/
structure CountsAlike {R Q : Type} [QueryDsl Q] (M : PersistedModel R) (conn : Conn) (q : Q)
    (records : List R) : Prop where
  all : Model.all M (.ok conn) q = .ok records
  count : Model.count M (.ok conn) q = .ok records.length
  «exists» : Model.exists M (.ok conn) q = .ok !records.isEmpty
  first : Model.first M (.ok conn) q = .ok records.head?

/-! ## Statements -/

section Statements

variable {conn : Conn} {plan : QueryPlan} {rows : List (List Value)}

theorem QueryPlan.InRange.limitOne_lt (hr : plan.InRange) :
    ∀ n ∈ plan.limitOne, n < 2 ^ 63 := by
  unfold QueryPlan.limitOne
  cases hl : plan.limit with
  | none => simp
  | some limit =>
    have := hr.limit_lt limit hl
    simp only [Option.mem_def, Option.some.injEq, forall_eq']
    omega

/-- The limit of one leaves the first row. -/
theorem page_limitOne {α : Type} (plan : QueryPlan) (rows : List α) :
    page plan.limitOne plan.offset rows = (page plan.limit plan.offset rows).take 1 := by
  unfold QueryPlan.limitOne
  cases plan.limit with
  | none => rfl
  | some limit => simp [page, List.take_take, Nat.min_comm]

theorem AnswersOver.select_columns (h : AnswersOver conn plan rows) {limit : Option ℕ}
    (hl : ∀ n ∈ limit, n < 2 ^ 63) {offset : ℕ} (ho : offset < 2 ^ 63) :
    conn (plan.select plan.modelColumns limit offset).toSql plan.params
      = .ok (page limit offset rows) := by
  have hread := readLimits_appendLimitOffset limit ho
  rw [if_pos hl] at hread
  rw [QueryPlan.toSql_select, h.columns _ _ hread, window_limitsOf]

theorem AnswersOver.select_ones (h : AnswersOver conn plan rows) {limit : Option ℕ}
    (hl : ∀ n ∈ limit, n < 2 ^ 63) {offset : ℕ} (ho : offset < 2 ^ 63) :
    conn (plan.select .one limit offset).toSql plan.params
      = .ok ((page limit offset rows).map fun _ => [.integer 1]) := by
  have hread := readLimits_appendLimitOffset limit ho
  rw [if_pos hl] at hread
  rw [QueryPlan.toSql_select, h.ones _ _ hread, window_limitsOf]

/-- **What a count is answered with**: the number of the rows that are left. -/
theorem AnswersOver.countQuery (h : AnswersOver conn plan rows) (hr : plan.InRange)
    (horder : plan.limit = none → plan.offset = 0 →
      plan.OrderedByColumns ∨ CountsUnordered conn plan rows) :
    conn plan.countQuery plan.params
      = .ok [[.integer (page plan.limit plan.offset rows).length]] := by
  unfold QueryPlan.countQuery Count.toSql
  by_cases hall : plan.limit = none ∧ plan.offset = 0
  · -- neither a limit nor an offset: the ordering is dropped
    obtain ⟨hlimit, hoffset⟩ := hall
    have hcond : ((plan.select .one plan.limit plan.offset).limit.isNone
        && (plan.select .one plan.limit plan.offset).offset.isNone) = true := by
      simp [QueryPlan.select, hlimit, hoffset]
    have hcounted : CountsUnordered conn plan rows :=
      (horder hlimit hoffset).elim h.countedAll id
    rw [if_pos hcond, hlimit, hoffset]
    exact hcounted
  · have hcond : ¬ ((plan.select .one plan.limit plan.offset).limit.isNone
        && (plan.select .one plan.limit plan.offset).offset.isNone) = true := by
      intro hnone
      simp only [QueryPlan.select, Bool.and_eq_true, Option.isNone_iff_eq_none] at hnone
      refine hall ⟨hnone.1, ?_⟩
      have hoffset := hnone.2
      split_ifs at hoffset with hpos
      omega
    have hread := readLimits_appendLimitOffset plan.limit hr.offset_lt
    rw [if_pos hr.limit_lt] at hread
    rw [if_neg hcond]
    show conn ("SELECT COUNT(*) FROM (" ++ (plan.select .one plan.limit plan.offset).toSql
      ++ ") AS seekwel_count") plan.params = _
    rw [QueryPlan.toSql_select, h.counted _ _ hread, window_limitsOf]

theorem length_page_le {α : Type} (limit : Option ℕ) (offset : ℕ) (rows : List α) :
    (page limit offset rows).length ≤ rows.length := by
  unfold page
  split
  all_goals simp

/-- A number of rows is not changed by the cast of the count. -/
theorem AnswersOver.count_eq (h : AnswersOver conn plan rows) :
    (((page plan.limit plan.offset rows).length : ℤ) % 2 ^ 64).toNat
      = (page plan.limit plan.offset rows).length := by
  have hle := length_page_le plan.limit plan.offset rows
  have hlt := h.length_lt
  omega

end Statements

/-! ## Agreement -/

/-- The limits that follow a text. -/
def limitsAfter (head query : String) : Option Sql.Limits :=
  if head.toList <+: query.toList then
    (Sql.readLimits (String.ofList (query.toList.drop head.toList.length))).toOption
  else none

/-- The text that a count puts around a query. -/
def countStart : String := "SELECT COUNT(*) FROM ("

def countEnd : String := ") AS seekwel_count"

/-- The query within a count. -/
def countedQuery (query : String) : String :=
  String.ofList (query.toList.take (query.toList.length - countEnd.toList.length))

/-- A connection that answers the statements of a plan. -/
def fixedConn (plan : QueryPlan) (rows : List (List Value)) : Conn := fun query params =>
  if params ≠ plan.params then .error (.sqlite "Invalid parameters")
  else if query = plan.countAllText then .ok [[.integer rows.length]]
  else
    match limitsAfter (plan.text plan.modelColumns) query, limitsAfter (plan.text .one) query,
      limitsAfter (countStart ++ plan.text .one) (countedQuery query) with
    | some limits, _, _ => .ok (limits.window rows)
    | none, some limits, _ => .ok ((limits.window rows).map fun _ => [.integer 1])
    | none, none, some limits => .ok [[.integer (limits.window rows).length]]
    | none, none, none => .error (.sqlite "syntax error")

theorem limitsAfter_append {head tail : String} {limits : Sql.Limits}
    (h : Sql.readLimits tail = .ok limits) : limitsAfter head (head ++ tail) = some limits := by
  have hstart : head.toList <+: (head ++ tail).toList := by
    rw [String.toList_append]
    exact List.prefix_append _ _
  rw [limitsAfter, if_pos hstart, String.toList_append, List.drop_left, String.ofList_toList, h]
  rfl

/-- Texts that differ within some characters. -/
theorem limitsAfter_eq_none {head text : String} (tail : String) (n : ℕ)
    (hn : n ≤ head.toList.length ∧ n ≤ text.toList.length
      ∧ head.toList.take n ≠ text.toList.take n) : limitsAfter head (text ++ tail) = none := by
  rw [limitsAfter, if_neg]
  intro hstart
  obtain ⟨hhead, htext, hne⟩ := hn
  have htake := List.prefix_iff_eq_take.mp hstart
  refine hne ?_
  rw [htake, List.take_take, Nat.min_eq_left hhead, String.toList_append,
    List.take_append_of_le_length htext]

/-- A text that differs from another within some characters. -/
theorem append_ne {other text : String} (tail : String) (n : ℕ)
    (hn : n ≤ text.toList.length ∧ other.toList.take n ≠ text.toList.take n) :
    text ++ tail ≠ other := by
  intro heq
  refine hn.2 ?_
  rw [← heq, String.toList_append, List.take_append_of_le_length hn.1]

theorem countedQuery_append (query : String) : countedQuery (query ++ countEnd) = query := by
  have hlength : (query ++ countEnd).toList.length - countEnd.toList.length
      = query.toList.length := by
    rw [String.toList_append, List.length_append]
    omega
  rw [countedQuery, hlength, String.toList_append, List.take_left, String.ofList_toList]

/-- The persons by name, two of them after the first. -/
def personsByName : Query := ⟨.empty, [.column "name" .asc], some 2, 1⟩

def personsByNamePlan : QueryPlan :=
  ⟨"person", "id", personModel.columns, none, some "name ASC", [], some 2, 1⟩

theorem answersOver_fixedConn :
    AnswersOver (fixedConn personsByNamePlan persons.rows) personsByNamePlan persons.rows where
  length_lt := by decide
  columns := by
    intro tail limits hlimits
    rw [fixedConn, if_neg (not_not_intro rfl), if_neg (append_ne tail 8 (by decide)),
      limitsAfter_append hlimits]
  ones := by
    intro tail limits hlimits
    rw [fixedConn, if_neg (not_not_intro rfl), if_neg (append_ne tail 8 (by decide)),
      limitsAfter_eq_none tail 8 (by decide), limitsAfter_append hlimits]
  counted := by
    intro tail limits hlimits
    have htext : "SELECT COUNT(*) FROM (" ++ (personsByNamePlan.text .one ++ tail)
          ++ ") AS seekwel_count"
        = countStart ++ (personsByNamePlan.text .one ++ tail ++ countEnd) := by
      rw [String.append_assoc]
      rfl
    have hcounted : countedQuery (countStart ++ (personsByNamePlan.text .one ++ tail ++ countEnd))
        = countStart ++ personsByNamePlan.text .one ++ tail := by
      rw [← String.append_assoc, countedQuery_append, String.append_assoc]
    rw [htext, fixedConn, if_neg (not_not_intro rfl), if_neg (append_ne _ 22 (by decide)),
      limitsAfter_eq_none _ 8 (by decide), limitsAfter_eq_none _ 8 (by decide), hcounted,
      limitsAfter_append hlimits]
  countedAll := by
    intro _
    rw [CountsUnordered, fixedConn, if_neg (not_not_intro rfl), if_pos rfl]

end Seekwel.Model
