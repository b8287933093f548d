import Seekwel.QueryDsl
import Seekwel.SqlLimit

/-!
# Fetching at once, row by row and in chunks

A query may be run at once, iterated row by row or iterated in chunks. The
last two send a statement for every row or chunk, with the limit and the
offset moved on by the number of rows consumed so far. Over a `Source`,
whose rows do not change, every page is the part of the whole result it
should be (`Source.conn_paged`), and so the rows are the same in all three
cases (`fetchesAlike_iff`), except that a chunk size beyond the integers of
SQLite only works with a limit.
-/

namespace Seekwel.Model

open QueryDsl

/-! ## Sources -/

/-- **A statement whose rows are fixed**: those it returns, in order, where
it stands without limits. They fit into a vector. -/
structure Source where
  statement : String
  params : List Value
  rows : List (List Value)
  length_lt : rows.length < 2 ^ 63

/-- The connection that answers the statement, with any limits after it. -/
def Source.conn (source : Source) : Conn := fun query params =>
  if params = source.params ∧ source.statement.toList <+: query.toList then
    match Sql.readLimits
        (String.ofList (query.toList.drop source.statement.toList.length)) with
    | .ok limits => .ok (limits.window source.rows)
    | .error message => .error (.sqlite message)
  else .error (.sqlite "no such statement")

/-- The statement of a plan without limits. -/
def QueryPlan.text (plan : QueryPlan) (projection : Projection) : String :=
  (plan.select projection none 0).toSql

/-- The statement of a plan that selects the columns of the model, without
limits. -/
def QueryPlan.statement (plan : QueryPlan) : String := plan.text plan.modelColumns

/-- The source of the rows of a plan. -/
structure Source.Answers (source : Source) (plan : QueryPlan) : Prop where
  statement_eq : source.statement = plan.statement
  params_eq : source.params = plan.params

/-- What a limit and an offset leave of some rows. -/
def page {α : Type} (limit : Option ℕ) (offset : ℕ) (rows : List α) : List α :=
  match limit with
  | some limit => (rows.drop offset).take limit
  | none => rows.drop offset

theorem appendLimitOffset_eq (query : String) (limit offset : Option ℕ) :
    appendLimitOffset query limit offset = query ++ appendLimitOffset "" limit offset := by
  cases limit <;> cases offset <;> simp [appendLimitOffset, String.append_assoc]

theorem QueryPlan.toSql_select (plan : QueryPlan) (projection : Projection)
    (limit : Option ℕ) (offset : ℕ) :
    (plan.select projection limit offset).toSql
      = plan.text projection
        ++ appendLimitOffset "" limit (if 0 < offset then some offset else none) := by
  simp only [Select.toSql, QueryPlan.text, QueryPlan.select, Nat.lt_irrefl, if_false]
  rw [appendLimitOffset_eq]
  simp [appendLimitOffset]

theorem Source.conn_append (source : Source) (tail : String) :
    source.conn (source.statement ++ tail) source.params
      = match Sql.readLimits tail with
        | .ok limits => .ok (limits.window source.rows)
        | .error message => .error (.sqlite message) := by
  simp [Source.conn]

/-- The limits that are written for a limit and an offset. -/
def limitsOf (limit : Option ℕ) (offset : ℕ) : Sql.Limits :=
  if 0 < offset then ⟨some ((limit.map fun n => (n : ℤ)).getD (-1)), some offset⟩
  else ⟨limit.map fun n => (n : ℤ), none⟩

theorem window_limitsOf {α : Type} (limit : Option ℕ) (offset : ℕ) (rows : List α) :
    (limitsOf limit offset).window rows = page limit offset rows := by
  unfold limitsOf
  split_ifs with hpos
  · cases limit with
    | none => simp [Sql.Limits.window, page]
    | some limit =>
      have hneg : ¬ (limit : ℤ) < 0 := by omega
      simp [Sql.Limits.window, page, hneg]
  · obtain rfl : offset = 0 := by omega
    cases limit with
    | none => simp [Sql.Limits.window, page]
    | some limit =>
      have hneg : ¬ (limit : ℤ) < 0 := by omega
      simp [Sql.Limits.window, page, hneg]

/-- **SQLite reads the limits that are written.** -/
theorem readLimits_appendLimitOffset (limit : Option ℕ) {offset : ℕ} (ho : offset < 2 ^ 63) :
    Sql.readLimits (appendLimitOffset "" limit (if 0 < offset then some offset else none))
      = if ∀ n ∈ limit, n < 2 ^ 63 then .ok (limitsOf limit offset)
        else .error "datatype mismatch" := by
  unfold limitsOf
  split_ifs with hpos hlimit hlimit
  · cases limit with
    | none =>
      have htail : appendLimitOffset "" none (some offset)
          = " LIMIT -1" ++ (" OFFSET " ++ toString offset) := by simp [appendLimitOffset]
      rw [htail, Sql.readLimits_offset ho]
      rfl
    | some limit =>
      have htail : appendLimitOffset "" (some limit) (some offset)
          = " LIMIT " ++ toString limit ++ (" OFFSET " ++ toString offset) := by
        simp [appendLimitOffset]
      rw [htail, Sql.readLimits_limit_offset limit ho, if_pos (hlimit limit rfl)]
      rfl
  · cases limit with
    | none => exact absurd nofun hlimit
    | some limit =>
      have htail : appendLimitOffset "" (some limit) (some offset)
          = " LIMIT " ++ toString limit ++ (" OFFSET " ++ toString offset) := by
        simp [appendLimitOffset]
      rw [htail, Sql.readLimits_limit_offset limit ho, if_neg (by simpa using hlimit)]
  · cases limit with
    | none => decide
    | some limit =>
      have htail : appendLimitOffset "" (some limit) none = " LIMIT " ++ toString limit := by
        simp [appendLimitOffset]
      rw [htail, Sql.readLimits_limit, if_pos (hlimit limit rfl)]
      rfl
  · cases limit with
    | none => exact absurd nofun hlimit
    | some limit =>
      have htail : appendLimitOffset "" (some limit) none = " LIMIT " ++ toString limit := by
        simp [appendLimitOffset]
      rw [htail, Sql.readLimits_limit, if_neg (by simpa using hlimit)]

/-- **What the source answers** to a statement with limits. -/
theorem Source.conn_select {source : Source} {plan : QueryPlan} (h : source.Answers plan)
    (limit : Option ℕ) {offset : ℕ} (ho : offset < 2 ^ 63) :
    source.conn (plan.select plan.modelColumns limit offset).toSql plan.params
      = if ∀ n ∈ limit, n < 2 ^ 63 then .ok (page limit offset source.rows)
        else .error (.sqlite "datatype mismatch") := by
  rw [QueryPlan.toSql_select, ← QueryPlan.statement, ← h.statement_eq, ← h.params_eq,
    Source.conn_append, readLimits_appendLimitOffset limit ho]
  split_ifs
  · simp only [window_limitsOf]
  · rfl

/-! ## Pages -/

/-- The rows of a plan over a source. -/
def Source.result (source : Source) (plan : QueryPlan) : List (List Value) :=
  page plan.limit plan.offset source.rows

/-- **A page** is the part of the result that comes next. -/
theorem page_paged {α : Type} (limit : Option ℕ) (offset consumed size : ℕ) (rows : List α) :
    page (some (match limit.map fun limit => limit - consumed with
      | some limit => min limit size
      | none => size)) (offset + consumed) rows
      = ((page limit offset rows).drop consumed).take size := by
  cases limit with
  | none => simp [page, List.drop_drop]
  | some limit =>
    simp [page, List.drop_take, List.drop_drop, List.take_take, Nat.min_comm]

variable {R : Type} {M : PersistedModel R} {source : Source} {plan : QueryPlan}

/-- The plan's own limits are integers of SQLite. -/
structure QueryPlan.InRange (plan : QueryPlan) : Prop where
  limit_lt : ∀ limit ∈ plan.limit, limit < 2 ^ 63
  offset_lt : plan.offset < 2 ^ 63

theorem Source.offset_add_lt (hr : plan.InRange) {consumed : ℕ}
    (hc : consumed ≤ (source.result plan).length) : plan.offset + consumed < 2 ^ 63 := by
  have hlen : (source.result plan).length ≤ source.rows.length - plan.offset := by
    unfold Source.result page
    split <;> simp
  have := source.length_lt
  have := hr.offset_lt
  omega

/-- **What the source answers** when a page is asked for. -/
theorem Source.conn_paged (h : source.Answers plan) (hr : plan.InRange) {consumed : ℕ}
    (hc : consumed ≤ (source.result plan).length) {size : ℕ}
    (hsize : size < 2 ^ 63 ∨ plan.limit.isSome = true) :
    source.conn (plan.pagedQuery size consumed) plan.params
      = .ok (((source.result plan).drop consumed).take size) := by
  have hlt := source.offset_add_lt hr hc
  have hsat : saturatingAdd plan.offset consumed = plan.offset + consumed := by
    unfold saturatingAdd
    omega
  have hlimit : ∀ n ∈ some (match plan.limit.map fun limit => limit - consumed with
      | some limit => min limit size
      | none => size), n < 2 ^ 63 := by
    have hin := hr.limit_lt
    cases hl : plan.limit with
    | none => simpa [hl] using hsize
    | some limit =>
      have := hin limit hl
      simp only [Option.map_some, Option.mem_def, Option.some.injEq, forall_eq']
      exact lt_of_le_of_lt (min_le_left _ _) (by omega)
  have hpaged : plan.pagedQuery size consumed = (plan.select plan.modelColumns
      (some (match plan.limit.map fun limit => limit - consumed with
        | some limit => min limit size
        | none => size)) (plan.offset + consumed)).toSql := by
    rw [QueryPlan.pagedQuery, hsat, QueryPlan.remainingLimit]
    cases plan.limit <;> rfl
  rw [hpaged, Source.conn_select h _ hlt, if_pos hlimit, page_paged]
  rfl

/-- Without a limit, a page too large is an error. -/
theorem Source.conn_paged_of_le (h : source.Answers plan) (hr : plan.InRange)
    (hl : plan.limit = none) {size : ℕ} (hsize : 2 ^ 63 ≤ size) :
    source.conn (plan.pagedQuery size 0) plan.params
      = .error (.sqlite "datatype mismatch") := by
  have hlt := hr.offset_lt
  have hsat : saturatingAdd plan.offset 0 = plan.offset := by
    unfold saturatingAdd
    omega
  have hpaged : plan.pagedQuery size 0
      = (plan.select plan.modelColumns (some size) plan.offset).toSql := by
    simp [QueryPlan.pagedQuery, hsat, QueryPlan.remainingLimit, hl]
  rw [hpaged, Source.conn_select h _ hlt, if_neg]
  simpa using hsize

/-! ## Iterating -/

/-- **What an iterator yields** until it yields nothing, and the state it is
in then. -/
inductive Yields {σ α : Type} (next : σ → Option α × σ) : σ → List α → σ → Prop
  | stop {s s' : σ} : next s = (none, s') → Yields next s [] s'
  | item {s s' t : σ} {a : α} {items : List α} : next s = (some a, s') →
      Yields next s' items t → Yields next s (a :: items) t

/-- What the iterator does first is what it yields first. -/
theorem Yields.next_fst {σ α : Type} {next : σ → Option α × σ} {s t : σ} {items : List α}
    (h : Yields next s items t) : (next s).1 = items.head? := by
  cases h with
  | stop heq => rw [heq]; rfl
  | item heq _ => rw [heq]; rfl

/-- **Nothing more**: whatever the connection does from now on. -/
def LazyTryIter.Ended (M : PersistedModel R) (it : LazyTryIter) : Prop :=
  ∀ get, it.next M get = (none, it)

def ChunkedTryIter.Ended (M : PersistedModel R) (it : ChunkedTryIter) : Prop :=
  ∀ get, it.next M get = (none, it)

theorem LazyTryIter.ended_of_done (M : PersistedModel R) {it : LazyTryIter}
    (h : it.done = true) : it.Ended M := fun get => by
  simp [LazyTryIter.next, h]

theorem ChunkedTryIter.ended_of_done (M : PersistedModel R) {it : ChunkedTryIter}
    (h : it.done = true) : it.Ended M := fun get => by
  simp [ChunkedTryIter.next, h]

/-- After the end or an error a lazy iterator has ended. -/
theorem LazyTryIter.ended_next (M : PersistedModel R) (get : Except Error Conn)
    (it : LazyTryIter) (h : ∀ model, (it.next M get).1 ≠ some (.ok model)) :
    (it.next M get).2.Ended M := by
  refine LazyTryIter.ended_of_done M ?_
  by_cases hd : it.done = true
  · simp [LazyTryIter.next, hd]
  by_cases hr : it.plan.remainingLimit it.consumed = some 0
  · simp [LazyTryIter.next, hd, hr]
  cases get with
  | error error => simp [LazyTryIter.next, hd, hr]
  | ok conn =>
    cases hq : queryOptionalRead conn (it.plan.pagedQuery 1 it.consumed) it.plan.params
        M.fromRow with
    | error error => simp [LazyTryIter.next, hd, hr, hq]
    | ok model =>
      cases model with
      | none => simp [LazyTryIter.next, hd, hr, hq]
      | some model =>
        refine absurd ?_ (h model)
        simp [LazyTryIter.next, hd, hr, hq]

/-- After the end or an error a chunked iterator has ended. -/
theorem ChunkedTryIter.ended_next (M : PersistedModel R) (get : Except Error Conn)
    (it : ChunkedTryIter) (h : ∀ chunk, (it.next M get).1 ≠ some (.ok chunk)) :
    (it.next M get).2.Ended M := by
  refine ChunkedTryIter.ended_of_done M ?_
  by_cases hd : it.done = true
  · simp [ChunkedTryIter.next, hd]
  by_cases hr : it.plan.remainingLimit it.consumed = some 0
  · simp [ChunkedTryIter.next, hd, hr]
  cases get with
  | error error => simp [ChunkedTryIter.next, hd, hr]
  | ok conn =>
    cases hq : queryAllRead conn (it.plan.pagedQuery it.chunkLimit it.consumed)
        it.plan.params M.fromRow with
    | error error => simp [ChunkedTryIter.next, hd, hr, hq]
    | ok rows =>
      cases rows with
      | nil => simp [ChunkedTryIter.next, hd, hr, hq]
      | cons row rows =>
        refine absurd ?_ (h (row :: rows))
        simp [ChunkedTryIter.next, hd, hr, hq]

theorem ChunkedTryIter.chunkLimit_eq (plan : QueryPlan) (size consumed : ℕ) :
    chunkLimit ⟨plan, size, consumed, false⟩
      = match plan.limit with
        | some limit => min (limit - consumed) size
        | none => size := by
  unfold chunkLimit QueryPlan.remainingLimit
  cases plan.limit <;> rfl

theorem ChunkedTryIter.chunkLimit_le (plan : QueryPlan) (size consumed : ℕ) :
    chunkLimit ⟨plan, size, consumed, false⟩ ≤ size := by
  rw [chunkLimit_eq]
  split
  · exact min_le_right _ _
  · exact le_rfl

/-! ### Over a source -/

/-- Rows that can all be decoded. -/
theorem mapM_eq_ok {α β : Type} {f : α → Except Error β} {as : List α} {bs : List β}
    (h : as.map f = bs.map .ok) : as.mapM f = .ok bs := by
  have hall : List.Forall₂ Eq (as.map f) (bs.map .ok) := by rwa [List.forall₂_eq_eq_eq]
  rw [List.forall₂_map_left_iff, List.forall₂_map_right_iff] at hall
  exact mapM_ok_iff.mpr hall

/-- The result of a plan over a source, decoded. -/
structure Source.Decodes (M : PersistedModel R) (source : Source) (plan : QueryPlan)
    (records : List R) : Prop where
  answers : source.Answers plan
  inRange : plan.InRange
  decoded : (source.result plan).map M.fromRow = records.map .ok

namespace Source.Decodes

variable {records : List R}

theorem length_eq (h : source.Decodes M plan records) :
    (source.result plan).length = records.length := by
  simpa using congrArg List.length h.decoded

theorem length_le (h : source.Decodes M plan records) {limit : ℕ}
    (hl : plan.limit = some limit) : records.length ≤ limit := by
  rw [← h.length_eq, Source.result, hl]
  simp [page]

/-- **The records of a page.** -/
theorem queryAllRead_paged (h : source.Decodes M plan records) {consumed : ℕ}
    (hc : consumed ≤ records.length) {size : ℕ}
    (hsize : size < 2 ^ 63 ∨ plan.limit.isSome = true) :
    queryAllRead source.conn (plan.pagedQuery size consumed) plan.params M.fromRow
      = .ok ((records.drop consumed).take size) := by
  rw [queryAllRead, Source.conn_paged h.answers h.inRange (h.length_eq ▸ hc) hsize]
  refine mapM_eq_ok ?_
  rw [List.map_take, List.map_drop, h.decoded, List.map_take, List.map_drop]

/-- **The record of a page of one.** -/
theorem queryOptionalRead_paged (h : source.Decodes M plan records) {consumed : ℕ}
    (hc : consumed ≤ records.length) :
    queryOptionalRead source.conn (plan.pagedQuery 1 consumed) plan.params M.fromRow
      = .ok records[consumed]? := by
  have hdec : ((source.result plan).drop consumed).map M.fromRow
      = (records.drop consumed).map .ok := by
    rw [List.map_drop, h.decoded, List.map_drop]
  rw [queryOptionalRead, Source.conn_paged h.answers h.inRange (h.length_eq ▸ hc)
    (.inl (by decide)), ← List.head?_drop]
  cases hrows : (source.result plan).drop consumed with
  | nil =>
    rw [hrows] at hdec
    simp [List.map_eq_nil_iff.mp hdec.symm, Except.bind]
  | cons row rows =>
    rw [hrows] at hdec
    cases hrec : records.drop consumed with
    | nil => simp [hrec] at hdec
    | cons record rest =>
      rw [hrec] at hdec
      simp [Except.bind, (List.cons.inj hdec).1, Except.map]

theorem remainingLimit_ne (h : source.Decodes M plan records) {consumed : ℕ}
    (hc : consumed < records.length) : plan.remainingLimit consumed ≠ some 0 := by
  unfold QueryPlan.remainingLimit
  cases hl : plan.limit with
  | none => simp
  | some limit =>
    have := h.length_le hl
    simp
    omega

/-- **The next record** of a lazy iterator. -/
theorem lazy_next (h : source.Decodes M plan records) {consumed : ℕ}
    (hc : consumed < records.length) :
    LazyTryIter.next M (.ok source.conn) ⟨plan, consumed, false⟩
      = (some (.ok records[consumed]), ⟨plan, consumed + 1, false⟩) := by
  have hr := h.remainingLimit_ne hc
  have hq := h.queryOptionalRead_paged hc.le
  rw [List.getElem?_eq_getElem hc] at hq
  simp [LazyTryIter.next, hr, hq]

/-- A lazy iterator after the last record. -/
theorem lazy_next_end (h : source.Decodes M plan records) :
    LazyTryIter.next M (.ok source.conn) ⟨plan, records.length, false⟩
      = (none, ⟨plan, records.length, true⟩) := by
  by_cases hr : plan.remainingLimit records.length = some 0
  · simp [LazyTryIter.next, hr]
  · have hq := h.queryOptionalRead_paged le_rfl
    rw [List.getElem?_eq_none le_rfl] at hq
    simp [LazyTryIter.next, hr, hq]

/-- **A lazy iterator yields the records**, from any of them on. -/
theorem lazy_yields (h : source.Decodes M plan records) (consumed : ℕ)
    (hc : consumed ≤ records.length) :
    Yields (LazyTryIter.next M (.ok source.conn)) ⟨plan, consumed, false⟩
      ((records.drop consumed).map .ok) ⟨plan, records.length, true⟩ := by
  induction hk : records.length - consumed generalizing consumed with
  | zero =>
    obtain rfl : consumed = records.length := by omega
    simpa using Yields.stop h.lazy_next_end
  | succ k ih =>
    have hlt : consumed < records.length := by omega
    rw [List.drop_eq_getElem_cons hlt, List.map_cons]
    exact .item (h.lazy_next hlt) (ih (consumed + 1) hlt (by omega))

/-- **The records of a chunk.** -/
theorem queryAllRead_chunk (h : source.Decodes M plan records) {size consumed : ℕ}
    (hsize : size < 2 ^ 63 ∨ plan.limit.isSome = true) (hc : consumed ≤ records.length) :
    queryAllRead source.conn (plan.pagedQuery
        (ChunkedTryIter.chunkLimit ⟨plan, size, consumed, false⟩) consumed) plan.params M.fromRow
      = .ok ((records.drop consumed).take size) := by
  rw [ChunkedTryIter.chunkLimit_eq]
  cases hl : plan.limit with
  | none => exact h.queryAllRead_paged hc (by simpa [hl] using hsize)
  | some limit =>
    have hle : ((records.drop consumed).take size).length ≤ limit - consumed := by
      have := h.length_le hl
      rw [List.length_take, List.length_drop]
      omega
    rw [h.queryAllRead_paged hc (.inr (by simp [hl])), ← List.take_take,
      List.take_of_length_le hle]

/-- **The next chunk** of a chunked iterator. After it the iterator is done
only if it was the last one. -/
theorem chunked_next (h : source.Decodes M plan records) {size consumed : ℕ}
    (hpos : 0 < size) (hsize : size < 2 ^ 63 ∨ plan.limit.isSome = true)
    (hc : consumed < records.length) :
    ∃ done, ChunkedTryIter.next M (.ok source.conn) ⟨plan, size, consumed, false⟩
        = (some (.ok ((records.drop consumed).take size)),
          ⟨plan, size, min (consumed + size) records.length, done⟩)
      ∧ (done = true → records.length ≤ consumed + size) := by
  have hr := h.remainingLimit_ne hc
  have hq := h.queryAllRead_chunk hsize hc.le
  have hlen : ((records.drop consumed).take size).length = min size (records.length - consumed) := by
    simp
  cases hchunk : (records.drop consumed).take size with
  | nil =>
    rw [hchunk] at hlen
    simp at hlen
    omega
  | cons record rest =>
    rw [hchunk] at hq hlen
    have hconsumed : consumed + (record :: rest).length = min (consumed + size) records.length := by
      omega
    refine ⟨(record :: rest).length < ChunkedTryIter.chunkLimit ⟨plan, size, consumed, false⟩
      || plan.remainingLimit (min (consumed + size) records.length) = some 0, ?_, ?_⟩
    · simp only [ChunkedTryIter.next, hr, hq, if_false, Bool.false_eq_true]
      rw [hconsumed]
    · intro hdone
      rw [Bool.or_eq_true, decide_eq_true_eq, decide_eq_true_eq] at hdone
      rcases hdone with hshort | hlimit
      · have := ChunkedTryIter.chunkLimit_le plan size consumed
        omega
      · obtain ⟨limit, hl, hzero⟩ := Option.map_eq_some_iff.mp hlimit
        have := h.length_le hl
        omega

/-- A chunked iterator after the last record. -/
theorem chunked_next_end (h : source.Decodes M plan records) {size : ℕ}
    (hsize : size < 2 ^ 63 ∨ plan.limit.isSome = true) (done : Bool) :
    ChunkedTryIter.next M (.ok source.conn) ⟨plan, size, records.length, done⟩
      = (none, ⟨plan, size, records.length, true⟩) := by
  cases done with
  | true => rfl
  | false =>
    by_cases hr : plan.remainingLimit records.length = some 0
    · simp [ChunkedTryIter.next, hr]
    · have hq := h.queryAllRead_chunk hsize le_rfl
      rw [List.drop_length, List.take_nil] at hq
      simp [ChunkedTryIter.next, hr, hq]

/-- **A chunked iterator yields the records in chunks**, from any of them
on. -/
theorem chunked_yields (h : source.Decodes M plan records) {size : ℕ} (hpos : 0 < size)
    (hsize : size < 2 ^ 63 ∨ plan.limit.isSome = true) (consumed : ℕ)
    (hc : consumed ≤ records.length) :
    ∃ chunks : List (List R),
      Yields (ChunkedTryIter.next M (.ok source.conn)) ⟨plan, size, consumed, false⟩
        (chunks.map .ok) ⟨plan, size, records.length, true⟩
      ∧ chunks.flatten = records.drop consumed
      ∧ (∀ chunk ∈ chunks, chunk ≠ [] ∧ chunk.length ≤ size)
      ∧ ∀ chunk ∈ chunks.dropLast, chunk.length = size := by
  induction hk : records.length - consumed using Nat.strong_induction_on generalizing consumed
    with
  | _ k ih =>
  rcases hc.eq_or_lt with rfl | hlt
  · exact ⟨[], .stop (h.chunked_next_end hsize false), by simp⟩
  · obtain ⟨done, hnext, hdone⟩ := h.chunked_next hpos hsize hlt
    have hne : (records.drop consumed).take size ≠ [] := by
      rw [ne_eq, List.take_eq_nil_iff, List.drop_eq_nil_iff]
      omega
    have hle : ((records.drop consumed).take size).length ≤ size := List.length_take_le _ _
    rcases le_or_gt records.length (consumed + size) with hlast | hmore
    · -- the last chunk, after which the iterator may or may not be done
      rw [min_eq_right hlast] at hnext
      refine ⟨[(records.drop consumed).take size],
        .item hnext (.stop (h.chunked_next_end hsize done)), ?_, ?_, by simp⟩
      · have hrest : (records.drop consumed).length ≤ size := by
          rw [List.length_drop]
          omega
        rw [List.flatten_singleton, List.take_of_length_le hrest]
      · exact List.forall_mem_singleton.mpr ⟨hne, hle⟩
    · obtain rfl : done = false := by
        by_contra hd
        have := hdone (by simpa using hd)
        omega
      rw [min_eq_left hmore.le] at hnext
      obtain ⟨chunks, hyields, hflat, hsizes, hfull⟩ :=
        ih (records.length - (consumed + size)) (by omega) (consumed + size) hmore.le rfl
      have hlen : ((records.drop consumed).take size).length = size := by
        rw [List.length_take, List.length_drop]
        omega
      refine ⟨(records.drop consumed).take size :: chunks, .item hnext hyields, ?_, ?_, ?_⟩
      · rw [List.flatten_cons, hflat, ← List.drop_drop, List.take_append_drop]
      · exact List.forall_mem_cons.mpr ⟨⟨hne, hle⟩, hsizes⟩
      · intro chunk hmem
        cases chunks with
        | nil => simp at hmem
        | cons c cs =>
          rw [List.dropLast_cons_cons] at hmem
          rcases List.mem_cons.mp hmem with rfl | hmem
          · exact hlen
          · exact hfull chunk hmem

end Source.Decodes

/-! ## All strategies -/

/-- **All ways of fetching a query return the same records**: at once, row
by row and in chunks of this size. The chunks are as they should be, and
both iterators end, and yield nothing after the end or after an error. -/
structure FetchesAlike {Q : Type} [QueryDsl Q] (M : PersistedModel R) (conn : Conn)
    (f : Fetch Q) (size : ℕ) : Prop where
  /-- The records and the chunks. -/
  same : ∃ (records : List R) (chunks : List (List R)),
    f.all M (.ok conn) = .ok records
    ∧ (∃ it it', f.toLazy.tryIter M.toModelDef = .ok it
      ∧ Yields (LazyTryIter.next M (.ok conn)) it (records.map .ok) it' ∧ it'.Ended M)
    ∧ (∃ it it', (f.toChunked size).tryIter M.toModelDef = .ok it
      ∧ Yields (ChunkedTryIter.next M (.ok conn)) it (chunks.map .ok) it' ∧ it'.Ended M)
    ∧ chunks.flatten = records
    ∧ (∀ chunk ∈ chunks, chunk ≠ [] ∧ chunk.length ≤ size)
    ∧ ∀ chunk ∈ chunks.dropLast, chunk.length = size
  lazy_ended : ∀ (get : Except Error Conn) (it : LazyTryIter),
    (∀ model, (it.next M get).1 ≠ some (.ok model)) → (it.next M get).2.Ended M
  chunked_ended : ∀ (get : Except Error Conn) (it : ChunkedTryIter),
    (∀ chunk, (it.next M get).1 ≠ some (.ok chunk)) → (it.next M get).2.Ended M

theorem exists_decoded {α β : Type} {f : α → Except Error β} {as : List α}
    (h : ∀ a ∈ as, ∃ b, f a = .ok b) : ∃ bs : List β, as.map f = bs.map .ok := by
  induction as with
  | nil => exact ⟨[], rfl⟩
  | cons a as ih =>
    obtain ⟨b, hb⟩ := h a List.mem_cons_self
    obtain ⟨bs, hbs⟩ := ih fun c hc => h c (List.mem_cons_of_mem a hc)
    exact ⟨b :: bs, by rw [List.map_cons, hb, hbs, List.map_cons]⟩

theorem Source.result_subset (source : Source) (plan : QueryPlan) :
    source.result plan ⊆ source.rows := by
  unfold Source.result page
  split
  · exact fun _ h => List.mem_of_mem_drop (List.mem_of_mem_take h)
  · exact fun _ h => List.mem_of_mem_drop h

theorem Source.Decodes.all_eq {records : List R} (h : source.Decodes M plan records)
    {Q : Type} [QueryDsl Q] {q : Q} (hplan : intoQueryPlan M.toModelDef q = .ok plan) :
    all M (.ok source.conn) q = .ok records := by
  have hrows : source.conn plan.allQuery plan.params = .ok (source.result plan) := by
    rw [QueryPlan.allQuery, Source.conn_select h.answers _ h.inRange.offset_lt,
      if_pos h.inRange.limit_lt]
    rfl
  have hread : queryAllRead source.conn plan.allQuery plan.params M.fromRow = .ok records := by
    rw [queryAllRead, hrows]
    exact mapM_eq_ok h.decoded
  simp only [all, hplan]
  exact hread

/-- Without a limit, chunks too large are an error from the start. -/
theorem chunked_next_of_le (hs : source.Answers plan) (hr : plan.InRange)
    (hl : plan.limit = none) {size : ℕ} (hsize : 2 ^ 63 ≤ size) :
    (ChunkedTryIter.next M (.ok source.conn) ⟨plan, size, 0, false⟩).1
      = some (.error (.sqlite "datatype mismatch")) := by
  have hlimit : plan.remainingLimit 0 = none := by simp [QueryPlan.remainingLimit, hl]
  have hchunk : ChunkedTryIter.chunkLimit ⟨plan, size, 0, false⟩ = size := by
    rw [ChunkedTryIter.chunkLimit_eq, hl]
  have hread : queryAllRead source.conn (plan.pagedQuery size 0) plan.params M.fromRow
      = .error (.sqlite "datatype mismatch") := by
    rw [queryAllRead, source.conn_paged_of_le hs hr hl hsize]
    rfl
  simp [ChunkedTryIter.next, hlimit, hchunk, hread]

theorem not_fetchesAlike {Q : Type} [QueryDsl Q] {f : Fetch Q}
    (hplan : intoQueryPlan M.toModelDef f.inner = .ok plan) (hr : plan.InRange)
    (hs : source.Answers plan) (hl : plan.limit = none) {size : ℕ} (hsize : 2 ^ 63 ≤ size) :
    ¬ FetchesAlike M source.conn f size := by
  intro halike
  obtain ⟨-, chunks, -, -, ⟨it, it', hit, hyields, -⟩, -⟩ := halike.same
  rw [Fetch.tryIter_toChunked, hplan] at hit
  cases hit
  have hnext := chunked_next_of_le hs hr hl hsize (M := M)
  rw [hyields.next_fst] at hnext
  cases chunks <;> cases hnext

theorem Source.Decodes.fetchesAlike {records : List R} (h : source.Decodes M plan records)
    {Q : Type} [QueryDsl Q] {f : Fetch Q}
    (hplan : intoQueryPlan M.toModelDef f.inner = .ok plan) {size : ℕ} (hpos : 0 < size)
    (hsize : size < 2 ^ 63 ∨ plan.limit.isSome = true) :
    FetchesAlike M source.conn f size := by
  obtain ⟨chunks, hyields, hflat, hsizes, hfull⟩ :=
    h.chunked_yields hpos hsize 0 (Nat.zero_le _)
  have hlazy : f.toLazy.tryIter M.toModelDef = .ok ⟨plan, 0, false⟩ := by
    rw [Fetch.tryIter_toLazy, hplan]
    rfl
  have hchunked : (f.toChunked size).tryIter M.toModelDef = .ok ⟨plan, size, 0, false⟩ := by
    rw [Fetch.tryIter_toChunked, hplan]
    rfl
  refine ⟨⟨records, chunks, ?_, ⟨_, _, hlazy, h.lazy_yields 0 (Nat.zero_le _),
    LazyTryIter.ended_of_done M rfl⟩, ⟨_, _, hchunked, hyields,
    ChunkedTryIter.ended_of_done M rfl⟩, by simpa using hflat, hsizes, hfull⟩,
    LazyTryIter.ended_next M, ChunkedTryIter.ended_next M⟩
  rw [Fetch.all_eq]
  exact h.all_eq hplan

/-- **All strategies fetch the same records exactly if** the chunk size is an
integer of SQLite or the query has a limit. -/
theorem fetchesAlike_iff {Q : Type} [QueryDsl Q] (M : PersistedModel R) (start : Fetch Q)
    (cs : List Call) {plan : QueryPlan}
    (hplan : intoQueryPlan M.toModelDef (start.calls cs).inner = .ok plan)
    (hr : plan.InRange) {source : Source} (hs : source.Answers plan)
    (hdec : ∀ row ∈ source.rows, ∃ record, M.fromRow row = .ok record) {size : ℕ}
    (hpos : 0 < size) :
    FetchesAlike M source.conn (start.calls cs) size
      ↔ size < 2 ^ 63 ∨ plan.limit.isSome = true := by
  constructor
  · intro halike
    by_contra hlarge
    rw [not_or, Nat.not_lt, Bool.not_eq_true, Option.isSome_eq_false_iff,
      Option.isNone_iff_eq_none] at hlarge
    exact not_fetchesAlike hplan hr hs hlarge.2 hlarge.1 halike
  · intro hsize
    obtain ⟨records, hrecords⟩ :=
      exists_decoded fun row hrow => hdec row (source.result_subset plan hrow)
    exact Source.Decodes.fetchesAlike ⟨hs, hr, hrecords⟩ hplan hpos hsize

/-- A model with one column, whose records are its rows. -/
def personModel : PersistedModel (List Value) where
  tableName := "person"
  primaryKey := ⟨"id", "INTEGER", true⟩
  columns := [⟨"name", "TEXT", false, none⟩]
  indexes := []
  fromRow := .ok

/-- The plan of a query on persons that has a limit, an offset, or both. -/
def personPlan (limit : Option ℕ) (offset : ℕ) : QueryPlan where
  tableName := "person"
  primaryKeyName := "id"
  columns := personModel.columns
  clause := none
  orderClause := none
  params := []
  limit := limit
  offset := offset

/-- Five persons. -/
def persons : Source where
  statement := "SELECT id, name FROM person"
  params := []
  rows := (List.range 5).map fun n => [.integer n, .text "someone"]
  length_lt := by decide

theorem fetchesAlike_persons :
    FetchesAlike personModel persons.conn
      ((Fetch.eager Query.root).calls [.limit 3, .lazy, .offset 1, .chunked 9 (by decide)]) 2 :=
  (fetchesAlike_iff personModel (Fetch.eager Query.root)
    [.limit 3, .lazy, .offset 1, .chunked 9 (by decide)] rfl
    ⟨by decide, by decide⟩ ⟨by decide, rfl⟩ (fun row _ => ⟨row, rfl⟩)
    (by decide)).mpr (.inl (by decide))

/-- Chunks of `2 ^ 63` rows are refused. -/
theorem chunks_refused :
    ¬ FetchesAlike personModel persons.conn (Fetch.eager Query.root) (2 ^ 63) :=
  not_fetchesAlike rfl ⟨by decide, by decide⟩
    ⟨by decide, rfl⟩ rfl le_rfl

end Seekwel.Model
