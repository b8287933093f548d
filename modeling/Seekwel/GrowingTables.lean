import Seekwel.FailedCreate
import Seekwel.GrowingReads
import Seekwel.RecordQueries

/-!
# Iterating while records are created

The iterators of lazy and chunked queries send a statement for each page, with
an offset that counts what they have yielded. While one of them is used, other
records may be created. A record with a generated key comes after the others
(`growsTo_of_save`), and so a query without an ordering finds what it found
before and then the new ones (`selected_growsTo`): it yields every record once,
also those that are created before it ends (`iterators_read_once`).
-/

namespace Seekwel.Model

open Sql (Domain Table Stored Scan OrderItem)
open Reader (Fetches IsReader ReadsOnce Grows returned)

/-! ## Iterators as readers -/

section Iterators

variable {R : Type} {P : PersistedModel R} {conn : Conn} {plan : QueryPlan} {records : List R}

/-- **A connection with a fixed result of a plan**, whatever its limits. -/
def Serves (P : PersistedModel R) (conn : Conn) (plan : QueryPlan) (records : List R) : Prop :=
  ∃ source : Source, source.Decodes P plan records ∧ ∀ limit offset,
    conn (plan.select plan.modelColumns limit offset).toSql plan.params
      = source.conn (plan.select plan.modelColumns limit offset).toSql plan.params

/-- The rows of a lazy query, as pieces. -/
def LazyTryIter.nextPiece (P : PersistedModel R) (get : Except Error Conn) (it : LazyTryIter) :
    Option (Except Error (List R)) × LazyTryIter :=
  ((it.next P get).1.map (Except.map fun record => [record]), (it.next P get).2)

/-- Without a connection there is an error, unless the limit is reached. -/
theorem LazyTryIter.next_error (error : Error) (consumed : ℕ) :
    LazyTryIter.next P (.error error) ⟨plan, consumed, false⟩
      = (if plan.limit.map (· - consumed) = some 0 then none else some (.error error),
        ⟨plan, consumed, true⟩) := by
  unfold LazyTryIter.next QueryPlan.remainingLimit
  rw [if_neg Bool.false_ne_true]
  split_ifs <;> rfl

theorem ChunkedTryIter.next_error (error : Error) (size consumed : ℕ) :
    ChunkedTryIter.next P (.error error) ⟨plan, size, consumed, false⟩
      = (if plan.limit.map (· - consumed) = some 0 then none else some (.error error),
        ⟨plan, size, consumed, true⟩) := by
  unfold ChunkedTryIter.next QueryPlan.remainingLimit
  rw [if_neg Bool.false_ne_true]
  split_ifs <;> rfl

/-- A chunk that is not full is the last one. -/
theorem ChunkedTryIter.done_of_short {size consumed : ℕ} {chunk : List R} {it : ChunkedTryIter}
    (h : ChunkedTryIter.next P (.ok conn) ⟨plan, size, consumed, false⟩ = (some (.ok chunk), it))
    (hshort : chunk.length < size) : it.done = true := by
  simp only [ChunkedTryIter.next] at h
  split at h
  · cases (Prod.mk.inj h).1
  split at h
  · cases (Prod.mk.inj h).1
  split at h
  · cases (Prod.mk.inj h).1
  · obtain ⟨hchunk, rfl⟩ := Prod.mk.inj h
    obtain rfl := Except.ok.inj (Option.some.inj hchunk)
    rename_i row rows hrest hread
    rw [ChunkedTryIter.chunkLimit_eq]
    cases hl : plan.limit with
    | none => exact Bool.or_eq_true_iff.mpr (.inl (decide_eq_true hshort))
    | some limit =>
      rw [Bool.or_eq_true, decide_eq_true_eq, decide_eq_true_eq, QueryPlan.remainingLimit, hl,
        Option.map_some, Option.some.injEq]
      dsimp only
      omega
  · cases (Prod.mk.inj h).1

/-- No more records than the limit of a plan. -/
def WithinLimit (plan : QueryPlan) (read : List R) : Prop :=
  ∀ limit ∈ plan.limit, read.length ≤ limit

theorem WithinLimit.of_isPrefix {source : Source} (h : source.Decodes P plan records)
    {read : List R} (hread : read <+: records) : WithinLimit plan read :=
  fun _ hl => hread.length_le.trans (h.length_le hl)

/-- The limit is reached. -/
theorem WithinLimit.limit_eq {read : List R} (h : WithinLimit plan read)
    (hlimit : plan.limit.map (· - read.length) = some 0) : plan.limit = some read.length := by
  obtain ⟨limit, hl, hzero⟩ := Option.map_eq_some_iff.mp hlimit
  have := h limit hl
  rw [hl, Option.some.injEq]
  omega

variable {γ : Type} {get : γ → Except Error Conn} {result : γ → Except Error (List R)}

/-- What the calls meet: no connection, or one with a result. -/
def Meets (P : PersistedModel R) (plan : QueryPlan) (get : Except Error Conn)
    (result : Except Error (List R)) : Prop :=
  (∃ error, get = .error error ∧ result = .error error)
    ∨ ∃ conn records, get = .ok conn ∧ result = .ok records ∧ Serves P conn plan records

/-- **A lazy iterator is a reader** of pieces of one. -/
theorem LazyTryIter.isReader (h : ∀ g, Meets P plan (get g) (result g)) :
    IsReader plan.limit 1
      (fun read it => it = ⟨plan, read.length, false⟩ ∧ WithinLimit plan read)
      (fun it => it.done = true) (fun g => LazyTryIter.nextPiece P (get g)) result where
  done g hdone := by
    unfold LazyTryIter.nextPiece
    rw [LazyTryIter.ended_of_done P hdone]
    exact ⟨rfl, hdone⟩
  fetches := by
    rintro read it g ⟨rfl, hwithin⟩ hread
    obtain ⟨error, hget, hresult⟩ | ⟨conn, records, hget, hresult, source, hdec, hconn⟩ := h g
    · rw [LazyTryIter.nextPiece, hget, LazyTryIter.next_error, hresult]
      split_ifs with hlimit
      · exact .ended (.inl (hwithin.limit_eq hlimit)) rfl
      · exact .failed rfl rfl
    · obtain ⟨rest, rfl⟩ := hread records hresult
      rw [LazyTryIter.nextPiece, hget, LazyTryIter.next_congr hconn, hresult]
      cases rest with
      | nil =>
        rw [List.append_nil] at hdec ⊢
        rw [hdec.lazy_next_end]
        exact .ended (.inr rfl) rfl
      | cons record rest =>
        have hlt : read.length < (read ++ record :: rest).length := by simp
        rw [hdec.lazy_next hlt, List.getElem_append_right le_rfl]
        simp only [Nat.sub_self, List.getElem_cons_zero]
        have hall : read ++ record :: rest = read ++ [record] ++ rest := by simp
        refine .piece (congrArg Except.ok hall) rfl ⟨?_, ?_⟩
        · rw [List.length_append]
          rfl
        · exact WithinLimit.of_isPrefix hdec ⟨rest, hall.symm⟩

/-- **A chunked iterator is a reader** of chunks. -/
theorem ChunkedTryIter.isReader {size : ℕ} (hpos : 0 < size)
    (hsize : size < 2 ^ 63 ∨ plan.limit.isSome = true)
    (h : ∀ g, Meets P plan (get g) (result g)) :
    IsReader plan.limit size
      (fun read it => it = ⟨plan, size, read.length, false⟩ ∧ WithinLimit plan read)
      (fun it => it.done = true) (fun g => ChunkedTryIter.next P (get g)) result where
  done g hdone := by
    rw [ChunkedTryIter.ended_of_done P hdone]
    exact ⟨rfl, hdone⟩
  fetches := by
    rintro read it g ⟨rfl, hwithin⟩ hread
    obtain ⟨error, hget, hresult⟩ | ⟨conn, records, hget, hresult, source, hdec, hconn⟩ := h g
    · rw [hget, ChunkedTryIter.next_error, hresult]
      split_ifs with hlimit
      · exact .ended (.inl (hwithin.limit_eq hlimit)) rfl
      · exact .failed rfl rfl
    · obtain ⟨rest, rfl⟩ := hread records hresult
      rw [hget, ChunkedTryIter.next_congr hconn, hresult]
      rcases eq_or_ne rest [] with rfl | hne
      · rw [List.append_nil] at hdec ⊢
        rw [hdec.chunked_next_end hsize]
        exact .ended (.inr rfl) rfl
      · have hlt : read.length < (read ++ rest).length := by
          have := List.length_pos_iff.mpr hne
          rw [List.length_append]
          omega
        obtain ⟨done, hnext, hdone⟩ := hdec.chunked_next hpos hsize hlt
        rw [List.drop_left] at hnext
        rw [hnext]
        cases done with
        | true =>
          have hall : rest.take size = rest := by
            have hle := hdone rfl
            rw [List.length_append] at hle
            exact List.take_of_length_le (by omega)
          rw [hall]
          exact .last rfl hne (hall ▸ List.length_take_le _ _) rfl
        | false =>
          have hfull : (rest.take size).length = size := by
            refine le_antisymm (List.length_take_le _ _) (not_lt.mp fun hshort => ?_)
            exact Bool.false_ne_true (ChunkedTryIter.done_of_short hnext hshort)
          have hle : size ≤ rest.length := by
            rw [List.length_take] at hfull
            omega
          have hall : read ++ rest = read ++ rest.take size ++ rest.drop size := by
            rw [List.append_assoc, List.take_append_drop]
          refine .piece (congrArg Except.ok hall) hfull ⟨?_, ?_⟩
          · rw [List.length_append, List.length_append, hfull]
            exact congrArg (fun n => ChunkedTryIter.mk plan size n false) (by omega)
          · exact WithinLimit.of_isPrefix hdec ⟨rest.drop size, hall.symm⟩

end Iterators

/-! ## Tables that grow -/

section Tables

variable {M : Declaration} {D : Domain Value} {t t' : Table Value}

/-- **Rows are added**, all of them with greater rowids. -/
structure GrowsTo (t t' : Table Value) : Prop where
  schema : t'.toSchema = t.toSchema
  rows : ∃ added, t'.rows = t.rows ++ added
    ∧ ∀ row ∈ t.rows, ∀ row' ∈ added, row.rowid < row'.rowid

theorem GrowsTo.refl (t : Table Value) : GrowsTo t t :=
  ⟨rfl, [], (List.append_nil _).symm, fun _ _ _ h => absurd h List.not_mem_nil⟩

theorem lt_nextRowid_of_lt (hlast : ∀ row ∈ t.rows, row.rowid < 2 ^ 63 - 1) :
    ∀ row ∈ t.rows, row.rowid < t.nextRowid := by
  intro row hrow
  have hmem : row.rowid ∈ t.rows.map Stored.rowid := List.mem_map_of_mem hrow
  rw [Table.nextRowid]
  cases hmax : (t.rows.map Stored.rowid).max? with
  | none => exact absurd (List.max?_eq_none_iff.mp hmax ▸ hmem) List.not_mem_nil
  | some greatest =>
    obtain ⟨hgreatest, hle⟩ := List.max?_eq_some_iff.mp hmax
    obtain ⟨last, hlastmem, rfl⟩ := List.mem_map.mp hgreatest
    dsimp only
    rw [if_pos (hlast last hlastmem)]
    exact Int.lt_add_one_of_le (hle _ hmem)

/-- **A record with a generated key comes after the others**, before the rowids
are used up. -/
theorem growsTo_of_save (hids : M.names.AreFields) (h : IsTable M t.toSchema)
    (hauto : M.autoIncrement = true) (hlast : ∀ row ∈ t.rows, row.rowid < 2 ^ 63 - 1)
    (record : NewRecord M) : GrowsTo t (record.save t).2 := by
  obtain ⟨e, hsave, -⟩ | ⟨t', row, hrows, hrowid, hsave, -, -⟩ :=
    save_cases hids h.hasColumns record
  · rw [hsave]
    exact GrowsTo.refl t
  · have hschema : t'.toSchema = t.toSchema := by
      cases hinto : (record.intoPersisted (castU64 (record.rowid t))).mapError SaveError.error with
      | error e => exact (contents_of_left_behind hids h.hasColumns (hinto ▸ hsave)).1
      | ok saved => exact (contents_of_created hids h (hinto ▸ hsave)).1
    have hnext : row.rowid = t.nextRowid := by
      rw [hrowid, NewRecord.rowid, if_pos hauto]
    rw [hsave]
    refine ⟨hschema, [row], hrows, fun old hold => List.forall_mem_singleton.mpr ?_⟩
    rw [hnext]
    exact lt_nextRowid_of_lt hlast old hold

/-! ### What is found -/

instance (row : String → Value) (q : QueryExpression) : Decidable (q.Selects D row) :=
  inferInstanceAs (Decidable (∀ truth ∈ q.holds D row, truth = Sql.Truth.yes))

/-- The rows that a filter selects, by their rowids. -/
def selectedRows (D : Domain Value) (t : Table Value) (q : QueryExpression) : List (Stored Value) :=
  (Scan.ofRowids.visit t.rows).filter fun row => q.Selects D (t.get sqlValues row)

/-- **The records that a filter selects**, by their keys. -/
def selected (M : Declaration) (D : Domain Value) (t : Table Value) (q : QueryExpression) :
    List (Persisted M) :=
  (selectedRows D t q).filterMap fun row => (fromRow M (cells M t row)).toOption

theorem pairwise_visit (rows : List (Stored Value)) :
    (Scan.ofRowids.visit rows).Pairwise fun a b => a.rowid ≤ b.rowid := by
  have htrans : ∀ a b c : Stored Value, decide (a.rowid ≤ b.rowid) = true →
      decide (b.rowid ≤ c.rowid) = true → decide (a.rowid ≤ c.rowid) = true :=
    fun a b c hab hbc => decide_eq_true (le_trans (of_decide_eq_true hab) (of_decide_eq_true hbc))
  have htotal : ∀ a b : Stored Value,
      (decide (a.rowid ≤ b.rowid) || decide (b.rowid ≤ a.rowid)) = true := fun a b => by
    rw [Bool.or_eq_true, decide_eq_true_eq, decide_eq_true_eq]
    exact le_total a.rowid b.rowid
  exact (List.pairwise_mergeSort htrans htotal rows).imp fun h => of_decide_eq_true h

/-- The rows that were added are visited after the others. -/
theorem visit_append {rows added : List (Stored Value)}
    (hnodup : ((rows ++ added).map Stored.rowid).Nodup)
    (h : ∀ row ∈ rows, ∀ row' ∈ added, row.rowid < row'.rowid) :
    Scan.ofRowids.visit (rows ++ added)
      = Scan.ofRowids.visit rows ++ Scan.ofRowids.visit added := by
  have hperm : ∀ rows : List (Stored Value), (Scan.ofRowids.visit rows).Perm rows :=
    Scan.ofRowids.perm
  refine List.Perm.eq_of_pairwise ?_ (pairwise_visit _) ?_
    ((hperm _).trans ((hperm rows).append (hperm added)).symm)
  · intro a b ha hb hab hba
    have hmem : b ∈ rows ++ added := ((hperm rows).append (hperm added)).mem_iff.mp hb
    exact List.inj_on_of_nodup_map hnodup ((hperm _).mem_iff.mp ha) hmem (le_antisymm hab hba)
  · refine List.pairwise_append.mpr ⟨pairwise_visit _, pairwise_visit _, fun a ha b hb => ?_⟩
    exact (h a ((hperm rows).mem_iff.mp ha) b ((hperm added).mem_iff.mp hb)).le

/-- **What was found is found again**, and then what was added. -/
theorem selected_growsTo (h : GrowsTo t t') (q : QueryExpression) :
    selected M D t q <+: selected M D t' q := by
  obtain ⟨added, hrows, hlater⟩ := h.rows
  have hvisit := visit_append (hrows ▸ t'.hasRows.nodup) hlater
  unfold selected selectedRows cells
  rw [Table.get_of_schema_eq h.schema, hrows, hvisit, List.filter_append, List.filterMap_append]
  exact List.prefix_append _ _

theorem page_isPrefix {α : Type} (limit : Option ℕ) (offset : ℕ) {as bs : List α}
    (h : as <+: bs) : page limit offset as <+: page limit offset bs := by
  cases limit with
  | none => exact h.drop offset
  | some limit => exact (h.drop offset).take limit

/-- Without an ordering the rows stay as they are visited. -/
theorem foundRows_eq {q : Query} {clause : Option String} {e : Option Sql.Expr}
    (hw : q.Written clause e) :
    foundRows M D Scan.ofRowids t q [] e = selectedRows D t q.expression := by
  have hfilter : (Scan.ofRowids.visit t.rows).filter
      (t.meets D sqlValues q.expression.operands e) = selectedRows D t q.expression :=
    List.filter_congr fun row _ => Bool.eq_iff_iff.mpr
      ((meets_iff hw.readAs t row).trans (decide_eq_true_iff).symm)
  show ((Scan.ofRowids.visit t.rows).filter
    (t.meets D sqlValues q.expression.operands e)).mergeSort (t.precedes D sqlValues []) = _
  rw [hfilter]
  exact List.mergeSort_of_pairwise (List.pairwise_of_forall fun _ _ => rfl)

theorem fromRow_selectedRows (h : Legible M t) (q : QueryExpression) :
    (selectedRows D t q).map (fun row => fromRow M (cells M t row)) = (selected M D t q).map .ok := by
  have hread : ∀ row ∈ selectedRows D t q, ∃ record, fromRow M (cells M t row) = .ok record :=
    fun row hrow => h.reads row ((Scan.ofRowids.perm t.rows).mem_iff.mp (List.mem_of_mem_filter hrow))
  rw [selected]
  generalize selectedRows D t q = rows at hread
  induction rows with
  | nil => rfl
  | cons row rows ih =>
    obtain ⟨⟨record, hrecord⟩, hrows⟩ := List.forall_mem_cons.mp hread
    rw [List.map_cons, List.filterMap_cons, hrecord, ih hrows]
    rfl

/-- **The connection to a table serves what is found.** -/
theorem serves_selected (hp : PlainNames M) (h : Legible M t) (hlength : t.rows.length < 2 ^ 63)
    {q : Query} (hq : q.IsFor M []) {clause : Option String} {e : Option Sql.Expr}
    (hw : q.Written clause e) :
    Serves M.persistedModel (inquiryConn D Scan.ofRowids t) (q.planOf M.modelDef clause)
      (page q.limit q.offset (selected M D t q.expression)) := by
  obtain ⟨source, hanswers, hsource, hconn⟩ :=
    exists_source D Scan.ofRowids hp h.isTable.hasColumns hq hw hlength
  refine ⟨source, ⟨hanswers, ⟨hq.limit_lt, hq.offset_lt⟩, ?_⟩, hconn⟩
  have hdecoded := fromRow_selectedRows (D := D) h q.expression
  rw [Source.result, hsource, foundRows_eq hw, ← page_map, List.map_map, ← page_map]
  exact congrArg _ hdecoded

/-! ### Iterating -/

/-- **A table whose rows are all read as records**, as many as fit into a
vector. -/
structure RecordTable (M : Declaration) extends Table Value where
  legible : Legible M toTable
  length_lt : rows.length < 2 ^ 63

/-- What a call of an iterator meets: a table, unless there is no connection. -/
abbrev Met (M : Declaration) := Except Error (RecordTable M)

/-- The table grows from call to call. -/
def Grow (before now : Met M) : Prop :=
  ∀ t, before = .ok t → ∀ t', now = .ok t' → GrowsTo t.toTable t'.toTable

def Met.get (D : Domain Value) (met : Met M) : Except Error Conn :=
  met.map fun t => inquiryConn D Scan.ofRowids t.toTable

/-- What a query finds. -/
def Met.finds (D : Domain Value) (q : Query) (met : Met M) : Except Error (List (Persisted M)) :=
  met.map fun t => page q.limit q.offset (selected M D t.toTable q.expression)

end Tables

/-! ## A third movie -/

def threeMovieRows : List (Stored Value) := twoMovieRows ++ [⟨3, [("title", .text "Solaris")]⟩]

theorem hasRows_threeMovies : emptyMovies.HasRows threeMovieRows :=
  ⟨by decide, by decide, by decide⟩

def threeMovies : Table Value :=
  { emptyMovies with
    rows := threeMovieRows
    hasRows := hasRows_threeMovies }

theorem legible_threeMovies : Legible movie threeMovies := by
  refine ⟨sound_emptyMovies.isTable, List.forall_mem_append.mpr ⟨legible_twoMovies.reads, ?_⟩⟩
  exact List.forall_mem_singleton.mpr ⟨⟨⟨3, by decide⟩, movieValues "Solaris", by decide⟩, rfl⟩

theorem growsTo_threeMovies : GrowsTo twoMovies threeMovies :=
  ⟨rfl, _, rfl, by decide⟩

/-- A movie is created after the first call. -/
def movieCalls : List (Met movie) :=
  [.ok ⟨twoMovies, legible_twoMovies, by decide⟩, .ok ⟨threeMovies, legible_threeMovies, by decide⟩]

theorem grow_movieCalls : movieCalls.Pairwise Grow := by
  refine List.pairwise_pair.mpr fun t ht t' ht' => ?_
  obtain rfl := Except.ok.inj ht
  obtain rfl := Except.ok.inj ht'
  exact growsTo_threeMovies

def allMovies : Fetch Query := .eager Query.root

theorem isFor_allMovies : allMovies.inner.IsFor movie [] where
  columns := List.forall_mem_nil _
  tests := List.forall_mem_nil _
  ordering := rfl
  orderColumns := List.forall_mem_nil _
  limit_lt := fun _ h => by cases h
  offset_lt := show 0 < 2 ^ 63 by decide

end Seekwel.Model
