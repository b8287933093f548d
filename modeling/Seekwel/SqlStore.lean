import Mathlib.Algebra.Order.Ring.Int
import Mathlib.Data.List.Nodup
import Seekwel.SqlStatement

/-!
# Statements about the rows of a table

What the statements that are read do to a table: which row an `INSERT` adds,
which rows an `UPDATE` changes, a `DELETE` removes and a `SELECT` returns.

A table has a column for the rowid, and no two rows have the same one. What
else it asks of its rows is left open (`Schema.admits`): a statement after
which the rows would not be admitted fails, and nothing is changed. So is
what a column makes of a value that is stored in it (`Schema.store`), which
depends on its type.
-/

namespace Sql

/-! ## Values under names -/

section Lookup

variable {V W : Type}

/-- What is given under names, name by name. -/
theorem map_lookup_zip {names : List String} (hnodup : names.Nodup) {vs : List V}
    (hlength : vs.length = names.length) (f : String → Option V → W) :
    names.map (fun n => f n ((names.zip vs).lookup n))
      = List.zipWith (fun n v => f n (some v)) names vs := by
  induction names generalizing vs with
  | nil => rfl
  | cons n names ih =>
    cases vs with
    | nil => cases hlength
    | cons v vs =>
      obtain ⟨hn, hnodup⟩ := List.nodup_cons.mp hnodup
      have hrest : ∀ m ∈ names, ((n :: names).zip (v :: vs)).lookup m = (names.zip vs).lookup m := by
        intro m hm
        have hne : (m == n) = false := beq_false_of_ne fun (he : m = n) => hn (he ▸ hm)
        rw [List.zip_cons_cons, List.lookup_cons, hne]
      rw [List.map_cons, List.zipWith_cons_cons, ← ih hnodup (Nat.succ.inj hlength)]
      refine congrArg₂ List.cons ?_ (List.map_congr_left fun m hm => by rw [hrest m hm])
      rw [List.zip_cons_cons, List.lookup_cons_self]

theorem lookup_zip_of_not_mem {names : List String} {name : String} (h : name ∉ names)
    (vs : List V) : (names.zip vs).lookup name = none := by
  rw [List.lookup_eq_none_iff]
  intro p hp
  exact bne_iff_ne.mpr fun (he : name = p.1) => h (he ▸ (List.of_mem_zip hp).1)

theorem lookup_of_mem {values : List (String × V)} (hnodup : (values.map Prod.fst).Nodup)
    {p : String × V} (hp : p ∈ values) : values.lookup p.1 = some p.2 := by
  obtain ⟨before, after, rfl⟩ := List.append_of_mem hp
  refine List.lookup_eq_some_iff.mpr ⟨before, after, rfl, fun q hq => bne_iff_ne.mpr ?_⟩
  rw [List.map_append, List.nodup_append] at hnodup
  exact (hnodup.2.2 _ (List.mem_map_of_mem hq) _ List.mem_cons_self).symm

theorem lookup_map_of_mem {names : List String} {name : String} (h : name ∈ names)
    (f : String → V) : (names.map fun n => (n, f n)).lookup name = some (f name) := by
  induction names with
  | nil => exact absurd h List.not_mem_nil
  | cons n names ih =>
    rw [List.map_cons, List.lookup_cons]
    by_cases hn : name = n
    · subst hn
      rw [beq_self_eq_true]
    · rw [beq_false_of_ne hn]
      exact ih ((List.mem_cons.mp h).resolve_left hn)

theorem lookup_map_snd (values : List (String × V)) (f : String → V → W) (name : String) :
    (values.map fun p => (p.1, f p.1 p.2)).lookup name = (values.lookup name).map (f name) := by
  induction values with
  | nil => rfl
  | cons p values ih =>
    rw [List.map_cons, List.lookup_cons]
    obtain ⟨n, v⟩ := p
    rw [List.lookup_cons]
    by_cases hn : name = n
    · subst hn
      rw [beq_self_eq_true]
      rfl
    · rw [beq_false_of_ne hn]
      exact ih

/-- Parameters that are numbered in order. -/
theorem map_getElem_range (vs rest : List V) (default : V) :
    (List.range' 1 vs.length).map (fun n => ((vs ++ rest)[n - 1]?).getD default) = vs := by
  refine List.ext_getElem (by simp) fun i h₁ h₂ => ?_
  have hi : i < vs.length := h₂
  simp [List.getElem?_append_left hi, List.getElem?_eq_getElem hi]

end Lookup

/-! ## Tables -/

/-- **The values of a database**, as far as keys are concerned. -/
structure Values (V : Type) where
  null : V
  isNull : V → Bool
  integer : ℤ → V
  /-- The integer a value is, if it is one. -/
  integer? : V → Option ℤ
  isNull_integer : ∀ n, isNull (integer n) = false
  integer?_integer : ∀ n, integer? (integer n) = some n

/-- A row: its rowid, and the values under the names of the other columns. -/
structure Stored (V : Type) where
  rowid : ℤ
  values : List (String × V)
  deriving DecidableEq

/-- **The declaration of a table.** -/
structure Schema (V : Type) where
  name : String
  /-- The column that stands for the rowid. -/
  key : String
  /-- The other columns. -/
  columns : List String
  default : String → V
  /-- What is stored of a value in a column. -/
  store : String → V → V
  /-- Whether what is stored in a column equals a value. -/
  equals : String → V → V → Bool
  /-- The constraints of the table. -/
  admits : List (Stored V) → Bool
  /-- The rowid that is tried when the greatest one is taken. -/
  another : List ℤ → ℤ

/-- Whether an integer may be a rowid. -/
def IsRowid (n : ℤ) : Prop := -2 ^ 63 ≤ n ∧ n < 2 ^ 63

instance (n : ℤ) : Decidable (IsRowid n) := inferInstanceAs (Decidable (_ ∧ _))

/-- **Rows that a table may have.** -/
structure Schema.HasRows {V : Type} (schema : Schema V) (rows : List (Stored V)) : Prop where
  nodup : (rows.map Stored.rowid).Nodup
  isRowid : ∀ row ∈ rows, IsRowid row.rowid
  columns_eq : ∀ row ∈ rows, row.values.map Prod.fst = schema.columns

/-- **A table**, with its rows in the order of insertion. -/
structure Table (V : Type) extends Schema V where
  rows : List (Stored V)
  hasRows : toSchema.HasRows rows

/-- What a statement returns. -/
structure Result (V : Type) where
  table : Table V
  /-- How many rows were changed. -/
  changes : ℕ
  /-- The rowid that was inserted. -/
  rowid : Option ℤ
  rows : List (List V)

section Statements

variable {V : Type} (D : Values V)

namespace Table

/-! ## Values in rows -/

/-- Whether a table has a column. -/
def hasColumn (t : Table V) (column : String) : Bool := column = t.key || column ∈ t.columns

/-- The value of a column in a row. -/
def get (t : Table V) (row : Stored V) (column : String) : V :=
  if column = t.key then D.integer row.rowid else (row.values.lookup column).getD D.null

/-- Whether a column has a value. -/
def finds (t : Table V) (column : String) (value : V) (row : Stored V) : Bool :=
  if column = t.key then D.integer? value = some row.rowid
  else t.equals column (t.get D row column) value

/-- The value of an atom for a row. -/
def value (t : Table V) (params : List V) (row : Stored V) : Atom → V
  | .null => D.null
  | .integer n => D.integer n
  | .column name => t.get D row name
  | .param n => (params[n - 1]?).getD D.null

/-! ## Inserting -/

/-- **The rowid of a row that is inserted without one**: one more than the
greatest. -/
def nextRowid (t : Table V) : ℤ :=
  match (t.rows.map Stored.rowid).max? with
  | none => 1
  | some greatest => if greatest < 2 ^ 63 - 1 then greatest + 1
    else t.another (t.rows.map Stored.rowid)

/-- The rowid for some given values. -/
def givenRowid (t : Table V) (given : List (String × V)) : Except String ℤ :=
  match given.lookup t.key with
  | some v =>
    if D.isNull v then .ok t.nextRowid
    else
      match D.integer? v with
      | some rowid => .ok rowid
      | none => .error "datatype mismatch"
  | none => .ok t.nextRowid

/-- What is stored in a column for a value, if one is given. -/
def storedValue (t : Table V) (column : String) : Option V → V
  | some v => t.store column v
  | none => t.default column

/-- The row with some given values. -/
def newRow (t : Table V) (given : List (String × V)) (rowid : ℤ) : Stored V where
  rowid := rowid
  values := t.columns.map fun column => (column, t.storedValue column (given.lookup column))

theorem hasRows_insert (t : Table V) (given : List (String × V)) {rowid : ℤ}
    (h : rowid ∉ t.rows.map Stored.rowid ∧ IsRowid rowid) :
    t.HasRows (t.rows ++ [t.newRow given rowid]) where
  nodup := by
    rw [List.map_append, List.map_singleton, ← List.concat_eq_append]
    exact List.Nodup.concat h.1 t.hasRows.nodup
  isRowid := by
    rw [List.forall_mem_append, List.forall_mem_singleton]
    exact ⟨t.hasRows.isRowid, h.2⟩
  columns_eq := by
    rw [List.forall_mem_append, List.forall_mem_singleton]
    refine ⟨t.hasRows.columns_eq, ?_⟩
    rw [newRow, List.map_map]
    exact List.map_id _

/-- **An `INSERT`** of a row with some given values. -/
def insertRow (t : Table V) (given : List (String × V)) : Except String (Result V) :=
  if given.all fun p => t.hasColumn p.1 then
    (t.givenRowid D given).bind fun rowid =>
      if h : rowid ∉ t.rows.map Stored.rowid ∧ IsRowid rowid then
        if t.admits (t.rows ++ [t.newRow given rowid]) then
          .ok ⟨{ t with rows := t.rows ++ [t.newRow given rowid],
                        hasRows := t.hasRows_insert given h }, 1, some rowid, []⟩
        else .error "constraint failed"
      else .error "UNIQUE constraint failed"
  else .error "no such column"

/-! ## Updating -/

/-- The rowid of a row after changes. -/
def changedRowid (t : Table V) (params : List V) (changes : List (String × Atom))
    (row : Stored V) : Option ℤ :=
  match changes.lookup t.key with
  | some atom => D.integer? (t.value D params row atom)
  | none => some row.rowid

/-- The value of a column after changes. -/
def changedValue (t : Table V) (params : List V) (row : Stored V) (column : String) (old : V) :
    Option Atom → V
  | some atom => t.store column (t.value D params row atom)
  | none => old

/-- A row after changes. -/
def changedRow (t : Table V) (params : List V) (changes : List (String × Atom))
    (row : Stored V) : Stored V where
  rowid := (t.changedRowid D params changes row).getD row.rowid
  values := row.values.map fun p =>
    (p.1, t.changedValue D params row p.1 p.2 (changes.lookup p.1))

/-- The rows after changes in some of them. -/
def changedRows (t : Table V) (params : List V) (changes : List (String × Atom))
    (selected : Stored V → Bool) : List (Stored V) :=
  t.rows.map fun row => if selected row then t.changedRow D params changes row else row

theorem hasRows_change (t : Table V) (params : List V) (changes : List (String × Atom))
    (selected : Stored V → Bool)
    (h : ((t.changedRows D params changes selected).map Stored.rowid).Nodup
      ∧ ∀ row ∈ t.changedRows D params changes selected, IsRowid row.rowid) :
    t.HasRows (t.changedRows D params changes selected) where
  nodup := h.1
  isRowid := h.2
  columns_eq := by
    intro row hrow
    obtain ⟨row', hrow', rfl⟩ := List.mem_map.mp hrow
    have hcolumns := t.hasRows.columns_eq row' hrow'
    split_ifs
    · simpa [changedRow, Function.comp_def] using hcolumns
    · exact hcolumns

/-- **An `UPDATE`** of the rows that are selected. -/
def updateRows (t : Table V) (params : List V) (changes : List (String × Atom))
    (selected : Stored V → Bool) : Except String (Result V) :=
  if changes.all fun p => t.hasColumn p.1 then
    if (t.rows.filter selected).all fun row => (t.changedRowid D params changes row).isSome then
      if h : ((t.changedRows D params changes selected).map Stored.rowid).Nodup
          ∧ ∀ row ∈ t.changedRows D params changes selected, IsRowid row.rowid then
        if t.admits (t.changedRows D params changes selected) then
          .ok ⟨{ t with rows := t.changedRows D params changes selected,
                        hasRows := t.hasRows_change D params changes selected h },
            (t.rows.filter selected).length, none, []⟩
        else .error "constraint failed"
      else .error "UNIQUE constraint failed"
    else .error "datatype mismatch"
  else .error "no such column"

/-! ## Deleting -/

theorem hasRows_filter (t : Table V) (p : Stored V → Bool) : t.HasRows (t.rows.filter p) where
  nodup := t.hasRows.nodup.sublist (List.filter_sublist.map _)
  isRowid row hrow := t.hasRows.isRowid row (List.mem_of_mem_filter hrow)
  columns_eq row hrow := t.hasRows.columns_eq row (List.mem_of_mem_filter hrow)

/-- **A `DELETE`** of the rows that are selected. -/
def deleteRows (t : Table V) (selected : Stored V → Bool) : Except String (Result V) :=
  if t.admits (t.rows.filter fun row => !selected row) then
    .ok ⟨{ t with rows := t.rows.filter fun row => !selected row,
                  hasRows := t.hasRows_filter _ },
      (t.rows.filter selected).length, none, []⟩
  else .error "constraint failed"

/-! ## Statements -/

/-- The value of an atom where there is no row. -/
def constant? (params : List V) : Atom → Option V
  | .null => some D.null
  | .integer n => some (D.integer n)
  | .param n => some ((params[n - 1]?).getD D.null)
  | .column _ => none

/-- The rows whose key has a value, if there is such a column. -/
def selected? (t : Table V) (params : List V) (key : String) (value : Atom) :
    Except String (Stored V → Bool) :=
  if t.hasColumn key then .ok fun row => t.finds D key (t.value D params row value) row
  else .error "no such column"

/-- **Running a statement** about the rows of a table. -/
def run (t : Table V) (params : List V) : Command → Except String (Result V)
  | .insert table columns values =>
    if table = t.name then
      match values.mapM (constant? D params) with
      | some values => t.insertRow D (columns.zip values)
      | none => .error "no such column"
    else .error "no such table"
  | .insertDefaults table =>
    if table = t.name then t.insertRow D [] else .error "no such table"
  | .update table changes key value =>
    if table = t.name then
      (t.selected? D params key value).bind (t.updateRows D params changes)
    else .error "no such table"
  | .delete table key value =>
    if table = t.name then (t.selected? D params key value).bind t.deleteRows
    else .error "no such table"
  | .select columns table key value =>
    if table = t.name then
      if columns.all t.hasColumn then
        (t.selected? D params key value).bind fun selected =>
          .ok ⟨t, 0, none, (t.rows.filter selected).map fun row => columns.map (t.get D row)⟩
      else .error "no such column"
    else .error "no such table"
  | .createTable .. => .error "not a statement about rows"
  | .createIndex .. => .error "not a statement about rows"

/-! ## What the statements do -/

variable {D} {t : Table V} {params : List V} {r : Result V}

/-- **What an `INSERT` does**, if it succeeds. -/
theorem insertRow_eq_ok {given : List (String × V)} (h : t.insertRow D given = .ok r) :
    ∃ rowid, t.givenRowid D given = .ok rowid ∧ rowid ∉ t.rows.map Stored.rowid ∧ IsRowid rowid
      ∧ r.rowid = some rowid ∧ r.table.toSchema = t.toSchema
      ∧ r.table.rows = t.rows ++ [t.newRow given rowid] ∧ r.table.admits r.table.rows = true := by
  unfold insertRow at h
  split_ifs at h
  cases hrowid : t.givenRowid D given with
  | error e =>
    rw [hrowid] at h
    cases h
  | ok rowid =>
    rw [hrowid] at h
    simp only [Except.bind] at h
    split_ifs at h with hnew hadmits
    cases h
    exact ⟨rowid, rfl, hnew.1, hnew.2, rfl, rfl, rfl, hadmits⟩

/-- **What an `UPDATE` does**, if it succeeds. -/
theorem updateRows_eq_ok {changes : List (String × Atom)} {selected : Stored V → Bool}
    (h : t.updateRows D params changes selected = .ok r) :
    r.table.toSchema = t.toSchema
      ∧ r.table.rows = t.changedRows D params changes selected
      ∧ r.changes = (t.rows.filter selected).length
      ∧ r.table.admits r.table.rows = true := by
  unfold updateRows at h
  split_ifs at h with hcolumns hrowids hrows hadmits
  cases h
  exact ⟨rfl, rfl, rfl, hadmits⟩

/-- **What a `DELETE` does**, if it succeeds. -/
theorem deleteRows_eq_ok {selected : Stored V → Bool} (h : t.deleteRows selected = .ok r) :
    r.table.toSchema = t.toSchema
      ∧ r.table.rows = t.rows.filter (fun row => !selected row)
      ∧ r.changes = (t.rows.filter selected).length := by
  unfold deleteRows at h
  split_ifs at h
  cases h
  exact ⟨rfl, rfl, rfl⟩

theorem get_of_schema_eq {t' : Table V} (h : t'.toSchema = t.toSchema) : t'.get D = t.get D := by
  funext row column
  rw [get, get, h]

/-- **The values of a row that is inserted.** -/
theorem map_get_newRow {names : List String} (hnodup : names.Nodup) {vs : List V}
    (hlength : vs.length = names.length) (hcolumns : ∀ n ∈ names, n ∈ t.columns)
    (hkey : t.key ∉ names) {given : List (String × V)}
    (hgiven : ∀ n ∈ names, given.lookup n = (names.zip vs).lookup n) (rowid : ℤ) :
    names.map (t.get D (t.newRow given rowid)) = List.zipWith t.store names vs := by
  refine Eq.trans ?_ (map_lookup_zip hnodup hlength t.storedValue)
  refine List.map_congr_left fun n hn => ?_
  have hne : n ≠ t.key := fun he => hkey (he ▸ hn)
  rw [get, if_neg hne, newRow, lookup_map_of_mem (hcolumns n hn), Option.getD_some, hgiven n hn]

/-- **The values of a row after changes.** -/
theorem map_get_changedRow {names : List String} (hnodup : names.Nodup) {atoms : List Atom}
    (hlength : atoms.length = names.length) (hcolumns : ∀ n ∈ names, n ∈ t.columns)
    (hkey : t.key ∉ names) {row : Stored V} (hrow : row ∈ t.rows) :
    names.map (t.get D (t.changedRow D params (names.zip atoms) row))
      = List.zipWith t.store names (atoms.map (t.value D params row)) := by
  rw [List.zipWith_map_right]
  refine Eq.trans ?_ (map_lookup_zip hnodup hlength fun n =>
    t.changedValue D params row n ((row.values.lookup n).getD D.null))
  refine List.map_congr_left fun n hn => ?_
  have hne : n ≠ t.key := fun he => hkey (he ▸ hn)
  have hsome : ∃ v, row.values.lookup n = some v := by
    rw [← Option.isSome_iff_exists, List.lookup_isSome_iff]
    have hmem : n ∈ row.values.map Prod.fst := t.hasRows.columns_eq row hrow ▸ hcolumns n hn
    obtain ⟨p, hp, rfl⟩ := List.mem_map.mp hmem
    exact ⟨p, hp, beq_self_eq_true _⟩
  obtain ⟨v, hv⟩ := hsome
  rw [get, if_neg hne, changedRow, lookup_map_snd row.values (fun n v =>
    t.changedValue D params row n v ((names.zip atoms).lookup n)), hv]
  rfl

/-- Changes that keep the rowids change no other row. -/
theorem filter_changedRows {changes : List (String × Atom)} {rowid : ℤ}
    (hkeep : ∀ row ∈ t.rows, (t.changedRow D params changes row).rowid = row.rowid) :
    (t.changedRows D params changes fun row => row.rowid = rowid).filter
        (fun row => row.rowid ≠ rowid)
      = t.rows.filter fun row => row.rowid ≠ rowid := by
  rw [changedRows, List.filter_map]
  have hfilter : t.rows.filter ((fun row : Stored V => decide (row.rowid ≠ rowid))
        ∘ fun row => if decide (row.rowid = rowid) = true then t.changedRow D params changes row
          else row)
      = t.rows.filter fun row => row.rowid ≠ rowid := by
    refine List.filter_congr fun row hrow => decide_eq_decide.mpr (not_congr ?_)
    dsimp only
    split_ifs
    · rw [hkeep row hrow]
    · exact Iff.rfl
  rw [hfilter]
  conv => rhs; rw [← List.map_id (t.rows.filter fun row => row.rowid ≠ rowid)]
  refine List.map_congr_left fun row hrow => ?_
  have hne : row.rowid ≠ rowid := of_decide_eq_true (List.mem_filter.mp hrow).2
  rw [if_neg (by simpa using hne), id]

/-- Changes that are not about the key keep it. -/
theorem changedRowid_of_not_mem {names : List String} (hkey : t.key ∉ names) (atoms : List Atom)
    (row : Stored V) :
    t.changedRowid D params (names.zip atoms) row = some row.rowid := by
  rw [changedRowid, lookup_zip_of_not_mem hkey]

/-- Rows with a rowid are the only ones with it. -/
theorem eq_of_rowid_eq {row row' : Stored V} (h : row ∈ t.rows) (h' : row' ∈ t.rows)
    (heq : row.rowid = row'.rowid) : row = row' :=
  List.inj_on_of_nodup_map t.hasRows.nodup h h' heq

/-- **The row with a rowid**, alone. -/
theorem filter_rowid {row : Stored V} (h : row ∈ t.rows) :
    t.rows.filter (fun row' => row'.rowid = row.rowid) = [row] := by
  have hnodup := (List.Nodup.of_map _ t.hasRows.nodup).filter fun row' => row'.rowid = row.rowid
  have hall : ∀ row' ∈ t.rows.filter (fun row' => row'.rowid = row.rowid), row' = row := by
    intro row' hrow'
    obtain ⟨hmem, heq⟩ := List.mem_filter.mp hrow'
    exact eq_of_rowid_eq hmem h (of_decide_eq_true heq)
  have hmem : row ∈ t.rows.filter (fun row' => row'.rowid = row.rowid) :=
    List.mem_filter.mpr ⟨h, decide_eq_true rfl⟩
  cases hfilter : t.rows.filter (fun row' => row'.rowid = row.rowid) with
  | nil =>
    rw [hfilter] at hmem
    exact absurd hmem List.not_mem_nil
  | cons first rest =>
    rw [hfilter] at hnodup hall
    obtain rfl := hall first List.mem_cons_self
    have hrest : rest = [] := List.eq_nil_iff_forall_not_mem.mpr fun row' hrow' => by
      rw [hall row' (List.mem_cons_of_mem _ hrow')] at hrow'
      exact (List.nodup_cons.mp hnodup).1 hrow'
    rw [hrest]

/-! ## Changes that change nothing -/

theorem eq_of_rows {t' : Table V} (hschema : t'.toSchema = t.toSchema) (hrows : t'.rows = t.rows) :
    t' = t := by
  cases t
  cases t'
  subst hschema
  subst hrows
  rfl

/-- The values of a row are those of its columns. -/
theorem values_eq_map_get (hnodup : (t.key :: t.columns).Nodup) {row : Stored V}
    (hrow : row.values.map Prod.fst = t.columns) :
    row.values = t.columns.map fun column => (column, t.get D row column) := by
  obtain ⟨hkey, hnodup⟩ := List.nodup_cons.mp hnodup
  have hget : ∀ p ∈ row.values, (p.1, t.get D row p.1) = p := by
    rintro ⟨column, value⟩ hp
    have hne : column ≠ t.key := by
      rintro rfl
      exact hkey (hrow ▸ List.mem_map.mpr ⟨_, hp, rfl⟩)
    have hlookup : row.values.lookup column = some value :=
      lookup_of_mem (hrow.symm ▸ hnodup) hp
    rw [get, if_neg hne, hlookup, Option.getD_some]
  rw [← hrow, List.map_map]
  conv => lhs; rw [← List.map_id row.values]
  exact List.map_congr_left fun p hp => (hget p hp).symm

/-- Two rows with the same values under the same rowid are one. -/
theorem row_ext (hnodup : (t.key :: t.columns).Nodup) {row row' : Stored V}
    (hrow : row.values.map Prod.fst = t.columns) (hrow' : row'.values.map Prod.fst = t.columns)
    (hrowid : row.rowid = row'.rowid)
    (hget : ∀ column ∈ t.columns, t.get D row column = t.get D row' column) : row = row' := by
  obtain ⟨rowid, values⟩ := row
  obtain ⟨rowid', values'⟩ := row'
  obtain rfl : rowid = rowid' := hrowid
  have hvalues := values_eq_map_get (D := D) hnodup hrow
  rw [List.map_congr_left fun column hcolumn => congrArg (Prod.mk column) (hget column hcolumn),
    ← values_eq_map_get hnodup hrow'] at hvalues
  exact congrArg _ hvalues

/-- **An `UPDATE` that changes no row** leaves the table as it is. -/
theorem updateRows_eq_self {changes : List (String × Atom)} {selected : Stored V → Bool}
    (hcolumns : (changes.all fun p => t.hasColumn p.1) = true)
    (hrowids : ∀ row ∈ t.rows, (t.changedRowid D params changes row).isSome = true)
    (hsame : ∀ row ∈ t.rows, selected row = true → t.changedRow D params changes row = row)
    (hadmits : t.admits t.rows = true) :
    t.updateRows D params changes selected
      = .ok ⟨t, (t.rows.filter selected).length, none, []⟩ := by
  have hrows : t.changedRows D params changes selected = t.rows := by
    rw [changedRows]
    conv => rhs; rw [← List.map_id t.rows]
    refine List.map_congr_left fun row hrow => ?_
    split_ifs with hselected
    · exact hsame row hrow hselected
    · rfl
  have hall : ((t.rows.filter selected).all fun row =>
      (t.changedRowid D params changes row).isSome) = true := by
    rw [List.all_eq_true]
    exact fun row hrow => hrowids row (List.mem_of_mem_filter hrow)
  have hvalid : ((t.changedRows D params changes selected).map Stored.rowid).Nodup
      ∧ ∀ row ∈ t.changedRows D params changes selected, IsRowid row.rowid := by
    rw [hrows]
    exact ⟨t.hasRows.nodup, t.hasRows.isRowid⟩
  rw [updateRows, if_pos hcolumns, if_pos hall, dif_pos hvalid, if_pos (by rw [hrows, hadmits])]
  refine congrArg (fun table => Except.ok (Result.mk table _ _ _)) ?_
  exact eq_of_rows rfl hrows

end Table

end Statements

end Sql
