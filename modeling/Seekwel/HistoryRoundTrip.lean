import Seekwel.Apply
import Seekwel.Desired

/-!
# Reading the schema history back

The canonical text escapes nothing. This module says exactly which schemas
survive being written and read: those of `SchemaDef.HistorySafe`, in which
no name, type or default contains a tab or a newline, no default is the
empty text, and neither a default nor the type of a primary key ends in a
carriage return (`fromCanonical_canonicalString_iff`).

Both directions follow from what reading does. Whatever text is read, no
field of the result contains a tab or a newline and no default is empty
(`fromCanonical_plain`). And when the fields contain neither, the records
come back one by one, except that the last field of each loses a carriage
return at its end (`readLines_records`).
-/

namespace Seekwel

/-! ## Fields -/

/-- A text that is one field of one line. -/
def FieldSafe (s : String) : Prop := '\t' ∉ s.toList ∧ '\n' ∉ s.toList

instance (s : String) : Decidable (FieldSafe s) := inferInstanceAs (Decidable (_ ∧ _))

/-- A text without a carriage return at its end. -/
def NoTrailingCr (s : String) : Prop := s.toList.getLast? ≠ some '\r'

instance (s : String) : Decidable (NoTrailingCr s) := inferInstanceAs (Decidable (_ ≠ _))

/-- A table whose names, types and defaults are fields. -/
structure TableDef.Plain (t : TableDef) : Prop where
  name : FieldSafe t.name
  pkName : FieldSafe t.primaryKey.name
  pkType : FieldSafe t.primaryKey.sqlType
  columns : ∀ c ∈ t.columns,
    FieldSafe c.name ∧ FieldSafe c.sqlType ∧ ∀ d ∈ c.defaultSql, FieldSafe d
  indexes : ∀ i ∈ t.indexes, FieldSafe i.name ∧ FieldSafe i.column

/-- **A table that survives being recorded.** -/
structure TableDef.HistorySafe (t : TableDef) : Prop extends t.Plain where
  pkTypeEnd : NoTrailingCr t.primaryKey.sqlType
  defaults : ∀ c ∈ t.columns, ∀ d ∈ c.defaultSql, d ≠ "" ∧ NoTrailingCr d

/-- **A schema that survives being recorded.** -/
def SchemaDef.HistorySafe (s : SchemaDef) : Prop := ∀ t ∈ s.tables, t.HistorySafe

/-! ## One line -/

/-- A text without the carriage return at its end. -/
def stripCr (s : String) : String := String.ofList (Text.stripCr s.toList)

theorem stripCr_eq_self_iff {s : String} : stripCr s = s ↔ NoTrailingCr s := by
  rw [NoTrailingCr, ← Text.stripCr_eq_self_iff, stripCr]
  constructor
  · intro h
    have := congrArg String.toList h
    rwa [String.toList_ofList] at this
  · intro h
    rw [h, String.ofList_toList]

theorem fieldSafe_stripCr {s : String} (h : FieldSafe s) : FieldSafe (stripCr s) := by
  unfold FieldSafe stripCr
  rw [String.toList_ofList]
  exact ⟨fun hm => h.1 (Text.mem_stripCr hm), fun hm => h.2 (Text.mem_stripCr hm)⟩

/-- The fields of a record with the last one stripped. -/
def stripLast : List String → List String
  | [] => []
  | [f] => [stripCr f]
  | f :: rest => f :: stripLast rest

theorem mem_stripLast {r : List String} {f : String} (h : f ∈ stripLast r) :
    f ∈ r ∨ ∃ g ∈ r, f = stripCr g := by
  induction r with
  | nil => exact absurd h List.not_mem_nil
  | cons g rest ih =>
    cases rest with
    | nil => exact Or.inr ⟨g, List.mem_cons_self, List.mem_singleton.mp h⟩
    | cons g' rest =>
      obtain rfl | h := List.mem_cons.mp h
      · exact Or.inl List.mem_cons_self
      · obtain h | ⟨x, hx, h⟩ := ih h
        · exact Or.inl (List.mem_cons_of_mem _ h)
        · exact Or.inr ⟨x, List.mem_cons_of_mem _ hx, h⟩

/-- Only the last field of a line loses a carriage return. -/
theorem stripCr_join (r : List String) :
    stripCr (Text.join "\t" r) = Text.join "\t" (stripLast r) := by
  induction r with
  | nil => rfl
  | cons f rest ih =>
    cases rest with
    | nil => rfl
    | cons g rest =>
      have htab : (f.toList ++ ['\t']).getLast? ≠ some '\r' := by
        rw [List.getLast?_append_of_ne_nil _ (List.cons_ne_nil _ _)]
        decide
      have hjoin : ∀ l, Text.join "\t" (f :: g :: l) = f ++ "\t" ++ Text.join "\t" (g :: l) :=
        fun _ => rfl
      have hlast : ∃ g' l, stripLast (g :: rest) = g' :: l := by
        cases rest with
        | nil => exact ⟨_, _, rfl⟩
        | cons g' rest => exact ⟨_, _, rfl⟩
      obtain ⟨g', l, hl⟩ := hlast
      show stripCr (f ++ "\t" ++ Text.join "\t" (g :: rest))
        = Text.join "\t" (f :: stripLast (g :: rest))
      rw [hl, show Text.join "\t" (f :: g' :: l) = f ++ "\t" ++ Text.join "\t" (g' :: l) from rfl,
        ← hl, ← ih, stripCr, stripCr, String.toList_append, String.toList_append,
        show ("\t" : String).toList = ['\t'] from rfl, Text.stripCr_append htab,
        ← String.toList_inj]
      simp

/-- **A written record is read as its fields**, the last one stripped. -/
theorem split_stripCr_join {r : List String} (hne : r ≠ []) (h : ∀ f ∈ r, FieldSafe f) :
    Text.split '\t' (stripCr (Text.join "\t" r)) = stripLast r := by
  rw [stripCr_join]
  refine Text.split_join (stripLast r) ?_ (fun f hf => ?_)
  · cases r with
    | nil => exact absurd rfl hne
    | cons f rest =>
      cases rest with
      | nil => exact List.cons_ne_nil _ _
      | cons g rest => exact List.cons_ne_nil _ _
  · obtain hf | ⟨g, hg, rfl⟩ := mem_stripLast hf
    · exact (h f hf).1
    · exact (fieldSafe_stripCr (h g hg)).1

/-! ## Reading what was written -/

/-- The line of a record as it is read. -/
def recordLine (r : List String) : String := stripCr (Text.join "\t" r)

theorem readLines_record {acc tables : List TableDef} {kind f : String}
    {fields rest : List String} (hkind : kind ≠ "")
    (h : ∀ x ∈ kind :: f :: fields, FieldSafe x)
    (hread : readRecord acc (kind :: stripLast (f :: fields)) = .ok tables) :
    readLines acc (recordLine (kind :: f :: fields) :: rest) = readLines tables rest := by
  have hsplit : Text.split '\t' (recordLine (kind :: f :: fields))
      = kind :: stripLast (f :: fields) := split_stripCr_join (List.cons_ne_nil _ _) h
  have hne : recordLine (kind :: f :: fields) ≠ "" := by
    intro hnil
    rw [hnil, show Text.split '\t' "" = [""] from by decide] at hsplit
    exact hkind (List.cons.inj hsplit).1.symm
  rw [readLines, if_neg hne, hsplit, hread]

/-- A column as it is read back. -/
def ColumnDef.readBack (c : ColumnDef) : ColumnDef :=
  { c with defaultSql := (some (stripCr (c.defaultSql.getD ""))).filter (· ≠ "") }

/-- **A table as it is read back.** -/
def TableDef.readBack (t : TableDef) : TableDef :=
  { t with
    primaryKey := ⟨t.primaryKey.name, stripCr t.primaryKey.sqlType⟩
    columns := t.columns.map ColumnDef.readBack }

theorem modifyTable_append {name : String} {f : TableDef → TableDef} {acc : List TableDef}
    {t : TableDef} (hacc : ∀ u ∈ acc, u.name ≠ name) (ht : t.name = name) :
    modifyTable name f (acc ++ [t]) = some (acc ++ [f t]) := by
  induction acc with
  | nil => simp [modifyTable, ht]
  | cons u acc ih =>
    rw [List.cons_append, modifyTable, if_neg (hacc u List.mem_cons_self),
      ih (fun v hv => hacc v (List.mem_cons_of_mem _ hv))]
    rfl

theorem any_name_append {name : String} {acc : List TableDef} {t : TableDef}
    (ht : t.name = name) : (acc ++ [t]).all (fun table => table.name ≠ name) = false := by
  rw [List.all_eq_false]
  exact ⟨t, List.mem_append_right _ List.mem_cons_self, by simp [ht]⟩

theorem fieldSafe_flag (b : Bool) : FieldSafe (flag b) := by
  cases b <;> decide

theorem parseFlag_flag (b : Bool) : parseFlag (flag b) = some b := by
  cases b <;> rfl

theorem stripCr_flag (b : Bool) : stripCr (flag b) = flag b := by
  cases b <;> decide

section Records

variable {acc : List TableDef} {t : TableDef} {name : String}

theorem readLines_column {c : ColumnDef} {rest : List String}
    (hacc : ∀ u ∈ acc, u.name ≠ name) (ht : t.name = name) (hname : FieldSafe name)
    (hc : FieldSafe c.name ∧ FieldSafe c.sqlType ∧ ∀ d ∈ c.defaultSql, FieldSafe d) :
    readLines (acc ++ [t]) (recordLine (c.record name) :: rest)
      = readLines (acc ++ [{ t with columns := t.columns ++ [c.readBack] }]) rest := by
  have hdefault : FieldSafe (c.defaultSql.getD "") := by
    cases hd : c.defaultSql with
    | none => decide
    | some d => exact hc.2.2 d hd
  refine readLines_record (by decide) (fun x hx => ?_) ?_
  · simp only [List.mem_cons, List.not_mem_nil, or_false] at hx
    obtain rfl | rfl | rfl | rfl | rfl | rfl := hx
    · decide
    · exact hname
    · exact hc.1
    · exact hc.2.1
    · exact fieldSafe_flag _
    · exact hdefault
  · simp only [stripLast, readRecord, List.length_cons, List.length_nil, any_name_append ht,
      parseFlag_flag, modifyTable_append hacc ht]
    rfl

theorem readLines_index {i : IndexDef} {rest : List String}
    (hacc : ∀ u ∈ acc, u.name ≠ name) (ht : t.name = name) (hname : FieldSafe name)
    (hi : FieldSafe i.name ∧ FieldSafe i.column) :
    readLines (acc ++ [t]) (recordLine (i.record name) :: rest)
      = readLines (acc ++ [{ t with indexes := t.indexes ++ [i] }]) rest := by
  refine readLines_record (by decide) (fun x hx => ?_) ?_
  · simp only [List.mem_cons, List.not_mem_nil, or_false] at hx
    obtain rfl | rfl | rfl | rfl | rfl := hx
    · decide
    · exact hname
    · exact hi.1
    · exact hi.2
    · exact fieldSafe_flag _
  · simp only [stripLast, stripCr_flag, readRecord, any_name_append ht, parseFlag_flag,
      modifyTable_append hacc ht]
    rfl

theorem readLines_columns {cs : List ColumnDef} {rest : List String}
    (hacc : ∀ u ∈ acc, u.name ≠ name) (ht : t.name = name) (hname : FieldSafe name)
    (hcs : ∀ c ∈ cs, FieldSafe c.name ∧ FieldSafe c.sqlType ∧ ∀ d ∈ c.defaultSql, FieldSafe d) :
    readLines (acc ++ [t]) (cs.map (fun c => recordLine (c.record name)) ++ rest)
      = readLines (acc ++ [{ t with columns := t.columns ++ cs.map ColumnDef.readBack }])
          rest := by
  induction cs generalizing t with
  | nil => simp
  | cons c cs ih =>
    rw [List.map_cons, List.cons_append,
      readLines_column hacc ht hname (hcs c List.mem_cons_self),
      ih (t := { t with columns := t.columns ++ [c.readBack] }) ht
        (fun c hc => hcs c (List.mem_cons_of_mem _ hc)), List.map_cons,
      List.append_assoc, List.singleton_append]

theorem readLines_indexes {is : List IndexDef} {rest : List String}
    (hacc : ∀ u ∈ acc, u.name ≠ name) (ht : t.name = name) (hname : FieldSafe name)
    (his : ∀ i ∈ is, FieldSafe i.name ∧ FieldSafe i.column) :
    readLines (acc ++ [t]) (is.map (fun i => recordLine (i.record name)) ++ rest)
      = readLines (acc ++ [{ t with indexes := t.indexes ++ is }]) rest := by
  induction is generalizing t with
  | nil => simp
  | cons i is ih =>
    rw [List.map_cons, List.cons_append,
      readLines_index hacc ht hname (his i List.mem_cons_self),
      ih (t := { t with indexes := t.indexes ++ [i] }) ht
        (fun i hi => his i (List.mem_cons_of_mem _ hi)),
      List.append_assoc, List.singleton_append]

/-- The records of a table are read as the table. -/
theorem readLines_table (hacc : ∀ u ∈ acc, u.name ≠ t.name) (ht : t.Plain)
    (rest : List String) :
    readLines acc (t.records.map recordLine ++ rest) = readLines (acc ++ [t.readBack]) rest := by
  let u : TableDef := ⟨t.name, ⟨t.primaryKey.name, stripCr t.primaryKey.sqlType⟩, [], []⟩
  have hrecord : ∀ rest', readLines acc
      (recordLine ["table", t.name, t.primaryKey.name, t.primaryKey.sqlType] :: rest')
        = readLines (acc ++ [u]) rest' := by
    intro rest'
    refine readLines_record (by decide) (fun x hx => ?_) rfl
    simp only [List.mem_cons, List.not_mem_nil, or_false] at hx
    obtain rfl | rfl | rfl | rfl := hx
    · decide
    · exact ht.name
    · exact ht.pkName
    · exact ht.pkType
  rw [TableDef.records, List.map_cons, List.cons_append, hrecord, List.map_append,
    List.map_map, List.map_map, List.append_assoc]
  show readLines _ (t.columns.map (fun c => recordLine (c.record t.name)) ++
    (t.indexes.map (fun i => recordLine (i.record t.name)) ++ rest)) = _
  refine (readLines_columns (t := u) hacc rfl ht.name ht.columns).trans ?_
  exact readLines_indexes (t := { u with columns := t.columns.map ColumnDef.readBack })
    hacc rfl ht.name ht.indexes

end Records

/-- The records of distinct tables are read as the tables. -/
theorem readLines_records (acc : List TableDef) {tables : List TableDef}
    (hnodup : ((acc ++ tables).map (·.name)).Nodup) (hplain : ∀ t ∈ tables, t.Plain) :
    readLines acc ((tables.flatMap TableDef.records).map recordLine)
      = .ok (acc ++ tables.map TableDef.readBack) := by
  induction tables generalizing acc with
  | nil => simp [readLines]
  | cons t tables ih =>
    have hacc : ∀ u ∈ acc, u.name ≠ t.name := by
      intro u hu hname
      rw [List.map_append, List.nodup_append] at hnodup
      exact hnodup.2.2 u.name (List.mem_map.mpr ⟨u, hu, rfl⟩) t.name
        (List.mem_map.mpr ⟨t, List.mem_cons_self, rfl⟩) hname
    have hnext : ((acc ++ [t.readBack] ++ tables).map (·.name)).Nodup := by
      have hmap : (acc ++ [t.readBack] ++ tables).map (·.name)
          = (acc ++ t :: tables).map (·.name) := by
        simp [TableDef.readBack]
      rwa [hmap]
    rw [List.flatMap_cons, List.map_append,
      readLines_table hacc (hplain t List.mem_cons_self),
      ih _ hnext (fun t ht => hplain t (List.mem_cons_of_mem _ ht)), List.map_cons,
      List.append_assoc, List.singleton_append]

/-- **What is read of a schema whose names, types and defaults are
fields.** -/
theorem fromCanonical_of_plain {s : SchemaDef} (hnodup : s.tableNames.Nodup)
    (hplain : ∀ t ∈ s.tables, t.Plain) :
    SchemaDef.fromCanonical s.canonicalString
      = SchemaDef.normalized ⟨s.tables.map TableDef.readBack⟩ := by
  have hfields : ∀ r ∈ s.tables.flatMap TableDef.records, ∀ f ∈ r, FieldSafe f := by
    intro r hr f hf
    obtain ⟨t, ht, hr⟩ := List.mem_flatMap.mp hr
    have hp := hplain t ht
    unfold TableDef.records at hr
    obtain rfl | hr := List.mem_cons.mp hr
    · simp only [List.mem_cons, List.not_mem_nil, or_false] at hf
      obtain rfl | rfl | rfl | rfl := hf
      · decide
      · exact hp.name
      · exact hp.pkName
      · exact hp.pkType
    · obtain hr | hr := List.mem_append.mp hr
      · obtain ⟨c, hc, rfl⟩ := List.mem_map.mp hr
        have hcp := hp.columns c hc
        simp only [ColumnDef.record, List.mem_cons, List.not_mem_nil, or_false] at hf
        obtain rfl | rfl | rfl | rfl | rfl | rfl := hf
        · decide
        · exact hp.name
        · exact hcp.1
        · exact hcp.2.1
        · exact fieldSafe_flag _
        · cases hd : c.defaultSql with
          | none => decide
          | some d => exact hcp.2.2 d hd
      · obtain ⟨i, hi, rfl⟩ := List.mem_map.mp hr
        have hip := hp.indexes i hi
        simp only [IndexDef.record, List.mem_cons, List.not_mem_nil, or_false] at hf
        obtain rfl | rfl | rfl | rfl | rfl := hf
        · decide
        · exact hp.name
        · exact hip.1
        · exact hip.2
        · exact fieldSafe_flag _
  have hlines : Text.lines s.canonicalString
      = (s.tables.flatMap TableDef.records).map recordLine := by
    unfold SchemaDef.canonicalString
    rw [Text.lines_unlines, List.map_map]
    · rfl
    · intro l hl
      obtain ⟨r, hr, rfl⟩ := List.mem_map.mp hl
      exact Text.not_mem_join (by decide) (fun f hf => (hfields r hr f hf).2)
  have hread := readLines_records [] hnodup hplain
  rw [SchemaDef.fromCanonical, hlines, hread]
  rfl

/-! ## What reading can produce -/

/-- A table that reading can produce: its texts are fields, and no default
is empty. -/
def TableDef.Readable (t : TableDef) : Prop :=
  t.Plain ∧ ∀ c ∈ t.columns, c.defaultSql ≠ some ""

theorem mem_modifyTable {name : String} {f : TableDef → TableDef} {tables tables' : List TableDef}
    (h : modifyTable name f tables = some tables') {t : TableDef} (ht : t ∈ tables') :
    t ∈ tables ∨ ∃ u ∈ tables, t = f u := by
  induction tables generalizing tables' with
  | nil => cases h
  | cons u rest ih =>
    rw [modifyTable] at h
    split_ifs at h
    · cases h
      obtain rfl | ht := List.mem_cons.mp ht
      · exact Or.inr ⟨u, List.mem_cons_self, rfl⟩
      · exact Or.inl (List.mem_cons_of_mem _ ht)
    · obtain ⟨rest', hrest, rfl⟩ := Option.map_eq_some_iff.mp h
      obtain rfl | ht := List.mem_cons.mp ht
      · exact Or.inl List.mem_cons_self
      · obtain ht | ⟨v, hv, ht⟩ := ih hrest ht
        · exact Or.inl (List.mem_cons_of_mem _ ht)
        · exact Or.inr ⟨v, List.mem_cons_of_mem _ hv, ht⟩

/-- Changing one table of a readable list leaves it readable. -/
theorem readable_modifyTable {name : String} {f : TableDef → TableDef}
    {tables : List TableDef} (h : ∀ t ∈ tables, t.Readable)
    (hf : ∀ t, t.Readable → (f t).Readable) {t : TableDef}
    (ht : t ∈ (modifyTable name f tables).getD tables) : t.Readable := by
  cases hm : modifyTable name f tables with
  | none =>
    rw [hm] at ht
    exact h t ht
  | some tables' =>
    rw [hm] at ht
    obtain ht | ⟨u, hu, rfl⟩ := mem_modifyTable hm ht
    · exact h t ht
    · exact hf u (h u hu)

theorem TableDef.Readable.addColumn {t : TableDef} (h : t.Readable) {c : ColumnDef}
    (hname : FieldSafe c.name) (htype : FieldSafe c.sqlType)
    (hdefault : ∀ d ∈ c.defaultSql, FieldSafe d ∧ d ≠ "") :
    TableDef.Readable { t with columns := t.columns ++ [c] } := by
  refine ⟨⟨h.1.name, h.1.pkName, h.1.pkType, fun c' hc' => ?_, h.1.indexes⟩, fun c' hc' => ?_⟩
  · obtain hc' | hc' := List.mem_append.mp hc'
    · exact h.1.columns c' hc'
    · obtain rfl := List.mem_singleton.mp hc'
      exact ⟨hname, htype, fun d hd => (hdefault d hd).1⟩
  · obtain hc' | hc' := List.mem_append.mp hc'
    · exact h.2 c' hc'
    · obtain rfl := List.mem_singleton.mp hc'
      exact fun hd => (hdefault "" hd).2 rfl

theorem TableDef.Readable.addIndex {t : TableDef} (h : t.Readable) {i : IndexDef}
    (hname : FieldSafe i.name) (hcolumn : FieldSafe i.column) :
    TableDef.Readable { t with indexes := t.indexes ++ [i] } := by
  refine ⟨⟨h.1.name, h.1.pkName, h.1.pkType, h.1.columns, fun i' hi' => ?_⟩, h.2⟩
  obtain hi' | hi' := List.mem_append.mp hi'
  · exact h.1.indexes i' hi'
  · obtain rfl := List.mem_singleton.mp hi'
    exact ⟨hname, hcolumn⟩

/-- **One record leaves the tables read so far readable.** -/
theorem readable_readRecord {tables tables' : List TableDef} {fields : List String}
    (h : ∀ t ∈ tables, t.Readable) (hfields : ∀ f ∈ fields, FieldSafe f)
    (hread : readRecord tables fields = .ok tables') : ∀ t ∈ tables', t.Readable := by
  unfold readRecord at hread
  split at hread
  · cases hread
    exact h
  · -- a table record
    split at hread
    · cases hread
    · rename_i name fields
      split_ifs at hread
      cases hread
      intro t ht
      obtain ht | ht := List.mem_append.mp ht
      · exact h t ht
      · obtain rfl := List.mem_singleton.mp ht
        have hopt : ∀ (k : ℕ) (d : String), FieldSafe d → FieldSafe ((fields[k]?).getD d) := by
          intro k d hd
          cases hk : fields[k]? with
          | none => exact hd
          | some f =>
            exact hfields f (List.mem_cons_of_mem _ (List.mem_cons_of_mem _
              (List.mem_of_getElem? hk)))
        exact ⟨⟨hfields _ (by simp), hopt 0 _ (by decide), hopt 1 _ (by decide),
          fun c hc => absurd hc List.not_mem_nil, fun i hi => absurd hi List.not_mem_nil⟩,
          fun c hc => absurd hc List.not_mem_nil⟩
  · -- a column record
    split at hread
    · cases hread
    · cases hread
    · cases hread
    · cases hread
    · rename_i tableName columnName sqlType nullable rest
      split_ifs at hread
      split at hread
      · cases hread
      · cases hread
        intro t ht
        refine readable_modifyTable h (fun u hu => ?_) ht
        refine hu.addColumn (hfields _ (by simp)) (hfields _ (by simp)) (fun d hd => ?_)
        obtain ⟨hget, hne⟩ := Option.mem_filter_iff.mp hd
        have hd : d ∈ rest := List.mem_of_getElem? hget
        exact ⟨hfields d (by simp [hd]), by simpa using hne⟩
  · -- an index record
    split at hread
    · cases hread
    · cases hread
    · cases hread
    · cases hread
    · split_ifs at hread
      split at hread
      · cases hread
      · cases hread
        intro t ht
        exact readable_modifyTable h
          (fun u hu => hu.addIndex (hfields _ (by simp)) (hfields _ (by simp))) ht
  · cases hread

theorem readable_readLines {lines : List String} (hlines : ∀ l ∈ lines, '\n' ∉ l.toList)
    {tables tables' : List TableDef} (h : ∀ t ∈ tables, t.Readable)
    (hread : readLines tables lines = .ok tables') : ∀ t ∈ tables', t.Readable := by
  induction lines generalizing tables with
  | nil =>
    cases hread
    exact h
  | cons line rest ih =>
    have ih := @ih (fun l hl => hlines l (List.mem_cons_of_mem _ hl))
    rw [readLines] at hread
    split_ifs at hread
    · exact ih h hread
    · split at hread
      · cases hread
      · rename_i tables'' hrecord
        refine ih (readable_readRecord h (fun f hf => ?_) hrecord) hread
        obtain ⟨htab, hchars⟩ := Text.not_mem_of_mem_split hf
        exact ⟨htab, fun hnl => hlines line List.mem_cons_self (hchars _ hnl)⟩

/-- **Whatever is read is readable.** -/
theorem fromCanonical_readable {input : String} {s : SchemaDef}
    (h : SchemaDef.fromCanonical input = .ok s) : ∀ t ∈ s.tables, t.Readable := by
  unfold SchemaDef.fromCanonical at h
  split at h
  · cases h
  · rename_i tables hread
    obtain ⟨-, rfl⟩ := SchemaDef.normalized_eq_ok_iff.mp h
    intro t ht
    obtain ⟨u, hu, rfl⟩ := SchemaDef.mem_sorted_tables.mp ht
    have hr := readable_readLines (fun l hl => Text.not_mem_of_mem_lines hl)
      (fun t ht => absurd ht List.not_mem_nil) hread u hu
    exact ⟨⟨hr.1.name, hr.1.pkName, hr.1.pkType,
      fun c hc => hr.1.columns c (TableDef.mem_sorted_columns.mp hc),
      fun i hi => hr.1.indexes i (TableDef.mem_sorted_indexes.mp hi)⟩,
      fun c hc => hr.2 c (TableDef.mem_sorted_columns.mp hc)⟩

/-! ## The round trip -/

theorem ColumnDef.readBack_eq_self_iff {c : ColumnDef} :
    c.readBack = c ↔ ∀ d ∈ c.defaultSql, d ≠ "" ∧ NoTrailingCr d := by
  obtain ⟨name, sqlType, nullable, defaultSql⟩ := c
  rw [ColumnDef.readBack, ColumnDef.mk.injEq]
  simp only [true_and]
  cases defaultSql with
  | none => exact iff_of_true (by decide) (fun d hd => by cases hd)
  | some d =>
    rw [Option.getD_some, Option.filter_eq_some_iff, Option.some.injEq, stripCr_eq_self_iff]
    simp only [Option.mem_some_iff, forall_eq', decide_eq_true_iff]
    exact and_comm

theorem TableDef.readBack_eq_self_iff {t : TableDef} :
    t.readBack = t ↔ NoTrailingCr t.primaryKey.sqlType
      ∧ ∀ c ∈ t.columns, ∀ d ∈ c.defaultSql, d ≠ "" ∧ NoTrailingCr d := by
  have hcolumns : t.columns.map ColumnDef.readBack = t.columns
      ↔ ∀ c ∈ t.columns, c.readBack = c := by
    constructor
    · intro h c hc
      exact List.map_inj_left.mp (h.trans (List.map_id' t.columns).symm) c hc
    · intro h
      rw [List.map_congr_left h, List.map_id']
  obtain ⟨name, ⟨pkName, pkType⟩, columns, indexes⟩ := t
  rw [TableDef.readBack, TableDef.mk.injEq, PrimaryKeyDef.mk.injEq]
  simp only [true_and, and_true, stripCr_eq_self_iff]
  refine and_congr Iff.rfl (hcolumns.trans (forall₂_congr (fun c _ => ?_)))
  exact ColumnDef.readBack_eq_self_iff

/-- Reading back keeps the name order. -/
theorem sorted_map_readBack {s : SchemaDef} (h : s.sorted = s) :
    SchemaDef.sorted ⟨s.tables.map TableDef.readBack⟩ = ⟨s.tables.map TableDef.readBack⟩ := by
  obtain ⟨hpair, htables⟩ := SchemaDef.sorted_eq_self_iff.mp h
  refine SchemaDef.sorted_eq_self_iff.mpr ⟨List.pairwise_map.mpr hpair, fun t ht => ?_⟩
  obtain ⟨u, hu, rfl⟩ := List.mem_map.mp ht
  obtain ⟨hc, hi⟩ := TableDef.sorted_eq_self_iff.mp (htables u hu)
  exact TableDef.sorted_eq_self_iff.mpr ⟨List.pairwise_map.mpr hc, hi⟩

/-- **A schema survives being written and read exactly when it is
`HistorySafe`.** -/
theorem fromCanonical_canonicalString_iff {s : SchemaDef} (hs : s.normalized = .ok s) :
    SchemaDef.fromCanonical s.canonicalString = .ok s ↔ s.HistorySafe := by
  have hwf := SchemaDef.wellFormed_of_normalized hs
  have hsorted : s.sorted = s := (SchemaDef.normalized_eq_ok_iff.mp hs).2.symm
  constructor
  · intro h t ht
    have hplain : ∀ t ∈ s.tables, t.Plain := fun t ht => (fromCanonical_readable h t ht).1
    rw [fromCanonical_of_plain hwf.nodup hplain] at h
    have heq := (SchemaDef.normalized_eq_ok_iff.mp h).2
    rw [sorted_map_readBack hsorted] at heq
    have hmap : s.tables.map TableDef.readBack = s.tables := (congrArg SchemaDef.tables heq).symm
    have hself : t.readBack = t :=
      List.map_inj_left.mp (hmap.trans (List.map_id' s.tables).symm) t ht
    obtain ⟨hend, hdefaults⟩ := TableDef.readBack_eq_self_iff.mp hself
    exact ⟨hplain t ht, hend, hdefaults⟩
  · intro h
    have hmap : s.tables.map TableDef.readBack = s.tables := by
      rw [List.map_congr_left (fun t ht => TableDef.readBack_eq_self_iff.mpr
        ⟨(h t ht).pkTypeEnd, (h t ht).defaults⟩), List.map_id']
    rw [fromCanonical_of_plain hwf.nodup (fun t ht => (h t ht).toPlain), hmap]
    exact hs

/-- **The history row of a built schema can be read back exactly when the
schema is `HistorySafe`**, and no two schemas of this kind share a canonical
text. -/
theorem history_round_trip {builder : SchemaBuilder} {s : SchemaDef}
    (hs : builder.build = .ok s) :
    (SchemaDef.fromCanonical s.canonicalString = .ok s ↔ s.HistorySafe)
      ∧ (∀ (e : Engine) (db db' : Database)
          (planId sourceFingerprint targetFingerprint : String), db.HistoryIntact →
          e.execAll db (recordSuccess planId sourceFingerprint targetFingerprint s) = .ok db' →
          (loadLatestTargetSchema db' = .ok (some s) ↔ s.HistorySafe))
      ∧ (s.HistorySafe → ∀ (builder' : SchemaBuilder) (s' : SchemaDef),
          builder'.build = .ok s' → s'.HistorySafe →
          s'.canonicalString = s.canonicalString → s' = s) := by
  have hiff : ∀ {builder : SchemaBuilder} {s : SchemaDef}, builder.build = .ok s →
      (SchemaDef.fromCanonical s.canonicalString = .ok s ↔ s.HistorySafe) :=
    fun h => fromCanonical_canonicalString_iff (SchemaDef.normalized_normalized h)
  refine ⟨hiff hs, ?_, ?_⟩
  · intro e db db' planId sourceFingerprint targetFingerprint hintact hexec
    rw [(loadLatestTargetSchema_recordSuccess hintact hexec).1, ← hiff hs]
    cases SchemaDef.fromCanonical s.canonicalString with
    | error err => exact ⟨fun h => (by cases h), fun h => (by cases h)⟩
    | ok s' => simp [Except.map]
  · intro hsafe builder' s' hs' hsafe' hcanon
    have h := (hiff hs).mpr hsafe
    rw [← hcanon, (hiff hs').mpr hsafe'] at h
    exact Except.ok.inj h

/-- The round trip of a schema with a default and an index. -/
theorem history_round_trip_example :
    SchemaDef.fromCanonical (SchemaDef.canonicalString
      ⟨[⟨"users", ⟨"id", "INTEGER"⟩, [⟨"name", "TEXT", false, some "'x'"⟩],
        [⟨"seekwel_idx_users_name", "name", true⟩]⟩]⟩)
      = .ok ⟨[⟨"users", ⟨"id", "INTEGER"⟩, [⟨"name", "TEXT", false, some "'x'"⟩],
          [⟨"seekwel_idx_users_name", "name", true⟩]⟩]⟩ := by
  refine (@history_round_trip ⟨[⟨"users", ⟨"id", "INTEGER"⟩,
    [⟨"name", "TEXT", false, some "'x'"⟩], [⟨"seekwel_idx_users_name", "name", true⟩]⟩]⟩ _
    (by decide)).1.mpr ?_
  intro t ht
  obtain rfl := List.mem_singleton.mp ht
  exact ⟨⟨by decide, by decide, by decide, by decide, by decide⟩, by decide, by decide⟩

/-- Planning a schema on an empty database, applying the plan and planning
the same schema again. -/
def replan (s : SchemaDef) : Except Error Plan :=
  match Plan.build exampleEngine s Database.empty with
  | .error error => .error error
  | .ok plan =>
    match apply exampleEngine Faults.none false plan .safeOnly (.idle Database.empty) with
    | (c, .ok ()) => Plan.build exampleEngine s c.view
    | (_, .error error) => .error error
    | (_, .panic payload) => .error (.sqlite payload)

/-- **A default with a newline is not read back**: the schema is built from
the literal, its plan is applied and recorded, and the next plan fails on
the record. -/
theorem history_round_trip_newline :
    ∃ (defaultSql : String) (s : SchemaDef),
      defaultSqlFromExpr (.lit (.str "a\nb")) = .ok defaultSql
        ∧ (SchemaBuilder.new.model ⟨"notes", ⟨"id", "INTEGER"⟩,
            [⟨"body", "TEXT", false, some defaultSql⟩], []⟩).build = .ok s
        ∧ SchemaDef.fromCanonical s.canonicalString ≠ .ok s
        ∧ replan s = .error (.invalidSchema "history row has unknown record kind `b'`") :=
  ⟨"'a\nb'", ⟨[⟨"notes", ⟨"id", "INTEGER"⟩, [⟨"body", "TEXT", false, some "'a\nb'"⟩], []⟩]⟩,
    by decide, by decide +kernel, by decide +kernel, by decide +kernel⟩

end Seekwel
