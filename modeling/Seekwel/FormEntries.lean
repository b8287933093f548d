import Seekwel.ParamValue
import Seekwel.Runs

/-!
# Forms as they are read

What a whole form becomes. A form of scalar entries without lists becomes a
tree in which the last value of every path is found, whatever the order of
the other entries (`lastWins`). Insertions at paths beside each other
commute, which is all that the order needs.

A list has no positions in a form, so that only the keys tell where a row of
a list of maps ends: at the first key that the row already has. The rows are
rebuilt if each begins with a key of the one before (`lists_rebuilt`). No
list comes from no rows.
-/

namespace Seekwel.Model.ParamValue

variable {value self : ParamValue}

theorem insertEntries_eq (entries : List (String × ParamValue)) (self : ParamValue) :
    insertEntries entries self
      = .ok (entries.foldl (fun tree e => insertPath e.2 (paramKeySegments e.1) tree) self) := by
  induction entries generalizing self with
  | nil => rfl
  | cons e entries ih =>
    rw [insertEntries, List.foldlM_cons, List.foldl_cons]
    exact ih _

/-! ## Paths of keys -/

@[simp] theorem asMapMut_map (entries : List (String × ParamValue)) :
    (map entries).asMapMut = entries := rfl

theorem containerFor_of_keys {rest : List String} (h : "" ∉ rest) :
    containerFor rest.head? = map [] := by
  cases rest with
  | nil => rfl
  | cons next rest =>
    have hne : ¬ some next = some "" := by
      rintro ⟨⟩
      exact h List.mem_cons_self
    exact if_neg hne

/-- **Insertions beside each other commute.** -/
theorem insertPath_comm {path path' : List String} (hpath : "" ∉ path) (hpath' : "" ∉ path')
    (hbeside : IsBeside path path') (value value' self : ParamValue) :
    insertPath value path (insertPath value' path' self)
      = insertPath value' path' (insertPath value path self) := by
  induction path generalizing path' self with
  | nil => exact absurd rfl hbeside.ne_nil
  | cons key path ih =>
    cases path' with
    | nil => exact absurd List.nil_prefix hbeside.2
    | cons key' path' =>
      rw [List.mem_cons, not_or] at hpath hpath'
      have hkey : key ≠ "" := Ne.symm hpath.1
      have hkey' : key' ≠ "" := Ne.symm hpath'.1
      simp only [insertPath_cons hkey, insertPath_cons hkey', asMapMut_map, lookup_insertEntry]
      by_cases hsame : key = key'
      · subst hsame
        simp only [if_pos, Option.getD_some, SortedMap.insertEntry_insertEntry,
          containerFor_of_keys hpath.2, containerFor_of_keys hpath'.2]
        rw [ih hpath.2 hpath'.2 (isBeside_cons.mp hbeside)]
      · rw [if_neg hsame, if_neg (Ne.symm hsame), SortedMap.insertEntry_comm hsame]

theorem get_insertPath_self {path : List String} (h : "" ∉ path) :
    get path (insertPath value path self) = some value := by
  have hkeys : ∀ segment ∈ path, segment ≠ "" := fun segment hsegment hempty =>
    h (hempty ▸ hsegment)
  have hget : get path (insertPath value (path ++ []) self) = some value :=
    get_insertPath_append hkeys []
  rwa [List.append_nil] at hget

theorem get_insertPath_of_beside {path path' : List String} (h : "" ∉ path')
    (hbeside : IsBeside path path') :
    get path (insertPath value path' self) = get path self := by
  have hkeys : ∀ segment ∈ path', decide (segment ≠ "") = true := fun segment hsegment =>
    decide_eq_true fun hempty => h (hempty ▸ hsegment)
  refine get_insertPath (fun node _ => ?_) hbeside
  rw [List.dropWhile_eq_nil_iff.mpr hkeys, holdsBeside]

theorem takePath_fst {path : List String} (h : path ≠ []) (self : ParamValue) :
    (takePath path self).1 = get path self := by
  induction path generalizing self with
  | nil => exact absurd rfl h
  | cons key rest ih =>
    cases self with
    | map entries =>
      cases rest with
      | nil =>
        show lookup key entries = _
        simp
      | cons next rest =>
        rw [get_cons_map, takePath, if_neg (by simp)]
        cases lookup key entries with
        | none => rfl
        | some child => exact ih (by simp) child
    | null | scalar | list => rfl

/-! ## The last value counts -/

/-- The last value with a path. -/
def lastValue (entries : List (String × String)) (path : List String) : Option String :=
  ((entries.filter fun e => paramKeySegments e.1 = path).getLast?).map Prod.snd

/-- Inserting scalar entries one after the other. -/
def insertScalars (entries : List (String × String)) (self : ParamValue) :
    Except Error ParamValue :=
  insertEntries (entries.map fun e => (e.1, scalar e.2)) self

/-- **The last value of every path is found**, and no leaf besides. -/
structure LastWins (entries : List (String × String)) (tree : ParamValue) : Prop where
  takePath : ∀ e ∈ entries, ∃ raw, lastValue entries (paramKeySegments e.1) = some raw
    ∧ (tree.takePath (paramKeySegments e.1)).1 = some (scalar raw)
  /-- Everything in the tree is on the way to an entry. -/
  onTheWay : ∀ path value, get path tree = some value → path ≠ [] →
    ∃ e ∈ entries, path <+: paramKeySegments e.1
  /-- What is no map is the last value of its path. -/
  leaf : ∀ path value, get path tree = some value → (∀ m, value ≠ map m) →
    ∃ raw, lastValue entries path = some raw ∧ value = scalar raw

/-- Entries whose paths have no empty segment and are equal or beside each
other. -/
structure Compatible (entries : List (String × String)) : Prop where
  keys : ∀ e ∈ entries, "" ∉ paramKeySegments e.1
  beside : ∀ e ∈ entries, ∀ e' ∈ entries, paramKeySegments e.1 = paramKeySegments e'.1
    ∨ IsBeside (paramKeySegments e.1) (paramKeySegments e'.1)

theorem paramKeySegments_ne_nil (key : String) : paramKeySegments key ≠ [] := by
  by_cases hkey : key = ""
  · subst hkey
    decide
  · obtain ⟨segment, rest, hsegments, _⟩ := exists_segments hkey
    rw [hsegments]
    exact List.cons_ne_nil segment rest

theorem lastValue_append (entries : List (String × String)) (e : String × String)
    (path : List String) :
    lastValue (entries ++ [e]) path
      = if paramKeySegments e.1 = path then some e.2 else lastValue entries path := by
  rw [lastValue, List.filter_append]
  split_ifs with hpath
  · rw [List.filter_cons_of_pos (by simpa using hpath), List.filter_nil,
      List.getLast?_concat, Option.map_some]
  · rw [List.filter_cons_of_neg (by simpa using hpath), List.filter_nil, List.append_nil,
      lastValue]

theorem mem_of_lastValue {entries : List (String × String)} {path : List String}
    {raw : String} (h : lastValue entries path = some raw) :
    ∃ e ∈ entries, paramKeySegments e.1 = path := by
  rw [lastValue, Option.map_eq_some_iff] at h
  obtain ⟨e, hlast, _⟩ := h
  have hmem := List.mem_of_getLast? hlast
  rw [List.mem_filter] at hmem
  exact ⟨e, hmem.1, by simpa using hmem.2⟩

theorem exists_lastValue {entries : List (String × String)} {e : String × String}
    (h : e ∈ entries) : ∃ raw, lastValue entries (paramKeySegments e.1) = some raw := by
  have hne : entries.filter (fun e' => paramKeySegments e'.1 = paramKeySegments e.1) ≠ [] :=
    List.ne_nil_of_mem (List.mem_filter.mpr ⟨h, by simp⟩)
  exact ⟨_, by rw [lastValue, List.getLast?_eq_some_getLast hne, Option.map_some]⟩

/-- The tree of some entries. -/
def treeOf (entries : List (String × String)) : ParamValue :=
  entries.foldl (fun tree e => insertPath (scalar e.2) (paramKeySegments e.1) tree) (map [])

theorem insertScalars_eq (entries : List (String × String)) :
    insertScalars entries (map []) = .ok (treeOf entries) := by
  rw [insertScalars, insertEntries_eq, List.foldl_map]
  rfl

theorem treeOf_append (entries : List (String × String)) (e : String × String) :
    treeOf (entries ++ [e])
      = insertPath (scalar e.2) (paramKeySegments e.1) (treeOf entries) := by
  rw [treeOf, List.foldl_append]
  rfl

/-- What a path leads to after an insertion: what it led to if it is beside,
a map on the way, or the value. -/
theorem get_treeOf_append {entries : List (String × String)} {e : String × String}
    (h : "" ∉ paramKeySegments e.1) {path : List String}
    (hget : get path (treeOf (entries ++ [e])) = some value) :
    IsBeside path (paramKeySegments e.1) ∧ get path (treeOf entries) = some value
      ∨ path <+: paramKeySegments e.1 ∧ (path ≠ paramKeySegments e.1 → ∃ m, value = map m)
        ∧ (path = paramKeySegments e.1 → value = scalar e.2) := by
  rw [treeOf_append] at hget
  by_cases hbeside : IsBeside path (paramKeySegments e.1)
  · rw [get_insertPath_of_beside h hbeside] at hget
    exact Or.inl ⟨hbeside, hget⟩
  · rw [IsBeside, not_and_or, not_not, not_not] at hbeside
    refine Or.inr ?_
    rcases hbeside with ⟨rest, hrest⟩ | ⟨rest, hrest⟩
    · refine ⟨⟨rest, hrest⟩, fun hne => ?_, fun heq => ?_⟩
      · cases rest with
        | nil => exact absurd (by rw [← hrest, List.append_nil]) hne
        | cons key rest =>
          have hkeys : ∀ segment ∈ path ++ key :: rest, segment ≠ "" :=
            fun segment hsegment hempty => h (hrest ▸ hempty ▸ hsegment)
          rw [← hrest, get_insertPath_append fun s hs => hkeys s (List.mem_append_left _ hs),
            insertPath_cons (hkeys key (by simp)), Option.some.injEq] at hget
          exact ⟨_, hget.symm⟩
      · rw [heq, get_insertPath_self h] at hget
        exact (Option.some.inj hget).symm
    · -- a scalar leads nowhere
      rw [← hrest, get_append, get_insertPath_self h, Option.bind_some] at hget
      cases rest with
      | nil =>
        rw [List.append_nil] at hrest
        refine ⟨hrest ▸ List.prefix_rfl, fun hne => absurd hrest.symm hne, fun _ => ?_⟩
        exact (Option.some.inj hget).symm
      | cons key rest => cases hget

theorem Compatible.init {entries : List (String × String)} {e : String × String}
    (h : Compatible (entries ++ [e])) : Compatible entries :=
  ⟨fun e' he' => h.keys e' (List.mem_append_left _ he'),
    fun e' he' e'' he'' => h.beside e' (List.mem_append_left _ he') e''
      (List.mem_append_left _ he'')⟩

theorem Compatible.get_treeOf {entries : List (String × String)} (h : Compatible entries)
    {path : List String} {raw : String} (hlast : lastValue entries path = some raw) :
    get path (treeOf entries) = some (scalar raw) := by
  induction entries using List.reverseRecOn with
  | nil => cases hlast
  | append_singleton entries e ih =>
    have he : e ∈ entries ++ [e] := List.mem_append_right _ List.mem_cons_self
    rw [lastValue_append] at hlast
    rw [treeOf_append]
    split_ifs at hlast with hpath
    · obtain rfl := Option.some.inj hlast
      rw [← hpath, get_insertPath_self (h.keys e he)]
    · obtain ⟨e', he', rfl⟩ := mem_of_lastValue hlast
      have hbeside := (h.beside e' (List.mem_append_left _ he') e he).resolve_left
        (Ne.symm hpath)
      rw [get_insertPath_of_beside (h.keys e he) hbeside]
      exact ih h.init hlast

theorem Compatible.lastWins_treeOf {entries : List (String × String)} (h : Compatible entries) :
    LastWins entries (treeOf entries) where
  takePath := by
    intro e he
    obtain ⟨raw, hlast⟩ := exists_lastValue he
    refine ⟨raw, hlast, ?_⟩
    rw [takePath_fst (paramKeySegments_ne_nil e.1), h.get_treeOf hlast]
  onTheWay := by
    intro path value hget hne
    induction entries using List.reverseRecOn generalizing value with
    | nil =>
      cases path with
      | nil => exact absurd rfl hne
      | cons key rest => cases hget
    | append_singleton entries e ih =>
      have he : e ∈ entries ++ [e] := List.mem_append_right _ List.mem_cons_self
      rcases get_treeOf_append (h.keys e he) hget with ⟨_, hget⟩ | ⟨hstart, _⟩
      · obtain ⟨e', he', hstart⟩ := ih h.init value hget
        exact ⟨e', List.mem_append_left _ he', hstart⟩
      · exact ⟨e, he, hstart⟩
  leaf := by
    intro path value hget hleaf
    induction entries using List.reverseRecOn generalizing value with
    | nil =>
      cases path with
      | nil => exact absurd (Option.some.inj hget).symm (hleaf [])
      | cons key rest => cases hget
    | append_singleton entries e ih =>
      have he : e ∈ entries ++ [e] := List.mem_append_right _ List.mem_cons_self
      rw [lastValue_append]
      rcases get_treeOf_append (h.keys e he) hget with ⟨hbeside, hget⟩ | ⟨_, hmap, hvalue⟩
      · have hne : paramKeySegments e.1 ≠ path := by
          rintro rfl
          exact hbeside.1 List.prefix_rfl
        rw [if_neg hne]
        exact ih h.init value hget hleaf
      · by_cases hpath : path = paramKeySegments e.1
        · rw [if_pos hpath.symm]
          exact ⟨e.2, rfl, hvalue hpath⟩
        · obtain ⟨m, rfl⟩ := hmap hpath
          exact absurd rfl (hleaf m)

/-- **The last value wins, and the order of other keys does not matter.** -/
theorem lastWins {entries : List (String × String)} (h : Compatible entries) :
    ∃ tree, insertScalars entries (map []) = .ok tree ∧ LastWins entries tree
      ∧ ∀ entries', Reorders (fun e => paramKeySegments e.1) entries entries' →
        insertScalars entries' (map []) = .ok tree := by
  refine ⟨treeOf entries, insertScalars_eq entries, h.lastWins_treeOf, ?_⟩
  intro entries' hreorders
  rw [insertScalars_eq, treeOf, treeOf]
  congr 1
  symm
  refine foldl_eq_of_reorders (fun tree e he e' he' hne => ?_) hreorders (map [])
  exact insertPath_comm (h.keys e' he') (h.keys e he)
    ((h.beside e' he' e he).resolve_left hne.symm) _ _ tree

/-- A hidden field and a checkbox. -/
def checkedTodo : List (String × String) :=
  [(flatKey "todo" ["title"], "Checked"), (flatKey "todo" ["done"], "0"),
    (flatKey "todo" ["done"], "1")]

theorem lastWins_checkedTodo :
    ∃ tree, insertScalars checkedTodo (map []) = .ok tree ∧ LastWins checkedTodo tree
      ∧ ∀ entries', Reorders (fun e => paramKeySegments e.1) checkedTodo entries' →
        insertScalars entries' (map []) = .ok tree := by
  have htitle : paramKeySegments (flatKey "todo" ["title"]) = ["todo", "title"] :=
    paramKeySegments_flatKey (by decide) (by decide) (by decide)
  have hdone : paramKeySegments (flatKey "todo" ["done"]) = ["todo", "done"] :=
    paramKeySegments_flatKey (by decide) (by decide) (by decide)
  refine lastWins ⟨?_, ?_⟩
  · simp [checkedTodo, htitle, hdone]
  · simp [checkedTodo, htitle, hdone, IsBeside, List.cons_prefix_cons]

/-! ## Rows -/

/-- A row of a list of maps: at least one entry, under distinct keys that are
not empty. -/
structure FormRow where
  entries : List (String × ParamValue)
  ne_nil : entries ≠ []
  nodup : (entries.map Prod.fst).Nodup
  keys : ∀ e ∈ entries, e.1 ≠ ""

/-- The row as a map. -/
def FormRow.asMap (row : FormRow) : ParamValue :=
  map (row.entries.foldl (fun m e => SortedMap.insertEntry e.1 e.2 m) [])

/-- A row begins with a key of the row before. -/
def FormRow.Follows (row next : FormRow) : Prop :=
  (next.entries.head next.ne_nil).1 ∈ row.entries.map Prod.fst

/-- What some entries insert at which paths. -/
def insertions (entries : List (String × ParamValue)) : List (List String × ParamValue) :=
  entries.map fun e => (paramKeySegments e.1, e.2)

/-- The rows are what a path leads to once their entries are inserted, each
under `path[][key]`. -/
def RebuildsRows (path : List String) (rows : List FormRow) (self : ParamValue) : Prop :=
  ∀ entries, insertions entries
      = rows.flatMap (fun row => row.entries.map fun e => (path ++ ["", e.1], e.2)) →
    ∃ tree, insertEntries entries self = .ok tree
      ∧ get path tree = some (list (rows.map FormRow.asMap))

/-- The values are what a path leads to once they are inserted, each under
`path[]`. -/
def RebuildsValues (path : List String) (values : List ParamValue) (self : ParamValue) : Prop :=
  ∀ entries, insertions entries = values.map (fun value => (path ++ [""], value)) →
    ∃ tree, insertEntries entries self = .ok tree ∧ get path tree = some (list values)

/-- What some insertions leave. -/
def insertAll (steps : List (List String × ParamValue)) (self : ParamValue) : ParamValue :=
  steps.foldl (fun tree step => insertPath step.2 step.1 tree) self

theorem insertEntries_eq_insertAll (entries : List (String × ParamValue)) (self : ParamValue) :
    insertEntries entries self = .ok (insertAll (insertions entries) self) := by
  rw [insertEntries_eq, insertAll, insertions, List.foldl_map]

@[simp] theorem insertAll_nil (self : ParamValue) : insertAll [] self = self := rfl

@[simp] theorem insertAll_cons (step : List String × ParamValue)
    (steps : List (List String × ParamValue)) (self : ParamValue) :
    insertAll (step :: steps) self = insertAll steps (insertPath step.2 step.1 self) := rfl

theorem insertAll_append (steps steps' : List (List String × ParamValue))
    (self : ParamValue) :
    insertAll (steps ++ steps') self = insertAll steps' (insertAll steps self) :=
  List.foldl_append

/-- The steps at a list below a path. -/
def atList (path : List String) (steps : List (List String × ParamValue)) :
    List (List String × ParamValue) :=
  steps.map fun step => (path ++ "" :: step.1, step.2)

/-- **Insertions below a path** go on in what it leads to. -/
theorem get_insertAll_atList {path : List String} (hpath : "" ∉ path)
    (steps : List (List String × ParamValue)) {node : ParamValue}
    (hnode : get path self = some node) :
    get path (insertAll (atList path steps) self) = some (insertAll (atList [] steps) node) := by
  have hkeys : ∀ segment ∈ path, segment ≠ "" := fun segment hsegment hempty =>
    hpath (hempty ▸ hsegment)
  induction steps generalizing self node with
  | nil => exact hnode
  | cons step steps ih =>
    refine ih ?_
    rw [get_insertPath_append hkeys, hnode]
    rfl

/-- Where a path leads nowhere, they begin with an empty list. -/
theorem get_insertAll_of_absent {path : List String} (hpath : "" ∉ path)
    {steps : List (List String × ParamValue)} (hsteps : steps ≠ [])
    (habsent : get path self = none) :
    get path (insertAll (atList path steps) self)
      = some (insertAll (atList [] steps) (list [])) := by
  have hkeys : ∀ segment ∈ path, segment ≠ "" := fun segment hsegment hempty =>
    hpath (hempty ▸ hsegment)
  cases steps with
  | nil => exact absurd rfl hsteps
  | cons step steps =>
    refine get_insertAll_atList hpath steps ?_
    rw [get_insertPath_append hkeys, habsent]
    rfl

/-- A list takes a value in. -/
theorem insertAll_values (values values' : List ParamValue) :
    insertAll (atList [] (values.map fun value => ([], value))) (list values')
      = list (values' ++ values) := by
  induction values generalizing values' with
  | nil => rw [List.append_nil]; rfl
  | cons value values ih =>
    show insertAll (atList [] (values.map fun value => ([], value))) (list (values' ++ [value]))
      = _
    rw [ih, List.append_assoc]
    rfl

/-- **An entry of the last row**: the row has no such key yet. -/
theorem insertPath_last {key : String} (hkey : key ≠ "") {m : List (String × ParamValue)}
    (hnew : lookup key m = none) (values : List ParamValue) :
    insertPath value ["", key] (list (values ++ [map m]))
      = list (values ++ [map (SortedMap.insertEntry key value m)]) := by
  have hlast : (values ++ [map m]).getLast?.filter (canInsertPath [key]) = some (map m) := by
    rw [List.getLast?_concat, Option.filter_some, if_pos]
    simp [canInsertPath, hkey, hnew]
  rw [insertPath, if_pos rfl]
  simp only [asListMut, List.isEmpty_cons, Bool.false_eq_true, if_false, hlast]
  rw [List.dropLast_concat, insertPath_cons hkey]
  rfl

/-- **An entry of a new row**: the last row has this key, or there is none. -/
theorem insertPath_new {key : String} (hkey : key ≠ "") {values : List ParamValue}
    (hlast : values.getLast?.filter (canInsertPath [key]) = none) :
    insertPath value ["", key] (list values) = list (values ++ [map [(key, value)]]) := by
  rw [insertPath, if_pos rfl]
  simp only [asListMut, List.isEmpty_cons, Bool.false_eq_true, if_false, hlast, List.head?_cons]
  have hcontainer : containerFor (some key) = map [] := if_neg (by simpa using hkey)
  rw [hcontainer, insertPath_cons hkey]
  rfl

/-- Insertions under a key leave a value there. -/
theorem lookup_foldl_isSome {key : String} {es : List (String × ParamValue)}
    {m : List (String × ParamValue)} (h : key ∈ es.map Prod.fst ∨ (lookup key m).isSome) :
    (lookup key (es.foldl (fun m e => SortedMap.insertEntry e.1 e.2 m) m)).isSome := by
  induction es generalizing m with
  | nil => exact h.resolve_left (by simp)
  | cons e es ih =>
    refine ih ?_
    rw [lookup_insertEntry]
    split_ifs with hkey
    · exact Or.inr rfl
    · refine h.imp_left fun hmem => ?_
      rw [List.map_cons, List.mem_cons] at hmem
      exact hmem.resolve_left hkey

/-- **The entries of one row** go on in the last map. -/
theorem insertAll_last {es : List (String × ParamValue)} (hnodup : (es.map Prod.fst).Nodup)
    (hkeys : ∀ e ∈ es, e.1 ≠ "") {m : List (String × ParamValue)}
    (hnew : ∀ e ∈ es, lookup e.1 m = none) (values : List ParamValue) :
    insertAll (atList [] (es.map fun e => ([e.1], e.2))) (list (values ++ [map m]))
      = list (values ++ [map (es.foldl (fun m e => SortedMap.insertEntry e.1 e.2 m) m)]) := by
  induction es generalizing m with
  | nil => rfl
  | cons e es ih =>
    rw [List.map_cons, List.nodup_cons] at hnodup
    show insertAll (atList [] (es.map fun e => ([e.1], e.2)))
      (insertPath e.2 ["", e.1] (list (values ++ [map m]))) = _
    rw [insertPath_last (hkeys e List.mem_cons_self) (hnew e List.mem_cons_self),
      ih hnodup.2 (fun e' he' => hkeys e' (List.mem_cons_of_mem _ he'))]
    · rfl
    · intro e' he'
      have hne : e'.1 ≠ e.1 := fun heq =>
        hnodup.1 (heq ▸ List.mem_map_of_mem he')
      rw [lookup_insertEntry, if_neg hne]
      exact hnew e' (List.mem_cons_of_mem _ he')

/-- The first key of a row. -/
def FormRow.firstKey (row : FormRow) : String := (row.entries.head row.ne_nil).1

/-- **A row is one further map**, unless the last one takes its first entry
in. -/
theorem insertAll_row (row : FormRow) {values : List ParamValue}
    (hlast : values.getLast?.filter (canInsertPath [row.firstKey]) = none) :
    insertAll (atList [] (row.entries.map fun e => ([e.1], e.2))) (list values)
      = list (values ++ [row.asMap]) := by
  obtain ⟨entries, hne, hnodup, hkeys⟩ := row
  cases entries with
  | nil => exact absurd rfl hne
  | cons e es =>
    rw [List.map_cons, List.nodup_cons] at hnodup
    show insertAll (atList [] (es.map fun e => ([e.1], e.2)))
      (insertPath e.2 ["", e.1] (list values)) = _
    rw [insertPath_new (hkeys e List.mem_cons_self) hlast,
      insertAll_last hnodup.2 fun e' he' => hkeys e' (List.mem_cons_of_mem _ he')]
    · rfl
    · intro e' he'
      have hne : ¬ e.1 = e'.1 := fun heq =>
        hnodup.1 (heq ▸ List.mem_map_of_mem he')
      simp [lookup, hne]

/-- A row that begins with a key of the last one does not go on there. -/
theorem FormRow.Follows.filter_eq_none {row next : FormRow} (h : row.Follows next)
    (hkey : next.firstKey ≠ "") (values : List ParamValue) :
    (values ++ [row.asMap]).getLast?.filter (canInsertPath [next.firstKey]) = none := by
  have hthere := lookup_foldl_isSome (m := []) (Or.inl h)
  have hrefused : ¬ canInsertPath [next.firstKey] row.asMap = true := by
    show ¬ canInsertPath [next.firstKey] (map _) = true
    rw [canInsertPath, if_neg hkey, List.isEmpty_nil, if_pos rfl]
    rw [Option.isNone_iff_eq_none, ← ne_eq, Option.ne_none_iff_isSome]
    exact hthere
  rw [List.getLast?_concat, Option.filter_some, if_neg hrefused]

/-- **One row after the other.** -/
theorem insertAll_rows {rows : List FormRow} (hfollows : rows.IsChain FormRow.Follows)
    {values : List ParamValue}
    (hlast : ∀ row ∈ rows.head?, values.getLast?.filter (canInsertPath [row.firstKey]) = none) :
    insertAll (atList [] (rows.flatMap fun row => row.entries.map fun e => ([e.1], e.2)))
        (list values)
      = list (values ++ rows.map FormRow.asMap) := by
  induction rows generalizing values with
  | nil => rw [List.map_nil, List.append_nil]; rfl
  | cons row rows ih =>
    have hrow := insertAll_row row (hlast row rfl)
    rw [List.flatMap_cons, atList, List.map_append, insertAll_append]
    show insertAll (atList [] _) (insertAll (atList [] _) (list values)) = _
    rw [hrow, ih hfollows.of_cons, List.append_assoc]
    · rfl
    · intro next hnext
      cases rows with
      | nil => cases hnext
      | cons next' rows =>
        obtain rfl := Option.some.inj hnext
        refine (List.isChain_cons_cons.mp hfollows).1.filter_eq_none ?_ values
        exact next'.keys _ (List.head_mem _)

theorem atList_flatMap (path : List String) (rows : List FormRow) :
    rows.flatMap (fun row => row.entries.map fun e => (path ++ ["", e.1], e.2))
      = atList path (rows.flatMap fun row => row.entries.map fun e => ([e.1], e.2)) := by
  rw [atList, List.map_flatMap]
  simp only [List.map_map]
  rfl

/-- **Lists are rebuilt**: of rows that begin with a key of the one before,
and of values, if there are any. -/
theorem lists_rebuilt {path : List String} (hkeys : "" ∉ path)
    (habsent : get path self = none) :
    (∀ rows : List FormRow, rows ≠ [] → rows.IsChain FormRow.Follows →
        RebuildsRows path rows self)
      ∧ ∀ values : List ParamValue, values ≠ [] → RebuildsValues path values self := by
  constructor
  · intro rows hrows hfollows entries hentries
    refine ⟨_, insertEntries_eq_insertAll entries self, ?_⟩
    have hsteps : rows.flatMap (fun row => row.entries.map fun e => ([e.1], e.2)) ≠ [] := by
      obtain ⟨row, hrow⟩ := List.exists_mem_of_ne_nil rows hrows
      obtain ⟨e, he⟩ := List.exists_mem_of_ne_nil row.entries row.ne_nil
      exact List.ne_nil_of_mem
        (List.mem_flatMap.mpr ⟨row, hrow, List.mem_map_of_mem he⟩)
    rw [hentries, atList_flatMap, get_insertAll_of_absent hkeys hsteps habsent,
      insertAll_rows hfollows fun row _ => rfl]
    rfl
  · intro values hvalues entries hentries
    refine ⟨_, insertEntries_eq_insertAll entries self, ?_⟩
    have hsteps : values.map (fun value => (([] : List String), value)) ≠ [] := by
      simpa using hvalues
    have hentries' : insertions entries
        = atList path (values.map fun value => ([], value)) := by
      rw [hentries, atList, List.map_map]
      rfl
    rw [hentries', get_insertAll_of_absent hkeys hsteps habsent, insertAll_values]
    rfl

/-! ## Two deployments -/

def deployment (name target : String) : FormRow where
  entries := [("name", scalar name), ("target", scalar target)]
  ne_nil := by simp
  nodup := by simp
  keys := by simp

/-- `app[deployments][][name]` and so on. -/
def deploymentEntry (key value : String) : String × ParamValue :=
  (flatKey "app" ["deployments", "", key], scalar value)

theorem deployments_rebuilt :
    ∃ tree, insertEntries
        [deploymentEntry "name" "beta", deploymentEntry "target" "testflight",
          deploymentEntry "name" "release", deploymentEntry "target" "app-store"]
        (map []) = .ok tree
      ∧ get ["app", "deployments"] tree = some (list
        [map [("name", scalar "beta"), ("target", scalar "testflight")],
          map [("name", scalar "release"), ("target", scalar "app-store")]]) := by
  have hkey : ∀ key, ']' ∉ key.toList →
      paramKeySegments (flatKey "app" ["deployments", "", key])
        = ["app", "deployments", "", key] := by
    intro key hkey
    refine paramKeySegments_flatKey (by decide) (by decide) ?_
    simp [hkey]
  refine (lists_rebuilt (by decide) rfl).1
    [deployment "beta" "testflight", deployment "release" "app-store"] (by simp)
    (by simp [FormRow.Follows, deployment]) _ ?_
  simp [insertions, deploymentEntry, deployment, hkey]

/-- No list comes from no rows. -/
theorem no_rows_absent : ¬ RebuildsRows ["app", "deployments"] [] (map []) := by
  intro hrebuilds
  obtain ⟨tree, htree, hget⟩ := hrebuilds [] rfl
  obtain rfl := Except.ok.inj htree
  cases hget

end Seekwel.Model.ParamValue
