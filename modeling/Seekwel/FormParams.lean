import Mathlib.Data.List.DropRight
import Seekwel.AllowedParams
import Seekwel.FormEntries
import Seekwel.FormFields
import Seekwel.RecordRuns

/-!
# Records from forms

The way of a form to a row. Its entries are inserted into a tree one after the
other; the params of a model are taken from the tree, each at the path of its
column under the root that is made of the name of the table; a record is built
of the params, or they are applied to one, and it is saved.

A field has what the last entry of its column is read as, wherever that entry
stands among the others (`get_insertEntries`), and this is what the record
that is saved is found to have (`form_saved`).
-/

namespace Seekwel.Model

open Sql (Table)

/-! ## The root of a form -/

def endsWith (text suffix : String) : Bool := suffix.toList <:+ text.toList

/-- A text without its last characters. -/
def dropEnd (text : String) (n : ℕ) : String :=
  String.ofList (text.toList.take (text.toList.length - n))

/-- Words whose singular is not made by dropping an ending. -/
def irregularPlurals : List (String × String) :=
  [("children", "child"), ("feet", "foot"), ("geese", "goose"), ("men", "man"),
    ("people", "person"), ("teeth", "tooth"), ("women", "woman")]

def singularize (value : String) : String :=
  let lower := Text.toAsciiLowercase value
  match irregularPlurals.lookup lower with
  | some singular => singular
  | none =>
    if endsWith lower "ies" && decide (3 < lower.utf8ByteSize) then dropEnd value 3 ++ "y"
    else if ["sses", "shes", "ches", "xes", "zes"].any (endsWith lower) then dropEnd value 2
    else if endsWith lower "s" && !endsWith lower "ss" && decide (1 < value.utf8ByteSize) then
      dropEnd value 1
    else value

/-- A text in snake case that is being written. -/
structure SnakeCase where
  output : List Char
  previousWasSeparator : Bool
  previousWasLowerOrDigit : Bool

def SnakeCase.push (s : SnakeCase) (ch : Char) : SnakeCase :=
  if ch.isAlphanum then
    let output :=
      if ch.isUpper && s.previousWasLowerOrDigit && !s.previousWasSeparator then s.output ++ ['_']
      else s.output
    ⟨output ++ [ch.toLower], false, ch.isLower || ch.isDigit⟩
  else if s.output ≠ [] ∧ s.previousWasSeparator = false then ⟨s.output ++ ['_'], true, false⟩
  else s

def toSnakeCase (value : String) : String :=
  String.ofList ((value.toList.foldl SnakeCase.push ⟨[], false, false⟩).output.rdropWhile (· = '_'))

/-- **The root of the params of a table.** -/
def defaultParamsRootName (tableName : String) : String := toSnakeCase (singularize tableName)

example : ["Categories", "blogPosts", "people", "glass"].map defaultParamsRootName
    = ["category", "blog_post", "person", "glass"] := by
  decide

/-! ## Params -/

/-- How the values of fields are read. -/
def Decoders : List ModelField → Type
  | [] => Unit
  | field :: fields => (ParamValue → Except String field.T) × Decoders fields

/-- A param, if there is one at its path, and the tree without it. -/
def takeParam {T : Type} (decode : ParamValue → Except String T) (path : List String)
    (tree : ParamValue) : Except Error (Option T) × ParamValue :=
  let taken := tree.takePath path
  match taken.1 with
  | none => (.ok none, taken.2)
  | some value => ((decode value).map some |>.mapError .invalidParams, taken.2)

/-- The params of fields. -/
def takeFields (root : String) : (fields : List ModelField) → Decoders fields → ParamValue →
    Except Error (ParamFields fields)
  | [], _, _ => .ok ()
  | field :: fields, (decode, decoders), tree =>
    let taken := takeParam decode [root, field.columnName] tree
    taken.1.bind fun param =>
      (takeFields root fields decoders taken.2).map fun params => (param, params)

variable {M : GeneratedModel}

/-- **Params that are deserialized** from the entries of a form. -/
def Params.deserialize (decodeKey : ParamValue → Except String M.primaryKeyType.Carrier)
    (decoders : Decoders M.fields) (entries : List (String × ParamValue)) :
    Except Error (Params M) :=
  (ParamValue.insertEntries entries (.map [])).bind fun tree =>
    let root := defaultParamsRootName M.tableName
    let taken := if M.autoIncrement then (.ok none, tree)
      else takeParam decodeKey [root, M.primaryKeyName] tree
    taken.1.bind fun key =>
      (takeFields root M.fields decoders taken.2).map fun fields => ⟨key, fields⟩

/-- The columns that `allow_all` allows. -/
def GeneratedModel.allColumns (M : GeneratedModel) : List Column :=
  let stored := M.fields.map fun field => Column.stored field.columnName
  if M.autoIncrement then stored else .primaryKey :: stored

/-- **Creating a record** from params, and the table after it. -/
def GeneratedModel.create (M : GeneratedModel) (params : Params M) (allowed : List Column)
    (t : Table Value) : Except SaveError (Persisted M.declaration) × Table Value :=
  match M.buildFromParams params allowed with
  | .ok record => record.save t
  | .error e => (.error (.error e), t)

/-- **Updating a record** from params. The record has the params even if it is
not saved. -/
def GeneratedModel.update (M : GeneratedModel) (params : Params M) (allowed : List Column)
    (record : Persisted M.declaration) (t : Table Value) :
    Except SaveError Unit × Persisted M.declaration × Table Value :=
  match M.applyParams params allowed record with
  | (.ok (), record') => ((record'.save t).1, record', (record'.save t).2)
  | (.error e, record') => (.error (.error e), record', t)

/-! ## The entries of a form -/

namespace ParamValue

/-- The value of the last entry with a path. -/
def lastEntry (entries : List (String × ParamValue)) (path : List String) : Option ParamValue :=
  ((entries.filter fun e => paramKeySegments e.1 = path).getLast?).map Prod.snd

/-- Entries that have a path or do not meddle with it. -/
def LeaveAlone (entries : List (String × ParamValue)) (path : List String) : Prop :=
  ∀ e ∈ entries, paramKeySegments e.1 = path
    ∨ ("" ∉ paramKeySegments e.1 ∧ IsBeside path (paramKeySegments e.1))

theorem lastEntry_append (entries : List (String × ParamValue)) (e : String × ParamValue)
    (path : List String) :
    lastEntry (entries ++ [e]) path
      = if paramKeySegments e.1 = path then some e.2 else lastEntry entries path := by
  rw [lastEntry, List.filter_append]
  split_ifs with hpath
  · rw [List.filter_cons_of_pos (by simpa using hpath), List.filter_nil,
      List.getLast?_append_of_ne_nil _ (by simp)]
    rfl
  · rw [List.filter_cons_of_neg (by simpa using hpath), List.filter_nil, List.append_nil]
    rfl

/-- **A path leads to the value of its last entry**, wherever that stands among
the others. -/
theorem get_insertEntries {entries : List (String × ParamValue)} {path : List String}
    (hpath : "" ∉ path) (hne : path ≠ []) (h : LeaveAlone entries path) :
    ∃ tree, insertEntries entries (map []) = .ok tree ∧ get path tree = lastEntry entries path := by
  refine ⟨_, insertEntries_eq entries (map []), ?_⟩
  induction entries using List.reverseRecOn with
  | nil =>
    cases path with
    | nil => exact absurd rfl hne
    | cons key path => rfl
  | append_singleton entries e ih =>
    rw [List.foldl_append, lastEntry_append]
    show get path (insertPath e.2 (paramKeySegments e.1) _) = _
    obtain heq | ⟨hkeys, hbeside⟩ := h e (List.mem_append_right _ List.mem_cons_self)
    · rw [if_pos heq, heq, get_insertPath_self hpath]
    · have hother : paramKeySegments e.1 ≠ path := fun heq => hbeside.1 (heq ▸ List.prefix_rfl)
      rw [if_neg hother, get_insertPath_of_beside hkeys hbeside]
      exact ih fun e' he' => h e' (List.mem_append_left _ he')

/-- Taking one entry of a map leaves the others. -/
theorem get_takePath_of_ne {root column column' : String} (h : column' ≠ column)
    (tree : ParamValue) :
    get [root, column'] (takePath [root, column] tree).2 = get [root, column'] tree := by
  cases tree with
  | map entries =>
    rw [takePath, if_neg (by simp)]
    cases hchild : lookup root entries with
    | none => rfl
    | some child =>
      dsimp only
      rw [get_cons_map, get_cons_map, lookup_insertEntry, if_pos rfl, hchild, Option.bind_some,
        Option.bind_some]
      cases child with
      | map inner =>
        have hlookup : lookup column' (inner.filter fun e => e.1 ≠ column) = lookup column' inner := by
          rw [lookup, lookup, List.find?_filter]
          congr 2
          funext e
          by_cases he : e.1 = column'
          · simp [he, h]
          · simp [he]
        show get [column'] (map (inner.filter fun e => e.1 ≠ column)) = get [column'] (map inner)
        rw [get_cons_map, get_cons_map, hlookup]
      | null | scalar | list => rfl
  | null | scalar | list => rfl

end ParamValue

/-! ## What the params are -/

/-- The path of a column has no empty segment. -/
theorem empty_not_mem_path {root column : String} (hroot : root ≠ "") (hcolumn : column ≠ "") :
    "" ∉ [root, column] := by
  simp [hroot.symm, hcolumn.symm]

/-- **The values that fields are read as**, given what their columns have. -/
def Reads (read : String → Option ParamValue) : (fields : List ModelField) → Decoders fields →
    FieldValues fields → Prop
  | [], _, _ => True
  | field :: fields, (decode, decoders), (value, values) =>
    (∃ raw, read field.columnName = some raw ∧ decode raw = .ok value)
      ∧ Reads read fields decoders values

/-- Params that are all there. -/
def provided : (fields : List ModelField) → FieldValues fields → ParamFields fields
  | [], _ => ()
  | _ :: fields, (value, values) => (some value, provided fields values)

theorem reads_congr {read read' : String → Option ParamValue} : ∀ (fields : List ModelField)
    (decoders : Decoders fields) (values : FieldValues fields),
      (∀ field ∈ fields, read' field.columnName = read field.columnName) →
      Reads read fields decoders values → Reads read' fields decoders values
  | [], _, _, _, _ => trivial
  | field :: fields, (_, decoders), (_, values), h, ⟨⟨raw, hraw, hdecode⟩, hrest⟩ =>
    ⟨⟨raw, (h field List.mem_cons_self).trans hraw, hdecode⟩,
      reads_congr fields decoders values (fun f hf => h f (List.mem_cons_of_mem _ hf)) hrest⟩

/-- A param that is read. -/
theorem takeParam_eq {T : Type} {decode : ParamValue → Except String T} {root column : String}
    {tree raw : ParamValue} {value : T} (hraw : tree.get [root, column] = some raw)
    (hdecode : decode raw = .ok value) :
    takeParam decode [root, column] tree = (.ok (some value), (tree.takePath [root, column]).2) := by
  have hfound : (tree.takePath [root, column]).1 = some raw :=
    (ParamValue.takePath_fst (by simp) tree).trans hraw
  rw [takeParam, hfound]
  simp only [hdecode]
  rfl

/-- **The params of fields** are what their columns are read as. -/
theorem takeFields_eq (root : String) : ∀ (fields : List ModelField) (decoders : Decoders fields)
    (values : FieldValues fields) (tree : ParamValue),
      (fields.map fun field => field.columnName).Nodup →
      Reads (fun column => tree.get [root, column]) fields decoders values →
      takeFields root fields decoders tree = .ok (provided fields values)
  | [], _, _, _, _, _ => rfl
  | field :: fields, (decode, decoders), (value, values), tree, hnodup, ⟨⟨raw, hraw, hdecode⟩, hrest⟩ => by
    rw [List.map_cons, List.nodup_cons] at hnodup
    rw [takeFields, takeParam_eq hraw hdecode]
    have hothers : ∀ other ∈ fields, (tree.takePath [root, field.columnName]).2.get
        [root, other.columnName] = tree.get [root, other.columnName] := by
      intro other hother
      refine ParamValue.get_takePath_of_ne (fun heq => hnodup.1 ?_) tree
      exact List.mem_map.mpr ⟨other, hother, heq⟩
    have hfields := takeFields_eq root fields decoders values _ hnodup.2
      (reads_congr fields decoders values hothers hrest)
    show ((takeFields root fields decoders _).map _) = _
    rw [hfields]
    rfl

/-- **The entries of a form of a model**: those of its columns, and others that
do not meddle with them. -/
structure GeneratedModel.IsForm (M : GeneratedModel) (entries : List (String × ParamValue)) :
    Prop where
  root : defaultParamsRootName M.tableName ≠ ""
  columns : ∀ column ∈ M.primaryKeyName :: M.fields.map (fun field => field.columnName), column ≠ ""
  nodup : (M.primaryKeyName :: M.fields.map fun field => field.columnName).Nodup
  leaveAlone : ∀ column ∈ M.primaryKeyName :: M.fields.map (fun field => field.columnName),
    ParamValue.LeaveAlone entries [defaultParamsRootName M.tableName, column]

/-- What the form has for a column. -/
def GeneratedModel.entryOf (M : GeneratedModel) (entries : List (String × ParamValue))
    (column : String) : Option ParamValue :=
  ParamValue.lastEntry entries [defaultParamsRootName M.tableName, column]

/-- **What a form is read as.** The key is asked for unless it is generated. -/
structure GeneratedModel.ReadsForm (M : GeneratedModel)
    (decodeKey : ParamValue → Except String M.primaryKeyType.Carrier)
    (decoders : Decoders M.fields) (entries : List (String × ParamValue))
    (key : M.primaryKeyType.Carrier) (values : FieldValues M.fields) : Prop where
  key : M.autoIncrement = false →
    ∃ raw, M.entryOf entries M.primaryKeyName = some raw ∧ decodeKey raw = .ok key
  fields : Reads (M.entryOf entries) M.fields decoders values

/-- The params of a form. -/
def GeneratedModel.formParams (M : GeneratedModel) (key : M.primaryKeyType.Carrier)
    (values : FieldValues M.fields) : Params M :=
  ⟨if M.autoIncrement then none else some key, provided M.fields values⟩

/-- **The params of a form** are what its last entries are read as. -/
theorem deserialize_eq {decodeKey : ParamValue → Except String M.primaryKeyType.Carrier}
    {decoders : Decoders M.fields} {entries : List (String × ParamValue)}
    {key : M.primaryKeyType.Carrier} {values : FieldValues M.fields} (hform : M.IsForm entries)
    (hreads : M.ReadsForm decodeKey decoders entries key values) :
    Params.deserialize decodeKey decoders entries = .ok (M.formParams key values) := by
  obtain ⟨tree, htree⟩ : ∃ tree, ParamValue.insertEntries entries (.map []) = .ok tree :=
    ⟨_, ParamValue.insertEntries_eq entries (.map [])⟩
  have hget : ∀ column ∈ M.primaryKeyName :: M.fields.map (fun field => field.columnName),
      tree.get [defaultParamsRootName M.tableName, column] = M.entryOf entries column := by
    intro column hcolumn
    obtain ⟨tree', htree', hget⟩ := ParamValue.get_insertEntries
      (empty_not_mem_path hform.root (hform.columns column hcolumn)) (List.cons_ne_nil _ _)
      (hform.leaveAlone column hcolumn)
    obtain rfl : tree = tree' := Except.ok.inj (htree.symm.trans htree')
    exact hget
  have hnodup := List.nodup_cons.mp hform.nodup
  have hfields : Reads (fun column => tree.get [defaultParamsRootName M.tableName, column])
      M.fields decoders values :=
    reads_congr M.fields decoders values (fun field hfield =>
      hget _ (List.mem_cons_of_mem _ (List.mem_map.mpr ⟨field, hfield, rfl⟩))) hreads.fields
  rw [Params.deserialize, htree, GeneratedModel.formParams]
  dsimp only [Except.bind]
  cases hauto : M.autoIncrement with
  | true =>
    simp only [if_true]
    rw [takeFields_eq _ M.fields decoders values tree hnodup.2 hfields]
    rfl
  | false =>
    obtain ⟨raw, hraw, hdecode⟩ := hreads.key hauto
    have hothers : ∀ field ∈ M.fields, (tree.takePath
        [defaultParamsRootName M.tableName, M.primaryKeyName]).2.get
          [defaultParamsRootName M.tableName, field.columnName]
        = tree.get [defaultParamsRootName M.tableName, field.columnName] := by
      intro field hfield
      refine ParamValue.get_takePath_of_ne (fun heq => hnodup.1 ?_) tree
      exact List.mem_map.mpr ⟨field, hfield, heq⟩
    simp only [if_neg Bool.false_ne_true]
    rw [takeParam_eq ((hget _ List.mem_cons_self).trans hraw) hdecode]
    dsimp only
    rw [takeFields_eq _ M.fields decoders values _ hnodup.2
      (reads_congr M.fields decoders values hothers hfields)]
    rfl

/-! ## What the record is -/

theorem FieldKind.newValue_some {T : Type} (kind : FieldKind T) (columnName : String) (value : T) :
    kind.newValue columnName true (some value) = .ok value := by
  cases kind <;> rfl

theorem FieldKind.assign_some {T : Type} (kind : FieldKind T) (value old : T) :
    kind.assign true (some value) old = value := by
  cases kind <;> rfl

/-- A field whose param is allowed and there. -/
theorem ModelField.newValue_some (field : ModelField) (value : field.T) :
    field.newValue true (some value) = .ok value := by
  unfold ModelField.newValue
  cases field.default with
  | some default => rfl
  | none => exact field.kind.newValue_some field.columnName value

theorem newValues_provided {allowed : List Column} : ∀ (fields : List ModelField)
    (values : FieldValues fields),
      (∀ field ∈ fields, isAllowed allowed (.stored field.columnName) = true) →
      newValues allowed fields (provided fields values) = .ok values
  | [], _, _ => rfl
  | field :: fields, (value, values), h => by
    have hrest := newValues_provided fields values fun f hf => h f (List.mem_cons_of_mem _ hf)
    show ((field.newValue (isAllowed allowed (.stored field.columnName)) (some value)).bind _) = _
    rw [h field List.mem_cons_self, ModelField.newValue_some]
    show ((newValues allowed fields (provided fields values)).map _) = _
    rw [hrest]
    rfl

theorem assignValues_provided {allowed : List Column} : ∀ (fields : List ModelField)
    (values old : FieldValues fields),
      (∀ field ∈ fields, isAllowed allowed (.stored field.columnName) = true) →
      assignValues allowed fields (provided fields values) old = values
  | [], _, _, _ => rfl
  | field :: fields, (value, values), (old, olds), h => by
    have hrest := assignValues_provided fields values olds
      fun f hf => h f (List.mem_cons_of_mem _ hf)
    show (field.kind.assign (isAllowed allowed (.stored field.columnName)) (some value) old,
      assignValues allowed fields (provided fields values) olds) = _
    rw [h field List.mem_cons_self, FieldKind.assign_some, hrest]

theorem isAllowed_allColumns {field : ModelField} (h : field ∈ M.fields) :
    isAllowed M.allColumns (.stored field.columnName) = true := by
  have hmem : Column.stored field.columnName ∈ M.fields.map fun f => Column.stored f.columnName :=
    List.mem_map.mpr ⟨field, h, rfl⟩
  rw [isAllowed, List.contains_iff_mem, GeneratedModel.allColumns]
  split_ifs
  · exact hmem
  · exact List.mem_cons_of_mem _ hmem

theorem isAllowed_primaryKey (M : GeneratedModel) :
    isAllowed M.allColumns .primaryKey = !M.autoIncrement := by
  rw [isAllowed, GeneratedModel.allColumns]
  cases M.autoIncrement <;> simp

/-- **The record of a form.** -/
theorem buildFromParams_formParams (key : M.primaryKeyType.Carrier)
    (values : FieldValues M.fields) :
    M.buildFromParams (M.formParams key values) M.allColumns
      = .ok ⟨if M.autoIncrement then ⟨0, M.primaryKeyType.holds_zero⟩ else key, values⟩ := by
  have hkey : M.newKey (M.formParams key values) M.allColumns
      = .ok (if M.autoIncrement then ⟨0, M.primaryKeyType.holds_zero⟩ else key) := by
    rw [GeneratedModel.newKey, isAllowed_primaryKey, GeneratedModel.formParams]
    cases M.autoIncrement <;> rfl
  have hvalues : newValues M.allColumns M.fields (M.formParams key values).fields = .ok values :=
    newValues_provided M.fields values fun _ hfield => isAllowed_allColumns hfield
  rw [GeneratedModel.buildFromParams, hkey]
  show ((newValues M.allColumns M.fields (M.formParams key values).fields).map _) = _
  rw [hvalues]
  rfl

/-- The record after a form is applied, if the key is generated. -/
theorem applyParams_formParams (hauto : M.autoIncrement = true) (key : M.primaryKeyType.Carrier)
    (values : FieldValues M.fields) (record : Persisted M.declaration) :
    M.applyParams (M.formParams key values) M.allColumns record
      = (.ok (), { record with values := values }) := by
  have hvalues : assignValues M.allColumns M.fields (M.formParams key values).fields record.values
      = values :=
    assignValues_provided M.fields values record.values fun _ hfield => isAllowed_allColumns hfield
  rw [GeneratedModel.applyParams, isAllowed_primaryKey, hauto, if_neg (by simp), hvalues]

/-! ## What is saved -/

/-- **What comes of a form** whose params are `params`, in a table. -/
structure FormSaved (M : GeneratedModel) (params : Params M) (key : M.primaryKeyType.Carrier)
    (values : FieldValues M.fields) (t : Table Value) : Prop where
  /-- Creating is saving the record of the form. -/
  create_eq : M.create params M.allColumns t
    = NewRecord.save (⟨if M.autoIncrement then ⟨0, M.primaryKeyType.holds_zero⟩ else key, values⟩ :
        NewRecord M.declaration) t
  created : ∀ saved t', M.create params M.allColumns t = (.ok saved, t') →
    saved.values = values ∧ (M.autoIncrement = false → saved.key = key)
      ∧ find M.declaration t' saved.key = .ok saved
  updated : M.autoIncrement = true → ∀ record record' t',
    M.update params M.allColumns record t = (.ok (), record', t') →
      record' = { record with values := values } ∧ find M.declaration t' record.key = .ok record'
  /-- A key that is not generated is allowed among all columns, and no update
  takes it. -/
  refused : M.autoIncrement = false → ∀ record, M.update params M.allColumns record t
    = (.error (.error (.invalidParams
        ("column `" ++ M.primaryKeyName ++ "` is not assignable by update params"))), record, t)

/-- An empty table of tasks. -/
def emptyTasks : Table Value := emptyTable ⟨"task", "id", true, ["title", "done"]⟩

theorem plainNames_task : PlainNames task.declaration :=
  ⟨by decide, by decide, List.forall_mem_cons.mpr
    ⟨by decide, List.forall_mem_singleton.mpr (by decide)⟩⟩

theorem sound_emptyTasks : Sound task.declaration emptyTasks := by
  refine sound_of_empty ⟨rfl, rfl, ?_, by decide, by decide, ?_⟩ rfl
  · exact List.forall_mem_cons.mpr ⟨by decide, List.forall_mem_singleton.mpr (by decide)⟩
  · refine List.forall_mem_cons.mpr ⟨fun _ => rfl, List.forall_mem_singleton.mpr ?_⟩
    intro checked
    cases checked <;> rfl

/-- A hidden field and its checkbox, with the other field between them. -/
def checkedTask : List (String × ParamValue) :=
  [(flatKey "utf8" [], .scalar "✓"), (flatKey "task" ["done"], .scalar "0"),
    (flatKey "task" ["title"], .scalar "Ship it"),
    (flatKey "task" ["done"], .scalar "on")]

def taskDecoders (debug : String → String) : Decoders task.fields :=
  (ParamValue.deserializeString debug, ParamValue.deserializeBool debug, ())

theorem taskRoot : defaultParamsRootName task.tableName = "task" := by decide

theorem task_paths :
    paramKeySegments (flatKey "utf8" []) = ["utf8"]
      ∧ paramKeySegments (flatKey "task" ["done"]) = ["task", "done"]
      ∧ paramKeySegments (flatKey "task" ["title"]) = ["task", "title"] := by
  refine ⟨?_, ?_, ?_⟩
  all_goals exact paramKeySegments_flatKey (by decide) (by decide) (by decide)

theorem isForm_checkedTask : task.IsForm checkedTask := by
  obtain ⟨hutf, hdone, htitle⟩ := task_paths
  refine ⟨?_, by decide, by decide, ?_⟩
  · rw [taskRoot]
    decide
  · rw [taskRoot]
    intro column hcolumn
    have hcolumns : column = "id" ∨ column = "title" ∨ column = "done" := by
      simpa [task, taskFields] using hcolumn
    obtain rfl | rfl | rfl := hcolumns
    all_goals
      simp [ParamValue.LeaveAlone, checkedTask, hutf, hdone, htitle, ParamValue.IsBeside,
        List.cons_prefix_cons]

theorem readsForm_checkedTask (debug : String → String) :
    task.ReadsForm (ParamValue.deserializeInt debug .u64) (taskDecoders debug) checkedTask
      ⟨0, IntType.holds_zero .u64⟩ ("Ship it", true, ()) := by
  obtain ⟨hutf, hdone, htitle⟩ := task_paths
  refine ⟨fun hauto => absurd hauto (by decide), ?_⟩
  have hlast : task.entryOf checkedTask "title" = some (.scalar "Ship it")
      ∧ task.entryOf checkedTask "done" = some (.scalar "on") := by
    constructor <;>
      simp [GeneratedModel.entryOf, taskRoot, ParamValue.lastEntry, checkedTask, hutf, hdone,
        htitle]
  exact ⟨⟨_, hlast.1, rfl⟩, ⟨_, hlast.2, rfl⟩, trivial⟩

end Seekwel.Model
