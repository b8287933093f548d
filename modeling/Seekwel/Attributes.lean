import Seekwel.Desired
import Seekwel.Error
import Seekwel.OptionLists

/-!
# The attributes of a declaration

What the macros read of the attributes of a struct and of its fields. A field
may have its attributes in two spellings, `#[index]` and `#[seekwel(index)]`.
The attribute macro rewrites the first as the second, as the derive macro only
sees a `#[seekwel(..)]` that stands on the struct and its fields
(`normalizeFieldAttrs`), and the derive macro reads both (`fieldAttrs`).

What an attribute declares is a list of options, whatever its spelling
(`Attribute.Declares`). A field is read exactly if no option is declared
twice (`fieldAttrs_eq_ok_iff`), and rewriting it keeps its options
(`normalizeAttr_declares`).
-/

namespace Seekwel.Macro

/-! ## Syntax -/

/-- A segment of the path of a value. -/
structure PathSegment where
  /-- The identifier, with its `r#`. -/
  ident : String
  hasArguments : Bool
  deriving DecidableEq

/-- The path of a value. -/
structure Path where
  leadingColon : Bool
  segments : List PathSegment
  deriving DecidableEq

/-- **A Rust expression**, as far as an attribute is read. -/
inductive Expr where
  | lit (literal : Lit)
  | path (qself : Bool) (name : Path)
  | paren (expr : Expr)
  | group (expr : Expr)
  | unary (neg : Bool) (expr : Expr)
  | call (func : Expr) (args : List Expr)
  | other

/-- What follows the path of an option. -/
inductive OptionValue where
  | absent
  | assigned (value : Expr)
  /-- It is no expression after a `=`. -/
  | garbled

/-- An option in the parentheses of an attribute. The path is empty if it is
no identifier. -/
structure NestedMeta where
  path : String
  value : OptionValue

/-- Options in parentheses, and whether they are all there is. -/
structure NestedMetas where
  items : List NestedMeta
  readable : Bool

/-- What an attribute has besides its path. -/
inductive Meta where
  | path
  | list (metas : NestedMetas)
  | nameValue (value : Expr)

/-- **An attribute.** Its path is empty if it is no identifier. -/
structure Attribute where
  path : String
  content : Meta

/-- Why a declaration is refused. -/
inductive MacroError where
  | message (text : String)
  /-- An attribute is no attribute of this form. -/
  | malformed
  deriving DecidableEq

/-- An identifier without its `r#`. -/
def identName (ident : String) : String :=
  if Text.startsWith ident "r#" then String.ofList (ident.toList.drop 2) else ident

/-- Whether an expression is this identifier. -/
def Expr.isIdent (expr : Expr) (ident : String) : Bool :=
  match expr with
  | .path false ⟨false, [segment]⟩ => decide (segment = ⟨ident, false⟩)
  | _ => false

/-- An expression, as far as a default is made of it. -/
def Expr.asDefault : Expr → Seekwel.Expr
  | .lit literal => .lit literal
  | .paren expr => .paren expr.asDefault
  | .group expr => .group expr.asDefault
  | .unary true expr => .neg expr.asDefault
  | .call func [arg] => if func.isIdent "Some" then .callSome arg.asDefault else .other
  | .path qself name => if (Expr.path qself name).isIdent "None" then .pathNone else .other
  | _ => .other

/-! ## The options of a field -/

/-- What the derive macro knows of the attributes of a field. -/
structure FieldAttrs where
  key : Option String
  indexed : Bool
  unique : Bool
  defaultValue : Option Expr

def FieldAttrs.default : FieldAttrs := ⟨none, false, false, none⟩

def noColumnIdentifier : MacroError :=
  .message "association keys must be column identifiers like owner_id"

def keyNameFromExpr (expr : Expr) : Except MacroError String :=
  let key : Except MacroError String := match expr with
    | .path false ⟨false, [segment]⟩ =>
      if segment.hasArguments then .error noColumnIdentifier else .ok (identName segment.ident)
    | .lit (.str value) => .ok value
    | _ => .error noColumnIdentifier
  key.bind fun key =>
    if key = "" then .error (.message "association key column names cannot be empty") else .ok key

def keyAttrValue (attr : Attribute) : Except MacroError String :=
  match attr.content with
  | .nameValue value => keyNameFromExpr value
  | _ => .error (.message "association keys must be written as #[key = column_name]")

def defaultAttrValue (attr : Attribute) : Except MacroError Expr :=
  match attr.content with
  | .nameValue value => .ok value
  | _ => .error (.message "defaults must be written as #[default = value]")

/-- An attribute that is a path only. -/
def pathAttr (attr : Attribute) (message : String) : Except MacroError Unit :=
  match attr.content with
  | .path => .ok ()
  | _ => .error (.message message)

def indexAttr (attr : Attribute) : Except MacroError Unit :=
  pathAttr attr "indexes must be written as #[index]"

def uniqueAttr (attr : Attribute) : Except MacroError Unit :=
  pathAttr attr "unique indexes must be written as #[unique]"

def setKeyAttr (attrs : FieldAttrs) (value : String) : Except MacroError FieldAttrs :=
  if attrs.key.isSome then .error (.message "duplicate `key` attribute")
  else .ok { attrs with key := some value }

def setIndexAttr (attrs : FieldAttrs) : Except MacroError FieldAttrs :=
  if attrs.indexed then .error (.message "duplicate `index` attribute")
  else .ok { attrs with indexed := true }

def setUniqueAttr (attrs : FieldAttrs) : Except MacroError FieldAttrs :=
  if attrs.unique then .error (.message "duplicate `unique` attribute")
  else .ok { attrs with unique := true }

def setDefaultAttr (attrs : FieldAttrs) (value : Expr) : Except MacroError FieldAttrs :=
  if attrs.defaultValue.isSome then .error (.message "duplicate `default` attribute")
  else .ok { attrs with defaultValue := some value }

/-- The expression that is assigned to an option. -/
def OptionValue.expr : OptionValue → Except MacroError Expr
  | .assigned value => .ok value
  | _ => .error .malformed

/-- Nothing follows an option that has no value. -/
def OptionValue.end (value : OptionValue) (attrs : FieldAttrs) : Except MacroError FieldAttrs :=
  match value with
  | .absent => .ok attrs
  | _ => .error .malformed

/-- An option of a field. -/
def fieldOption (attrs : FieldAttrs) (option : NestedMeta) : Except MacroError FieldAttrs :=
  if option.path = "key" then
    (option.value.expr.bind keyNameFromExpr).bind (setKeyAttr attrs)
  else if option.path = "index" then (setIndexAttr attrs).bind option.value.end
  else if option.path = "unique" then (setUniqueAttr attrs).bind option.value.end
  else if option.path = "default" then option.value.expr.bind (setDefaultAttr attrs)
  else .error (.message
    "unsupported seekwel field option; expected `key`, `index`, `unique`, or `default`")

/-- **The options in parentheses**, one after another. -/
def parseNestedMeta {α : Type} (step : α → NestedMeta → Except MacroError α) (metas : NestedMetas)
    (a : α) : Except MacroError α :=
  (metas.items.foldlM step a).bind fun a => if metas.readable then .ok a else .error .malformed

/-- The `#[seekwel(..)]` of a field. -/
def seekwelAttr {α : Type} (step : α → NestedMeta → Except MacroError α) (attr : Attribute) (a : α) :
    Except MacroError α :=
  match attr.content with
  | .list metas => parseNestedMeta step metas a
  | _ => .error .malformed

/-- An attribute of a field, as the derive macro reads it. -/
def fieldAttr (attrs : FieldAttrs) (attr : Attribute) : Except MacroError FieldAttrs :=
  if attr.path = "key" then (keyAttrValue attr).bind (setKeyAttr attrs)
  else if attr.path = "index" then (indexAttr attr).bind fun _ => setIndexAttr attrs
  else if attr.path = "unique" then (uniqueAttr attr).bind fun _ => setUniqueAttr attrs
  else if attr.path = "default" then (defaultAttrValue attr).bind (setDefaultAttr attrs)
  else if attr.path = "seekwel" then seekwelAttr fieldOption attr attrs
  else .ok attrs

/-- **The attributes of a field**, as the derive macro reads them. -/
def fieldAttrs (attrs : List Attribute) : Except MacroError FieldAttrs :=
  attrs.foldlM fieldAttr .default

/-! ## Rewriting the attributes -/

/-- `#[seekwel(path value)]`. -/
def seekwelOption (path : String) (value : OptionValue) : Attribute :=
  ⟨"seekwel", .list ⟨[⟨path, value⟩], true⟩⟩

/-- An attribute of a field, as the attribute macro rewrites it. -/
def normalizeAttr (attr : Attribute) : Except MacroError Attribute :=
  if attr.path = "key" then
    (keyAttrValue attr).map fun key => seekwelOption "key" (.assigned (.lit (.str key)))
  else if attr.path = "index" then (indexAttr attr).map fun _ => seekwelOption "index" .absent
  else if attr.path = "unique" then (uniqueAttr attr).map fun _ => seekwelOption "unique" .absent
  else if attr.path = "default" then
    (defaultAttrValue attr).map fun value => seekwelOption "default" (.assigned value)
  else .ok attr

/-- **The attributes of a field**, as the attribute macro rewrites them. -/
def normalizeAttrs (attrs : List Attribute) : Except MacroError (List Attribute) :=
  attrs.mapM normalizeAttr

/-! ## What is declared -/

open OptionLists (Declared)

/-- **What an attribute of a field may declare.** -/
inductive FieldOption where
  | key (column : String)
  | index
  | unique
  | default (value : Expr)

namespace FieldOption

def name : FieldOption → String
  | key _ => "key"
  | index => "index"
  | unique => "unique"
  | default _ => "default"

def key? : FieldOption → Option String
  | key column => some column
  | _ => none

def default? : FieldOption → Option Expr
  | default value => some value
  | _ => none

/-- The options of a field, together. -/
def collect (options : List FieldOption) : FieldAttrs where
  key := options.findSome? key?
  indexed := decide ("index" ∈ options.map name)
  unique := decide ("unique" ∈ options.map name)
  defaultValue := options.findSome? default?

/-- An option is set. -/
def set (attrs : FieldAttrs) : FieldOption → Except MacroError FieldAttrs
  | key column => setKeyAttr attrs column
  | index => setIndexAttr attrs
  | unique => setUniqueAttr attrs
  | default value => setDefaultAttr attrs value

/-- The error for an option that is declared twice. -/
def duplicate (option : FieldOption) : MacroError :=
  .message ("duplicate `" ++ option.name ++ "` attribute")

theorem isSome_key_iff (options : List FieldOption) :
    (options.findSome? key?).isSome = true ↔ "key" ∈ options.map name := by
  rw [List.isSome_findSome?, List.any_eq_true, List.mem_map]
  refine exists_congr fun option => and_congr_right fun _ => ?_
  cases option <;> simp [key?, name]

theorem isSome_default_iff (options : List FieldOption) :
    (options.findSome? default?).isSome = true ↔ "default" ∈ options.map name := by
  rw [List.isSome_findSome?, List.any_eq_true, List.mem_map]
  refine exists_congr fun option => and_congr_right fun _ => ?_
  cases option <;> simp [default?, name]

/-- What one more option adds. -/
theorem collect_append (options : List FieldOption) (option : FieldOption) :
    collect (options ++ [option])
      = { key := (options.findSome? key?).or option.key?
          indexed := (collect options).indexed || decide ("index" = option.name)
          unique := (collect options).unique || decide ("unique" = option.name)
          defaultValue := (options.findSome? default?).or option.default? } := by
  simp [collect, Bool.decide_or]

/-- **Setting one more option** fails exactly if it has been declared. -/
theorem set_collect (options : List FieldOption) (option : FieldOption) :
    set (collect options) option
      = if option.name ∈ options.map name then .error option.duplicate
        else .ok (collect (options ++ [option])) := by
  rw [collect_append]
  by_cases hmem : option.name ∈ options.map name
  · rw [if_pos hmem]
    cases option with
    | key column => exact if_pos ((isSome_key_iff options).mpr hmem)
    | index => exact if_pos (decide_eq_true hmem)
    | unique => exact if_pos (decide_eq_true hmem)
    | default value => exact if_pos ((isSome_default_iff options).mpr hmem)
  · rw [if_neg hmem]
    cases option with
    | key column =>
      have hnone : ¬(options.findSome? key?).isSome = true :=
        fun h => hmem ((isSome_key_iff options).mp h)
      rw [set, setKeyAttr, if_neg (show ¬(collect options).key.isSome = true from hnone),
        Option.not_isSome_iff_eq_none.mp hnone]
      simp [collect, key?, default?, name]
    | index =>
      rw [set, setIndexAttr, if_neg fun h : (collect options).indexed = true =>
        hmem (of_decide_eq_true h)]
      simp [collect, key?, default?, name]
    | unique =>
      rw [set, setUniqueAttr, if_neg fun h : (collect options).unique = true =>
        hmem (of_decide_eq_true h)]
      simp [collect, key?, default?, name]
    | default value =>
      have hnone : ¬(options.findSome? default?).isSome = true :=
        fun h => hmem ((isSome_default_iff options).mp h)
      rw [set, setDefaultAttr,
        if_neg (show ¬(collect options).defaultValue.isSome = true from hnone),
        Option.not_isSome_iff_eq_none.mp hnone]
      simp [collect, key?, default?, name]

theorem foldlM_set_singleton (attrs : FieldAttrs) (option : FieldOption) :
    [option].foldlM set attrs = set attrs option := by
  rw [List.foldlM_cons]
  cases set attrs option <;> rfl

/-- An item that declares a single option. -/
theorem exists_set {ι : Type} {declares : ι → List FieldOption → Prop} {item : ι}
    {attrs b : FieldAttrs} (option : FieldOption) (h : declares item [option])
    (hset : set attrs option = .ok b) :
    ∃ os, declares item os ∧ os.foldlM set attrs = .ok b :=
  ⟨_, h, (foldlM_set_singleton attrs option).trans hset⟩

end FieldOption

/-- An option in parentheses that a field may have. -/
inductive NestedMeta.Declares : NestedMeta → List FieldOption → Prop
  | key {value : Expr} {column : String} (h : keyNameFromExpr value = .ok column) :
      Declares ⟨"key", .assigned value⟩ [.key column]
  | index : Declares ⟨"index", .absent⟩ [.index]
  | unique : Declares ⟨"unique", .absent⟩ [.unique]
  | default (value : Expr) : Declares ⟨"default", .assigned value⟩ [.default value]

/-- The attributes that the macros read. -/
def fieldAttributes : List String := ["key", "index", "unique", "default", "seekwel"]

/-- **What an attribute of a field declares**, in either spelling. -/
inductive Attribute.Declares : Attribute → List FieldOption → Prop
  | key {value : Expr} {column : String} (h : keyNameFromExpr value = .ok column) :
      Declares ⟨"key", .nameValue value⟩ [.key column]
  | index : Declares ⟨"index", .path⟩ [.index]
  | unique : Declares ⟨"unique", .path⟩ [.unique]
  | default (value : Expr) : Declares ⟨"default", .nameValue value⟩ [.default value]
  | seekwel {items : List NestedMeta} {options : List FieldOption}
      (h : Declared NestedMeta.Declares items options) :
      Declares ⟨"seekwel", .list ⟨items, true⟩⟩ options
  | other {path : String} {content : Meta} (h : path ∉ fieldAttributes) :
      Declares ⟨path, content⟩ []

theorem NestedMeta.declares_iff {path : String} {value : OptionValue} {os : List FieldOption} :
    (⟨path, value⟩ : NestedMeta).Declares os
      ↔ (path = "key" ∧ ∃ expr column, value = .assigned expr
            ∧ keyNameFromExpr expr = .ok column ∧ os = [.key column])
        ∨ (path = "index" ∧ value = .absent ∧ os = [.index])
        ∨ (path = "unique" ∧ value = .absent ∧ os = [.unique])
        ∨ (path = "default" ∧ ∃ expr, value = .assigned expr ∧ os = [.default expr]) := by
  constructor
  · intro h
    cases h with
    | key hname => exact Or.inl ⟨rfl, _, _, rfl, hname, rfl⟩
    | index => exact Or.inr (Or.inl ⟨rfl, rfl, rfl⟩)
    | unique => exact Or.inr (Or.inr (Or.inl ⟨rfl, rfl, rfl⟩))
    | default value => exact Or.inr (Or.inr (Or.inr ⟨rfl, _, rfl, rfl⟩))
  · rintro (⟨rfl, expr, column, rfl, hname, rfl⟩ | ⟨rfl, rfl, rfl⟩ | ⟨rfl, rfl, rfl⟩
      | ⟨rfl, expr, rfl, rfl⟩)
    · exact .key hname
    · exact .index
    · exact .unique
    · exact .default expr

theorem Attribute.declares_iff {path : String} {content : Meta} {os : List FieldOption} :
    (⟨path, content⟩ : Attribute).Declares os
      ↔ (path = "key" ∧ ∃ expr column, content = .nameValue expr
            ∧ keyNameFromExpr expr = .ok column ∧ os = [.key column])
        ∨ (path = "index" ∧ content = .path ∧ os = [.index])
        ∨ (path = "unique" ∧ content = .path ∧ os = [.unique])
        ∨ (path = "default" ∧ ∃ expr, content = .nameValue expr ∧ os = [.default expr])
        ∨ (path = "seekwel" ∧ ∃ items, content = .list ⟨items, true⟩
            ∧ Declared NestedMeta.Declares items os)
        ∨ (path ∉ fieldAttributes ∧ os = []) := by
  constructor
  · intro h
    cases h with
    | key hname => exact Or.inl ⟨rfl, _, _, rfl, hname, rfl⟩
    | index => exact Or.inr (Or.inl ⟨rfl, rfl, rfl⟩)
    | unique => exact Or.inr (Or.inr (Or.inl ⟨rfl, rfl, rfl⟩))
    | default value => exact Or.inr (Or.inr (Or.inr (Or.inl ⟨rfl, _, rfl, rfl⟩)))
    | seekwel hitems => exact Or.inr (Or.inr (Or.inr (Or.inr (Or.inl ⟨rfl, _, rfl, hitems⟩))))
    | other hother => exact Or.inr (Or.inr (Or.inr (Or.inr (Or.inr ⟨hother, rfl⟩))))
  · rintro (⟨rfl, expr, column, rfl, hname, rfl⟩ | ⟨rfl, rfl, rfl⟩ | ⟨rfl, rfl, rfl⟩
      | ⟨rfl, expr, rfl, rfl⟩ | ⟨rfl, items, rfl, hitems⟩ | ⟨hother, rfl⟩)
    · exact .key hname
    · exact .index
    · exact .unique
    · exact .default expr
    · exact .seekwel hitems
    · exact .other hother

/-! ## Reading what is declared -/

theorem bind_eq_ok_iff {ε α β : Type} {x : Except ε α} {f : α → Except ε β} {b : β} :
    x.bind f = .ok b ↔ ∃ a, x = .ok a ∧ f a = .ok b := by
  refine ⟨bind_eq_ok, ?_⟩
  rintro ⟨a, rfl, h⟩
  exact h

/-- **An option in parentheses** is read as what it declares. -/
theorem fieldOption_eq_ok_iff (attrs : FieldAttrs) (option : NestedMeta) (b : FieldAttrs) :
    fieldOption attrs option = .ok b
      ↔ ∃ os, option.Declares os ∧ os.foldlM FieldOption.set attrs = .ok b := by
  constructor
  · intro h
    obtain ⟨path, value⟩ := option
    unfold fieldOption at h
    dsimp only at h
    split_ifs at h with hkey hindex hunique hdefault
    · obtain ⟨column, hcolumn, hset⟩ := bind_eq_ok h
      obtain ⟨expr, hexpr, hname⟩ := bind_eq_ok hcolumn
      cases value <;> cases hexpr
      subst hkey
      exact FieldOption.exists_set (.key column) (.key hname) hset
    · obtain ⟨c, hset, hend⟩ := bind_eq_ok h
      cases value <;> cases hend
      subst hindex
      exact FieldOption.exists_set .index .index hset
    · obtain ⟨c, hset, hend⟩ := bind_eq_ok h
      cases value <;> cases hend
      subst hunique
      exact FieldOption.exists_set .unique .unique hset
    · obtain ⟨expr, hexpr, hset⟩ := bind_eq_ok h
      cases value <;> cases hexpr
      subst hdefault
      exact FieldOption.exists_set (.default expr) (.default expr) hset
  · rintro ⟨os, hdeclares, hset⟩
    cases hdeclares with
    | key hname =>
      rw [FieldOption.foldlM_set_singleton] at hset
      rw [fieldOption, if_pos rfl]
      exact bind_eq_ok_iff.mpr ⟨_, hname, hset⟩
    | index =>
      rw [FieldOption.foldlM_set_singleton] at hset
      rw [fieldOption, if_neg (by decide), if_pos rfl]
      exact bind_eq_ok_iff.mpr ⟨_, hset, rfl⟩
    | unique =>
      rw [FieldOption.foldlM_set_singleton] at hset
      rw [fieldOption, if_neg (by decide), if_neg (by decide), if_pos rfl]
      exact bind_eq_ok_iff.mpr ⟨_, hset, rfl⟩
    | default value =>
      rw [FieldOption.foldlM_set_singleton] at hset
      rw [fieldOption, if_neg (show ¬"default" = "key" by decide),
        if_neg (show ¬"default" = "index" by decide), if_neg (show ¬"default" = "unique" by decide),
        if_pos rfl]
      exact hset

/-- The options in parentheses. -/
theorem parseNestedMeta_eq_ok_iff {α ο : Type} {step : α → NestedMeta → Except MacroError α}
    {set : α → ο → Except MacroError α} {declares : NestedMeta → List ο → Prop}
    (hstep : ∀ a item b, step a item = .ok b ↔ ∃ os, declares item os ∧ os.foldlM set a = .ok b)
    (metas : NestedMetas) (a b : α) :
    parseNestedMeta step metas a = .ok b
      ↔ metas.readable = true ∧ ∃ os, Declared declares metas.items os ∧ os.foldlM set a = .ok b := by
  rw [parseNestedMeta, ← OptionLists.foldlM_eq_ok_iff_set hstep, bind_eq_ok_iff]
  constructor
  · rintro ⟨c, hc, h⟩
    split_ifs at h with hreadable
    cases h
    exact ⟨hreadable, hc⟩
  · rintro ⟨hreadable, hc⟩
    exact ⟨b, hc, if_pos hreadable⟩

/-- **An attribute of a field** is read as what it declares. -/
theorem fieldAttr_eq_ok_iff (attrs : FieldAttrs) (attr : Attribute) (b : FieldAttrs) :
    fieldAttr attrs attr = .ok b
      ↔ ∃ os, attr.Declares os ∧ os.foldlM FieldOption.set attrs = .ok b := by
  constructor
  · intro h
    obtain ⟨path, content⟩ := attr
    unfold fieldAttr at h
    dsimp only at h
    split_ifs at h with hkey hindex hunique hdefault hseekwel
    · obtain ⟨column, hcolumn, hset⟩ := bind_eq_ok h
      cases content with
      | nameValue value =>
        subst hkey
        exact FieldOption.exists_set (.key column) (.key hcolumn) hset
      | path => cases hcolumn
      | list metas => cases hcolumn
    · obtain ⟨⟨⟩, hpath, hset⟩ := bind_eq_ok h
      cases content <;> cases hpath
      subst hindex
      exact FieldOption.exists_set .index .index hset
    · obtain ⟨⟨⟩, hpath, hset⟩ := bind_eq_ok h
      cases content <;> cases hpath
      subst hunique
      exact FieldOption.exists_set .unique .unique hset
    · obtain ⟨value, hvalue, hset⟩ := bind_eq_ok h
      cases content <;> cases hvalue
      subst hdefault
      exact FieldOption.exists_set (.default value) (.default value) hset
    · cases content with
      | list metas =>
        obtain ⟨hreadable, os, hos, hset⟩ :=
          (parseNestedMeta_eq_ok_iff fieldOption_eq_ok_iff metas attrs b).mp h
        obtain ⟨items, readable⟩ := metas
        obtain rfl : readable = true := hreadable
        subst hseekwel
        exact ⟨os, .seekwel hos, hset⟩
      | path => cases h
      | nameValue value => cases h
    · refine ⟨[], .other ?_, h⟩
      simp [fieldAttributes, hkey, hindex, hunique, hdefault, hseekwel]
  · rintro ⟨os, hdeclares, hset⟩
    cases hdeclares with
    | key hname =>
      rw [FieldOption.foldlM_set_singleton] at hset
      rw [fieldAttr, if_pos rfl]
      exact bind_eq_ok_iff.mpr ⟨_, hname, hset⟩
    | index =>
      rw [FieldOption.foldlM_set_singleton] at hset
      rw [fieldAttr, if_neg (by decide), if_pos rfl]
      exact hset
    | unique =>
      rw [FieldOption.foldlM_set_singleton] at hset
      rw [fieldAttr, if_neg (by decide), if_neg (by decide), if_pos rfl]
      exact hset
    | default value =>
      rw [FieldOption.foldlM_set_singleton] at hset
      rw [fieldAttr, if_neg (show ¬"default" = "key" by decide),
        if_neg (show ¬"default" = "index" by decide), if_neg (show ¬"default" = "unique" by decide),
        if_pos rfl]
      exact hset
    | seekwel hos =>
      rw [fieldAttr, if_neg (show ¬"seekwel" = "key" by decide),
        if_neg (show ¬"seekwel" = "index" by decide), if_neg (show ¬"seekwel" = "unique" by decide),
        if_neg (show ¬"seekwel" = "default" by decide), if_pos rfl]
      exact (parseNestedMeta_eq_ok_iff fieldOption_eq_ok_iff ..).mpr ⟨rfl, os, hos, hset⟩
    | other hpath =>
      simp only [fieldAttributes, List.mem_cons, List.not_mem_nil, or_false, not_or] at hpath
      obtain ⟨hkey, hindex, hunique, hdefault, hseekwel⟩ := hpath
      rw [fieldAttr, if_neg hkey, if_neg hindex, if_neg hunique, if_neg hdefault,
        if_neg hseekwel]
      exact hset

/-- **The attributes of a field** are read exactly if each of them declares
its options and none is declared twice. -/
theorem fieldAttrs_eq_ok_iff (as : List Attribute) (attrs : FieldAttrs) :
    fieldAttrs as = .ok attrs
      ↔ ∃ os, Declared Attribute.Declares as os ∧ (os.map FieldOption.name).Nodup
        ∧ attrs = FieldOption.collect os :=
  OptionLists.foldlM_eq_ok_iff fieldAttr_eq_ok_iff FieldOption.set_collect as

/-! ## Rewriting what is declared -/

/-- An attribute that is rewritten. -/
def Attribute.IsWritten (attr : Attribute) : Prop := ∃ attr', normalizeAttr attr = .ok attr'

theorem keyNameFromExpr_str {expr : Expr} {column : String} (h : keyNameFromExpr expr = .ok column) :
    keyNameFromExpr (.lit (.str column)) = .ok column := by
  obtain ⟨name, -, hname⟩ := bind_eq_ok h
  split_ifs at hname with hempty
  cases hname
  exact if_neg hempty

/-- What a single option in parentheses declares. -/
theorem seekwelOption_declares_iff {path : String} {value : OptionValue} {os : List FieldOption} :
    (seekwelOption path value).Declares os ↔ (⟨path, value⟩ : NestedMeta).Declares os := by
  have hsingle : Declared NestedMeta.Declares [⟨path, value⟩] os
      ↔ (⟨path, value⟩ : NestedMeta).Declares os := by
    simp [OptionLists.declared_cons_iff, OptionLists.declared_nil_iff]
  rw [seekwelOption, Attribute.declares_iff, ← hsingle]
  simp [fieldAttributes]

/-- **Rewriting an attribute keeps what it declares.** -/
theorem normalizeAttr_declares {attr attr' : Attribute} (h : normalizeAttr attr = .ok attr')
    (os : List FieldOption) : attr.Declares os ↔ attr'.Declares os := by
  obtain ⟨path, content⟩ := attr
  unfold normalizeAttr at h
  dsimp only at h
  split_ifs at h with hkey hindex hunique hdefault
  · obtain ⟨column, hcolumn, rfl⟩ := map_eq_ok h
    cases content with
    | nameValue value =>
      have hvalue : keyNameFromExpr value = .ok column := hcolumn
      rw [seekwelOption_declares_iff, NestedMeta.declares_iff, Attribute.declares_iff]
      simp [fieldAttributes, hkey, hvalue, keyNameFromExpr_str hvalue]
    | path => cases hcolumn
    | list metas => cases hcolumn
  · obtain ⟨⟨⟩, hpath, rfl⟩ := map_eq_ok h
    cases content <;> cases hpath
    rw [seekwelOption_declares_iff, NestedMeta.declares_iff, Attribute.declares_iff]
    simp [fieldAttributes, hindex]
  · obtain ⟨⟨⟩, hpath, rfl⟩ := map_eq_ok h
    cases content <;> cases hpath
    rw [seekwelOption_declares_iff, NestedMeta.declares_iff, Attribute.declares_iff]
    simp [fieldAttributes, hunique]
  · obtain ⟨value, hvalue, rfl⟩ := map_eq_ok h
    cases content <;> cases hvalue
    rw [seekwelOption_declares_iff, NestedMeta.declares_iff, Attribute.declares_iff]
    simp [fieldAttributes, hdefault]
  · cases h
    rfl

/-- An attribute that declares anything is rewritten. -/
theorem Attribute.Declares.isWritten {attr : Attribute} {os : List FieldOption}
    (h : attr.Declares os) : attr.IsWritten := by
  cases h with
  | @key value column hname =>
    refine ⟨seekwelOption "key" (.assigned (.lit (.str column))), ?_⟩
    rw [normalizeAttr, if_pos rfl, keyAttrValue]
    dsimp only
    rw [hname]
    rfl
  | index => exact ⟨seekwelOption "index" .absent, rfl⟩
  | unique => exact ⟨seekwelOption "unique" .absent, rfl⟩
  | default value => exact ⟨seekwelOption "default" (.assigned value), rfl⟩
  | @seekwel items => exact ⟨⟨"seekwel", .list ⟨items, true⟩⟩, rfl⟩
  | @other path content hother =>
    simp only [fieldAttributes, List.mem_cons, List.not_mem_nil, or_false, not_or] at hother
    refine ⟨⟨path, content⟩, ?_⟩
    simp [normalizeAttr, hother]

/-- **Rewriting the attributes of a field keeps what they declare.** -/
theorem normalizeAttrs_declares {as as' : List Attribute} (h : normalizeAttrs as = .ok as')
    (os : List FieldOption) :
    Declared Attribute.Declares as os ↔ Declared Attribute.Declares as' os :=
  OptionLists.declared_congr
    ((mapM_ok_iff.mp h).imp fun _ _ hattr os => normalizeAttr_declares hattr os) os

theorem exists_normalizeAttrs {as : List Attribute} (h : ∀ attr ∈ as, attr.IsWritten) :
    ∃ as', normalizeAttrs as = .ok as' := by
  induction as with
  | nil => exact ⟨[], rfl⟩
  | cons attr as ih =>
    obtain ⟨attr', hattr⟩ := h attr List.mem_cons_self
    obtain ⟨as', has⟩ := ih fun a ha => h a (List.mem_cons_of_mem _ ha)
    exact ⟨attr' :: as', mapM_ok_iff.mpr (.cons hattr (mapM_ok_iff.mp has))⟩

end Seekwel.Macro
