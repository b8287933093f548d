import Seekwel.Attributes
import Seekwel.ModelSpec

/-!
# From a struct to a model

The two macros, one after the other. The attribute macro rewrites a struct:
the attributes of its fields, its options as a `#[seekwel(..)]`, the typestate
as a generic and as a field (`expandModelAttribute`). The derive macro reads
what comes out (`analyzeModel`).

Of a type the macros see its tokens only, so `HasMany`, `BelongsTo` and
`Option` are told by the last segment of a path, and a key must be written as
one of the names of the integers.
-/

namespace Seekwel.Macro

/-! ## Structs -/

mutual

/-- **A Rust type**, as far as the macros look into it. -/
inductive Ty where
  | path (qself leadingColon : Bool) (segments : List TySegment)
  | other

/-- A segment of the path of a type. -/
inductive TySegment where
  | mk (ident : String) (arguments : PathArguments)

inductive PathArguments where
  | none
  | angleBracketed (args : List GenericArgument)
  | parenthesized

inductive GenericArgument where
  | type (ty : Ty)
  | other

end

/-- A field with a name. -/
structure Field where
  /-- The identifier, with its `r#`. -/
  ident : String
  ty : Ty
  attrs : List Attribute

inductive Fields where
  | named (fields : List Field)
  | other

inductive GenericParam where
  | type
  | other

/-- **A struct**, as the attribute macro is given it. -/
structure ItemStruct where
  name : String
  attrs : List Attribute
  generics : List GenericParam
  fields : Fields

inductive Data where
  | struct (fields : Fields)
  | other

/-- **What the derive macro is given.** -/
structure DeriveInput where
  name : String
  attrs : List Attribute
  generics : List GenericParam
  data : Data

def ItemStruct.deriveInput (item : ItemStruct) : DeriveInput :=
  ⟨item.name, item.attrs, item.generics, .struct item.fields⟩

/-! ## Types -/

def Ty.lastSegment? : Ty → Option TySegment
  | .path _ _ segments => segments.getLast?
  | .other => none

/-- The first argument of a type with this name. -/
def Ty.inner? (name : String) (ty : Ty) : Option Ty :=
  match ty.lastSegment? with
  | some ⟨ident, .angleBracketed (.type inner :: _)⟩ => if ident = name then some inner else none
  | _ => none

def optionInnerType (ty : Ty) : Option Ty := ty.inner? "Option"

def belongsToTargetType (ty : Ty) : Option Ty := ty.inner? "BelongsTo"

def isOptionType (ty : Ty) : Bool := (optionInnerType ty).isSome

/-- The name of a type that is a name. -/
def Ty.name? : Ty → Option String
  | .path false false [⟨ident, .none⟩] => some ident
  | _ => none

def isBoolType (ty : Ty) : Bool := decide (ty.name? = some "bool")

def isSupportedPrimaryKeyType (ty : Ty) : Bool :=
  ty.name?.any fun name =>
    decide (name ∈ ["u64", "u32", "u16", "u8", "i64", "i32", "i16", "i8"])

/-- The child of a `HasMany`. -/
def hasManyType (ty : Ty) : Except MacroError (Option Ty) :=
  match ty.lastSegment? with
  | none => .ok none
  | some ⟨ident, arguments⟩ =>
    if ident ≠ "HasMany" then .ok none
    else match arguments with
      | .angleBracketed [.type child] => .ok (some child)
      | .angleBracketed [.other] =>
        .error (.message "The HasMany argument must be the child model type")
      | .angleBracketed _ => .error (.message
        "HasMany fields must use exactly one generic argument: `HasMany<Child>`; put the child foreign key on the field with #[key = child_id]")
      | _ => .error (.message "HasMany fields must use `HasMany<Child>` and #[key = child_id]")

/-! ## Fields -/

structure PrimaryKeySpec where
  ident : String
  ty : Ty
  fieldName : String
  autoIncrement : Bool

structure StoredFieldSpec where
  ident : String
  ty : Ty
  fieldName : String
  storageColumnName : String
  associationHandler : String
  indexed : Bool
  unique : Bool
  defaultValue : Option Expr
  defaultSql : Option String
  isOptional : Bool
  isBool : Bool
  optionalInnerTy : Option Ty
  associationTarget : Option Ty

structure HasManyFieldSpec where
  ident : String
  fieldName : String
  childTy : Ty
  associationHandler : String

inductive ModelFieldSpec where
  | stored (field : StoredFieldSpec)
  | hasMany (field : HasManyFieldSpec)

/-- The function of a child that gives the handlers of an association. -/
def associationHandlerIdentFromStr (raw : String) : String :=
  let suffix := raw.toList.foldl (fun suffix ch =>
    if ch.isAlphanum || ch = '_' then suffix ++ [ch.toLower]
    else if suffix.getLast? = some '_' then suffix
    else suffix ++ ['_']) []
  let suffix := suffix.rdropWhile (· = '_')
  "__seekwel_has_many_handlers_for_"
    ++ if suffix.isEmpty then "column" else String.ofList suffix

/-- The type in the `HasMany` of an `Option`. -/
def innerHasManyType (ty : Ty) : Except MacroError (Option Ty) :=
  match optionInnerType ty with
  | some inner => hasManyType inner
  | none => .ok none

def hasManyField (field : Field) (fieldName : String) (attrs : FieldAttrs) :
    Except MacroError (Option HasManyFieldSpec) :=
  (innerHasManyType field.ty).bind fun inner =>
    if inner.isSome then .error (.message "Option<HasMany<T>> is not supported")
    else (hasManyType field.ty).bind fun
      | none => .ok none
      | some childTy =>
        if attrs.indexed || attrs.unique || attrs.defaultValue.isSome then .error (.message
          "#[index], #[unique], and #[default = value] can only be used on stored fields, including BelongsTo fields")
        else match attrs.key with
          | none => .error (.message
            "HasMany fields must specify the child foreign key with #[key = owner_id]")
          | some associationKey =>
            .ok (some ⟨field.ident, fieldName, childTy,
              associationHandlerIdentFromStr associationKey⟩)

def validateAssociationTargetType (ty : Ty) : Except MacroError Unit :=
  if isOptionType ty then .error (.message
    "BelongsTo<Option<T>> is not supported; use Option<BelongsTo<T>> instead")
  else .ok ()

/-- The SQL of the default of a field. -/
def defaultSqlOf (attrs : FieldAttrs) : Except MacroError (Option String) :=
  match attrs.defaultValue with
  | none => .ok none
  | some value => match defaultSqlFromExpr value.asDefault with
    | .error message => .error (.message message)
    | .ok sql => .ok (some sql)

/-- The column a field is stored in. -/
def storageColumnName (fieldName : String) (isAssociation : Bool) (key : Option String) :
    Except MacroError String :=
  match isAssociation, key with
  | true, some key => .ok key
  | true, none => .ok (fieldName ++ "_id")
  | false, some _ => .error (.message
    "#[key = column_name] can only be used on BelongsTo or HasMany association fields")
  | false, none => .ok fieldName

/-- The model a field belongs to. -/
def associationTarget (ty : Ty) : Option Ty :=
  (belongsToTargetType ty).or ((optionInnerType ty).bind belongsToTargetType)

/-- **A field of a model.** -/
def analyzeModelField (field : Field) : Except MacroError ModelFieldSpec :=
  let fieldName := identName field.ident
  (fieldAttrs field.attrs).bind fun attrs =>
  (defaultSqlOf attrs).bind fun defaultSql =>
  (hasManyField field fieldName attrs).bind fun
  | some hasMany => .ok (.hasMany hasMany)
  | none =>
    let optionalInnerTy := optionInnerType field.ty
    let target := associationTarget field.ty
    let validated := match target with
      | some target => validateAssociationTargetType target
      | none => .ok ()
    validated.bind fun _ =>
    (storageColumnName fieldName target.isSome attrs.key).map fun storageColumnName => .stored
      { ident := field.ident
        ty := field.ty
        fieldName := fieldName
        storageColumnName := storageColumnName
        associationHandler := associationHandlerIdentFromStr storageColumnName
        indexed := attrs.indexed
        unique := attrs.unique
        defaultValue := attrs.defaultValue
        defaultSql := defaultSql
        isOptional := optionalInnerTy.isSome
        isBool := isBoolType field.ty
        optionalInnerTy := optionalInnerTy
        associationTarget := target }

/-! ## The options of a model -/

/-- The options of a model, as either macro keeps them. -/
structure ModelConfig where
  tableName : Option String
  primaryKey : Option String
  autoIncrement : Option Bool
  validator : Option Path

def ModelConfig.empty : ModelConfig := ⟨none, none, none, none⟩

/-- An option that is not there yet. -/
def unset {α : Type} (value : Option α) (name : String) : Except MacroError Unit :=
  if value.isSome then .error (.message ("duplicate `" ++ name ++ "` option")) else .ok ()

def OptionValue.litStr : OptionValue → Except MacroError String
  | .assigned (.lit (.str value)) => .ok value
  | _ => .error .malformed

def OptionValue.litBool : OptionValue → Except MacroError Bool
  | .assigned (.lit (.bool value)) => .ok value
  | _ => .error .malformed

def OptionValue.place : OptionValue → Except MacroError Path
  | .assigned (.path false name) => .ok name
  | _ => .error .malformed

/-- An option of the attribute macro. -/
def modelArg (args : ModelConfig) (option : NestedMeta) : Except MacroError ModelConfig :=
  match option.value with
  | .absent => .error .malformed
  | value =>
    if option.path = "table_name" then
      (unset args.tableName "table_name").bind fun _ =>
        value.litStr.map fun tableName => { args with tableName := some tableName }
    else if option.path = "primary_key" then
      (unset args.primaryKey "primary_key").bind fun _ =>
        value.litStr.map fun primaryKey => { args with primaryKey := some primaryKey }
    else if option.path = "auto_increment" then
      (unset args.autoIncrement "auto_increment").bind fun _ =>
        value.litBool.map fun autoIncrement => { args with autoIncrement := some autoIncrement }
    else if option.path = "validator" then
      (unset args.validator "validator").bind fun _ =>
        value.place.map fun validator => { args with validator := some validator }
    else .error (.message
      "unsupported seekwel::model option; expected `table_name`, `primary_key`, `auto_increment`, or `validator`")

/-- **The options of the attribute macro.** -/
def parseModelArgs (args : NestedMetas) : Except MacroError ModelConfig :=
  parseNestedMeta modelArg args .empty

def boolLiteral (expr : Expr) : Except MacroError Bool :=
  match expr with
  | .lit (.bool value) => .ok value
  | _ => .error (.message "`auto_increment` must be a boolean literal")

/-- An option in a `#[seekwel(..)]` of a struct. -/
def configOption (config : ModelConfig) (option : NestedMeta) : Except MacroError ModelConfig :=
  if option.path = "table_name" then
    option.value.litStr.bind fun tableName =>
      (unset config.tableName "table_name").map fun _ =>
        { config with tableName := some tableName }
  else if option.path = "primary_key" then
    option.value.litStr.bind fun primaryKey =>
      (unset config.primaryKey "primary_key").map fun _ =>
        { config with primaryKey := some primaryKey }
  else if option.path = "auto_increment" then
    (option.value.expr.bind boolLiteral).bind fun autoIncrement =>
      (unset config.autoIncrement "auto_increment").map fun _ =>
        { config with autoIncrement := some autoIncrement }
  else if option.path = "validator" then
    option.value.place.bind fun validator =>
      (unset config.validator "validator").map fun _ =>
        { config with validator := some validator }
  else .error (.message
    "unsupported seekwel model option; expected `table_name`, `primary_key`, `auto_increment`, or `validator`")

/-- An attribute of a struct, as the derive macro reads it. -/
def configAttr (config : ModelConfig) (attr : Attribute) : Except MacroError ModelConfig :=
  if attr.path ≠ "seekwel" then .ok config else seekwelAttr configOption attr config

/-- **The options of the derive macro.** -/
def parseModelConfig (attrs : List Attribute) : Except MacroError ModelConfig :=
  attrs.foldlM configAttr .empty

/-! ## The attribute macro -/

def stateName : String := "__seekwel_state"

/-- `__seekwel_state: S`. -/
def stateField : Field := ⟨stateName, .path false false [⟨"S", .none⟩], []⟩

def deriveAttr : Attribute := ⟨"derive", .list ⟨[⟨"", .absent⟩, ⟨"Clone", .absent⟩], true⟩⟩

/-- The options of a model, written again. -/
def seekwelOptions (args : ModelConfig) : List NestedMeta :=
  (args.tableName.map fun value => ⟨"table_name", .assigned (.lit (.str value))⟩).toList
    ++ (args.primaryKey.map fun value => ⟨"primary_key", .assigned (.lit (.str value))⟩).toList
    ++ (args.autoIncrement.map fun value =>
        ⟨"auto_increment", .assigned (.lit (.bool value))⟩).toList
    ++ (args.validator.map fun value => ⟨"validator", .assigned (.path false value)⟩).toList

def normalizeField (field : Field) : Except MacroError Field :=
  (normalizeAttrs field.attrs).map fun attrs => { field with attrs := attrs }

/-- **The attributes of the fields**, rewritten. -/
def normalizeFieldAttrs (fields : List Field) : Except MacroError (List Field) :=
  fields.mapM normalizeField

/-- **The attribute macro.** -/
def expandModelAttribute (args : ModelConfig) (item : ItemStruct) : Except MacroError ItemStruct :=
  if item.generics ≠ [] then .error (.message
    "seekwel::model only supports non-generic structs; the macro injects the typestate generic for you")
  else match item.fields with
    | .other => .error (.message "seekwel::model only supports structs with named fields")
    | .named fields =>
      if fields.any fun field => decide (field.ident = stateName) then .error (.message
        "field name __seekwel_state is reserved by seekwel::model")
      else (normalizeFieldAttrs fields).map fun fields =>
        { item with
          generics := [.type]
          fields := .named (fields ++ [stateField])
          attrs := item.attrs ++ [deriveAttr] ++
            if seekwelOptions args = [] then []
            else [⟨"seekwel", .list ⟨seekwelOptions args, true⟩⟩] }

/-! ## The derive macro -/

/-- **A model**, as the derive macro knows it. -/
structure ModelSpec where
  name : String
  tableName : String
  builderName : String
  columnsName : String
  generics : List GenericParam
  stateFieldName : String
  validator : Path
  primaryKey : PrimaryKeySpec
  fields : List ModelFieldSpec

def noValidation : Path :=
  ⟨false, [⟨"seekwel", false⟩, ⟨"model", false⟩, ⟨"NoValidation", false⟩]⟩

def validateTypestateGenerics (generics : List GenericParam) : Except MacroError Unit :=
  match generics with
  | [.type] => .ok ()
  | [_] => .error (.message "Model derives only support a single typestate type parameter")
  | _ => .error (.message
    "Model derives require exactly one typestate type parameter; use #[seekwel::model] to generate it automatically")

def namedFields (data : Data) : Except MacroError (List Field) :=
  match data with
  | .struct (.named fields) => .ok fields
  | .struct _ => .error (.message "Model only supports structs with named fields")
  | .other => .error (.message "Model can only be derived for structs")

/-- The only element of a list. -/
def exactlyOne {α : Type} (found : List α) (message : String) : Except MacroError α :=
  match found with
  | [a] => .ok a
  | _ => .error (.message message)

/-- **The derive macro.** `lowercase` is Rust's. -/
def analyzeModel (lowercase : String → String) (input : DeriveInput) :
    Except MacroError ModelSpec :=
  (parseModelConfig input.attrs).bind fun config =>
  let tableName := config.tableName.getD (lowercase input.name)
  let primaryKeyName := config.primaryKey.getD "id"
  let autoIncrement := config.autoIncrement.getD true
  let validator := config.validator.getD noValidation
  (validateTypestateGenerics input.generics).bind fun _ =>
  (namedFields input.data).bind fun fields =>
  (exactlyOne (fields.filter fun field => decide (identName field.ident = primaryKeyName))
    ("Model structs must contain exactly one `" ++ primaryKeyName ++ "` field")).bind fun pk =>
  if isSupportedPrimaryKeyType pk.ty = false then .error (.message
    "Primary key fields must use a supported integer type: u64, u32, u16, u8, i64, i32, i16, or i8")
  else
  (exactlyOne (fields.filter fun field => decide (field.ident = stateName))
    "Model structs must contain exactly one __seekwel_state typestate field; use #[seekwel::model] to have it injected automatically").bind
    fun state =>
  ((fields.filter fun field => decide (field.ident ≠ pk.ident ∧ field.ident ≠ state.ident)).mapM
    analyzeModelField).map fun modelFields =>
  { name := input.name
    tableName := tableName
    builderName := input.name ++ "Builder"
    columnsName := input.name ++ "Columns"
    generics := input.generics
    stateFieldName := state.ident
    validator := validator
    primaryKey := ⟨pk.ident, pk.ty, primaryKeyName, autoIncrement⟩
    fields := modelFields }

/-- **Both macros**, one after the other. -/
def declareModel (lowercase : String → String) (args : NestedMetas) (item : ItemStruct) :
    Except MacroError ModelSpec :=
  (parseModelArgs args).bind fun args =>
  (expandModelAttribute args item).bind fun item =>
  analyzeModel lowercase item.deriveInput

end Seekwel.Macro
