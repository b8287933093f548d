import Seekwel.Derive

/-!
# The models that are declared

What a struct declares, without the way through the rewritten struct: its
options, wherever they stand, its key and its fields (`Declares`). The two
macros together accept a struct exactly if it declares a model, and make that
model of it (`declareModel_eq_ok_iff`).
-/

namespace Seekwel.Macro

open OptionLists (Declared)

/-! ## The options of a model -/

/-- **An option of a model.** -/
inductive ModelOption where
  | tableName (value : String)
  | primaryKey (value : String)
  | autoIncrement (value : Bool)
  | validator (value : Path)

namespace ModelOption

def name : ModelOption → String
  | tableName _ => "table_name"
  | primaryKey _ => "primary_key"
  | autoIncrement _ => "auto_increment"
  | validator _ => "validator"

def tableName? : ModelOption → Option String
  | tableName value => some value
  | _ => none

def primaryKey? : ModelOption → Option String
  | primaryKey value => some value
  | _ => none

def autoIncrement? : ModelOption → Option Bool
  | autoIncrement value => some value
  | _ => none

def validator? : ModelOption → Option Path
  | validator value => some value
  | _ => none

/-- The options of a model, together. -/
def collect (options : List ModelOption) : ModelConfig where
  tableName := options.findSome? tableName?
  primaryKey := options.findSome? primaryKey?
  autoIncrement := options.findSome? autoIncrement?
  validator := options.findSome? validator?

/-- An option is set. -/
def set (config : ModelConfig) : ModelOption → Except MacroError ModelConfig
  | tableName value => (unset config.tableName "table_name").map fun _ =>
      { config with tableName := some value }
  | primaryKey value => (unset config.primaryKey "primary_key").map fun _ =>
      { config with primaryKey := some value }
  | autoIncrement value => (unset config.autoIncrement "auto_increment").map fun _ =>
      { config with autoIncrement := some value }
  | validator value => (unset config.validator "validator").map fun _ =>
      { config with validator := some value }

/-- The error for an option that is given twice. -/
def duplicate (option : ModelOption) : MacroError :=
  .message ("duplicate `" ++ option.name ++ "` option")

/-- Whether an option of a name is among others. -/
theorem isSome_findSome?_iff {α : Type} {f : ModelOption → Option α} {key : String}
    (hf : ∀ option, (f option).isSome = true ↔ option.name = key) (options : List ModelOption) :
    (options.findSome? f).isSome = true ↔ key ∈ options.map name := by
  rw [List.isSome_findSome?, List.any_eq_true, List.mem_map]
  exact exists_congr fun option => and_congr_right fun _ => hf option

/-- An option that is not among others. -/
theorem findSome?_eq_none {α : Type} {f : ModelOption → Option α} {key : String}
    (hf : ∀ option, (f option).isSome = true ↔ option.name = key) {options : List ModelOption}
    (h : key ∉ options.map name) : options.findSome? f = none := by
  rwa [← isSome_findSome?_iff hf, Option.not_isSome_iff_eq_none] at h

theorem isSome_tableName? (option : ModelOption) :
    option.tableName?.isSome = true ↔ option.name = "table_name" := by
  cases option <;> simp [tableName?, name]

theorem isSome_primaryKey? (option : ModelOption) :
    option.primaryKey?.isSome = true ↔ option.name = "primary_key" := by
  cases option <;> simp [primaryKey?, name]

theorem isSome_autoIncrement? (option : ModelOption) :
    option.autoIncrement?.isSome = true ↔ option.name = "auto_increment" := by
  cases option <;> simp [autoIncrement?, name]

theorem isSome_validator? (option : ModelOption) :
    option.validator?.isSome = true ↔ option.name = "validator" := by
  cases option <;> simp [validator?, name]

/-- What more options add. -/
theorem collect_append (options more : List ModelOption) :
    collect (options ++ more)
      = { tableName := (collect options).tableName.or (collect more).tableName
          primaryKey := (collect options).primaryKey.or (collect more).primaryKey
          autoIncrement := (collect options).autoIncrement.or (collect more).autoIncrement
          validator := (collect options).validator.or (collect more).validator } := by
  simp [collect, List.findSome?_append]

theorem unset_map_eq {α β : Type} (value : Option α) (key : String) (b : β) :
    (unset value key).map (fun _ => b)
      = if value.isSome = true then .error (.message ("duplicate `" ++ key ++ "` option"))
        else .ok b := by
  unfold unset
  split_ifs <;> rfl

/-- **Setting one more option** fails exactly if it has been given. -/
theorem set_collect (options : List ModelOption) (option : ModelOption) :
    set (collect options) option
      = if option.name ∈ options.map name then .error option.duplicate
        else .ok (collect (options ++ [option])) := by
  rw [collect_append]
  cases option with
  | tableName value =>
    rw [set, unset_map_eq]
    refine if_ctx_congr (isSome_findSome?_iff isSome_tableName? options) (fun _ => rfl) fun h => ?_
    have hnone : options.findSome? tableName? = none := findSome?_eq_none isSome_tableName? h
    simp [hnone, collect, tableName?, primaryKey?, autoIncrement?, validator?]
  | primaryKey value =>
    rw [set, unset_map_eq]
    refine if_ctx_congr (isSome_findSome?_iff isSome_primaryKey? options) (fun _ => rfl) fun h => ?_
    have hnone : options.findSome? primaryKey? = none := findSome?_eq_none isSome_primaryKey? h
    simp [hnone, collect, tableName?, primaryKey?, autoIncrement?, validator?]
  | autoIncrement value =>
    rw [set, unset_map_eq]
    refine if_ctx_congr (isSome_findSome?_iff isSome_autoIncrement? options) (fun _ => rfl) fun h => ?_
    have hnone : options.findSome? autoIncrement? = none := findSome?_eq_none isSome_autoIncrement? h
    simp [hnone, collect, tableName?, primaryKey?, autoIncrement?, validator?]
  | validator value =>
    rw [set, unset_map_eq]
    refine if_ctx_congr (isSome_findSome?_iff isSome_validator? options) (fun _ => rfl) fun h => ?_
    have hnone : options.findSome? validator? = none := findSome?_eq_none isSome_validator? h
    simp [hnone, collect, tableName?, primaryKey?, autoIncrement?, validator?]

/-- The options in the order in which they are written again. -/
def ofConfig (config : ModelConfig) : List ModelOption :=
  (config.tableName.map tableName).toList ++ (config.primaryKey.map primaryKey).toList
    ++ (config.autoIncrement.map autoIncrement).toList ++ (config.validator.map validator).toList

theorem collect_ofConfig (config : ModelConfig) : collect (ofConfig config) = config := by
  obtain ⟨table, key, auto, valid⟩ := config
  cases table <;> cases key <;> cases auto <;> cases valid <;> rfl

theorem nodup_ofConfig (config : ModelConfig) : ((ofConfig config).map name).Nodup := by
  obtain ⟨table, key, auto, valid⟩ := config
  cases table <;> cases key <;> cases auto <;> cases valid <;> simp [ofConfig, name]

/-- Lists of options that come to the same have the same names. -/
theorem mem_names_of_collect_eq {options options' : List ModelOption}
    (h : collect options = collect options') {key : String} (hmem : key ∈ options.map name) :
    key ∈ options'.map name := by
  have htable : options.findSome? tableName? = options'.findSome? tableName? :=
    congrArg ModelConfig.tableName h
  have hkey : options.findSome? primaryKey? = options'.findSome? primaryKey? :=
    congrArg ModelConfig.primaryKey h
  have hauto : options.findSome? autoIncrement? = options'.findSome? autoIncrement? :=
    congrArg ModelConfig.autoIncrement h
  have hvalidator : options.findSome? validator? = options'.findSome? validator? :=
    congrArg ModelConfig.validator h
  obtain ⟨option, -, rfl⟩ := List.mem_map.mp hmem
  cases option with
  | tableName value =>
    rw [name, ← isSome_findSome?_iff isSome_tableName?] at hmem ⊢
    rwa [← htable]
  | primaryKey value =>
    rw [name, ← isSome_findSome?_iff isSome_primaryKey?] at hmem ⊢
    rwa [← hkey]
  | autoIncrement value =>
    rw [name, ← isSome_findSome?_iff isSome_autoIncrement?] at hmem ⊢
    rwa [← hauto]
  | validator value =>
    rw [name, ← isSome_findSome?_iff isSome_validator?] at hmem ⊢
    rwa [← hvalidator]

theorem foldlM_set_singleton (config : ModelConfig) (option : ModelOption) :
    [option].foldlM set config = set config option := by
  rw [List.foldlM_cons]
  cases set config option <;> rfl

/-- An item that gives a single option. -/
theorem exists_set {ι : Type} {declares : ι → List ModelOption → Prop} {item : ι}
    {config b : ModelConfig} (option : ModelOption) (h : declares item [option])
    (hset : set config option = .ok b) :
    ∃ os, declares item os ∧ os.foldlM set config = .ok b :=
  ⟨_, h, (foldlM_set_singleton config option).trans hset⟩

end ModelOption

/-- How an option is written in parentheses. -/
def ModelOption.written : ModelOption → NestedMeta
  | tableName value => ⟨"table_name", .assigned (.lit (.str value))⟩
  | primaryKey value => ⟨"primary_key", .assigned (.lit (.str value))⟩
  | autoIncrement value => ⟨"auto_increment", .assigned (.lit (.bool value))⟩
  | validator value => ⟨"validator", .assigned (.path false value)⟩

theorem ModelOption.written_injective : Function.Injective ModelOption.written := by
  intro option option' h
  cases option <;> cases option' <;> simp_all [written]

/-- **What an option in parentheses gives.** -/
def NestedMeta.Configures (item : NestedMeta) (options : List ModelOption) : Prop :=
  ∃ option, item = ModelOption.written option ∧ options = [option]

/-- **What an attribute of a struct gives.** -/
inductive Attribute.Configures : Attribute → List ModelOption → Prop
  | seekwel {items : List NestedMeta} {options : List ModelOption}
      (h : Declared NestedMeta.Configures items options) :
      Configures ⟨"seekwel", .list ⟨items, true⟩⟩ options
  | other {path : String} {content : Meta} (h : path ≠ "seekwel") :
      Configures ⟨path, content⟩ []

theorem Attribute.configures_iff {path : String} {content : Meta} {os : List ModelOption} :
    (⟨path, content⟩ : Attribute).Configures os
      ↔ (path = "seekwel" ∧ ∃ items, content = .list ⟨items, true⟩
            ∧ Declared NestedMeta.Configures items os)
        ∨ (path ≠ "seekwel" ∧ os = []) := by
  constructor
  · intro h
    cases h with
    | seekwel hitems => exact Or.inl ⟨rfl, _, rfl, hitems⟩
    | other hpath => exact Or.inr ⟨hpath, rfl⟩
  · rintro (⟨rfl, items, rfl, hitems⟩ | ⟨hpath, rfl⟩)
    · exact .seekwel hitems
    · exact .other hpath

theorem OptionValue.litStr_eq_ok_iff {value : OptionValue} {text : String} :
    value.litStr = .ok text ↔ value = .assigned (.lit (.str text)) := by
  constructor
  · unfold OptionValue.litStr
    split
    · rintro ⟨⟩
      rfl
    · rintro ⟨⟩
  · rintro rfl
    rfl

theorem OptionValue.litBool_eq_ok_iff {value : OptionValue} {b : Bool} :
    value.litBool = .ok b ↔ value = .assigned (.lit (.bool b)) := by
  constructor
  · unfold OptionValue.litBool
    split
    · rintro ⟨⟩
      rfl
    · rintro ⟨⟩
  · rintro rfl
    rfl

theorem OptionValue.place_eq_ok_iff {value : OptionValue} {name : Path} :
    value.place = .ok name ↔ value = .assigned (.path false name) := by
  constructor
  · unfold OptionValue.place
    split
    · rintro ⟨⟩
      rfl
    · rintro ⟨⟩
  · rintro rfl
    rfl

theorem OptionValue.boolLiteral_eq_ok_iff {value : OptionValue} {b : Bool} :
    value.expr.bind boolLiteral = .ok b ↔ value = .assigned (.lit (.bool b)) := by
  constructor
  · intro h
    obtain ⟨expr, hexpr, hb⟩ := bind_eq_ok h
    cases value <;> cases hexpr
    unfold boolLiteral at hb
    split at hb
    · cases hb
      rfl
    · cases hb
  · rintro rfl
    rfl

/-- Two calls that both succeed, in the other order. -/
theorem bind_map_eq_ok_iff {ε α β : Type} {u : Except ε Unit} {x : Except ε α} {f : α → β} {b : β} :
    (u.bind fun _ => x.map f) = .ok b ↔ ∃ a, x = .ok a ∧ u.map (fun _ => f a) = .ok b := by
  constructor
  · intro h
    obtain ⟨⟨⟩, rfl, h⟩ := bind_eq_ok h
    obtain ⟨a, rfl, rfl⟩ := map_eq_ok h
    exact ⟨a, rfl, rfl⟩
  · rintro ⟨a, rfl, h⟩
    obtain ⟨⟨⟩, rfl, rfl⟩ := map_eq_ok h
    rfl

/-- **An option of the derive macro** is read as what it gives. -/
theorem configOption_eq_ok_iff (config : ModelConfig) (option : NestedMeta) (b : ModelConfig) :
    configOption config option = .ok b
      ↔ ∃ os, option.Configures os ∧ os.foldlM ModelOption.set config = .ok b := by
  constructor
  · intro h
    obtain ⟨path, value⟩ := option
    unfold configOption at h
    dsimp only at h
    split_ifs at h with htable hkey hauto hvalidator
    · obtain ⟨text, htext, hset⟩ := bind_eq_ok h
      obtain rfl := OptionValue.litStr_eq_ok_iff.mp htext
      subst htable
      exact ModelOption.exists_set (.tableName text) ⟨_, rfl, rfl⟩ hset
    · obtain ⟨text, htext, hset⟩ := bind_eq_ok h
      obtain rfl := OptionValue.litStr_eq_ok_iff.mp htext
      subst hkey
      exact ModelOption.exists_set (.primaryKey text) ⟨_, rfl, rfl⟩ hset
    · obtain ⟨flag, hflag, hset⟩ := bind_eq_ok h
      obtain rfl := OptionValue.boolLiteral_eq_ok_iff.mp hflag
      subst hauto
      exact ModelOption.exists_set (.autoIncrement flag) ⟨_, rfl, rfl⟩ hset
    · obtain ⟨place, hplace, hset⟩ := bind_eq_ok h
      obtain rfl := OptionValue.place_eq_ok_iff.mp hplace
      subst hvalidator
      exact ModelOption.exists_set (.validator place) ⟨_, rfl, rfl⟩ hset
  · rintro ⟨os, ⟨option, rfl, rfl⟩, hset⟩
    cases option <;> exact (ModelOption.foldlM_set_singleton ..).symm.trans hset

/-- **An option of the attribute macro** is read as what it gives. -/
theorem modelArg_eq_ok_iff (config : ModelConfig) (option : NestedMeta) (b : ModelConfig) :
    modelArg config option = .ok b
      ↔ ∃ os, option.Configures os ∧ os.foldlM ModelOption.set config = .ok b := by
  constructor
  · intro h
    obtain ⟨path, value⟩ := option
    unfold modelArg at h
    dsimp only at h
    split at h
    · cases h
    · split_ifs at h with htable hkey hauto hvalidator
      · obtain ⟨text, htext, hset⟩ := bind_map_eq_ok_iff.mp h
        obtain rfl := OptionValue.litStr_eq_ok_iff.mp htext
        subst htable
        exact ModelOption.exists_set (.tableName text) ⟨_, rfl, rfl⟩ hset
      · obtain ⟨text, htext, hset⟩ := bind_map_eq_ok_iff.mp h
        obtain rfl := OptionValue.litStr_eq_ok_iff.mp htext
        subst hkey
        exact ModelOption.exists_set (.primaryKey text) ⟨_, rfl, rfl⟩ hset
      · obtain ⟨flag, hflag, hset⟩ := bind_map_eq_ok_iff.mp h
        obtain rfl := OptionValue.litBool_eq_ok_iff.mp hflag
        subst hauto
        exact ModelOption.exists_set (.autoIncrement flag) ⟨_, rfl, rfl⟩ hset
      · obtain ⟨place, hplace, hset⟩ := bind_map_eq_ok_iff.mp h
        obtain rfl := OptionValue.place_eq_ok_iff.mp hplace
        subst hvalidator
        exact ModelOption.exists_set (.validator place) ⟨_, rfl, rfl⟩ hset
  · rintro ⟨os, ⟨option, rfl, rfl⟩, hset⟩
    cases option with
    | tableName text =>
      exact bind_map_eq_ok_iff.mpr ⟨text, rfl, (ModelOption.foldlM_set_singleton ..).symm.trans hset⟩
    | primaryKey text =>
      exact bind_map_eq_ok_iff.mpr ⟨text, rfl, (ModelOption.foldlM_set_singleton ..).symm.trans hset⟩
    | autoIncrement flag =>
      exact bind_map_eq_ok_iff.mpr ⟨flag, rfl, (ModelOption.foldlM_set_singleton ..).symm.trans hset⟩
    | validator place =>
      exact bind_map_eq_ok_iff.mpr ⟨place, rfl, (ModelOption.foldlM_set_singleton ..).symm.trans hset⟩

/-- An attribute of a struct is read as what it gives. -/
theorem configAttr_eq_ok_iff (config : ModelConfig) (attr : Attribute) (b : ModelConfig) :
    configAttr config attr = .ok b
      ↔ ∃ os, attr.Configures os ∧ os.foldlM ModelOption.set config = .ok b := by
  constructor
  · intro h
    obtain ⟨path, content⟩ := attr
    unfold configAttr at h
    dsimp only at h
    split_ifs at h with hseekwel
    · exact ⟨[], .other hseekwel, h⟩
    · obtain rfl := not_not.mp hseekwel
      cases content with
      | list metas =>
        obtain ⟨hreadable, os, hos, hset⟩ :=
          (parseNestedMeta_eq_ok_iff configOption_eq_ok_iff metas config b).mp h
        obtain ⟨items, readable⟩ := metas
        obtain rfl : readable = true := hreadable
        exact ⟨os, .seekwel hos, hset⟩
      | path => cases h
      | nameValue value => cases h
  · rintro ⟨os, hgives, hset⟩
    cases hgives with
    | seekwel hos =>
      rw [configAttr, if_neg (not_not.mpr rfl)]
      exact (parseNestedMeta_eq_ok_iff configOption_eq_ok_iff ..).mpr ⟨rfl, os, hos, hset⟩
    | other hpath =>
      rw [configAttr, if_pos hpath]
      exact hset

/-- **The options of the attribute macro** are read exactly if none is given
twice. -/
theorem parseModelArgs_eq_ok_iff (args : NestedMetas) (config : ModelConfig) :
    parseModelArgs args = .ok config
      ↔ args.readable = true ∧ ∃ os, Declared NestedMeta.Configures args.items os
        ∧ (os.map ModelOption.name).Nodup ∧ config = ModelOption.collect os := by
  have hset := fun os => OptionLists.foldlM_set_eq_ok_iff ModelOption.set_collect os (b := config)
  rw [parseModelArgs, parseNestedMeta_eq_ok_iff modelArg_eq_ok_iff]
  exact and_congr_right fun _ => exists_congr fun os => and_congr_right fun _ => hset os

/-- **The options of the derive macro** are read exactly if none is given
twice. -/
theorem parseModelConfig_eq_ok_iff (attrs : List Attribute) (config : ModelConfig) :
    parseModelConfig attrs = .ok config
      ↔ ∃ os, Declared Attribute.Configures attrs os ∧ (os.map ModelOption.name).Nodup
        ∧ config = ModelOption.collect os :=
  OptionLists.foldlM_eq_ok_iff configAttr_eq_ok_iff ModelOption.set_collect attrs

/-! ## The options in the rewritten struct -/

theorem seekwelOptions_eq (config : ModelConfig) :
    seekwelOptions config = (ModelOption.ofConfig config).map ModelOption.written := by
  obtain ⟨table, key, auto, valid⟩ := config
  cases table <;> cases key <;> cases auto <;> cases valid <;> rfl

/-- Options that are written in parentheses. -/
theorem declared_written_iff (options : List ModelOption) {os : List ModelOption} :
    Declared NestedMeta.Configures (options.map ModelOption.written) os ↔ os = options := by
  induction options generalizing os with
  | nil => exact OptionLists.declared_nil_iff
  | cons option options ih =>
    rw [List.map_cons, OptionLists.declared_cons_iff]
    constructor
    · rintro ⟨here, there, ⟨option', hwritten, rfl⟩, hthere, rfl⟩
      rw [ModelOption.written_injective hwritten, ih.mp hthere]
      rfl
    · rintro rfl
      exact ⟨[option], options, ⟨option, rfl, rfl⟩, ih.mpr rfl, rfl⟩

/-- The attributes that the attribute macro adds. -/
def addedAttrs (config : ModelConfig) : List Attribute :=
  [deriveAttr] ++ if seekwelOptions config = [] then []
    else [⟨"seekwel", .list ⟨seekwelOptions config, true⟩⟩]

/-- **The options are given again** by the attributes that are added. -/
theorem declared_addedAttrs_iff (config : ModelConfig) {os : List ModelOption} :
    Declared Attribute.Configures (addedAttrs config) os ↔ os = ModelOption.ofConfig config := by
  have hderive : ∀ os, deriveAttr.Configures os ↔ os = [] := by
    intro os
    rw [deriveAttr, Attribute.configures_iff]
    simp
  have hadded : Declared Attribute.Configures
      (if seekwelOptions config = [] then []
        else [⟨"seekwel", .list ⟨seekwelOptions config, true⟩⟩]) os
      ↔ os = ModelOption.ofConfig config := by
    rw [← declared_written_iff, ← seekwelOptions_eq]
    split_ifs with hempty
    · rw [hempty, OptionLists.declared_nil_iff, OptionLists.declared_nil_iff]
    · rw [OptionLists.declared_cons_iff]
      simp [Attribute.configures_iff, OptionLists.declared_nil_iff]
  rw [addedAttrs, List.singleton_append, OptionLists.declared_cons_iff, ← hadded]
  simp [hderive]

/-- **The options of a struct** are those on it and those the attribute macro
was given. -/
theorem options_iff (attrs : List Attribute) (given : List ModelOption) (config : ModelConfig) :
    (given.map ModelOption.name).Nodup ∧ parseModelConfig
        (attrs ++ addedAttrs (ModelOption.collect given)) = .ok config
      ↔ ∃ own, Declared Attribute.Configures attrs own
        ∧ ((own ++ given).map ModelOption.name).Nodup
        ∧ config = ModelOption.collect (own ++ given) := by
  set written := ModelOption.ofConfig (ModelOption.collect given) with hwritten
  have hcollect : ModelOption.collect written = ModelOption.collect given :=
    ModelOption.collect_ofConfig _
  have hmem : ∀ key, key ∈ written.map ModelOption.name ↔ key ∈ given.map ModelOption.name :=
    fun key => ⟨ModelOption.mem_names_of_collect_eq hcollect,
      ModelOption.mem_names_of_collect_eq hcollect.symm⟩
  have hnodup : (written.map ModelOption.name).Nodup := ModelOption.nodup_ofConfig _
  rw [parseModelConfig_eq_ok_iff]
  simp only [OptionLists.declared_append_iff, declared_addedAttrs_iff, ← hwritten, List.map_append,
    List.nodup_append']
  constructor
  · rintro ⟨hgiven, os, ⟨own, there, hown, rfl, rfl⟩, hos, rfl⟩
    rw [List.map_append, List.nodup_append'] at hos
    refine ⟨own, hown, ⟨hos.1, hgiven, fun key hkey hkey' => hos.2.2 hkey ((hmem key).mpr hkey')⟩, ?_⟩
    rw [ModelOption.collect_append, ModelOption.collect_append, hcollect]
  · rintro ⟨own, hown, ⟨hnodupOwn, hgiven, hdisjoint⟩, rfl⟩
    refine ⟨hgiven, own ++ written, ⟨own, written, hown, rfl, rfl⟩, ?_, ?_⟩
    · rw [List.map_append, List.nodup_append']
      exact ⟨hnodupOwn, hnodup, fun key hkey hkey' => hdisjoint hkey ((hmem key).mp hkey')⟩
    · rw [ModelOption.collect_append, ModelOption.collect_append, hcollect]

/-! ## Fields -/

/-- A type that is no `Option<HasMany<..>>`. -/
def NoOptionalHasMany (ty : Ty) : Prop :=
  ∀ inner, optionInnerType ty = some inner → hasManyType inner = .ok none

/-- **What a field is**, given its options. -/
inductive IsField (ident : String) (ty : Ty) (attrs : FieldAttrs) : ModelFieldSpec → Prop
  | hasMany {childTy : Ty} {key : String} (hinner : NoOptionalHasMany ty)
      (hty : hasManyType ty = .ok (some childTy)) (hattrs : attrs = ⟨some key, false, false, none⟩) :
      IsField ident ty attrs (.hasMany
        ⟨ident, identName ident, childTy, associationHandlerIdentFromStr key⟩)
  | stored {column : String} {defaultSql : Option String} (hinner : NoOptionalHasMany ty)
      (hty : hasManyType ty = .ok none) (hsql : defaultSqlOf attrs = .ok defaultSql)
      (htarget : ∀ target, associationTarget ty = some target → isOptionType target = false)
      (hcolumn : storageColumnName (identName ident) (associationTarget ty).isSome attrs.key
        = .ok column) :
      IsField ident ty attrs (.stored
        { ident := ident
          ty := ty
          fieldName := identName ident
          storageColumnName := column
          associationHandler := associationHandlerIdentFromStr column
          indexed := attrs.indexed
          unique := attrs.unique
          defaultValue := attrs.defaultValue
          defaultSql := defaultSql
          isOptional := (optionInnerType ty).isSome
          isBool := isBoolType ty
          optionalInnerTy := optionInnerType ty
          associationTarget := associationTarget ty })

/-- **What a field declares.** -/
def Field.Declares (field : Field) (spec : ModelFieldSpec) : Prop :=
  ∃ os, Declared Attribute.Declares field.attrs os ∧ (os.map FieldOption.name).Nodup
    ∧ IsField field.ident field.ty (FieldOption.collect os) spec

/-- The field of a `HasMany`, if it is one. -/
theorem hasManyField_eq_ok_iff {field : Field} {fieldName : String} {attrs : FieldAttrs}
    {found : Option HasManyFieldSpec} :
    hasManyField field fieldName attrs = .ok found
      ↔ NoOptionalHasMany field.ty ∧ ((hasManyType field.ty = .ok none ∧ found = none)
        ∨ ∃ childTy key, hasManyType field.ty = .ok (some childTy)
          ∧ attrs = ⟨some key, false, false, none⟩ ∧ found = some
            ⟨field.ident, fieldName, childTy, associationHandlerIdentFromStr key⟩) := by
  have hinner : NoOptionalHasMany field.ty ↔ innerHasManyType field.ty = .ok none := by
    rw [NoOptionalHasMany, innerHasManyType]
    cases optionInnerType field.ty <;> simp
  rw [hinner, hasManyField, bind_eq_ok_iff]
  constructor
  · rintro ⟨inner, hok, h⟩
    by_cases hsome : inner.isSome = true
    · rw [if_pos hsome] at h
      cases h
    rw [if_neg hsome] at h
    obtain rfl : inner = none := Option.not_isSome_iff_eq_none.mp hsome
    obtain ⟨child, hchild, hbody⟩ := bind_eq_ok h
    refine ⟨hok, ?_⟩
    cases child with
    | none =>
      cases hbody
      exact Or.inl ⟨hchild, rfl⟩
    | some childTy =>
      obtain ⟨key, indexed, unique, defaultValue⟩ := attrs
      dsimp only at hbody
      split_ifs at hbody with hstored
      simp only [Bool.or_eq_true, not_or, Bool.not_eq_true] at hstored
      obtain ⟨⟨rfl, rfl⟩, hdefault⟩ := hstored
      obtain rfl : defaultValue = none := by simpa using hdefault
      cases key with
      | none => cases hbody
      | some key =>
        cases hbody
        exact Or.inr ⟨childTy, key, hchild, rfl, rfl⟩
  · rintro ⟨hok, ⟨hnone, rfl⟩ | ⟨childTy, key, hchild, rfl, rfl⟩⟩
    · refine ⟨none, hok, ?_⟩
      rw [if_neg (by simp), hnone]
      rfl
    · refine ⟨none, hok, ?_⟩
      rw [if_neg (by simp), hchild]
      rfl

/-- The model a field belongs to is none that may be missing. -/
theorem validated_eq_ok_iff {target : Option Ty} :
    (match target with
      | some target => validateAssociationTargetType target
      | none => .ok ()) = .ok ()
      ↔ ∀ ty, target = some ty → isOptionType ty = false := by
  cases target with
  | none => simp
  | some ty => simp [validateAssociationTargetType]

/-- **A field is analyzed** as what it declares. -/
theorem analyzeModelField_eq_ok_iff (field : Field) (spec : ModelFieldSpec) :
    analyzeModelField field = .ok spec ↔ field.Declares spec := by
  rw [analyzeModelField, Field.Declares]
  simp only [bind_eq_ok_iff, fieldAttrs_eq_ok_iff]
  constructor
  · rintro ⟨attrs, ⟨os, hos, hnodup, rfl⟩, defaultSql, hsql, found, hfound, h⟩
    refine ⟨os, hos, hnodup, ?_⟩
    obtain ⟨hinner, ⟨hty, rfl⟩ | ⟨childTy, key, hty, hattrs, rfl⟩⟩ := hasManyField_eq_ok_iff.mp hfound
    · obtain ⟨⟨⟩, hvalidated, h⟩ := bind_eq_ok h
      obtain ⟨column, hcolumn, rfl⟩ := map_eq_ok h
      exact .stored hinner hty hsql (validated_eq_ok_iff.mp hvalidated) hcolumn
    · cases h
      exact .hasMany hinner hty hattrs
  · rintro ⟨os, hos, hnodup, hfield⟩
    refine ⟨_, ⟨os, hos, hnodup, rfl⟩, ?_⟩
    cases hfield with
    | @hasMany childTy key hinner hty hattrs =>
      refine ⟨none, by rw [hattrs]; rfl, some _, hasManyField_eq_ok_iff.mpr
        ⟨hinner, Or.inr ⟨childTy, key, hty, hattrs, rfl⟩⟩, rfl⟩
    | @stored column defaultSql hinner hty hsql htarget hcolumn =>
      refine ⟨defaultSql, hsql, none, hasManyField_eq_ok_iff.mpr
        ⟨hinner, Or.inl ⟨hty, rfl⟩⟩, ?_⟩
      refine bind_eq_ok_iff.mpr ⟨(), validated_eq_ok_iff.mpr htarget, ?_⟩
      rw [hcolumn]
      rfl

/-! ## Structs -/

/-- **The model that a struct declares.** The key is the only field with its
name, and any other field is a field of the model. -/
inductive Declares (lowercase : String → String) (args : NestedMetas) (item : ItemStruct) :
    ModelSpec → Prop
  | mk {own given : List ModelOption} {config : ModelConfig} {fields : List Field} {pk : Field}
      {modelFields : List ModelFieldSpec}
      (plain : item.generics = []) (named : item.fields = .named fields)
      (unreserved : ∀ field ∈ fields, field.ident ≠ stateName)
      (readable : args.readable = true)
      (ownOptions : Declared Attribute.Configures item.attrs own)
      (givenOptions : Declared NestedMeta.Configures args.items given)
      (once : ((own ++ given).map ModelOption.name).Nodup)
      (options : config = ModelOption.collect (own ++ given))
      (key : fields.filter (fun field =>
        decide (identName field.ident = config.primaryKey.getD "id")) = [pk])
      (keyName : config.primaryKey.getD "id" ≠ stateName)
      (keyType : isSupportedPrimaryKeyType pk.ty = true)
      (keyWritten : ∀ attr ∈ pk.attrs, attr.IsWritten)
      (others : List.Forall₂ Field.Declares (fields.filter fun field =>
        decide (identName field.ident ≠ config.primaryKey.getD "id")) modelFields) :
      Declares lowercase args item
        { name := item.name
          tableName := config.tableName.getD (lowercase item.name)
          builderName := item.name ++ "Builder"
          columnsName := item.name ++ "Columns"
          generics := [.type]
          stateFieldName := stateName
          validator := config.validator.getD noValidation
          primaryKey := ⟨pk.ident, pk.ty, config.primaryKey.getD "id",
            config.autoIncrement.getD true⟩
          fields := modelFields }

/-- A field and its rewritten form. -/
theorem normalizeField_eq_ok_iff {field field' : Field} :
    normalizeField field = .ok field'
      ↔ ∃ attrs, normalizeAttrs field.attrs = .ok attrs ∧ field' = { field with attrs := attrs } := by
  rw [normalizeField]
  constructor
  · intro h
    obtain ⟨attrs, hattrs, rfl⟩ := map_eq_ok h
    exact ⟨attrs, hattrs, rfl⟩
  · rintro ⟨attrs, hattrs, rfl⟩
    rw [hattrs]
    rfl

/-- **Rewriting a field keeps what it declares.** -/
theorem declares_iff_of_normalizeField {field field' : Field} (h : normalizeField field = .ok field')
    (spec : ModelFieldSpec) : field.Declares spec ↔ field'.Declares spec := by
  obtain ⟨attrs, hattrs, rfl⟩ := normalizeField_eq_ok_iff.mp h
  exact exists_congr fun os => and_congr_left fun _ => normalizeAttrs_declares hattrs os

/-- The rewritten fields of a name. -/
theorem filter_normalized {fields fields' : List Field} (q : String → Bool)
    (h : List.Forall₂ (fun field field' => normalizeField field = .ok field') fields fields') :
    List.Forall₂ (fun field field' => normalizeField field = .ok field')
      (fields.filter fun field => q field.ident) (fields'.filter fun field => q field.ident) :=
  List.rel_filter (fun field field' hfield => by
    obtain ⟨attrs, -, rfl⟩ := normalizeField_eq_ok_iff.mp hfield
    rfl) h

/-- The fields of the rewritten struct that are fields of the model. -/
theorem mapM_analyzeModelField_iff {fields fields' : List Field} {specs : List ModelFieldSpec}
    (h : List.Forall₂ (fun field field' => normalizeField field = .ok field') fields fields') :
    fields'.mapM analyzeModelField = .ok specs ↔ List.Forall₂ Field.Declares fields specs := by
  rw [mapM_ok_iff]
  simp only [analyzeModelField_eq_ok_iff]
  induction h generalizing specs with
  | nil => simp
  | cons hfield hfields ih =>
    rw [List.forall₂_cons_left_iff, List.forall₂_cons_left_iff]
    simp only [ih, ← declares_iff_of_normalizeField hfield]

theorem exactlyOne_eq_ok_iff {α : Type} {found : List α} {message : String} {a : α} :
    exactlyOne found message = .ok a ↔ found = [a] := by
  unfold exactlyOne
  split
  · simp
  · rename_i hother
    simp only [reduceCtorEq, false_iff]
    exact fun h => hother a h

/-- **The attribute macro** accepts plain structs whose attributes are written
well. -/
theorem expandModelAttribute_eq_ok_iff {args : ModelConfig} {item item' : ItemStruct} :
    expandModelAttribute args item = .ok item'
      ↔ item.generics = [] ∧ ∃ fields fields', item.fields = .named fields
        ∧ (∀ field ∈ fields, field.ident ≠ stateName)
        ∧ List.Forall₂ (fun field field' => normalizeField field = .ok field') fields fields'
        ∧ item' = { item with
            generics := [.type]
            fields := .named (fields' ++ [stateField])
            attrs := item.attrs ++ addedAttrs args } := by
  obtain ⟨name, attrs, generics, fields⟩ := item
  have hattrs : attrs ++ [deriveAttr] ++ (if seekwelOptions args = [] then []
      else [⟨"seekwel", .list ⟨seekwelOptions args, true⟩⟩]) = attrs ++ addedAttrs args :=
    List.append_assoc ..
  rw [expandModelAttribute]
  dsimp only
  rw [hattrs]
  constructor
  · intro h
    by_cases hgenerics : generics = []
    swap
    · rw [if_pos hgenerics] at h
      cases h
    rw [if_neg (not_not.mpr hgenerics)] at h
    cases fields with
    | other => cases h
    | named fields =>
      dsimp only at h
      split_ifs at h with hreserved
      obtain ⟨fields', hfields, rfl⟩ := map_eq_ok h
      refine ⟨hgenerics, fields, fields', rfl, fun field hfield hname => hreserved ?_,
        mapM_ok_iff.mp hfields, rfl⟩
      exact List.any_eq_true.mpr ⟨field, hfield, decide_eq_true hname⟩
  · rintro ⟨rfl, fields, fields', rfl, hunreserved, hfields, rfl⟩
    have hnone : (fields.any fun field => decide (field.ident = stateName)) = false := by
      simpa using hunreserved
    rw [if_neg (not_not.mpr rfl)]
    dsimp only
    rw [if_neg (by simp [hnone]), normalizeFieldAttrs, mapM_ok_iff.mpr hfields]
    rfl

/-- The fields with the name of the key, the state among them. -/
theorem filter_key_eq_iff {fields : List Field} {name : String} {pk : Field} :
    ((fields ++ [stateField]).filter fun field => decide (identName field.ident = name)) = [pk]
        ∧ isSupportedPrimaryKeyType pk.ty = true
      ↔ (fields.filter fun field => decide (identName field.ident = name)) = [pk]
        ∧ name ≠ stateName ∧ isSupportedPrimaryKeyType pk.ty = true := by
  have hident : identName stateField.ident = stateName := by decide
  rw [List.filter_append]
  by_cases hname : name = stateName
  · have hstate : [stateField].filter (fun field => decide (identName field.ident = name))
        = [stateField] := by
      rw [List.filter_cons_of_pos (by simp [hident, hname])]
      rfl
    constructor
    · rintro ⟨hkey, htype⟩
      rw [hstate, List.append_eq_singleton_iff] at hkey
      obtain ⟨-, hkey⟩ | ⟨-, hkey⟩ := hkey
      · cases hkey
        cases htype
      · cases hkey
    · exact fun h => absurd hname h.2.1
  · have hstate : [stateField].filter (fun field => decide (identName field.ident = name)) = [] := by
      rw [List.filter_cons_of_neg (by simpa [hident] using Ne.symm hname)]
      rfl
    rw [hstate, List.append_nil]
    exact ⟨fun h => ⟨h.1, hname, h.2⟩, fun h => ⟨h.1, h.2.2⟩⟩

/-- The fields that are neither the key nor the state. -/
theorem filter_others {fields : List Field} {name : String} {pk : Field}
    (hunreserved : ∀ field ∈ fields, field.ident ≠ stateName)
    (hkey : (fields.filter fun field => decide (identName field.ident = name)) = [pk]) :
    ((fields ++ [stateField]).filter fun field =>
        decide (field.ident ≠ pk.ident ∧ field.ident ≠ stateField.ident))
      = fields.filter fun field => decide (identName field.ident ≠ name) := by
  have hpk : identName pk.ident = name := by
    have hmem : pk ∈ fields.filter fun field => decide (identName field.ident = name) :=
      hkey ▸ List.mem_singleton_self pk
    simpa using (List.mem_filter.mp hmem).2
  have hstate : [stateField].filter (fun field =>
      decide (field.ident ≠ pk.ident ∧ field.ident ≠ stateField.ident)) = [] := by
    rw [List.filter_cons_of_neg (by simp)]
    rfl
  rw [List.filter_append, hstate, List.append_nil]
  refine List.filter_congr fun field hfield => ?_
  have hplain : field.ident ≠ stateField.ident := hunreserved field hfield
  rw [decide_eq_decide, and_iff_left hplain, not_iff_not]
  constructor
  · intro hident
    rw [hident, hpk]
  · intro hident
    have hmem : field ∈ fields.filter fun field => decide (identName field.ident = name) :=
      List.mem_filter.mpr ⟨hfield, decide_eq_true hident⟩
    rw [hkey, List.mem_singleton] at hmem
    rw [hmem]

/-- **The derive macro** on a struct that is rewritten. -/
theorem analyzeModel_eq_ok_iff {lowercase : String → String} {input : DeriveInput}
    {spec : ModelSpec} {fields : List Field} (hgenerics : input.generics = [.type])
    (hdata : input.data = .struct (.named (fields ++ [stateField])))
    (hunreserved : ∀ field ∈ fields, field.ident ≠ stateName) :
    analyzeModel lowercase input = .ok spec
      ↔ ∃ config pk modelFields, parseModelConfig input.attrs = .ok config
        ∧ fields.filter (fun field =>
            decide (identName field.ident = config.primaryKey.getD "id")) = [pk]
        ∧ config.primaryKey.getD "id" ≠ stateName ∧ isSupportedPrimaryKeyType pk.ty = true
        ∧ (fields.filter fun field => decide (identName field.ident
            ≠ config.primaryKey.getD "id")).mapM analyzeModelField = .ok modelFields
        ∧ spec =
          { name := input.name
            tableName := config.tableName.getD (lowercase input.name)
            builderName := input.name ++ "Builder"
            columnsName := input.name ++ "Columns"
            generics := [.type]
            stateFieldName := stateName
            validator := config.validator.getD noValidation
            primaryKey := ⟨pk.ident, pk.ty, config.primaryKey.getD "id",
              config.autoIncrement.getD true⟩
            fields := modelFields } := by
  have hstate : (fields ++ [stateField]).filter (fun field => decide (field.ident = stateName))
      = [stateField] := by
    rw [List.filter_append, List.filter_eq_nil_iff.mpr fun field hfield => by
      simpa using hunreserved field hfield]
    rfl
  rw [analyzeModel, hgenerics, hdata]
  simp only [bind_eq_ok_iff, validateTypestateGenerics, namedFields, exactlyOne_eq_ok_iff]
  constructor
  · rintro ⟨config, hconfig, -, -, fields', ⟨⟩, pk, hpk, h⟩
    by_cases htype : isSupportedPrimaryKeyType pk.ty = false
    · rw [if_pos htype] at h
      cases h
    rw [if_neg htype, hstate] at h
    obtain ⟨hkey, hname, hsupported⟩ :=
      filter_key_eq_iff.mp ⟨hpk, (Bool.not_eq_false _).mp htype⟩
    obtain ⟨modelFields, hfields, rfl⟩ := map_eq_ok h
    rw [filter_others hunreserved hkey] at hfields
    exact ⟨config, pk, modelFields, hconfig, hkey, hname, hsupported, hfields, rfl⟩
  · rintro ⟨config, pk, modelFields, hconfig, hkey, hname, htype, hfields, rfl⟩
    obtain ⟨hpk, -⟩ := filter_key_eq_iff.mpr ⟨hkey, hname, htype⟩
    refine ⟨config, hconfig, (), trivial, fields ++ [stateField], rfl, pk, hpk, ?_⟩
    rw [if_neg (by simp [htype]), hstate]
    rw [← filter_others hunreserved hkey] at hfields
    exact congrArg (Except.map _) hfields

/-- A field that is rewritten has its attributes written well. -/
theorem isWritten_of_normalizeField {field field' : Field} (h : normalizeField field = .ok field') :
    ∀ attr ∈ field.attrs, attr.IsWritten := by
  obtain ⟨attrs, hattrs, -⟩ := normalizeField_eq_ok_iff.mp h
  have hpairs := mapM_ok_iff.mp hattrs
  intro attr hattr
  obtain ⟨attr', -, hnormalized⟩ := exists_mem_of_forall₂ hpairs.flip hattr
  exact ⟨attr', hnormalized⟩

/-- The key among the rewritten fields. -/
theorem filter_eq_singleton_normalized {fields fields' : List Field} (q : String → Bool)
    (h : List.Forall₂ (fun field field' => normalizeField field = .ok field') fields fields')
    {pk' : Field} (hkey : (fields'.filter fun field => q field.ident) = [pk']) :
    ∃ pk, (fields.filter fun field => q field.ident) = [pk] ∧ normalizeField pk = .ok pk' := by
  have hfiltered := filter_normalized q h
  rw [hkey, List.forall₂_cons_right_iff] at hfiltered
  obtain ⟨pk, rest, hpk, hrest, hfields⟩ := hfiltered
  rw [List.forall₂_nil_right_iff] at hrest
  exact ⟨pk, hrest ▸ hfields, hpk⟩

/-- The fields are rewritten if the key is written well and the others declare
anything. -/
theorem exists_normalized {fields : List Field} {name : String} {pk : Field}
    {specs : List ModelFieldSpec}
    (hkey : (fields.filter fun field => decide (identName field.ident = name)) = [pk])
    (hwritten : ∀ attr ∈ pk.attrs, attr.IsWritten)
    (hothers : List.Forall₂ Field.Declares
      (fields.filter fun field => decide (identName field.ident ≠ name)) specs) :
    ∃ fields', List.Forall₂ (fun field field' => normalizeField field = .ok field') fields fields' := by
  have hall : ∀ field ∈ fields, ∃ field', normalizeField field = .ok field' := by
    intro field hfield
    have hattrs : ∀ attr ∈ field.attrs, attr.IsWritten := by
      by_cases hname : identName field.ident = name
      · have hmem : field ∈ [pk] := hkey ▸ List.mem_filter.mpr ⟨hfield, decide_eq_true hname⟩
        rwa [List.mem_singleton.mp hmem]
      · obtain ⟨spec, -, os, hos, -⟩ := exists_mem_of_forall₂ hothers.flip
          (List.mem_filter.mpr ⟨hfield, decide_eq_true hname⟩)
        intro attr hattr
        obtain ⟨here, hhere⟩ := hos.exists_of_mem attr hattr
        exact hhere.isWritten
    obtain ⟨attrs', hattrs'⟩ := exists_normalizeAttrs hattrs
    exact ⟨_, normalizeField_eq_ok_iff.mpr ⟨attrs', hattrs', rfl⟩⟩
  clear hkey hothers
  induction fields with
  | nil => exact ⟨[], .nil⟩
  | cons field fields ih =>
    obtain ⟨field', hfield⟩ := hall field List.mem_cons_self
    obtain ⟨fields', hfields⟩ := ih fun f hf => hall f (List.mem_cons_of_mem _ hf)
    exact ⟨field' :: fields', .cons hfield hfields⟩

/-- The rewritten fields have the names of the fields. -/
theorem unreserved_normalized {fields fields' : List Field}
    (h : List.Forall₂ (fun field field' => normalizeField field = .ok field') fields fields')
    (hunreserved : ∀ field ∈ fields, field.ident ≠ stateName) :
    ∀ field' ∈ fields', field'.ident ≠ stateName := by
  intro field' hfield'
  obtain ⟨field, hfield, hnormalized⟩ := exists_mem_of_forall₂ h hfield'
  obtain ⟨attrs, -, rfl⟩ := normalizeField_eq_ok_iff.mp hnormalized
  exact hunreserved field hfield

/-- The columns of a field's type: its `SQL_TYPE` and whether it is nullable. -/
abbrev ColumnType := String × Bool

/-- The stored fields, in order. -/
def ModelSpec.storedFields (spec : ModelSpec) : List StoredFieldSpec :=
  spec.fields.filterMap fun
    | .stored field => some field
    | .hasMany _ => none

/-- `Model::columns` of a model: `column_with_default` where a field has a
default, `column` where it has none. -/
def StoredFieldSpec.columnDef (columnType : Ty → ColumnType) (field : StoredFieldSpec) : ColumnDef :=
  ⟨field.storageColumnName, (columnType field.ty).1, (columnType field.ty).2, field.defaultSql⟩

/-- **The model that is generated.** `columnType` is the `SqlField` of a
type. -/
def ModelSpec.generated (columnType : Ty → ColumnType) (spec : ModelSpec) : Model.ModelDef where
  tableName := spec.tableName
  primaryKey := ⟨spec.primaryKey.fieldName, "INTEGER", spec.primaryKey.autoIncrement⟩
  columns := spec.storedFields.map (·.columnDef columnType)
  indexes := (spec.storedFields.filter fun field => field.indexed || field.unique).map fun field =>
    ⟨Model.indexName spec.tableName field.storageColumnName, field.storageColumnName, field.unique⟩

/-- The declaration of a stored field. -/
def StoredFieldSpec.storedField (columnType : Ty → ColumnType) (field : StoredFieldSpec) :
    Model.StoredField where
  storageColumnName := field.storageColumnName
  sqlType := (columnType field.ty).1
  nullable := (columnType field.ty).2
  default := field.defaultValue.map Expr.asDefault
  indexed := field.indexed
  unique := field.unique

/-- **The declaration of a model**, as the layer of the models has it. -/
def ModelSpec.declaration (columnType : Ty → ColumnType) (spec : ModelSpec) : Model.ModelSpec where
  tableName := spec.tableName
  primaryKeyName := spec.primaryKey.fieldName
  autoIncrement := spec.primaryKey.autoIncrement
  fields := spec.storedFields.map (·.storedField columnType)

/-- **The SQL of a default** is there for any field that is declared. -/
theorem columnDef_of_declares (columnType : Ty → ColumnType) {field : Field}
    {stored : StoredFieldSpec} (h : field.Declares (.stored stored)) :
    (stored.storedField columnType).columnDef = .ok (stored.columnDef columnType) := by
  obtain ⟨os, -, -, hfield⟩ := h
  cases hfield with
  | stored hinner hty hsql htarget hcolumn =>
    rw [StoredFieldSpec.storedField, StoredFieldSpec.columnDef, Model.StoredField.columnDef]
    dsimp only
    rw [defaultSqlOf] at hsql
    cases hvalue : (FieldOption.collect os).defaultValue with
    | none =>
      rw [hvalue] at hsql
      cases hsql
      rfl
    | some value =>
      rw [hvalue] at hsql
      dsimp only [Option.map_some] at hsql ⊢
      cases hdefault : defaultSqlFromExpr value.asDefault with
      | error message =>
        rw [hdefault] at hsql
        cases hsql
      | ok sql =>
        rw [hdefault] at hsql
        cases hsql
        rfl

/-- **A struct that the macros accept** is a declaration whose defaults have
SQL texts, and the model that is generated is the model of that
declaration. -/
theorem modelDef_of_declares (columnType : Ty → ColumnType) {lowercase : String → String}
    {args : NestedMetas} {item : ItemStruct} {spec : ModelSpec}
    (h : Declares lowercase args item spec) :
    (spec.declaration columnType).modelDef = .ok (spec.generated columnType) := by
  have hstored : ∀ stored ∈ spec.storedFields, ∃ field : Field, field.Declares (.stored stored) := by
    cases h with
    | mk _ _ _ _ _ _ _ _ _ _ _ _ hothers =>
      intro stored hmem
      obtain ⟨modelField, hmodelField, heq⟩ := List.mem_filterMap.mp hmem
      obtain ⟨field, -, hdeclares⟩ := exists_mem_of_forall₂ hothers hmodelField
      cases modelField with
      | stored found =>
        cases heq
        exact ⟨field, hdeclares⟩
      | hasMany found => cases heq
  have hcolumns : (spec.declaration columnType).fields.mapM Model.StoredField.columnDef
      = .ok (spec.storedFields.map (·.columnDef columnType)) := by
    rw [ModelSpec.declaration, mapM_ok_iff, List.forall₂_map_left_iff, List.forall₂_map_right_iff,
      List.forall₂_same]
    intro stored hmem
    obtain ⟨field, hdeclares⟩ := hstored stored hmem
    exact columnDef_of_declares columnType hdeclares
  rw [Model.ModelSpec.modelDef, hcolumns, Except.map, ModelSpec.generated, Model.ModelSpec.indexDefs,
    ModelSpec.declaration]
  simp only [List.filter_map, List.map_map]
  rfl

/-! ## A struct -/

/-- A pet of an owner, with a name that has a default. -/
def petItem : ItemStruct where
  name := "Pet"
  attrs := [⟨"seekwel", .list ⟨[⟨"primary_key", .assigned (.lit (.str "tag"))⟩], true⟩⟩]
  generics := []
  fields := .named [
    ⟨"tag", .path false false [⟨"u32", .none⟩], []⟩,
    ⟨"name", .path false false [⟨"String", .none⟩],
      [⟨"default", .nameValue (.lit (.str "Rex"))⟩, ⟨"seekwel", .list ⟨[⟨"index", .absent⟩], true⟩⟩]⟩,
    ⟨"owner", .path false false [⟨"BelongsTo", .angleBracketed [.type .other]⟩],
      [⟨"unique", .path⟩]⟩]

example : (declareModel id ⟨[⟨"table_name", .assigned (.lit (.str "pets"))⟩], true⟩ petItem).map
      (fun spec => (spec.tableName, spec.primaryKey.fieldName,
        spec.storedFields.map fun field => (field.storageColumnName, field.defaultSql, field.indexed)))
    = .ok ("pets", "tag", [("name", some "'Rex'", true), ("owner_id", none, false)]) := by
  rfl

end Seekwel.Macro
