import Seekwel.FieldTypes

/-!
# Values that are read back

A value of a built-in type is stored and read again. An association has an id
of type `u64`, and stores it as the key of its parent is stored, cast to
`i64`. It does not cast it back when it reads it, as a `u64` does, but takes a
negative integer for an error. So an association whose id is `2 ^ 63` or more
is saved and cannot be read, and nothing else is (`readsBack_iff_fits`).
-/

namespace Seekwel.Model

variable {P : Type}

/-! ## Associations -/

/-- **A reference to a parent**, which may have been loaded. -/
structure BelongsTo (P : Type) where
  id : IntType.u64.Carrier
  cached : Option P

namespace BelongsTo

def new (id : IntType.u64.Carrier) : BelongsTo P := ⟨id, none⟩

/-- A parent, with the id that it has. -/
def withCached (modelId : P → IntType.u64.Carrier) (model : P) : BelongsTo P :=
  ⟨modelId model, some model⟩

/-- From an integer that is not negative. It is a panic if it is. -/
def fromInteger (t : IntType) (id : t.Carrier) : Option (BelongsTo P) :=
  (IntType.u64.tryFrom id.1).map new

/-- **How an association is stored.** -/
def sqlField : SqlField (BelongsTo P) where
  sqlType := "INTEGER"
  nullable := false
  toSqlValue value := .integer (castI64 value.id.1)
  fromSqlRow stored :=
    (IntType.i64.fromSqlRow stored).bind fun value =>
      match IntType.u64.tryFrom value.1 with
      | some id => .ok (new id)
      | none => .error (.sqlite "BelongsTo ids must be non-negative")
  intoSqlComparisonValue value := some (.integer (castI64 value.id.1))

end BelongsTo

/-! ## Built-in types -/

/-- A built-in type but the floats and `Option`. -/
inductive CodecType where
  | integer (t : IntType)
  | bool
  | string
  | belongsTo

namespace CodecType

abbrev Carrier (P : Type) : CodecType → Type
  | integer t => t.Carrier
  | bool => Bool
  | string => String
  | belongsTo => BelongsTo P

def sqlField (P : Type) : (c : CodecType) → SqlField (c.Carrier P)
  | integer t => SqlField.integer t
  | bool => SqlField.bool
  | string => SqlField.string
  | belongsTo => BelongsTo.sqlField

/-- **Equality of values.** Associations are equal if their ids are. -/
def Same : (c : CodecType) → c.Carrier P → c.Carrier P → Prop
  | integer _, v, w => v = w
  | bool, v, w => v = w
  | string, v, w => v = w
  | belongsTo, v, w => v.id = w.id

/-- A value that fits into an `i64` if it is an id. -/
def Fits : (c : CodecType) → c.Carrier P → Prop
  | belongsTo, v => v.id.1 < 2 ^ 63
  | integer _, _ | bool, _ | string, _ => True

end CodecType

/-- **A type of fields**: a built-in one, or an `Option` of it. -/
inductive FieldCodec where
  | plain (c : CodecType)
  | option (c : CodecType)

namespace FieldCodec

abbrev Carrier (P : Type) : FieldCodec → Type
  | plain c => c.Carrier P
  | option c => Option (c.Carrier P)

def sqlField (P : Type) : (f : FieldCodec) → SqlField (f.Carrier P)
  | plain c => c.sqlField P
  | option c => (c.sqlField P).option

def Same : (f : FieldCodec) → f.Carrier P → f.Carrier P → Prop
  | plain c, v, w => c.Same v w
  | option c, v, w => Option.Rel c.Same v w

def Fits : (f : FieldCodec) → f.Carrier P → Prop
  | plain c, v => c.Fits v
  | option c, v => ∀ value ∈ v, c.Fits value

/-- **A value is read back** as itself. -/
def ReadsBack (f : FieldCodec) (v : f.Carrier P) : Prop :=
  ∃ w, (f.sqlField P).fromSqlRow ((f.sqlField P).toSqlValue v) = .ok w ∧ f.Same w v

end FieldCodec

/-! ## Reading back -/

/-- What is read is what an `i64` is, if it may be an id. -/
theorem BelongsTo.fromSqlRow_integer {n : ℤ} (h : IntType.i64.Holds n) :
    (BelongsTo.sqlField (P := P)).fromSqlRow (.integer n)
      = match IntType.u64.tryFrom n with
        | some id => .ok (new id)
        | none => .error (.sqlite "BelongsTo ids must be non-negative") := by
  have hread : IntType.i64.fromSqlRow (.integer n) = .ok ⟨n, h⟩ :=
    (@IntType.fromSqlRow_integer_iff .i64 n nofun ⟨n, h⟩).mpr rfl
  show (IntType.i64.fromSqlRow (.integer n)).bind _ = _
  rw [hread]
  rfl

/-- **An association is read back** if its id fits into an `i64`. -/
theorem BelongsTo.fromSqlRow_toSqlValue_of_lt {v : BelongsTo P} (h : v.id.1 < 2 ^ 63) :
    sqlField.fromSqlRow (sqlField.toSqlValue v) = .ok (new v.id : BelongsTo P) := by
  have hid : castI64 v.id.1 = v.id.1 :=
    castI64_of_holds (holds_i64_iff.mpr ⟨by have := v.id.2.1; simp only [IntType.min] at this; omega, h⟩)
  show sqlField.fromSqlRow (.integer (castI64 v.id.1)) = _
  rw [fromSqlRow_integer (castI64_mem _), IntType.tryFrom_eq_some.mpr hid.symm]

/-- **An id that does not fit** is stored as a negative integer, which is no
id. -/
theorem BelongsTo.fromSqlRow_toSqlValue_of_ge {v : BelongsTo P} (h : 2 ^ 63 ≤ v.id.1) :
    sqlField.fromSqlRow (sqlField.toSqlValue v)
      = (.error (.sqlite "BelongsTo ids must be non-negative") : Except Error (BelongsTo P)) := by
  have hlt := (holds_u64_iff.mp v.id.2).2
  have hnone : IntType.u64.tryFrom (castI64 v.id.1) = none := by
    rw [castI64_of_ge h hlt, IntType.tryFrom, dif_neg]
    rw [holds_u64_iff]
    omega
  show sqlField.fromSqlRow (.integer (castI64 v.id.1)) = _
  rw [fromSqlRow_integer (castI64_mem _), hnone]

theorem CodecType.toSqlValue_ne_null (c : CodecType) (v : c.Carrier P) :
    (c.sqlField P).toSqlValue v ≠ .null := by
  cases c with
  | integer t => exact nofun
  | bool => exact nofun
  | string => exact nofun
  | belongsTo => exact nofun

/-- **When a value is read back**, if no `Option` is involved. -/
theorem CodecType.readsBack_iff (c : CodecType) (v : c.Carrier P) :
    (∃ w, (c.sqlField P).fromSqlRow ((c.sqlField P).toSqlValue v) = .ok w ∧ c.Same w v)
      ↔ c.Fits v := by
  cases c with
  | integer t => exact iff_of_true ⟨v, SqlField.lawful_integer t v, rfl⟩ trivial
  | bool => exact iff_of_true ⟨v, SqlField.lawful_bool v, rfl⟩ trivial
  | string => exact iff_of_true ⟨v, SqlField.lawful_string v, rfl⟩ trivial
  | belongsTo =>
    constructor
    · rintro ⟨w, hread, -⟩
      by_contra hfits
      rw [show (CodecType.belongsTo.sqlField P) = BelongsTo.sqlField from rfl,
        BelongsTo.fromSqlRow_toSqlValue_of_ge (not_lt.mp hfits)] at hread
      cases hread
    · exact fun hfits => ⟨_, BelongsTo.fromSqlRow_toSqlValue_of_lt hfits, rfl⟩

/-- **The values that are read back** are all but associations whose ids do
not fit into an `i64`. -/
theorem FieldCodec.readsBack_iff_fits (f : FieldCodec) (v : f.Carrier P) :
    f.ReadsBack v ↔ f.Fits v := by
  cases f with
  | plain c => exact c.readsBack_iff v
  | option c =>
    cases v with
    | none => exact iff_of_true ⟨none, rfl, .none⟩ nofun
    | some v =>
      have hread : (c.sqlField P).option.fromSqlRow ((c.sqlField P).toSqlValue v)
          = ((c.sqlField P).fromSqlRow ((c.sqlField P).toSqlValue v)).map some :=
        SqlField.fromSqlRow_option (c.toSqlValue_ne_null v)
      have hfits : (FieldCodec.option c).Fits (some v) ↔ c.Fits v :=
        ⟨fun h => h v rfl, fun h value heq => Option.some.inj heq ▸ h⟩
      rw [hfits, ← c.readsBack_iff v]
      show (∃ w, (c.sqlField P).option.fromSqlRow ((c.sqlField P).toSqlValue v) = .ok w
        ∧ Option.Rel c.Same w (some v)) ↔ _
      rw [hread]
      constructor
      · rintro ⟨w, hw, hsame⟩
        obtain ⟨value, hvalue, rfl⟩ := map_eq_ok hw
        cases hsame with
        | some hsame => exact ⟨value, hvalue, hsame⟩
      · rintro ⟨w, hw, hsame⟩
        rw [hw]
        exact ⟨some w, rfl, .some hsame⟩

/-- **A child of a saved parent** is read back if the key of the parent fits,
as it need not. -/
theorem BelongsTo.readsBack_withCached_iff {modelId : P → IntType.u64.Carrier} {model : P} :
    (FieldCodec.plain .belongsTo).ReadsBack (withCached modelId model)
      ↔ (modelId model).1 < 2 ^ 63 :=
  CodecType.readsBack_iff .belongsTo (withCached modelId model)

/-- An association that is made of a smaller integer is read back. -/
theorem BelongsTo.readsBack_of_fromInteger {t : IntType} (ht : t ≠ .u64) {n : t.Carrier}
    {v : BelongsTo P} (h : fromInteger t n = some v) :
    (FieldCodec.plain .belongsTo).ReadsBack v := by
  obtain ⟨id, hid, rfl⟩ := Option.map_eq_some_iff.mp h
  refine (CodecType.readsBack_iff .belongsTo _).mpr ?_
  show id.1 < 2 ^ 63
  rw [IntType.tryFrom_eq_some.mp hid]
  exact (holds_i64_iff.mp (n.2.i64 ht)).2

/-- **The first id that is too large** is not read back. -/
theorem large_id_not_readsBack :
    ¬ (FieldCodec.plain .belongsTo).ReadsBack
      (BelongsTo.new ⟨2 ^ 63, by decide⟩ : BelongsTo Unit) := by
  rintro ⟨w, hread, -⟩
  have herror := BelongsTo.fromSqlRow_toSqlValue_of_ge
    (v := (BelongsTo.new ⟨2 ^ 63, by decide⟩ : BelongsTo Unit)) (by decide)
  cases herror.symm.trans hread

end Seekwel.Model
