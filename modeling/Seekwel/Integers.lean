import Mathlib.Algebra.Order.Ring.Int
import Seekwel.Catalog
import Seekwel.Error

/-!
# The integer types

The integer types a field may have, and how their values are stored: every
value is cast to `i64`. Only the values of `u64` from `2 ^ 63` on change in
the cast, and they are cast back when they are read. So each type reads what
it has stored (`fromSqlRow_toSqlValue`).
-/

namespace Seekwel

/-- **A built-in integer type.** -/
inductive IntType where
  | u8
  | u16
  | u32
  | u64
  | i8
  | i16
  | i32
  | i64
  deriving DecidableEq

namespace IntType

def name : IntType → String
  | u8 => "u8"
  | u16 => "u16"
  | u32 => "u32"
  | u64 => "u64"
  | i8 => "i8"
  | i16 => "i16"
  | i32 => "i32"
  | i64 => "i64"

def isSigned : IntType → Bool
  | u8 | u16 | u32 | u64 => false
  | i8 | i16 | i32 | i64 => true

/-- The least value. -/
def min : IntType → ℤ
  | u8 | u16 | u32 | u64 => 0
  | i8 => -2 ^ 7
  | i16 => -2 ^ 15
  | i32 => -2 ^ 31
  | i64 => -2 ^ 63

/-- The greatest value. -/
def max : IntType → ℤ
  | u8 => 2 ^ 8 - 1
  | u16 => 2 ^ 16 - 1
  | u32 => 2 ^ 32 - 1
  | u64 => 2 ^ 64 - 1
  | i8 => 2 ^ 7 - 1
  | i16 => 2 ^ 15 - 1
  | i32 => 2 ^ 31 - 1
  | i64 => 2 ^ 63 - 1

/-- An integer is a value of a type. -/
def Holds (t : IntType) (n : ℤ) : Prop := t.min ≤ n ∧ n ≤ t.max

instance (t : IntType) (n : ℤ) : Decidable (t.Holds n) := inferInstanceAs (Decidable (_ ∧ _))

/-- **The values of a type.** -/
abbrev Carrier (t : IntType) : Type := {n : ℤ // t.Holds n}

theorem holds_zero (t : IntType) : t.Holds 0 := by
  cases t <;> decide

end IntType

theorem holds_i64_iff {n : ℤ} : IntType.i64.Holds n ↔ -2 ^ 63 ≤ n ∧ n < 2 ^ 63 :=
  and_congr Iff.rfl (Int.le_sub_one_iff)

theorem holds_u64_iff {n : ℤ} : IntType.u64.Holds n ↔ 0 ≤ n ∧ n < 2 ^ 64 :=
  and_congr Iff.rfl (Int.le_sub_one_iff)

/-! ## Casts -/

/-- An integer cast to `i64`. -/
def castI64 (n : ℤ) : ℤ := Int.bmod n (2 ^ 64)

/-- An `i64` cast to `u64`. -/
def castU64 (n : ℤ) : ℤ := if n < 0 then n + 2 ^ 64 else n

theorem castI64_mem (n : ℤ) : IntType.i64.Holds (castI64 n) := by
  have hle := Int.le_bmod (x := n) (m := 2 ^ 64) (by decide)
  have hlt := Int.bmod_lt (x := n) (m := 2 ^ 64) (by decide)
  rw [holds_i64_iff, castI64]
  omega

/-- What fits into an `i64` is not changed. -/
theorem castI64_of_holds {n : ℤ} (h : IntType.i64.Holds n) : castI64 n = n := by
  rw [holds_i64_iff] at h
  rw [castI64, Int.bmod_eq_of_le (by omega) (by omega)]

theorem castI64_of_ge {n : ℤ} (h : 2 ^ 63 ≤ n) (hlt : n < 2 ^ 64) : castI64 n = n - 2 ^ 64 := by
  unfold castI64
  rw [Int.bmod_def]
  omega

theorem castU64_castI64 {n : ℤ} (h : IntType.u64.Holds n) : castU64 (castI64 n) = n := by
  rw [holds_u64_iff] at h
  by_cases hlt : n < 2 ^ 63
  · rw [castI64_of_holds (holds_i64_iff.mpr ⟨by omega, hlt⟩), castU64, if_neg (by omega)]
  · rw [castI64_of_ge (by omega) h.2, castU64, if_pos (by omega)]
    omega

theorem castU64_mem {n : ℤ} (h : IntType.i64.Holds n) : IntType.u64.Holds (castU64 n) := by
  rw [holds_i64_iff] at h
  rw [holds_u64_iff, castU64]
  split_ifs
  all_goals omega

theorem castI64_castU64 {n : ℤ} (h : IntType.i64.Holds n) : castI64 (castU64 n) = n := by
  have hi64 := holds_i64_iff.mp h
  unfold castU64
  split_ifs with hneg
  · rw [castI64_of_ge (by omega) (by omega)]
    omega
  · exact castI64_of_holds h

namespace IntType

/-! ## Storing and reading -/

/-- The values of every type but `u64` fit into an `i64`. -/
theorem Holds.i64 {t : IntType} {n : ℤ} (h : t.Holds n) (ht : t ≠ u64) : i64.Holds n := by
  obtain ⟨hmin, hmax⟩ := h
  cases t
  case u64 => exact absurd rfl ht
  all_goals
    simp only [min, max] at hmin hmax
    constructor
    all_goals simp only [min, max]
    all_goals omega

theorem Holds.ge {t : IntType} {n : ℤ} (h : t.Holds n) : -2 ^ 63 ≤ n := by
  have hmin := h.1
  cases t
  all_goals
    simp only [min] at hmin
    omega

theorem Holds.lt {t : IntType} {n : ℤ} (h : t.Holds n) : n < 2 ^ 64 := by
  have hmax := h.2
  cases t
  all_goals
    simp only [max] at hmax
    omega

def toSqlValue (t : IntType) (n : t.Carrier) : Value := .integer (castI64 n.1)

/-- A value that a type may have, as `TryFrom` converts it. -/
def tryFrom (t : IntType) (n : ℤ) : Option t.Carrier :=
  if h : t.Holds n then some ⟨n, h⟩ else none

/-- **Reading a value.** An `i64` is converted, or cast to `u64`. -/
def fromSqlRow (t : IntType) : Value → Except Error t.Carrier
  | .integer n =>
    match t.tryFrom (if t = u64 then castU64 n else n) with
    | some m => .ok m
    | none => .error (.sqlite "Integer out of range")
  | _ => .error (.sqlite "Invalid column type")

theorem tryFrom_eq_some {t : IntType} {n : ℤ} {m : t.Carrier} :
    t.tryFrom n = some m ↔ m.1 = n := by
  unfold tryFrom
  constructor
  · intro h
    split_ifs at h
    cases h
    rfl
  · rintro rfl
    rw [dif_pos m.2]

/-- An integer that a type has is read as itself. -/
theorem fromSqlRow_integer_iff {t : IntType} {n : ℤ} (h : t = u64 → 0 ≤ n) {m : t.Carrier} :
    t.fromSqlRow (.integer n) = .ok m ↔ m.1 = n := by
  have hcast : (if t = u64 then castU64 n else n) = n := by
    split_ifs with ht
    · rw [castU64, if_neg (not_lt.mpr (h ht))]
    · rfl
  rw [fromSqlRow, hcast, ← tryFrom_eq_some]
  cases t.tryFrom n with
  | none => exact ⟨nofun, nofun⟩
  | some k => exact ⟨fun h => congrArg some (Except.ok.inj h), fun h => congrArg _ (Option.some.inj h)⟩

/-- **Every type reads what it stores.** -/
theorem fromSqlRow_toSqlValue {t : IntType} (n : t.Carrier) :
    t.fromSqlRow (t.toSqlValue n) = .ok n := by
  have hcast : (if t = u64 then castU64 (castI64 n.1) else castI64 n.1) = n.1 := by
    split_ifs with ht
    · subst ht
      exact castU64_castI64 n.2
    · exact castI64_of_holds (n.2.i64 ht)
  rw [toSqlValue, fromSqlRow, hcast, tryFrom_eq_some.mpr rfl]

/-- **What is read is written back.** -/
theorem toSqlValue_of_fromSqlRow {t : IntType} {stored : Value}
    (hrange : ∀ n, stored = .integer n → i64.Holds n) {m : t.Carrier}
    (h : t.fromSqlRow stored = .ok m) : t.toSqlValue m = stored := by
  cases stored with
  | integer n =>
    have hn := hrange n rfl
    rw [fromSqlRow] at h
    cases hm : t.tryFrom (if t = u64 then castU64 n else n) with
    | none =>
      rw [hm] at h
      cases h
    | some k =>
      rw [hm] at h
      cases h
      rw [toSqlValue, tryFrom_eq_some.mp hm]
      split_ifs
      · rw [castI64_castU64 hn]
      · rw [castI64_of_holds hn]
  | _ => cases h

/-! ## Keys -/

/-- The non-negative id that associations use. -/
def toAssociationId (t : IntType) (n : t.Carrier) : Except Error ℤ :=
  if t.isSigned && n.1 < 0 then
    .error (.invalidModel ("primary key value " ++ toString n.1
      ++ " cannot be represented as a non-negative association id"))
  else .ok n.1

theorem nonneg_of_toAssociationId {t : IntType} {n : t.Carrier} {id : ℤ}
    (h : t.toAssociationId n = .ok id) : 0 ≤ n.1 := by
  unfold toAssociationId at h
  split_ifs at h with hneg
  have hmin := n.2.1
  cases t
  all_goals simp only [isSigned, min, Bool.true_and, Bool.false_and, decide_eq_true_eq] at hneg hmin
  all_goals omega

theorem toAssociationId_of_nonneg {t : IntType} {n : t.Carrier} (h : 0 ≤ n.1) :
    t.toAssociationId n = .ok n.1 := by
  rw [toAssociationId, if_neg]
  simp [h]

/-- Converts a generated rowid, cast to `u64`, into a key. -/
def fromGeneratedId (t : IntType) (id : ℤ) : Except Error t.Carrier :=
  match t.tryFrom id with
  | some n => .ok n
  | none => .error (.invalidModel ("generated primary key " ++ toString id ++ " does not fit in "
      ++ t.name))

/-- A generated key is stored as the rowid it comes from. -/
theorem castI64_of_fromGeneratedId {t : IntType} {rowid : ℤ} (hrowid : i64.Holds rowid)
    {key : t.Carrier} (h : t.fromGeneratedId (castU64 rowid) = .ok key) :
    castI64 key.1 = rowid := by
  unfold fromGeneratedId at h
  cases hkey : t.tryFrom (castU64 rowid) with
  | none =>
    rw [hkey] at h
    cases h
  | some n =>
    rw [hkey] at h
    cases h
    rw [tryFrom_eq_some.mp hkey, castI64_castU64 hrowid]

end IntType

end Seekwel
