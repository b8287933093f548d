import Seekwel.FieldCodecs
import Seekwel.ParamValue
import Seekwel.SqlLimit

/-!
# The values of form fields

How a value in the tree of a form is read as the value of a field. Numbers
and checkboxes are scalars with a text, an `Option` is the value or null, and
an association is its id. The texts that Rust writes for integers and for
`bool` are read as what they were written for.
-/

namespace Seekwel

/-! ## Integers -/

/-- The number that decimal digits write. -/
def parseDigits (digits : List Char) : Option ℕ :=
  if digits ≠ [] ∧ digits.all Char.isDigit = true then some (Nat.ofDigitChars 10 digits 0) else none

/-- The number that a text writes, with a sign or without. -/
def parseSigned (isSigned : Bool) : List Char → Option ℤ
  | '+' :: digits => (parseDigits digits).map fun n => (n : ℤ)
  | '-' :: digits => if isSigned then (parseDigits digits).map fun n => -(n : ℤ) else none
  | digits => (parseDigits digits).map fun n => (n : ℤ)

namespace IntType

/-- **Rust's `parse`** of an integer. -/
def parse (t : IntType) (raw : String) : Option t.Carrier :=
  (parseSigned t.isSigned raw.toList).bind fun n => if h : t.Holds n then some ⟨n, h⟩ else none

/-- What is expected where an integer is. -/
def expected : IntType → String
  | u8 => "a u8"
  | u16 => "a u16"
  | u32 => "a u32"
  | u64 => "a u64"
  | i8 => "an i8"
  | i16 => "an i16"
  | i32 => "an i32"
  | i64 => "an i64"

end IntType

namespace Model

/-! ## Reading values -/

namespace ParamValue

/-- What a value is called in an error. `debug` is Rust's `{:?}` of a text. -/
def unexpected (debug : String → String) : ParamValue → String
  | null => "unit value"
  | scalar raw => "string " ++ debug raw
  | list _ => "sequence"
  | map _ => "map"

def invalidType (debug : String → String) (value : ParamValue) (expected : String) : String :=
  "invalid type: " ++ value.unexpected debug ++ ", expected " ++ expected

def invalidValue (debug : String → String) (raw expected : String) : String :=
  "invalid value: string " ++ debug raw ++ ", expected " ++ expected

def intoScalar (debug : String → String) (expected : String) : ParamValue → Except String String
  | scalar raw => .ok raw
  | value => .error (value.invalidType debug expected)

/-- A scalar whose text is parsed. -/
def parseScalar {T : Type} (debug : String → String) (parse : String → Option T)
    (expected : String) (value : ParamValue) : Except String T :=
  (value.intoScalar debug expected).bind fun raw =>
    match parse raw with
    | some parsed => .ok parsed
    | none => .error (invalidValue debug raw expected)

def checkboxTexts : String := "one of 1, true, on, yes, 0, false, off, or no"

def deserializeBool (debug : String → String) (value : ParamValue) : Except String Bool :=
  (value.intoScalar debug checkboxTexts).bind fun raw =>
    let text := Text.trim raw
    if ["1", "true", "on", "yes"].any (Text.eqIgnoreAsciiCase text) then .ok true
    else if ["0", "false", "off", "no"].any (Text.eqIgnoreAsciiCase text) then .ok false
    else .error (invalidValue debug raw checkboxTexts)

def deserializeString (debug : String → String) (value : ParamValue) : Except String String :=
  value.intoScalar debug "a string"

def deserializeOption {T : Type} (deserialize : ParamValue → Except String T)
    (value : ParamValue) : Except String (Option T) :=
  match value with
  | null => .ok none
  | value => (deserialize value).map some

end ParamValue

def ParamValue.deserializeInt (debug : String → String) (t : IntType) (value : ParamValue) :
    Except String t.Carrier :=
  value.parseScalar debug t.parse t.expected

/-- An association is its id. -/
def ParamValue.deserializeBelongsTo {P : Type} (debug : String → String) (value : ParamValue) :
    Except String (BelongsTo P) :=
  (value.deserializeInt debug .u64).map BelongsTo.new

end Model

/-! ## Values that are written -/

/-- Digits that are written are those of the number. -/
theorem parseDigits_toString (n : ℕ) : parseDigits (toString n).toList = some n := by
  have hn : Nat.ofDigitChars 10 (toString n).toList 0 = n := by
    rw [Nat.toString_eq_repr, Nat.toList_repr, Nat.ofDigitChars_ten_toDigits]
  rw [parseDigits, if_pos ⟨Sql.toList_toString_ne_nil n,
    List.all_eq_true.mpr Sql.isDigit_of_mem_toString⟩, hn]

/-- A text that begins with a digit has no sign. -/
theorem parseSigned_toString (isSigned : Bool) (n : ℕ) :
    parseSigned isSigned (toString n).toList = some (n : ℤ) := by
  have hdigits := parseDigits_toString n
  have hall := Sql.isDigit_of_mem_toString (n := n)
  cases hchars : (toString n).toList with
  | nil => exact absurd hchars (Sql.toList_toString_ne_nil n)
  | cons c rest =>
    rw [hchars] at hdigits hall
    have hc : c.isDigit = true := hall c List.mem_cons_self
    have hplus : c ≠ '+' := by
      rintro rfl
      cases hc
    have hminus : c ≠ '-' := by
      rintro rfl
      cases hc
    rw [parseSigned]
    · rw [hdigits]
      rfl
    · exact fun digits heq => hplus (List.cons.inj heq).1
    · exact fun digits heq => hminus (List.cons.inj heq).1

theorem isSigned_of_holds_neg {t : IntType} {n : ℤ} (h : t.Holds n) (hneg : n < 0) :
    t.isSigned = true := by
  have hmin := h.1
  cases t
  case u8 | u16 | u32 | u64 => exact absurd hmin (not_le.mpr hneg)
  all_goals rfl

/-- **An integer is parsed** as what it is written as. -/
theorem IntType.parse_toString (t : IntType) (value : t.Carrier) :
    t.parse (toString value.1) = some value := by
  obtain ⟨n, h⟩ := value
  have hsigned : parseSigned t.isSigned (toString n).toList = some n := by
    cases n with
    | ofNat m => exact parseSigned_toString t.isSigned m
    | negSucc m =>
      have htext : (toString (Int.negSucc m)).toList = '-' :: (toString (m + 1)).toList :=
        String.toList_append ..
      rw [htext, parseSigned, if_pos (isSigned_of_holds_neg h (Int.negSucc_lt_zero m)),
        parseDigits_toString]
      rfl
  rw [parse, hsigned, Option.bind_some, dif_pos h]

namespace Model.ParamValue

variable {T : Type} (debug : String → String)

/-- **The text of an integer** is read as it. -/
theorem deserializeInt_toString (t : IntType) (value : t.Carrier) :
    (scalar (toString value.1)).deserializeInt debug t = .ok value := by
  have hparse := t.parse_toString value
  simp only [deserializeInt, parseScalar, intoScalar, Except.bind, hparse]

/-- The text of a checkbox is read as it, and so is that of a browser. -/
theorem deserializeBool_toString (value : Bool) :
    (scalar (toString value)).deserializeBool debug = .ok value := by
  cases value <;> rfl

/-- Null is no value, and anything else is one. -/
theorem deserializeOption_of_ne_null {deserialize : ParamValue → Except String T}
    {value : ParamValue} (h : value ≠ null) :
    deserializeOption deserialize value = (deserialize value).map some := by
  cases value with
  | null => exact absurd rfl h
  | scalar | list | map => rfl

example : ((scalar " On ").deserializeBool debug, (scalar "+7").deserializeInt debug .u8)
    = (.ok true, .ok ⟨7, by decide⟩) := by
  rfl

end Model.ParamValue

end Seekwel
