import Seekwel.SqlLexer

/-!
# Decimal numerals

Digits, with a fraction and an exponent after them or not, are one token
(`reads_decimal`). The scanner takes the sign of an exponent for a part of
the numeral because what stands before the `e` is a numeral already.
-/

namespace Sql

/-- The fraction of a numeral, if it has one. -/
inductive IsFraction : List Char → Prop where
  | none : IsFraction []
  | digits {ds : List Char} (h : ∀ c ∈ ds, c.isDigit = true) : IsFraction ('.' :: ds)

/-- The exponent of a numeral, if it has one. -/
inductive IsExponent : List Char → Prop where
  | none : IsExponent []
  | digits {e : Char} {sign ds : List Char} (he : e = 'e' ∨ e = 'E')
    (hsign : sign = [] ∨ sign = ['+'] ∨ sign = ['-']) (hne : ds ≠ [])
    (h : ∀ c ∈ ds, c.isDigit = true) : IsExponent (e :: (sign ++ ds))

/-- **A decimal numeral.** -/
inductive Decimal : List Char → Prop where
  | parts {whole fraction exponent : List Char} (hne : whole ≠ [])
    (hwhole : ∀ c ∈ whole, c.isDigit = true) (hfraction : IsFraction fraction)
    (hexponent : IsExponent exponent) : Decimal (whole ++ (fraction ++ exponent))

/-! ## Numerals as the scanner checks them -/

/-- Digits end where something else begins. -/
theorem span_digits {ds rest : List Char} (h : ∀ c ∈ ds, c.isDigit = true)
    (hrest : ∀ c ∈ rest.head?, c.isDigit = false) :
    (ds ++ rest).takeWhile Char.isDigit = ds ∧ (ds ++ rest).dropWhile Char.isDigit = rest := by
  rw [List.takeWhile_append_of_pos h, List.dropWhile_append_of_pos h]
  cases rest with
  | nil => exact ⟨List.append_nil ds, rfl⟩
  | cons c rest =>
    have hc : c.isDigit = false := hrest c rfl
    simp [hc]

theorem IsExponent.head?_not_isDigit {exponent : List Char} (h : IsExponent exponent) :
    ∀ c ∈ exponent.head?, c.isDigit = false := by
  cases h with
  | none => exact nofun
  | digits he hsign hne h =>
    rintro c ⟨⟩
    obtain rfl | rfl := he
    all_goals rfl

theorem IsFraction.head?_not_isDigit {fraction exponent : List Char} (h : IsFraction fraction)
    (he : IsExponent exponent) : ∀ c ∈ (fraction ++ exponent).head?, c.isDigit = false := by
  cases h with
  | none => exact he.head?_not_isDigit
  | digits h =>
    rintro c ⟨⟩
    rfl

/-- What a numeral may end with, as the scanner checks it. -/
theorem IsExponent.check {exponent : List Char} : IsExponent exponent →
    (match exponent with
      | [] => true
      | e :: rest =>
        let digits := match rest with
          | '+' :: rest => rest
          | '-' :: rest => rest
          | rest => rest
        (e = 'e' || e = 'E') && !digits.isEmpty && digits.all Char.isDigit) = true := by
  intro h
  cases h with
  | none => rfl
  | @digits e sign ds he hsign hne h =>
    have hmark : (decide (e = 'e') || decide (e = 'E')) = true := by
      simpa using he
    obtain rfl | rfl | rfl := hsign
    · -- no digit is a sign
      cases ds with
      | nil => exact absurd rfl hne
      | cons d ds =>
        have hplus : d ≠ '+' := by
          rintro rfl
          cases h _ List.mem_cons_self
        have hminus : d ≠ '-' := by
          rintro rfl
          cases h _ List.mem_cons_self
        simp_all
    · simp_all
    · simp_all

theorem isDecimal_parts {whole fraction exponent : List Char} (hne : whole ≠ [])
    (hwhole : ∀ c ∈ whole, c.isDigit = true) (hfraction : IsFraction fraction)
    (hexponent : IsExponent exponent) :
    isDecimal (whole ++ (fraction ++ exponent)) = true := by
  obtain ⟨htake, hdrop⟩ := span_digits hwhole (hfraction.head?_not_isDigit hexponent)
  have hcheck := hexponent.check
  have hempty : whole.isEmpty = false := by simpa using hne
  unfold isDecimal
  rw [htake, hdrop]
  dsimp only
  rw [hempty]
  cases hfraction with
  | none =>
    cases hexponent with
    | none => rfl
    | digits he hsign hne' h =>
      obtain rfl | rfl := he
      all_goals exact hcheck
  | digits h =>
    obtain ⟨htake', hdrop'⟩ := span_digits h hexponent.head?_not_isDigit
    simp only [List.cons_append, htake', hdrop']
    exact hcheck

theorem isNumeral_parts {whole fraction exponent : List Char} (hne : whole ≠ [])
    (hwhole : ∀ c ∈ whole, c.isDigit = true) (hfraction : IsFraction fraction)
    (hexponent : IsExponent exponent) :
    isNumeral (whole ++ (fraction ++ exponent)) = true := by
  have hdecimal := isDecimal_parts hne hwhole hfraction hexponent
  -- the second character is a digit, a point or the mark of an exponent
  have hx : ∀ x y rest, whole ++ (fraction ++ exponent) = x :: y :: rest → y ≠ 'x' ∧ y ≠ 'X' := by
    intro x y rest heq
    cases whole with
    | nil => exact absurd rfl hne
    | cons d ds =>
      obtain ⟨-, heq⟩ := List.cons.inj heq
      cases ds with
      | cons d' ds =>
        obtain ⟨rfl, -⟩ := List.cons.inj heq
        have hd := hwhole d' (by simp)
        constructor <;> (rintro rfl; cases hd)
      | nil =>
        cases hfraction with
        | digits h =>
          obtain ⟨rfl, -⟩ := List.cons.inj heq
          decide
        | none =>
          cases hexponent with
          | none => cases heq
          | digits he hsign hne h =>
            obtain ⟨rfl, -⟩ := List.cons.inj heq
            obtain rfl | rfl := he
            all_goals decide
  unfold isNumeral
  split
  · rename_i digits heq
    exact absurd rfl (hx _ _ _ heq).1
  · rename_i digits heq
    exact absurd rfl (hx _ _ _ heq).2
  · exact hdecimal

/-! ## Numerals as they are scanned -/

theorem scan_whole {whole : List Char} (hne : whole ≠ [])
    (h : ∀ c ∈ whole, c.isDigit = true) : scan .start whole = some ([], .number whole) := by
  cases whole with
  | nil => exact absurd rfl hne
  | cons d ds =>
    have hd := begin_of_isDigit (h d List.mem_cons_self)
    have hds := scan_number_digits (fun c hc => h c (List.mem_cons_of_mem d hc)) [d]
    simp [scan, State.step, State.extend, State.finish, hd, hds]

theorem IsFraction.scan {fraction : List Char} (h : IsFraction fraction) (read : List Char) :
    Sql.scan (.number read) fraction = some ([], .number (read ++ fraction)) := by
  cases h with
  | none => simp [Sql.scan]
  | @digits ds h =>
    have hds := scan_number_digits h (read ++ ['.'])
    simpa [Sql.scan, State.step, State.extend] using hds

/-- An exponent goes on with a numeral, its sign included. -/
theorem IsExponent.scan {exponent : List Char} (h : IsExponent exponent) {read : List Char}
    (hread : isDecimal read = true) :
    Sql.scan (.number read) exponent = some ([], .number (read ++ exponent)) := by
  cases h with
  | none => simp [Sql.scan]
  | @digits e sign ds he hsign hne h =>
    have hidchar : isIdChar e = true := by
      obtain rfl | rfl := he
      all_goals decide
    have hends : endsInExponent (read ++ [e]) = true := by
      simp [endsInExponent, hread, he]
    have hmark : Sql.scan (.number read) [e] = some ([], .number (read ++ [e])) := by
      simp [Sql.scan, State.step, State.extend, hidchar]
    have hplus : Sql.scan (.number (read ++ [e])) sign = some ([], .number (read ++ [e] ++ sign)) := by
      obtain rfl | rfl | rfl := hsign
      all_goals simp [Sql.scan, State.step, State.extend, hends]
    have hall := scan_append_of_eq hmark
      (scan_append_of_eq hplus (scan_number_digits h (read ++ [e] ++ sign)))
    simpa using hall

/-- **A decimal numeral is read as one token.** -/
theorem reads_decimal {text : List Char} (h : Decimal text) :
    Reads text [.number (String.ofList text)] := by
  cases h with
  | @parts whole fraction exponent hne hwhole hfraction hexponent =>
    have hread : isDecimal (whole ++ fraction) = true := by
      simpa using isDecimal_parts hne hwhole hfraction .none
    have hscan := scan_append_of_eq (scan_whole hne hwhole)
      (scan_append_of_eq (hfraction.scan whole) (hexponent.scan hread))
    rw [List.append_assoc] at hscan
    refine Reads.of_scan (v := [.number _]) hscan ?_ rfl
    rw [State.finish, if_pos (isNumeral_parts hne hwhole hfraction hexponent)]

theorem Decimal.begins {text : List Char} (h : Decimal text) :
    text.head?.any Char.isDigit = true := by
  cases h with
  | @parts whole fraction exponent hne hwhole hfraction hexponent =>
    cases whole with
    | nil => exact absurd rfl hne
    | cons d ds => exact hwhole d List.mem_cons_self

theorem Decimal.not_nul {text : List Char} (h : Decimal text) : '\x00' ∉ text := by
  have hdigits : ∀ {ds : List Char}, (∀ c ∈ ds, c.isDigit = true) → '\x00' ∉ ds :=
    fun h hmem => absurd (h _ hmem) (by decide)
  cases h with
  | parts hne hwhole hfraction hexponent =>
    simp only [List.mem_append, not_or]
    refine ⟨hdigits hwhole, ?_, ?_⟩
    · cases hfraction with
      | none => exact List.not_mem_nil
      | digits h => simpa using hdigits h
    · cases hexponent with
      | none => exact List.not_mem_nil
      | digits he hsign hne h =>
        have hds := hdigits h
        obtain rfl | rfl := he <;> obtain rfl | rfl | rfl := hsign <;> simpa using hds

end Sql
