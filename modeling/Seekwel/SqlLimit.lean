import Seekwel.SqlLexer

/-!
# Limits

The `LIMIT` and `OFFSET` clauses that end a `SELECT` statement, and what
they leave of its rows. Their numbers are integers of 64 bits: a numeral
beyond them is a real number, which SQLite does not accept there. A negative
limit is none.
-/

namespace Sql

/-- The limits of a statement. -/
structure Limits where
  limit : Option ℤ
  offset : Option ℤ
  deriving DecidableEq

/-- **What is left of the rows.** -/
def Limits.window {α : Type} (limits : Limits) (rows : List α) : List α :=
  let rest := rows.drop (limits.offset.getD 0).toNat
  match limits.limit with
  | some limit => if limit < 0 then rest else rest.take limit.toNat
  | none => rest

/-- The integer a numeral denotes. -/
def integer (text : String) : Except String ℤ :=
  if text.toList ≠ [] && text.toList.all Char.isDigit
      && Nat.ofDigitChars 10 text.toList 0 < 2 ^ 63 then
    .ok (Nat.ofDigitChars 10 text.toList 0)
  else .error "datatype mismatch"

/-- The number a clause begins with, and the tokens after it. -/
def bound : List Token → Except String (ℤ × List Token)
  | .number text :: ts => (integer text).map fun n => (n, ts)
  | .symbol "-" :: .number text :: ts => (integer text).map fun n => (-n, ts)
  | _ => .error "syntax error"

/-- The limits that tokens at the end of a statement set. -/
def limits : List Token → Except String Limits
  | [] => .ok ⟨none, none⟩
  | t :: ts =>
    if t.isKeyword "LIMIT" then
      (bound ts).bind fun limit =>
        match limit.2 with
        | [] => .ok ⟨some limit.1, none⟩
        | t :: ts =>
          if t.isKeyword "OFFSET" then
            (bound ts).bind fun offset =>
              if offset.2 = [] then .ok ⟨some limit.1, some offset.1⟩
              else .error "syntax error"
          else .error "syntax error"
    else .error "syntax error"

/-- **The limits that a text at the end of a statement sets.** -/
def readLimits (text : String) : Except String Limits :=
  match tokens text with
  | some ts => limits ts
  | none => .error "unrecognized token"

example : readLimits " LIMIT -1 OFFSET 20" = .ok ⟨some (-1), some 20⟩ := by decide

/-! ## Limits that were written -/

theorem integer_natural (n : ℕ) :
    integer (toString n) = if n < 2 ^ 63 then .ok (n : ℤ) else .error "datatype mismatch" := by
  have hn : Nat.ofDigitChars 10 (toString n).toList 0 = n := by
    rw [Nat.toString_eq_repr, Nat.toList_repr, Nat.ofDigitChars_ten_toDigits]
  simp only [integer, hn, List.all_eq_true.mpr (isDigit_of_mem_toString (n := n)),
    toList_toString_ne_nil, ne_eq, not_false_eq_true, decide_true, Bool.and_self, Bool.true_and,
    decide_eq_true_eq]

theorem limits_limit (ts : List Token) :
    limits (.word "LIMIT" :: ts) = (bound ts).bind fun limit =>
      match limit.2 with
      | [] => .ok ⟨some limit.1, none⟩
      | t :: ts =>
        if t.isKeyword "OFFSET" then
          (bound ts).bind fun offset =>
            if offset.2 = [] then .ok ⟨some limit.1, some offset.1⟩
            else .error "syntax error"
        else .error "syntax error" := rfl

theorem limits_limit_offset {ts us : List Token} (limit : ℤ)
    (h : bound ts = .ok (limit, .word "OFFSET" :: us)) :
    limits (.word "LIMIT" :: ts) = (bound us).bind fun offset =>
      if offset.2 = [] then .ok ⟨some limit, some offset.1⟩ else .error "syntax error" := by
  rw [limits_limit, h]
  rfl

theorem bound_natural (n : ℕ) (ts : List Token) :
    bound (.number (toString n) :: ts)
      = if n < 2 ^ 63 then .ok ((n : ℤ), ts) else .error "datatype mismatch" := by
  rw [bound, integer_natural]
  split_ifs <;> rfl

theorem reads_limit (n : ℕ) :
    Reads (" LIMIT " ++ toString n).toList [.word "LIMIT", .number (toString n)] := by
  rw [String.toList_append]
  exact Reads.after (t := [.word "LIMIT"]) (by decide) (reads_natural n)

theorem reads_offset (n : ℕ) :
    Reads (" OFFSET " ++ toString n).toList [.word "OFFSET", .number (toString n)] := by
  rw [String.toList_append]
  exact Reads.after (t := [.word "OFFSET"]) (by decide) (reads_natural n)

/-- An offset after a limit. -/
theorem reads_append_offset {text : String} {ts : List Token} (h : Reads text.toList ts) (m : ℕ) :
    Reads (text ++ (" OFFSET " ++ toString m)).toList
      (ts ++ [.word "OFFSET", .number (toString m)]) := by
  have hm := reads_offset m
  rw [String.toList_append] at hm ⊢
  rw [String.toList_append]
  exact h.append (c := ' ') (by decide) hm

theorem readLimits_of_reads {text : String} {ts : List Token} (h : Reads text.toList ts) :
    readLimits text = limits ts := by
  simp [readLimits, h.tokens_eq]

theorem readLimits_limit (n : ℕ) :
    readLimits (" LIMIT " ++ toString n)
      = if n < 2 ^ 63 then .ok ⟨some n, none⟩ else .error "datatype mismatch" := by
  rw [readLimits_of_reads (reads_limit n), limits_limit, bound_natural]
  split_ifs <;> rfl

theorem readLimits_limit_offset (n : ℕ) {m : ℕ} (hm : m < 2 ^ 63) :
    readLimits (" LIMIT " ++ toString n ++ (" OFFSET " ++ toString m))
      = if n < 2 ^ 63 then .ok ⟨some n, some m⟩ else .error "datatype mismatch" := by
  rw [readLimits_of_reads (reads_append_offset (reads_limit n) m)]
  by_cases hn : n < 2 ^ 63
  · have hlimit : bound ([.number (toString n)] ++ [.word "OFFSET", .number (toString m)])
        = .ok ((n : ℤ), [.word "OFFSET", .number (toString m)]) := by
      rw [List.cons_append, bound_natural, if_pos hn]
      rfl
    rw [List.cons_append, limits_limit_offset n hlimit, bound_natural, if_pos hm, if_pos hn]
    rfl
  · rw [List.cons_append, limits_limit, List.cons_append, bound_natural, if_neg hn, if_neg hn]
    rfl

theorem readLimits_offset {m : ℕ} (hm : m < 2 ^ 63) :
    readLimits (" LIMIT -1" ++ (" OFFSET " ++ toString m)) = .ok ⟨some (-1), some m⟩ := by
  have hlimit : Reads " LIMIT -1".toList [.word "LIMIT", .symbol "-", .number "1"] :=
    Reads.of_scan (u := [.word "LIMIT", .symbol "-"]) (s := .number ['1']) (by decide)
      (by decide) rfl
  rw [readLimits_of_reads (reads_append_offset hlimit m), List.cons_append,
    limits_limit_offset (-1) (by rfl), bound_natural,
    if_pos hm]
  rfl

end Sql
