import Seekwel.SqlCondition

/-!
# Parentheses

Reading an expression uses up tokens whose parentheses are balanced
(`expr_uses`). So what stands in parentheses, if it is balanced itself, is
read apart from everything around it, whatever it is: `expr_parens` says so
of the right operand of an operator. A name may contribute any tokens to a
condition as long as they are `Closed`.
-/

namespace Sql

/-- The number of parentheses that are open after some tokens, if none is
closed that is not open. -/
def balance : ℕ → List Token → Option ℕ
  | n, [] => some n
  | n, t :: ts =>
    if t = .symbol "(" then balance (n + 1) ts
    else if t = .symbol ")" then
      match n with
      | 0 => none
      | n + 1 => balance n ts
    else balance n ts

/-- **Tokens that close the parentheses they open**, and no others. -/
def Balanced (ts : List Token) : Prop := ∀ n, balance n ts = some n

/-- A token that is no parenthesis. -/
def Token.IsPlain (t : Token) : Prop := t ≠ .symbol "(" ∧ t ≠ .symbol ")"

instance (t : Token) : Decidable t.IsPlain := inferInstanceAs (Decidable (_ ∧ _))

theorem balance_append (n : ℕ) (ts us : List Token) :
    balance n (ts ++ us) = (balance n ts).bind fun m => balance m us := by
  induction ts generalizing n with
  | nil => rfl
  | cons t ts ih =>
    simp only [List.cons_append, balance]
    split_ifs
    · exact ih _
    · cases n with
      | zero => rfl
      | succ n => exact ih n
    · exact ih n

theorem balanced_nil : Balanced [] := fun _ => rfl

theorem Balanced.append {ts us : List Token} (ht : Balanced ts) (hu : Balanced us) :
    Balanced (ts ++ us) := fun n => by
  rw [balance_append, ht n, Option.bind_some, hu n]

theorem Balanced.cons {t : Token} (h : t.IsPlain) {ts : List Token} (ht : Balanced ts) :
    Balanced (t :: ts) := fun n => by
  simp [balance, h.1, h.2, ht n]

theorem Balanced.parens {ts : List Token} (h : Balanced ts) :
    Balanced (.symbol "(" :: (ts ++ [.symbol ")"])) := fun n => by
  simp [balance, balance_append, h (n + 1)]

/-- No closing parenthesis follows balanced tokens within balanced ones. -/
theorem Balanced.not_close {ts us : List Token} (ht : Balanced ts) :
    ¬ Balanced (ts ++ .symbol ")" :: us) := fun h => by
  have h := h 0
  rw [balance_append, ht 0] at h
  simp [balance] at h

/-- The closing parenthesis that follows balanced tokens is determined. -/
theorem Balanced.eq_of_append {ts us : List Token} (ht : Balanced ts) (hu : Balanced us)
    {xs ys : List Token} (h : ts ++ .symbol ")" :: xs = us ++ .symbol ")" :: ys) :
    ts = us ∧ xs = ys := by
  rcases List.append_eq_append_iff.mp h with ⟨vs, rfl, hvs⟩ | ⟨vs, rfl, hvs⟩
  · cases vs with
    | nil => simpa using hvs
    | cons v vs =>
      obtain ⟨rfl, -⟩ := List.cons.inj hvs
      exact absurd hu ht.not_close
  · cases vs with
    | nil => simpa using hvs.symm
    | cons v vs =>
      obtain ⟨rfl, -⟩ := List.cons.inj hvs
      exact absurd ht hu.not_close

/-! ## What reading uses up -/

/-- The tokens that were used up, of which some are left. -/
def Uses (ts rest : List Token) : Prop := ∃ used, ts = used ++ rest ∧ Balanced used

theorem Uses.trans {ts us vs : List Token} (h : Uses ts us) (h' : Uses us vs) :
    Uses ts vs := by
  obtain ⟨a, rfl, ha⟩ := h
  obtain ⟨b, rfl, hb⟩ := h'
  exact ⟨a ++ b, (List.append_assoc ..).symm, ha.append hb⟩

theorem Uses.one {t : Token} (h : t.IsPlain) (ts : List Token) : Uses (t :: ts) ts :=
  ⟨[t], rfl, balanced_nil.cons h⟩

theorem Uses.parens {ts us : List Token} (h : Uses ts (.symbol ")" :: us)) :
    Uses (.symbol "(" :: ts) us := by
  obtain ⟨a, rfl, ha⟩ := h
  exact ⟨.symbol "(" :: (a ++ [.symbol ")"]), by simp, ha.parens⟩

theorem isPlain_of_isKeyword {t : Token} {keyword : String} (h : t.isKeyword keyword = true) :
    t.IsPlain := by
  cases t <;> simp_all [Token.isKeyword, Token.IsPlain]

theorem isPlain_of_atom? {t : Token} {a : Atom} (h : t.atom? = some a) : t.IsPlain := by
  cases t <;> simp_all [Token.atom?, Token.IsPlain]

theorem infix?_uses {ts us : List Token} {op : Infix} (h : infix? ts = some (op, us)) :
    Uses ts us := by
  unfold infix? at h
  split at h
  · rename_i s ts
    have ht : Token.IsPlain (.symbol s) := by
      constructor <;> (rintro heq; cases heq; simp at h)
    have hts : ts = us := by
      split_ifs at h <;> cases h <;> rfl
    exact hts ▸ Uses.one ht ts
  · rename_i t ts _
    split_ifs at h with hor hand his
    · cases h
      exact Uses.one (isPlain_of_isKeyword hor) _
    · cases h
      exact Uses.one (isPlain_of_isKeyword hand) _
    · have ht := isPlain_of_isKeyword his
      split at h
      · rename_i t' ts' 
        split_ifs at h with hnot
        · cases h
          exact (Uses.one ht _).trans (Uses.one (isPlain_of_isKeyword hnot) _)
        · cases h
          exact Uses.one ht _
      · cases h
        exact Uses.one ht _
  · cases h

/-- The rest of a list, with its closing parenthesis. -/
theorem items_uses {ts us : List Token} {as : List Atom} (h : items ts = some (as, us)) :
    Uses ts (.symbol ")" :: us) := by
  fun_induction items ts generalizing as us with
  | case1 t s ts ih =>
    obtain ⟨a, ha, h⟩ := Option.bind_eq_some_iff.mp h
    have ht := isPlain_of_atom? ha
    split_ifs at h with hclose hcomma
    · cases h
      exact hclose ▸ Uses.one ht _
    · obtain ⟨p, hp, h⟩ := Option.map_eq_some_iff.mp h
      cases h
      have hcomma : Token.IsPlain (.symbol s) := by
        subst hcomma
        decide
      exact (Uses.one ht _).trans ((Uses.one hcomma _).trans (ih hp))
  | case2 => cases h

theorem membership?_uses {ts us : List Token} {as : List Atom}
    (h : membership? ts = some (as, us)) : Uses ts us := by
  rcases ts with - | ⟨t, ts⟩
  · cases h
  simp only [membership?] at h
  split_ifs at h with hin
  refine (Uses.one (isPlain_of_isKeyword hin) ts).trans ?_
  unfold list? at h
  split at h
  · cases h
    exact Uses.parens ⟨[], rfl, balanced_nil⟩
  · exact (items_uses h).parens
  · cases h

/-- **Reading uses up balanced tokens.** -/
theorem uses (fuel : ℕ) :
    (∀ level ts e us, expr fuel level ts = some (e, us) → Uses ts us)
      ∧ (∀ ts e us, operand fuel ts = some (e, us) → Uses ts us)
      ∧ ∀ level l ts e us, operators fuel level l ts = some (e, us) → Uses ts us := by
  induction fuel with
  | zero => simp [expr, operand, operators]
  | succ fuel ih =>
    obtain ⟨hexpr, hoperand, hoperators⟩ := ih
    refine ⟨fun level ts e us h => ?_, fun ts e us h => ?_, fun level l ts e us h => ?_⟩
    · rw [expr] at h
      obtain ⟨p, hp, h⟩ := Option.bind_eq_some_iff.mp h
      exact (hoperand ts p.1 p.2 hp).trans (hoperators level p.1 p.2 e us h)
    · rcases ts with - | ⟨t, ts⟩
      · cases h
      rw [operand] at h
      split_ifs at h with hopen hnot
      · obtain ⟨p, hp, h⟩ := Option.bind_eq_some_iff.mp h
        have hinside := hexpr 0 ts p.1 p.2 hp
        split at h
        · rename_i vs heq
          cases h
          rw [heq] at hinside
          exact hopen ▸ hinside.parens
        · cases h
      · obtain ⟨p, hp, h⟩ := Option.map_eq_some_iff.mp h
        cases h
        exact (Uses.one (isPlain_of_isKeyword hnot) ts).trans (hexpr 3 ts p.1 p.2 hp)
      · obtain ⟨a, ha, h⟩ := Option.map_eq_some_iff.mp h
        cases h
        exact Uses.one (isPlain_of_atom? ha) _
    · rw [operators] at h
      split at h
      · rename_i op vs hop
        split_ifs at h with hlevel
        · cases h
          exact ⟨[], rfl, balanced_nil⟩
        · obtain ⟨p, hp, h⟩ := Option.bind_eq_some_iff.mp h
          exact (infix?_uses hop).trans
            ((hexpr _ vs p.1 p.2 hp).trans (hoperators level _ p.2 e us h))
      · split at h
        · rename_i p hp
          split_ifs at h with hlevel
          · cases h
            exact ⟨[], rfl, balanced_nil⟩
          · exact (membership?_uses hp).trans (hoperators level _ p.2 e us h)
        · cases h
          exact ⟨[], rfl, balanced_nil⟩

/-! ## What stands in parentheses is read apart -/

/-- What some tokens are read as where no operator follows. -/
def ReadAs (ts : List Token) (e : Expr) : Prop :=
  ∃ fuel rest, Stops rest ∧ expr fuel 0 (ts ++ rest) = some (e, rest)

theorem readAs_of_parse {text : String} {ts : List Token} {e : Expr}
    (ht : tokens text = some ts) (h : parse text = some e) : ReadAs ts e := by
  simp only [parse, ht, Option.bind_some] at h
  split at h
  · rename_i e' heq
    cases h
    exact ⟨_, [], stops_nil, by rw [List.append_nil]; exact heq⟩
  · cases h

/-- Balanced tokens in parentheses. -/
theorem operand_parens {ts rest us : List Token} (hts : Balanced ts) {fuel : ℕ} {e : Expr}
    (h : operand fuel (.symbol "(" :: (ts ++ .symbol ")" :: rest)) = some (e, us)) :
    ReadAs ts e ∧ us = rest := by
  cases fuel with
  | zero => cases h
  | succ fuel =>
    rw [operand, if_pos rfl] at h
    obtain ⟨p, hp, h⟩ := Option.bind_eq_some_iff.mp h
    obtain ⟨used, hused, hbal⟩ := (uses fuel).1 0 _ p.1 p.2 hp
    split at h
    · rename_i vs heq
      cases h
      rw [heq] at hused
      obtain ⟨rfl, rfl⟩ := hts.eq_of_append hbal hused
      refine ⟨⟨fuel, _, stops_close rest, ?_⟩, rfl⟩
      rw [hp, ← heq]
    · cases h

theorem eq_of_stops {ts us : List Token} (hts : Stops ts) {fuel level : ℕ} {l e : Expr}
    (h : operators fuel level l ts = some (e, us)) : e = l ∧ us = ts := by
  cases fuel with
  | zero => cases h
  | succ fuel =>
    rw [operators_of_stops hts] at h
    cases h
    exact ⟨rfl, rfl⟩

/-- Balanced tokens in parentheses, where no operator follows. -/
theorem expr_parens {ts rest us : List Token} (hts : Balanced ts) (hrest : Stops rest)
    {fuel level : ℕ} {e : Expr}
    (h : expr fuel level (.symbol "(" :: (ts ++ .symbol ")" :: rest)) = some (e, us)) :
    ReadAs ts e ∧ us = rest := by
  cases fuel with
  | zero => cases h
  | succ fuel =>
    rw [expr] at h
    obtain ⟨p, hp, h⟩ := Option.bind_eq_some_iff.mp h
    obtain ⟨hread, heq⟩ := operand_parens hts hp
    rw [heq] at h
    obtain ⟨rfl, rfl⟩ := eq_of_stops hrest h
    exact ⟨hread, rfl⟩

/-- **Two texts in parentheses with an operator between them** are read as
the operator applied to what each is read as. -/
theorem parse_connected {left right word : String} {ls rs : List Token} (op : Infix) {e : Expr}
    (hl : Reads left.toList ls) (hls : Balanced ls) (hr : Reads right.toList rs)
    (hrs : Balanced rs) (hw : isIdentifier word = true)
    (hop : ∀ ts, infix? (.word word :: ts) = some (op, ts))
    (h : parse ("(" ++ left ++ ") " ++ word ++ " (" ++ right ++ ")") = some e) :
    ∃ l r, ReadAs ls l ∧ ReadAs rs r ∧ e = op.node l r := by
  obtain ⟨fuel, rest, hrest, h⟩ := readAs_of_parse (reads_connected hl hr hw).tokens_eq h
  have htext : .symbol "(" :: (ls ++ .symbol ")" :: .word word :: .symbol "("
        :: (rs ++ [.symbol ")"])) ++ rest
      = .symbol "(" :: (ls ++ .symbol ")" :: .word word :: .symbol "("
        :: (rs ++ .symbol ")" :: rest)) := by simp
  rw [htext] at h
  cases fuel with
  | zero => cases h
  | succ fuel =>
    rw [expr] at h
    obtain ⟨p, hp, h⟩ := Option.bind_eq_some_iff.mp h
    obtain ⟨hleft, heq⟩ := operand_parens hls hp
    rw [heq] at h
    cases fuel with
    | zero => cases h
    | succ fuel =>
      rw [operators, hop] at h
      simp only [Nat.not_lt_zero, if_false] at h
      obtain ⟨q, hq, h⟩ := Option.bind_eq_some_iff.mp h
      obtain ⟨hright, heq⟩ := expr_parens hrs hrest hq
      rw [heq] at h
      obtain ⟨rfl, -⟩ := eq_of_stops hrest h
      exact ⟨p.1, q.1, hleft, hright, rfl⟩

theorem operand_operator (op : Operator) (fuel : ℕ) (ts : List Token) :
    operand fuel (op.token :: ts) = none := by
  cases fuel with
  | zero => rfl
  | succ fuel => cases op <;> rfl

theorem infix?_operator (op : Operator) (ts : List Token) :
    infix? (op.token :: ts) = some (.compare op, ts) := by
  cases op <;> rfl

/-- A word before an operator is the keyword `NULL` or a column. -/
theorem operand_word {name : String} {op : Operator} {fuel : ℕ} {ts : List Token}
    {p : Expr × List Token} (h : operand fuel (.word name :: op.token :: ts) = some p) :
    (p.1 = .atom .null ∨ p.1 = .atom (.column name)) ∧ p.2 = op.token :: ts := by
  cases fuel with
  | zero => cases h
  | succ fuel =>
    rw [operand, if_neg (by simp)] at h
    split_ifs at h with hnot
    · obtain ⟨q, hq, -⟩ := Option.map_eq_some_iff.mp h
      cases fuel with
      | zero => cases hq
      | succ fuel =>
        rw [expr, operand_operator] at hq
        cases hq
    · obtain ⟨a, ha, rfl⟩ := Option.map_eq_some_iff.mp h
      simp only [Token.atom?] at ha
      split_ifs at ha with hnull hname
      · cases ha
        exact ⟨.inl rfl, rfl⟩
      · cases ha
        exact ⟨.inr rfl, rfl⟩

/-- The tokens of a comparison of a name with a parameter: unless the name is
the keyword `NULL`, it is read as a column. -/
theorem readAs_compare {name : String} {op : Operator} {n : ℕ} {e : Expr}
    (h : ReadAs [.word name, op.token, .param ("?" ++ toString n)] e) :
    ∃ l, (l = .atom .null ∨ l = .atom (.column name))
      ∧ e = .compare op l (.atom (.param n)) := by
  obtain ⟨fuel, rest, hrest, h⟩ := h
  cases fuel with
  | zero => cases h
  | succ fuel =>
    rw [List.cons_append, List.cons_append, expr] at h
    obtain ⟨p, hp, h⟩ := Option.bind_eq_some_iff.mp h
    obtain ⟨hleft, heq⟩ := operand_word hp
    rw [heq] at h
    cases fuel with
    | zero => cases h
    | succ fuel =>
      rw [operators, infix?_operator] at h
      simp only [Nat.not_lt_zero, if_false] at h
      obtain ⟨q, hq, h⟩ := Option.bind_eq_some_iff.mp h
      cases fuel with
      | zero => cases hq
      | succ fuel =>
        rw [expr] at hq
        obtain ⟨r, hr, hq⟩ := Option.bind_eq_some_iff.mp hq
        cases fuel with
        | zero => cases hr
        | succ fuel =>
          rw [List.cons_append, operand_of_atom (atom?_param n)] at hr
          cases hr
          obtain ⟨hright, heq⟩ := eq_of_stops (by simpa using hrest) hq
          rw [heq] at h
          obtain ⟨rfl, -⟩ := eq_of_stops (by simpa using hrest) h
          exact ⟨p.1, hleft, by rw [hright]; rfl⟩

/-! ## Texts that contribute to a condition -/

/-- **A text whose tokens are balanced**, and that ends where a token may
end. -/
def Closed (text : String) : Prop := ∃ ts, Reads text.toList ts ∧ Balanced ts

theorem closed_identifier {name : String} (h : isIdentifier name = true) : Closed name :=
  ⟨_, reads_identifier h, balanced_nil.cons (by simp [Token.IsPlain])⟩

theorem closed_compare {name : String} (h : Closed name) (op : Operator) (n : ℕ) :
    Closed (name ++ op.text ++ ("?" ++ toString n)) := by
  obtain ⟨ts, hts, hbal⟩ := h
  refine ⟨_, reads_compare hts op n, hbal.append ?_⟩
  exact Balanced.cons (by cases op <;> decide) (balanced_nil.cons (by simp [Token.IsPlain]))

theorem closed_isNull {name : String} (h : Closed name) : Closed (name ++ " IS NULL") := by
  obtain ⟨ts, hts, hbal⟩ := h
  exact ⟨_, reads_isNull hts, hbal.append (.cons (by decide) (balanced_nil.cons (by decide)))⟩

theorem closed_isNotNull {name : String} (h : Closed name) :
    Closed (name ++ " IS NOT NULL") := by
  obtain ⟨ts, hts, hbal⟩ := h
  exact ⟨_, reads_isNotNull hts, hbal.append
    (.cons (by decide) (.cons (by decide) (balanced_nil.cons (by decide))))⟩

theorem closed_false : Closed "0 = 1" :=
  ⟨_, reads_false, .cons (by decide) (.cons (by decide) (balanced_nil.cons (by decide)))⟩

theorem balanced_intercalate {ts : List Token} (h : ∀ t ∈ ts, t.IsPlain) :
    Balanced (List.intercalate [.symbol ","] (ts.map ([·]))) := by
  induction ts with
  | nil => exact balanced_nil
  | cons t ts ih =>
    have ht := h t List.mem_cons_self
    have ih := ih fun u hu => h u (List.mem_cons_of_mem t hu)
    cases ts with
    | nil => simpa [List.intercalate] using balanced_nil.cons ht
    | cons u us =>
      have hcomma := ih.cons (t := .symbol ",") (by decide)
      simpa [List.intercalate] using hcomma.cons ht

theorem closed_mem {name : String} (h : Closed name) {ns : List ℕ} (hne : ns ≠ []) :
    Closed (name ++ " IN (" ++ Text.join ", " (ns.map fun n => "?" ++ toString n) ++ ")") := by
  obtain ⟨ts, hts, hbal⟩ := h
  refine ⟨_, reads_mem hts hne, hbal.append (Balanced.cons (by decide) (Balanced.parens ?_))⟩
  exact balanced_intercalate (by simp [Token.IsPlain])

theorem closed_connected {left right word : String} (hl : Closed left) (hr : Closed right)
    (hw : isIdentifier word = true) :
    Closed ("(" ++ left ++ ") " ++ word ++ " (" ++ right ++ ")") := by
  obtain ⟨ls, hls, hlbal⟩ := hl
  obtain ⟨rs, hrs, hrbal⟩ := hr
  refine ⟨_, reads_connected hls hrs hw, ?_⟩
  have hbal := hlbal.parens.append (Balanced.cons (t := .word word) (by simp [Token.IsPlain])
    hrbal.parens)
  simpa using hbal

end Sql
