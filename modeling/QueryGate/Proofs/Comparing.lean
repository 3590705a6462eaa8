import QueryGate.Proofs.ColumnReference
import QueryGate.Proofs.Draft
import QueryGate.Proofs.Lexing
import QueryGate.Proofs.Numeral

/-! A compiled condition is read back as the comparison of its field, its operator and its operand. -/
namespace QueryGate
open Reading

namespace Reading

def Part.ofText (s : List Char) : Part := if s = ['*'] then .star else .name s

def Part.token : Part → Token
  | star => .mark '*'
  | name s => .name s

def partsOf (name : String) : List Part := (name.toList.splitOn '.').map Part.ofText

def dotted : List Part → List Token
  | [] => []
  | [p] => [p.token]
  | p :: rest => p.token :: .mark '.' :: dotted rest

def markTokens (mark : List Char) : List Token := if mark = ['?'] then [.mark '?'] else [.word mark]

def Operand.tokens : Operand → List Token
  | nothing => []
  | parameter mark true => .mark '(' :: (markTokens mark ++ [.mark ')'])
  | parameter mark false => markTokens mark
  | column ps => dotted ps

def Comparison.tokens (c : Comparison) : List Token := dotted c.column ++ operatorTokens c.operator ++ c.operand.tokens

def Operand.Fits (operator : Operator) : Operand → Prop
  | nothing => operator.isUnary = true
  | parameter mark _ => operator.isUnary = false ∧ (mark = ['?'] ∨ ∃ k, mark = '$' :: k)
  | column ps => operator.isUnary = false ∧ ps ≠ []

theorem partsOf_ne_nil (name : String) : partsOf name ≠ [] :=
  Splitting.map_splitOn_ne_nil Part.ofText '.' name.toList

theorem dotted_cons (p : Part) (rest : List Part) : ∃ ts, dotted (p :: rest) = p.token :: ts := by
  cases rest <;> exact ⟨_, rfl⟩

theorem part?_token (p : Part) : part? p.token = some p := by cases p <;> rfl

theorem dotted?_dotted {ps : List Part} (some : ps ≠ []) {rest : List Token} (h : rest.head? ≠ .some (.mark '.')) :
    dotted? (dotted ps ++ rest) = .some (ps, rest) := by
  induction ps with
  | nil => exact absurd rfl some
  | cons p ps ih =>
    cases ps with
    | nil =>
      cases rest with
      | nil => simp [dotted, dotted?, part?_token]
      | cons t rest =>
        have ht : t ≠ .mark '.' := fun e => h (e ▸ rfl)
        simp [dotted, dotted?, part?_token, ht]
    | cons p' ps =>
      simp [dotted, dotted?, part?_token, ih (List.cons_ne_nil p' ps)]

theorem operator?_tokens (o : Operator) (rest : List Token) :
    operator? (operatorTokens o ++ rest) = some (o, rest) := by cases o <;> rfl

theorem parameter?_tokens {mark : List Char} (h : mark = ['?'] ∨ ∃ k, mark = '$' :: k) (rest : List Token) :
    parameter? (markTokens mark ++ rest) = some (mark, rest) := by
  obtain rfl | ⟨k, rfl⟩ := h
  · rfl
  · have other : '$' :: k ≠ ['?'] := by simp
    simp [markTokens, other, parameter?]

theorem operand?_tokens {o : Operator} {x : Operand} (fits : x.Fits o) (unary : o.isUnary = false)
    {rest : List Token} (h : rest.head? ≠ some (.mark '.')) : operand? (x.tokens ++ rest) = some (x, rest) := by
  cases x with
  | nothing => exact absurd fits (by simp [Operand.Fits, unary])
  | parameter mark enclosed =>
    cases enclosed with
    | true => simp [Operand.tokens, operand?, parameter?_tokens fits.2]
    | false =>
      obtain rfl | ⟨k, rfl⟩ := fits.2
      · rfl
      · simp [Operand.tokens, markTokens, operand?, parameter?]
  | column ps =>
    have read := dotted?_dotted fits.2 h
    obtain ⟨p, ps, rfl⟩ := List.exists_cons_of_ne_nil fits.2
    obtain ⟨ts, hts⟩ := dotted_cons p ps
    rw [hts, List.cons_append] at read
    rw [Operand.tokens, hts, List.cons_append]
    cases p <;> simp only [Part.token] at read ⊢ <;> simp [operand?, parameter?, read]

theorem comparison?_tokens {c : Comparison} (column : c.column ≠ []) (fits : c.operand.Fits c.operator)
    {rest : List Token} (h : rest.head? ≠ some (.mark '.')) :
    comparison? (c.tokens ++ rest) = some (c, rest) := by
  have noDot : (operatorTokens c.operator ++ (c.operand.tokens ++ rest)).head? ≠ some (.mark '.') := by
    cases c.operator <;> simp +decide [operatorTokens]
  rw [Comparison.tokens, List.append_assoc, List.append_assoc, comparison?, dotted?_dotted column noDot]
  obtain ⟨names, operator, operand⟩ := c
  cases unary : operator.isUnary with
  | true =>
    have none : operand = .nothing := by cases operand <;> simp_all [Operand.Fits]
    subst none
    simp [operator?_tokens, unary, Operand.tokens]
  | false =>
    have read := operand?_tokens fits unary h
    simp [operator?_tokens, unary, read]

section
variable (d : Dialect)

theorem lex_part {part : List Char} (h : d.quote ∉ part) {rest : List Char} (hr : rest.head? ≠ some d.quote) :
    lex d.quote none (Identifier.quotePart d.quote part ++ rest) =
      (lex d.quote none rest).map ((Part.ofText part).token :: ·) := by
  unfold Identifier.quotePart Part.ofText
  by_cases star : part = ['*']
  · subst star
    exact lex_mark d (by cases d <;> decide) (by decide) (by decide) rest
  · simp only [if_neg star, List.cons_append, List.append_assoc]
    exact lex_quoted d part rest h hr

theorem lex_parts {parts : List (List Char)} (some : parts ≠ []) (h : ∀ part ∈ parts, d.quote ∉ part)
    {rest : List Char} (hr : rest.head? ≠ .some d.quote) :
    lex d.quote none (['.'].intercalate (parts.map (Identifier.quotePart d.quote)) ++ rest) =
      (lex d.quote none rest).map (dotted (parts.map Part.ofText) ++ ·) := by
  induction parts with
  | nil => exact absurd rfl some
  | cons part parts ih =>
    obtain ⟨hpart, hparts⟩ := List.forall_mem_cons.mp h
    cases parts with
    | nil =>
      rw [List.map_singleton, List.intercalate_singleton, lex_part d hpart hr]
      rfl
    | cons next parts =>
      have dot : ∀ s, ('.' :: s : List Char).head? ≠ .some d.quote := by
        intro s
        cases d <;> simp [Dialect.quote]
      rw [List.map_cons, List.map_cons, List.intercalate_cons_cons, ← List.map_cons, List.append_assoc,
        List.append_assoc, List.singleton_append, lex_part d hpart (dot _), lex_dot, ih (by simp) hparts,
        Option.map_map, Option.map_map]
      rfl

variable {d}

theorem Lexes.name {s : String} (h : Identifier.IsPlain s.toList) :
    Lexes d (Identifier.escapeChars d.quote s.toList) (dotted (partsOf s)) := by
  intro rest hr
  rw [Identifier.escapeChars_of_isPlain d h]
  refine lex_parts d (List.splitOn_ne_nil _ _) (fun part hp => ?_) (hr.head_ne_quote d)
  exact fun hq => h.quote_not_mem d (Splitting.mem_of_mem_splitOn hp hq)

theorem marker_question (h : d ≠ .postgres) (i : Int) : (d.marker i).toList = ['?'] := by
  cases d
  · simp [Dialect.marker]
  · exact absurd rfl h
  · simp [Dialect.marker]

theorem marker_dollar (i : Int) : (Dialect.postgres.marker i).toList = '$' :: (toString i).toList :=
  String.toList_append

theorem marker_shape (d : Dialect) (i : Int) :
    (d.marker i).toList = ['?'] ∨ ∃ k, (d.marker i).toList = '$' :: k := by
  by_cases h : d = .postgres
  · subst h
    exact .inr ⟨_, marker_dollar i⟩
  · exact .inl (marker_question h i)

theorem Lexes.mark (i : Int) : Lexes d (d.marker i).toList (markTokens (d.marker i).toList) := by
  by_cases h : d = .postgres
  · subst h
    have letters : ∀ c ∈ (toString i).toList, isLetter c := by
      intro c hc
      rcases Numeral.digit_or_sign_of_mem hc with digit | rfl
      · simp [isLetter, Char.isAlphanum, digit]
      · decide
    have other : '$' :: (toString i).toList ≠ ['?'] := by simp
    rw [marker_dollar, markTokens, if_neg other]
    refine Lexes.run ?_
    simp only [isRun, List.isEmpty_cons, List.all_cons, List.all_eq_true.mpr letters]
    rfl
  · intro rest _
    rw [marker_question h]
    exact lex_mark d (by cases d <;> decide) (by decide) (by decide) rest

end
end Reading
end QueryGate
