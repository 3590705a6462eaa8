import QueryGate.Proofs.PlainName
import QueryGate.Proofs.Reading

/-! Texts whose tokens are known, whatever blank, comma or closing parenthesis stands behind them. -/
namespace QueryGate.Reading

def Breaks (rest : List Char) : Prop := ∀ c ∈ rest.head?, c ∈ [' ', ',', ')']

theorem breaks_cons {c : Char} (h : c ∈ [' ', ',', ')']) (rest : List Char) : Breaks (c :: rest) :=
  fun _ first => Option.some.inj first ▸ h

theorem breaks_blank (rest : List Char) : Breaks (' ' :: rest) := breaks_cons (by decide) rest

theorem breaks_closing (rest : List Char) : Breaks (')' :: rest) := breaks_cons (by decide) rest

theorem breaks_nil : Breaks [] := nofun

/-- A text has some tokens, which do not run on into what follows. -/
def Lexes (d : Dialect) (s : List Char) (ts : List Token) : Prop :=
  ∀ rest, Breaks rest → lex d.quote none (s ++ rest) = (lex d.quote none rest).map (ts ++ ·)

def isRun (w : List Char) : Bool := !w.isEmpty && (w.all isLetter || w.all isSign)

theorem Breaks.head_ne_quote {rest : List Char} (h : Breaks rest) (d : Dialect) : rest.head? ≠ some d.quote := by
  intro e
  have quote : d.quote ∉ [' ', ',', ')'] := by cases d <;> decide
  exact quote (h d.quote e)

theorem Breaks.not_joined {rest : List Char} (h : Breaks rest) (c : Char) :
    rest.head?.any (areJoined c) = false := by
  cases e : rest.head? with
  | none => rfl
  | some b =>
    have marks : ∀ b ∈ [' ', ',', ')'], isLetter b = false ∧ isSign b = false := by
      simp only [List.mem_cons, List.not_mem_nil, or_false, forall_eq_or_imp, forall_eq]
      decide
    have hb := marks b (h b e)
    simp only [Option.any_some, areJoined, hb.1, hb.2, Bool.and_false, Bool.or_self]

section
variable (d : Dialect)

theorem lex_blank (s : List Char) : lex d.quote none (' ' :: s) = lex d.quote none s := by
  cases d <;> simp [lex, Dialect.quote]

theorem lex_open (s : List Char) : lex d.quote none (d.quote :: s) = lex d.quote (some []) s := by
  simp [lex]

theorem lex_letter {c : Char} (h : isLetter c || isSign c) (s : List Char) :
    lex d.quote none (c :: s) = (lex d.quote none s).map (extend c s.head?) := by
  have quote : c ≠ d.quote := by
    rintro rfl
    cases d <;> simp [Dialect.quote, isLetter, isSign] at h
  have blank : c ≠ ' ' := by
    rintro rfl
    simp [isLetter, isSign] at h
  simp only [lex, if_neg quote, if_neg blank, h, if_true]

theorem lex_mark {c : Char} (quote : c ≠ d.quote) (blank : c ≠ ' ') (h : (isLetter c || isSign c) = false)
    (s : List Char) : lex d.quote none (c :: s) = (lex d.quote none s).map (.mark c :: ·) := by
  simp only [lex, if_neg quote, if_neg blank, h, Bool.false_eq_true, if_false]

theorem lex_dot (s : List Char) : lex d.quote none ('.' :: s) = (lex d.quote none s).map (.mark '.' :: ·) :=
  lex_mark d (by cases d <;> decide) (by decide) (by decide) s

/-- A quoted name ends at the quote that no other quote follows. -/
theorem lex_inside (n m rest : List Char) (hm : d.quote ∉ m) (hr : rest.head? ≠ some d.quote) :
    lex d.quote (some n) (m ++ d.quote :: rest) = (lex d.quote none rest).map (.name (n ++ m) :: ·) := by
  -- what was read is collected in `n`, which grows as `m` shrinks
  induction m generalizing n with
  | nil =>
    cases rest with
    | nil => simp [lex]
    | cons c rest =>
      have hc : c ≠ d.quote := fun e => hr (e ▸ rfl)
      simp [lex, hc]
  | cons c m ih =>
    obtain ⟨hc, hm⟩ := List.ne_and_not_mem_of_not_mem_cons hm
    have step := ih (n ++ [c]) hm
    rw [List.append_assoc, List.singleton_append] at step
    rw [← step]
    cases m <;> simp [lex, Ne.symm hc]

theorem lex_quoted (m rest : List Char) (hm : d.quote ∉ m) (hr : rest.head? ≠ some d.quote) :
    lex d.quote none (d.quote :: (m ++ d.quote :: rest)) = (lex d.quote none rest).map (.name m :: ·) := by
  rw [lex_open, lex_inside d [] m rest hm hr, List.nil_append]

end

variable {d : Dialect}

theorem Lexes.run {w : List Char} (h : isRun w) : Lexes d w [.word w] := by
  intro rest hr
  induction w with
  | nil => exact absurd h (by decide)
  | cons c w ih =>
    simp only [isRun, List.isEmpty_cons, Bool.not_false, Bool.true_and, List.all_cons] at h
    have hc : isLetter c || isSign c := by grind
    rw [List.cons_append, lex_letter d hc]
    cases w with
    | nil =>
      rw [List.nil_append]
      congr 1
      funext ts
      have stop := hr.not_joined c
      cases ts with
      | nil => rfl
      | cons t ts => cases t <;> simp [extend, stop]
    | cons b w =>
      have joined : areJoined c b = true := by
        simp only [List.all_cons] at h
        unfold areJoined
        grind
      have run : isRun (b :: w) := by
        simp only [isRun, List.isEmpty_cons, Bool.not_false, Bool.true_and]
        grind
      rw [ih run, Option.map_map]
      congr 1
      funext ts
      simp [extend, joined]

theorem Lexes.spaced {s t : List Char} {ts us : List Token} (hs : Lexes d s ts) (ht : Lexes d t us) :
    Lexes d (s ++ ' ' :: t) (ts ++ us) := by
  intro rest hr
  rw [List.append_assoc, List.cons_append, hs _ (breaks_blank _), lex_blank, ht rest hr, Option.map_map]
  congr 1
  funext us'
  exact (List.append_assoc ts us us').symm

theorem Lexes.enclosed {s : List Char} {ts : List Token} (h : Lexes d s ts) :
    Lexes d ('(' :: (s ++ [')'])) (.mark '(' :: (ts ++ [.mark ')'])) := by
  intro rest _
  have opening : '(' ≠ d.quote := by cases d <;> decide
  have closing : ')' ≠ d.quote := by cases d <;> decide
  rw [List.cons_append, lex_mark d opening (by decide) (by decide), List.append_assoc, List.singleton_append,
    h _ (breaks_closing rest), lex_mark d closing (by decide) (by decide), Option.map_map, Option.map_map]
  congr 1
  funext us
  simp

theorem Lexes.words {ws : List (List Char)} (some : ws ≠ []) (h : ∀ w ∈ ws, isRun w) :
    Lexes d ([' '].intercalate ws) (ws.map .word) := by
  induction ws with
  | nil => exact absurd rfl some
  | cons w ws ih =>
    obtain ⟨hw, hws⟩ := List.forall_mem_cons.mp h
    cases ws with
    | nil => exact List.intercalate_singleton ▸ Lexes.run hw
    | cons v ws =>
      rw [List.intercalate_cons_cons, List.append_assoc, List.singleton_append]
      exact (Lexes.run hw).spaced (ih (List.cons_ne_nil v ws) hws)

theorem Lexes.operator (o : Operator) : Lexes d o.text.toList (operatorTokens o) := by
  have runs : ∀ w ∈ o.text.toList.splitOn ' ', isRun w := by cases o <;> decide
  have words := Lexes.words (d := d) (List.splitOn_ne_nil _ _) runs
  rwa [List.intercalate_splitOn] at words

end QueryGate.Reading
