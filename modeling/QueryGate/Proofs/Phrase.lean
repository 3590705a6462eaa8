import QueryGate.Proofs.Comparing

/-! The texts of conditions by their levels of precedence, and that each is read as what it was built from. -/
namespace QueryGate.Reading

/-- Texts that say a formula, by the loosest connective outside their parentheses. -/
inductive Phrase (d : Dialect) : Level → List Char → Formula → Prop where
  | atom {s : List Char} {c : Comparison} (lexes : Lexes d s c.tokens) (column : c.column ≠ [])
      (fits : c.operand.Fits c.operator) : Phrase d .prim s (.atom c)
  | enclosed {s : List Char} {f : Formula} (h : Phrase d .disj s f) : Phrase d .prim ('(' :: (s ++ [')'])) f
  | prim {s : List Char} {f : Formula} (h : Phrase d .prim s f) : Phrase d .neg s f
  | not {s : List Char} {f : Formula} (h : Phrase d .neg s f) : Phrase d .neg ("NOT ".toList ++ s) f.not
  | neg {s : List Char} {f : Formula} (h : Phrase d .neg s f) : Phrase d .conj s f
  | and {s t : List Char} {f g : Formula} (h : Phrase d .neg s f) (h' : Phrase d .conj t g) :
      Phrase d .conj (s ++ " AND ".toList ++ t) (f.and g)
  | conj {s : List Char} {f : Formula} (h : Phrase d .conj s f) : Phrase d .disj s f
  | or {s t : List Char} {f g : Formula} (h : Phrase d .conj s f) (h' : Phrase d .disj t g) :
      Phrase d .disj (s ++ " OR ".toList ++ t) (f.or g)

def Level.isEnd (l : Level) (t : Token) : Bool :=
  match l with
  | .disj => t == .mark ')'
  | .conj => t == .mark ')' || t == wordOr
  | _ => t == .mark ')' || t == wordOr || t == wordAnd

def Level.rank : Level → Nat
  | .disj => 4
  | .conj => 3
  | .neg => 2
  | .prim => 1

def Ends (l : Level) (rest : List Token) : Prop := ∀ t ∈ rest.head?, l.isEnd t = true

/-- Some tokens are read as a formula of a level, whatever stands behind them that ends it. -/
def Parses (l : Level) (ts : List Token) (f : Formula) : Prop :=
  ∀ n rest, 3 * ts.length + l.rank ≤ n → Ends l rest → read l n (ts ++ rest) = some (f, rest)

theorem ends_nil (l : Level) : Ends l [] := nofun

theorem ends_cons {l : Level} {t : Token} (h : l.isEnd t = true) (rest : List Token) : Ends l (t :: rest) := by
  intro u hu
  rwa [← Option.some.inj hu]

theorem Ends.neg {rest : List Token} (h : Ends .conj rest) : Ends .neg rest := by
  intro t ht
  have := h t ht
  simp only [Level.isEnd, Bool.or_eq_true] at this ⊢
  exact .inl this

theorem Ends.conj {rest : List Token} (h : Ends .disj rest) : Ends .conj rest := by
  intro t ht
  have := h t ht
  simp only [Level.isEnd, Bool.or_eq_true] at this ⊢
  exact .inl this

theorem after?_cons (t : Token) (ts : List Token) : after? t (t :: ts) = some ts := by simp [after?]

theorem after?_eq_none {t : Token} {ts : List Token} (h : ts.head? ≠ some t) : after? t ts = none := by
  cases ts with
  | nil => rfl
  | cons u ts =>
    have ne : u ≠ t := fun e => h (e ▸ rfl)
    simp [after?, ne]

theorem Ends.head_ne {l : Level} {rest : List Token} (h : Ends l rest) {t : Token} (ht : l.isEnd t = false) :
    rest.head? ≠ some t := by
  intro e
  rw [h t e] at ht
  exact absurd ht nofun

theorem Parses.of_step {l : Level} {ts : List Token} {f : Formula}
    (h : ∀ n rest, 3 * ts.length + l.rank ≤ n + 1 → Ends l rest → read l (n + 1) (ts ++ rest) = some (f, rest)) :
    Parses l ts f := by
  intro n rest hn hr
  -- the rank leaves a step even for no tokens
  have positive : 0 < l.rank := by cases l <;> decide
  obtain ⟨n, rfl⟩ := Nat.exists_eq_add_of_le' (show 1 ≤ n by omega)
  exact h n rest hn hr

theorem Parses.atom {c : Comparison} (column : c.column ≠ []) (fits : c.operand.Fits c.operator) :
    Parses .prim c.tokens (.atom c) := by
  refine .of_step fun n rest _ hr => ?_
  have closed : (c.tokens ++ rest).head? ≠ some (.mark '(') := by
    obtain ⟨p, ps, hp⟩ := List.exists_cons_of_ne_nil column
    obtain ⟨ts, hts⟩ := dotted_cons p ps
    cases p <;> simp [Comparison.tokens, hp, hts, Part.token]
  rw [read, after?_eq_none closed, comparison?_tokens column fits (hr.head_ne (by decide))]
  rfl

theorem Parses.enclosed {ts : List Token} {f : Formula} (h : Parses .disj ts f) :
    Parses .prim (.mark '(' :: (ts ++ [.mark ')'])) f := by
  refine .of_step fun n rest hn _ => ?_
  simp only [List.length_cons, List.length_append, List.length_nil, Level.rank] at hn
  have inside := h n (.mark ')' :: rest) (by simp only [Level.rank]; omega) (ends_cons (by decide) rest)
  rw [List.cons_append, List.append_assoc, List.singleton_append, read, after?_cons]
  simp [inside, after?_cons]

theorem Parses.prim {ts : List Token} {f : Formula} (h : Parses .prim ts f) (start : ts.head? ≠ some wordNot)
    (some : ts ≠ []) : Parses .neg ts f := by
  refine .of_step fun n rest hn hr => ?_
  simp only [Level.rank] at hn
  have head : (ts ++ rest).head? ≠ .some wordNot := by
    obtain ⟨t, ts, rfl⟩ := List.exists_cons_of_ne_nil some
    exact start
  rw [read, after?_eq_none head]
  exact h n rest (by simp only [Level.rank]; omega) hr

theorem Parses.not {ts : List Token} {f : Formula} (h : Parses .neg ts f) :
    Parses .neg (wordNot :: ts) f.not := by
  refine .of_step fun n rest hn hr => ?_
  simp only [List.length_cons, Level.rank] at hn
  have inside := h n rest (by simp only [Level.rank]; omega) hr
  rw [List.cons_append, read, after?_cons]
  simp [inside]

theorem Parses.neg {ts : List Token} {f : Formula} (h : Parses .neg ts f) : Parses .conj ts f := by
  refine .of_step fun n rest hn hr => ?_
  simp only [Level.rank] at hn
  have first := h n rest (by simp only [Level.rank]; omega) hr.neg
  have last := after?_eq_none (hr.head_ne (t := wordAnd) (by decide))
  rw [read, first]
  simp [last]

theorem Parses.and {ts us : List Token} {f g : Formula} (h : Parses .neg ts f) (h' : Parses .conj us g) :
    Parses .conj (ts ++ wordAnd :: us) (f.and g) := by
  refine .of_step fun n rest hn hr => ?_
  simp only [List.length_append, List.length_cons, Level.rank] at hn
  have first := h n (wordAnd :: (us ++ rest)) (by simp only [Level.rank]; omega) (ends_cons (by decide) _)
  have second := h' n rest (by simp only [Level.rank]; omega) hr
  rw [List.append_assoc, List.cons_append, read, first]
  simp [after?_cons, second]

theorem Parses.conj {ts : List Token} {f : Formula} (h : Parses .conj ts f) : Parses .disj ts f := by
  refine .of_step fun n rest hn hr => ?_
  simp only [Level.rank] at hn
  have first := h n rest (by simp only [Level.rank]; omega) hr.conj
  have last := after?_eq_none (hr.head_ne (t := wordOr) (by decide))
  rw [read, first]
  simp [last]

theorem Parses.or {ts us : List Token} {f g : Formula} (h : Parses .conj ts f) (h' : Parses .disj us g) :
    Parses .disj (ts ++ wordOr :: us) (f.or g) := by
  refine .of_step fun n rest hn hr => ?_
  simp only [List.length_append, List.length_cons, Level.rank] at hn
  have first := h n (wordOr :: (us ++ rest)) (by simp only [Level.rank]; omega) (ends_cons (by decide) _)
  have second := h' n rest (by simp only [Level.rank]; omega) hr
  rw [List.append_assoc, List.cons_append, read, first]
  simp [after?_cons, second]

section
variable {d : Dialect}

theorem Lexes.word_then {w s : List Char} {ts : List Token} (hw : isRun w) (h : Lexes d s ts) :
    Lexes d (w ++ ' ' :: s) (.word w :: ts) := (Lexes.run hw).spaced h

theorem Lexes.not {s : List Char} {ts : List Token} (h : Lexes d s ts) :
    Lexes d ("NOT ".toList ++ s) (wordNot :: ts) := by
  have text : "NOT ".toList ++ s = ['N', 'O', 'T'] ++ ' ' :: s := by simp
  rw [text]
  exact Lexes.word_then (by decide) h

theorem Lexes.row {s t w : List Char} {ts us : List Token} (hs : Lexes d s ts) (hw : isRun w) (ht : Lexes d t us) :
    Lexes d (s ++ ' ' :: (w ++ [' ']) ++ t) (ts ++ .word w :: us) := by
  have text : s ++ ' ' :: (w ++ [' ']) ++ t = s ++ ' ' :: (w ++ ' ' :: t) := by simp
  rw [text]
  exact hs.spaced (Lexes.word_then hw ht)

theorem Phrase.tokens {l : Level} {s : List Char} {f : Formula} (h : Phrase d l s f) :
    ∃ ts, Lexes d s ts ∧ Parses l ts f ∧ ts ≠ [] ∧ (l = .prim → ts.head? ≠ some wordNot) := by
  induction h with
  | @atom s c lexes column fits =>
    obtain ⟨p, ps, hp⟩ := List.exists_cons_of_ne_nil column
    obtain ⟨ts, hts⟩ := dotted_cons p ps
    have first : c.tokens = p.token :: (ts ++ operatorTokens c.operator ++ c.operand.tokens) := by
      simp only [Comparison.tokens, hp, hts, List.cons_append]
    refine ⟨c.tokens, lexes, Parses.atom column fits, first ▸ List.cons_ne_nil _ _, fun _ => ?_⟩
    rw [first]
    cases p <;> simp [Part.token, wordNot]
  | enclosed _ ih =>
    obtain ⟨ts, lexes, parses, -⟩ := ih
    exact ⟨_, lexes.enclosed, parses.enclosed, List.cons_ne_nil _ _, fun _ => by simp [wordNot]⟩
  | prim _ ih =>
    obtain ⟨ts, lexes, parses, some, start⟩ := ih
    exact ⟨ts, lexes, parses.prim (start rfl) some, some, fun prim => by cases prim⟩
  | not _ ih =>
    obtain ⟨ts, lexes, parses, -⟩ := ih
    exact ⟨_, lexes.not, parses.not, List.cons_ne_nil _ _, fun prim => by cases prim⟩
  | neg _ ih =>
    obtain ⟨ts, lexes, parses, some, -⟩ := ih
    exact ⟨ts, lexes, parses.neg, some, fun prim => by cases prim⟩
  | and _ _ ih ih' =>
    obtain ⟨ts, lexes, parses, -⟩ := ih
    obtain ⟨us, lexes', parses', -⟩ := ih'
    have text : " AND ".toList = ' ' :: (['A', 'N', 'D'] ++ [' ']) := rfl
    rw [text]
    exact ⟨_, lexes.row (by decide) lexes', parses.and parses', by simp, fun prim => by cases prim⟩
  | conj _ ih =>
    obtain ⟨ts, lexes, parses, some, -⟩ := ih
    exact ⟨ts, lexes, parses.conj, some, fun prim => by cases prim⟩
  | or _ _ ih ih' =>
    obtain ⟨ts, lexes, parses, -⟩ := ih
    obtain ⟨us, lexes', parses', -⟩ := ih'
    have text : " OR ".toList = ' ' :: (['O', 'R'] ++ [' ']) := rfl
    rw [text]
    exact ⟨_, lexes.row (by decide) lexes', parses.or parses', by simp, fun prim => by cases prim⟩

theorem Phrase.read? {s : String} {f : Formula} (h : Phrase d .disj s.toList f) :
    Reading.read? d s = some f := by
  obtain ⟨ts, lexes, parses, -⟩ := h.tokens
  have tokens : lex d.quote none s.toList = some ts := by
    have := lexes [] breaks_nil
    simpa [lex] using this
  have formula := parses (3 * ts.length + 4) [] (Nat.le_refl _) (ends_nil .disj)
  rw [List.append_nil] at formula
  simp [Reading.read?, tokens, formula]

theorem Phrase.append {s t : List Char} {f g : Formula} (h : Phrase d .conj s f) (h' : Phrase d .conj t g) :
    ∃ e, Phrase d .conj (s ++ " AND ".toList ++ t) e ∧ e.atoms = f.atoms ++ g.atoms ∧
      ∀ v k, e.value v k = (f.value v k).and (g.value v (k + f.atoms.length)) := by
  -- on the first row, whose last operand meets the second row
  generalize hl : Level.conj = l at h
  induction h with
  | neg h => exact ⟨_, .and h h', rfl, fun _ _ => rfl⟩
  | @and s₁ s₂ f₁ f₂ h₁ h₂ _ ih =>
    obtain ⟨e, he, atoms, value⟩ := ih hl
    refine ⟨f₁.and e, ?_, ?_, fun v k => ?_⟩
    · have text : s₁ ++ " AND ".toList ++ s₂ ++ " AND ".toList ++ t =
          s₁ ++ " AND ".toList ++ (s₂ ++ " AND ".toList ++ t) := by simp only [List.append_assoc]
      exact text ▸ .and h₁ he
    · simp only [Formula.atoms, atoms, List.append_assoc]
    · simp only [Formula.value, Formula.atoms, value, Truth.and_assoc, List.length_append, Nat.add_assoc]
  | _ => exact absurd hl nofun

end
end QueryGate.Reading
