import QueryGate.Proofs.Bound
import QueryGate.Proofs.Phrase

/-! The text of compiled conditions says what the trees mean: parentheses are left out only where precedence
does without them. -/
namespace QueryGate
open Reading

namespace Condition

def comparison (d : Dialect) (inJoin : Bool) (offset : Int) (c : Condition) : Comparison where
  column := partsOf c.field
  operator := c.operator
  operand :=
    if c.operator.isUnary then .nothing
    else
      match c.reference? inJoin with
      | some column => .column (partsOf column)
      | none => .parameter (d.marker (offset + 1)).toList c.operator.takesList

theorem comparison_fits (d : Dialect) (inJoin : Bool) (offset : Int) (c : Condition) :
    (c.comparison d inJoin offset).operand.Fits c.operator := by
  unfold comparison
  cases unary : c.operator.isUnary with
  | true => exact unary
  | false =>
    cases c.reference? inJoin with
    | some column => exact ⟨unary, partsOf_ne_nil column⟩
    | none => exact ⟨unary, marker_shape d _⟩

theorem lexes_compile (d : Dialect) (inJoin : Bool) (offset : Int) (c : Condition)
    (plain : Identifier.IsPlain c.field.toList) :
    Lexes d ((c.compile inJoin offset).text d) (c.comparison d inJoin offset).tokens := by
  have column := Lexes.name (d := d) plain
  have operator := Lexes.operator (d := d) c.operator
  unfold compile comparison Comparison.tokens
  cases unary : c.operator.isUnary with
  | true =>
    have text := column.spaced operator
    simpa [String.toList_append, Operand.tokens] using text
  | false =>
    cases ref : c.reference? inJoin with
    | some name =>
      have operand := Lexes.name (d := d) (Name.isPlain_of_isReference (isReference_of_reference? ref))
      have text := column.spaced (operator.spaced operand)
      simpa [String.toList_append, Operand.tokens] using text
    | none =>
      have mark := Lexes.mark (d := d) (offset + 1)
      cases list : c.operator.takesList with
      | true =>
        have text := column.spaced (operator.spaced mark.enclosed)
        simpa [String.toList_append, Operand.tokens] using text
      | false =>
        have text := column.spaced (operator.spaced mark)
        simpa [String.toList_append, Operand.tokens] using text

theorem phrase_compile (d : Dialect) (inJoin : Bool) (offset : Int) (c : Condition)
    (plain : Identifier.IsPlain c.field.toList) :
    Phrase d .prim ((c.compile inJoin offset).text d) (.atom (c.comparison d inJoin offset)) :=
  .atom (c.lexes_compile d inJoin offset plain) (partsOf_ne_nil c.field) (c.comparison_fits d inJoin offset)

end Condition

def comparisons (d : Dialect) (inJoin : Bool) (offset : Int) : List Condition → List Comparison
  | [] => []
  | c :: rest => c.comparison d inJoin offset :: comparisons d inJoin (offset + (c.bound inJoin).length) rest

theorem comparisons_append (d : Dialect) (inJoin : Bool) (offset : Int) (cs cs' : List Condition) :
    comparisons d inJoin offset (cs ++ cs') = comparisons d inJoin offset cs ++
      comparisons d inJoin (offset + (cs.flatMap (·.bound inJoin)).length) cs' := by
  induction cs generalizing offset with
  | nil => simp [comparisons]
  | cons c cs ih => simp [comparisons, ih, Int.add_assoc]

theorem length_comparisons (d : Dialect) (inJoin : Bool) (offset : Int) (cs : List Condition) :
    (comparisons d inJoin offset cs).length = cs.length := by
  induction cs generalizing offset with
  | nil => rfl
  | cons c cs ih => simp only [comparisons, List.length_cons, ih]

/-- A text says, at a level of precedence, some comparisons with a truth value that depends on theirs. -/
def Says (d : Dialect) (l : Level) (s : List Char) (cs : List Comparison) (m : (Nat → Truth) → Nat → Truth) : Prop :=
  ∃ f, Phrase d l s f ∧ f.atoms = cs ∧ ∀ v k, f.value v k = m v k

namespace Says
variable {d : Dialect} {s t : List Char} {cs ds : List Comparison} {m n : (Nat → Truth) → Nat → Truth}

theorem conj (h : Says d .neg s cs m) : Says d .conj s cs m := by
  obtain ⟨f, phrase, rest⟩ := h
  exact ⟨f, phrase.neg, rest⟩

theorem disj (h : Says d .conj s cs m) : Says d .disj s cs m := by
  obtain ⟨f, phrase, rest⟩ := h
  exact ⟨f, phrase.conj, rest⟩

theorem enclosed (h : Says d .disj s cs m) : Says d .neg ('(' :: (s ++ [')'])) cs m := by
  obtain ⟨f, phrase, rest⟩ := h
  exact ⟨f, phrase.enclosed.prim, rest⟩

theorem not (h : Says d .neg s cs m) : Says d .neg ("NOT ".toList ++ s) cs fun v k => (m v k).not := by
  obtain ⟨f, phrase, atoms, value⟩ := h
  exact ⟨f.not, phrase.not, atoms, fun v k => congrArg Truth.not (value v k)⟩

theorem and (h : Says d .conj s cs m) (h' : Says d .conj t ds n) :
    Says d .conj (s ++ " AND ".toList ++ t) (cs ++ ds) fun v k => (m v k).and (n v (k + cs.length)) := by
  obtain ⟨f, phrase, rfl, value⟩ := h
  obtain ⟨g, phrase', rfl, value'⟩ := h'
  obtain ⟨e, row, atoms, joined⟩ := phrase.append phrase'
  exact ⟨e, row, atoms, fun v k => by rw [joined, value, value']⟩

theorem or (h : Says d .conj s cs m) (h' : Says d .disj t ds n) :
    Says d .disj (s ++ " OR ".toList ++ t) (cs ++ ds) fun v k => (m v k).or (n v (k + cs.length)) := by
  obtain ⟨f, phrase, rfl, value⟩ := h
  obtain ⟨g, phrase', rfl, value'⟩ := h'
  exact ⟨f.or g, phrase.or phrase', rfl, fun v k => by simp only [Formula.value, value, value']⟩

end Says

namespace Logic

def inner : Logic → Level
  | conj => .conj
  | disj => .neg

def outer : Logic → Level
  | conj => .conj
  | disj => .disj

variable {d : Dialect} {operator : Logic} {s t : List Char} {cs ds : List Comparison}
  {m n : (Nat → Truth) → Nat → Truth}

theorem says_inner (h : Says d .neg s cs m) : Says d operator.inner s cs m := by
  cases operator
  · exact h.conj
  · exact h

theorem says_outer (h : Says d operator.inner s cs m) : Says d operator.outer s cs m := by
  cases operator
  · exact h
  · exact h.conj.disj

theorem says_disj (h : Says d operator.outer s cs m) : Says d .disj s cs m := by
  cases operator
  · exact h.disj
  · exact h

theorem says_apply (h : Says d operator.inner s cs m) (h' : Says d operator.outer t ds n) :
    Says d operator.outer (s ++ (" " ++ operator.text ++ " ").toList ++ t) (cs ++ ds)
      fun v k => operator.apply (m v k) (n v (k + cs.length)) := by
  cases operator
  · exact h.and h'
  · exact h.conj.or h'

end Logic

namespace Predicate
variable (d : Dialect) (inJoin : Bool)

/-- A tree is compiled to a text of the level that its place needs, with the meaning of the tree. -/
def IsCompiled (parent : Logic) (offset : Int) (p : Predicate) : Prop :=
  Says d parent.inner ((p.compile inJoin (some parent) offset).text d) (comparisons d inJoin offset p.leaves)
    fun v k => p.truth v k

theorem says_row (operator : Logic) {ps : List Predicate} (given : ps ≠ [])
    (h : ∀ p ∈ ps, ∀ offset, IsCompiled d inJoin operator offset p) (offset : Int) :
    Says d operator.outer
      ((Draft.join (" " ++ operator.text ++ " ") (compileAll inJoin (some operator) offset ps)).text d)
      (comparisons d inJoin offset (leavesOf ps)) fun v k => operator.combine (truths v k ps) := by
  induction ps generalizing offset with
  | nil => exact absurd rfl given
  | cons p rest ih =>
    obtain ⟨hp, hrest⟩ := List.forall_mem_cons.mp h
    cases rest with
    | nil =>
      have one := Logic.says_outer (hp offset)
      simpa only [compileAll, Draft.text_join_singleton, leavesOf_cons, leavesOf_nil, List.append_nil, truths,
        Logic.combine_singleton] using one
    | cons q rest =>
      have tail := ih (List.cons_ne_nil q rest) hrest
        (offset + (p.compile inJoin (some operator) offset).params.length)
      have both := Logic.says_apply (hp offset) tail
      -- the leaves and the parameters of the first are counted before those of the rest
      rw [length_comparisons] at both
      rw [leavesOf_cons, comparisons_append, ← compile_params inJoin (some operator) offset p, compileAll, compileAll,
        Draft.text_join_cons_cons]
      exact both

theorem compileGroup_text (operator : Logic) (negate : Bool) (parent : Option Logic) (children : List Draft) :
    (operator.compileGroup negate parent children).text d =
      let body := (Draft.join (" " ++ operator.text ++ " ") children).text d
      let body := if operator.needsParentheses negate parent then '(' :: (body ++ [')']) else body
      if negate then "NOT ".toList ++ body else body := by
  unfold Logic.compileGroup
  cases operator.needsParentheses negate parent <;> cases negate <;> simp

theorem isCompiled (p : Predicate) (full : p.isFull = true) (plain : ∀ c ∈ p.leaves, Identifier.IsPlain c.field.toList)
    (parent : Logic) (offset : Int) : IsCompiled d inJoin parent offset p := by
  induction p generalizing parent offset with
  | condition c =>
    have phrase := c.phrase_compile d inJoin offset (plain c (List.mem_singleton_self c))
    exact Logic.says_inner ⟨_, phrase.prim, rfl, fun _ _ => rfl⟩
  | group operator children negate ih =>
    simp only [isFull, Bool.and_eq_true, Bool.not_eq_true', List.isEmpty_eq_false_iff, areFull_iff] at full
    have inside := says_row d inJoin operator full.1 (fun q hq o =>
      ih q hq (full.2 q hq) (fun c hc => plain c (mem_leavesOf.mpr ⟨q, hq, hc⟩)) operator o) offset
    -- between parentheses a row of any connective can stand anywhere
    have closed := Says.enclosed (Logic.says_disj inside)
    unfold IsCompiled
    rw [compile, compileGroup_text]
    cases negate with
    | true =>
      have parens : operator.needsParentheses true (some parent) = true := by
        simp only [Logic.needsParentheses, Bool.or_true, Bool.true_or]
      simp only [parens, if_true]
      exact Logic.says_inner closed.not
    | false =>
      cases parens : operator.needsParentheses false (some parent) with
      | true => exact Logic.says_inner closed
      | false =>
        -- only `AND` beside or below `AND` goes without
        have bare : operator = .conj ∧ parent = .conj := by
          cases operator <;> cases parent <;> simp [Logic.needsParentheses] at parens ⊢
        obtain ⟨rfl, rfl⟩ := bare
        exact inside

theorem compile_none (p : Predicate) (offset : Int) :
    p.compile inJoin none offset = p.compile inJoin (some .conj) offset := by
  cases p with
  | condition c => rfl
  | group operator children negate => simp [compile, Logic.compileGroup, Logic.needsParentheses]

theorem compileAll_none (ps : List Predicate) (offset : Int) :
    compileAll inJoin none offset ps = compileAll inJoin (some .conj) offset ps := by
  induction ps generalizing offset with
  | nil => rfl
  | cons p rest ih => simp only [compileAll, compile_none, ih]

/-- The text of compiled predicates is read as the comparisons of their leaves, and whatever truth values
these have, what it says has that of the predicates together. -/
theorem read_compileList (offset : Int) {ps : List Predicate} (given : ps ≠ [])
    (full : ∀ p ∈ ps, p.isFull = true) (plain : ∀ c ∈ leavesOf ps, Identifier.IsPlain c.field.toList) :
    ∃ f, read? d ((compileList inJoin offset ps).render d).sql = some f ∧
      f.atoms = comparisons d inJoin offset (leavesOf ps) ∧
      ∀ v, f.value v 0 = Logic.conj.combine (truths v 0 ps) := by
  obtain ⟨f, phrase, atoms, value⟩ := says_row d inJoin .conj given (fun p hp o =>
    isCompiled d inJoin p (full p hp) (fun c hc => plain c (mem_leavesOf.mpr ⟨p, hp, hc⟩)) .conj o) offset
  refine ⟨f, Phrase.read? ?_, atoms, fun v => value v 0⟩
  rw [Draft.render_sql, compileList, compileAll_none]
  exact phrase.conj

def nestedGroups : List Predicate :=
  [.group .conj
    [.condition ⟨"a AND b", .notLike, .text "x"⟩,
      .group .conj
        [.group .disj [.condition ⟨"c.*", .isNull, .null⟩, .condition ⟨"", .isIn, .int 1⟩] false,
          .condition ⟨"d", .equal, .text "t.e"⟩] true] false,
    .condition ⟨"NOT (", .isNotNull, .null⟩]

theorem read_compileList_nestedGroups :
    (∀ p ∈ nestedGroups, p.isFull = true) ∧ (∀ c ∈ leavesOf nestedGroups, Identifier.IsPlain c.field.toList) ∧
      ∃ f, read? .postgres ((compileList true 2 nestedGroups).render .postgres).sql = some f ∧
        f.atoms = comparisons .postgres true 2 (leavesOf nestedGroups) ∧
        ∀ v, f.value v 0 = Logic.conj.combine (truths v 0 nestedGroups) :=
  ⟨by decide, by decide, read_compileList .postgres true 2 (by decide) (by decide) (by decide)⟩

end Predicate
end QueryGate
