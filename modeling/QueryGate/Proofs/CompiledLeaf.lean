import QueryGate.Proofs.Bound
import QueryGate.Proofs.ColumnReference

/-! Where the leaves of a tree of conditions stand in its compiled form, and which of them are comparisons as SQL has
them: the operand of an operator that takes a list is in parentheses, unless it is a column of another table. -/
namespace QueryGate
open Draft

namespace Draft

/-- A draft of words and of compiled conditions in their order, each behind the parameters of those before it. -/
inductive IsAssembled (inJoin : Bool) : Int → List Condition → Draft → Prop
  | empty (offset : Int) : IsAssembled inJoin offset [] empty
  | word (offset : Int) (s : String) : IsAssembled inJoin offset [] (word s)
  | leaf (offset : Int) (c : Condition) : IsAssembled inJoin offset [c] (c.compile inJoin offset)
  | append {offset : Int} {cs ds : List Condition} {x y : Draft} (hx : IsAssembled inJoin offset cs x)
      (hy : IsAssembled inJoin (offset + x.params.length) ds y) : IsAssembled inJoin offset (cs ++ ds) (x ++ y)

variable {inJoin : Bool} {offset : Int} {cs ds : List Condition} {x y : Draft}

theorem IsAssembled.behind (h : IsAssembled inJoin offset cs x) (s : String) :
    IsAssembled inJoin offset cs (.word s ++ x) := by
  have counted : IsAssembled inJoin (offset + (Draft.word s).params.length) cs x := by
    rwa [params_word, List.length_nil, Int.natCast_zero, Int.add_zero]
  exact (IsAssembled.word offset s).append counted

theorem IsAssembled.before (h : IsAssembled inJoin offset cs x) (s : String) :
    IsAssembled inJoin offset cs (x ++ .word s) := by
  have both := h.append (.word _ s)
  rwa [List.append_nil] at both

theorem IsAssembled.between (h : IsAssembled inJoin offset cs x) (s t : String) :
    IsAssembled inJoin offset cs (x.between s t) := (h.behind s).before t

theorem IsAssembled.params_eq (h : IsAssembled inJoin offset cs x) : x.params = cs.flatMap (·.bound inJoin) := by
  induction h with
  | empty => rfl
  | word => rfl
  | leaf offset c => rw [c.compile_params, List.flatMap_singleton]
  | append _ _ ihx ihy => rw [params_append, ihx, ihy, List.flatMap_append]

theorem IsAssembled.split (h : IsAssembled inJoin offset cs x) {front back : List Condition} {c : Condition}
    (hcs : cs = front ++ c :: back) :
    ∃ before after : Draft, x = before ++ c.compile inJoin (offset + before.params.length) ++ after ∧
      before.params = front.flatMap (·.bound inJoin) := by
  induction h generalizing front back with
  | empty => exact absurd hcs.symm (List.append_ne_nil_of_right_ne_nil front (List.cons_ne_nil c back))
  | word => exact absurd hcs.symm (List.append_ne_nil_of_right_ne_nil front (List.cons_ne_nil c back))
  | leaf offset b =>
    obtain ⟨rfl, single⟩ | ⟨_, none⟩ := List.append_eq_singleton_iff.mp hcs.symm
    · obtain ⟨rfl, rfl⟩ := List.cons.inj single
      refine ⟨Draft.empty, Draft.empty, ?_, rfl⟩
      rw [params_empty, List.length_nil, Int.natCast_zero, Int.add_zero, append_empty]
      rfl
    · exact absurd none (List.cons_ne_nil c back)
  | @append offset cs ds x y hx hy ihx ihy =>
    obtain ⟨mid, rfl, right⟩ | ⟨mid, left, right⟩ := List.append_eq_append_iff.mp hcs
    · obtain ⟨before, after, rfl, params⟩ := ihy right
      refine ⟨x ++ before, after, ?_, ?_⟩
      · simp only [append_assoc, params_append, List.length_append, Int.natCast_add, Int.add_assoc]
      · rw [params_append, hx.params_eq, params, List.flatMap_append]
    · obtain ⟨rfl, behind⟩ | ⟨mid, rfl, rfl⟩ := List.cons_eq_append_iff.mp right
      · have from_start : ds = [] ++ c :: back := behind
        obtain ⟨before, after, rfl, params⟩ := ihy from_start
        refine ⟨x ++ before, after, ?_, ?_⟩
        · simp only [append_assoc, params_append, List.length_append, Int.natCast_add, Int.add_assoc]
        · rw [params_append, hx.params_eq, params, left, List.append_nil, List.flatMap_nil, List.append_nil]
      · obtain ⟨before, after, rfl, params⟩ := ihx left
        exact ⟨before, after ++ y, append_assoc _ _ _, params⟩

end Draft

namespace Logic

theorem isAssembled_compileGroup {inJoin : Bool} {offset : Int} {cs : List Condition} {drafts : List Draft}
    (operator : Logic) (negate : Bool) (parent : Option Logic)
    (h : IsAssembled inJoin offset cs (.join (" " ++ operator.text ++ " ") drafts)) :
    IsAssembled inJoin offset cs (operator.compileGroup negate parent drafts) := by
  unfold compileGroup
  by_cases paren : operator.needsParentheses negate parent
  · cases negate
    · simpa only [paren, if_true, Bool.false_eq_true, if_false] using h.between "(" ")"
    · simpa only [paren, if_true] using (h.between "(" ")").behind "NOT "
  · cases negate
    · simpa only [paren, Bool.false_eq_true, if_false] using h
    · simpa only [paren, Bool.false_eq_true, if_false, if_true] using h.behind "NOT "

end Logic

namespace Predicate

theorem isAssembled_join (inJoin : Bool) (parent : Option Logic) (sep : String) (ps : List Predicate)
    (h : ∀ p ∈ ps, ∀ offset, IsAssembled inJoin offset p.leaves (p.compile inJoin parent offset)) (offset : Int) :
    IsAssembled inJoin offset (leavesOf ps) (.join sep (compileAll inJoin parent offset ps)) := by
  induction ps generalizing offset with
  | nil => exact .empty offset
  | cons p rest ih =>
    obtain ⟨first, others⟩ := List.forall_mem_cons.mp h
    rw [leavesOf_cons, compileAll]
    have tail := ih others (offset + (p.compile inJoin parent offset).params.length)
    cases rest with
    | nil =>
      rw [compileAll, join_singleton, leavesOf_nil, List.append_nil]
      exact first offset
    | cons next rest =>
      rw [compileAll] at tail ⊢
      rw [join_cons_cons]
      have counted : (p.compile inJoin parent offset ++ .word sep).params =
          (p.compile inJoin parent offset).params := by rw [params_append, params_word, List.append_nil]
      exact ((first offset).before sep).append (counted ▸ tail)

theorem isAssembled_compile (inJoin : Bool) (parent : Option Logic) (offset : Int) (p : Predicate) :
    IsAssembled inJoin offset p.leaves (p.compile inJoin parent offset) := by
  induction p generalizing parent offset with
  | condition c => exact .leaf offset c
  | group operator children negate ih =>
    rw [leaves_group, compile]
    refine operator.isAssembled_compileGroup negate parent ?_
    exact isAssembled_join inJoin _ _ children (fun p hp => ih p hp _) offset

theorem isAssembled_compileList (inJoin : Bool) (offset : Int) (ps : List Predicate) :
    IsAssembled inJoin offset (leavesOf ps) (compileList inJoin offset ps) :=
  isAssembled_join inJoin none _ ps (fun p _ o => p.isAssembled_compile inJoin none o) offset

end Predicate

namespace Condition

def IsOperand (d : Dialect) (index : Int) (c : Condition) (s : List Char) : Prop :=
  s = (d.marker index).toList ∨ ∃ column, c.value = .text column ∧ s = (Draft.name column).text d

/-- A column, an operator and what the operator takes: nothing, a list in parentheses or an operand as it is. -/
def IsComparison (d : Dialect) (index : Int) (c : Condition) (s : List Char) : Prop :=
  ∃ rest, s = (Draft.name c.field).text d ++ ' ' :: c.operator.text.toList ++ rest ∧
    if c.operator.isUnary then rest = []
    else if c.operator.takesList then ∃ x, c.IsOperand d index x ∧ rest = " (".toList ++ x ++ [')']
    else ∃ x, c.IsOperand d index x ∧ rest = ' ' :: x

theorem isUnary_of_takesList {o : Operator} (h : o.takesList = true) : o.isUnary = false := by
  cases o <;> first | rfl | exact absurd h Bool.false_ne_true

section

variable (d : Dialect) (offset : Int) {inJoin : Bool} {c : Condition}

theorem text_compile_unary (inJoin : Bool) (unary : c.operator.isUnary = true) :
    (c.compile inJoin offset).text d = (Draft.name c.field).text d ++ ' ' :: c.operator.text.toList := by
  rw [compile, if_pos unary, text_append, text_word, String.toList_append]
  rfl

theorem text_compile_reference {column : String} (binary : c.operator.isUnary = false)
    (ref : c.reference? inJoin = some column) : (c.compile inJoin offset).text d =
      (Draft.name c.field).text d ++ ' ' :: c.operator.text.toList ++ ' ' :: (Draft.name column).text d := by
  simp [compile, binary, ref]

theorem text_compile_bound (binary : c.operator.isUnary = false) (ref : c.reference? inJoin = none) :
    (c.compile inJoin offset).text d = (Draft.name c.field).text d ++ ' ' :: c.operator.text.toList ++
      if c.operator.takesList then " (".toList ++ (d.marker (offset + 1)).toList ++ [')']
      else ' ' :: (d.marker (offset + 1)).toList := by
  by_cases list : c.operator.takesList <;> simp [compile, binary, ref, list]

theorem name_not_enclosed (column : String) (s : List Char) :
    ' ' :: (Draft.name column).text d ≠ " (".toList ++ s := by
  intro same
  obtain ⟨⟨first, edge, head⟩, -⟩ := Identifier.isEdged_escapeChars d column.toList
  have opened : (Draft.name column).text d = '(' :: s := List.cons.inj same |>.2
  rw [text_name] at opened
  rw [opened, List.head?_cons, Option.some.injEq] at head
  exact absurd edge (head ▸ by decide)

theorem isComparison_compile_iff : c.IsComparison d (offset + 1) ((c.compile inJoin offset).text d) ↔
    ¬(c.operator.takesList = true ∧ (c.reference? inJoin).isSome) := by
  by_cases unary : c.operator.isUnary = true
  · have single : c.operator.takesList ≠ true := fun list => absurd unary (by rw [isUnary_of_takesList list]; decide)
    refine iff_of_true ⟨[], ?_, by rw [if_pos unary]⟩ fun h => single h.1
    rw [text_compile_unary d offset inJoin unary, List.append_nil]
  have binary := Bool.eq_false_iff.mpr unary
  cases ref : c.reference? inJoin with
  | none =>
    refine iff_of_true ⟨_, text_compile_bound d offset binary ref, ?_⟩ fun h => absurd h.2 Bool.false_ne_true
    rw [if_neg unary]
    split
    next => exact ⟨_, .inl rfl, rfl⟩
    next => exact ⟨_, .inl rfl, rfl⟩
  | some column =>
    have text := text_compile_reference d offset binary ref
    by_cases list : c.operator.takesList = true
    · refine iff_of_false ?_ fun h => h ⟨list, rfl⟩
      rintro ⟨rest, same, shape⟩
      rw [if_neg unary, if_pos list] at shape
      obtain ⟨x, -, rfl⟩ := shape
      rw [text] at same
      have operands := List.append_cancel_left same
      rw [List.append_assoc] at operands
      exact name_not_enclosed d column _ operands
    · refine iff_of_true ⟨_, text, ?_⟩ fun h => list h.1
      rw [if_neg unary, if_neg list]
      exact ⟨_, .inr ⟨column, (reference?_eq_some.mp ref).2.1, rfl⟩, rfl⟩

end

end Condition

namespace Draft

/-- A draft has a condition in it, compiled behind the values that some others bind. It is a comparison there unless its
operator takes a list and its operand is a column. -/
def Compares (d : Dialect) (inJoin : Bool) (offset : Int) (front : List Condition) (c : Condition) (x : Draft) : Prop :=
  ∃ before after : Draft, x = before ++ c.compile inJoin (offset + before.params.length) ++ after ∧
    before.params = front.flatMap (·.bound inJoin) ∧
    (c.IsComparison d (offset + before.params.length + 1)
        ((c.compile inJoin (offset + before.params.length)).text d) ↔
      ¬(c.operator.takesList = true ∧
        inJoin = true ∧ ∃ column, c.value = .text column ∧ Name.isReference column = true))

theorem IsAssembled.compares {inJoin : Bool} {offset : Int} {cs : List Condition} {x : Draft}
    (h : IsAssembled inJoin offset cs x) (d : Dialect) {front back : List Condition} {c : Condition}
    (place : cs = front ++ c :: back) : Compares d inJoin offset front c x := by
  obtain ⟨before, after, compiled, params⟩ := h.split place
  refine ⟨before, after, compiled, params, ?_⟩
  rw [Condition.isComparison_compile_iff, Option.isSome_iff_exists]
  simp only [Condition.reference?_eq_some, exists_and_left]

end Draft

namespace Predicate

/-- Each leaf of a tree, and of trees side by side, is compiled in its place. -/
theorem compile_compares (d : Dialect) (inJoin : Bool) (offset : Int) (front : List Condition) (c : Condition)
    (back : List Condition) :
    (∀ (parent : Option Logic) (p : Predicate), p.leaves = front ++ c :: back →
        Compares d inJoin offset front c (p.compile inJoin parent offset)) ∧
      ∀ ps : List Predicate, leavesOf ps = front ++ c :: back →
        Compares d inJoin offset front c (compileList inJoin offset ps) := by
  constructor
  · intro parent p place
    exact (p.isAssembled_compile inJoin parent offset).compares d place
  · intro ps place
    exact (isAssembled_compileList inJoin offset ps).compares d place

def otherRegion : Predicate :=
  .group .disj [.condition ⟨"region", .isNull, .null⟩, .condition ⟨"region", .isIn, .text "eu"⟩] true

def regionalOrders : List Predicate := [.condition ⟨"users.id", .equal, .text "orders.user_id"⟩, otherRegion]

theorem compile_compares_regionalOrders :
    otherRegion.leaves = [⟨"region", .isNull, .null⟩] ++ ⟨"region", .isIn, .text "eu"⟩ :: [] ∧
      Compares .postgres false 0 [⟨"region", .isNull, .null⟩] ⟨"region", .isIn, .text "eu"⟩
        (otherRegion.compile false (some .conj) 0) ∧
      leavesOf regionalOrders = [] ++ ⟨"users.id", .equal, .text "orders.user_id"⟩ ::
        [⟨"region", .isNull, .null⟩, ⟨"region", .isIn, .text "eu"⟩] ∧
      Compares .mysql true 2 [] ⟨"users.id", .equal, .text "orders.user_id"⟩ (compileList true 2 regionalOrders) := by
  refine ⟨rfl, ?tree, rfl, ?list⟩
  case tree => exact (compile_compares .postgres false 0 [⟨"region", .isNull, .null⟩] _ []).1 (some .conj) otherRegion rfl
  case list => exact (compile_compares .mysql true 2 [] _ _).2 regionalOrders rfl

end Predicate

def namedRegion : Condition := ⟨"region", .isIn, .text "regions.name"⟩

theorem namedRegion_unenclosed :
    (namedRegion.compile true 0).text .postgres = "\"region\" IN \"regions\".\"name\"".toList ∧
      ¬ namedRegion.IsComparison .postgres 1 ((namedRegion.compile true 0).text .postgres) := by
  have reference : namedRegion.reference? true = some "regions.name" := by decide +kernel
  refine ⟨by decide +kernel, ?_⟩
  rw [← Int.zero_add 1, Condition.isComparison_compile_iff]
  exact not_not_intro ⟨rfl, reference ▸ rfl⟩

end QueryGate
