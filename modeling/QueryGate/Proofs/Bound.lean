import QueryGate.Proofs.Draft
import QueryGate.Proofs.Tree

/-! The values that an operation binds, in the order in which its statement has them as parameters. -/
namespace QueryGate

namespace Condition

/-- The value that a condition binds: none for a unary operator or a column in the place of a value. -/
def bound (inJoin : Bool) (c : Condition) : List Value :=
  if c.operator.isUnary || (c.reference? inJoin).isSome then [] else [.scalar c.value]

theorem reference?_false (c : Condition) : c.reference? false = none := by
  unfold reference?
  split <;> rfl

theorem bound_equal (field : String) (s : Scalar) : bound false ⟨field, .equal, s⟩ = [.scalar s] := by
  rw [bound, reference?_false]
  rfl

theorem compile_params (inJoin : Bool) (offset : Int) (c : Condition) :
    (c.compile inJoin offset).params = c.bound inJoin := by
  unfold compile bound
  by_cases unary : c.operator.isUnary
  · simp only [unary, if_true, Bool.true_or, Draft.params_append, Draft.params_name, Draft.params_word,
      List.append_nil]
  · cases ref : c.reference? inJoin with
    | some column => simp [unary]
    | none => by_cases list : c.operator.takesList <;> simp [unary, list]

end Condition

theorem Logic.compileGroup_params (operator : Logic) (negate : Bool) (parent : Option Logic)
    (children : List Draft) :
    (operator.compileGroup negate parent children).params = children.flatMap (·.params) := by
  unfold Logic.compileGroup
  by_cases paren : operator.needsParentheses negate parent <;> cases negate <;> simp [paren]

namespace Predicate

def bound (inJoin : Bool) (ps : List Predicate) : List Value := (leavesOf ps).flatMap (·.bound inJoin)

theorem bound_condition (inJoin : Bool) (c : Condition) (rest : List Predicate) :
    bound inJoin (.condition c :: rest) = c.bound inJoin ++ bound inJoin rest := rfl

theorem compileAll_params_of (inJoin : Bool) (parent : Option Logic) (ps : List Predicate)
    (h : ∀ p ∈ ps, ∀ offset, (p.compile inJoin parent offset).params = p.leaves.flatMap (·.bound inJoin))
    (offset : Int) : (compileAll inJoin parent offset ps).flatMap (·.params) = bound inJoin ps := by
  induction ps generalizing offset with
  | nil => rfl
  | cons p rest ih =>
    obtain ⟨hp, hrest⟩ := List.forall_mem_cons.mp h
    simp only [compileAll, List.flatMap_cons, hp offset, ih hrest, bound, leavesOf_cons, List.flatMap_append]

theorem compile_params (inJoin : Bool) (parent : Option Logic) (offset : Int) (p : Predicate) :
    (p.compile inJoin parent offset).params = p.leaves.flatMap (·.bound inJoin) := by
  induction p generalizing parent offset with
  | condition c =>
    simp only [compile, c.compile_params, leaves_condition, List.flatMap_singleton]
  | group operator children negate ih =>
    simp only [compile, Logic.compileGroup_params, leaves_group]
    exact compileAll_params_of inJoin (some operator) children (fun p hp => ih p hp _) offset

theorem compileAll_params (inJoin : Bool) (parent : Option Logic) (offset : Int) (ps : List Predicate) :
    (compileAll inJoin parent offset ps).flatMap (·.params) = bound inJoin ps :=
  compileAll_params_of inJoin parent ps (fun p _ o => p.compile_params inJoin parent o) offset

theorem compileList_params (inJoin : Bool) (offset : Int) (ps : List Predicate) :
    (compileList inJoin offset ps).params = bound inJoin ps := by
  rw [compileList, Draft.params_join, compileAll_params]

end Predicate
end QueryGate
