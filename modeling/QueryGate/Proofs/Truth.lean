import QueryGate.Query.Basic

/-! The three truth values of SQL, and what a tree of conditions says once its leaves have theirs. Leaves are
counted from left to right, so that equal conditions in two places may differ. -/
namespace QueryGate

inductive Truth where
  | no
  | unknown
  | yes
  deriving DecidableEq, Repr

namespace Truth

def not : Truth → Truth
  | no => yes
  | unknown => unknown
  | yes => no

def and : Truth → Truth → Truth
  | no, _ => no
  | _, no => no
  | yes, yes => yes
  | _, _ => unknown

def or : Truth → Truth → Truth
  | yes, _ => yes
  | _, yes => yes
  | no, no => no
  | _, _ => unknown

theorem and_assoc (a b c : Truth) : (a.and b).and c = a.and (b.and c) := by
  cases a <;> cases b <;> cases c <;> rfl

end Truth

namespace Logic

def apply : Logic → Truth → Truth → Truth
  | conj => Truth.and
  | disj => Truth.or

def neutral : Logic → Truth
  | conj => .yes
  | disj => .no

def combine (operator : Logic) (ts : List Truth) : Truth := ts.foldr operator.apply operator.neutral

theorem apply_neutral (operator : Logic) (t : Truth) : operator.apply t operator.neutral = t := by
  cases operator <;> cases t <;> rfl

theorem combine_singleton (operator : Logic) (t : Truth) : operator.combine [t] = t := operator.apply_neutral t

end Logic

namespace Predicate

mutual
def truth (v : Nat → Truth) (k : Nat) : Predicate → Truth
  | .condition _ => v k
  | .group operator children negate =>
    let t := operator.combine (truths v k children)
    if negate then t.not else t
termination_by structural p => p
def truths (v : Nat → Truth) (k : Nat) : List Predicate → List Truth
  | [] => []
  | p :: rest => truth v k p :: truths v (k + p.leaves.length) rest
termination_by structural ps => ps
end

mutual
/-- Whether every group of a tree has a child. -/
def isFull : Predicate → Bool
  | .condition _ => true
  | .group _ children _ => !children.isEmpty && areFull children
termination_by structural p => p
def areFull : List Predicate → Bool
  | [] => true
  | p :: rest => isFull p && areFull rest
termination_by structural ps => ps
end

theorem areFull_iff {ps : List Predicate} : areFull ps = true ↔ ∀ p ∈ ps, p.isFull = true := by
  induction ps with
  | nil => simp only [areFull, List.not_mem_nil, false_implies, implies_true]
  | cons p rest ih => simp only [areFull, Bool.and_eq_true, ih, List.forall_mem_cons]

end Predicate
end QueryGate
