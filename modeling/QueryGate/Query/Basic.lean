import QueryGate.Query.Operator
import QueryGate.Value

/-!
Queries: trees of conditions, joins, orders, and the clauses that hold them. A clause that was not given
is `none`, which differs from one given empty.
-/
namespace QueryGate

structure Condition where
  field : String
  operator : Operator
  value : Scalar
  deriving DecidableEq

inductive Predicate where
  | condition (c : Condition)
  | group (operator : Logic) (children : List Predicate) (negate : Bool)

structure Join where
  kind : JoinKind
  table : String
  label : Option String
  on : List Predicate

structure Order where
  field : String
  direction : Direction
  deriving DecidableEq, Repr

structure Query where
  select : Option (List String) := none
  filter : Option (List Predicate) := none
  joins : Option (List Join) := none
  groupBy : Option (List String) := none
  having : Option (List Predicate) := none
  orderBy : Option (List Order) := none
  limit : Option Int := none
  offset : Option Int := none

namespace Predicate

mutual
def leaves : Predicate → List Condition
  | .condition c => [c]
  | .group _ children _ => leavesOf children
termination_by structural p => p
def leavesOf : List Predicate → List Condition
  | [] => []
  | p :: rest => leaves p ++ leavesOf rest
termination_by structural ps => ps
end

end Predicate
end QueryGate
