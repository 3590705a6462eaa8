import Mathlib.Data.List.Forall2
import QueryGate.Operation
import QueryGate.Sql.Predicate

/-! Operations that are the same but for their bound values. A relation `R` says how the values of the one may
differ from those of the other, place by place; the values of rows are matched under equal columns. -/
namespace QueryGate
variable (R : Value → Value → Prop)

def Fields.Alike (row row' : Fields) : Prop := List.Forall₂ (fun f g => f.1 = g.1 ∧ R f.2 g.2) row row'

/-- Conditions on one column by one operator. A column in the place of a value has to be the same in both. -/
structure Condition.Alike (inJoin : Bool) (c c' : Condition) : Prop where
  field : c.field = c'.field
  operator : c.operator = c'.operator
  reference : c.reference? inJoin = c'.reference? inJoin
  value : c.reference? inJoin = none → R (.scalar c.value) (.scalar c'.value)

namespace Predicate

mutual
def Alike (inJoin : Bool) : Predicate → Predicate → Prop
  | .condition c, .condition c' => c.Alike R inJoin c'
  | .group operator children negate, .group operator' children' negate' =>
    operator = operator' ∧ AreAlike inJoin children children' ∧ negate = negate'
  | _, _ => False
termination_by structural p => p
def AreAlike (inJoin : Bool) : List Predicate → List Predicate → Prop
  | [], [] => True
  | p :: rest, p' :: rest' => Alike inJoin p p' ∧ AreAlike inJoin rest rest'
  | _, _ => False
termination_by structural ps => ps
end

end Predicate

structure Join.Alike (j j' : Join) : Prop where
  kind : j.kind = j'.kind
  table : j.table = j'.table
  label : j.label = j'.label
  on : Predicate.AreAlike R true j.on j'.on

structure CreateOp.Alike (op op' : CreateOp) : Prop where
  table : op.table = op'.table
  rows : List.Forall₂ (Fields.Alike R) op.rows op'.rows

structure ReadOp.Alike (op op' : ReadOp) : Prop where
  table : op.table = op'.table
  fields : op.fields = op'.fields
  filter : Predicate.AreAlike R false op.filter op'.filter
  joins : List.Forall₂ (Join.Alike R) op.joins op'.joins
  groupBy : op.groupBy = op'.groupBy
  having : Predicate.AreAlike R false op.having op'.having
  orderBy : op.orderBy = op'.orderBy
  limit : op.limit = op'.limit
  offset : op.offset = op'.offset

structure UpdateOp.Alike (op op' : UpdateOp) : Prop where
  table : op.table = op'.table
  rows : List.Forall₂ (Fields.Alike R) op.rows op'.rows
  filter : Predicate.AreAlike R false op.filter op'.filter

structure DeleteOp.Alike (op op' : DeleteOp) : Prop where
  table : op.table = op'.table
  filter : Predicate.AreAlike R false op.filter op'.filter

def Operation.Alike : Operation → Operation → Prop
  | .create op, .create op' => op.Alike R op'
  | .read op, .read op' => op.Alike R op'
  | .update op, .update op' => op.Alike R op'
  | .delete op, .delete op' => op.Alike R op'
  | _, _ => False

end QueryGate
