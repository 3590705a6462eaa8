import QueryGate.Query.Basic

/-!
Queries as the values that clients send: one spelling for each key, clauses in a fixed order, and nothing
written for what is absent.
-/
namespace QueryGate

def optionalField (key : String) (value : Option Value) : Fields := (value.map (key, ·)).toList

def Condition.toWire (c : Condition) : Value :=
  .object ([("field", .text c.field), ("operator", .text c.operator.text)] ++
    optionalField "value" (if c.value = .null then none else some (.scalar c.value)))

namespace Predicate

mutual
def toWire : Predicate → Value
  | .condition c => c.toWire
  | .group operator children negate =>
    .object [("operator", .text operator.text), ("conditions", .list (toWireAll children)),
      ("not", .bool negate)]
termination_by structural p => p
def toWireAll : List Predicate → List Value
  | [] => []
  | p :: rest => toWire p :: toWireAll rest
termination_by structural ps => ps
end

theorem toWireAll_eq_map (ps : List Predicate) : toWireAll ps = ps.map toWire := by
  induction ps with
  | nil => rfl
  | cons p ps ih => rw [toWireAll, ih, List.map_cons]

end Predicate

def Join.toWire (j : Join) : Value :=
  .object ([("type", .text j.kind.text), ("table", .text j.table)] ++
    optionalField "alias" (j.label.map .text) ++ [("on", .list (Predicate.toWireAll j.on))])

def Order.toWire (o : Order) : Value :=
  .object [("field", .text o.field), ("direction", .text o.direction.text)]

def textList (names : List String) : Value := .list (names.map .text)

def Query.toWire (q : Query) : Value :=
  .object (optionalField "select" (q.select.map textList) ++
    optionalField "where" (q.filter.map fun ps => .list (Predicate.toWireAll ps)) ++
    optionalField "joins" (q.joins.map fun js => .list (js.map Join.toWire)) ++
    optionalField "groupBy" (q.groupBy.map textList) ++
    optionalField "having" (q.having.map fun ps => .list (Predicate.toWireAll ps)) ++
    optionalField "orderBy" (q.orderBy.map fun os => .list (os.map Order.toWire)) ++
    optionalField "limit" (q.limit.map .int) ++
    optionalField "offset" (q.offset.map .int))

namespace Scalar

def toJson : Scalar → Scalar
  | .date d => .text d.iso
  | .moment m => .text m.wire
  | s => s

def agrees : Scalar → Scalar → Bool
  | .float x, .float y => x.agrees y
  | s, t => s == t

end Scalar

namespace Value

mutual
def matchesBy (f : Scalar → Scalar → Bool) : Value → Value → Bool
  | .scalar s, .scalar t => f s t
  | .list items, .list others => matchesItems f items others
  | .object fields, .object others => matchesFields f fields others
  | _, _ => false
termination_by structural v => v
def matchesItems (f : Scalar → Scalar → Bool) : List Value → List Value → Bool
  | [], [] => true
  | v :: rest, w :: others => matchesBy f v w && matchesItems f rest others
  | _, _ => false
termination_by structural vs => vs
def matchesFields (f : Scalar → Scalar → Bool) : List (String × Value) → List (String × Value) → Bool
  | [], [] => true
  | (key, v) :: rest, (other, w) :: others => key == other && matchesBy f v w && matchesFields f rest others
  | _, _ => false
termination_by structural fs => fs
end

end Value

def Predicate.toJson (p : Predicate) : Value := p.toWire.mapScalars Scalar.toJson

namespace Query

def toJson (q : Query) : Value := q.toWire.mapScalars Scalar.toJson

/-- Whether two queries are the same in structure, `nan` taken as equal to itself. -/
def same (q r : Query) : Bool := q.toWire.matchesBy (· == ·) r.toWire

def agrees (q r : Query) : Bool := q.toWire.matchesBy Scalar.agrees r.toWire

end Query
end QueryGate
