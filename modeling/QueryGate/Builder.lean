import QueryGate.Value

/-!
Building a query step by step, as the value a client sends. Groups of conditions may be opened inside each
other and joins one after the other; what a step is given is kept as it is and only checked by validation.
A step that fails changes nothing.
-/
namespace QueryGate

inductive BuilderFault where
  | noOpenGroup
  | groupEmpty
  | joinStillOpen
  | conditionOutsideJoin
  | noOpenJoin
  | joinEmpty
  | groupsStillOpen (count : Nat)
  deriving DecidableEq, Repr

def BuilderFault.message : BuilderFault → String
  | noOpenGroup => "No active WHERE group to end"
  | groupEmpty => "WHERE group must have at least one condition"
  | joinStillOpen => "End the current join before starting another"
  | conditionOutsideJoin => "Must call start_join before adding join conditions"
  | noOpenJoin => "No active join to end"
  | joinEmpty => "Join must have at least one ON condition"
  | groupsStillOpen count => toString count ++ " WHERE group(s) still open"

structure OpenGroup where
  operator : Value
  negate : Bool
  children : List Value := []

structure JoinParts where
  kind : Value
  table : Value
  label : Value := .null
  on : List Value := []

structure Builder where
  select : List Value := [.text "*"]
  filter : List Value := []
  groups : List OpenGroup := []
  joins : List JoinParts := []
  openJoin : Option JoinParts := none
  groupBy : List Value := []
  having : List Value := []
  orderBy : List Value := []
  limit : Value := .null
  offset : Value := .null

def conditionValue (field operator operand : Value) : Value :=
  .object [("field", field), ("operator", operator), ("value", operand)]

def OpenGroup.value (g : OpenGroup) : Value :=
  .object ([("operator", g.operator), ("conditions", .list g.children)] ++
    (if g.negate then [("not", .bool true)] else []))

def JoinParts.value (j : JoinParts) : Value :=
  .object ([("type", j.kind), ("table", j.table), ("on", .list j.on)] ++
    (if j.label.isEmpty then [] else [("alias", j.label)]))

inductive BuilderStep where
  | select (names : List Value)
  | filter (field operator operand : Value)
  | group (operator : Value) (children : List Value) (negate : Bool)
  | openGroup (operator : Value) (negate : Bool)
  | closeGroup
  | openJoin (kind table label : Value)
  | on (field operator operand : Value)
  | closeJoin
  | join (kind table field operator operand : Value)
  | groupBy (names : List Value)
  | having (field operator operand : Value)
  | orderBy (field direction : Value)
  | limit (count : Value)
  | offset (count : Value)

namespace Builder

def new : Builder := {}

def addEntry (b : Builder) (entry : Value) : Builder :=
  match b.groups with
  | g :: outer => { b with groups := { g with children := g.children ++ [entry] } :: outer }
  | [] => { b with filter := b.filter ++ [entry] }

def closeGroup (b : Builder) : Except BuilderFault Builder :=
  match b.groups with
  | [] => .error .noOpenGroup
  | g :: outer =>
    if g.children.isEmpty then .error .groupEmpty else .ok (addEntry { b with groups := outer } g.value)

def beginJoin (b : Builder) (kind table label : Value) : Except BuilderFault Builder :=
  match b.openJoin with
  | some _ => .error .joinStillOpen
  | none => .ok { b with openJoin := some { kind := kind, table := table, label := label } }

def addOn (b : Builder) (condition : Value) : Except BuilderFault Builder :=
  match b.openJoin with
  | none => .error .conditionOutsideJoin
  | some j => .ok { b with openJoin := some { j with on := j.on ++ [condition] } }

def closeJoin (b : Builder) : Except BuilderFault Builder :=
  match b.openJoin with
  | none => .error .noOpenJoin
  | some j =>
    if j.on.isEmpty then .error .joinEmpty else .ok { b with joins := b.joins ++ [j], openJoin := none }

def apply (b : Builder) : BuilderStep → Except BuilderFault Builder
  | .select names => .ok { b with select := names }
  | .filter field operator operand => .ok (b.addEntry (conditionValue field operator operand))
  | .group operator children negate =>
    .ok (b.addEntry (OpenGroup.value { operator := operator, negate := negate, children := children }))
  | .openGroup operator negate =>
    .ok { b with groups := { operator := operator, negate := negate } :: b.groups }
  | .closeGroup => b.closeGroup
  | .openJoin kind table label => b.beginJoin kind table label
  | .on field operator operand => b.addOn (conditionValue field operator operand)
  | .closeJoin => b.closeJoin
  | .join kind table field operator operand => do
    let opened ← b.beginJoin kind table .null
    let filled ← opened.addOn (conditionValue field operator operand)
    filled.closeJoin
  | .groupBy names => .ok { b with groupBy := names }
  | .having field operator operand =>
    .ok { b with having := b.having ++ [conditionValue field operator operand] }
  | .orderBy field direction =>
    .ok { b with orderBy := b.orderBy ++ [.object [("field", field), ("direction", direction)]] }
  | .limit count => .ok { b with limit := count }
  | .offset count => .ok { b with offset := count }

def listField (key : String) (items : List Value) : Fields := if items.isEmpty then [] else [(key, .list items)]

def countField (key : String) (count : Value) : Fields := if count.isNull then [] else [(key, count)]

def filterField : List Value → Fields
  | [] => []
  | [entry] => [("where", entry)]
  | entries => [("where", OpenGroup.value { operator := .text "AND", negate := false, children := entries })]

/-- The clauses of a finished query. An open join counts if it has a condition. -/
def fields (b : Builder) : Fields :=
  listField "select" b.select ++ filterField b.filter ++
    listField "joins" ((b.joins ++ b.openJoin.toList).map JoinParts.value) ++
    listField "groupBy" b.groupBy ++ listField "having" b.having ++ listField "orderBy" b.orderBy ++
    countField "limit" b.limit ++ countField "offset" b.offset

def toValue (b : Builder) : Except BuilderFault Value :=
  if !b.groups.isEmpty then .error (.groupsStillOpen b.groups.length)
  else if b.openJoin.any (·.on.isEmpty) then .error .joinEmpty
  else .ok (.object b.fields)

end Builder
end QueryGate
