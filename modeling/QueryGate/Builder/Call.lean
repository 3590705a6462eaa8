import QueryGate.Builder
import QueryGate.Wire.Pairs

/-!
Steps given by their names and their arguments in order. The arguments are counted before they are looked
at; a step that is left without some of its last arguments takes their defaults.
-/
namespace QueryGate

structure StepShape where
  name : String
  needed : List String
  further : List String := []
  deriving DecidableEq, Repr

namespace StepShape

def all : List StepShape := [
  ⟨"select_fields", ["fields"], []⟩,
  ⟨"where", ["field", "operator"], ["value"]⟩,
  ⟨"where_group", ["operator", "conditions"], ["negate"]⟩,
  ⟨"not_where_group", ["operator", "conditions"], []⟩,
  ⟨"begin_where_group", ["operator"], ["negate"]⟩,
  ⟨"end_where_group", [], []⟩,
  ⟨"start_join", ["kind", "table"], ["alias"]⟩,
  ⟨"on", ["field", "operator", "value"], []⟩,
  ⟨"on_equals", ["left_field", "right_field"], []⟩,
  ⟨"end_join", [], []⟩,
  ⟨"join", ["kind", "table", "left_field", "operator", "right_field"], []⟩,
  ⟨"group_by", ["fields"], []⟩,
  ⟨"having", ["field", "operator", "value"], []⟩,
  ⟨"order_by", ["field"], ["direction"]⟩,
  ⟨"limit", ["value"], []⟩,
  ⟨"offset", ["value"], []⟩]

def title (shape : StepShape) : String := "QueryBuilder." ++ shape.name ++ "()"

def least (shape : StepShape) : Nat := shape.needed.length

def most (shape : StepShape) : Nat := shape.least + shape.further.length

def countText (shape : StepShape) : String :=
  if shape.further.isEmpty then
    toString (shape.most + 1) ++ " positional argument" ++ (if shape.most = 0 then "" else "s")
  else "from " ++ toString (shape.least + 1) ++ " to " ++ toString (shape.most + 1) ++ " positional arguments"

end StepShape

inductive CallFault where
  | unknownStep (name : String)
  | lacking (shape : StepShape) (given : Nat)
  | surplus (shape : StepShape) (given : Nat)
  | notIterable (v : Value)
  | notFields (f : Wire.PairsFault)

namespace CallFault

def nameList : List String → String
  | [] => ""
  | [a] => "'" ++ a ++ "'"
  | [a, b] => "'" ++ a ++ "' and '" ++ b ++ "'"
  | [a, b, c] => "'" ++ a ++ "', '" ++ b ++ "', and '" ++ c ++ "'"
  | a :: rest => "'" ++ a ++ "', " ++ nameList rest

def message : CallFault → String
  | unknownStep name => "'QueryBuilder' object has no attribute '" ++ name ++ "'"
  | lacking shape given =>
    let names := shape.needed.drop given
    shape.title ++ " missing " ++ toString names.length ++ " required positional argument" ++
      (if names.length = 1 then "" else "s") ++ ": " ++ nameList names
  | surplus shape given =>
    shape.title ++ " takes " ++ shape.countText ++ " but " ++ toString (given + 1) ++ " were given"
  | notIterable v => v.notIterable
  | notFields f => f.message

end CallFault

namespace BuilderStep

def elements (v : Value) : Except CallFault (List Value) :=
  match v.elements? with
  | some items => .ok items
  | none => .error (.notIterable v)

def members (v : Value) : Except CallFault (List Value) := do
  let items ← elements v
  (items.mapM fun item => (Wire.fieldsOfPairs item).map .object).mapError .notFields

def isSet (v : Value) : Bool := !v.isEmpty

def ofArguments (name : String) (arguments : List Value) : Except CallFault BuilderStep :=
  let argument (index : Nat) : Value := arguments.getD index .null
  match name with
  | "select_fields" => .select <$> elements (argument 0)
  | "where" => .ok (.filter (argument 0) (argument 1) (argument 2))
  | "where_group" => (.group (argument 0) · (isSet (argument 2))) <$> members (argument 1)
  | "not_where_group" => (.group (argument 0) · true) <$> members (argument 1)
  | "begin_where_group" => .ok (.openGroup (argument 0) (isSet (argument 1)))
  | "end_where_group" => .ok .closeGroup
  | "start_join" => .ok (.openJoin (argument 0) (argument 1) (argument 2))
  | "on" => .ok (.on (argument 0) (argument 1) (argument 2))
  | "on_equals" => .ok (.on (argument 0) (.text "=") (argument 1))
  | "end_join" => .ok .closeJoin
  | "join" => .ok (.join (argument 0) (argument 1) (argument 2) (argument 3) (argument 4))
  | "group_by" => .groupBy <$> elements (argument 0)
  | "having" => .ok (.having (argument 0) (argument 1) (argument 2))
  | "order_by" => .ok (.orderBy (argument 0) (arguments.getD 1 (.text "ASC")))
  | "limit" => .ok (.limit (argument 0))
  | "offset" => .ok (.offset (argument 0))
  | _ => .error (.unknownStep name)

def ofCall (name : String) (arguments : List Value) : Except CallFault BuilderStep :=
  match StepShape.all.find? (·.name == name) with
  | none => .error (.unknownStep name)
  | some shape =>
    if shape.most < arguments.length then .error (.surplus shape arguments.length)
    else if arguments.length < shape.least then .error (.lacking shape arguments.length)
    else ofArguments name arguments

end BuilderStep
end QueryGate
