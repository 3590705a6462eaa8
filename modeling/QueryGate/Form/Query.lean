import QueryGate.Form.Field
import QueryGate.Query.Basic

/-!
Queries read strictly as typed records: every key is known, every vocabulary is spelt as defined.
-/
namespace QueryGate.Form

def record (name : String) : Value → Except Fault Fields
  | .object fields => .ok fields
  | _ => refuse (.notRecord name)

def condition (fields : Fields) : Except Fault Condition := do
  let field ← required ["field"] text fields
  let operator ← required ["operator", "op"] (choice Operator.all Operator.text) fields
  let value ← withDefault ["value"] .null scalar fields
  noExtras [["field"], ["operator", "op"], ["value"]] fields
  return ⟨field, operator, value⟩

def logicNames : List String := ["operator", "logicalOperator", "logical_operator"]

def childrenNames : List String := ["conditions", "children"]

def negateNames : List String := ["not", "negate"]

inductive PredicateTag where
  | condition
  | group
  deriving DecidableEq, Repr

def PredicateTag.text : PredicateTag → String
  | .condition => "condition"
  | .group => "group"

def predicateTag? (fields : Fields) : Option PredicateTag :=
  if fields.has "field" then some .condition
  else if fields.has "conditions" || fields.has "children" then some .group
  else none

def groupWith (child : Value → Except Fault Predicate) (fields : Fields) : Except Fault Predicate := do
  let operator ← required logicNames (choice Logic.all Logic.text) fields
  let children ← required childrenNames (listOf child) fields
  let negate ← withDefault negateNames false boolean fields
  noExtras [logicNames, childrenNames, negateNames] fields
  return .group operator children negate

def predicateWithin : Nat → Value → Except Fault Predicate
  | 0, _ => refuse (.noTag "predicate_tag()")
  | levels + 1, .object fields =>
    match predicateTag? fields with
    | some .condition => within "condition" (.condition <$> condition fields)
    | some .group => within "group" (groupWith (predicateWithin levels) fields)
    | none => refuse (.noTag "predicate_tag()")
  | _ + 1, _ => refuse (.noTag "predicate_tag()")

def predicate (v : Value) : Except Fault Predicate := predicateWithin (v.levels + 1) v

def join (v : Value) : Except Fault Join := do
  let fields ← record "JoinSpec" v
  let kind ← withDefault ["type", "kind"] .inner (choice JoinKind.all JoinKind.text) fields
  let table ← required ["table"] text fields
  let label ← withDefault ["alias"] none (optional text) fields
  let on ← required ["on"] (listOf predicate) fields
  noExtras [["type", "kind"], ["table"], ["alias"], ["on"]] fields
  return ⟨kind, table, label, on⟩

def order (v : Value) : Except Fault Order := do
  let fields ← record "OrderBy" v
  let field ← required ["field"] text fields
  let direction ← withDefault ["direction"] .ascending (choice Direction.all Direction.text) fields
  noExtras [["field"], ["direction"]] fields
  return ⟨field, direction⟩

def groupByNames : List String := ["groupBy", "group_by"]

def orderByNames : List String := ["orderBy", "order_by"]

def query (v : Value) : Except Fault Query := do
  let fields ← record "QueryOptions" v
  let select ← withDefault ["select"] none (optional (listOf text)) fields
  let filter ← withDefault ["where"] none (optional (listOf predicate)) fields
  let joins ← withDefault ["joins"] none (optional (listOf join)) fields
  let groupBy ← withDefault groupByNames none (optional (listOf text)) fields
  let having ← withDefault ["having"] none (optional (listOf predicate)) fields
  let orderBy ← withDefault orderByNames none (optional (listOf order)) fields
  let limit ← withDefault ["limit"] none (optional integer) fields
  let offset ← withDefault ["offset"] none (optional integer) fields
  noExtras [["select"], ["where"], ["joins"], groupByNames, ["having"], orderByNames, ["limit"], ["offset"]]
    fields
  return { select, filter, joins, groupBy, having, orderBy, limit, offset }

end QueryGate.Form
