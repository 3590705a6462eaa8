import QueryGate.Form.Query
import QueryGate.Text.Quoted
import QueryGate.Validation.Condition

/-!
Checks of trees of conditions. The spellings that clients may use are first mapped to one shape.
-/
namespace QueryGate

inductive PredicateShape where
  | condition (field operator operand : Value)
  | group (operator children negate : Value)

namespace PredicateShape

def isShorthand (key : String) : Bool := (Logic.ofText? (Text.upper key)).isSome

def unknownKeys (known : List String) (fields : Fields) : List String :=
  Text.sorted (fields.keys.filter fun key => !known.contains key)

def conditionKeys : List String := ["field", "operator", "op", "value"]

def groupKeys : List String := Form.logicNames ++ Form.childrenNames ++ Form.negateNames

def ofCondition (fields : Fields) : Except QueryFault PredicateShape :=
  match unknownKeys conditionKeys fields with
  | [] => .ok (.condition (fields.firstOf ["field"]) (fields.firstOf ["operator", "op"])
      (fields.firstOf ["value"]))
  | unknown => reject (.unexpectedKeys "condition" unknown)

def ofGroup (fields : Fields) : Except QueryFault PredicateShape :=
  match unknownKeys groupKeys fields with
  | [] => .ok (.group (fields.firstOf Form.logicNames) (fields.firstOf Form.childrenNames)
      (fields.firstOf Form.negateNames))
  | unknown => reject (.unexpectedKeys "group" unknown)

def ofShorthand (keys : List String) (fields : Fields) : Except QueryFault PredicateShape :=
  match keys, unknownKeys (keys ++ Form.negateNames) fields with
  | [key], [] => .ok (.group (.text (Text.upper key)) (fields.firstOf [key]) (fields.firstOf Form.negateNames))
  | _, _ => reject .shorthandNotSingle

def ofFields (fields : Fields) : Except QueryFault PredicateShape :=
  match Form.predicateTag? fields with
  | some .condition => ofCondition fields
  | some .group => ofGroup fields
  | none =>
    match fields.keys.filter isShorthand with
    | [] => reject .notPredicate
    | keys => ofShorthand keys fields

end PredicateShape

def validateLogic (o : ValidationOptions) (operator : Value) : Except QueryFault Logic :=
  match operator with
  | .list _ => .error (.notComparable .list)
  | .object _ => .error (.notComparable .object)
  | .scalar s =>
    match operator.text?.bind fun s => Logic.ofText? (Text.upper s) with
    | some op => if o.connectives.contains op then .ok op else reject (.logicNotAllowed operator)
    | none => reject (.logicNotAllowed (.scalar s))

def validateChildren (o : ValidationOptions) : Value → Except QueryFault (List Value)
  | .list children =>
    if children.isEmpty then reject .groupEmpty
    else if o.maxConditions < children.length then reject (.tooManyConditions o.maxConditions)
    else .ok children
  | _ => reject .childrenNotList

def validateNegation : Value → Except QueryFault Bool
  | .null => .ok false
  | .bool b => .ok b
  | _ => reject .negationNotBoolean

def validatePredicate (o : ValidationOptions) : Nat → Value → Except QueryFault Predicate
  | 0, _ => reject (.tooDeep o.maxDepth)
  | levels + 1, raw => do
    match raw with
    | .object fields =>
      match ← PredicateShape.ofFields fields with
      | .condition field operator operand => .condition <$> validateCondition o field operator operand
      | .group operator children negate =>
        let operator ← validateLogic o operator
        let children ← validateChildren o children
        let negate ← validateNegation negate
        let children ← children.mapM (validatePredicate o levels)
        return .group operator children negate
    | _ => reject .predicateNotObject

def ValidationOptions.levels (o : ValidationOptions) : Nat := (o.maxDepth + 1).toNat

def validateClause (o : ValidationOptions) (clause : String) : Value →
    Except QueryFault (Option (List Predicate))
  | .null => .ok none
  | .object fields => some <$> [Value.object fields].mapM (validatePredicate o o.levels)
  | .list items => some <$> items.mapM (validatePredicate o o.levels)
  | _ => reject (.invalidClause clause)

end QueryGate
