import QueryGate.Form.Field
import QueryGate.Query.Operator
import QueryGate.Validation.FieldPattern

/-!
The limits and allowed vocabularies that a query is held to.
-/
namespace QueryGate

structure ValidationOptions where
  maxDepth : Int := 5
  maxConditions : Int := 10
  maxSelect : Int := 50
  maxGroupBy : Int := 10
  operators : List Operator := Operator.all
  connectives : List Logic := Logic.all
  fieldPattern : FieldPattern := .safe
  maxValueLength : Option Int := none
  preventKeywords : Bool := false

namespace ValidationOptions

def strict : ValidationOptions where
  maxConditions := 5
  maxSelect := 20
  maxGroupBy := 5
  maxValueLength := some 1000
  preventKeywords := true

end ValidationOptions

namespace Form

def fieldPattern (v : Value) : Except Fault FieldPattern :=
  match v.text?.bind FieldPattern.ofSource? with
  | some p => .ok p
  | none => refuse .notPattern

def validationOptions (fields : Fields) : Except Fault ValidationOptions := do
  let d : ValidationOptions := {}
  let maxDepth ← withDefault ["max_query_depth"] d.maxDepth integer fields
  let maxConditions ← withDefault ["max_conditions_per_group"] d.maxConditions integer fields
  let maxSelect ← withDefault ["max_select_fields"] d.maxSelect integer fields
  let maxGroupBy ← withDefault ["max_group_by_fields"] d.maxGroupBy integer fields
  let operators ← withDefault ["allowed_operators"] d.operators
    (setOf (choice Operator.all Operator.text)) fields
  let connectives ← withDefault ["allowed_logical_operators"] d.connectives
    (setOf (choice Logic.all Logic.text)) fields
  let fieldPattern ← withDefault ["allowed_field_pattern"] d.fieldPattern fieldPattern fields
  let maxValueLength ← withDefault ["max_value_length"] d.maxValueLength (optional integer) fields
  let preventKeywords ← withDefault ["prevent_sql_keywords"] d.preventKeywords boolean fields
  return ⟨maxDepth, maxConditions, maxSelect, maxGroupBy, operators, connectives, fieldPattern,
    maxValueLength, preventKeywords⟩

def optionsSpec : Value → Except Fault ValidationOptions
  | .null => .ok {}
  | .text _ => .ok .strict
  | .object fields => validationOptions fields
  | _ => refuse (.notRecord "ValidationOptions")

end Form
end QueryGate
