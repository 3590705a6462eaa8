import QueryGate.Query.Operator
import QueryGate.Text.Quoted
import QueryGate.Value.Shape

/-!
Why a request is refused: one cause for each rule, its message, and the kind it is reported under.
-/
namespace QueryGate

inductive Rejection where
  | queryNotObject
  | unknownClauses (names : List String)
  | namesNotTexts (clause : String)
  | tooManyNames (clause : String) (most : Int)
  | dangerousName (name : String)
  | invalidName (name : Value)
  | keywordName (name : String)
  | invalidClause (clause : String)
  | tooDeep (most : Int)
  | predicateNotObject
  | shorthandNotSingle
  | unexpectedKeys (what : String) (keys : List String)
  | notPredicate
  | logicNotAllowed (operator : Value)
  | childrenNotList
  | groupEmpty
  | tooManyConditions (most : Int)
  | negationNotBoolean
  | operatorNotAllowed (operator : Value)
  | operandMissing (operator : Operator)
  | operandComposite
  | operandTooLong (most : Int)
  | operandDangerous
  | operandForbidden
  | operandKeyword
  | invalidJoins
  | invalidJoinKind (kind : Value)
  | joinWithoutConditions
  | invalidTable (role : String) (name : Value)
  | invalidOrders
  | invalidOrderName (name : Value)
  | invalidDirection (direction : Value)
  | invalidLimit
  | invalidOffset
  | rowNotObject (index : Nat)
  | invalidColumn (name : String) (index : Nat)
  | pathWithoutTable
  | bodyNotRows
  | bodyItemNotObject
  | idNotScalar (index : Nat)
  | unreadablePayload (detail : String)

namespace Rejection

def nameRule : String :=
  "Must start with a letter and contain only alphanumeric characters, underscores, and dots"

def message : Rejection → String
  | queryNotObject => "Query must be an object"
  | unknownClauses names => "Invalid query options: " ++ Text.listed names
  | namesNotTexts clause => clause ++ " must be an array of strings"
  | tooManyNames clause most => "Too many " ++ clause ++ " fields. Maximum allowed is " ++ toString most
  | dangerousName name => "Invalid field name \"" ++ name ++ "\". Contains dangerous patterns"
  | invalidName name => "Invalid field name \"" ++ name.shown ++ "\". " ++ nameRule
  | keywordName name => "Field name \"" ++ name ++ "\" contains SQL keywords"
  | invalidClause clause => "Invalid " ++ clause ++ " clause structure"
  | tooDeep most => "Query too complex. Maximum depth is " ++ toString most
  | predicateNotObject => "Predicate must be an object"
  | shorthandNotSingle => "Predicate group shorthand takes a single AND/OR key"
  | unexpectedKeys what keys => "Unexpected " ++ what ++ " keys: [" ++ Text.listed (keys.map Text.quoted) ++ "]"
  | notPredicate =>
    "Predicate must be a condition \x7bfield, operator, value\x7d or a group \x7boperator, conditions\x7d"
  | logicNotAllowed operator => "Logical operator \"" ++ operator.shown ++ "\" is not allowed"
  | childrenNotList => "Group conditions must be an array"
  | groupEmpty => "Group must have at least one condition"
  | tooManyConditions most => "Too many conditions in group. Maximum allowed is " ++ toString most
  | negationNotBoolean => "Group negation flag must be a boolean"
  | operatorNotAllowed operator => "Operator \"" ++ operator.shown ++ "\" is not allowed"
  | operandMissing operator =>
    "Operator \"" ++ operator.text ++ "\" requires a value; use IS NULL to match NULL"
  | operandComposite => "Complex objects are not allowed as values"
  | operandTooLong most => "Value exceeds maximum length of " ++ toString most
  | operandDangerous => "Value contains dangerous patterns"
  | operandForbidden => "Value contains forbidden characters"
  | operandKeyword => "Value contains SQL keywords"
  | invalidJoins => "Invalid joins structure"
  | invalidJoinKind kind => "Invalid join type \"" ++ kind.shown ++ "\""
  | joinWithoutConditions => "Join must have at least one ON condition"
  | invalidTable role name => "Invalid " ++ role ++ " name \"" ++ name.shown ++
      "\". Must start with a letter and contain only alphanumeric characters and underscores (max 64)"
  | invalidOrders => "Invalid orderBy structure"
  | invalidOrderName name => "Invalid field name \"" ++ name.shown ++
      "\". Must contain only alphanumeric characters, underscores, and dots"
  | invalidDirection direction => "Invalid sort direction \"" ++ direction.shown ++ "\""
  | invalidLimit => "Limit must be a positive integer"
  | invalidOffset => "Offset must be a non-negative integer"
  | rowNotObject index => "Row " ++ toString index ++ " must be a non-empty object"
  | invalidColumn name index => "Invalid column name \"" ++ name ++ "\" in row " ++ toString index
  | pathWithoutTable => "Request path must name a table"
  | bodyNotRows => "Request body must be an object or an array of objects"
  | bodyItemNotObject => "Request body array must contain only objects"
  | idNotScalar index => "Row " ++ toString index ++ " id must be a string or a number"
  | unreadablePayload detail => "Invalid JSON payload: " ++ detail

def kind : Rejection → String
  | tooManyNames .. => "too_many_fields"
  | dangerousName _ | invalidName _ | keywordName _ | invalidColumn .. => "field"
  | tooDeep _ => "depth"
  | logicNotAllowed _ => "logical_operator"
  | tooManyConditions _ => "too_many_conditions"
  | operatorNotAllowed _ => "operator"
  | operandMissing _ | operandComposite => "value_type"
  | operandTooLong _ => "value_length"
  | operandDangerous => "dangerous_value"
  | operandForbidden => "forbidden_characters"
  | operandKeyword => "sql_keyword"
  | invalidJoinKind _ | joinWithoutConditions => "join"
  | invalidTable .. => "table"
  | invalidOrderName _ | invalidDirection _ => "order_by"
  | invalidLimit => "limit"
  | invalidOffset => "offset"
  | pathWithoutTable => "path"
  | unreadablePayload _ => "format"
  | _ => "structure"

def shows : Rejection → List Value
  | invalidName v | logicNotAllowed v | operatorNotAllowed v | invalidJoinKind v | invalidTable _ v
  | invalidOrderName v | invalidDirection v => [v]
  | tooManyNames _ most | tooDeep most | tooManyConditions most | operandTooLong most => [.int most]
  | _ => []

end Rejection

/-- What stops a validation: a refusal, a connective that cannot even be looked up, or an integer without a text. -/
inductive QueryFault where
  | rejected (r : Rejection)
  | notComparable (c : Composite)
  | longInteger

def QueryFault.message : QueryFault → String
  | .rejected r => r.message
  | .notComparable c => c.notComparable
  | .longInteger => Numeral.tooLong none

def Rejection.fault (r : Rejection) : QueryFault :=
  if r.shows.all Value.isShort then .rejected r else .longInteger

def reject {α : Type} (r : Rejection) : Except QueryFault α := .error r.fault

end QueryGate
