import QueryGate.Text.Quoted

/-!
What keeps a value from being read as a typed record, and where. The first fault counts: fields in their
declared order, then keys that the record does not have.
-/
namespace QueryGate.Form

inductive Cause where
  | missing
  | extra
  | notText
  | notList
  | notSet
  | notPattern
  | notObject
  | notAmong (choices : List String)
  | notInteger
  | unreadableInteger
  | fractionalInteger
  | infiniteInteger
  | oversizeInteger
  | notPositive
  | notBoolean
  | unreadableBoolean
  | notRecord (name : String)
  | notTagged
  | noTag (discriminator : String)
  | unknownTag (tag discriminator : String) (choices : List String)
  deriving DecidableEq, Repr

def alternatives : List String → String
  | [] => ""
  | [a] => a
  | [a, b] => a ++ " or " ++ b
  | a :: rest => a ++ ", " ++ alternatives rest

namespace Cause

def kind : Cause → String
  | missing => "missing"
  | extra => "extra_forbidden"
  | notText => "string_type"
  | notList => "list_type"
  | notSet => "frozen_set_type"
  | notPattern => "pattern_type"
  | notObject => "dict_type"
  | notAmong _ => "literal_error"
  | notInteger => "int_type"
  | unreadableInteger => "int_parsing"
  | fractionalInteger => "int_from_float"
  | infiniteInteger => "finite_number"
  | oversizeInteger => "int_parsing_size"
  | notPositive => "greater_than"
  | notBoolean => "bool_type"
  | unreadableBoolean => "bool_parsing"
  | notRecord _ => "model_type"
  | notTagged => "model_attributes_type"
  | noTag _ => "union_tag_not_found"
  | unknownTag .. => "union_tag_invalid"

def quotedAll (choices : List String) : List String := choices.map fun c => "'" ++ c ++ "'"

def message : Cause → String
  | missing => "Field required"
  | extra => "Extra inputs are not permitted"
  | notText => "Input should be a valid string"
  | notList => "Input should be a valid list"
  | notSet => "Input should be a valid frozenset"
  | notPattern => "Input should be a valid pattern"
  | notObject => "Input should be a valid dictionary"
  | notAmong choices => "Input should be " ++ alternatives (quotedAll choices)
  | notInteger => "Input should be a valid integer"
  | unreadableInteger => "Input should be a valid integer, unable to parse string as an integer"
  | fractionalInteger => "Input should be a valid integer, got a number with a fractional part"
  | infiniteInteger => "Input should be a finite number"
  | oversizeInteger => "Unable to parse input string as an integer, exceeded maximum size"
  | notPositive => "Input should be greater than 0"
  | notBoolean => "Input should be a valid boolean"
  | unreadableBoolean => "Input should be a valid boolean, unable to interpret input"
  | notRecord name => "Input should be a valid dictionary or instance of " ++ name
  | notTagged => "Input should be a valid dictionary or object to extract fields from"
  | noTag discriminator => "Unable to extract tag using discriminator " ++ discriminator
  | unknownTag tag discriminator choices => "Input tag '" ++ tag ++ "' found using " ++ discriminator ++
      " does not match any of the expected tags: " ++ Text.listed (quotedAll choices)

end Cause

structure Fault where
  place : List String
  cause : Cause
  deriving DecidableEq, Repr

def within {α : Type} (part : String) (r : Except Fault α) : Except Fault α :=
  r.mapError fun f => { f with place := part :: f.place }

def refuse {α : Type} (cause : Cause) : Except Fault α := .error ⟨[], cause⟩

end QueryGate.Form
