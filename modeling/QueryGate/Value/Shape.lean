import QueryGate.Value

/-!
The shapes of values: what a value offers one by one, what it can be looked up by, and the names that
messages give to types.
-/
namespace QueryGate

inductive Composite where
  | list
  | object
  deriving DecidableEq, Repr

def Composite.notComparable : Composite → String
  | list => "unhashable type: 'list'"
  | object => "unhashable type: 'dict'"

namespace Value

def typeName : Value → String
  | null => "NoneType"
  | bool _ => "bool"
  | int _ => "int"
  | float _ => "float"
  | text _ => "str"
  | date _ => "date"
  | moment _ => "datetime"
  | list _ => "list"
  | object _ => "dict"

def qualifiedTypeName (v : Value) : String :=
  match v with
  | date _ | moment _ => "datetime." ++ v.typeName
  | _ => v.typeName

def notIterable (v : Value) : String := "'" ++ v.qualifiedTypeName ++ "' object is not iterable"

def notSearchable (v : Value) : String :=
  "expected string or bytes-like object, got '" ++ v.qualifiedTypeName ++ "'"

def elements? : Value → Option (List Value)
  | text s => some (s.toList.map fun c => text (String.singleton c))
  | list items => some items
  | object fields => some (fields.map fun f => text f.1)
  | _ => none

end Value
end QueryGate
