import QueryGate.Operation
import QueryGate.Text.Quoted

/-!
The last check of a statement's text: it reads as one statement, of the expected kind, without anything that the compiler
never writes. The parser is what a configuration brings.
-/
namespace QueryGate

inductive Unsafe where
  | unreadable
  | severalStatements (count : Nat)
  | unexpectedKind (kind : String)
  | unsupported (features : List String)
  deriving DecidableEq, Repr

namespace Unsafe

def message : Unsafe → String
  | unreadable => "Failed to parse SQL"
  | severalStatements count => "Expected one statement, found " ++ toString count
  | unexpectedKind kind => "Unexpected statement type: " ++ kind
  | unsupported features => "SQL contains unsupported features: " ++ Text.listed features

def features : Unsafe → List String
  | unreadable => ["PARSE_ERROR"]
  | severalStatements _ => ["MULTIPLE_STATEMENTS"]
  | unexpectedKind _ => ["STATEMENT_TYPE"]
  | unsupported features => features

end Unsafe

namespace Verify

inductive Feature where
  | command
  | cte
  | subquery
  | union
  deriving DecidableEq, Repr

def Feature.text : Feature → String
  | command => "COMMAND"
  | cte => "CTE"
  | subquery => "SUBQUERY"
  | union => "UNION"

structure Statement where
  kind : String
  features : List Feature
  deriving DecidableEq, Repr

/-- The statements of a text, unless it is no SQL. -/
abbrev Parser := String → Option (List Statement)

def statementName : OperationKind → String
  | .create => "Insert"
  | .read => "Select"
  | .update => "Update"
  | .delete => "Delete"

def sortedFeatures (features : List Feature) : List Feature :=
  [.command, .cte, .subquery, .union].filter features.contains

inductive Fault where
  | notSafe (u : Unsafe)
  | unknownOperation (name : String)
  deriving DecidableEq, Repr

def Fault.message : Fault → String
  | .notSafe u => u.message
  | .unknownOperation name => Text.quoted name

def expectedKinds (operation : String) : Except Fault (List String) :=
  if operation.isEmpty then .ok (OperationKind.all.map statementName)
  else
    match OperationKind.ofText? operation with
    | some k => .ok [statementName k]
    | none => .error (.unknownOperation operation)

def verify (parser : Parser) (sql operation : String) : Except Fault String :=
  match parser sql with
  | none => .error (.notSafe .unreadable)
  | some [s] => do
    let kinds ← expectedKinds operation
    if !kinds.contains s.kind then .error (.notSafe (.unexpectedKind s.kind))
    else
      match sortedFeatures s.features with
      | [] => return s.kind
      | fs => .error (.notSafe (.unsupported (fs.map Feature.text)))
  | some ss => .error (.notSafe (.severalStatements ss.length))

end Verify
end QueryGate
