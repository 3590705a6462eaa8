import QueryGate.Form.Fault
import QueryGate.Operation
import QueryGate.Validation.Rejection
import QueryGate.Verify.Check
import QueryGate.Wire.Envelope

/-!
Everything that can stop a request on its way to a statement.
-/
namespace QueryGate

inductive Failure where
  | invalid (f : QueryFault)
  | undecodable (f : Wire.EnvelopeFault)
  | missing (m : Missing)
  | unsupportedMethod (method : String)
  | malformed (f : Form.Fault)
  | notSafe (u : Unsafe)
  | unreadableSetting (text : String)
  | longInteger
  | unread (cause : Json.Cause)

namespace Failure

/-- Not every fault of an envelope is told as one. -/
def ofEnvelope (f : Wire.EnvelopeFault) : Failure :=
  match f with
  | .json g _ => if g.cause.isReported then .undecodable f else .unread g.cause
  | f => .undecodable f

def shortened (s : String) : String := String.ofList (s.toList.take 200)

def message : Failure → String
  | invalid f => f.message
  | undecodable f => f.message
  | missing m => m.message
  | unsupportedMethod method => "Unsupported HTTP method: " ++ method
  | malformed f => f.cause.message
  | notSafe u => u.message
  | unreadableSetting text => "invalid literal for int() with base 10: " ++ shortened (Text.quoted text)
  | longInteger => Numeral.tooLong none
  | unread cause => cause.text

def rejected {α : Type} (r : Rejection) : Except Failure α := .error (.invalid (.rejected r))

def lacking {α : Type} (m : Missing) : Except Failure α := .error (.missing m)

end Failure
end QueryGate
