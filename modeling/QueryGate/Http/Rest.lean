import QueryGate.Gate
import QueryGate.Wire.WideUnits

/-!
The REST endpoint: the method and the path as they are, the query from the parameter `q`, rows from the body. A read too long
for a query string may come as a payload. The framework around the endpoint delivers what is asked and writes what is
answered.
-/
namespace QueryGate.Http

structure Exchange where
  method : String
  path : String
  q : Option String := none
  body : List UInt8 := []

structure Answer where
  status : Nat
  body : Value

def statementFields (statement : Fragment) : Fields :=
  [("sql", .text statement.sql), ("params", .list statement.params)]

/-- How the endpoint is set up: for how many levels of values it has room, what it does with statements, and whether reads
may come as payloads. -/
structure Endpoint where
  config : Config
  room : Nat
  jsonPayloads : Bool := false
  execute : Fragment → Value := fun statement => .object (statementFields statement)

namespace Endpoint

def readQuery (room : Nat) : Option String → Except Failure Value
  | none => .ok .null
  | some s => (Wire.Envelope.decode room (.text s)).mapError .ofEnvelope

def unreadable {α : Type} (reason : String) : Except Failure α :=
  Failure.rejected (.unreadablePayload reason)

def readBody (room : Nat) (bytes : List UInt8) : Except Failure Value :=
  if bytes.isEmpty then .ok .null
  else
    match Wire.decodeBody bytes with
    | .error f => if f.flaw = .halfCharacter then .error (.unread .halfCharacter) else unreadable f.message
    | .ok text =>
      match Json.readAll room text with
      | .error f => if f.cause.isReported then unreadable (f.message text) else .error (.unread f.cause)
      | .ok v => .ok v

def payloadQuery? : Value → Option Value
  | .object fields =>
    match Fields.value? fields "action" with
    | some (.text action) => if action = "get" ∨ action = "GET" then Fields.value? fields "query" else none
    | _ => none
  | _ => none

def body (endpoint : Endpoint) (exchange : Exchange) : Except Failure Value :=
  if exchange.method = "GET" then .ok .null else readBody endpoint.room exchange.body

def requestOf (endpoint : Endpoint) (exchange : Exchange) (query body : Value) : Request :=
  match if endpoint.jsonPayloads ∧ exchange.method = "POST" then payloadQuery? body else none with
  | some query => { method := "GET", path := exchange.path, query := query }
  | none => { method := exchange.method, path := exchange.path, query := query, body := body }

def request (endpoint : Endpoint) (exchange : Exchange) : Except Failure Request := do
  let query ← readQuery endpoint.room exchange.q
  let body ← endpoint.body exchange
  return endpoint.requestOf exchange query body

def refusal (status : Nat) (message kind : String) : Answer :=
  ⟨status, .object [("detail", .object [("error", .text message), ("kind", .text kind)])]⟩

def internalError : Answer := ⟨500, .object [("detail", .object [("error", .text "Failed to generate SQL")])]⟩

def failureAnswer (f : Failure) : Except Failure Answer :=
  match f with
  | .invalid (.rejected r) => .ok (refusal 400 r.message r.kind)
  | .undecodable e => .ok (refusal 400 e.message "format")
  | .missing m => .ok (refusal 400 m.message "missing_values")
  | .unsupportedMethod _ => .ok (refusal 405 f.message "unsupported_operation")
  | .notSafe _ => .ok internalError
  | f => .error f

def answer (endpoint : Endpoint) (exchange : Exchange) : Except Failure Answer :=
  match endpoint.request exchange >>= Gate.toSql endpoint.config with
  | .ok statement => .ok ⟨200, endpoint.execute statement⟩
  | .error f => failureAnswer f

/-- What an exchange is answered in the end, if the framework can write the answer. -/
def serve {α : Type} (endpoint : Endpoint) (write : Answer → Option α) (exchange : Exchange) : Option α :=
  (endpoint.answer exchange).toOption.bind write

end Endpoint
end QueryGate.Http
