import QueryGate.Http.Rest

/-!
The service that answers with statements: a health report, and an endpoint that takes the parts of a request as JSON and
answers success or the error and its kind.
-/
namespace QueryGate.Http

structure Outcome where
  success : Bool
  sql : Option String := none
  params : Option (List Value) := none
  error : Option String := none
  kind : Option String := none

structure Service where
  config : Config
  room : Nat

namespace Service

def health (service : Service) : Fields := [("status", .text "ok"), ("dialect", .text service.config.dialect.name)]

def readQuery (room : Nat) : Value → Except Failure Value
  | .text s => (Wire.Envelope.decode room (.text s)).mapError .ofEnvelope
  | v => .ok v

def request (service : Service) (sent : Request) : Except Failure Request := do
  return { sent with query := ← readQuery service.room sent.query }

def kind? : Failure → Option String
  | .invalid (.rejected r) => some r.kind
  | .undecodable _ => some "format"
  | .missing _ => some "MissingValuesError"
  | .unsupportedMethod _ => some "UnsupportedOperationError"
  | .notSafe _ => some "UnsafeStatementError"
  | _ => none

def failed (f : Failure) : Outcome :=
  match kind? f with
  | some kind => { success := false, error := f.message, kind := kind }
  | none => { success := false, error := "Failed to generate SQL: " ++ f.message }

def answer (service : Service) (sent : Request) : Outcome :=
  match service.request sent >>= Gate.toSql service.config with
  | .ok statement => { success := true, sql := statement.sql, params := statement.params }
  | .error f => failed f

end Service
end QueryGate.Http
