import QueryGate.Config
import QueryGate.Request
import QueryGate.Sql.Statement

/-!
The gate from requests to statements: the query is validated, the operation built, its names checked, its
rows limited, its statement compiled and, if so configured, checked once more.
-/
namespace QueryGate.Gate

/-- Names from the path and the body are never bound as parameters, so they are checked as well. -/
def checkNames : Operation → Except QueryFault Unit
  | op => do
    let _ ← validateTable "table" (.text op.table)
    match op with
    | .create c => discard (validateRows (c.rows.map .object))
    | .update u => discard (validateRows (u.rows.map .object))
    | _ => return ()

def parse (config : Config) (request : Request) : Except Failure Operation := do
  let query ← (validate config.validation request.query).mapError .invalid
  let op ← request.operation (.ok query)
  (checkNames op).mapError .invalid
  return config.rowLimit.enforce op

def ofCompileFault : CompileFault → Failure
  | .missing m => .missing m
  | .malformed f => .malformed f
  | .longInteger => .longInteger

def check (config : Config) (op : Operation) (statement : Fragment) : Except Failure Unit :=
  if config.verify then
    match Verify.verify (config.parser config.dialect) statement.sql op.kind.text with
    | .error (.notSafe u) => .error (.notSafe u)
    | _ => .ok ()
  else .ok ()

def compile (config : Config) (op : Operation) : Except Failure Fragment := do
  let statement ← (Sql.write config.dialect config.schema op).mapError ofCompileFault
  check config op statement
  return statement

def toSql (config : Config) (request : Request) : Except Failure Fragment := do
  compile config (← parse config request)

end QueryGate.Gate
