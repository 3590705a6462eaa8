import QueryGate.Config
import QueryGate.Text.Integer
import QueryGate.Text.UpperCase

/-!
Settings from environment variables.
-/
namespace QueryGate

/-- Environment variables. One that is empty counts as one that is not set. -/
structure Environment where
  settings : List (String × String)

namespace Environment

def value? (env : Environment) (name : String) : Option String :=
  (env.settings.lookup name).filter (!·.isEmpty)

def flag (env : Environment) (name : String) : Bool :=
  (env.value? name).any fun s => Text.equalsIgnoringCase s "true"

def integer? (env : Environment) (name : String) : Except Failure (Option Int) :=
  match env.value? name with
  | none => .ok none
  | some s =>
    match Text.settingInteger? s with
    | some n => .ok (some n)
    | none => .error (.unreadableSetting s)

def config (env : Environment) : Except Failure Config := do
  let whenAbsent ← env.integer? "RESTQL_DEFAULT_LIMIT"
  let most ← env.integer? "RESTQL_MAX_LIMIT"
  Config.ofFields
    [("dialect", .text ((env.value? "RESTQL_DIALECT").getD "postgres")),
      ("schema_name", ((env.value? "RESTQL_SCHEMA").map .text).getD .null),
      ("default_limit", (whenAbsent.map .int).getD .null),
      ("max_limit", (most.map .int).getD .null),
      ("verify_sql", .bool (env.flag "RESTQL_VERIFY_SQL"))]

def jsonPayloads (env : Environment) : Bool := env.flag "RESTQL_ENABLE_JSON_PAYLOADS"

def logLevel (env : Environment) : String := Text.upper ((env.value? "LOG_LEVEL").getD "INFO")

end Environment
end QueryGate
