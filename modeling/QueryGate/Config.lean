import QueryGate.Failure
import QueryGate.Operation
import QueryGate.Sql.Dialect
import QueryGate.Validation.Name
import QueryGate.Validation.Options

/-!
What a gate is configured with: the dialect and the schema of its statements, the limits on queries, and whether statements
are checked and by what parser.
-/
namespace QueryGate

structure Config where
  dialect : Dialect := .postgres
  schema : Option String := none
  validation : ValidationOptions := .strict
  rowLimit : RowLimit := {}
  verify : Bool := false
  parser : Dialect → Verify.Parser := fun _ _ => none

namespace Config

def schemaNames : List String := ["schema", "schema_name"]

def validationField (fields : Fields) : Except Failure ValidationOptions :=
  match fields.value? "validation" with
  | none => .ok .strict
  | some spec => (Form.optionsSpec spec).mapError .malformed

def checkSchema (fields : Fields) : Except Failure Unit :=
  match fields.firstOf schemaNames with
  | .text s => (discard (validateTable "schema" (.text s))).mapError .invalid
  | _ => .ok ()

def readFields (fields : Fields) (validation : ValidationOptions) : Except Form.Fault Config := do
  let dialect ← Form.withDefault ["dialect"] .postgres (Form.choice Dialect.all Dialect.name) fields
  let schema ← Form.withDefault schemaNames none (Form.optional Form.text) fields
  let whenAbsent ← Form.withDefault ["default_limit"] none (Form.optional Form.positive) fields
  let most ← Form.withDefault ["max_limit"] none (Form.optional Form.positive) fields
  let verify ← Form.withDefault ["verify_sql"] false Form.boolean fields
  return { dialect := dialect, schema := schema, validation := validation, rowLimit := ⟨whenAbsent, most⟩,
           verify := verify }

/-- A bad schema name is reported before any other fault of a field. -/
def ofFields (fields : Fields) : Except Failure Config := do
  let validation ← validationField fields
  checkSchema fields
  (readFields fields validation).mapError .malformed

end Config

end QueryGate
