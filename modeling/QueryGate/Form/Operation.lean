import QueryGate.Form.Query
import QueryGate.Operation

/-!
Operations read as typed records, chosen by their tag. Keys that an operation does not have are ignored.
-/
namespace QueryGate.Form

def creation (fields : Fields) : Except Fault CreateOp := do
  let table ← required ["table"] text fields
  let rows ← required ["rows"] (listOf object) fields
  return ⟨table, rows⟩

def reading (fields : Fields) : Except Fault ReadOp := do
  let table ← required ["table"] text fields
  let names ← withDefault ["fields"] ["*"] (listOf text) fields
  let filter ← withDefault ["where"] [] (listOf predicate) fields
  let joins ← withDefault ["joins"] [] (listOf join) fields
  let groupBy ← withDefault groupByNames [] (listOf text) fields
  let having ← withDefault ["having"] [] (listOf predicate) fields
  let orderBy ← withDefault orderByNames [] (listOf order) fields
  let limit ← withDefault ["limit"] none (optional integer) fields
  let offset ← withDefault ["offset"] none (optional integer) fields
  return { table, fields := names, filter, joins, groupBy, having, orderBy, limit, offset }

def updating (fields : Fields) : Except Fault UpdateOp := do
  let table ← required ["table"] text fields
  let rows ← required ["rows"] (listOf object) fields
  let filter ← withDefault ["where"] [] (listOf predicate) fields
  return ⟨table, rows, filter⟩

def deletion (fields : Fields) : Except Fault DeleteOp := do
  let table ← required ["table"] text fields
  let filter ← withDefault ["where"] [] (listOf predicate) fields
  return ⟨table, filter⟩

def operationOf (kind : OperationKind) (fields : Fields) : Except Fault Operation :=
  match kind with
  | .create => .create <$> creation fields
  | .read => .read <$> reading fields
  | .update => .update <$> updating fields
  | .delete => .delete <$> deletion fields

def operation : Value → Except Fault Operation
  | .object fields =>
    match Fields.value? fields "operation" with
    | none => refuse (.noTag "'operation'")
    | some tag =>
      match tag.text?.bind OperationKind.ofText? with
      | some kind => within kind.text (operationOf kind fields)
      | none => refuse (.unknownTag tag.shown "'operation'" (OperationKind.all.map OperationKind.text))
  | _ => refuse .notTagged

end QueryGate.Form
