import QueryGate.Failure
import QueryGate.Operation
import QueryGate.Text.UpperCase
import QueryGate.Validation.Query

/-!
Requests and the operations they ask for. The path names a table and may name one row; a change of rows
without a row in the path needs an id in each row of the body.
-/
namespace QueryGate

structure Request where
  method : String
  path : String
  query : Value := .null
  body : Value := .null

inductive Method where
  | get
  | post
  | put
  | delete
  deriving DecidableEq, Repr

def Method.ofText? (s : String) : Option Method :=
  match Text.upper s with
  | "GET" => some get
  | "POST" => some post
  | "PUT" => some put
  | "DELETE" => some delete
  | _ => none

structure Target where
  table : String
  id : Option String
  deriving DecidableEq, Repr

namespace Target

def pathParts (path : String) : List String :=
  ((path.toList.splitOn '/').filter (!·.isEmpty)).map String.ofList

/-- Empty parts of a path do not count, nor do those after the second. -/
def ofPath (path : String) : Except QueryFault Target :=
  match pathParts path with
  | [] => reject .pathWithoutTable
  | [table] => .ok ⟨table, none⟩
  | table :: id :: _ => .ok ⟨table, some id⟩

def wholeTable : String := "list"

end Target

namespace Request

def ofFields (fields : Fields) : Except Form.Fault Request := do
  let method ← Form.within "method" (Form.text (fields.firstOf ["method"]))
  let path ← Form.within "path" (Form.text (fields.firstOf ["path"]))
  return { method := method, path := path, query := fields.firstOf ["query"], body := fields.firstOf ["body"] }

def idEquals (id : Scalar) : Predicate := .condition ⟨idField, .equal, id⟩

def rowOf : Value → Except Failure Fields
  | .object fields => .ok fields
  | _ => Failure.rejected .bodyItemNotObject

def rows : Value → Except Failure (List Fields)
  | .null => .ok []
  | .object fields => .ok (if fields.isEmpty then [] else [fields])
  | .list items => items.mapM rowOf
  | _ => Failure.rejected .bodyNotRows

def rowId (lack : Nat → Missing) (index : Nat) (row : Fields) : Except Failure Scalar :=
  match row.value? idField with
  | none => Failure.lacking (lack index)
  | some (.text s) => .ok (.text s)
  | some (.int n) => .ok (.int n)
  | some (.float x) => .ok (.float x)
  | some _ => Failure.rejected (.idNotScalar index)

def rowIdsFrom (lack : Nat → Missing) (index : Nat) : List Fields → Except Failure (List Scalar)
  | [] => .ok []
  | row :: rest => do
    let id ← rowId lack index row
    let ids ← rowIdsFrom lack (index + 1) rest
    return id :: ids

def rowIds (lack : Nat → Missing) (rows : List Fields) : Except Failure (List Scalar) :=
  rowIdsFrom lack 0 rows

def creation (table : String) (body : Value) : Except Failure CreateOp := do
  let rows ← rows body
  if rows.isEmpty then Failure.lacking .insertRows else return ⟨table, rows⟩

/-- The row that the path names wins over the query's own conditions and limit. -/
def reading (target : Target) (q : Query) : ReadOp :=
  let names := q.select.getD []
  let read : ReadOp :=
    { table := target.table
      fields := if names.isEmpty then ["*"] else names
      filter := q.filter.getD []
      joins := q.joins.getD []
      groupBy := q.groupBy.getD []
      having := q.having.getD []
      orderBy := q.orderBy.getD []
      limit := q.limit
      offset := q.offset }
  match target.id.filter (· != Target.wholeTable) with
  | some id => { read with filter := [idEquals (.text id)], limit := some 1 }
  | none => read

def updating (target : Target) (body : Value) : Except Failure UpdateOp :=
  match target.id with
  | some id =>
    match body with
    | .object (field :: fields) =>
      .ok ⟨target.table, [Fields.set (field :: fields) idField (.text id)], [idEquals (.text id)]⟩
    | _ => Failure.lacking .updateRows
  | none => do
    let rows ← rows body
    if rows.isEmpty then Failure.lacking .updateRows
    else
      let _ ← rowIds .updateId rows
      return ⟨target.table, rows, []⟩

def deletion (target : Target) (body : Value) : Except Failure DeleteOp :=
  match target.id with
  | some id => .ok ⟨target.table, [idEquals (.text id)]⟩
  | none => do
    let rows ← rows body
    if rows.isEmpty then Failure.lacking .deleteIds
    else
      let ids ← rowIds .deleteId rows
      return ⟨target.table, ids.map idEquals⟩

/-- The operation that a request asks for. Only a reading looks at the query, which may have been refused. -/
def operation (request : Request) (query : Except QueryFault Query) : Except Failure Operation := do
  let target ← (Target.ofPath request.path).mapError .invalid
  match Method.ofText? request.method with
  | some .post => .create <$> creation target.table request.body
  | some .get => return .read (reading target (← query.mapError .invalid))
  | some .put => .update <$> updating target request.body
  | some .delete => .delete <$> deletion target request.body
  | none => .error (.unsupportedMethod request.method)

end Request
end QueryGate
