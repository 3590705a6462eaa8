import QueryGate.Query.Basic

/-!
Operations on a table: rows to create, a reading, rows to update and a deletion.
-/
namespace QueryGate

structure CreateOp where
  table : String
  rows : List Fields

structure ReadOp where
  table : String
  fields : List String := ["*"]
  filter : List Predicate := []
  joins : List Join := []
  groupBy : List String := []
  having : List Predicate := []
  orderBy : List Order := []
  limit : Option Int := none
  offset : Option Int := none

structure UpdateOp where
  table : String
  rows : List Fields
  filter : List Predicate := []

structure DeleteOp where
  table : String
  filter : List Predicate := []

inductive Operation where
  | create (op : CreateOp)
  | read (op : ReadOp)
  | update (op : UpdateOp)
  | delete (op : DeleteOp)

inductive OperationKind where
  | create
  | read
  | update
  | delete
  deriving DecidableEq, Repr

namespace OperationKind

def all : List OperationKind := [create, read, update, delete]

def text : OperationKind → String
  | create => "CREATE"
  | read => "READ"
  | update => "UPDATE"
  | delete => "DELETE"

def ofText? (s : String) : Option OperationKind := all.find? fun k => k.text == s

end OperationKind

namespace Operation

def kind : Operation → OperationKind
  | create _ => .create
  | read _ => .read
  | update _ => .update
  | delete _ => .delete

def table : Operation → String
  | create op => op.table
  | read op => op.table
  | update op => op.table
  | delete op => op.table

def limit? : Operation → Option Int
  | read op => op.limit
  | _ => none

def counts : Operation → List Int
  | read op => op.limit.toList ++ op.offset.toList
  | _ => []

end Operation

def idField : String := "id"

inductive Missing where
  | insertRows
  | insertColumns
  | updateRows
  | updateColumns
  | deleteIds
  | updateId (index : Nat)
  | deleteId (index : Nat)
  deriving DecidableEq, Repr

def Missing.message : Missing → String
  | insertRows => "No values provided for insert"
  | insertColumns => "No fields provided for insert"
  | updateRows => "No values provided for update"
  | updateColumns => "No fields provided for update"
  | deleteIds => "No ids provided for delete"
  | updateId index => "Row " ++ toString index ++ " has no id for bulk update"
  | deleteId index => "Row " ++ toString index ++ " has no id for bulk delete"

/-- How many rows a reading may ask for: a limit where it asks for none, and a cap on what it asks for. -/
structure RowLimit where
  whenAbsent : Option Int := none
  most : Option Int := none
  deriving DecidableEq, Repr

namespace RowLimit

def cap (limit : Option Int) : Option Int → Option Int
  | none => limit
  | some most => some (limit.elim most fun n => min n most)

def apply (r : RowLimit) (asked : Option Int) : Option Int := cap (asked <|> r.whenAbsent) r.most

def enforce (r : RowLimit) : Operation → Operation
  | .read op => .read { op with limit := r.apply op.limit }
  | op => op

end RowLimit

end QueryGate
