import QueryGate.Form.Field
import QueryGate.Operation
import QueryGate.Sql.Predicate

/-!
Compiling operations to statements. Nothing is checked again; an operation without rows or without columns to write has no
statement, and neither has one with a count that has no text.
-/
namespace QueryGate

inductive NotOperation where
  | condition
  | text
  | nothing
  | query
  deriving DecidableEq, Repr

def NotOperation.typeName : NotOperation → String
  | condition => "Condition"
  | text => "str"
  | nothing => "NoneType"
  | query => "QueryOptions"

def NotOperation.message (k : NotOperation) : String := "Unsupported operation: " ++ k.typeName

inductive CompileFault where
  | missing (m : Missing)
  | malformed (f : Form.Fault)
  | longInteger
  deriving DecidableEq, Repr

namespace Sql

abbrev Compiled := Except CompileFault Draft

def lack (m : Missing) : Compiled := .error (.missing m)

def commaList (drafts : List Draft) : Draft := .join ", " drafts

def table (schema : Option String) (name : String) : Draft :=
  match schema.filter (!·.isEmpty) with
  | some s => .name s ++ .word "." ++ .name name
  | none => .name name

def joinClause (schema : Option String) (offset : Int) (j : Join) : Draft :=
  let label := match j.label.filter (!·.isEmpty) with
    | some name => .word " AS " ++ Draft.name name
    | none => .empty
  .word (j.kind.text ++ " JOIN ") ++ table schema j.table ++ label ++ .word " ON " ++
    Predicate.compileList true offset j.on

def joinClauses (schema : Option String) (offset : Int) : List Join → List Draft
  | [] => []
  | j :: rest =>
    let d := joinClause schema offset j
    d :: joinClauses schema (offset + d.params.length) rest

def filterClause (keyword : String) (offset : Int) (ps : List Predicate) : List Draft :=
  if ps.isEmpty then [] else [.word (keyword ++ " ") ++ Predicate.compileList false offset ps]

def listClause (keyword : String) (drafts : List Draft) : List Draft :=
  if drafts.isEmpty then [] else [.word (keyword ++ " ") ++ commaList drafts]

def countClause (keyword : String) (count : Option Int) : List Draft :=
  (count.map fun n => Draft.word (keyword ++ " " ++ toString n)).toList

def paramCount (drafts : List Draft) : Nat := (drafts.flatMap (·.params)).length

def select (schema : Option String) (op : ReadOp) : Draft :=
  let names := if op.fields.isEmpty then ["*"] else op.fields
  let head := Draft.word "SELECT " ++ commaList (names.map .name) ++ .word " FROM " ++ table schema op.table
  let joins := joinClauses schema 0 op.joins
  let filter := filterClause "WHERE" (paramCount joins) op.filter
  let having := filterClause "HAVING" (paramCount (joins ++ filter)) op.having
  let orders := op.orderBy.map fun o => Draft.name o.field ++ .word (" " ++ o.direction.text)
  .join " " ([head] ++ joins ++ filter ++ listClause "GROUP BY" (op.groupBy.map .name) ++ having ++
    listClause "ORDER BY" orders ++ countClause "LIMIT" op.limit ++ countClause "OFFSET" op.offset)

def valueTuples (columns : List String) (offset : Int) : List Fields → List Draft
  | [] => []
  | row :: rest =>
    let values := columns.map fun c => (row.value? c).getD .null
    (commaList (Draft.markers offset values)).between "(" ")" ::
      valueTuples columns (offset + columns.length) rest

def insert (schema : Option String) (op : CreateOp) : Compiled :=
  match op.rows with
  | [] => lack .insertRows
  | first :: _ =>
    let columns := first.keys
    if columns.isEmpty then lack .insertColumns
    else .ok (.word "INSERT INTO " ++ table schema op.table ++ .word " (" ++ commaList (columns.map .name) ++
      .word ") VALUES " ++ commaList (valueTuples columns 0 op.rows))

def updateHead (schema : Option String) (tableName : String) (assignments : List Draft) : Draft :=
  .word "UPDATE " ++ table schema tableName ++ .word " SET " ++ commaList assignments

def assignments (offset : Int) : Fields → List Draft
  | [] => []
  | (column, v) :: rest =>
    (Draft.name column ++ .word " = " ++ ⟨[.marker (offset + 1)], [v]⟩) :: assignments (offset + 1) rest

/-- The conditions of an update of one row: its own, or else the row's id. -/
def rowFilter (op : UpdateOp) (row : Fields) : Except CompileFault (List Predicate) :=
  if !op.filter.isEmpty then .ok op.filter
  else
    match row.value? idField with
    | none => .ok []
    | some v => match Form.within "value" (Form.scalar v) with
      | .ok id => .ok [.condition ⟨idField, .equal, id⟩]
      | .error f => .error (.malformed f)

def withoutId (row : Fields) : Fields := row.filter fun f => f.1 != idField

def updateOne (schema : Option String) (op : UpdateOp) (row : Fields) : Compiled := do
  let changes := withoutId row
  if changes.isEmpty then lack .updateColumns
  else
    let ps ← rowFilter op row
    let head := updateHead schema op.table (assignments 0 changes)
    return .join " " ([head] ++ filterClause "WHERE" changes.length ps)

def idOf (row : Fields) : Value := (row.value? idField).getD .null

def whens (column : String) (offset : Int) : List Fields → List Draft
  | [] => []
  | row :: rest =>
    match row.value? column with
    | none => whens column offset rest
    | some v =>
      (.word "WHEN " ++ Draft.name idField ++ .word " = " ++ ⟨[.marker (offset + 1)], [idOf row]⟩ ++
        .word " THEN " ++ ⟨[.marker (offset + 2)], [v]⟩) :: whens column (offset + 2) rest

/-- For each column the choice of the new value by the row's id, the old value where no id matches. -/
def caseAssignments (rows : List Fields) (offset : Int) : List String → List Draft
  | [] => []
  | column :: rest =>
    let choices := Draft.join " " (whens column offset rows)
    (Draft.name column ++ .word " = CASE " ++ choices ++ .word " ELSE " ++ .name column ++ .word " END") ::
      caseAssignments rows (offset + choices.params.length) rest

def updateMany (schema : Option String) (op : UpdateOp) (first : Fields) : Compiled :=
  let columns := (withoutId first).keys
  if columns.isEmpty then lack .updateColumns
  else
    let cases := caseAssignments op.rows 0 columns
    let ids := Draft.markers (paramCount cases) (op.rows.map idOf)
    .ok (updateHead schema op.table cases ++ .word " WHERE " ++ Draft.name idField ++ .word " IN " ++
      (commaList ids).between "(" ")")

def update (schema : Option String) (op : UpdateOp) : Compiled :=
  match op.rows with
  | [] => lack .updateRows
  | [row] => updateOne schema op row
  | first :: _ => updateMany schema op first

def idMatch (d : Dialect) (column : String) (ids : List Value) (offset : Int) : Draft :=
  if d.bindsLists then
    .name column ++ .word " = ANY(" ++ ⟨[.marker (offset + 1)], [.list ids]⟩ ++ .word ")"
  else .name column ++ .word " IN " ++ (commaList (Draft.markers offset ids)).between "(" ")"

/-- The ids of a deletion of several rows: at least two predicates, all of the form `id = value`. -/
def bulkIds? (ps : List Predicate) : Option (List Scalar) :=
  if ps.length < 2 then none
  else ps.mapM fun
    | .condition c => if c.field = idField ∧ c.operator = .equal then some c.value else none
    | .group .. => none

def delete (d : Dialect) (schema : Option String) (op : DeleteOp) : Draft :=
  let head := .word "DELETE FROM " ++ table schema op.table
  match op.filter, bulkIds? op.filter with
  | [], _ => head
  | _, some ids => head ++ .word " WHERE " ++ idMatch d idField (ids.map .scalar) 0
  | ps, none => head ++ .word " WHERE " ++ Predicate.compileList false 0 ps

def draft (d : Dialect) (schema : Option String) : Operation → Compiled
  | .create op => insert schema op
  | .read op => .ok (select schema op)
  | .update op => update schema op
  | .delete op => .ok (delete d schema op)

def compile (d : Dialect) (schema : Option String) (op : Operation) : Except CompileFault Fragment :=
  (draft d schema op).map (Draft.render d)

def write (d : Dialect) (schema : Option String) (op : Operation) : Except CompileFault Fragment :=
  if op.counts.any Numeral.isLong then .error .longInteger else compile d schema op

end Sql
end QueryGate
