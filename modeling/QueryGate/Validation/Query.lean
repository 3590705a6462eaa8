import QueryGate.Query.Wire
import QueryGate.Validation.Predicate

/-!
Checks of whole queries. The first broken rule is reported: unknown clauses, then `select`, `joins`, `where`,
`groupBy`, `having`, `orderBy`, `limit` and `offset`.
-/
namespace QueryGate

def clauseNames : List String :=
  ["select", "where", "joins", "groupBy", "group_by", "having", "orderBy", "order_by", "limit", "offset"]

def joinKeys : List String := ["type", "kind", "table", "alias", "on"]

def orderKeys : List String := ["field", "direction"]

def wordOr (default : String) (v : Value) : Value :=
  if v.isEmpty then .text default
  else
    match v with
    | .text s => .text (Text.upper s)
    | v => v

def validateJoinKind (v : Value) : Except QueryFault JoinKind :=
  let kind := wordOr "INNER" v
  match kind.text?.bind JoinKind.ofText? with
  | some k => .ok k
  | none => reject (.invalidJoinKind kind)

def validateLabel : Value → Except QueryFault (Option String)
  | .null => .ok none
  | name => some <$> validateTable "alias" name

def validateJoin (o : ValidationOptions) : Value → Except QueryFault Join
  | .object fields => do
    let unknown := PredicateShape.unknownKeys joinKeys fields
    if !unknown.isEmpty then reject (.unexpectedKeys "join" unknown)
    else
      let kind ← validateJoinKind (Fields.firstOf fields ["type", "kind"])
      let table ← validateTable "table" (Fields.firstOf fields ["table"])
      let label ← validateLabel (Fields.firstOf fields ["alias"])
      match ← validateClause o "join" (Fields.firstOf fields ["on"]) with
      | some (p :: ps) => return ⟨kind, table, label, p :: ps⟩
      | _ => reject .joinWithoutConditions
  | _ => reject .invalidJoins

def validateJoins (o : ValidationOptions) : Value → Except QueryFault (Option (List Join))
  | .null => .ok none
  | .list items => some <$> items.mapM (validateJoin o)
  | _ => reject .invalidJoins

def validateOrderName (o : ValidationOptions) (name : Value) : Except QueryFault String :=
  match name with
  | .text s => if isField o s then .ok s else reject (.invalidOrderName name)
  | _ => reject (.invalidOrderName name)

def validateDirection (v : Value) : Except QueryFault Direction :=
  match (wordOr "ASC" v).text?.bind Direction.ofText? with
  | some d => .ok d
  | none => reject (.invalidDirection v)

def validateOrder (o : ValidationOptions) : Value → Except QueryFault Order
  | .object fields => do
    if !(PredicateShape.unknownKeys orderKeys fields).isEmpty then reject .invalidOrders
    else
      let field ← validateOrderName o (Fields.firstOf fields ["field"])
      let direction ← validateDirection (Fields.firstOf fields ["direction"])
      return ⟨field, direction⟩
  | _ => reject .invalidOrders

def validateOrders (o : ValidationOptions) : Value → Except QueryFault (Option (List Order))
  | .null => .ok none
  | .object fields => some <$> [Value.object fields].mapM (validateOrder o)
  | .list items => some <$> items.mapM (validateOrder o)
  | _ => reject .invalidOrders

def wholeNumber? : Value → Option Int
  | .int n => some n
  | .float x => x.toInt?
  | _ => none

def validateCount (least : Int) (broken : Rejection) : Value → Except QueryFault (Option Int)
  | .null => .ok none
  | v =>
    match wholeNumber? v with
    | some n => if least ≤ n then .ok (some n) else reject broken
    | none => reject broken

def validate (o : ValidationOptions) : Value → Except QueryFault Query
  | .null => .ok {}
  | .object fields => do
    let unknown := PredicateShape.unknownKeys clauseNames fields
    if !unknown.isEmpty then reject (.unknownClauses unknown)
    else
      let select ← validateNames "select" o.maxSelect (Fields.firstOf fields ["select"])
      let joins ← validateJoins o (Fields.firstOf fields ["joins"])
      let filter ← validateClause o "where" (Fields.firstOf fields ["where"])
      let groupBy ← validateNames "groupBy" o.maxGroupBy (Fields.firstOf fields Form.groupByNames)
      let having ← validateClause o "having" (Fields.firstOf fields ["having"])
      let orderBy ← validateOrders o (Fields.firstOf fields Form.orderByNames)
      let limit ← validateCount 1 .invalidLimit (Fields.firstOf fields ["limit"])
      let offset ← validateCount 0 .invalidOffset (Fields.firstOf fields ["offset"])
      return { select, filter, joins, groupBy, having, orderBy, limit, offset }
  | _ => reject .queryNotObject

/-- A query that was validated before, by the same rules as one that a client sends. -/
def revalidate (o : ValidationOptions) (q : Query) : Except QueryFault Query := validate o q.toWire

end QueryGate
