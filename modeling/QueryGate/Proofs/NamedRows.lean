import QueryGate.Proofs.GateText

/-! A change of rows is filtered by the ids that its request names, and by nothing else. -/
namespace QueryGate
open Draft Outcome

namespace Sql

/-- A match of the id column against some ids, with `offset` parameters before it: one id alone by `=`, several as
one list or by one mark for each. -/
def idClause (lists : Bool) (offset : Int) : List Value → Draft
  | [id] => .name idField ++ .word " = " ++ ⟨[.marker (offset + 1)], [id]⟩
  | ids =>
    if lists then .name idField ++ .word " = ANY(" ++ ⟨[.marker (offset + 1)], [.list ids]⟩ ++ .word ")"
    else .name idField ++ .word " IN " ++ (commaList (Draft.markers offset ids)).between "(" ")"

def rowSets : List Fields → List Draft
  | [row] => assignments 0 (withoutId row)
  | rows => caseAssignments rows 0 (withoutId (rows.headD [])).keys

theorem idClause_params (lists : Bool) (offset : Int) {ids : List Value} (nonempty : ids ≠ []) :
    (idClause lists offset ids).params = if lists && decide (2 ≤ ids.length) then [.list ids] else ids := by
  match ids with
  | [] => exact absurd rfl nonempty
  | [id] => simp [idClause]
  | first :: second :: rest => cases lists <;> simp [idClause, markerList_params]

theorem compileList_idEquals (lists : Bool) (offset : Int) (id : Scalar) :
    Predicate.compileList false offset [Request.idEquals id] = idClause lists offset [.scalar id] := by
  have reference := Condition.reference?_false ⟨idField, .equal, id⟩
  have leaf : Condition.compile false offset ⟨idField, .equal, id⟩ = idClause lists offset [.scalar id] := by
    unfold Condition.compile
    rw [reference]
    rfl
  rw [Predicate.compileList, Predicate.compileAll, Predicate.compileAll, join_singleton]
  exact leaf

theorem render_filtered (d : Dialect) (head : Draft) {ps : List Predicate} (offset : Int) (some : ps ≠ []) :
    (join " " (head :: filterClause "WHERE" offset ps)).render d =
      (head ++ .word " WHERE " ++ Predicate.compileList false offset ps).render d := by
  have clause : filterClause "WHERE" offset ps = [.word "WHERE " ++ Predicate.compileList false offset ps] := by
    rw [filterClause, if_neg (by rwa [List.isEmpty_iff])]
    rfl
  rw [clause]
  refine render_eq ?_ ?_
  · simp [text_join_cons_cons, text_join_singleton]
  · simp

theorem map_idOf {rows : List Fields} {ids : List Value} (h : rows.mapM (·.value? idField) = some ids) :
    rows.map idOf = ids := by
  calc rows.map idOf = (rows.map (·.value? idField)).map (·.getD .null) := by rw [List.map_map]; rfl
    _ = (ids.map some).map (·.getD .null) := by rw [mapM_eq_some.mp h]
    _ = ids := by rw [List.map_map]; exact List.map_id ids

theorem byId_alone {op : UpdateOp} {row : Fields} {ids : List Scalar} (named : Request.ById op ids)
    (alone : op.rows = [row]) : ∃ id, ids = [id] ∧ row.value? idField = some (.scalar id) := by
  have own := mapM_eq_some.mp named.rows
  rw [alone, List.map_map] at own
  obtain ⟨id, rfl, found⟩ := List.map_eq_singleton_iff.mp own.symm
  exact ⟨id, rfl, found.symm⟩

theorem rowFilter_byId {op : UpdateOp} {row : Fields} {ids : List Scalar} {ps : List Predicate}
    (named : Request.ById op ids) (alone : op.rows = [row]) (h : rowFilter op row = .ok ps) :
    ∃ id, ids = [id] ∧ ps = [Request.idEquals id] := by
  obtain ⟨id, rfl, found⟩ := byId_alone named alone
  refine ⟨id, rfl, ?_⟩
  rcases rowFilter_ok h with ⟨some, rfl⟩ | ⟨-, absent, -⟩ | ⟨own, -, present, rfl⟩
  case inl =>
    rcases named.filter with none | ⟨other, same, filter⟩
    case inl =>
      rw [none] at some
      exact absurd some nofun
    case inr =>
      obtain rfl : id = other := List.head_eq_of_cons_eq same
      exact filter
  case inr.inl =>
    rw [found] at absent
    exact absurd absent nofun
  case inr.inr =>
    -- without conditions the row's own id is the one that was named
    rw [found] at present
    cases present
    rfl

theorem updateOne_byId {d : Dialect} {schema : Option String} {op : UpdateOp} {row : Fields} {ids : List Scalar}
    {x : Draft} (named : Request.ById op ids) (alone : op.rows = [row]) (h : updateOne schema op row = .ok x) :
    x.render d = (updateHead schema op.table (assignments 0 (withoutId row)) ++ .word " WHERE " ++
      idClause false (withoutId row).length (ids.map .scalar)).render d := by
  obtain ⟨ps, filter, rfl⟩ := updateOne_ok h
  obtain ⟨id, rfl, rfl⟩ := rowFilter_byId named alone filter
  rw [render_filtered d _ _ (List.cons_ne_nil _ _), compileList_idEquals false]
  rfl

theorem update_byId {d : Dialect} {schema : Option String} {op : UpdateOp} {ids : List Scalar} {x : Draft}
    (named : Request.ById op ids) (h : update schema op = .ok x) :
    x.render d = (updateHead schema op.table (rowSets op.rows) ++ .word " WHERE " ++
      idClause false (paramCount (rowSets op.rows)) (ids.map .scalar)).render d := by
  obtain ⟨row, rows, h⟩ | ⟨first, second, rest, rows, h⟩ := update_ok h
  · have count : paramCount (rowSets op.rows) = (withoutId row).length := by
      rw [rows, rowSets, paramCount, assignments_params, List.length_map]
    rw [updateOne_byId named rows h, count, rows]
    rfl
  · obtain ⟨cases, rfl, rfl⟩ := updateMany_ok h
    -- two rows at least, so the clause is a list of marks
    have ids := map_idOf named.rows
    rw [rows] at ids ⊢
    rw [← ids]
    refine congrArg (render d) ?_
    simp only [rowSets, idClause, List.map_cons, append_assoc]
    rfl

theorem leafValues_idEquals (ids : List Scalar) : leafValues (ids.map Request.idEquals) = ids := by
  induction ids with
  | nil => rfl
  | cons id rest ih => exact congrArg (id :: ·) ih

theorem isBulk_idEquals (ids : List Scalar) : isBulk (ids.map Request.idEquals) = decide (2 ≤ ids.length) := by
  have all : (ids.map Request.idEquals).all isIdMatch = true := by
    rw [List.all_map, List.all_eq_true]
    exact fun _ _ => rfl
  rw [isBulk, all, List.length_map, Bool.and_true]

theorem delete_byId (d : Dialect) (schema : Option String) (tableName : String) {ids : List Scalar}
    (nonempty : ids ≠ []) :
    delete d schema ⟨tableName, ids.map Request.idEquals⟩ = .word "DELETE FROM " ++ table schema tableName ++
      .word " WHERE " ++ idClause d.bindsLists 0 (ids.map .scalar) := by
  unfold delete
  rw [bulkIds?_eq, isBulk_idEquals, leafValues_idEquals]
  match ids with
  | [] => exact absurd rfl nonempty
  | [id] =>
    simp only [List.map_cons, List.map_nil, ← compileList_idEquals d.bindsLists]
    rfl
  | first :: second :: rest =>
    have several : decide (2 ≤ (first :: second :: rest).length) = true := by simp
    have clause : idMatch d idField ((first :: second :: rest).map .scalar) 0 =
        idClause d.bindsLists 0 ((first :: second :: rest).map .scalar) := rfl
    rw [several, ← clause]
    rfl

/-- An update of a table that is filtered by some ids, which are its last parameters. -/
def UpdatesNamed (d : Dialect) (schema : Option String) (tableName : String) (ids : List Value) (stmt : Fragment) : Prop :=
  ∃ rows, stmt = (updateHead schema tableName (rowSets rows) ++ .word " WHERE " ++
      idClause false (paramCount (rowSets rows)) ids).render d ∧
    stmt.params = (rowSets rows).flatMap (·.params) ++ ids

/-- A deletion from a table that is filtered by some ids, which are its parameters: one list if there are several
and the dialect binds lists. -/
def DeletesNamed (d : Dialect) (schema : Option String) (tableName : String) (ids : List Value) (stmt : Fragment) : Prop :=
  stmt = (.word "DELETE FROM " ++ table schema tableName ++ .word " WHERE " ++
      idClause d.bindsLists 0 ids).render d ∧
    stmt.params = if d.bindsLists && decide (2 ≤ ids.length) then [.list ids] else ids

theorem update_named {d : Dialect} {schema : Option String} {op : UpdateOp} {ids : List Scalar} {x : Draft}
    (named : Request.ById op ids) (h : update schema op = .ok x) :
    UpdatesNamed d schema op.table (ids.map .scalar) (x.render d) := by
  have nonempty : ids.map Value.scalar ≠ [] := fun none => named.nonempty (List.map_eq_nil_iff.mp none)
  refine ⟨op.rows, update_byId named h, ?_⟩
  rw [update_byId named h]
  show (updateHead schema op.table _ ++ .word " WHERE " ++ idClause false _ _).params = _
  rw [params_append, params_append, updateHead_params, params_word, List.append_nil, idClause_params _ _ nonempty]
  rfl

theorem delete_named (d : Dialect) (schema : Option String) (tableName : String) {ids : List Scalar}
    (nonempty : ids ≠ []) :
    DeletesNamed d schema tableName (ids.map .scalar)
      ((delete d schema ⟨tableName, ids.map Request.idEquals⟩).render d) := by
  have some : ids.map Value.scalar ≠ [] := fun none => nonempty (List.map_eq_nil_iff.mp none)
  have free : IsFree (.word "DELETE FROM " ++ table schema tableName ++ .word " WHERE ") :=
    ((isFree_word _).append (isFree_table schema tableName)).append (isFree_word _)
  rw [delete_byId d schema tableName nonempty]
  refine ⟨rfl, ?_⟩
  show (_ ++ idClause d.bindsLists 0 _).params = _
  rw [params_append, free.2, List.nil_append, idClause_params _ _ some]

theorem insert_head (d : Dialect) {schema : Option String} {op : CreateOp} {x : Draft} (h : insert schema op = .ok x) :
    "INSERT INTO ".toList <+: (x.render d).sql.toList := by
  obtain ⟨first, rest, -, rfl⟩ := insert_ok h
  simp only [render_sql, text_append, text_word, List.append_assoc]
  exact List.prefix_append _ _

theorem select_head (d : Dialect) (schema : Option String) (op : ReadOp) :
    "SELECT ".toList <+: ((select schema op).render d).sql.toList := by
  have head (columns : Draft) :
      "SELECT ".toList <+: (.word "SELECT " ++ columns ++ .word " FROM " ++ table schema op.table : Draft).text d := by
    simp only [text_append, text_word, List.append_assoc]
    exact List.prefix_append _ _
  rw [render_sql]
  exact (head _).trans (text_join_begins d " " _ _)

end Sql

namespace Gate

/-- A statement that changes or removes rows has a `WHERE` that compares the id column with the ids that the
request names: the second part of its path or, without one, the ids of the rows of its body. Other requests
have statements that change no row. -/
theorem toSql_touchesNamed {config : Config} {request : Request} {stmt : Fragment}
    (h : toSql config request = .ok stmt) :
    match Method.ofText? request.method with
    | some .put => ∃ table ids, (Target.pathParts request.path).head? = some table ∧
        request.namedIds? = some ids ∧ ids ≠ [] ∧ Sql.UpdatesNamed config.dialect config.schema table ids stmt
    | some .delete => ∃ table ids, (Target.pathParts request.path).head? = some table ∧
        request.namedIds? = some ids ∧ ids ≠ [] ∧ Sql.DeletesNamed config.dialect config.schema table ids stmt
    | _ => "INSERT INTO ".toList <+: stmt.sql.toList ∨ "SELECT ".toList <+: stmt.sql.toList := by
  obtain ⟨op, x, parsed, hx, rfl⟩ := toSql_ok h
  obtain ⟨q, asked, -, hasked, -, rfl⟩ := parse_ok parsed
  obtain ⟨target, method, path, hmethod, asks⟩ := Request.operation_asks hasked
  obtain ⟨rest, parts, second⟩ := Target.ofPath_ok path
  have table : (Target.pathParts request.path).head? = some target.table := by rw [parts, List.head?_cons]
  have ids : request.namedIds? = Request.idsNamedBy target.id request.body := by
    rw [Request.namedIds?, parts, second, List.getElem?_cons_succ, List.head?_eq_getElem?]
  rw [hmethod]
  cases asks with
  | post _ => exact .inl (Sql.insert_head _ hx)
  | get =>
    obtain rfl := Except.ok.inj hx
    exact .inr (Sql.select_head _ _ _)
  | put made =>
    obtain ⟨named, sameTable, hids, byId⟩ := Request.updating_byId made
    have nonempty : named.map Value.scalar ≠ [] := fun none => byId.nonempty (List.map_eq_nil_iff.mp none)
    exact ⟨target.table, _, table, ids.trans hids, nonempty, sameTable ▸ Sql.update_named byId hx⟩
  | delete made =>
    obtain ⟨named, nonempty, hids, rfl⟩ := Request.deletion_cases made
    obtain rfl := Except.ok.inj hx
    have some : named.map Value.scalar ≠ [] := fun none => nonempty (List.map_eq_nil_iff.mp none)
    exact ⟨target.table, _, table, ids.trans hids, some, Sql.delete_named _ _ _ nonempty⟩

def renotedOrders : Request where
  method := "Put"
  path := "orders/"
  body := .list [.object [("note", .text "late"), ("id", .int 7)], .object [("id", .text "b"), ("note", .null)]]

def renotedOrdersText : String :=
  "UPDATE `shop`.`orders` SET `note` = CASE WHEN `id` = ? THEN ? WHEN `id` = ? THEN ? ELSE `note` END " ++
    "WHERE `id` IN (?, ?)"

theorem toSql_touchesNamed_renotedOrders :
    ∃ stmt, toSql shopConfig renotedOrders = .ok stmt ∧ stmt.sql.toList = renotedOrdersText.toList ∧
      Sql.UpdatesNamed .mysql (some "shop") "orders" [.int 7, .text "b"] stmt := by
  have sent : ((toSql shopConfig renotedOrders).toOption.map fun stmt => stmt.sql) =
      some renotedOrdersText := by decide
  obtain ⟨stmt, hstmt, text⟩ := toOption_map_eq_some.mp sent
  have method : Method.ofText? renotedOrders.method = some .put := by decide
  have parts : Target.pathParts renotedOrders.path = ["orders"] := by decide
  have touches := toSql_touchesNamed hstmt
  rw [method, Request.namedIds?, parts] at touches
  obtain ⟨table, ids, first, named, -, updates⟩ := touches
  cases first
  cases named
  exact ⟨stmt, hstmt, congrArg String.toList text, updates⟩

end Gate
end QueryGate
