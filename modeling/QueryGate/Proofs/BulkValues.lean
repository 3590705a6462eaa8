import QueryGate.Proofs.NamedRows

/-! A creation or an update binds the values of all rows under the columns of the first row. -/
namespace QueryGate
open Draft Outcome

namespace Sql

def StandAt (k : Nat) (vs params : List Value) : Prop :=
  ∃ before after, params = before ++ vs ++ after ∧ before.length = k

theorem standAt_head (vs params : List Value) : StandAt 0 vs (vs ++ params) := ⟨[], params, rfl, rfl⟩

theorem StandAt.append {k : Nat} {vs params : List Value} (h : StandAt k vs params) (more : List Value) :
    StandAt k vs (params ++ more) := by
  obtain ⟨before, after, rfl, length⟩ := h
  exact ⟨before, after ++ more, by rw [List.append_assoc], length⟩

theorem StandAt.behind {k : Nat} {vs params : List Value} (h : StandAt k vs params) (first : List Value) :
    StandAt (first.length + k) vs (first ++ params) := by
  obtain ⟨before, after, rfl, length⟩ := h
  refine ⟨first ++ before, after, ?_, ?_⟩
  · simp only [List.append_assoc]
  · rw [List.length_append, length]

/-- Each row has its own tuple, with a mark for each of some columns, and its values are bound there. -/
def TuplesBind (columns : List String) (rows : List Fields) (tuples : List Draft) (params : List Value) : Prop :=
  ∀ (i : Nat) (row : Fields), rows[i]? = some row → ∃ k values,
    tuples[i]? = some ((commaList (Draft.markers (k : Nat) values)).between "(" ")") ∧ StandAt k values params ∧
      values.length = columns.length ∧
      ∀ (j : Nat) c v, columns[j]? = some c → row.value? c = some v → values[j]? = some v

theorem rowValues_place {columns : List String} {row : Fields} {j : Nat} {c : String} {v : Value}
    (column : columns[j]? = some c) (value : row.value? c = some v) : (rowValues columns row)[j]? = some v := by
  rw [rowValues, List.getElem?_map, column, Option.map_some, value, Option.getD_some]

theorem valueTuples_place (columns : List String) (offset : Nat) {rows : List Fields} {i : Nat} {row : Fields}
    (h : rows[i]? = some row) :
    ∃ k, (valueTuples columns offset rows)[i]? =
        some ((commaList (Draft.markers (offset + k : Nat) (rowValues columns row))).between "(" ")") ∧
      StandAt k (rowValues columns row) (rows.flatMap (rowValues columns)) := by
  induction rows generalizing offset i with
  | nil => exact absurd h nofun
  | cons first rest ih =>
    cases i with
    | zero =>
      obtain rfl : first = row := Option.some.inj h
      exact ⟨0, rfl, standAt_head _ _⟩
    | succ i =>
      -- the values of this row, as many as there are columns, stand before those of the rest
      obtain ⟨k, tuple, values⟩ := ih (offset + columns.length) h
      have width : (rowValues columns first).length = columns.length := List.length_map _
      refine ⟨columns.length + k, ?_, ?_⟩
      · rw [← Nat.add_assoc]
        exact tuple
      · rw [← width]
        exact values.behind _

theorem tuplesBind_valueTuples (columns : List String) (rows : List Fields) :
    TuplesBind columns rows (valueTuples columns 0 rows) (rows.flatMap (rowValues columns)) := by
  intro i row hrow
  obtain ⟨k, tuple, values⟩ := valueTuples_place columns 0 hrow
  rw [Nat.zero_add] at tuple
  exact ⟨k, _, tuple, values, List.length_map _, fun j c v => rowValues_place⟩

theorem insert_binds {schema : Option String} {op : CreateOp} {x : Draft} (h : insert schema op = .ok x) :
    ∃ tuples, x = .word "INSERT INTO " ++ table schema op.table ++ .word " (" ++
        commaList ((op.rows.headD []).keys.map .name) ++ .word ") VALUES " ++ commaList tuples ∧ x.Numbered 0 ∧
      TuplesBind (op.rows.headD []).keys op.rows tuples x.params := by
  obtain ⟨params, numbered⟩ := insert_marks h
  obtain ⟨first, rest, rows, eq⟩ := insert_ok h
  have columns : op.rows.headD [] = first := by rw [rows, List.headD_cons]
  have values : createValues op = op.rows.flatMap (rowValues first.keys) := by simp only [createValues, rows]
  rw [columns, params, values]
  exact ⟨_, eq, numbered, tuplesBind_valueTuples _ _⟩

def assignment (column : String) (k : Int) (v : Value) : Draft :=
  .name column ++ .word " = " ++ ⟨[.marker (k + 1)], [v]⟩

def choice (k : Int) (id v : Value) : Draft :=
  .word "WHEN " ++ .name idField ++ .word " = " ++ ⟨[.marker (k + 1)], [id]⟩ ++ .word " THEN " ++
    ⟨[.marker (k + 2)], [v]⟩

def choices (column : String) (whens : List Draft) : Draft :=
  .name column ++ .word " = CASE " ++ .join " " whens ++ .word " ELSE " ++ .name column ++ .word " END"

/-- Each value that a row has under some columns is bound there: by an assignment if the row is alone, by a choice
for the row's id if there are several. -/
def SetsBind (columns : List String) (rows : List Fields) (sets : List Draft) (params : List Value) : Prop :=
  ∀ row ∈ rows, ∀ c ∈ columns, ∀ v, row.value? c = some v →
    if rows.length = 1 then ∃ k : Nat, assignment c k v ∈ sets ∧ StandAt k [v] params
    else ∃ (id : Value) (whens : List Draft) (k : Nat), row.value? idField = some id ∧ choices c whens ∈ sets ∧
      choice k id v ∈ whens ∧ StandAt k [id, v] params

theorem SetsBind.append {columns : List String} {rows : List Fields} {sets : List Draft} {params : List Value}
    (h : SetsBind columns rows sets params) (more : List Value) : SetsBind columns rows sets (params ++ more) := by
  intro row hrow c column v value
  have binds := h row hrow c column v value
  by_cases alone : rows.length = 1
  · rw [if_pos alone] at binds ⊢
    obtain ⟨k, set, place⟩ := binds
    exact ⟨k, set, place.append more⟩
  · rw [if_neg alone] at binds ⊢
    obtain ⟨id, whens, k, found, set, clause, place⟩ := binds
    exact ⟨id, whens, k, found, set, clause, place.append more⟩

theorem assignments_place (offset : Nat) {changes : Fields} {c : String} {v : Value} (h : (c, v) ∈ changes) :
    ∃ k, assignment c (offset + k : Nat) v ∈ assignments offset changes ∧ StandAt k [v] (changes.map (·.2)) := by
  induction changes generalizing offset with
  | nil => exact absurd h List.not_mem_nil
  | cons change rest ih =>
    obtain ⟨column, w⟩ := change
    rcases List.mem_cons.mp h with same | later
    case inl =>
      cases same
      exact ⟨0, List.mem_cons_self, standAt_head [v] _⟩
    case inr =>
      obtain ⟨k, set, value⟩ := ih (offset + 1) later
      refine ⟨1 + k, List.mem_cons_of_mem _ ?_, value.behind [w]⟩
      rw [← Nat.add_assoc]
      exact set

theorem whens_place (column : String) (offset : Nat) {rows : List Fields} {row : Fields} {v : Value}
    (h : row ∈ rows) (value : row.value? column = some v) :
    ∃ k, choice (offset + k : Nat) (idOf row) v ∈ whens column offset rows ∧
      StandAt k [idOf row, v] (whenValues column rows) := by
  induction rows generalizing offset with
  | nil => exact absurd h List.not_mem_nil
  | cons first rest ih =>
    rcases List.mem_cons.mp h with same | later
    case inl =>
      subst same
      have own : whenValues column (row :: rest) = [idOf row, v] ++ whenValues column rest := by
        simp only [whenValues, List.flatMap_cons, value]
      refine ⟨0, ?_, own ▸ standAt_head _ _⟩
      rw [whens, value]
      exact List.mem_cons_self
    case inr =>
      cases found : first.value? column with
      | none =>
        -- a row without the column has no clause and no parameters
        have skipped : whenValues column (first :: rest) = whenValues column rest := by
          simp only [whenValues, List.flatMap_cons, found, List.nil_append]
        rw [whens, found, skipped]
        exact ih offset later
      | some w =>
        have own : whenValues column (first :: rest) = [idOf first, w] ++ whenValues column rest := by
          simp only [whenValues, List.flatMap_cons, found]
        obtain ⟨k, clause, values⟩ := ih (offset + 2) later
        refine ⟨2 + k, ?_, own ▸ values.behind [idOf first, w]⟩
        rw [whens, found, ← Nat.add_assoc]
        exact List.mem_cons_of_mem _ clause

theorem caseAssignments_place {rows : List Fields} (offset : Nat) {columns : List String} {c : String} {row : Fields}
    {v : Value} (column : c ∈ columns) (h : row ∈ rows) (value : row.value? c = some v) :
    ∃ whens k, choices c whens ∈ caseAssignments rows offset columns ∧
      choice (offset + k : Nat) (idOf row) v ∈ whens ∧
      StandAt k [idOf row, v] (columns.flatMap (whenValues · rows)) := by
  induction columns generalizing offset with
  | nil => exact absurd column List.not_mem_nil
  | cons first rest ih =>
    have count : (join " " (whens first offset rows)).params.length = (whenValues first rows).length := by
      rw [params_join, whens_params]
    rcases List.mem_cons.mp column with same | later
    case inl =>
      subst same
      obtain ⟨k, clause, values⟩ := whens_place c offset h value
      refine ⟨whens c offset rows, k, List.mem_cons_self, clause, ?_⟩
      rw [List.flatMap_cons]
      exact values.append _
    case inr =>
      obtain ⟨whens, k, set, clause, values⟩ := ih (offset + (whenValues first rows).length) later
      refine ⟨whens, (whenValues first rows).length + k, ?_, ?_, ?_⟩
      · rw [caseAssignments, count]
        exact List.mem_cons_of_mem _ set
      · rw [← Nat.add_assoc]
        exact clause
      · rw [List.flatMap_cons]
        exact values.behind _

theorem mem_withoutId {row : Fields} {c : String} {v : Value} (column : c ≠ idField) (value : row.value? c = some v) :
    (c, v) ∈ withoutId row := by
  obtain ⟨before, after, rfl, -⟩ := List.lookup_eq_some_iff.mp value
  have given : (c, v) ∈ before ++ (c, v) :: after := List.mem_append_right _ List.mem_cons_self
  exact List.mem_filter.mpr ⟨given, bne_iff_ne.mpr column⟩

theorem ne_id_of_mem {row : Fields} {c : String} (h : c ∈ (withoutId row).keys) : c ≠ idField := by
  obtain ⟨field, hfield, rfl⟩ := List.mem_map.mp h
  exact bne_iff_ne.mp (List.mem_filter.mp hfield).2

theorem setsBind_rowSets {rows : List Fields} {ids : List Value} (named : rows.mapM (·.value? idField) = some ids) :
    SetsBind (withoutId (rows.headD [])).keys rows (rowSets rows) ((rowSets rows).flatMap (·.params)) := by
  intro row hrow c column v value
  match rows with
  | [] => exact absurd hrow List.not_mem_nil
  | [only] =>
    obtain rfl := List.mem_singleton.mp hrow
    obtain ⟨k, set, place⟩ := assignments_place 0 (mem_withoutId (ne_id_of_mem column) value)
    rw [Nat.zero_add] at set
    have sets : rowSets [row] = assignments 0 (withoutId row) := rfl
    rw [if_pos (show [row].length = 1 from rfl), sets, assignments_params]
    exact ⟨k, set, place⟩
  | first :: second :: rest =>
    have several : ¬ (first :: second :: rest).length = 1 := by simp
    -- the clauses compare with the row's id, which a row may lack but these do not
    obtain ⟨id, hid⟩ := Request.value?_of_mapM named hrow
    obtain ⟨whens, k, set, clause, place⟩ := caseAssignments_place 0 column hrow value
    have own : idOf row = id := by rw [idOf, hid, Option.getD_some]
    rw [Nat.zero_add, own] at clause
    rw [own] at place
    have sets : rowSets (first :: second :: rest) = caseAssignments (first :: second :: rest) 0 (withoutId first).keys :=
      rfl
    rw [if_neg several, sets, caseAssignments_params]
    exact ⟨id, whens, k, hid, set, clause, place⟩

theorem areNumbered_rowSets (rows : List Fields) : AreNumbered 0 (rowSets rows) := by
  unfold rowSets
  split
  · exact areNumbered_assignments 0 _
  · exact areNumbered_caseAssignments _ 0 _

theorem numbered_idClause (lists : Bool) (offset : Int) (ids : List Value) :
    (idClause lists offset ids).Numbered offset := by
  have name := isFree_name idField
  have inside (ids : List Value) := (numbered_markerList offset ids).between "(" ")"
  unfold idClause
  split
  · exact (name.append (isFree_word " = ")).before (numbered_mark offset _)
  · cases lists with
    | true => exact ((name.append (isFree_word " = ANY(")).before (numbered_mark offset _)).before_free (isFree_word ")")
    | false => exact (name.append (isFree_word " IN ")).before (inside _)

theorem update_binds (d : Dialect) {schema : Option String} {op : UpdateOp} {ids : List Scalar} {x : Draft}
    (named : Request.ById op ids) (h : update schema op = .ok x) :
    ∃ rest, x.render d = (updateHead schema op.table (rowSets op.rows) ++ rest).render d ∧
      (updateHead schema op.table (rowSets op.rows) ++ rest).Numbered 0 ∧
      SetsBind (withoutId (op.rows.headD [])).keys op.rows (rowSets op.rows) x.params := by
  have sets := updateHead_params schema op.table (rowSets op.rows)
  have head := numbered_updateHead schema op.table (areNumbered_rowSets op.rows)
  have clause := (isFree_word " WHERE ").before
    (numbered_idClause false (paramCount (rowSets op.rows)) (ids.map .scalar))
  have statement := update_byId (d := d) named h
  rw [append_assoc] at statement
  refine ⟨_, statement, numbered_append head ?_, ?_⟩
  · rw [sets, Int.zero_add]
    exact clause
  · have params : x.params = _ := congrArg Fragment.params statement
    rw [params, render, params_append, sets]
    exact (setsBind_rowSets named.rows).append _

end Sql

namespace Gate

def Prints (d : Dialect) (x : Draft) (stmt : Fragment) : Prop := stmt = x.render d ∧ x.Numbered 0

/-- A request that creates or updates the rows of its body has a statement that binds, for each row, all of its
values under the columns of the first row. -/
theorem toSql_bindsRows {config : Config} {request : Request} {rows : List Fields} {stmt : Fragment}
    (unnamed : (Target.pathParts request.path)[1]? = none) (body : Request.bodyRows? request.body = some rows)
    (h : toSql config request = .ok stmt) :
    match Method.ofText? request.method with
    | some .post => ∃ table tuples,
        Prints config.dialect (.word "INSERT INTO " ++ Sql.table config.schema table ++ .word " (" ++
          Sql.commaList ((rows.headD []).keys.map .name) ++ .word ") VALUES " ++ Sql.commaList tuples) stmt ∧
        Sql.TuplesBind (rows.headD []).keys rows tuples stmt.params
    | some .put => ∃ table sets rest, Prints config.dialect (Sql.updateHead config.schema table sets ++ rest) stmt ∧
        Sql.SetsBind (Sql.withoutId (rows.headD [])).keys rows sets stmt.params
    | _ => True := by
  obtain ⟨op, x, parsed, hx, rfl⟩ := toSql_ok h
  obtain ⟨q, asked, -, hasked, -, rfl⟩ := parse_ok parsed
  obtain ⟨target, method, path, hmethod, asks⟩ := Request.operation_asks hasked
  obtain ⟨parts, split, second⟩ := Target.ofPath_ok path
  have rowless : target.id = none := by
    rw [second, List.head?_eq_getElem?, ← unnamed, split, List.getElem?_cons_succ]
  rw [hmethod]
  cases asks with
  | get => trivial
  | delete _ => trivial
  | post made =>
    obtain ⟨found, hfound, rfl⟩ := Request.creation_cases made
    obtain rfl : found = rows := Option.some.inj (hfound.symm.trans body)
    obtain ⟨tuples, statement, numbered, binds⟩ := Sql.insert_binds hx
    exact ⟨target.table, tuples, ⟨congrArg (Draft.render _) statement, statement ▸ numbered⟩, binds⟩
  | put made =>
    obtain ⟨id, fields, named, -⟩ | ⟨found, ids, -, hfound, nonempty, hids, rfl⟩ := Request.updating_cases made
    case inl =>
      rw [rowless] at named
      exact absurd named nofun
    obtain rfl : found = rows := Option.some.inj (hfound.symm.trans body)
    obtain ⟨rest, statement, numbered, binds⟩ := Sql.update_binds config.dialect ⟨nonempty, hids, .inl rfl⟩ hx
    exact ⟨target.table, _, rest, ⟨statement, numbered⟩, binds⟩

def repricedItems : Request where
  method := "PUT"
  path := "/items"
  body := .list [.object [("id", .int 1), ("price", .int 5), ("sold", .bool true)],
    .object [("price", .int 6), ("id", .int 2)]]

def repricedItemsText : String :=
  "UPDATE \"items\" SET \"price\" = CASE WHEN \"id\" = $1 THEN $2 WHEN \"id\" = $3 THEN $4 ELSE \"price\" END, " ++
    "\"sold\" = CASE WHEN \"id\" = $5 THEN $6 ELSE \"sold\" END WHERE \"id\" IN ($7, $8)"

theorem toSql_bindsRows_repricedItems :
    ∃ stmt table sets rest, toSql { dialect := .postgres } repricedItems = .ok stmt ∧
      stmt.sql.toList = repricedItemsText.toList ∧ Prints .postgres (Sql.updateHead none table sets ++ rest) stmt ∧
      Sql.SetsBind ["price", "sold"] [[("id", .int 1), ("price", .int 5), ("sold", .bool true)],
        [("price", .int 6), ("id", .int 2)]] sets stmt.params := by
  have sent : ((toSql { dialect := .postgres } repricedItems).toOption.map fun stmt => stmt.sql) =
      some repricedItemsText := by decide +kernel
  obtain ⟨stmt, hstmt, text⟩ := toOption_map_eq_some.mp sent
  have method : Method.ofText? repricedItems.method = some .put := by decide
  have unnamed : (Target.pathParts repricedItems.path)[1]? = none := by decide
  have binds := toSql_bindsRows unnamed rfl hstmt
  rw [method] at binds
  obtain ⟨table, sets, rest, prints, binds⟩ := binds
  exact ⟨stmt, table, sets, rest, hstmt, congrArg String.toList text, prints, binds⟩

def laterColumn (method : String) : Request where
  method := method
  path := "/users"
  body := .list [.object [("id", .int 1), ("a", .int 2)], .object [("id", .int 4), ("a", .int 5), ("b", .int 3)]]

theorem mem_scalars {params : List Value} {s : Scalar} (h : Value.scalar s ∈ params) :
    s ∈ params.flatMap Value.scalars := List.mem_flatMap.mpr ⟨_, h, List.mem_singleton_self s⟩

theorem laterColumn_omitted :
    (∃ stmt, toSql { dialect := .sqlite } (laterColumn "POST") = .ok stmt ∧ Value.int 3 ∉ stmt.params) ∧
      ∃ stmt, toSql { dialect := .sqlite } (laterColumn "PUT") = .ok stmt ∧ Value.int 3 ∉ stmt.params := by
  have omitted {method : String} (bound : List Scalar) (absent : .int 3 ∉ bound)
      (sent : ((toSql { dialect := .sqlite } (laterColumn method)).toOption.map fun stmt =>
        stmt.params.flatMap Value.scalars) = some bound) :
      ∃ stmt, toSql { dialect := .sqlite } (laterColumn method) = .ok stmt ∧ Value.int 3 ∉ stmt.params := by
    obtain ⟨stmt, hstmt, params⟩ := toOption_map_eq_some.mp sent
    exact ⟨stmt, hstmt, fun h => absent (params ▸ mem_scalars h)⟩
  constructor
  · exact omitted [.int 1, .int 2, .int 4, .int 5] (by decide) (by decide)
  · exact omitted [.int 1, .int 2, .int 4, .int 5, .int 1, .int 4] (by decide) (by decide)

end Gate
end QueryGate
