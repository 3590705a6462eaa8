import QueryGate.Proofs.Numbering
import QueryGate.Proofs.StatementShape

/-! The parameters of whole statements: which values they are, and that the marks are numbered in their order. -/
namespace QueryGate
open Draft

namespace Sql

theorem isFree_table (schema : Option String) (name : String) : IsFree (table schema name) := by
  unfold table
  split
  · exact ((isFree_name _).append (isFree_word _)).append (isFree_name _)
  · exact isFree_name _

def joinHead (schema : Option String) (j : Join) : Draft :=
  let label := match j.label.filter (!·.isEmpty) with
    | some name => .word " AS " ++ Draft.name name
    | none => .empty
  .word (j.kind.text ++ " JOIN ") ++ table schema j.table ++ label ++ .word " ON "

theorem joinClause_eq (schema : Option String) (offset : Int) (j : Join) :
    joinClause schema offset j = joinHead schema j ++ Predicate.compileList true offset j.on := rfl

theorem isFree_joinHead (schema : Option String) (j : Join) : IsFree (joinHead schema j) := by
  refine (((isFree_word _).append (isFree_table schema j.table)).append ?_).append (isFree_word _)
  split
  · exact (isFree_word _).append (isFree_name _)
  · exact ⟨rfl, rfl⟩

theorem joinClause_params (schema : Option String) (offset : Int) (j : Join) :
    (joinClause schema offset j).params = Predicate.bound true j.on := by
  rw [joinClause_eq, params_append, (isFree_joinHead schema j).2, Predicate.compileList_params, List.nil_append]

theorem joinClauses_params (schema : Option String) (offset : Int) (js : List Join) :
    (joinClauses schema offset js).flatMap (·.params) = js.flatMap fun j => Predicate.bound true j.on := by
  induction js generalizing offset with
  | nil => rfl
  | cons j rest ih => simp only [joinClauses, List.flatMap_cons, joinClause_params, ih]

theorem areNumbered_joinClauses (schema : Option String) (offset : Int) (js : List Join) :
    AreNumbered offset (joinClauses schema offset js) := by
  induction js generalizing offset with
  | nil => exact areNumbered_nil offset
  | cons j rest ih =>
    have first : (joinClause schema offset j).Numbered offset :=
      (isFree_joinHead schema j).before (Predicate.numbered_compileList true offset j.on)
    exact areNumbered_cons first (ih _)

theorem filterClause_params (keyword : String) (offset : Int) (ps : List Predicate) :
    (filterClause keyword offset ps).flatMap (·.params) = Predicate.bound false ps := by
  cases ps with
  | nil => rfl
  | cons p ps =>
    simp only [filterClause, List.isEmpty_cons, Bool.false_eq_true, if_false, List.flatMap_singleton, params_append,
      params_word, List.nil_append, Predicate.compileList_params]

theorem areNumbered_filterClause (keyword : String) (offset : Int) (ps : List Predicate) :
    AreNumbered offset (filterClause keyword offset ps) := by
  cases ps with
  | nil => exact areNumbered_nil offset
  | cons p ps => exact ((isFree_word _).before (Predicate.numbered_compileList false offset (p :: ps))).singleton

theorem isFree_listClause {keyword : String} {xs : List Draft} (h : ∀ x ∈ xs, IsFree x) :
    ∀ x ∈ listClause keyword xs, IsFree x := by
  intro x hx
  unfold listClause at hx
  split at hx
  · exact absurd hx List.not_mem_nil
  · rw [List.mem_singleton.mp hx]
    exact (isFree_word _).append (isFree_join h)

theorem isFree_countClause (keyword : String) (count : Option Int) : ∀ x ∈ countClause keyword count, IsFree x := by
  intro x hx
  cases count with
  | none => exact absurd hx List.not_mem_nil
  | some n =>
    rw [List.mem_singleton.mp hx]
    exact isFree_word _

theorem isFree_names (names : List String) : ∀ x ∈ names.map Draft.name, IsFree x := by
  intro x hx
  obtain ⟨n, -, rfl⟩ := List.mem_map.mp hx
  exact isFree_name n

theorem isFree_orders (orders : List Order) :
    ∀ x ∈ orders.map fun o => Draft.name o.field ++ .word (" " ++ o.direction.text), IsFree x := by
  intro x hx
  obtain ⟨o, -, rfl⟩ := List.mem_map.mp hx
  exact (isFree_name _).append (isFree_word _)

theorem params_of_free {xs : List Draft} (h : ∀ x ∈ xs, IsFree x) : xs.flatMap (·.params) = [] :=
  List.flatMap_eq_nil_iff.mpr fun x hx => (h x hx).2

def readValues (op : ReadOp) : List Value :=
  (op.joins.flatMap fun j => Predicate.bound true j.on) ++ Predicate.bound false op.filter ++
    Predicate.bound false op.having

def selectHead (schema : Option String) (op : ReadOp) : Draft :=
  let names := if op.fields.isEmpty then ["*"] else op.fields
  .word "SELECT " ++ commaList (names.map .name) ++ .word " FROM " ++ table schema op.table

theorem isFree_selectHead (schema : Option String) (names : List String) (tableName : String) :
    IsFree (Draft.word "SELECT " ++ commaList (names.map .name) ++ .word " FROM " ++ table schema tableName) :=
  (((isFree_word _).append (isFree_join (isFree_names names))).append (isFree_word _)).append (isFree_table schema _)

theorem select_params (schema : Option String) (op : ReadOp) : (select schema op).params = readValues op := by
  simp only [select, params_join, List.flatMap_append, List.flatMap_singleton, (isFree_selectHead schema _ _).2,
    joinClauses_params, filterClause_params, params_of_free (isFree_listClause (isFree_names _)),
    params_of_free (isFree_listClause (isFree_orders _)), params_of_free (isFree_countClause _ _), readValues,
    List.nil_append, List.append_nil]

theorem numbered_select (schema : Option String) (op : ReadOp) : (select schema op).Numbered 0 := by
  unfold select
  refine AreNumbered.join ?_ " "
  -- only joins, `WHERE` and `HAVING` have parameters, so these are what stands before a clause
  refine areNumbered_append (areNumbered_append (areNumbered_append (areNumbered_append (areNumbered_append
    (areNumbered_append (areNumbered_append ?head ?joins) ?filter) ?groups) ?having) ?orders) ?limit) ?offset
  case head => exact ((isFree_selectHead schema _ _).numbered 0).singleton
  case groups => exact areNumbered_of_free (isFree_listClause (isFree_names _)) _
  case orders => exact areNumbered_of_free (isFree_listClause (isFree_orders _)) _
  case limit => exact areNumbered_of_free (isFree_countClause _ _) _
  case offset => exact areNumbered_of_free (isFree_countClause _ _) _
  case joins =>
    rw [List.flatMap_singleton, (isFree_selectHead schema _ _).2]
    exact areNumbered_joinClauses schema 0 op.joins
  case filter =>
    rw [List.flatMap_append, List.flatMap_singleton, (isFree_selectHead schema _ _).2, List.nil_append]
    simpa only [paramCount, Int.zero_add] using areNumbered_filterClause "WHERE" _ op.filter
  case having =>
    simp only [List.flatMap_append, List.flatMap_singleton, (isFree_selectHead schema _ _).2, List.nil_append,
      params_of_free (isFree_listClause (isFree_names _)), List.append_nil, Int.zero_add]
    simpa only [paramCount, List.flatMap_append] using areNumbered_filterClause "HAVING" _ op.having

def rowValues (columns : List String) (row : Fields) : List Value := columns.map fun c => (row.value? c).getD .null

theorem markerList_params (offset : Int) (vs : List Value) : (commaList (markers offset vs)).params = vs := by
  rw [commaList, params_join, markers_params]

theorem numbered_markerList (offset : Int) (vs : List Value) : (commaList (markers offset vs)).Numbered offset :=
  (areNumbered_markers offset vs).join ", "

theorem valueTuples_params (columns : List String) (offset : Int) (rows : List Fields) :
    (valueTuples columns offset rows).flatMap (·.params) = rows.flatMap (rowValues columns) := by
  induction rows generalizing offset with
  | nil => rfl
  | cons row rest ih => simp only [valueTuples, List.flatMap_cons, params_between, markerList_params, ih, rowValues]

theorem areNumbered_valueTuples (columns : List String) (offset : Int) (rows : List Fields) :
    AreNumbered offset (valueTuples columns offset rows) := by
  induction rows generalizing offset with
  | nil => exact areNumbered_nil offset
  | cons row rest ih =>
    refine areNumbered_cons ((numbered_markerList offset _).between _ _) ?_
    rw [params_between, markerList_params, List.length_map]
    exact ih _

def createValues (op : CreateOp) : List Value :=
  match op.rows with
  | [] => []
  | first :: _ => op.rows.flatMap (rowValues first.keys)

theorem insert_marks {schema : Option String} {op : CreateOp} {x : Draft} (h : insert schema op = .ok x) :
    x.params = createValues op ∧ x.Numbered 0 := by
  obtain ⟨first, rest, rows, rfl⟩ := insert_ok h
  have head : IsFree (.word "INSERT INTO " ++ table schema op.table ++ .word " (" ++
      commaList (first.keys.map .name) ++ .word ") VALUES ") :=
    ((((isFree_word _).append (isFree_table schema _)).append (isFree_word _)).append
      (isFree_join (isFree_names _))).append (isFree_word _)
  constructor
  · rw [params_append, head.2, List.nil_append, commaList, params_join, valueTuples_params]
    simp only [createValues, rows]
  · exact head.before ((areNumbered_valueTuples _ 0 _).join ", ")

theorem assignments_params (offset : Int) (changes : Fields) :
    (assignments offset changes).flatMap (·.params) = changes.map (·.2) := by
  induction changes generalizing offset with
  | nil => rfl
  | cons change rest ih =>
    simp only [assignments, List.flatMap_cons, params_append, params_name, params_word, List.nil_append, ih,
      List.map_cons, List.singleton_append]

theorem areNumbered_assignments (offset : Int) (changes : Fields) : AreNumbered offset (assignments offset changes) := by
  induction changes generalizing offset with
  | nil => exact areNumbered_nil offset
  | cons change rest ih =>
    exact areNumbered_cons (((isFree_name _).append (isFree_word _)).before (numbered_mark offset change.2)) (ih _)

def rowFilterValues (op : UpdateOp) (row : Fields) : List Value :=
  if op.filter.isEmpty then (row.value? idField).toList else Predicate.bound false op.filter

theorem rowFilter_bound {op : UpdateOp} {row : Fields} {ps : List Predicate} (h : rowFilter op row = .ok ps) :
    Predicate.bound false ps = rowFilterValues op row := by
  unfold rowFilterValues
  obtain ⟨some, rfl⟩ | ⟨none, absent, rfl⟩ | ⟨s, none, found, rfl⟩ := rowFilter_ok h
  · rw [some, if_neg Bool.false_ne_true]
  · rw [none, if_pos rfl, absent]
    rfl
  · rw [none, if_pos rfl, found, Predicate.bound_condition, Condition.bound_equal]
    rfl

def whenValues (column : String) (rows : List Fields) : List Value :=
  rows.flatMap fun row =>
    match row.value? column with
    | none => []
    | some v => [idOf row, v]

theorem whens_params (column : String) (offset : Int) (rows : List Fields) :
    (whens column offset rows).flatMap (·.params) = whenValues column rows := by
  induction rows generalizing offset with
  | nil => rfl
  | cons row rest ih =>
    cases found : row.value? column with
    | none => simp only [whens, whenValues, List.flatMap_cons, found, ih, List.nil_append]
    | some v => simp [whens, whenValues, found, ih]

theorem areNumbered_whens (column : String) (offset : Int) (rows : List Fields) :
    AreNumbered offset (whens column offset rows) := by
  induction rows generalizing offset with
  | nil => exact areNumbered_nil offset
  | cons row rest ih =>
    cases found : row.value? column with
    | none =>
      simp only [whens, found]
      exact ih offset
    | some v =>
      simp only [whens, found]
      have id := ((((isFree_word "WHEN ").append (isFree_name idField)).append (isFree_word " = ")).before
        (numbered_mark offset (idOf row))).before_free (isFree_word " THEN ")
      -- the new value follows the id
      refine areNumbered_cons (numbered_append id ?_) (ih _)
      have value := numbered_mark (offset + 1) v
      rw [Int.add_assoc] at value
      exact value

theorem caseAssignments_params (rows : List Fields) (offset : Int) (columns : List String) :
    (caseAssignments rows offset columns).flatMap (·.params) = columns.flatMap (whenValues · rows) := by
  induction columns generalizing offset with
  | nil => rfl
  | cons column rest ih => simp [caseAssignments, whens_params, ih]

theorem areNumbered_caseAssignments (rows : List Fields) (offset : Int) (columns : List String) :
    AreNumbered offset (caseAssignments rows offset columns) := by
  induction columns generalizing offset with
  | nil => exact areNumbered_nil offset
  | cons column rest ih =>
    have choices := (areNumbered_whens column offset rows).join " "
    -- the choices begin with the numbers behind `offset`, and nothing around them has a parameter
    have first := ((((isFree_name column).append (isFree_word " = CASE ")).before choices).before_free
      (isFree_word " ELSE ")).before_free (isFree_name column) |>.before_free (isFree_word " END")
    refine areNumbered_cons first ?_
    simpa only [params_append, params_name, params_word, List.nil_append, List.append_nil] using ih _

/-- The values of an update: of one row its changes and then its filter; of several, under each column of the
first the choices of the rows, and then all ids. -/
def updateValues (op : UpdateOp) : List Value :=
  match op.rows with
  | [] => []
  | [row] => (withoutId row).map (·.2) ++ rowFilterValues op row
  | first :: _ => ((withoutId first).keys.flatMap (whenValues · op.rows)) ++ op.rows.map idOf

theorem updateHead_params (schema : Option String) (tableName : String) (xs : List Draft) :
    (updateHead schema tableName xs).params = xs.flatMap (·.params) := by
  simp only [updateHead, commaList, params_append, params_word, (isFree_table schema tableName).2, params_join,
    List.nil_append]

theorem numbered_updateHead (schema : Option String) (tableName : String) {offset : Int} {xs : List Draft}
    (h : AreNumbered offset xs) : (updateHead schema tableName xs).Numbered offset :=
  (((isFree_word _).append (isFree_table schema tableName)).append (isFree_word _)).before (h.join ", ")

theorem updateOne_marks {schema : Option String} {op : UpdateOp} {row : Fields} {x : Draft}
    (h : updateOne schema op row = .ok x) :
    x.params = (withoutId row).map (·.2) ++ rowFilterValues op row ∧ x.Numbered 0 := by
  obtain ⟨ps, filter, rfl⟩ := updateOne_ok h
  have head := numbered_updateHead schema op.table (areNumbered_assignments 0 (withoutId row))
  constructor
  · simp only [params_join, List.flatMap_cons, updateHead_params, assignments_params, filterClause_params,
      rowFilter_bound filter]
  · refine AreNumbered.join (areNumbered_cons head ?_) " "
    rw [updateHead_params, assignments_params, List.length_map, Int.zero_add]
    exact areNumbered_filterClause "WHERE" _ ps

theorem updateMany_marks {schema : Option String} {op : UpdateOp} {first : Fields} {x : Draft}
    (h : updateMany schema op first = .ok x) :
    x.params = ((withoutId first).keys.flatMap (whenValues · op.rows)) ++ op.rows.map idOf ∧ x.Numbered 0 := by
  obtain ⟨cases, rfl, rfl⟩ := updateMany_ok h
  have head := numbered_updateHead schema op.table (areNumbered_caseAssignments op.rows 0 (withoutId first).keys)
  constructor
  · simp only [params_append, params_word, params_name, params_between, updateHead_params, caseAssignments_params,
      markerList_params, List.append_nil]
  · refine numbered_append (((head.before_free (isFree_word _)).before_free (isFree_name _)).before_free
      (isFree_word _)) ?_
    simp only [params_append, params_word, params_name, updateHead_params, List.append_nil, Int.zero_add]
    exact (numbered_markerList _ _).between _ _

theorem update_marks {schema : Option String} {op : UpdateOp} {x : Draft} (h : update schema op = .ok x) :
    x.params = updateValues op ∧ x.Numbered 0 := by
  unfold updateValues
  obtain ⟨row, rows, h⟩ | ⟨first, second, rest, rows, h⟩ := update_ok h
  · rw [rows]
    exact updateOne_marks h
  · have marks := updateMany_marks h
    rw [rows] at marks ⊢
    exact marks

def isIdMatch : Predicate → Bool
  | .condition c => c.field == idField && c.operator == .equal
  | .group .. => false

def isBulk (ps : List Predicate) : Bool := decide (2 ≤ ps.length) && ps.all isIdMatch

def leafValues (ps : List Predicate) : List Scalar := (Predicate.leavesOf ps).map (·.value)

theorem isIdMatch_cases {p : Predicate} (h : isIdMatch p = true) :
    ∃ s, p = .condition ⟨idField, .equal, s⟩ := by
  cases p with
  | condition c =>
    obtain ⟨field, operator, s⟩ := c
    simp only [isIdMatch, Bool.and_eq_true, beq_iff_eq] at h
    exact ⟨s, by rw [h.1, h.2]⟩
  | group operator children negate => exact absurd h Bool.false_ne_true

theorem bound_idMatches {ps : List Predicate} (h : ps.all isIdMatch = true) :
    Predicate.bound false ps = (leafValues ps).map .scalar := by
  induction ps with
  | nil => rfl
  | cons p ps ih =>
    simp only [List.all_cons, Bool.and_eq_true] at h
    obtain ⟨s, rfl⟩ := isIdMatch_cases h.1
    rw [Predicate.bound_condition, Condition.bound_equal, ih h.2]
    rfl

def idValue? : Predicate → Option Scalar
  | .condition c => if c.field = idField ∧ c.operator = .equal then some c.value else none
  | .group .. => none

theorem idValue?_eq_none {p : Predicate} (h : isIdMatch p = false) : idValue? p = none := by
  cases p with
  | condition c =>
    simp only [isIdMatch, Bool.and_eq_false_iff, beq_eq_false_iff_ne] at h
    exact if_neg fun both => h.elim (· both.1) (· both.2)
  | group operator children negate => rfl

theorem mapM_idValue? (ps : List Predicate) :
    ps.mapM idValue? = if ps.all isIdMatch then some (leafValues ps) else none := by
  induction ps with
  | nil => rfl
  | cons p ps ih =>
    rw [List.mapM_cons, ih, List.all_cons]
    cases first : isIdMatch p with
    | true =>
      obtain ⟨s, rfl⟩ := isIdMatch_cases first
      cases ps.all isIdMatch <;> rfl
    | false =>
      rw [idValue?_eq_none first]
      rfl

theorem bulkIds?_eq (ps : List Predicate) : bulkIds? ps = if isBulk ps then some (leafValues ps) else none := by
  -- `idValue?` is the function that is mapped there
  change (if ps.length < 2 then none else ps.mapM idValue?) = _
  rw [mapM_idValue?, isBulk]
  by_cases several : 2 ≤ ps.length
  · simp only [several, decide_true, Bool.true_and, if_neg (Nat.not_lt.mpr several)]
  · simp only [several, decide_false, Bool.false_and, Bool.false_eq_true, if_false, if_pos (Nat.lt_of_not_le several)]

/-- The values of a deletion: those of its conditions, which are one list if they are ids and the dialect binds
lists. -/
def deleteValues (d : Dialect) (op : DeleteOp) : List Value :=
  let values := Predicate.bound false op.filter
  if isBulk op.filter && d.bindsLists then [.list values] else values

theorem idMatch_marks (d : Dialect) (column : String) (ids : List Value) :
    (idMatch d column ids 0).params = (if d.bindsLists then [.list ids] else ids) ∧
      (idMatch d column ids 0).Numbered 0 := by
  have name := isFree_name column
  unfold idMatch
  cases d.bindsLists with
  | true =>
    have list := ((name.append (isFree_word " = ANY(")).before (numbered_mark 0 (.list ids))).before_free (isFree_word ")")
    exact ⟨rfl, list⟩
  | false =>
    constructor
    · simp [markerList_params]
    · exact (name.append (isFree_word " IN ")).before ((numbered_markerList 0 ids).between "(" ")")

theorem delete_marks (d : Dialect) (schema : Option String) (op : DeleteOp) :
    (delete d schema op).params = deleteValues d op ∧ (delete d schema op).Numbered 0 := by
  have head : IsFree (.word "DELETE FROM " ++ table schema op.table) :=
    (isFree_word _).append (isFree_table schema op.table)
  have filtered := head.append (isFree_word " WHERE ")
  have params (x : Draft) : (Draft.word "DELETE FROM " ++ table schema op.table ++ .word " WHERE " ++ x).params =
      x.params := by rw [params_append, filtered.2, List.nil_append]
  unfold delete deleteValues
  rw [bulkIds?_eq]
  cases filter : op.filter with
  | nil => exact ⟨head.2, head.numbered 0⟩
  | cons p ps =>
    cases bulk : isBulk (p :: ps) with
    | true =>
      obtain ⟨ids, numbered⟩ := idMatch_marks d idField ((leafValues (p :: ps)).map .scalar)
      have values := bound_idMatches (Bool.and_eq_true_iff.mp bulk).2
      refine ⟨?_, filtered.before numbered⟩
      rw [Bool.true_and, values, ← ids]
      exact params _
    | false =>
      refine ⟨?_, filtered.before (Predicate.numbered_compileList false 0 (p :: ps))⟩
      rw [Bool.false_and, ← Predicate.compileList_params false 0]
      exact params _

/-- The values that the parameters of an operation's statement are to be, in their order. -/
def boundValues (d : Dialect) : Operation → List Value
  | .create op => createValues op
  | .read op => readValues op
  | .update op => updateValues op
  | .delete op => deleteValues d op

/-- The parameters of a statement are the values of its operation, and its marks are numbered from one. -/
theorem draft_marks {d : Dialect} {schema : Option String} {op : Operation} {x : Draft}
    (h : draft d schema op = .ok x) : x.params = boundValues d op ∧ x.Numbered 0 := by
  cases op with
  | create op => exact insert_marks h
  | read op =>
    obtain rfl := Except.ok.inj h
    exact ⟨select_params schema op, numbered_select schema op⟩
  | update op => exact update_marks h
  | delete op =>
    obtain rfl := Except.ok.inj h
    exact delete_marks d schema op

theorem draft_indexes {d : Dialect} {schema : Option String} {op : Operation} {x : Draft}
    (h : draft d schema op = .ok x) : x.indexes = (List.range x.params.length).map fun (i : Nat) => (i : Int) + 1 :=
  (draft_marks h).2.trans (following_zero _)

end Sql
end QueryGate
