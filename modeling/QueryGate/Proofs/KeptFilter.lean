import QueryGate.Proofs.BulkValues

/-! Which statements are filtered by the conditions of their operation. -/
namespace QueryGate
open Draft Outcome

def Operation.filter : Operation → List Predicate
  | create _ => []
  | read op => op.filter
  | update op => op.filter
  | delete op => op.filter

namespace Sql

/-- A statement has a `WHERE` with the compiled form of some predicates, joined by `AND`, and the values of these
stand at their place among its parameters. -/
def FiltersBy (d : Dialect) (ps : List Predicate) (stmt : Fragment) : Prop :=
  ∃ before after : Draft, stmt = (before ++ .word " WHERE " ++
      .join " AND " (Predicate.compileAll false none before.params.length ps) ++ after).render d ∧
    StandAt before.params.length (Predicate.bound false ps) stmt.params

theorem filtersBy_render (d : Dialect) (ps : List Predicate) {x before : Draft} {offset : Nat}
    (count : before.params.length = offset) (after : Draft)
    (text : x.render d = (before ++ .word " WHERE " ++ Predicate.compileList false offset ps ++ after).render d) :
    FiltersBy d ps (x.render d) := by
  subst count
  refine ⟨before, after, text, before.params, after.params, ?_, rfl⟩
  rw [text]
  show (_ ++ _ ++ Predicate.compileList false _ ps ++ after : Draft).params = _
  simp only [params_append, params_word, Predicate.compileList_params, List.append_nil]

theorem filterClause_some (offset : Int) {ps : List Predicate} (some : ps ≠ []) :
    filterClause "WHERE" offset ps = [.word "WHERE " ++ Predicate.compileList false offset ps] := by
  rw [filterClause, if_neg (by rwa [List.isEmpty_iff])]
  rfl

theorem filtersBy_join (d : Dialect) {ps : List Predicate} (some : ps ≠ []) {front : List Draft} (given : front ≠ [])
    (back : List Draft) :
    FiltersBy d ps ((join " " (front ++ filterClause "WHERE" (paramCount front) ps ++ back)).render d) := by
  rw [filterClause_some _ some, List.append_assoc, List.singleton_append]
  obtain ⟨after, split⟩ := join_split " " given (.word "WHERE " ++ Predicate.compileList false (paramCount front) ps) back
  rw [split]
  have count : (join " " front).params.length = paramCount front := rfl
  refine filtersBy_render d ps count after (render_eq ?_ ?_) <;> simp

theorem filtersBy_select (d : Dialect) (schema : Option String) {op : ReadOp} (some : op.filter ≠ []) :
    FiltersBy d op.filter ((select schema op).render d) := by
  let names := if op.fields.isEmpty then ["*"] else op.fields
  let head := Draft.word "SELECT " ++ commaList (names.map .name) ++ .word " FROM " ++ table schema op.table
  have count : paramCount (head :: joinClauses schema 0 op.joins) = paramCount (joinClauses schema 0 op.joins) := by
    rw [paramCount, List.flatMap_cons, (isFree_selectHead schema names op.table).2, List.nil_append]
    rfl
  have kept := filtersBy_join d some (List.cons_ne_nil head (joinClauses schema 0 op.joins))
  rw [count] at kept
  unfold select
  simp only [List.append_assoc] at kept ⊢
  exact kept _

theorem filtersBy_updateOne {d : Dialect} {schema : Option String} {op : UpdateOp} {row : Fields} {x : Draft}
    (some : op.filter ≠ []) (h : updateOne schema op row = .ok x) : FiltersBy d op.filter (x.render d) := by
  obtain ⟨ps, filter, rfl⟩ := updateOne_ok h
  obtain rfl : ps = op.filter := by
    rcases rowFilter_ok filter with ⟨-, own⟩ | ⟨none, -⟩ | ⟨_, none, -⟩
    · exact own
    · exact absurd (List.isEmpty_iff.mp none) some
    · exact absurd (List.isEmpty_iff.mp none) some
  have count : paramCount [updateHead schema op.table (assignments 0 (withoutId row))] = (withoutId row).length := by
    rw [paramCount, List.flatMap_singleton, updateHead_params, assignments_params, List.length_map]
  have kept := filtersBy_join d some (List.cons_ne_nil (updateHead schema op.table (assignments 0 (withoutId row))) []) []
  rwa [count, List.append_nil, List.singleton_append] at kept

theorem filtersBy_delete (d : Dialect) (schema : Option String) {op : DeleteOp} (some : op.filter ≠ [])
    (single : isBulk op.filter = false) : FiltersBy d op.filter ((delete d schema op).render d) := by
  have head : IsFree (.word "DELETE FROM " ++ table schema op.table) :=
    (isFree_word _).append (isFree_table schema op.table)
  obtain ⟨p, ps, filter⟩ := List.exists_cons_of_ne_nil some
  have statement : delete d schema op =
      .word "DELETE FROM " ++ table schema op.table ++ .word " WHERE " ++ Predicate.compileList false 0 op.filter := by
    unfold delete
    rw [bulkIds?_eq, single, filter]
    rfl
  rw [statement]
  have none : (.word "DELETE FROM " ++ table schema op.table : Draft).params.length = 0 := by rw [head.2, List.length_nil]
  refine filtersBy_render d op.filter none .empty (render_eq ?_ ?_)
  · simp [Draft.text]
  · simp

theorem update_unfiltered (schema : Option String) {op : UpdateOp} (several : 2 ≤ op.rows.length)
    (filter : List Predicate) : update schema { op with filter := filter } = update schema op := by
  obtain ⟨tableName, rows, own⟩ := op
  match rows with
  | [] => rfl
  | [row] => exact absurd several (by simp)
  | first :: second :: rest => rfl

/-- The statement of an operation with conditions is filtered by them, unless it deletes several rows by their ids
or updates several rows; conditions make no difference to an update of several rows. -/
theorem compile_keepsFilter {d : Dialect} {schema : Option String} {op : Operation} {stmt : Fragment}
    (h : compile d schema op = .ok stmt) (some : op.filter ≠ []) :
    match op with
    | .create _ => False
    | .read _ => FiltersBy d op.filter stmt
    | .update change =>
      if change.rows.length < 2 then FiltersBy d op.filter stmt
      else ∀ filter, compile d schema (.update { change with filter := filter }) = .ok stmt
    | .delete _ => isBulk op.filter = false → FiltersBy d op.filter stmt := by
  obtain ⟨x, hx, rfl⟩ := compile_ok h
  cases op with
  | create op => exact some rfl
  | read op =>
    obtain rfl := Except.ok.inj hx
    exact filtersBy_select d schema some
  | update op =>
    obtain ⟨row, alone, one⟩ | ⟨first, second, rest, rows, -⟩ := update_ok hx
    · have single : op.rows.length < 2 := by simp [alone]
      simp only [single, if_true]
      exact filtersBy_updateOne some one
    · have several : 2 ≤ op.rows.length := by simp [rows]
      simp only [Nat.not_lt.mpr several, if_false]
      intro filter
      exact map_eq_ok.mpr ⟨x, (update_unfiltered schema several filter).trans hx, rfl⟩
  | delete op =>
    obtain rfl := Except.ok.inj hx
    exact filtersBy_delete d schema some

def tenantUsers : ReadOp where
  table := "users"
  joins := [⟨.left, "orders", some "o", [.condition ⟨"o.year", .atLeast, .int 2024⟩]⟩]
  filter :=
    [.condition ⟨"tenant", .equal, .int 5⟩,
      .group .disj [.condition ⟨"o.id", .isNotNull, .null⟩, .condition ⟨"email", .equal, .text ""⟩] false]

theorem compile_keepsFilter_tenantUsers :
    ∃ stmt, compile .postgres none (.read tenantUsers) = .ok stmt ∧ FiltersBy .postgres tenantUsers.filter stmt := by
  have given : (Operation.read tenantUsers).filter ≠ [] := List.cons_ne_nil _ _
  exact ⟨_, rfl, compile_keepsFilter rfl given⟩

def tenantChanges : UpdateOp where
  table := "users"
  rows := [[("id", .int 1), ("a", .int 2)], [("id", .int 3), ("a", .int 4)]]
  filter := [.condition ⟨"tenant", .equal, .int 5⟩]

def tenantChangesText : String :=
  "UPDATE \"users\" SET \"a\" = CASE WHEN \"id\" = ? THEN ? WHEN \"id\" = ? THEN ? ELSE \"a\" END " ++
    "WHERE \"id\" IN (?, ?)"

theorem tenantChanges_unfiltered :
    ∃ stmt, compile .sqlite none (.update tenantChanges) = .ok stmt ∧ stmt.sql.toList = tenantChangesText.toList ∧
      tenantChanges.filter ≠ [] ∧ ¬ FiltersBy .sqlite tenantChanges.filter stmt := by
  have sent : ((compile .sqlite none (.update tenantChanges)).toOption.map fun stmt => stmt.sql) =
      some tenantChangesText := by decide
  obtain ⟨stmt, hstmt, text⟩ := toOption_map_eq_some.mp sent
  refine ⟨stmt, hstmt, congrArg String.toList text, List.cons_ne_nil _ _, ?_⟩
  rintro ⟨_, _, -, before, after, params, -⟩
  have tenant : Value.int 5 ∈ stmt.params := by
    rw [params]
    exact List.mem_append_left _ (List.mem_append_right _ List.mem_cons_self)
  have values : stmt.params = [.int 1, .int 2, .int 3, .int 4, .int 1, .int 3] := by
    obtain ⟨x, hx, rfl⟩ := compile_ok hstmt
    exact (draft_marks hx).1
  rw [values] at tenant
  simp at tenant

end Sql
end QueryGate
