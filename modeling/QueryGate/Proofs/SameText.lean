import QueryGate.Proofs.AlikeDraft

/-! The text of a statement does not depend on the values that it binds: operations that are alike have one text,
and their parameters differ only where their values do. -/
namespace QueryGate
open Draft
variable {R : Value → Value → Prop}

namespace Sql

/-- Two runs that fail with one fault or give drafts that are alike. -/
inductive SameRun (R : Value → Value → Prop) : Compiled → Compiled → Prop
  | fault (f : CompileFault) : SameRun R (.error f) (.error f)
  | draft {x y : Draft} (h : x.Alike R y) : SameRun R (.ok x) (.ok y)

theorem alike_commaList {xs ys : List Draft} (h : List.Forall₂ (Draft.Alike R) xs ys) :
    (commaList xs).Alike R (commaList ys) := alike_join h ", "

theorem paramCount_eq {xs ys : List Draft} (h : List.Forall₂ (Draft.Alike R) xs ys) :
    paramCount xs = paramCount ys := (alike_params h).length_eq

theorem alike_joinClause (schema : Option String) (offset : Int) {j j' : Join} (h : j.Alike R j') :
    (joinClause schema offset j).Alike R (joinClause schema offset j') := by
  obtain ⟨kind, tableName, label, on⟩ := j
  obtain ⟨_, _, _, on'⟩ := j'
  obtain ⟨rfl, rfl, rfl, conditions⟩ := h
  exact (isFree_joinHead schema _).alike.append (conditions.compileList offset)

theorem alike_joinClauses (schema : Option String) (offset : Int) {js js' : List Join}
    (h : List.Forall₂ (Join.Alike R) js js') :
    List.Forall₂ (Draft.Alike R) (joinClauses schema offset js) (joinClauses schema offset js') := by
  induction h generalizing offset with
  | nil => exact .nil
  | cons hj _ ih =>
    have first := alike_joinClause schema offset hj
    rw [joinClauses, joinClauses, ← first.params.length_eq]
    exact .cons first (ih _)

theorem alike_filterClause (keyword : String) (offset : Int) {ps ps' : List Predicate}
    (h : Predicate.AreAlike R false ps ps') :
    List.Forall₂ (Draft.Alike R) (filterClause keyword offset ps) (filterClause keyword offset ps') := by
  unfold filterClause
  rw [h.isEmpty]
  cases ps'.isEmpty with
  | true => exact .nil
  | false => exact .cons ((isFree_word _).alike.append (h.compileList offset)) .nil

theorem alike_select (schema : Option String) {op op' : ReadOp} (h : op.Alike R op') :
    (select schema op).Alike R (select schema op') := by
  obtain ⟨tableName, fields, filter, joins, groupBy, having, orderBy, limit, offset⟩ := op
  obtain ⟨_, _, filter', joins', _, having', _, _, _⟩ := op'
  obtain ⟨rfl, rfl, hfilter, hjoins, rfl, hhaving, rfl, rfl, rfl⟩ := h
  have clauses := alike_joinClauses schema 0 hjoins
  have wheres := alike_filterClause "WHERE" (paramCount (joinClauses schema 0 joins)) hfilter
  unfold select
  simp only
  rw [← paramCount_eq clauses]
  have havings := alike_filterClause "HAVING" (paramCount (joinClauses schema 0 joins ++
    filterClause "WHERE" (paramCount (joinClauses schema 0 joins)) filter)) hhaving
  rw [← paramCount_eq (List.rel_append clauses wheres)]
  -- only joins, `WHERE` and `HAVING` have values
  refine alike_join (List.rel_append (List.rel_append (List.rel_append (List.rel_append (List.rel_append
    (List.rel_append (List.rel_append ?head clauses) wheres) ?groups) havings) ?orders) ?limit) ?offset) " "
  case head => exact .cons (isFree_selectHead schema _ _).alike .nil
  case groups => exact alike_of_free (isFree_listClause (isFree_names _))
  case orders => exact alike_of_free (isFree_listClause (isFree_orders _))
  case limit => exact alike_of_free (isFree_countClause _ _)
  case offset => exact alike_of_free (isFree_countClause _ _)

theorem alike_valueTuples (columns : List String) (offset : Int) {rows rows' : List Fields}
    (h : List.Forall₂ (Fields.Alike R) rows rows') :
    List.Forall₂ (Draft.Alike R) (valueTuples columns offset rows) (valueTuples columns offset rows') := by
  induction h generalizing offset with
  | nil => exact .nil
  | @cons row row' rest rest' hrow _ ih =>
    have values : List.Forall₂ (ParamAlike R) (rowValues columns row) (rowValues columns row') := by
      unfold rowValues
      rw [List.forall₂_map_left_iff, List.forall₂_map_right_iff, List.forall₂_same]
      exact fun column _ => hrow.value?_getD column
    exact .cons ((alike_commaList (alike_markers offset values)).between "(" ")") (ih _)

theorem sameRun_insert (schema : Option String) {op op' : CreateOp} (h : op.Alike R op') :
    SameRun R (insert schema op) (insert schema op') := by
  obtain ⟨tableName, rows⟩ := op
  obtain ⟨_, rows'⟩ := op'
  obtain ⟨rfl, hrows⟩ := h
  cases hrows with
  | nil => exact .fault _
  | @cons first first' rest rest' hfirst hrest =>
    have tuples := alike_valueTuples first.keys 0 (.cons hfirst hrest)
    unfold insert
    simp only
    rw [← hfirst.keys]
    cases first.keys.isEmpty with
    | true => exact .fault _
    | false =>
      refine .draft (Draft.Alike.append (IsFree.alike ?_) (alike_commaList tuples))
      exact ((((isFree_word _).append (isFree_table schema _)).append (isFree_word _)).append
        (isFree_join (isFree_names _))).append (isFree_word _)

theorem alike_updateHead (schema : Option String) (tableName : String) {xs ys : List Draft}
    (h : List.Forall₂ (Draft.Alike R) xs ys) :
    (updateHead schema tableName xs).Alike R (updateHead schema tableName ys) :=
  (((isFree_word _).append (isFree_table schema tableName)).append (isFree_word _)).alike.append (alike_commaList h)

theorem alike_assignments (offset : Int) {changes changes' : Fields} (h : Fields.Alike R changes changes') :
    List.Forall₂ (Draft.Alike R) (assignments offset changes) (assignments offset changes') := by
  induction h generalizing offset with
  | nil => exact .nil
  | @cons f g rest rest' hf _ ih =>
    obtain ⟨column, v⟩ := f
    obtain ⟨_, w⟩ := g
    obtain ⟨rfl, value⟩ := hf
    have head := ((isFree_name column).append (isFree_word " = ")).alike (R := R)
    exact .cons (head.append (alike_mark (offset + 1) (.value value))) (ih _)

theorem alike_whens (column : String) (offset : Int) {rows rows' : List Fields}
    (h : List.Forall₂ (Fields.Alike R) rows rows') :
    List.Forall₂ (Draft.Alike R) (whens column offset rows) (whens column offset rows') := by
  induction h generalizing offset with
  | nil => exact .nil
  | @cons row row' rest rest' hrow _ ih =>
    have both := hrow.value? column
    unfold whens
    generalize row.value? column = found, row'.value? column = found' at both
    cases both with
    | none => exact ih offset
    | some value =>
      have head := (((isFree_word "WHEN ").append (isFree_name idField)).append (isFree_word " = ")).alike (R := R)
      have id := head.append (alike_mark (offset + 1) (hrow.value?_getD idField))
      exact .cons ((id.append (isFree_word " THEN ").alike).append (alike_mark (offset + 2) (.value value))) (ih _)

theorem alike_caseAssignments {rows rows' : List Fields} (h : List.Forall₂ (Fields.Alike R) rows rows')
    (offset : Int) (columns : List String) :
    List.Forall₂ (Draft.Alike R) (caseAssignments rows offset columns) (caseAssignments rows' offset columns) := by
  induction columns generalizing offset with
  | nil => exact .nil
  | cons column rest ih =>
    have choices := alike_join (alike_whens column offset h) " "
    have head := ((isFree_name column).append (isFree_word " = CASE ")).alike (R := R)
    have tail := (((head.append choices).append (isFree_word " ELSE ").alike).append (isFree_name column).alike).append
      (isFree_word " END").alike
    rw [caseAssignments, caseAssignments, ← choices.params.length_eq]
    exact .cons tail (ih _)

end Sql

namespace Value

def isScalar : Value → Bool
  | scalar _ => true
  | _ => false

theorem eq_scalar {v : Value} (h : v.isScalar = true) : ∃ s, v = .scalar s := by
  cases v with
  | scalar s => exact ⟨s, rfl⟩
  | list items => exact absurd h Bool.false_ne_true
  | object fields => exact absurd h Bool.false_ne_true

end Value

/-- The id that an update of one row falls back on when it has no conditions. -/
def Operation.fallbackId? : Operation → Option Value
  | .update ⟨_, [row], []⟩ => row.value? idField
  | _ => none

namespace Sql

theorem rowFilter_absent {tableName : String} {rows : List Fields} {row : Fields}
    (h : row.value? idField = none) : rowFilter ⟨tableName, rows, []⟩ row = .ok [] := by
  unfold rowFilter
  rw [h]
  rfl

theorem rowFilter_scalar {tableName : String} {rows : List Fields} {row : Fields} {s : Scalar}
    (h : row.value? idField = some (.scalar s)) :
    rowFilter ⟨tableName, rows, []⟩ row = .ok [.condition ⟨idField, .equal, s⟩] := by
  unfold rowFilter
  rw [h]
  rfl

theorem rowFilter_composite {tableName : String} {rows : List Fields} {row : Fields} {v : Value}
    (h : row.value? idField = some v) (composite : v.isScalar = false) :
    rowFilter ⟨tableName, rows, []⟩ row = .error (.malformed ⟨["value", "bool"], .notBoolean⟩) := by
  unfold rowFilter
  rw [h]
  cases v with
  | scalar s => exact absurd composite.symm Bool.false_ne_true
  | list items => rfl
  | object fields => rfl

theorem rowFilter_alike {tableName : String} {row row' : Fields} {filter filter' : List Predicate}
    (hrow : Fields.Alike R row row') (hfilter : Predicate.AreAlike R false filter filter')
    (ids : (Operation.update ⟨tableName, [row], filter⟩).fallbackId?.map Value.isScalar =
      (Operation.update ⟨tableName, [row'], filter'⟩).fallbackId?.map Value.isScalar) :
    (∃ f, rowFilter ⟨tableName, [row], filter⟩ row = .error f ∧
      rowFilter ⟨tableName, [row'], filter'⟩ row' = .error f) ∨
    ∃ ps ps', rowFilter ⟨tableName, [row], filter⟩ row = .ok ps ∧
      rowFilter ⟨tableName, [row'], filter'⟩ row' = .ok ps' ∧ Predicate.AreAlike R false ps ps' := by
  cases Predicate.areAlike_iff.mp hfilter with
  | cons => exact .inr ⟨_, _, rfl, rfl, hfilter⟩
  | nil =>
    have both := hrow.value? idField
    simp only [Operation.fallbackId?] at ids
    cases found : row.value? idField <;> cases found' : row'.value? idField <;> rw [found, found'] at both ids
    case none.none => exact .inr ⟨[], [], rowFilter_absent found, rowFilter_absent found', trivial⟩
    case none.some => exact absurd both nofun
    case some.none => exact absurd both nofun
    case some.some v w =>
      have same : v.isScalar = w.isScalar := Option.some.inj ids
      cases kind : w.isScalar with
      | true =>
        obtain ⟨s, rfl⟩ := Value.eq_scalar (same.trans kind)
        obtain ⟨t, rfl⟩ := Value.eq_scalar kind
        have value : R (.scalar s) (.scalar t) := by cases both; assumption
        have alike : Condition.Alike R false ⟨idField, .equal, s⟩ ⟨idField, .equal, t⟩ :=
          ⟨rfl, rfl, by rw [Condition.reference?_false, Condition.reference?_false], fun _ => value⟩
        exact .inr ⟨_, _, rowFilter_scalar found, rowFilter_scalar found', alike, trivial⟩
      | false => exact .inl ⟨_, rowFilter_composite found (same.trans kind), rowFilter_composite found' kind⟩

theorem sameRun_updateOne (schema : Option String) {tableName : String} {row row' : Fields}
    {filter filter' : List Predicate} (hrow : Fields.Alike R row row')
    (hfilter : Predicate.AreAlike R false filter filter')
    (ids : (Operation.update ⟨tableName, [row], filter⟩).fallbackId?.map Value.isScalar =
      (Operation.update ⟨tableName, [row'], filter'⟩).fallbackId?.map Value.isScalar) :
    SameRun R (updateOne schema ⟨tableName, [row], filter⟩ row)
      (updateOne schema ⟨tableName, [row'], filter'⟩ row') := by
  have changes := hrow.withoutId
  have head := alike_updateHead schema tableName (alike_assignments 0 changes)
  unfold updateOne
  simp only
  rw [changes.isEmpty]
  cases (withoutId row').isEmpty with
  | true => exact .fault _
  | false =>
    obtain ⟨fault, first, second⟩ | ⟨ps, ps', first, second, alike⟩ := rowFilter_alike hrow hfilter ids
    · rw [first, second]
      exact .fault _
    · rw [first, second, ← List.Forall₂.length_eq changes]
      exact .draft (alike_join (.cons head (alike_filterClause "WHERE" _ alike)) " ")

theorem sameRun_updateMany (schema : Option String) {op op' : UpdateOp} (h : op.Alike R op') {first first' : Fields}
    (hfirst : Fields.Alike R first first') : SameRun R (updateMany schema op first) (updateMany schema op' first') := by
  have cases := alike_caseAssignments h.rows 0 (withoutId first).keys
  have ids : List.Forall₂ (ParamAlike R) (op.rows.map idOf) (op'.rows.map idOf) := by
    rw [List.forall₂_map_left_iff, List.forall₂_map_right_iff]
    exact h.rows.imp fun row row' hrow => hrow.value?_getD idField
  unfold updateMany
  simp only
  rw [← hfirst.withoutId.keys, ← h.table, ← paramCount_eq cases]
  cases (withoutId first).keys.isEmpty with
  | true => exact .fault _
  | false =>
    have head := ((alike_updateHead schema op.table cases).append (isFree_word " WHERE ").alike).append
      (isFree_name idField).alike
    refine .draft ((head.append (isFree_word " IN ").alike).append ?_)
    exact (alike_commaList (alike_markers _ ids)).between "(" ")"

theorem sameRun_update (schema : Option String) {op op' : UpdateOp} (h : op.Alike R op')
    (ids : (Operation.update op).fallbackId?.map Value.isScalar = (Operation.update op').fallbackId?.map Value.isScalar) :
    SameRun R (update schema op) (update schema op') := by
  obtain ⟨tableName, rows, filter⟩ := op
  obtain ⟨_, rows', filter'⟩ := op'
  have alike := h
  obtain ⟨rfl, hrows, hfilter⟩ := h
  cases hrows with
  | nil => exact .fault _
  | @cons first first' rest rest' hfirst hrest =>
    cases hrest with
    | nil => exact sameRun_updateOne schema hfirst hfilter ids
    | cons => exact sameRun_updateMany schema alike hfirst

theorem isIdMatch_eq {p p' : Predicate} (h : p.Alike R false p') : isIdMatch p = isIdMatch p' := by
  cases p <;> cases p' <;> first
    | exact h.elim
    | rfl
    | rw [isIdMatch, isIdMatch, h.field, h.operator]

theorem isBulk_eq {ps ps' : List Predicate} (h : Predicate.AreAlike R false ps ps') : isBulk ps = isBulk ps' := by
  have each := Predicate.areAlike_iff.mp h
  have all : ps.all isIdMatch = ps'.all isIdMatch := by
    induction each with
    | nil => rfl
    | cons first rest ih => rw [List.all_cons, List.all_cons, isIdMatch_eq first, ih (Predicate.areAlike_iff.mpr rest)]
  rw [isBulk, isBulk, all, each.length_eq]

theorem alike_leafValues {ps ps' : List Predicate} (h : Predicate.AreAlike R false ps ps')
    (ids : ps.all isIdMatch = true) :
    List.Forall₂ R ((leafValues ps).map .scalar) ((leafValues ps').map .scalar) := by
  have each := Predicate.areAlike_iff.mp h
  induction each with
  | nil => exact .nil
  | @cons p p' ps ps' first rest ih =>
    simp only [List.all_cons, Bool.and_eq_true] at ids
    obtain ⟨s, rfl⟩ := isIdMatch_cases ids.1
    obtain ⟨t, rfl⟩ := isIdMatch_cases ((isIdMatch_eq first).symm.trans ids.1)
    exact .cons (first.value (Condition.reference?_false _)) (ih (Predicate.areAlike_iff.mpr rest) ids.2)

theorem alike_idMatch (d : Dialect) (column : String) {ids ids' : List Value} (h : List.Forall₂ R ids ids') :
    (idMatch d column ids 0).Alike R (idMatch d column ids' 0) := by
  unfold idMatch
  cases d.bindsLists with
  | true =>
    have head := ((isFree_name column).append (isFree_word " = ANY(")).alike (R := R)
    exact (head.append (alike_mark (0 + 1) (.list h))).append (isFree_word ")").alike
  | false =>
    have head := ((isFree_name column).append (isFree_word " IN ")).alike (R := R)
    exact head.append ((alike_commaList (alike_markers 0 (h.imp fun _ _ => .value))).between "(" ")")

theorem alike_delete (d : Dialect) (schema : Option String) {op op' : DeleteOp} (h : op.Alike R op') :
    (delete d schema op).Alike R (delete d schema op') := by
  obtain ⟨tableName, filter⟩ := op
  obtain ⟨_, filter'⟩ := op'
  obtain ⟨rfl, hfilter⟩ := h
  have head := ((isFree_word "DELETE FROM ").append (isFree_table schema tableName)).alike (R := R)
  have filtered := head.append (isFree_word " WHERE ").alike
  unfold delete
  simp only [bulkIds?_eq, ← isBulk_eq hfilter]
  cases Predicate.areAlike_iff.mp hfilter with
  | nil => exact head
  | @cons p p' ps ps' first rest =>
    cases bulk : isBulk (p :: ps) with
    | true => exact filtered.append (alike_idMatch d idField (alike_leafValues hfilter (Bool.and_eq_true_iff.mp bulk).2))
    | false => exact filtered.append (hfilter.compileList 0)

theorem sameRun_draft (d : Dialect) (schema : Option String) {op op' : Operation} (h : op.Alike R op')
    (ids : op.fallbackId?.map Value.isScalar = op'.fallbackId?.map Value.isScalar) :
    SameRun R (draft d schema op) (draft d schema op') := by
  cases op <;> cases op'
  case create.create => exact sameRun_insert schema h
  case read.read => exact .draft (alike_select schema h)
  case update.update => exact sameRun_update schema h ids
  case delete.delete => exact .draft (alike_delete d schema h)
  all_goals exact h.elim

/-- Operations that are the same but for their bound values fail with one fault or have statements of one text, which
bind the values of each operation in their order and so differ only where these do. The id that an update of one row
falls back on has to be a scalar in both or in neither. -/
theorem compile_sameText {d : Dialect} {schema : Option String} {op op' : Operation} (h : op.Alike R op')
    (ids : op.fallbackId?.map Value.isScalar = op'.fallbackId?.map Value.isScalar) :
    (∃ f, compile d schema op = .error f ∧ compile d schema op' = .error f) ∨
    ∃ stmt stmt', compile d schema op = .ok stmt ∧ compile d schema op' = .ok stmt' ∧ stmt.sql = stmt'.sql ∧
      stmt.params = boundValues d op ∧ stmt'.params = boundValues d op' ∧
      List.Forall₂ (ParamAlike R) stmt.params stmt'.params := by
  have run := sameRun_draft d schema h ids
  unfold compile
  cases first : draft d schema op <;> cases second : draft d schema op' <;> rw [first, second] at run
  case error.error f g =>
    cases run
    exact .inl ⟨f, rfl, rfl⟩
  case error.ok => exact absurd run nofun
  case ok.error => exact absurd run nofun
  case ok.ok x y =>
    cases run with
    | draft alike =>
      refine .inr ⟨_, _, rfl, rfl, ?_, (draft_marks first).1, (draft_marks second).1, alike.params⟩
      exact congrArg (renderPieces d) alike.pieces

def renamedUser (id : Value) : Operation := .update ⟨"users", [[("id", id), ("name", .text "ann")]], []⟩

theorem compile_sameText_renamedUser :
    ∃ stmt stmt', compile .postgres none (renamedUser (.int 1)) = .ok stmt ∧
      compile .postgres none (renamedUser (.text "u7")) = .ok stmt' ∧ stmt.sql = stmt'.sql ∧
      stmt.params = [.text "ann", .int 1] ∧ stmt'.params = [.text "ann", .text "u7"] ∧
      List.Forall₂ (ParamAlike fun v w => v = w ∨ v = .int 1) stmt.params stmt'.params := by
  have row : Fields.Alike (fun v w => v = w ∨ v = .int 1) [("id", .int 1), ("name", .text "ann")]
      [("id", .text "u7"), ("name", .text "ann")] := .cons ⟨rfl, .inr rfl⟩ (.cons ⟨rfl, .inl rfl⟩ .nil)
  have alike : (renamedUser (.int 1)).Alike (fun v w => v = w ∨ v = .int 1) (renamedUser (.text "u7")) :=
    ⟨rfl, .cons row .nil, trivial⟩
  obtain ⟨f, fails, -⟩ | same := @compile_sameText _ .postgres none _ _ alike rfl
  · exact absurd fails nofun
  · exact same

theorem renamedUser_composite :
    (renamedUser (.int 1)).Alike (fun _ _ => True) (renamedUser (.list [.int 1])) ∧
      (∃ stmt, compile .postgres none (renamedUser (.int 1)) = .ok stmt) ∧
      compile .postgres none (renamedUser (.list [.int 1])) =
        .error (.malformed ⟨["value", "bool"], .notBoolean⟩) := by
  refine ⟨⟨rfl, .cons (.cons ⟨rfl, trivial⟩ (.cons ⟨rfl, trivial⟩ .nil)) .nil, trivial⟩, ⟨_, rfl⟩, rfl⟩

end Sql
end QueryGate
