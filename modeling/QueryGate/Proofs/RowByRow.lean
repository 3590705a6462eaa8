import QueryGate.Proofs.UpdateEffect

/-! An update of several rows does the same as the updates of its rows one after the other, if no two of these have
the same id. -/
namespace QueryGate
open Reading Outcome

namespace Sql
variable {equal : Value → Value → Bool}

/-- The updates of some rows alone, one after the other, make one database of another. A row with nothing but its
id changes nothing. -/
inductive RowByRow (d : Dialect) (schema : Option String) (tableName : String) (equal : Value → Value → Bool) :
    List Fields → Database → Database → Prop
  | nil (db : Database) : RowByRow d schema tableName equal [] db db
  | bare {row : Fields} {rest : List Fields} {db db' : Database} (only : withoutId row = [])
      (h : RowByRow d schema tableName equal rest db db') : RowByRow d schema tableName equal (row :: rest) db db'
  | update {row : Fields} {rest : List Fields} {db db' : Database} {stmt : Fragment} {u : Update}
      (compiled : compile d schema (.update ⟨tableName, [row], []⟩) = .ok stmt)
      (meaning : Says d schema ⟨tableName, [row], []⟩ stmt u)
      (h : RowByRow d schema tableName equal rest (u.run equal db) db') :
      RowByRow d schema tableName equal (row :: rest) db db'

/-- Rows that can be written in any order: no stored id equals the ids of two of them, and none has columns that
the first has not. -/
structure Separate (equal : Value → Value → Bool) (rows : List Fields) : Prop where
  equality : ∀ v a b, equal v a → equal v b → equal a b
  scalars : ∀ row ∈ rows, ∃ s, row.value? idField = some (.scalar s)
  distinct : rows.Pairwise fun a b => equal (idOf a) (idOf b) = false
  columns : ∀ row ∈ rows, ∀ c ∈ (withoutId row).keys, c ∈ writtenColumns rows

theorem Says.unique {d : Dialect} {schema : Option String} {op : UpdateOp} {stmt : Fragment} {u u' : Update}
    (h : Says d schema op stmt u) (h' : Says d schema op stmt u') : u = u' := by
  obtain ⟨x, hx, -, reads⟩ := h.draft
  obtain ⟨x', hx', -, reads'⟩ := h'.draft
  obtain rfl : x = x' := Except.ok.inj (hx.symm.trans hx')
  exact Option.some.inj (reads.symm.trans reads')

section
variable (d : Dialect) (schema : Option String) (tableName : String)

def rowRun (equal : Value → Value → Bool) (db : Database) (row : Fields) : Database :=
  (updateOfRow schema tableName row (idOf row)).run equal db

def rowStep (equal : Value → Value → Bool) (old : StoredRow) (row : Fields) : StoredRow :=
  (updateOfRow schema tableName row (idOf row)).step equal old

theorem full_updateOfRow {row : Fields} (some : withoutId row ≠ []) (id : Value) :
    (updateOfRow schema tableName row id).Full where
  table := tableColumn_ne_nil schema tableName
  sets := fun none => some (List.map_eq_nil_iff.mp none)
  columns := by
    intro _ member
    obtain ⟨change, -, rfl⟩ := List.mem_map.mp member
    exact partsOf_ne_nil change.1
  sources := by
    intro _ member
    obtain ⟨change, -, rfl⟩ := List.mem_map.mp member
    trivial
  key := partsOf_ne_nil idField
  keys := List.cons_ne_nil _ _

theorem update_alone (row : Fields) :
    update schema ⟨tableName, [row], []⟩ = updateOne schema ⟨tableName, [row], []⟩ row := rfl

theorem says_updateOfRow {row : Fields} {s : Scalar} (some : withoutId row ≠ [])
    (id : row.value? idField = .some (.scalar s)) : ∃ stmt,
    compile d schema (.update ⟨tableName, [row], []⟩) = .ok stmt ∧
      Says d schema ⟨tableName, [row], []⟩ stmt (updateOfRow schema tableName row (idOf row)) := by
  have value : idOf row = .scalar s := by rw [idOf, id, Option.getD_some]
  obtain ⟨x, hx⟩ : ∃ x, updateOne schema ⟨tableName, [row], []⟩ row = .ok x := by
    have nonempty : ¬ (withoutId row).isEmpty = true := fun none => some (List.isEmpty_iff.mp none)
    have filter : rowFilter ⟨tableName, [row], []⟩ row = .ok [Request.idEquals s] := by
      rw [rowFilter, id]
      rfl
    unfold updateOne
    rw [if_neg nonempty, filter]
    exact ⟨_, rfl⟩
  have compiled : compile d schema (.update ⟨tableName, [row], []⟩) = .ok (x.render d) :=
    map_eq_ok.mpr ⟨x, hx, rfl⟩
  have unfiltered : (UpdateOp.mk tableName [row] []).filter = [] := rfl
  have written := writes_updateOne unfiltered id hx
  rw [value]
  exact ⟨x.render d, compiled, says_of_writes hx written (full_updateOfRow schema tableName some _)⟩

theorem rowRun_bare {row : Fields} (only : withoutId row = []) (db : Database) :
    rowRun schema tableName equal db row = db := by
  have step (old : StoredRow) : (updateOfRow schema tableName row (idOf row)).step equal old = old := by
    funext column
    exact Update.step_of_absent (by rw [updateOfRow, only]; rfl) old
  funext table
  by_cases own : table = tableColumn schema tableName
  · subst own
    refine (Update.run_table _ db).trans ?_
    rw [funext step, List.map_id']
    rfl
  · exact Update.run_other own db

theorem rowByRow_iff {rows : List Fields} (scalars : ∀ row ∈ rows, ∃ s, row.value? idField = some (.scalar s))
    (db db' : Database) :
    RowByRow d schema tableName equal rows db db' ↔ db' = rows.foldl (rowRun schema tableName equal) db := by
  induction rows generalizing db with
  | nil =>
    constructor
    · rintro ⟨⟩
      rfl
    · rintro rfl
      exact .nil _
  | cons row rest ih =>
    obtain ⟨⟨s, id⟩, others⟩ := List.forall_mem_cons.mp scalars
    rw [List.foldl_cons]
    by_cases only : withoutId row = []
    · rw [rowRun_bare schema tableName only, ← ih others]
      constructor
      · intro h
        cases h with
        | bare _ h => exact h
        | update compiled _ _ =>
          -- a row with nothing but its id has no statement
          obtain ⟨x, hx, -⟩ := compile_ok compiled
          have lacks : update schema ⟨tableName, [row], []⟩ = lack .updateColumns := by
            rw [update_alone]
            unfold updateOne
            rw [only]
            rfl
          exact absurd (lacks.symm.trans hx) nofun
      · exact .bare only
    · obtain ⟨stmt, compiled, meaning⟩ := says_updateOfRow d schema tableName only id
      rw [← ih others]
      constructor
      · intro h
        cases h with
        | bare none _ => exact absurd none only
        | update compiled' meaning' h =>
          obtain rfl := Except.ok.inj (compiled.symm.trans compiled')
          obtain rfl := meaning.unique meaning'
          exact h
      · exact .update compiled meaning

theorem foldl_rowRun (rows : List Fields) (db : Database) (table : Column) :
    rows.foldl (rowRun schema tableName equal) db table =
      if table = tableColumn schema tableName then
        (db table).map fun old => rows.foldl (rowStep schema tableName equal) old
      else db table := by
  induction rows generalizing db with
  | nil => simp
  | cons row rest ih =>
    rw [List.foldl_cons, ih]
    by_cases own : table = tableColumn schema tableName
    · subst own
      have first : rowRun schema tableName equal db row (tableColumn schema tableName) =
          (db (tableColumn schema tableName)).map fun old => rowStep schema tableName equal old row :=
        Update.run_table _ db
      rw [if_pos rfl, if_pos rfl, first, List.map_map]
      rfl
    · rw [if_neg own, if_neg own]
      exact Update.run_other own db

theorem rowStep_apart {old : StoredRow} {row : Fields} (apart : equal (old idColumn) (idOf row) = false) :
    rowStep schema tableName equal old row = old := by
  have unmet : (updateOfRow schema tableName row (idOf row)).meets equal old = false := by
    rw [Update.meets, List.any_eq_false]
    intro key hkey
    rw [List.mem_singleton.mp hkey]
    exact Bool.eq_false_iff.mp apart
  rw [rowStep, Update.step, unmet]
  rfl

theorem foldl_rowStep_apart {rows : List Fields} {old : StoredRow}
    (apart : ∀ row ∈ rows, equal (old idColumn) (idOf row) = false) :
    rows.foldl (rowStep schema tableName equal) old = old := by
  induction rows with
  | nil => rfl
  | cons row rest ih =>
    obtain ⟨first, others⟩ := List.forall_mem_cons.mp apart
    rw [List.foldl_cons, rowStep_apart schema tableName first, ih others]

theorem lookup_assigned (changes : Fields) (c : String) :
    (assigned changes).lookup (partsOf c) = (changes.value? c).map .value := by
  induction changes with
  | nil => rfl
  | cons change rest ih =>
    rw [assigned, List.map_cons, List.lookup_cons, ← assigned, Fields.value?, List.lookup_cons]
    by_cases same : c = change.1
    · rw [same, beq_self_eq_true, beq_self_eq_true]
      rfl
    · have other : partsOf c ≠ partsOf change.1 := fun e => same (partsOf_injective e)
      rw [beq_eq_false_iff_ne.mpr other, beq_eq_false_iff_ne.mpr same]
      exact ih

theorem value?_withoutId {row : Fields} {c : String} (column : c ≠ idField) :
    (withoutId row).value? c = row.value? c := by
  induction row with
  | nil => rfl
  | cons field rest ih =>
    rw [withoutId, List.filter_cons, ← withoutId]
    by_cases same : field.1 = idField
    · have other : c ≠ field.1 := same ▸ column
      rw [if_neg (by simpa using same), ih, Fields.value?, Fields.value?, List.lookup_cons,
        beq_eq_false_iff_ne.mpr other]
    · rw [if_pos (bne_iff_ne.mpr same), Fields.value?, List.lookup_cons, Fields.value?, List.lookup_cons]
      exact congrArg (fun v => match c == field.1 with | true => some field.2 | false => v) ih

theorem lookup_assigned_none {row : Fields} {column : Column} (h : column ∉ (withoutId row).keys.map partsOf) :
    (assigned (withoutId row)).lookup column = none := by
  have columns : (assigned (withoutId row)).map (·.1) = (withoutId row).keys.map partsOf := by
    rw [assigned, List.map_map, Fields.keys, List.map_map]
    rfl
  exact lookup_eq_none (columns ▸ h)

theorem rowStep_id (old : StoredRow) (row : Fields) :
    rowStep schema tableName equal old row idColumn = old idColumn := by
  refine Update.step_of_absent (lookup_assigned_none fun h => ?_) old
  obtain ⟨c, hc, same⟩ := List.mem_map.mp h
  exact ne_id_of_mem hc (partsOf_injective same)

theorem rowStep_value {old : StoredRow} {row : Fields} (has : equal (old idColumn) (idOf row) = true) {c : String}
    (column : c ≠ idField) :
    rowStep schema tableName equal old row (partsOf c) = (row.value? c).getD (old (partsOf c)) := by
  have met : (updateOfRow schema tableName row (idOf row)).meets equal old = true :=
    List.any_eq_true.mpr ⟨idOf row, List.mem_singleton.mpr rfl, has⟩
  have set : (updateOfRow schema tableName row (idOf row)).sets.lookup (partsOf c) = (row.value? c).map .value := by
    rw [← value?_withoutId column]
    exact lookup_assigned (withoutId row) c
  rw [rowStep, Update.step, met, if_pos rfl, Update.write, set]
  cases row.value? c <;> rfl

end

theorem Separate.alone {rows order : List Fields} (separate : Separate equal rows) (perm : order.Perm rows) {id : Value}
    {row : Fields} (member : row ∈ order) (has : equal id (idOf row) = true) :
    ∃ before after, order = before ++ row :: after ∧ ∀ other ∈ before ++ after, equal id (idOf other) = false := by
  have apart : rows.Pairwise fun a b => ¬ (equal id (idOf a) = true ∧ equal id (idOf b) = true) := by
    refine separate.distinct.imp ?_
    rintro a b different ⟨first, second⟩
    exact Bool.false_ne_true (different.symm.trans (separate.equality id (idOf a) (idOf b) first second))
  have ordered := (perm.pairwise_iff fun {_ _} h both => h both.symm).mpr apart
  obtain ⟨before, after, rfl⟩ := List.append_of_mem member
  obtain ⟨-, behind, across⟩ := List.pairwise_append.mp ordered
  refine ⟨before, after, rfl, fun other h => Bool.eq_false_iff.mpr fun hit => ?_⟩
  rcases List.mem_append.mp h with earlier | later
  · exact across other earlier row List.mem_cons_self ⟨hit, has⟩
  · exact (List.pairwise_cons.mp behind).1 other later ⟨has, hit⟩

theorem givenValue?_alone {before after : List Fields} {row : Fields} {id : Value} (has : equal id (idOf row) = true)
    (others : ∀ other ∈ before ++ after, equal id (idOf other) = false) (c : String) :
    givenValue? equal (before ++ row :: after) id c = row.value? c := by
  have silent (rows : List Fields) (h : ∀ other ∈ rows, equal id (idOf other) = false) :
      givenValue? equal rows id c = none :=
    List.findSome?_eq_none_iff.mpr fun other member => by rw [h other member]; rfl
  obtain ⟨earlier, later⟩ := List.forall_mem_append.mp others
  have front := silent before earlier
  have back := silent after later
  rw [givenValue?] at front back
  rw [givenValue?, List.findSome?_append, front, Option.none_or, List.findSome?_cons, has, if_pos rfl, back]
  cases row.value? c <;> rfl

/-- The updates of separate rows make of a stored row, in any order, what the update of all of them makes of it. -/
theorem foldl_rowStep (schema : Option String) (tableName : String) {rows order : List Fields}
    (separate : Separate equal rows) (perm : order.Perm rows) (old : StoredRow) :
    order.foldl (rowStep schema tableName equal) old = (updateOfRows schema tableName rows).step equal old := by
  have merges : Merges equal rows old _ := merges_step schema tableName rows old
  by_cases missed : ∀ row ∈ rows, equal (old idColumn) (idOf row) = false
  · rw [merges.apart missed]
    exact foldl_rowStep_apart schema tableName fun row h => missed row (perm.mem_iff.mp h)
  · push Not at missed
    obtain ⟨row, member, has⟩ := missed
    rw [Bool.ne_false_iff] at has
    obtain ⟨before, after, rfl, others⟩ := separate.alone perm (perm.mem_iff.mpr member) has
    have one : (before ++ row :: after).foldl (rowStep schema tableName equal) old =
        rowStep schema tableName equal old row := by
      obtain ⟨earlier, later⟩ := List.forall_mem_append.mp others
      -- the row keeps its id, so the rows behind miss it as they did before
      rw [← rowStep_id schema tableName old row] at later
      rw [List.foldl_append, foldl_rowStep_apart schema tableName earlier, List.foldl_cons,
        foldl_rowStep_apart schema tableName later]
    rw [one]
    funext column
    by_cases written : column ∈ (writtenColumns rows).map partsOf
    · obtain ⟨c, hc, rfl⟩ := List.mem_map.mp written
      obtain ⟨front, back, rfl, rest⟩ := separate.alone (List.Perm.refl rows) member has
      rw [merges.given c hc, givenValue?_alone has rest, rowStep_value schema tableName has (ne_id_of_written hc)]
    · rw [merges.kept column written]
      refine Update.step_of_absent (lookup_assigned_none fun h => written ?_) old
      obtain ⟨c, hc, rfl⟩ := List.mem_map.mp h
      exact List.mem_map_of_mem (separate.columns row member c hc)

theorem foldl_rowRun_eq (schema : Option String) (tableName : String) {rows order : List Fields}
    (separate : Separate equal rows) (perm : order.Perm rows) (db : Database) :
    order.foldl (rowRun schema tableName equal) db = (updateOfRows schema tableName rows).run equal db := by
  funext table
  rw [foldl_rowRun, funext (foldl_rowStep schema tableName separate perm)]
  rfl

/-- The statement of an update of several rows says an update that merges them into the stored rows of their table
and touches no other table. Of separate rows it has the same effect as the updates of each of them alone, one after
the other in any order. -/
theorem compile_mergesRows {d : Dialect} {schema : Option String} {tableName : String} {rows : List Fields}
    {stmt : Fragment} (several : 2 ≤ rows.length) (h : compile d schema (.update ⟨tableName, rows, []⟩) = .ok stmt) :
    ∃ u, Says d schema ⟨tableName, rows, []⟩ stmt u ∧ u.table = tableColumn schema tableName ∧
      ∀ (equal : Value → Value → Bool) (db : Database),
        List.Forall₂ (Merges equal rows) (db u.table) (u.run equal db u.table) ∧
        (∀ table, table ≠ u.table → u.run equal db table = db table) ∧
        (Separate equal rows → ∀ order, order.Perm rows →
          ∀ db', RowByRow d schema tableName equal order db db' ↔ db' = u.run equal db) := by
  refine ⟨updateOfRows schema tableName rows, says_updateOfRows several h, rfl, fun equal db => ⟨?_, ?_, ?_⟩⟩
  · rw [Update.run_table, List.forall₂_map_right_iff]
    exact List.forall₂_same.mpr fun old _ => merges_step schema tableName rows old
  · exact fun table other => Update.run_other other db
  · intro separate order perm db'
    have scalars : ∀ row ∈ order, ∃ s, row.value? idField = some (.scalar s) :=
      fun row member => separate.scalars row (perm.mem_iff.mp member)
    rw [rowByRow_iff d schema tableName scalars, foldl_rowRun_eq schema tableName separate perm]

def sameScalar : Value → Value → Bool
  | .scalar a, .scalar b => a == b && a != .null
  | _, _ => false

theorem sameScalar_agree (v a b : Value) (ha : sameScalar v a) (hb : sameScalar v b) : sameScalar a b := by
  unfold sameScalar at *
  split at ha
  next s t =>
    split at hb
    next s' t' same _ => simp_all
    · exact absurd hb nofun
  · exact absurd ha nofun

def notedUsers : List Fields :=
  [[("name", .text "Ann"), ("id", .int 7), ("note", .null)], [("id", .text "b"), ("note", .bool true)]]

def notedUsersText : String :=
  "UPDATE \"shop\".\"users\" SET \"name\" = CASE WHEN \"id\" = $1 THEN $2 ELSE \"name\" END, " ++
    "\"note\" = CASE WHEN \"id\" = $3 THEN $4 WHEN \"id\" = $5 THEN $6 ELSE \"note\" END " ++
    "WHERE \"id\" IN ($7, $8)"

theorem separate_notedUsers : Separate sameScalar notedUsers where
  equality := sameScalar_agree
  scalars := List.forall_mem_cons.mpr ⟨⟨.int 7, rfl⟩, List.forall_mem_singleton.mpr ⟨.text "b", rfl⟩⟩
  distinct := by decide
  columns := by decide

theorem compile_mergesRows_notedUsers : ∃ stmt u,
    compile .postgres (some "shop") (.update ⟨"users", notedUsers, []⟩) = .ok stmt ∧
      stmt.sql.toList = notedUsersText.toList ∧
      Says .postgres (some "shop") ⟨"users", notedUsers, []⟩ stmt u ∧
      ∀ db db', RowByRow .postgres (some "shop") "users" sameScalar notedUsers.reverse db db' ↔
        db' = u.run sameScalar db := by
  have sent : ((compile .postgres (some "shop") (.update ⟨"users", notedUsers, []⟩)).toOption.map
      fun stmt => stmt.sql) = some notedUsersText := by decide +kernel
  obtain ⟨stmt, hstmt, text⟩ := toOption_map_eq_some.mp sent
  obtain ⟨u, meaning, -, effect⟩ := compile_mergesRows (by decide) hstmt
  refine ⟨stmt, u, hstmt, congrArg String.toList text, meaning, fun db db' => ?_⟩
  exact (effect sameScalar db).2.2 separate_notedUsers _ notedUsers.reverse_perm db'

end Sql
end QueryGate
