import QueryGate.Proofs.UpdateText

/-! What an update of several rows does to each stored row of its table. -/
namespace QueryGate
open Reading Outcome

namespace Reading

theorem Part.ofText_injective {s t : List Char} (h : Part.ofText s = Part.ofText t) : s = t := by
  unfold Part.ofText at h
  split at h <;> split at h
  next star other => rw [star, other]
  · exact absurd h nofun
  · exact absurd h nofun
  · exact Part.name.inj h

theorem partsOf_injective {a b : String} (h : partsOf a = partsOf b) : a = b := by
  have parts : a.toList.splitOn '.' = b.toList.splitOn '.' :=
    List.map_injective_iff.mpr (fun _ _ => Part.ofText_injective) h
  have text := congrArg ['.'].intercalate parts
  rwa [List.intercalate_splitOn, List.intercalate_splitOn, String.toList_inj] at text

theorem Update.write_of_absent {equal : Value → Value → Bool} {u : Update} {column : Column}
    (h : u.sets.lookup column = none) (row : StoredRow) : u.write equal row column = row column := by
  rw [write, h]

theorem Update.step_of_absent {equal : Value → Value → Bool} {u : Update} {column : Column}
    (h : u.sets.lookup column = none) (row : StoredRow) : u.step equal row column = row column := by
  unfold step
  split
  · exact write_of_absent h row
  · rfl

theorem Update.run_table {equal : Value → Value → Bool} (u : Update) (db : Database) :
    u.run equal db u.table = (db u.table).map (u.step equal) := if_pos rfl

theorem Update.run_other {equal : Value → Value → Bool} {u : Update} {table : Column} (h : table ≠ u.table)
    (db : Database) : u.run equal db table = db table := if_neg h

end Reading

namespace Sql

def givenValue? (equal : Value → Value → Bool) (rows : List Fields) (id : Value) (column : String) : Option Value :=
  rows.findSome? fun row => if equal id (idOf row) then row.value? column else none

def writtenColumns (rows : List Fields) : List String := (withoutId (rows.headD [])).keys

/-- What an update of rows makes of a stored row: nothing if none of them has its id, and else the first of them
that has its id and a column gives the value of that column. -/
structure Merges (equal : Value → Value → Bool) (rows : List Fields) (old new : StoredRow) : Prop where
  apart : (∀ row ∈ rows, equal (old idColumn) (idOf row) = false) → new = old
  given : ∀ c ∈ writtenColumns rows,
    new (partsOf c) = (givenValue? equal rows (old idColumn) c).getD (old (partsOf c))
  kept : ∀ column, column ∉ (writtenColumns rows).map partsOf → new column = old column
  id : new idColumn = old idColumn

variable {equal : Value → Value → Bool}

theorem eval_choicesOf (old : StoredRow) (column : String) (rows : List Fields) (otherwise : Column) :
    (Source.choice (choicesOf column rows) otherwise).eval equal old =
      (givenValue? equal rows (old idColumn) column).getD (old otherwise) := by
  rw [Source.eval]
  congr 1
  induction rows with
  | nil => rfl
  | cons row rest ih =>
    rw [givenValue?, List.findSome?_cons, ← givenValue?, ← ih]
    cases found : row.value? column with
    | none =>
      have skipped : choicesOf column (row :: rest) = choicesOf column rest := by
        rw [choicesOf, List.filterMap_cons, found]
        rfl
      rw [skipped, ite_self]
    | some v =>
      have chosen : choicesOf column (row :: rest) = ⟨idColumn, idOf row, v⟩ :: choicesOf column rest := by
        rw [choicesOf, List.filterMap_cons, found]
        rfl
      rw [chosen, List.find?_cons]
      cases equal (old idColumn) (idOf row) <;> rfl

theorem lookup_chosen (rows : List Fields) {columns : List String} {c : String} (h : c ∈ columns) :
    (chosen rows columns).lookup (partsOf c) = some (.choice (choicesOf c rows) (partsOf c)) := by
  induction columns with
  | nil => exact absurd h List.not_mem_nil
  | cons column rest ih =>
    rw [chosen, List.map_cons, List.lookup_cons, ← chosen]
    by_cases same : c = column
    · rw [same, beq_self_eq_true]
    · have other : partsOf c ≠ partsOf column := fun e => same (partsOf_injective e)
      rw [beq_eq_false_iff_ne.mpr other]
      exact ih ((List.mem_cons.mp h).resolve_left same)

theorem lookup_eq_none {β : Type} {sets : List (Column × β)} {column : Column} (h : column ∉ sets.map (·.1)) :
    sets.lookup column = none :=
  List.lookup_eq_none_iff.mpr fun _ member => bne_iff_ne.mpr fun same => h (same ▸ List.mem_map_of_mem member)

theorem lookup_chosen_none (rows : List Fields) {columns : List String} {column : Column}
    (h : column ∉ columns.map partsOf) : (chosen rows columns).lookup column = none := by
  refine lookup_eq_none ?_
  rwa [chosen, List.map_map]

theorem ne_id_of_written {rows : List Fields} {c : String} (h : c ∈ writtenColumns rows) : c ≠ idField :=
  ne_id_of_mem h

theorem meets_updateOfRows (schema : Option String) (tableName : String) (rows : List Fields) (old : StoredRow) :
    (updateOfRows schema tableName rows).meets equal old = rows.any fun row => equal (old idColumn) (idOf row) :=
  List.any_map

theorem merges_step (schema : Option String) (tableName : String) (rows : List Fields) (old : StoredRow) :
    Merges equal rows old ((updateOfRows schema tableName rows).step equal old) := by
  have unmet (h : ∀ row ∈ rows, equal (old idColumn) (idOf row) = false) :
      (updateOfRows schema tableName rows).step equal old = old := by
    have none : (updateOfRows schema tableName rows).meets equal old = false := by
      rw [meets_updateOfRows, List.any_eq_false]
      exact fun row hrow => Bool.not_eq_true _ ▸ h row hrow
    rw [Update.step, none]
    rfl
  have absent (column : Column) (h : column ∉ (writtenColumns rows).map partsOf) :
      (updateOfRows schema tableName rows).step equal old column = old column :=
    Update.step_of_absent (lookup_chosen_none rows h) old
  refine ⟨unmet, fun c hc => ?_, absent, absent idColumn fun h => ?_⟩
  · cases met : (updateOfRows schema tableName rows).meets equal old with
    | true =>
      rw [Update.step, met, if_pos rfl, Update.write, show (updateOfRows schema tableName rows).sets.lookup _ = _ from
        lookup_chosen rows hc]
      exact eval_choicesOf old c rows (partsOf c)
    | false =>
      -- no row has the id, so none gives a value
      rw [meets_updateOfRows, List.any_eq_false] at met
      have apart : ∀ row ∈ rows, equal (old idColumn) (idOf row) = false :=
        fun row hrow => Bool.eq_false_iff.mpr (met row hrow)
      have none : givenValue? equal rows (old idColumn) c = none :=
        List.findSome?_eq_none_iff.mpr fun row hrow => by rw [apart row hrow]; rfl
      rw [unmet apart, none, Option.getD_none]
  · obtain ⟨c, hc, same⟩ := List.mem_map.mp h
    exact ne_id_of_written hc (partsOf_injective same)

theorem full_updateOfRows (schema : Option String) (tableName : String) {rows : List Fields}
    (some : writtenColumns rows ≠ []) (given : rows ≠ []) : (updateOfRows schema tableName rows).Full where
  table := tableColumn_ne_nil schema tableName
  sets := fun none => some (List.map_eq_nil_iff.mp none)
  columns := by
    intro _ member
    obtain ⟨c, -, rfl⟩ := List.mem_map.mp member
    exact partsOf_ne_nil c
  sources := by
    intro _ member
    obtain ⟨c, hc, rfl⟩ := List.mem_map.mp member
    obtain ⟨first, rest, rfl⟩ := List.exists_cons_of_ne_nil given
    have own : c ∈ first.keys := keys_withoutId (fun _ h => h) c hc
    refine ⟨choicesOf_ne_nil List.mem_cons_self own, fun choice h => ?_, partsOf_ne_nil c⟩
    obtain ⟨row, -, made⟩ := List.mem_filterMap.mp h
    obtain ⟨v, -, rfl⟩ := Option.map_eq_some_iff.mp made
    exact partsOf_ne_nil idField
  key := partsOf_ne_nil idField
  keys := fun none => given (List.map_eq_nil_iff.mp none)

theorem says_updateOfRows {d : Dialect} {schema : Option String} {tableName : String} {rows : List Fields}
    {stmt : Fragment} (several : 2 ≤ rows.length) (h : compile d schema (.update ⟨tableName, rows, []⟩) = .ok stmt) :
    Says d schema ⟨tableName, rows, []⟩ stmt (updateOfRows schema tableName rows) := by
  obtain ⟨x, hx, rfl⟩ := compile_ok h
  obtain ⟨row, alone, -⟩ | ⟨first, second, rest, found, many⟩ := update_ok hx
  · obtain rfl : rows = [row] := alone
    exact absurd several (by simp)
  · obtain rfl : rows = first :: second :: rest := found
    obtain ⟨some, -⟩ := unless_eq_ok.mp many
    rw [List.isEmpty_iff] at some
    have list : (UpdateOp.mk tableName (first :: second :: rest) []).rows = first :: second :: rest := rfl
    have written := writes_updateMany list several many
    exact says_of_writes hx written (full_updateOfRows schema tableName some (List.cons_ne_nil _ _))

end Sql
end QueryGate
