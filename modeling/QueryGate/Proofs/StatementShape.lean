import QueryGate.Proofs.Outcome
import QueryGate.Sql.Statement

/-! Which draft an operation has in the cases in which it has one. -/
namespace QueryGate.Sql
open Outcome

theorem insert_ok {schema : Option String} {op : CreateOp} {x : Draft} (h : insert schema op = .ok x) :
    ∃ first rest, op.rows = first :: rest ∧
      x = .word "INSERT INTO " ++ table schema op.table ++ .word " (" ++ commaList (first.keys.map .name) ++
        .word ") VALUES " ++ commaList (valueTuples first.keys 0 op.rows) := by
  unfold insert at h
  split at h
  · exact absurd h nofun
  next first rest rows =>
    obtain ⟨-, h⟩ := unless_eq_ok.mp h
    exact ⟨first, rest, rows, (Except.ok.inj h).symm⟩

theorem rowFilter_ok {op : UpdateOp} {row : Fields} {ps : List Predicate} (h : rowFilter op row = .ok ps) :
    op.filter.isEmpty = false ∧ ps = op.filter ∨
    op.filter.isEmpty = true ∧ row.value? idField = none ∧ ps = [] ∨
    ∃ s, op.filter.isEmpty = true ∧ row.value? idField = some (.scalar s) ∧ ps = [.condition ⟨idField, .equal, s⟩] := by
  unfold rowFilter at h
  cases empty : op.filter.isEmpty with
  | false =>
    rw [empty] at h
    exact .inl ⟨rfl, (Except.ok.inj h).symm⟩
  | true =>
    rw [empty] at h
    cases found : row.value? idField with
    | none =>
      rw [found] at h
      exact .inr (.inl ⟨rfl, rfl, (Except.ok.inj h).symm⟩)
    | some v =>
      rw [found] at h
      cases v with
      | scalar s => exact .inr (.inr ⟨s, rfl, rfl, (Except.ok.inj h).symm⟩)
      | list items => exact absurd h nofun
      | object fields => exact absurd h nofun

theorem updateOne_ok {schema : Option String} {op : UpdateOp} {row : Fields} {x : Draft}
    (h : updateOne schema op row = .ok x) :
    ∃ ps, rowFilter op row = .ok ps ∧
      x = .join " " (updateHead schema op.table (assignments 0 (withoutId row)) ::
        filterClause "WHERE" (withoutId row).length ps) := by
  obtain ⟨-, h⟩ := unless_eq_ok.mp h
  obtain ⟨ps, filter, h⟩ := bind_eq_ok.mp h
  exact ⟨ps, filter, (Except.ok.inj h).symm⟩

theorem updateMany_ok {schema : Option String} {op : UpdateOp} {first : Fields} {x : Draft}
    (h : updateMany schema op first = .ok x) :
    ∃ cases, cases = caseAssignments op.rows 0 (withoutId first).keys ∧
      x = updateHead schema op.table cases ++ .word " WHERE " ++ .name idField ++ .word " IN " ++
        (commaList (Draft.markers (paramCount cases) (op.rows.map idOf))).between "(" ")" := by
  obtain ⟨-, h⟩ := unless_eq_ok.mp h
  exact ⟨_, rfl, (Except.ok.inj h).symm⟩

theorem update_ok {schema : Option String} {op : UpdateOp} {x : Draft} (h : update schema op = .ok x) :
    (∃ row, op.rows = [row] ∧ updateOne schema op row = .ok x) ∨
    ∃ first second rest, op.rows = first :: second :: rest ∧ updateMany schema op first = .ok x := by
  unfold update at h
  split at h
  · exact absurd h nofun
  next row rows => exact .inl ⟨row, rows, h⟩
  next first rest several rows =>
    cases rest with
    | nil => exact absurd rfl several
    | cons second rest => exact .inr ⟨first, second, rest, rows, h⟩

theorem compile_ok {d : Dialect} {schema : Option String} {op : Operation} {stmt : Fragment}
    (h : compile d schema op = .ok stmt) : ∃ x, draft d schema op = .ok x ∧ stmt = x.render d := by
  obtain ⟨x, hx, h⟩ := map_eq_ok.mp h
  exact ⟨x, hx, h.symm⟩

theorem write_ok {d : Dialect} {schema : Option String} {op : Operation} {stmt : Fragment}
    (h : write d schema op = .ok stmt) : compile d schema op = .ok stmt := (unless_eq_ok.mp h).2

end QueryGate.Sql
