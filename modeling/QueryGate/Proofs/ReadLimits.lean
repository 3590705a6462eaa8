import QueryGate.Proofs.KeptFilter

/-! Which rows a reading selects and how many of them: those of its query within the configured limits, or the one
that the path names. -/
namespace QueryGate
open Draft Outcome

namespace RowLimit

/-- The least of the limits that are given; a limit that is absent bounds nothing. -/
theorem apply_eq_min? (r : RowLimit) (asked : Option Int) :
    r.apply asked = ((asked <|> r.whenAbsent).toList ++ r.most.toList).min? := by
  unfold apply cap
  cases r.most with
  | none => cases asked <|> r.whenAbsent <;> rfl
  | some most => cases asked <|> r.whenAbsent <;> rfl

theorem apply_eq_none {r : RowLimit} {asked : Option Int} :
    r.apply asked = none ↔ (asked <|> r.whenAbsent) = none ∧ r.most = none := by
  rw [apply_eq_min?, List.min?_eq_none_iff, List.append_eq_nil_iff, Option.toList_eq_nil_iff, Option.toList_eq_nil_iff]

theorem enforce_read (r : RowLimit) (op : ReadOp) :
    r.enforce (.read op) = .read { op with limit := r.apply op.limit } := rfl

theorem enforce_unlimited (op : Operation) : ({} : RowLimit).enforce op = op := by
  cases op with
  | read op =>
    have same : ({} : RowLimit).apply op.limit = op.limit := by
      unfold apply cap
      cases op.limit <;> rfl
    rw [enforce_read, same]
  | _ => rfl

end RowLimit

def Target.namedRow? (path : String) : Option String := (pathParts path)[1]?.filter (· != wholeTable)

namespace Sql

end Sql

theorem Target.namedRow?_of_ofPath {path : String} {target : Target} (h : ofPath path = .ok target) :
    (pathParts path).head? = some target.table ∧ namedRow? path = target.id.filter (· != wholeTable) := by
  obtain ⟨rest, parts, id⟩ := ofPath_ok h
  rw [namedRow?, parts, id, List.getElem?_cons_succ, List.head?_eq_getElem? (l := rest), List.head?_cons]
  exact ⟨rfl, rfl⟩

namespace Gate

/-- The limits come last and touch nothing but an operation that is already complete. -/
theorem parse_limited (config : Config) (request : Request) :
    parse config request = config.rowLimit.enforce <$> parse { config with rowLimit := {} } request := by
  unfold parse
  simp only [map_eq_pure_bind, bind_assoc, pure_bind, RowLimit.enforce_unlimited]

theorem parse_read {config : Config} {request : Request} {op : Operation}
    (get : Method.ofText? request.method = some .get) (h : parse config request = .ok op) :
    ∃ target q, Target.ofPath request.path = .ok target ∧ validate config.validation request.query = .ok q ∧
      parse { config with rowLimit := {} } request = .ok (.read (Request.reading target q)) ∧
      op = config.rowLimit.enforce (.read (Request.reading target q)) := by
  rw [parse_limited] at h
  obtain ⟨asked, parsed, rfl⟩ := map_eq_ok.mp h
  obtain ⟨q, op, hq, hop, -, rfl⟩ := parse_ok parsed
  obtain ⟨target, method, path, hmethod, asks⟩ := Request.operation_asks hop
  obtain rfl := Option.some.inj (get.symm.trans hmethod)
  cases asks with
  | get =>
    rw [RowLimit.enforce_unlimited] at parsed ⊢
    exact ⟨target, q, path, hq, parsed, rfl⟩

theorem reading_limit (target : Target) (q : Query) :
    (Request.reading target q).limit = (target.id.filter (· != Target.wholeTable)).elim q.limit fun _ => some 1 := by
  rw [Request.reading_readOp]
  cases target.id.filter (· != Target.wholeTable) <;> rfl

end Gate
end QueryGate
