import QueryGate.Gate
import QueryGate.Proofs.Lookup
import QueryGate.Proofs.Outcome

/-! The rows and the ids that a request names, and what the operation of a change knows of them. -/
namespace QueryGate
open Outcome

namespace Target

theorem ofPath_ok {path : String} {target : Target} (h : ofPath path = .ok target) :
    ∃ rest, pathParts path = target.table :: rest ∧ target.id = rest.head? := by
  unfold ofPath at h
  split at h
  · exact absurd h nofun
  next table parts =>
    obtain rfl := Except.ok.inj h
    exact ⟨[], parts, rfl⟩
  next table id rest parts =>
    obtain rfl := Except.ok.inj h
    exact ⟨id :: rest, parts, rfl⟩

theorem pathParts_slash (path : String) : pathParts ("/" ++ path) = pathParts path := by
  have split : ("/" ++ path).toList.splitOn '/' = [] :: path.toList.splitOn '/' := by
    rw [String.toList_append]
    exact List.splitOn_append_cons_self_of_not_mem List.not_mem_nil path.toList
  rw [pathParts, split, List.filter_cons_of_neg (by decide), pathParts]

theorem ofPath_slash (path : String) : ofPath ("/" ++ path) = ofPath path := by
  unfold ofPath
  rw [pathParts_slash]

def IsPart (part : String) : Prop := part ≠ "" ∧ '/' ∉ part.toList

instance (part : String) : Decidable (IsPart part) := inferInstanceAs (Decidable (_ ∧ _))

theorem IsPart.notEmpty {part : String} (h : IsPart part) : (!part.toList.isEmpty) = true := by
  rw [Bool.not_eq_true', List.isEmpty_eq_false_iff]
  exact fun empty => h.1 (String.toList_eq_nil_iff.mp empty)

theorem IsPart.pathParts {part : String} (h : IsPart part) : pathParts part = [part] := by
  rw [Target.pathParts, List.splitOn_eq_singleton h.2, List.filter_cons, if_pos h.notEmpty]
  exact congrArg (fun part => [part]) String.ofList_toList

theorem IsPart.pathParts_append {part : String} (h : IsPart part) (rest : String) :
    Target.pathParts (part ++ "/" ++ rest) = part :: Target.pathParts rest := by
  have split : (part ++ "/" ++ rest).toList.splitOn '/' = part.toList :: rest.toList.splitOn '/' := by
    rw [String.toList_append, String.toList_append, List.append_assoc]
    exact List.splitOn_append_cons_self_of_not_mem h.2 rest.toList
  rw [Target.pathParts, split, List.filter_cons, if_pos h.notEmpty, List.map_cons, String.ofList_toList, Target.pathParts]

theorem ofPath_table {table : String} (named : IsPart table) : ofPath ("/" ++ table) = .ok ⟨table, none⟩ := by
  rw [ofPath_slash, ofPath, named.pathParts]

theorem ofPath_row {table id : String} (named : IsPart table) (one : IsPart id) :
    ofPath ("/" ++ table ++ "/" ++ id) = .ok ⟨table, some id⟩ := by
  rw [String.append_assoc, String.append_assoc, ofPath_slash, ← String.append_assoc, ofPath, named.pathParts_append,
    one.pathParts]

end Target

namespace Request

def bodyRows? : Value → Option (List Fields)
  | .object fields => some [fields]
  | .list items => items.mapM Value.object?
  | _ => none

/-- The ids named by the second part of a path or, without one, by the rows of a body. -/
def idsNamedBy (id : Option String) (body : Value) : Option (List Value) :=
  match id with
  | some id => some [.text id]
  | none => (bodyRows? body).bind fun rows => rows.mapM (·.value? idField)

def namedIds? (request : Request) : Option (List Value) :=
  idsNamedBy (Target.pathParts request.path)[1]? request.body

theorem mapM_rowOf {items : List Value} {rows : List Fields} (h : items.mapM rowOf = .ok rows) :
    items.mapM Value.object? = some rows := by
  induction items generalizing rows with
  | nil =>
    obtain rfl := Except.ok.inj h
    rfl
  | cons item rest ih =>
    rw [List.mapM_cons] at h
    obtain ⟨fields, first, h⟩ := bind_eq_ok.mp h
    obtain ⟨others, hothers, h⟩ := bind_eq_ok.mp h
    obtain rfl := Except.ok.inj h
    cases item with
    | scalar s => exact absurd first nofun
    | list items => exact absurd first nofun
    | object found =>
      obtain rfl := Except.ok.inj first
      rw [List.mapM_cons, ih hothers]
      rfl

theorem rows_ok {body : Value} {found : List Fields} (h : rows body = .ok found) (some : found ≠ []) :
    bodyRows? body = .some found := by
  unfold rows at h
  split at h
  · exact absurd (Except.ok.inj h).symm some
  next fields =>
    cases empty : fields.isEmpty with
    | true =>
      rw [empty] at h
      exact absurd (Except.ok.inj h).symm some
    | false =>
      rw [empty] at h
      exact congrArg Option.some (Except.ok.inj h)
  · exact mapM_rowOf h
  · exact absurd h nofun

theorem rowId_ok {lack : Nat → Missing} {index : Nat} {row : Fields} {id : Scalar}
    (h : rowId lack index row = .ok id) : row.value? idField = some (.scalar id) := by
  unfold rowId at h
  split at h
  next none => exact absurd h nofun
  next found => rw [found, Except.ok.inj h]
  next found => rw [found, Except.ok.inj h]
  next found => rw [found, Except.ok.inj h]
  next found => exact absurd h nofun

theorem rowIdsFrom_ok {lack : Nat → Missing} {index : Nat} {rows : List Fields} {ids : List Scalar}
    (h : rowIdsFrom lack index rows = .ok ids) :
    rows.mapM (·.value? idField) = some (ids.map .scalar) := by
  induction rows generalizing index ids with
  | nil =>
    obtain rfl := Except.ok.inj h
    rfl
  | cons row rest ih =>
    obtain ⟨id, first, h⟩ := bind_eq_ok.mp h
    obtain ⟨others, hothers, h⟩ := bind_eq_ok.mp h
    obtain rfl := Except.ok.inj h
    rw [List.mapM_cons, rowId_ok first, ih hothers]
    rfl

theorem rowIdsFrom_ne_nil {lack : Nat → Missing} {index : Nat} {rows : List Fields} {ids : List Scalar}
    (h : rowIdsFrom lack index rows = .ok ids) (some : rows ≠ []) : ids ≠ [] := by
  cases rows with
  | nil => exact absurd rfl some
  | cons row rest =>
    obtain ⟨id, -, h⟩ := bind_eq_ok.mp h
    obtain ⟨others, -, h⟩ := bind_eq_ok.mp h
    exact Except.ok.inj h ▸ List.cons_ne_nil id others

theorem value?_of_mapM {rows : List Fields} {ids : List Value} (h : rows.mapM (·.value? idField) = some ids)
    {row : Fields} (member : row ∈ rows) : ∃ id, row.value? idField = some id := by
  have own : row.value? idField ∈ rows.map (·.value? idField) := List.mem_map_of_mem member
  rw [mapM_eq_some.mp h] at own
  obtain ⟨id, -, found⟩ := List.mem_map.mp own
  exact ⟨id, found.symm⟩

theorem creation_cases {table : String} {body : Value} {op : CreateOp} (h : creation table body = .ok op) :
    ∃ rows, bodyRows? body = some rows ∧ op = ⟨table, rows⟩ := by
  obtain ⟨rows, hrows, h⟩ := bind_eq_ok.mp h
  obtain ⟨some, h⟩ := unless_eq_ok.mp h
  rw [List.isEmpty_iff] at some
  exact ⟨rows, rows_ok hrows some, (Except.ok.inj h).symm⟩

/-- An update by ids, of which there is at least one: each row has its id, and so have the conditions if there
are any. -/
structure ById (op : UpdateOp) (ids : List Scalar) : Prop where
  nonempty : ids ≠ []
  rows : op.rows.mapM (·.value? idField) = some (ids.map .scalar)
  filter : op.filter = [] ∨ ∃ id, ids = [id] ∧ op.filter = [idEquals id]

theorem updating_cases {target : Target} {body : Value} {op : UpdateOp} (h : updating target body = .ok op) :
    (∃ id fields, target.id = some id ∧ body = .object fields ∧
      op = ⟨target.table, [Fields.set fields idField (.text id)], [idEquals (.text id)]⟩) ∨
    ∃ (rows : List Fields) (ids : List Scalar), target.id = none ∧ bodyRows? body = some rows ∧ ids ≠ [] ∧
      rows.mapM (·.value? idField) = some (ids.map .scalar) ∧ op = ⟨target.table, rows, []⟩ := by
  unfold updating at h
  split at h
  next id named =>
    split at h
    · exact .inl ⟨id, _, named, rfl, (Except.ok.inj h).symm⟩
    · exact absurd h nofun
  next unnamed =>
    obtain ⟨rows, hrows, h⟩ := bind_eq_ok.mp h
    obtain ⟨some, h⟩ := unless_eq_ok.mp h
    obtain ⟨ids, hids, h⟩ := bind_eq_ok.mp h
    rw [List.isEmpty_iff] at some
    have found := rows_ok hrows some
    exact .inr ⟨rows, ids, unnamed, found, rowIdsFrom_ne_nil hids some, rowIdsFrom_ok hids, (Except.ok.inj h).symm⟩

theorem updating_byId {target : Target} {body : Value} {op : UpdateOp} (h : updating target body = .ok op) :
    ∃ ids : List Scalar, op.table = target.table ∧ idsNamedBy target.id body = some (ids.map .scalar) ∧ ById op ids := by
  obtain ⟨id, fields, named, rfl, rfl⟩ | ⟨rows, ids, unnamed, found, some, hids, rfl⟩ := updating_cases h
  · refine ⟨[.text id], rfl, by rw [named]; rfl, List.cons_ne_nil _ _, ?_, .inr ⟨.text id, rfl, rfl⟩⟩
    rw [List.mapM_cons, Fields.value?_set]
    rfl
  · refine ⟨ids, rfl, ?_, some, hids, .inl rfl⟩
    rw [unnamed, idsNamedBy, found]
    exact hids

theorem deletion_cases {target : Target} {body : Value} {op : DeleteOp} (h : deletion target body = .ok op) :
    ∃ ids, ids ≠ [] ∧ idsNamedBy target.id body = some (ids.map .scalar) ∧
      op = ⟨target.table, ids.map idEquals⟩ := by
  unfold deletion at h
  split at h
  next id named =>
    refine ⟨[.text id], List.cons_ne_nil _ _, ?_, (Except.ok.inj h).symm⟩
    rw [named]
    rfl
  next unnamed =>
    obtain ⟨rows, hrows, h⟩ := bind_eq_ok.mp h
    obtain ⟨some, h⟩ := unless_eq_ok.mp h
    obtain ⟨ids, hids, h⟩ := bind_eq_ok.mp h
    rw [List.isEmpty_iff] at some
    refine ⟨ids, rowIdsFrom_ne_nil hids some, ?_, (Except.ok.inj h).symm⟩
    rw [unnamed, idsNamedBy, rows_ok hrows some]
    exact rowIdsFrom_ok hids

inductive Asks (target : Target) (body : Value) (q : Query) : Method → Operation → Prop
  | post {op : CreateOp} (h : creation target.table body = .ok op) : Asks target body q .post (.create op)
  | get : Asks target body q .get (.read (reading target q))
  | put {op : UpdateOp} (h : updating target body = .ok op) : Asks target body q .put (.update op)
  | delete {op : DeleteOp} (h : deletion target body = .ok op) : Asks target body q .delete (.delete op)

theorem operation_asks {request : Request} {q : Query} {op : Operation} (h : request.operation (.ok q) = .ok op) :
    ∃ target method, Target.ofPath request.path = .ok target ∧ Method.ofText? request.method = some method ∧
      Asks target request.body q method op := by
  obtain ⟨target, path, h⟩ := bind_eq_ok.mp h
  have found := mapError_eq_ok.mp path
  split at h
  case h_1 method =>
    obtain ⟨create, hcreate, rfl⟩ := map_eq_ok.mp h
    exact ⟨target, .post, found, method, .post hcreate⟩
  case h_2 method =>
    obtain rfl := Except.ok.inj h
    exact ⟨target, .get, found, method, .get⟩
  case h_3 method =>
    obtain ⟨update, hupdate, rfl⟩ := map_eq_ok.mp h
    exact ⟨target, .put, found, method, .put hupdate⟩
  case h_4 method =>
    obtain ⟨delete, hdelete, rfl⟩ := map_eq_ok.mp h
    exact ⟨target, .delete, found, method, .delete hdelete⟩
  case h_5 => exact absurd h nofun

end Request
end QueryGate
