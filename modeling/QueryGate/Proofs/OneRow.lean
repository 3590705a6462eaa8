import QueryGate.Proofs.GateText
import QueryGate.Proofs.NamedRows
import QueryGate.Proofs.Revalidation

/-! One row that is changed or removed: it may be named by the path or by the body, alone or as a list of one. -/
namespace QueryGate
open Outcome

namespace Request

def rowUpdates (table id : String) (query : Value) (row : Fields) : List Request :=
  let whole := Value.object (row.set idField (.text id))
  [⟨"PUT", "/" ++ table ++ "/" ++ id, query, .object row⟩, ⟨"PUT", "/" ++ table, query, whole⟩,
    ⟨"PUT", "/" ++ table, query, .list [whole]⟩]

def rowDeletions (table id : String) (query : Value) : List Request :=
  let named := Value.object [(idField, .text id)]
  [⟨"DELETE", "/" ++ table ++ "/" ++ id, query, .null⟩, ⟨"DELETE", "/" ++ table, query, named⟩,
    ⟨"DELETE", "/" ++ table, query, .list [named]⟩]

def rowUpdate (table id : String) (row : Fields) (filter : List Predicate) : UpdateOp :=
  ⟨table, [row.set idField (.text id)], filter⟩

variable {table id : String} {row : Fields}

theorem rowIds_set (lack : Nat → Missing) (row : Fields) (id : String) :
    rowIds lack [row.set idField (.text id)] = .ok [.text id] := by
  simp only [rowIds, rowIdsFrom, rowId, Fields.value?_set]
  rfl

theorem rows_set (row : Fields) (id : String) :
    rows (.object (row.set idField (.text id))) = .ok [row.set idField (.text id)] := by
  cases row with
  | nil => rfl
  | cons field rest =>
    rw [Fields.set]
    split <;> rfl

theorem updating_path (given : row ≠ []) :
    updating ⟨table, some id⟩ (.object row) = .ok (rowUpdate table id row [idEquals (.text id)]) := by
  cases row with
  | nil => exact absurd rfl given
  | cons field rest => rfl

theorem updating_body {body : Value} (sent : rows body = .ok [row.set idField (.text id)]) :
    updating ⟨table, none⟩ body = .ok (rowUpdate table id row []) := by
  simp only [updating, sent]
  show (do
    let _ ← rowIds .updateId [row.set idField (.text id)]
    return _) = _
  rw [rowIds_set]
  rfl

theorem deletion_body {body : Value} (sent : rows body = .ok [[(idField, .text id)]]) :
    deletion ⟨table, none⟩ body = .ok ⟨table, [idEquals (.text id)]⟩ := by
  simp only [deletion, sent]
  rfl

theorem operation_put {path : String} {target : Target} (found : Target.ofPath path = .ok target)
    (query body : Value) (q : Query) :
    operation ⟨"PUT", path, query, body⟩ (.ok q) = .update <$> updating target body := by
  have put : Method.ofText? "PUT" = some .put := by decide
  simp only [operation, found, put]
  rfl

theorem operation_delete {path : String} {target : Target} (found : Target.ofPath path = .ok target)
    (query body : Value) (q : Query) :
    operation ⟨"DELETE", path, query, body⟩ (.ok q) = .delete <$> deletion target body := by
  have delete : Method.ofText? "DELETE" = some .delete := by decide
  simp only [operation, found, delete]
  rfl

/-- The path puts the id into the conditions as well, where the body leaves it to the row. -/
theorem operation_rowUpdates (named : Target.IsPart table) (one : Target.IsPart id) (given : row ≠ []) {query : Value}
    {request : Request} (h : request ∈ rowUpdates table id query row) :
    ∃ filter, (filter = [idEquals (.text id)] ∨ filter = []) ∧
      ∀ q, request.operation (.ok q) = .ok (.update (rowUpdate table id row filter)) := by
  simp only [rowUpdates, List.mem_cons, List.not_mem_nil, or_false] at h
  rcases h with rfl | rfl | rfl
  · refine ⟨_, .inl rfl, fun q => ?_⟩
    rw [operation_put (Target.ofPath_row named one), updating_path given]
    rfl
  · refine ⟨_, .inr rfl, fun q => ?_⟩
    rw [operation_put (Target.ofPath_table named), updating_body (rows_set row id)]
    rfl
  · refine ⟨_, .inr rfl, fun q => ?_⟩
    rw [operation_put (Target.ofPath_table named), updating_body rfl]
    rfl

theorem operation_rowDeletions (named : Target.IsPart table) (one : Target.IsPart id) {query : Value}
    {request : Request} (h : request ∈ rowDeletions table id query) (q : Query) :
    request.operation (.ok q) = .ok (.delete ⟨table, [idEquals (.text id)]⟩) := by
  simp only [rowDeletions, List.mem_cons, List.not_mem_nil, or_false] at h
  rcases h with rfl | rfl | rfl
  · rw [operation_delete (Target.ofPath_row named one)]
    rfl
  · rw [operation_delete (Target.ofPath_table named), deletion_body rfl]
    rfl
  · rw [operation_delete (Target.ofPath_table named), deletion_body rfl]
    rfl

theorem query_rowUpdates {query : Value} {request : Request} (h : request ∈ rowUpdates table id query row) :
    request.query = query := by
  simp only [rowUpdates, List.mem_cons, List.not_mem_nil, or_false] at h
  rcases h with rfl | rfl | rfl <;> rfl

theorem query_rowDeletions {query : Value} {request : Request} (h : request ∈ rowDeletions table id query) :
    request.query = query := by
  simp only [rowDeletions, List.mem_cons, List.not_mem_nil, or_false] at h
  rcases h with rfl | rfl | rfl <;> rfl

end Request

theorem Sql.update_rowUpdate (schema : Option String) (table id : String) (row : Fields) {filter : List Predicate}
    (h : filter = [Request.idEquals (.text id)] ∨ filter = []) :
    update schema (Request.rowUpdate table id row filter) =
      update schema (Request.rowUpdate table id row [Request.idEquals (.text id)]) := by
  rcases h with rfl | rfl
  · rfl
  · have own : rowFilter (Request.rowUpdate table id row []) (row.set idField (.text id)) =
        .ok [Request.idEquals (.text id)] := by
      simp only [rowFilter, Fields.value?_set]
      rfl
    show updateOne schema (Request.rowUpdate table id row []) _ = updateOne schema _ _
    simp only [updateOne, own]
    rfl

namespace Verify

def rowDeletion (d : Dialect) (names : List String) : String :=
  "DELETE FROM " ++ ".".intercalate (names.map (Identifier.escape d)) ++ " WHERE " ++
    Identifier.escape d idField ++ " = " ++ d.marker 1

/-- What is relied on of a parser: it reads the deletion of a row as one deletion, with nothing unsupported in it. -/
structure ReadsDeletions (parser : Parser) (d : Dialect) : Prop where
  reads : ∀ (schema : Option String) (table : String), (∀ s ∈ schema, Name.isTable s.toList = true) →
    Name.isTable table.toList = true → parser (rowDeletion d (schema.toList ++ [table])) = some [⟨"Delete", []⟩]

end Verify

namespace Sql

theorem text_table (d : Dialect) {schema : Option String} (valid : ∀ s ∈ schema, Name.isTable s.toList = true)
    (name : String) : (table schema name).text d =
      (".".intercalate ((schema.toList ++ [name]).map (Identifier.escape d))).toList := by
  cases schema with
  | none => simp [table, Identifier.escape]
  | some s =>
    have given : s.isEmpty = false := by
      rw [String.isEmpty_eq_false_iff]
      rintro rfl
      exact absurd (valid "" rfl) (by decide)
    simp [table, Option.filter_some, given, Identifier.escape]

theorem delete_text (d : Dialect) {schema : Option String} (valid : ∀ s ∈ schema, Name.isTable s.toList = true)
    (table : String) (id : Scalar) : ((delete d schema ⟨table, [Request.idEquals id]⟩).render d).sql =
      Verify.rowDeletion d (schema.toList ++ [table]) := by
  have deletion : delete d schema ⟨table, [Request.idEquals id]⟩ = .word "DELETE FROM " ++ Sql.table schema table ++
      .word " WHERE " ++ Predicate.compileList false 0 [Request.idEquals id] := rfl
  rw [← String.toList_inj, Draft.render_sql, deletion, compileList_idEquals false]
  simp [text_table d valid, Verify.rowDeletion, idClause, Identifier.escape]

end Sql

namespace Gate

def outcome (config : Config) (query : Value) (op : Operation) : Except Failure Fragment := do
  let _ ← (validate config.validation query).mapError .invalid
  (checkNames op).mapError .invalid
  compile config (config.rowLimit.enforce op)

theorem toSql_outcome {config : Config} {request : Request} {op : Operation}
    (h : ∀ q, request.operation (.ok q) = .ok op) : toSql config request = outcome config request.query op := by
  simp only [toSql, parse, outcome, h, bind_assoc]
  rfl

theorem outcome_rowUpdate (config : Config) (query : Value) (table id : String) (row : Fields) {filter : List Predicate}
    (h : filter = [Request.idEquals (.text id)] ∨ filter = []) :
    outcome config query (.update (Request.rowUpdate table id row filter)) =
      outcome config query (.update (Request.rowUpdate table id row [Request.idEquals (.text id)])) := by
  have same : Sql.draft config.dialect config.schema (.update (Request.rowUpdate table id row filter)) =
      Sql.draft config.dialect config.schema (.update (Request.rowUpdate table id row [Request.idEquals (.text id)])) :=
    Sql.update_rowUpdate config.schema table id row h
  have compiled : compile config (.update (Request.rowUpdate table id row filter)) =
      compile config (.update (Request.rowUpdate table id row [Request.idEquals (.text id)])) := compile_congr rfl rfl same
  unfold outcome
  show (_ >>= fun _ => _ >>= fun _ => compile config (.update (Request.rowUpdate table id row filter))) = _
  rw [compiled]
  rfl

theorem outcome_deletion {config : Config} {query : Value} {q : Query} {table : String} (id : Scalar)
    (valid : config.Valid) (reads : config.verify = true → Verify.ReadsDeletions (config.parser config.dialect) config.dialect)
    (accepted : validate config.validation query = .ok q)
    (isTable : Name.isTable table.toList = true) :
    outcome config query (.delete ⟨table, [Request.idEquals id]⟩) =
      .ok ((Sql.delete config.dialect config.schema ⟨table, [Request.idEquals id]⟩).render config.dialect) := by
  have names : checkNames (.delete ⟨table, [Request.idEquals id]⟩) = .ok () :=
    map_eq_ok.mpr ⟨table, validateTable_text "table" isTable, rfl⟩
  let deletion : DeleteOp := ⟨table, [Request.idEquals id]⟩
  have checked : check config (.delete deletion)
      ((Sql.delete config.dialect config.schema deletion).render config.dialect) = .ok () := by
    unfold check
    split
    next on =>
      have read := (reads on).reads config.schema table valid.schema isTable
      rw [← Sql.delete_text config.dialect valid.schema table id] at read
      rw [Verify.verify, read]
      rfl
    next => rfl
  have compiled : compile config (.delete ⟨table, [Request.idEquals id]⟩) = .ok _ :=
    bind_eq_ok.mpr ⟨_, rfl, bind_eq_ok.mpr ⟨(), checked, rfl⟩⟩
  refine bind_eq_ok.mpr ⟨q, mapError_eq_ok.mpr accepted, ?_⟩
  exact bind_eq_ok.mpr ⟨(), mapError_eq_ok.mpr names, compiled⟩

/-- One row is changed, and one row is removed, by the same statement whether the path names it or the body, be it
alone or a list of one; a request that is refused is refused in every form alike. -/
theorem oneRow_formsAgree (config : Config) (query : Value) {table id : String} (named : Target.IsPart table)
    (one : Target.IsPart id) :
    (∀ row : Fields, row ≠ [] → ∃ outcome, ∀ request ∈ Request.rowUpdates table id query row,
        toSql config request = outcome) ∧
      (∃ outcome, ∀ request ∈ Request.rowDeletions table id query, toSql config request = outcome) ∧
      (config.Valid → (config.verify = true → Verify.ReadsDeletions (config.parser config.dialect) config.dialect) →
        Name.isTable table.toList = true → (∃ q, validate config.validation query = .ok q) →
        ∃ stmt, ∀ request ∈ Request.rowDeletions table id query, toSql config request = .ok stmt) := by
  have deletions (request : Request) (h : request ∈ Request.rowDeletions table id query) :
      toSql config request = outcome config query (.delete ⟨table, [Request.idEquals (.text id)]⟩) := by
    rw [toSql_outcome (Request.operation_rowDeletions named one h), Request.query_rowDeletions h]
  refine ⟨fun row given => ?_, ⟨_, deletions⟩, ?_⟩
  · let byPath := Request.rowUpdate table id row [Request.idEquals (.text id)]
    refine ⟨outcome config query (.update byPath), fun request h => ?_⟩
    obtain ⟨filter, known, asks⟩ := Request.operation_rowUpdates named one given h
    rw [toSql_outcome asks, Request.query_rowUpdates h, outcome_rowUpdate config query table id row known]
  · rintro valid reads isTable ⟨q, accepted⟩
    let deletion : DeleteOp := ⟨table, [Request.idEquals (.text id)]⟩
    refine ⟨(Sql.delete config.dialect config.schema deletion).render config.dialect, fun request h => ?_⟩
    rw [deletions request h, outcome_deletion (.text id) valid reads accepted isTable]

/-- A parser that takes any text for one statement, of the kind that its first word says. -/
def firstWordParser (sql : String) : Option (List Verify.Statement) :=
  match String.ofList (sql.toList.takeWhile (· != ' ')) with
  | "INSERT" => some [⟨"Insert", []⟩]
  | "SELECT" => some [⟨"Select", []⟩]
  | "UPDATE" => some [⟨"Update", []⟩]
  | "DELETE" => some [⟨"Delete", []⟩]
  | _ => none

theorem firstWordParser_reads (d : Dialect) : Verify.ReadsDeletions firstWordParser d where
  reads schema table _ _ := by
    have word : String.ofList ((Verify.rowDeletion d (schema.toList ++ [table])).toList.takeWhile (· != ' ')) =
        "DELETE" := by
      simp only [Verify.rowDeletion, String.toList_append]
      rfl
    simp only [firstWordParser, word]

def checkingShop : Config := { shopConfig with verify := true, parser := fun _ => firstWordParser }

def changedOrder : Fields := [("note", .text "late"), ("id", .int 3)]

theorem oneRow_formsAgree_changedOrder :
    Target.IsPart "orders" ∧ Target.IsPart "b 7" ∧
      (∃ stmt, (∀ request ∈ Request.rowUpdates "orders" "b 7" .null changedOrder,
          toSql checkingShop request = .ok stmt) ∧
        stmt.sql.toList = "UPDATE `shop`.`orders` SET `note` = ? WHERE `id` = ?".toList) ∧
      ∃ stmt, (∀ request ∈ Request.rowDeletions "orders" "b 7" .null, toSql checkingShop request = .ok stmt) ∧
        stmt.sql.toList = "DELETE FROM `shop`.`orders` WHERE `id` = ?".toList := by
  have named : Target.IsPart "orders" := by decide
  have one : Target.IsPart "b 7" := by decide
  obtain ⟨updates, -, deletions⟩ := oneRow_formsAgree checkingShop .null named one
  refine ⟨named, one, ?_, ?_⟩
  · obtain ⟨outcome, same⟩ := updates changedOrder (List.cons_ne_nil _ _)
    have sent : ((toSql checkingShop ⟨"PUT", "/orders/b 7", .null, .object changedOrder⟩).toOption.map fun stmt =>
        stmt.sql) = some "UPDATE `shop`.`orders` SET `note` = ? WHERE `id` = ?" := by decide +kernel
    obtain ⟨stmt, hstmt, text⟩ := toOption_map_eq_some.mp sent
    have first : toSql checkingShop ⟨"PUT", "/orders/b 7", .null, .object changedOrder⟩ = outcome :=
      same _ List.mem_cons_self
    exact ⟨stmt, fun request h => (same request h).trans (first.symm.trans hstmt), congrArg String.toList text⟩
  · have valid : checkingShop.Valid := ⟨by decide, by decide, by decide⟩
    have reads := firstWordParser_reads checkingShop.dialect
    obtain ⟨stmt, same⟩ := deletions valid (fun _ => reads) (by decide) ⟨{}, rfl⟩
    have sent : ((toSql checkingShop ⟨"DELETE", "/orders/b 7", .null, .null⟩).toOption.map fun stmt =>
        stmt.sql) = some "DELETE FROM `shop`.`orders` WHERE `id` = ?" := by decide +kernel
    obtain ⟨found, hfound, text⟩ := toOption_map_eq_some.mp sent
    have first : toSql checkingShop ⟨"DELETE", "/orders/b 7", .null, .null⟩ = .ok stmt := same _ List.mem_cons_self
    obtain rfl := Except.ok.inj (hfound.symm.trans first)
    exact ⟨found, same, congrArg String.toList text⟩

end Gate
end QueryGate
