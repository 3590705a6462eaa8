import QueryGate.Gate
import QueryGate.Proofs.RequestRows
import QueryGate.Proofs.SafeName
import QueryGate.Proofs.Wording

/-! The names and counts of the operation that a request is turned into: each of them was checked on the way. -/
namespace QueryGate
open Outcome Name

theorem validateRow_ok {index : Nat} {row fields : Fields} (h : validateRow index (.object row) = .ok fields) :
    ∀ name ∈ row.keys, isColumn name = true := by
  obtain ⟨-, h⟩ := unless_eq_ok.mp h
  split at h
  · exact absurd h nofun
  next none =>
    intro name hn
    obtain ⟨f, hf, rfl⟩ := List.mem_map.mp hn
    simpa using List.find?_eq_none.mp none f hf

theorem validateRowsFrom_ok {index : Nat} {rows results : List Fields}
    (h : validateRowsFrom index (rows.map .object) = .ok results) :
    ∀ row ∈ rows, ∀ name ∈ row.keys, isColumn name = true := by
  induction rows generalizing index results with
  | nil => exact List.forall_mem_nil _
  | cons row rest ih =>
    obtain ⟨_, first, h⟩ := bind_eq_ok.mp h
    obtain ⟨_, others, -⟩ := bind_eq_ok.mp h
    exact List.forall_mem_cons.mpr ⟨validateRow_ok first, ih others⟩

theorem keys_isSafe {rows results : List Fields} (h : validateRows (rows.map .object) = .ok results) :
    ∀ name ∈ rows.flatMap Fields.keys, IsSafe name := by
  intro name hn
  obtain ⟨row, hr, hn⟩ := List.mem_flatMap.mp hn
  exact isSafe_of_isDotted (validateRowsFrom_ok h row hr name hn)

namespace Request

theorem fields_idEquals (ids : List Scalar) : ∀ name ∈ Predicate.fields (ids.map idEquals), name = idField := by
  induction ids with
  | nil => exact List.forall_mem_nil _
  | cons id rest ih => exact List.forall_mem_cons.mpr ⟨rfl, ih⟩

theorem updating_ok {target : Target} {body : Value} {op : UpdateOp} (h : updating target body = .ok op) :
    ∀ name ∈ Predicate.fields op.filter, name = idField := by
  obtain ⟨id, fields, -, -, rfl⟩ | ⟨rows, ids, -, -, -, -, rfl⟩ := updating_cases h
  · exact fields_idEquals [.text id]
  · exact fields_idEquals []

theorem deletion_ok {target : Target} {body : Value} {op : DeleteOp} (h : deletion target body = .ok op) :
    ∀ name ∈ Predicate.fields op.filter, name = idField := by
  obtain ⟨ids, -, -, rfl⟩ := deletion_cases h
  exact fields_idEquals ids

theorem operation_ok {request : Request} {q : Query} {op : Operation} (h : request.operation (.ok q) = .ok op) :
    (∃ create, op = .create create) ∨
    (∃ target, op = .read (reading target q)) ∨
    (∃ update, op = .update update ∧ ∀ name ∈ Predicate.fields update.filter, name = idField) ∨
    ∃ delete, op = .delete delete ∧ ∀ name ∈ Predicate.fields delete.filter, name = idField := by
  obtain ⟨target, method, -, -, asks⟩ := operation_asks h
  cases asks with
  | post _ => exact .inl ⟨_, rfl⟩
  | get => exact .inr (.inl ⟨target, rfl⟩)
  | put made => exact .inr (.inr (.inl ⟨_, rfl, updating_ok made⟩))
  | delete made => exact .inr (.inr (.inr ⟨_, rfl, deletion_ok made⟩))

def selectedNames (q : Query) : List String := if (q.select.getD []).isEmpty then ["*"] else q.select.getD []

def readOp (tableName : String) (q : Query) (filter : List Predicate) (limit : Option Int) : ReadOp where
  table := tableName
  fields := selectedNames q
  filter := filter
  joins := q.joins.getD []
  groupBy := q.groupBy.getD []
  having := q.having.getD []
  orderBy := q.orderBy.getD []
  limit := limit
  offset := q.offset

theorem reading_readOp (target : Target) (q : Query) :
    reading target q = match target.id.filter (· != Target.wholeTable) with
      | some id => readOp target.table q [idEquals (.text id)] (some 1)
      | none => readOp target.table q (q.filter.getD []) q.limit := by
  unfold reading
  cases target.id.filter (· != Target.wholeTable) <;> rfl

theorem reading_eq (target : Target) (q : Query) :
    ∃ filter limit, reading target q = readOp target.table q filter limit ∧
      (filter = q.filter.getD [] ∧ limit = q.limit ∨ (∃ id, filter = [idEquals id]) ∧ limit = some 1) := by
  rw [reading_readOp]
  cases target.id.filter (· != Target.wholeTable) with
  | some id => exact ⟨_, _, rfl, .inr ⟨⟨.text id, rfl⟩, rfl⟩⟩
  | none => exact ⟨_, _, rfl, .inl ⟨rfl, rfl⟩⟩

theorem reading_limit_positive {o : ValidationOptions} {q : Query} (h : q.Allowed o) (target : Target) :
    ∀ n ∈ (reading target q).limit, 0 < n := by
  obtain ⟨filter, limit, eq, cases⟩ := reading_eq target q
  rw [eq]
  rcases cases with ⟨-, rfl⟩ | ⟨-, rfl⟩
  · exact fun n hn => h.limit n hn
  · exact fun n hn => Option.some.inj hn ▸ Int.one_pos

theorem forall_mem_getD {α : Type} {P : α → Prop} {xs : Option (List α)} (h : ∀ l ∈ xs, ∀ a ∈ l, P a) :
    ∀ a ∈ xs.getD [], P a := by
  cases xs with
  | none => exact List.forall_mem_nil _
  | some l => exact h l rfl

theorem joinNames_isSafe {o : ValidationOptions} (pattern : o.fieldPattern = .safe) {j : Join} (h : j.Allowed o) :
    ∀ name ∈ Operation.joinNames j, IsSafe name := by
  simp only [Operation.joinNames, List.forall_mem_cons, List.forall_mem_append]
  refine ⟨isSafe_of_isTable h.table, fun label hl => ?_, h.on.fields_isSafe pattern⟩
  exact isSafe_of_isTable (h.label label (Option.mem_toList.mp hl))

theorem isSafe_idField : IsSafe idField := isSafe_of_isDotted (by decide)

theorem reading_names {o : ValidationOptions} (pattern : o.fieldPattern = .safe) {q : Query} (h : q.Allowed o)
    {target : Target} (table : IsSafe (reading target q).table) :
    ∀ name ∈ (Operation.read (reading target q)).names, IsSafe name := by
  obtain ⟨filter, limit, eq, cases⟩ := reading_eq target q
  rw [eq] at table ⊢
  simp only [Operation.names, List.forall_mem_cons, List.forall_mem_append]
  refine ⟨table, ⟨⟨⟨⟨?select, ?joins⟩, ?filter⟩, ?groupBy⟩, ?having⟩, ?orderBy⟩
  case select =>
    intro name hn
    unfold readOp selectedNames at hn
    split at hn
    · exact List.mem_singleton.mp hn ▸ isSafe_star
    · exact (forall_mem_getD (fun names given => (h.select names given).2) name hn).isSafe
  case joins =>
    intro name hn
    obtain ⟨j, hj, hn⟩ := List.mem_flatMap.mp hn
    exact joinNames_isSafe pattern (forall_mem_getD h.joins j hj) name hn
  case filter =>
    rcases cases with ⟨rfl, -⟩ | ⟨⟨id, rfl⟩, -⟩
    · exact AllowedTrees.fields_isSafe pattern (forall_mem_getD h.filter)
    · exact fun name hn => fields_idEquals [id] name hn ▸ isSafe_idField
  case groupBy =>
    exact fun name hn => (forall_mem_getD (fun names given => (h.groupBy names given).2) name hn).isSafe
  case having => exact AllowedTrees.fields_isSafe pattern (forall_mem_getD h.having)
  case orderBy =>
    intro name hn
    obtain ⟨order, ho, rfl⟩ := List.mem_map.mp hn
    exact (forall_mem_getD h.orderBy order ho).isSafe pattern

end Request

theorem RowLimit.apply_positive {r : RowLimit} (whenAbsent : ∀ n ∈ r.whenAbsent, 0 < n) (most : ∀ n ∈ r.most, 0 < n)
    {asked : Option Int} (h : ∀ n ∈ asked, 0 < n) : ∀ n ∈ r.apply asked, 0 < n := by
  have filled : ∀ n ∈ asked <|> r.whenAbsent, 0 < n := by
    cases asked with
    | none => exact whenAbsent
    | some n => exact h
  intro n hn
  unfold apply cap at hn
  split at hn
  · exact filled n hn
  next m given =>
    have positive := most m given
    obtain rfl := Option.some.inj hn
    cases limit : asked <|> r.whenAbsent with
    | none => exact positive
    | some k =>
      have asked := filled k limit
      simp only [Option.elim_some]
      omega

end QueryGate
