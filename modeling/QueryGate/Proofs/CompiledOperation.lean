import QueryGate.Proofs.DeclaredFailures
import QueryGate.Proofs.Revalidation

/-! Every operation that a request is turned into has a statement, but for an update without a column to write and for a
reading with a count that has no text. -/
namespace QueryGate
open Outcome

namespace Operation

/-- An update whose first row has its id and no other column. -/
def WritesNothing : Operation → Prop
  | update op => ∃ first rest, op.rows = first :: rest ∧ ∀ column ∈ first.keys, column = idField
  | _ => False

/-- An operation with a count that has no text. -/
def CountsLong (op : Operation) : Prop := ∃ n ∈ op.counts, Numeral.isLong n = true

theorem WritesNothing.countsShort {op : Operation} (h : op.WritesNothing) : ¬ op.CountsLong := by
  cases op with
  | update op => exact fun ⟨_, count, _⟩ => List.not_mem_nil count
  | _ => exact h.elim

inductive IsReady : Operation → Prop
  | create {op : CreateOp} {first : Fields} {rest : List Fields} (rows : op.rows = first :: rest)
      (columns : first ≠ []) : IsReady (.create op)
  | read (op : ReadOp) : IsReady (.read op)
  | update {op : UpdateOp} {ids : List Scalar} (named : Request.ById op ids) : IsReady (.update op)
  | delete (op : DeleteOp) : IsReady (.delete op)

end Operation

theorem validateRow_columns {index : Nat} {row fields : Fields} (h : validateRow index (.object row) = .ok fields) :
    row ≠ [] := by
  obtain ⟨some, -⟩ := unless_eq_ok.mp h
  rintro rfl
  exact some rfl

theorem Request.creation_rows {table : String} {body : Value} {op : CreateOp} (h : creation table body = .ok op) :
    op.rows ≠ [] := by
  obtain ⟨rows, -, h⟩ := bind_eq_ok.mp h
  obtain ⟨some, h⟩ := unless_eq_ok.mp h
  obtain rfl := Except.ok.inj h
  exact fun empty => some (List.isEmpty_iff.mpr empty)

theorem Gate.checkNames_columns {op : CreateOp} {first : Fields} {rest : List Fields} (rows : op.rows = first :: rest)
    (h : checkNames (.create op) = .ok ()) : first ≠ [] := by
  obtain ⟨-, -, h⟩ := bind_eq_ok.mp h
  obtain ⟨_, checked, -⟩ := map_eq_ok.mp h
  rw [rows, List.map_cons, validateRows, validateRowsFrom] at checked
  obtain ⟨fields, row, -⟩ := bind_eq_ok.mp checked
  exact validateRow_columns row

theorem Gate.parse_ready {config : Config} {request : Request} {op : Operation} (h : parse config request = .ok op) :
    op.IsReady := by
  obtain ⟨q, asked, -, hasked, checked, rfl⟩ := parse_ok h
  obtain ⟨target, method, -, -, asks⟩ := Request.operation_asks hasked
  cases asks with
  | post made =>
    obtain ⟨first, rest, rows⟩ := List.exists_cons_of_ne_nil (Request.creation_rows made)
    exact .create rows (checkNames_columns rows checked)
  | get => exact .read _
  | put made =>
    obtain ⟨ids, -, -, named⟩ := Request.updating_byId made
    exact .update named
  | delete made => exact .delete _

namespace Sql

theorem insert_total (schema : Option String) {op : CreateOp} {first : Fields} {rest : List Fields}
    (rows : op.rows = first :: rest) (columns : first ≠ []) : ∃ x, insert schema op = .ok x := by
  have keys : first.keys.isEmpty = false := by
    rw [List.isEmpty_eq_false_iff]
    exact fun empty => columns (List.map_eq_nil_iff.mp empty)
  unfold insert
  rw [rows]
  simp only [keys, Bool.false_eq_true, if_false]
  exact ⟨_, rfl⟩

theorem withoutId_isEmpty (row : Fields) : (withoutId row).isEmpty = true ↔ ∀ column ∈ row.keys, column = idField := by
  rw [List.isEmpty_iff, withoutId, List.filter_eq_nil_iff, Fields.keys, List.forall_mem_map]
  simp only [bne_iff_ne, ne_eq, Decidable.not_not]

theorem writesNothing_iff {op : UpdateOp} {first : Fields} {rest : List Fields} (rows : op.rows = first :: rest) :
    (Operation.update op).WritesNothing ↔ (withoutId first).isEmpty = true := by
  rw [withoutId_isEmpty]
  constructor
  · rintro ⟨other, others, same, only⟩
    obtain rfl : first = other := List.head_eq_of_cons_eq (rows.symm.trans same)
    exact only
  · exact fun only => ⟨first, rest, rows, only⟩

theorem update_byId_outcome (schema : Option String) {op : UpdateOp} {ids : List Scalar} (named : Request.ById op ids) :
    (Operation.update op).WritesNothing ∧ update schema op = lack .updateColumns ∨
      ¬ (Operation.update op).WritesNothing ∧ ∃ x, update schema op = .ok x := by
  unfold update
  split
  next none =>
    have missing := named.rows
    rw [none, List.mapM_nil] at missing
    exact absurd (List.map_eq_nil_iff.mp (Option.some.inj missing).symm) named.nonempty
  next row alone =>
    obtain ⟨ps, filter⟩ := rowFilter_total named alone
    rw [writesNothing_iff alone, updateOne]
    cases (withoutId row).isEmpty with
    | true => exact .inl ⟨rfl, rfl⟩
    | false =>
      rw [filter]
      exact .inr ⟨Bool.false_ne_true, _, rfl⟩
  next first rest _ rows =>
    have columns : (withoutId first).keys.isEmpty = (withoutId first).isEmpty := List.isEmpty_map
    rw [writesNothing_iff rows, updateMany, columns]
    cases (withoutId first).isEmpty with
    | true => exact .inl ⟨rfl, rfl⟩
    | false => exact .inr ⟨Bool.false_ne_true, _, rfl⟩

theorem draft_ready (d : Dialect) (schema : Option String) {op : Operation} (ready : op.IsReady) :
    op.WritesNothing ∧ draft d schema op = lack .updateColumns ∨ ¬ op.WritesNothing ∧ ∃ x, draft d schema op = .ok x := by
  cases ready with
  | create rows columns => exact .inr ⟨id, insert_total schema rows columns⟩
  | read op => exact .inr ⟨id, _, rfl⟩
  | update named => exact update_byId_outcome schema named
  | delete op => exact .inr ⟨id, _, rfl⟩

end Sql

namespace Gate

theorem compile_unchecked {config : Config} (quiet : config.verify = false) (op : Operation) :
    compile config op = (Sql.write config.dialect config.schema op).mapError ofCompileFault := by
  have passes (statement : Fragment) : check config op statement = .ok () := by
    unfold check
    rw [quiet]
    rfl
  unfold compile
  simp only [passes]
  cases Sql.write config.dialect config.schema op <;> rfl

theorem write_long {d : Dialect} {schema : Option String} {op : Operation} (h : op.CountsLong) :
    Sql.write d schema op = .error .longInteger := if_pos (List.any_eq_true.mpr h)

theorem write_short {d : Dialect} {schema : Option String} {op : Operation} (h : ¬ op.CountsLong) :
    Sql.write d schema op = (Sql.draft d schema op).map (Draft.render d) := if_neg (mt List.any_eq_true.mp h)

/-- What a request is turned into has a statement, unless it is an update whose first row has its id and no other
column, which lacks the columns to write, or a reading with a limit or an offset that has no text. -/
theorem compile_parsed {config : Config} {request : Request} {op : Operation} (quiet : config.verify = false)
    (h : parse config request = .ok op) :
    ((∃ f, compile config op = .error f) ↔ op.WritesNothing ∨ op.CountsLong) ∧
      (op.WritesNothing → compile config op = .error (.missing .updateColumns)) ∧
      (op.CountsLong → compile config op = .error .longInteger) ∧
      (¬ op.WritesNothing → ¬ op.CountsLong → ∃ stmt, compile config op = .ok stmt) := by
  rw [compile_unchecked quiet]
  by_cases long : op.CountsLong
  case pos =>
    rw [write_long long]
    refine ⟨iff_of_true ⟨_, rfl⟩ (.inr long), fun nothing => absurd long nothing.countsShort, fun _ => rfl, ?_⟩
    exact fun _ short => absurd long short
  case neg =>
    rw [write_short long]
    rcases Sql.draft_ready config.dialect config.schema (parse_ready h) with ⟨nothing, lacks⟩ | ⟨something, x, hx⟩
    · rw [lacks]
      refine ⟨iff_of_true ⟨_, rfl⟩ (.inl nothing), fun _ => rfl, fun counts => absurd counts long, ?_⟩
      exact fun something => absurd nothing something
    · rw [hx]
      refine ⟨iff_of_false ?_ (not_or.mpr ⟨something, long⟩), fun nothing => absurd nothing something,
        fun counts => absurd counts long, fun _ _ => ⟨_, rfl⟩⟩
      rintro ⟨f, fails⟩
      exact absurd fails nofun

def orderChange (rows : List Fields) : Request where
  method := "put"
  path := "/orders"
  body := .list (rows.map .object)

def bareRow : Fields := [("id", .int 7)]

def notedRow : Fields := [("id", .text "b"), ("note", .null)]

theorem compile_parsed_orderChange :
    (∃ op, parse shopConfig (orderChange [bareRow, notedRow]) = .ok op ∧ op.WritesNothing ∧
        compile shopConfig op = .error (.missing .updateColumns)) ∧
      ∃ op, parse shopConfig (orderChange [notedRow, bareRow]) = .ok op ∧ ¬ op.WritesNothing ∧
        ∃ stmt, compile shopConfig op = .ok stmt := by
  constructor
  · have parsed : parse shopConfig (orderChange [bareRow, notedRow]) =
        .ok (.update ⟨"orders", [bareRow, notedRow], []⟩) := by rfl
    have nothing : (Operation.update ⟨"orders", [bareRow, notedRow], []⟩).WritesNothing := ⟨_, _, rfl, by decide⟩
    exact ⟨_, parsed, nothing, (compile_parsed rfl parsed).2.1 nothing⟩
  · have parsed : parse shopConfig (orderChange [notedRow, bareRow]) =
        .ok (.update ⟨"orders", [notedRow, bareRow], []⟩) := by rfl
    have something : ¬ (Operation.update ⟨"orders", [notedRow, bareRow], []⟩).WritesNothing := by
      rw [Sql.writesNothing_iff rfl]
      decide
    have short : ¬ (Operation.update ⟨"orders", [notedRow, bareRow], []⟩).CountsLong :=
      fun ⟨_, count, _⟩ => List.not_mem_nil count
    exact ⟨_, parsed, something, (compile_parsed rfl parsed).2.2.2 something short⟩

def usersUpTo (n : Int) : Request where
  method := "GET"
  path := "/users"
  query := rowsUpTo n

theorem parse_usersUpTo {n : Int} (positive : 1 ≤ n) :
    parse {} (usersUpTo n) = .ok (.read { table := "users", limit := some n }) := by
  have query : validate ({} : Config).validation (usersUpTo n).query = .ok { limit := some n } :=
    validate_rowsUpTo _ positive
  have target : Target.ofPath "/users" = .ok ⟨"users", none⟩ := by rfl
  have method : Method.ofText? "GET" = some .get := by decide
  have asked : (usersUpTo n).operation (.ok { limit := some n }) = .ok (.read { table := "users", limit := some n }) := by
    rw [Request.operation, usersUpTo, target, method]
    rfl
  have isTable : Name.isTable "users".toList = true := by decide
  have named : checkNames (.read { table := "users", limit := some n }) = .ok () :=
    map_eq_ok.mpr ⟨"users", validateTable_text "table" isTable, rfl⟩
  unfold parse
  rw [query]
  refine bind_eq_ok.mpr ⟨_, rfl, bind_eq_ok.mpr ⟨_, asked, ?_⟩⟩
  rw [named]
  rfl

theorem endlessReading_notCompiled :
    ∃ op, parse {} (usersUpTo (10 ^ Numeral.maxDigits)) = .ok op ∧ ¬ op.WritesNothing ∧
      compile {} op = .error .longInteger := by
  have parsed := parse_usersUpTo (n := 10 ^ Numeral.maxDigits) (Int.pow_pos (by decide))
  have long : Operation.CountsLong (.read { table := "users", limit := some (10 ^ Numeral.maxDigits) }) :=
    ⟨_, List.mem_cons_self, Numeral.isLong_pow⟩
  exact ⟨_, parsed, id, (compile_parsed rfl parsed).2.2.1 long⟩

end Gate
end QueryGate
