import QueryGate.Proofs.QuotedText
import QueryGate.Proofs.RequestNames
import QueryGate.Proofs.StatementMarks
import QueryGate.Proofs.StatementWording
import QueryGate.Proofs.ValidConfig

/-! What a request sends stands in its statement between quotes only: all names were checked, and values are
parameters. -/
namespace QueryGate
open Outcome Name

namespace Gate

theorem checkNames_ok {op : Operation} (h : checkNames op = .ok ()) :
    IsSafe op.table ∧
      match op with
      | .create create => ∀ name ∈ create.rows.flatMap Fields.keys, IsSafe name
      | .update update => ∀ name ∈ update.rows.flatMap Fields.keys, IsSafe name
      | _ => True := by
  obtain ⟨name, table, h⟩ := bind_eq_ok.mp h
  obtain ⟨same, isTable⟩ := validateTable_ok table
  obtain rfl : op.table = name := by simpa using same
  refine ⟨isSafe_of_isTable isTable, ?_⟩
  cases op with
  | create create =>
    obtain ⟨rows, hrows, -⟩ := map_eq_ok.mp h
    exact keys_isSafe hrows
  | update update =>
    obtain ⟨rows, hrows, -⟩ := map_eq_ok.mp h
    exact keys_isSafe hrows
  | read read => trivial
  | delete delete => trivial

theorem parse_ok {config : Config} {request : Request} {op : Operation} (h : parse config request = .ok op) :
    ∃ q asked, validate config.validation request.query = .ok q ∧ request.operation (.ok q) = .ok asked ∧
      checkNames asked = .ok () ∧ op = config.rowLimit.enforce asked := by
  obtain ⟨q, hq, h⟩ := bind_eq_ok.mp h
  obtain ⟨asked, hasked, h⟩ := bind_eq_ok.mp h
  obtain ⟨_, checked, h⟩ := bind_eq_ok.mp h
  exact ⟨q, asked, mapError_eq_ok.mp hq, hasked, mapError_eq_ok.mp checked, (Except.ok.inj h).symm⟩

theorem parse_names {config : Config} {request : Request} {op : Operation}
    (pattern : config.validation.fieldPattern = .safe) (h : parse config request = .ok op) :
    ∀ name ∈ op.names, IsSafe name := by
  obtain ⟨q, asked, hq, hasked, checked, rfl⟩ := parse_ok h
  obtain ⟨table, rows⟩ := checkNames_ok checked
  rcases Request.operation_ok hasked with ⟨create, rfl⟩ | ⟨target, rfl⟩ | ⟨update, rfl, ids⟩ | ⟨delete, rfl, ids⟩
  · exact List.forall_mem_cons.mpr ⟨table, rows⟩
  · obtain ⟨fields, read⟩ := exists_readFrom hq
    exact Request.reading_names pattern read.allowed table
  · refine List.forall_mem_cons.mpr ⟨table, List.forall_mem_append.mpr ⟨rows, fun name hn => ?_⟩⟩
    exact ids name hn ▸ Request.isSafe_idField
  · exact List.forall_mem_cons.mpr ⟨table, fun name hn => ids name hn ▸ Request.isSafe_idField⟩

theorem parse_counts {config : Config} {request : Request} {op : Operation} (valid : config.Valid)
    (h : parse config request = .ok op) : ∀ n ∈ op.counts, 0 ≤ n := by
  obtain ⟨q, asked, hq, hasked, -, rfl⟩ := parse_ok h
  rcases Request.operation_ok hasked with ⟨create, rfl⟩ | ⟨target, rfl⟩ | ⟨update, rfl, -⟩ | ⟨delete, rfl, -⟩
  · exact List.forall_mem_nil _
  · obtain ⟨fields, read⟩ := exists_readFrom hq
    have positive := Request.reading_limit_positive read.allowed target
    refine List.forall_mem_append.mpr ⟨fun n hn => ?_, fun n hn => ?_⟩
    · have kept := RowLimit.apply_positive valid.whenAbsent valid.most positive n (Option.mem_toList.mp hn)
      omega
    · obtain ⟨filter, limit, eq, -⟩ := Request.reading_eq target q
      rw [eq] at hn
      exact read.allowed.offset n (Option.mem_toList.mp hn)
  · exact List.forall_mem_nil _
  · exact List.forall_mem_nil _

theorem toSql_ok {config : Config} {request : Request} {stmt : Fragment} (h : toSql config request = .ok stmt) :
    ∃ op x, parse config request = .ok op ∧ Sql.draft config.dialect config.schema op = .ok x ∧
      stmt = x.render config.dialect := by
  obtain ⟨op, parsed, h⟩ := bind_eq_ok.mp h
  obtain ⟨compiled, hcompiled, h⟩ := bind_eq_ok.mp h
  obtain ⟨_, -, h⟩ := bind_eq_ok.mp h
  obtain rfl := Except.ok.inj h
  obtain ⟨x, hx, rfl⟩ := Sql.compile_ok (Sql.write_ok (mapError_eq_ok.mp hcompiled))
  exact ⟨op, x, parsed, hx, rfl⟩

/-- The check of a finished statement knows the statement and the kind of its operation, and nothing else. -/
theorem compile_congr {config : Config} {op other : Operation} (kind : op.kind = other.kind)
    (counts : op.counts = other.counts)
    (same : Sql.draft config.dialect config.schema op = Sql.draft config.dialect config.schema other) :
    compile config op = compile config other := by
  simp only [compile, check, Sql.write, Sql.compile, same, kind, counts]

/-- All that a statement has of its request's text stands between quotes and is an identifier. -/
theorem toSql_clean {config : Config} {request : Request} {stmt : Fragment} (valid : config.Valid)
    (pattern : config.validation.fieldPattern = .safe) (h : toSql config request = .ok stmt) :
    CleanText config.dialect stmt.sql.toList := by
  obtain ⟨op, parsed, h⟩ := bind_eq_ok.mp h
  obtain ⟨stmt', compiled, h⟩ := bind_eq_ok.mp h
  -- the check of the finished statement refuses it or leaves it as it is
  obtain ⟨_, -, h⟩ := bind_eq_ok.mp h
  obtain rfl := Except.ok.inj h
  obtain ⟨x, hx, rfl⟩ := Sql.compile_ok (Sql.write_ok (mapError_eq_ok.mp compiled))
  have regular : x.Regular IsSafe (0 ≤ ·) :=
    Sql.regular_draft (fun s hs => isSafe_of_isTable (valid.schema s hs)) isSafe_of_isReference Request.isSafe_idField
      hx isSafe_star (parse_names pattern parsed) (parse_counts valid parsed)
  have numbers : ∀ i ∈ x.indexes, ∃ n : Nat, i = (n : Int) + 1 := by
    rw [Sql.draft_indexes hx]
    intro i hi
    obtain ⟨n, -, rfl⟩ := List.mem_map.mp hi
    exact ⟨n, rfl⟩
  rw [Draft.render_sql]
  exact (QuotedText.of_pieces regular numbers).clean

def shopConfig : Config where
  dialect := .mysql
  schema := some "shop"
  rowLimit := ⟨none, some 20⟩

def notedOrders : Request where
  method := "get"
  path := "//orders/list"
  query := .object
    [("select", .list [.text "u.name", .text "*"]),
      ("joins", .list [.object [("type", .text "left"), ("table", .text "users"), ("alias", .text "u"), ("on", .object
        [("field", .text "u.id"), ("op", .text "="), ("value", .text "orders._user\n")])]]),
      ("where", .object [("field", .text "note"), ("operator", .text "not  like"), ("value", .text "1 OR 1=1")]),
      ("limit", .int 50)]

def notedOrdersText : String :=
  "SELECT `u`.`name`, * FROM `shop`.`orders` LEFT JOIN `shop`.`users` AS `u` ON `u`.`id` = `orders`.`_user\n` " ++
    "WHERE `note` NOT LIKE ? LIMIT 20"

theorem toSql_clean_notedOrders :
    ∃ stmt, toSql shopConfig notedOrders = .ok stmt ∧ stmt.sql.toList = notedOrdersText.toList ∧
      CleanText .mysql stmt.sql.toList := by
  have valid : shopConfig.Valid :=
    ⟨fun s hs => Option.some.inj hs ▸ (by decide), fun n hn => absurd hn nofun,
      fun n hn => Option.some.inj hn ▸ (by decide)⟩
  have sent : ((toSql shopConfig notedOrders).toOption.map fun stmt => stmt.sql) =
      some notedOrdersText := by decide +kernel
  obtain ⟨stmt, hstmt, text⟩ := Option.map_eq_some_iff.mp sent
  rw [toOption_eq_some] at hstmt
  exact ⟨stmt, hstmt, congrArg String.toList text, toSql_clean valid rfl hstmt⟩

end Gate
end QueryGate
