import QueryGate.Proofs.PlainName
import QueryGate.Proofs.ReadLimits

/-! The counts at the end of a reading. An offset stands there if its query has one, with a limit right in front of it
if there is a limit from anywhere. -/
namespace QueryGate
open Draft Outcome

namespace Sql

def counted (s : List Char) (keyword : String) (n : Nat) : List Char :=
  s ++ (" " ++ keyword ++ " " ++ toString n).toList

def EndsInCount (keyword : String) (n : Nat) (s : List Char) : Prop := ∃ front, s = counted front keyword n

/-- An offset stands at the end of a text, and a limit right in front of it. -/
def IsPaged (limit offset : Nat) (s : List Char) : Prop :=
  ∃ front, s = counted front "OFFSET" offset ∧ EndsInCount "LIMIT" limit front

/-- A text that ends in no number of its own, a number being digits behind a blank. -/
def IsUnnumbered (s : List Char) : Prop :=
  ∃ front c digits, s = front ++ c :: digits ∧ c.isDigit = false ∧ (∀ x ∈ digits, x.isDigit = true) ∧
    (c = ' ' → digits = [])

theorem counted_eq (s : List Char) (keyword : String) (n : Nat) :
    counted s keyword n = s ++ ' ' :: keyword.toList ++ ' ' :: (toString (n : Int)).toList := by
  have written : (toString n).toList = (toString (n : Int)).toList := by
    rw [Numeral.natural_toList]
    exact Nat.toList_repr
  simp only [counted, String.toList_append, written, List.append_assoc]
  rfl

theorem nothing_between {mid ds es : List Char} {b c : Char} (hds : ∀ x ∈ ds, x.isDigit = true)
    (hc : c.isDigit = false) (tail : b :: ds = mid ++ c :: es) : mid = [] := by
  cases mid with
  | nil => rfl
  | cons x mid =>
    have inside : c ∈ ds := (List.cons.inj tail).2 ▸ List.mem_append_right mid List.mem_cons_self
    exact absurd (hc.symm.trans (hds c inside)) Bool.false_ne_true

theorem digits_behind {s t ds es : List Char} {b c : Char} (hds : ∀ x ∈ ds, x.isDigit = true)
    (hes : ∀ x ∈ es, x.isDigit = true) (hb : b.isDigit = false) (hc : c.isDigit = false)
    (h : s ++ b :: ds = t ++ c :: es) : s = t ∧ b = c ∧ ds = es := by
  obtain ⟨mid, longer, tail⟩ | ⟨mid, longer, tail⟩ := List.append_eq_append_iff.mp h
  · obtain rfl := nothing_between hds hc tail
    obtain ⟨same, digits⟩ := List.cons.inj tail
    exact ⟨by rw [longer, List.append_nil], same, digits⟩
  · obtain rfl := nothing_between hes hb tail
    obtain ⟨same, digits⟩ := List.cons.inj tail
    exact ⟨by rw [longer, List.append_nil], same.symm, digits.symm⟩

variable {s t : List Char} {keyword : String} {m n : Nat}

theorem counted_inj {other : String} (h : counted s keyword m = counted t other n) :
    s ++ ' ' :: keyword.toList = t ++ ' ' :: other.toList ∧ m = n := by
  rw [counted_eq, counted_eq] at h
  obtain ⟨fronts, -, digits⟩ :=
    digits_behind (fun x => Numeral.digit_of_mem_natural) (fun x => Numeral.digit_of_mem_natural) rfl rfl h
  exact ⟨fronts, Numeral.natural_inj digits⟩

theorem endsInCount_counted : EndsInCount keyword n (counted s keyword m) ↔ m = n := by
  constructor
  · rintro ⟨front, same⟩
    exact (counted_inj same).2
  · rintro rfl
    exact ⟨s, rfl⟩

theorem limited_ends_otherwise : ¬EndsInCount "OFFSET" n (counted s "LIMIT" m) := by
  rintro ⟨front, same⟩
  have keywords : s ++ ' ' :: "LIMIT".toList = (front ++ [' ']) ++ "OFFSET".toList := by
    rw [List.append_assoc]
    exact (counted_inj same).1
  exact absurd (List.append_inj_right' keywords rfl) (by decide)

theorem IsUnnumbered.not_counted (h : IsUnnumbered s) : ¬EndsInCount keyword n s := by
  obtain ⟨front, c, digits, rfl, other, hdigits, blank⟩ := h
  rintro ⟨t, same⟩
  rw [counted_eq] at same
  obtain ⟨-, rfl, number⟩ := digits_behind hdigits (fun x => Numeral.digit_of_mem_natural) other rfl same
  rw [blank rfl, Numeral.natural_toList] at number
  exact Nat.toDigits_ne_nil number.symm

theorem IsUnnumbered.behind (h : IsUnnumbered t) (s : List Char) : IsUnnumbered (s ++ t) := by
  obtain ⟨front, c, digits, rfl, rest⟩ := h
  exact ⟨s ++ front, c, digits, (List.append_assoc _ _ _).symm, rest⟩

theorem isUnnumbered_of_getLast? {c : Char} (last : s.getLast? = some c) (other : c.isDigit = false) :
    IsUnnumbered s := by
  obtain ⟨front, rfl⟩ := List.getLast?_eq_some_iff.mp last
  exact ⟨front, c, [], rfl, other, List.forall_mem_nil _, fun _ => rfl⟩

def paged (s : List Char) (limit offset : Option Nat) : List Char :=
  let front := limit.elim s (counted s "LIMIT")
  offset.elim front (counted front "OFFSET")

variable {limit offset : Option Nat}

theorem IsUnnumbered.endsInCount_limited (h : IsUnnumbered s) :
    EndsInCount "LIMIT" m (limit.elim s (counted s "LIMIT")) ↔ limit = some m := by
  cases limit with
  | none => exact iff_of_false h.not_counted nofun
  | some l => rw [Option.elim_some, endsInCount_counted, Option.some.injEq]

theorem IsUnnumbered.endsInCount_paged (h : IsUnnumbered s) :
    EndsInCount "OFFSET" n (paged s limit offset) ↔ offset = some n := by
  cases offset with
  | some o => rw [paged, Option.elim_some, endsInCount_counted, Option.some.injEq]
  | none =>
    cases limit with
    | none => exact iff_of_false h.not_counted nofun
    | some l => exact iff_of_false limited_ends_otherwise nofun

theorem IsUnnumbered.isPaged_paged (h : IsUnnumbered s) :
    IsPaged m n (paged s limit offset) ↔ limit = some m ∧ offset = some n := by
  constructor
  · rintro ⟨front, same, limited⟩
    have ends := h.endsInCount_paged.mp ⟨front, same⟩
    rw [ends, paged, Option.elim_some] at same
    have fronts := List.append_cancel_right (counted_inj same).1
    exact ⟨h.endsInCount_limited.mp (fronts ▸ limited), ends⟩
  · rintro ⟨rfl, rfl⟩
    exact ⟨_, rfl, s, rfl⟩

theorem wording_ends : ∀ w ∈ wording, w.toList.getLast?.any (fun c => !c.isDigit) = true := by decide

theorem isDigit_of_mem_edges {c : Char} (h : c ∈ Identifier.edges) : c.isDigit = false := by
  simp only [Identifier.edges, List.mem_cons, List.not_mem_nil, or_false] at h
  rcases h with rfl | rfl | rfl <;> rfl

theorem isUnnumbered_marker (d : Dialect) (index : Int) : IsUnnumbered (d.marker index).toList := by
  by_cases dollar : d = .postgres
  · obtain ⟨sign, digits, text, hsign, hdigits⟩ := Numeral.signed_toList index
    rw [dollar, Reading.marker_dollar, text]
    rcases hsign with rfl | rfl
    · exact ⟨[], '$', digits, rfl, rfl, hdigits, nofun⟩
    · exact ⟨['$'], '-', digits, rfl, rfl, hdigits, nofun⟩
  · rw [Reading.marker_question dollar]
    exact isUnnumbered_of_getLast? rfl rfl

theorem isUnnumbered_render (d : Dialect) {names : String → Prop} {p : Piece}
    (h : p.Regular names fun _ => False) : IsUnnumbered (p.render d).toList := by
  cases h with
  | word known =>
    obtain ⟨c, last, other⟩ := (Option.any_eq_true _ _).mp (wording_ends _ known)
    exact isUnnumbered_of_getLast? last (by simpa using other)
  | count _ none => exact none.elim
  | name _ =>
    obtain ⟨-, c, edge, last⟩ := Identifier.isEdged_escapeChars d _
    rw [Piece.render, Identifier.escape, String.toList_ofList]
    exact isUnnumbered_of_getLast? last (isDigit_of_mem_edges edge)
  | marker index => exact isUnnumbered_marker d index

theorem isUnnumbered_text (d : Dialect) {names : String → Prop} {x : Draft} (regular : x.Regular names fun _ => False)
    (some : x.pieces ≠ []) : IsUnnumbered (x.text d) := by
  obtain ⟨front, p, pieces⟩ := (List.eq_nil_or_concat x.pieces).resolve_left some
  rw [List.concat_eq_append] at pieces
  have last := regular p (pieces ▸ List.mem_append_right front (List.mem_singleton_self p))
  rw [text, pieces, List.flatMap_append, List.flatMap_singleton]
  exact (isUnnumbered_render d last).behind _

def innerClauses (schema : Option String) (op : ReadOp) : List Draft :=
  let joins := joinClauses schema 0 op.joins
  let filter := filterClause "WHERE" (paramCount joins) op.filter
  let orders := op.orderBy.map fun o => Draft.name o.field ++ .word (" " ++ o.direction.text)
  joins ++ filter ++ listClause "GROUP BY" (op.groupBy.map .name) ++
    filterClause "HAVING" (paramCount (joins ++ filter)) op.having ++ listClause "ORDER BY" orders

/-- A reading without its counts. -/
def uncounted (schema : Option String) (op : ReadOp) : Draft :=
  join " " (selectHead schema op :: innerClauses schema op)

theorem uncounted_eq (schema : Option String) (op : ReadOp) :
    select schema { op with limit := none, offset := none } = uncounted schema op := by
  show join " " (selectHead schema op :: innerClauses schema op ++ [] ++ []) = _
  rw [List.append_nil, List.append_nil]
  rfl

theorem isUnnumbered_uncounted (d : Dialect) (schema : Option String) (op : ReadOp) :
    IsUnnumbered ((uncounted schema op).text d) := by
  have regular : (uncounted schema op).Regular (fun _ => True) fun _ => False := by
    rw [← uncounted_eq]
    exact regular_select (fun _ _ => trivial) (fun _ _ => trivial) trivial (fun _ _ => trivial) (List.forall_mem_nil _)
  refine isUnnumbered_text d regular fun empty => ?_
  have nothing : (uncounted schema op).text d = [] := by rw [text, empty, List.flatMap_nil]
  have begins : (selectHead schema op).text d <+: (uncounted schema op).text d := text_join_begins d " " _ _
  rw [nothing, List.prefix_nil] at begins
  simp [selectHead] at begins

theorem text_join_count (d : Dialect) {xs : List Draft} (some : xs ≠ []) (keyword : String) (count : Option Nat) :
    (join " " (xs ++ countClause keyword (count.map fun n : Nat => (n : Int)))).text d =
      count.elim ((join " " xs).text d) (counted ((join " " xs).text d) keyword) := by
  cases count with
  | none => simp [countClause]
  | some n =>
    show (join " " (xs ++ [.word (keyword ++ " " ++ toString (n : Int))])).text d = _
    rw [text_join_concat d " " some, text_word, Option.elim_some, counted_eq]
    simp

theorem text_select (d : Dialect) (schema : Option String) {op : ReadOp} {limit offset : Option Nat}
    (hl : op.limit = limit.map fun n : Nat => (n : Int)) (ho : op.offset = offset.map fun n : Nat => (n : Int)) :
    (select schema op).text d = paged ((uncounted schema op).text d) limit offset := by
  have some := List.cons_ne_nil (selectHead schema op) (innerClauses schema op)
  have split : select schema op = join " " (selectHead schema op :: innerClauses schema op ++
      countClause "LIMIT" op.limit ++ countClause "OFFSET" op.offset) := rfl
  rw [split, hl, ho, text_join_count d (List.append_ne_nil_of_left_ne_nil some _), text_join_count d some]
  rfl

theorem select_paged (d : Dialect) (schema : Option String) {op : ReadOp}
    (counts : ∀ n ∈ (Operation.read op).counts, 0 ≤ n) (n : Nat) :
    (EndsInCount "OFFSET" n ((select schema op).text d) ↔ op.offset = some (n : Int)) ∧
      ∀ m : Nat, IsPaged m n ((select schema op).text d) ↔ op.limit = some (m : Int) ∧ op.offset = some (n : Int) := by
  have natural {count : Option Int} (h : ∀ n ∈ count.toList, 0 ≤ n) :
      ∃ n? : Option Nat, count = n?.map fun n : Nat => (n : Int) := by
    cases count with
    | none => exact ⟨none, rfl⟩
    | some n => exact ⟨some n.toNat, congrArg some (Int.toNat_of_nonneg (h n List.mem_cons_self)).symm⟩
  have same (n? : Option Nat) (n : Nat) : n?.map (fun n : Nat => (n : Int)) = some (n : Int) ↔ n? = some n := by
    cases n? with
    | none => exact iff_of_false nofun nofun
    | some k => simp only [Option.map_some, Option.some.injEq, Int.ofNat_inj]
  obtain ⟨limits, offsets⟩ := List.forall_mem_append.mp counts
  obtain ⟨limit, hl⟩ := natural limits
  obtain ⟨offset, ho⟩ := natural offsets
  have ends := isUnnumbered_uncounted d schema op
  rw [text_select d schema hl ho, hl, ho, same]
  refine ⟨ends.endsInCount_paged, fun m => ?_⟩
  rw [same]
  exact ends.isPaged_paged

end Sql

namespace Gate
open Sql

def IsLimited (config : Config) (request : Request) (q : Query) : Prop :=
  (Target.namedRow? request.path).isSome ∨ q.limit.isSome ∨ config.rowLimit.whenAbsent.isSome ∨
    config.rowLimit.most.isSome

theorem isSome_reading_limit (config : Config) {request : Request} {target : Target} (q : Query)
    (path : Target.ofPath request.path = .ok target) :
    (config.rowLimit.apply (Request.reading target q).limit).isSome ↔ IsLimited config request q := by
  obtain ⟨-, named⟩ := Target.namedRow?_of_ofPath path
  rw [← Option.ne_none_iff_isSome, ne_eq, RowLimit.apply_eq_none, reading_limit, IsLimited, named]
  cases target.id.filter (· != Target.wholeTable) with
  | some id => simp
  | none => cases q.limit <;> cases config.rowLimit.whenAbsent <;> simp [Option.ne_none_iff_isSome]

/-- A reading ends in an offset if its query has one, and there is a limit right in front of it if the reading has a
limit from anywhere. -/
theorem toSql_paged {config : Config} {request : Request} {stmt : Fragment} (valid : config.Valid)
    (get : Method.ofText? request.method = some .get) (h : toSql config request = .ok stmt) :
    ∃ q, validate config.validation request.query = .ok q ∧
      ∀ n : Nat, (EndsInCount "OFFSET" n stmt.sql.toList ↔ q.offset = some (n : Int)) ∧
        (EndsInCount "OFFSET" n stmt.sql.toList →
          ((∃ m, IsPaged m n stmt.sql.toList) ↔ IsLimited config request q)) := by
  obtain ⟨op, x, parsed, hx, rfl⟩ := toSql_ok h
  have counts := parse_counts valid parsed
  obtain ⟨target, q, path, hq, -, rfl⟩ := parse_read get parsed
  obtain ⟨op, limited, hlimit, hoffset⟩ : ∃ op, config.rowLimit.enforce (.read (Request.reading target q)) = .read op ∧
      op.limit = config.rowLimit.apply (Request.reading target q).limit ∧ op.offset = q.offset := by
    obtain ⟨filter, limit, same, -⟩ := Request.reading_eq target q
    exact ⟨_, RowLimit.enforce_read _ _, rfl, same ▸ rfl⟩
  rw [limited] at counts hx
  obtain rfl := Except.ok.inj hx
  refine ⟨q, hq, fun n => ?_⟩
  obtain ⟨ends, paged⟩ := select_paged config.dialect config.schema counts n
  rw [Draft.render_sql, ← hoffset]
  refine ⟨ends, fun offset => ?_⟩
  rw [← isSome_reading_limit config q path, ← hlimit]
  constructor
  · rintro ⟨m, both⟩
    rw [((paged m).mp both).1]
    rfl
  · intro some
    obtain ⟨limit, given⟩ := Option.isSome_iff_exists.mp some
    have natural := Int.toNat_of_nonneg (counts limit (List.mem_append_left _ (Option.mem_toList.mpr given)))
    exact ⟨limit.toNat, (paged _).mpr ⟨natural ▸ given, ends.mp offset⟩⟩

def laterUsers : Request where
  method := "get"
  path := "/users"
  query := .object [("offset", .int 40)]

theorem toSql_paged_laterUsers :
    ∃ stmt, toSql shopConfig laterUsers = .ok stmt ∧
      stmt.sql.toList = "SELECT * FROM \x60shop\x60.\x60users\x60 LIMIT 20 OFFSET 40".toList ∧
      ∃ q, validate shopConfig.validation laterUsers.query = .ok q ∧
        EndsInCount "OFFSET" 40 stmt.sql.toList ∧ ∃ m, IsPaged m 40 stmt.sql.toList := by
  have valid : shopConfig.Valid :=
    ⟨fun s hs => Option.some.inj hs ▸ (by decide), fun n hn => absurd hn nofun,
      fun n hn => Option.some.inj hn ▸ (by decide)⟩
  have sent : ((toSql shopConfig laterUsers).toOption.map fun stmt => stmt.sql) =
      some "SELECT * FROM \x60shop\x60.\x60users\x60 LIMIT 20 OFFSET 40" := by decide +kernel
  obtain ⟨stmt, hstmt, same⟩ := toOption_map_eq_some.mp sent
  have text := congrArg String.toList same
  obtain ⟨q, hq, pages⟩ := toSql_paged valid rfl hstmt
  have offset : EndsInCount "OFFSET" 40 stmt.sql.toList :=
    ⟨"SELECT * FROM \x60shop\x60.\x60users\x60 LIMIT 20".toList, text⟩
  exact ⟨stmt, hstmt, text, q, hq, offset, ((pages 40).2 offset).mpr (.inr (.inr (.inr rfl)))⟩

theorem laterUsers_unlimited :
    ∃ stmt, toSql { dialect := .sqlite } laterUsers = .ok stmt ∧
      stmt.sql.toList = "SELECT * FROM \"users\" OFFSET 40".toList ∧
      EndsInCount "OFFSET" 40 stmt.sql.toList ∧ ¬∃ m, IsPaged m 40 stmt.sql.toList := by
  have sent : ((toSql { dialect := .sqlite } laterUsers).toOption.map fun stmt => stmt.sql) =
      some "SELECT * FROM \"users\" OFFSET 40" := by decide +kernel
  obtain ⟨stmt, hstmt, same⟩ := toOption_map_eq_some.mp sent
  have text := congrArg String.toList same
  have bare : IsUnnumbered "SELECT * FROM \"users\"".toList := isUnnumbered_of_getLast? (c := '"') rfl rfl
  have alone : stmt.sql.toList = paged "SELECT * FROM \"users\"".toList none (some 40) := text
  refine ⟨stmt, hstmt, text, alone ▸ bare.endsInCount_paged.mpr rfl, ?_⟩
  rintro ⟨m, both⟩
  rw [alone, bare.isPaged_paged] at both
  exact absurd both.1 nofun

end Gate
end QueryGate
