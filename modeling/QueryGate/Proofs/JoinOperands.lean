import QueryGate.Proofs.AllowedQuery
import QueryGate.Proofs.CompiledLeaf
import QueryGate.Proofs.RequestNames
import QueryGate.Proofs.StatementMarks

/-! The values in `ON`. Those that name a column of a table stand in the statement, part by part between quotes; all
others are bound as parameters. -/
namespace QueryGate
open Draft Outcome

namespace Name

def IsLead (c : Char) : Prop := 'a' ≤ c ∧ c ≤ 'z' ∨ 'A' ≤ c ∧ c ≤ 'Z' ∨ c = '_'

def IsColumnWord (s : List Char) : Prop :=
  ∃ c rest, s = c :: rest ∧ IsLead c ∧ ∀ b ∈ rest, IsLead b ∨ '0' ≤ b ∧ b ≤ '9'

def IsQualified (parts : List (List Char)) : Prop := 2 ≤ parts.length ∧ ∀ part ∈ parts, IsColumnWord part

/-- What passes for them, since a line end at the end of a text is overlooked. -/
def PassesAsQualified (parts : List (List Char)) : Prop :=
  IsQualified parts ∨ ∃ front last, IsQualified (front ++ [last]) ∧ parts = front ++ [last ++ ['\n']]

theorem isLead_iff {c : Char} : (c.isAlpha || c == '_') = true ↔ IsLead c := by
  unfold IsLead Char.isAlpha Char.isUpper Char.isLower
  simp only [Bool.or_eq_true, Bool.and_eq_true, decide_eq_true_eq, beq_iff_eq, Char.le_def, ge_iff_le]
  tauto

theorem isFollow_iff {c : Char} : (c.isAlphanum || c == '_') = true ↔ IsLead c ∨ '0' ≤ c ∧ c ≤ '9' := by
  have digit : c.isDigit = true ↔ '0' ≤ c ∧ c ≤ '9' := by
    unfold Char.isDigit
    simp only [Bool.and_eq_true, decide_eq_true_eq, Char.le_def, ge_iff_le]
  rw [← isLead_iff, ← digit, Char.isAlphanum, Bool.or_eq_true, Bool.or_eq_true, Bool.or_eq_true]
  exact or_right_comm

theorem isReferenceWord_iff {s : List Char} : isReferenceWord s = true ↔ IsColumnWord s := by
  cases s with
  | nil => exact iff_of_false Bool.false_ne_true fun ⟨_, _, empty, _⟩ => absurd empty nofun
  | cons c rest =>
    simp only [isReferenceWord, Bool.and_eq_true, isLead_iff, List.all_eq_true, isFollow_iff]
    constructor
    · rintro ⟨lead, follow⟩
      exact ⟨c, rest, rfl, lead, follow⟩
    · rintro ⟨_, _, same, lead, follow⟩
      obtain ⟨rfl, rfl⟩ := List.cons.inj same
      exact ⟨lead, follow⟩

section
variable {parts : List (List Char)}

theorem IsColumnWord.not_mem {word : List Char} (h : IsColumnWord word) {c : Char}
    (other : (c.isAlphanum || c == '_') = false) : c ∉ word := by
  intro mem
  rw [isReferenceWord_char (isReferenceWord_iff.mpr h) mem] at other
  exact Bool.noConfusion other

theorem IsQualified.line_not_mem (h : IsQualified parts) : '\n' ∉ ['.'].intercalate parts := by
  intro mem
  obtain dot | ⟨part, hp, mem⟩ := Splitting.of_mem_intercalate mem
  · exact absurd dot (by decide)
  · exact (h.2 part hp).not_mem (by decide) mem

theorem PassesAsQualified.not_mem (h : PassesAsQualified parts) {c : Char} (other : (c.isAlphanum || c == '_') = false)
    (line : c ≠ '\n') : ∀ part ∈ parts, c ∉ part := by
  rcases h with qualified | ⟨front, last, qualified, rfl⟩
  · exact fun part hp => (qualified.2 part hp).not_mem other
  · have words := qualified.2
    rw [List.forall_mem_append, List.forall_mem_singleton] at words ⊢
    refine ⟨fun part hp => (words.1 part hp).not_mem other, ?_⟩
    rw [List.mem_append, List.mem_singleton, not_or]
    exact ⟨words.2.not_mem other, line⟩

theorem PassesAsQualified.splitOn (h : PassesAsQualified parts) : (['.'].intercalate parts).splitOn '.' = parts := by
  refine List.splitOn_intercalate '.' (h.not_mem (by decide) (by decide)) ?_
  rintro rfl
  rcases h with ⟨two, -⟩ | ⟨front, last, -, none⟩
  · exact absurd two (by decide)
  · exact absurd none.symm (List.append_ne_nil_of_right_ne_nil front (List.cons_ne_nil _ _))

end

theorem dropLineEnd_eq_self {s : List Char} (h : '\n' ∉ s) : Text.dropLineEnd s = s := by
  have last : s.getLast? ≠ some '\n' := fun last => h (List.mem_of_getLast? last)
  rw [Text.dropLineEnd, beq_eq_false_iff_ne.mpr last, if_neg Bool.false_ne_true]

theorem dropLineEnd_line (s : List Char) : Text.dropLineEnd (s ++ ['\n']) = s := by
  rw [Text.dropLineEnd, List.getLast?_concat, if_pos (by decide), List.dropLast_concat]

theorem isReference_iff {s : String} : isReference s = true ↔
    ∃ parts, PassesAsQualified parts ∧ s.toList = ['.'].intercalate parts := by
  simp only [isReference, Bool.and_eq_true, decide_eq_true_eq, List.all_eq_true, isReferenceWord_iff]
  constructor
  · intro qualified
    obtain ⟨ending, whole, line⟩ := dropLineEnd_append s.toList
    have joined : ['.'].intercalate ((Text.dropLineEnd s.toList).splitOn '.') = Text.dropLineEnd s.toList :=
      List.intercalate_splitOn '.'
    rcases line with rfl | rfl
    · rw [List.append_nil] at whole
      exact ⟨_, .inl qualified, whole.trans joined.symm⟩
    · -- a line end at the end of the text belongs to the last of its parts
      obtain ⟨front, last, parts⟩ := (List.eq_nil_or_concat _).resolve_left
        (List.splitOn_ne_nil '.' (Text.dropLineEnd s.toList))
      rw [List.concat_eq_append] at parts
      rw [parts] at qualified joined
      exact ⟨_, .inr ⟨front, last, qualified, rfl⟩, by rw [Splitting.intercalate_append_last, joined, ← whole]⟩
  · rintro ⟨_, qualified | ⟨front, last, qualified, rfl⟩, spelled⟩
    · rw [spelled, dropLineEnd_eq_self qualified.line_not_mem, PassesAsQualified.splitOn (.inl qualified)]
      exact qualified
    · rw [spelled, Splitting.intercalate_append_last, dropLineEnd_line, PassesAsQualified.splitOn (.inl qualified)]
      exact qualified

theorem PassesAsQualified.text_name {parts : List (List Char)} (h : PassesAsQualified parts) {s : String}
    (spelled : s.toList = ['.'].intercalate parts) (d : Dialect) :
    (Draft.name s).text d = ['.'].intercalate (parts.map fun part => d.quote :: (part ++ [d.quote])) := by
  have plain : Identifier.IsPlain s.toList := isPlain_of_isReference (isReference_iff.mpr ⟨parts, h, spelled⟩)
  rw [Draft.text_name, Identifier.escapeChars_of_isPlain d plain, spelled, h.splitOn]
  congr 1
  apply List.map_congr_left
  intro part hp
  -- only a star alone would stand without quotes
  have star : '*' ∉ part := h.not_mem (by decide) (by decide) part hp
  exact if_neg fun (same : part = ['*']) => star (same ▸ List.mem_singleton_self '*')

end Name

namespace Condition

/-- What the value of a condition adds to the text behind the operator, and what it binds as a parameter. -/
inductive JoinOperand (d : Dialect) (index : Int) (c : Condition) : List Char → List Value → Prop
  | absent (unary : c.operator.isUnary = true) (value : c.value = .null) : JoinOperand d index c [] []
  | column {s : String} {parts : List (List Char)} (binary : c.operator.isUnary = false) (value : c.value = .text s)
      (names : Name.PassesAsQualified parts) (spelled : s.toList = ['.'].intercalate parts) :
      JoinOperand d index c (' ' :: ['.'].intercalate (parts.map fun part => d.quote :: (part ++ [d.quote]))) []
  | parameter (binary : c.operator.isUnary = false) (value : c.value ≠ .null)
      (other : ∀ s parts, c.value = .text s → Name.PassesAsQualified parts → s.toList ≠ ['.'].intercalate parts) :
      JoinOperand d index c
        (if c.operator.takesList then " (".toList ++ (d.marker index).toList ++ [')']
          else ' ' :: (d.marker index).toList) [.scalar c.value]

theorem joinOperand_compile {o : ValidationOptions} {c : Condition} (allowed : c.Allowed o) (d : Dialect)
    (offset : Int) : ∃ operand, (c.compile true offset).text d =
      (Draft.name c.field).text d ++ ' ' :: c.operator.text.toList ++ operand ∧
      c.JoinOperand d (offset + 1) operand (c.bound true) := by
  cases unary : c.operator.isUnary with
  | true =>
    refine ⟨[], by rw [text_compile_unary d offset true unary, List.append_nil], ?_⟩
    rw [bound, unary, Bool.true_or, if_pos rfl]
    exact .absent unary (allowed.unary unary)
  | false =>
    cases ref : c.reference? true with
    | some column =>
      obtain ⟨-, value, reference⟩ := reference?_eq_some.mp ref
      obtain ⟨parts, names, spelled⟩ := Name.isReference_iff.mp reference
      refine ⟨_, text_compile_reference d offset unary ref, ?_⟩
      rw [names.text_name spelled, bound, ref, Option.isSome_some, Bool.or_true, if_pos rfl]
      exact .column unary value names spelled
    | none =>
      refine ⟨_, text_compile_bound d offset unary ref, ?_⟩
      rw [bound, unary, ref, Option.isSome_none, Bool.or_self, if_neg Bool.false_ne_true]
      refine .parameter unary (allowed.operand unary).1 fun s parts value names spelled => ?_
      have reference := reference?_eq_some.mpr ⟨rfl, value, Name.isReference_iff.mpr ⟨parts, names, spelled⟩⟩
      exact Option.some_ne_none s (reference.symm.trans ref)

end Condition

namespace Sql

/-- The text of conditions in `ON` and what it binds behind some parameters: fixed words and, in their order, the
conditions. -/
inductive OnText (d : Dialect) : Int → List Condition → List Char → List Value → Prop
  | nil (offset : Int) : OnText d offset [] [] []
  | word (offset : Int) {s : String} (fixed : s ∈ wording) : OnText d offset [] s.toList []
  | leaf {offset : Int} {c : Condition} {operand : List Char} {values : List Value}
      (h : c.JoinOperand d (offset + 1) operand values) :
      OnText d offset [c] ((Draft.name c.field).text d ++ ' ' :: c.operator.text.toList ++ operand) values
  | append {offset : Int} {cs ds : List Condition} {s t : List Char} {vs ws : List Value}
      (hs : OnText d offset cs s vs) (ht : OnText d (offset + vs.length) ds t ws) :
      OnText d offset (cs ++ ds) (s ++ t) (vs ++ ws)

theorem onText_of_isAssembled {o : ValidationOptions} {names : String → Prop} (d : Dialect) {offset : Int}
    {cs : List Condition} {x : Draft} (h : IsAssembled true offset cs x) (regular : x.Regular names fun _ => False)
    (allowed : ∀ c ∈ cs, c.Allowed o) : OnText d offset cs (x.text d) x.params := by
  -- along the way the text was put together, which is where offsets are added up
  induction h with
  | empty offset => exact .nil offset
  | word offset s =>
    rw [text_word]
    have piece := regular (.word s) (List.mem_singleton_self _)
    cases piece with
    | word fixed => exact .word offset fixed
    | count _ impossible => exact impossible.elim
  | leaf offset c =>
    obtain ⟨operand, text, operands⟩ := c.joinOperand_compile (allowed c (List.mem_singleton_self c)) d offset
    rw [text, c.compile_params]
    exact .leaf operands
  | append hx hy ihx ihy =>
    rw [text_append, params_append]
    simp only [Draft.Regular, pieces_append, List.forall_mem_append] at regular
    rw [List.forall_mem_append] at allowed
    exact .append (ihx regular.1 allowed.1) (ihy regular.2 allowed.2)

theorem onText_compileList {o : ValidationOptions} {ps : List Predicate} (allowed : AllowedTrees o ps) (d : Dialect)
    (offset : Int) : OnText d offset (Predicate.leavesOf ps) ((Predicate.compileList true offset ps).text d)
      (Predicate.bound true ps) := by
  have regular : (Predicate.compileList true offset ps).Regular (fun _ => True) fun _ => False :=
    Predicate.regular_compileList (fun _ _ => trivial) true offset fun _ _ => trivial
  rw [← Predicate.compileList_params true offset]
  exact onText_of_isAssembled d (Predicate.isAssembled_compileList true offset ps) regular allowed.leaves

inductive JoinsText (d : Dialect) (schema : Option String) : Int → List Join → List Char → List Value → Prop
  | nil (offset : Int) : JoinsText d schema offset [] [] []
  | cons {offset : Int} {j : Join} {js : List Join} {on text : List Char} {vs ws : List Value}
      (conditions : OnText d offset (Predicate.leavesOf j.on) on vs)
      (others : JoinsText d schema (offset + vs.length) js text ws) :
      JoinsText d schema offset (j :: js) (' ' :: ((joinHead schema j).text d ++ on) ++ text) (vs ++ ws)

theorem joinsText_joinClauses {o : ValidationOptions} {js : List Join} (allowed : ∀ j ∈ js, j.Allowed o) (d : Dialect)
    (schema : Option String) (offset : Int) :
    JoinsText d schema offset js ((joinClauses schema offset js).flatMap fun x => " ".toList ++ x.text d)
      (js.flatMap fun j => Predicate.bound true j.on) := by
  induction js generalizing offset with
  | nil => exact .nil offset
  | cons j rest ih =>
    obtain ⟨first, others⟩ := List.forall_mem_cons.mp allowed
    rw [joinClauses, List.flatMap_cons, List.flatMap_cons, joinClause_params, joinClause_eq, text_append]
    exact .cons (onText_compileList first.on d offset) (ih others _)

/-- A statement has the joins of a reading behind what it selects, and they bind its first parameters. -/
def HasJoins (d : Dialect) (schema : Option String) (op : ReadOp) (stmt : Fragment) : Prop :=
  ∃ text rest values more, stmt.sql.toList = (selectHead schema op).text d ++ text ++ rest ∧
    stmt.params = values ++ more ∧ JoinsText d schema 0 op.joins text values

theorem select_joins (schema : Option String) (op : ReadOp) : ∃ later,
    select schema op = join " " (selectHead schema op :: (joinClauses schema 0 op.joins ++ later)) := by
  exact ⟨_, by simp only [select, List.append_assoc, List.singleton_append]; rfl⟩

theorem hasJoins_select {o : ValidationOptions} {op : ReadOp} (allowed : ∀ j ∈ op.joins, j.Allowed o) (d : Dialect)
    (schema : Option String) : HasJoins d schema op ((select schema op).render d) := by
  obtain ⟨later, whole⟩ := select_joins schema op
  refine ⟨_, later.flatMap fun x => " ".toList ++ x.text d, _,
    Predicate.bound false op.filter ++ Predicate.bound false op.having, ?text, ?params,
    joinsText_joinClauses allowed d schema 0⟩
  case text => rw [render_sql, whole, text_join_cons, List.flatMap_append, List.append_assoc]
  case params => exact (select_params schema op).trans (List.append_assoc _ _ _)

end Sql

/-- A value is taken for a column exactly if it is a text of two or more identifiers with single dots between them, but
for a line end that may stand behind the last. In the statement of a reading by a query that was let through, the
values in `ON` that are so taken stand as their identifiers between quotes, and all others are parameters. -/
theorem joinOperands_columnOrParameter (v : Value) :
    (v.text?.any Name.isReference = true ↔
      ∃ s parts, v = .text s ∧ Name.PassesAsQualified parts ∧ s.toList = ['.'].intercalate parts) ∧
    ∀ (o : ValidationOptions) (raw : Value) (q : Query), validate o raw = .ok q →
      ∀ (d : Dialect) (schema : Option String) (op : ReadOp), op.joins = q.joins.getD [] →
        ∃ stmt, Sql.compile d schema (.read op) = .ok stmt ∧ Sql.HasJoins d schema op stmt := by
  constructor
  · rw [Option.any_eq_true]
    constructor
    · rintro ⟨s, text, reference⟩
      obtain ⟨parts, names, spelled⟩ := Name.isReference_iff.mp reference
      exact ⟨s, parts, Value.text?_eq_some.mp text, names, spelled⟩
    · rintro ⟨s, parts, rfl, names, spelled⟩
      exact ⟨s, rfl, Name.isReference_iff.mpr ⟨parts, names, spelled⟩⟩
  · intro o raw q accepted d schema op joins
    obtain ⟨fields, read⟩ := exists_readFrom accepted
    have allowed : ∀ j ∈ op.joins, j.Allowed o := joins ▸ Request.forall_mem_getD read.allowed.joins
    exact ⟨_, rfl, Sql.hasJoins_select allowed d schema⟩

def townOrders : Value := .object
  [("joins", .list
    [.object [("table", .text "users"), ("on", .list [.object [("or", .list
        [.object [("field", .text "age"), ("op", .text ">="), ("value", .int 18)],
          .object [("not", .bool true), ("and", .list
            [.object [("field", .text "left"), ("op", .text "is null")],
              .object [("field", .text "users.id"), ("op", .text "="), ("value", .text "orders.user_id")]])]])]])],
      .object [("type", .text "left"), ("table", .text "towns"), ("on", .list
        [.object [("field", .text "code"), ("op", .text "in"), ("value", .text "orders.")]])]])]

def townText : String :=
  "SELECT * FROM \"orders\" INNER JOIN \"users\" ON (\"age\" >= $1 OR NOT (\"left\" IS NULL AND " ++
    "\"users\".\"id\" = \"orders\".\"user_id\")) LEFT JOIN \"towns\" ON \"code\" IN ($2)"

theorem joinOperands_columnOrParameter_townOrders :
    ∃ q stmt, validate .strict townOrders = .ok q ∧
      Sql.compile .postgres none (.read (Request.reading ⟨"orders", none⟩ q)) = .ok stmt ∧
      Sql.HasJoins .postgres none (Request.reading ⟨"orders", none⟩ q) stmt ∧ stmt.sql = townText := by
  have sent : ((validate .strict townOrders).toOption.bind fun q =>
      (Sql.compile .postgres none (.read (Request.reading ⟨"orders", none⟩ q))).toOption.map fun stmt =>
        stmt.sql) = some townText := by decide +kernel
  obtain ⟨q, hq, sent⟩ := Option.bind_eq_some_iff.mp sent
  obtain ⟨asked, hasked, text⟩ := toOption_map_eq_some.mp sent
  rw [toOption_eq_some] at hq
  obtain ⟨stmt, hstmt, joins⟩ := (joinOperands_columnOrParameter townOrders).2 .strict townOrders q hq .postgres none
    (Request.reading ⟨"orders", none⟩ q) rfl
  obtain rfl := Except.ok.inj (hasked.symm.trans hstmt)
  exact ⟨q, asked, hq, hasked, joins, text⟩

def brokenColumn : String := "orders.user_id\n"

theorem brokenColumn_isReference :
    Name.isReference brokenColumn = true ∧
      (¬ ∃ parts, Name.IsQualified parts ∧ brokenColumn.toList = ['.'].intercalate parts) ∧
      ((validate .strict (.object [("joins", .list [.object [("table", .text "users"), ("on", .list
        [.object [("field", .text "users.id"), ("op", .text "="), ("value", .text brokenColumn)]])]])])).toOption.map
          fun q => ((Sql.select none (Request.reading ⟨"orders", none⟩ q)).render .sqlite).sql) = some
        "SELECT * FROM \"orders\" INNER JOIN \"users\" ON \"users\".\"id\" = \"orders\".\"user_id\n\"" := by
  refine ⟨by decide +kernel, ?_, by decide +kernel⟩
  rintro ⟨parts, qualified, spelled⟩
  exact qualified.line_not_mem (spelled ▸ by decide)

end QueryGate
