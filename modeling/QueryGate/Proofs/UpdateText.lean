import QueryGate.Proofs.BulkValues
import QueryGate.Proofs.StatementWording
import QueryGate.Proofs.Written

/-! The updates that statements say. Their drafts say them whatever the names are, and so do their texts where no
name has a quote. -/
namespace QueryGate
open Reading

namespace Sql
open Draft

def idColumn : Column := partsOf idField

def tableColumn (schema : Option String) (name : String) : Column :=
  match schema.filter (!·.isEmpty) with
  | some s => partsOf s ++ partsOf name
  | none => partsOf name

theorem tableColumn_ne_nil (schema : Option String) (name : String) : tableColumn schema name ≠ [] := by
  unfold tableColumn
  split
  · exact fun none => partsOf_ne_nil name (List.append_eq_nil_iff.mp none).2
  · exact partsOf_ne_nil name

theorem writes_table (schema : Option String) (name : String) :
    Writes (table schema name) (columnLexemes (tableColumn schema name)) := by
  unfold table tableColumn
  cases schema.filter (!·.isEmpty) with
  | none => exact writes_name name
  | some s =>
    have dot : wordTokens "." = [.mark '.'] := by decide
    have parts := dotted_append (partsOf_ne_nil s) (partsOf_ne_nil name)
    constructor
    · intro ps vs
      simp only [pieces_append, pieces_name, pieces_word, params_append, params_name, params_word, List.append_assoc,
        List.cons_append, List.nil_append, fill, dot, columnLexemes, parts, List.map_append, List.map_cons, List.map_nil]
    · intro d plain rest hr
      rw [isPlain_append, isPlain_append] at plain
      have schemaName : Identifier.IsPlain s.toList := plain.1.1 s (List.mem_singleton.mpr rfl)
      have noQuote : ∀ part ∈ s.toList.splitOn '.', d.quote ∉ part :=
        fun part hp hq => schemaName.quote_not_mem d (Splitting.mem_of_mem_splitOn hp hq)
      have dotNext : ('.' :: (Identifier.escapeChars d.quote name.toList ++ rest)).head? ≠ some d.quote := by
        cases d <;> simp [Dialect.quote]
      have front := lex_parts d (List.splitOn_ne_nil '.' s.toList) noQuote dotNext
      have back := (writes_name name).lexes d plain.2 rest hr
      rw [text_name, tokens_name] at back
      rw [text_append, text_append, text_name, text_name, text_word, List.append_assoc, List.append_assoc,
        Identifier.escapeChars_of_isPlain d schemaName]
      refine front.trans ?_
      rw [lex_dot, back, Option.map_map, Option.map_map, tokens_append, tokens_append, tokens_name, tokens_name,
        tokens_word, dot]
      congr 1
      funext more
      simp [partsOf]

theorem opens_update : Opens "UPDATE " [Reading.word "UPDATE"] :=
  opens_words ["UPDATE".toList] (by decide) (by decide) (by decide)

theorem opens_when : Opens "WHEN " [Reading.word "WHEN"] :=
  opens_words ["WHEN".toList] (by decide) (by decide) (by decide)

theorem opens_where : Opens "WHERE " [Reading.word "WHERE"] :=
  opens_words ["WHERE".toList] (by decide) (by decide) (by decide)

theorem spaces_set : Spaces " SET " [Reading.word "SET"] :=
  spaces_words ["SET".toList] (by decide) (by decide) (by decide)

theorem spaces_equals : Spaces " = " [Reading.word "="] :=
  spaces_words ["=".toList] (by decide) (by decide) (by decide)

theorem spaces_case : Spaces " = CASE " [Reading.word "=", Reading.word "CASE"] :=
  spaces_words ["=".toList, "CASE".toList] (by decide) (by decide) (by decide)

theorem spaces_then : Spaces " THEN " [Reading.word "THEN"] :=
  spaces_words ["THEN".toList] (by decide) (by decide) (by decide)

theorem spaces_else : Spaces " ELSE " [Reading.word "ELSE"] :=
  spaces_words ["ELSE".toList] (by decide) (by decide) (by decide)

theorem spaces_where : Spaces " WHERE " [Reading.word "WHERE"] :=
  spaces_words ["WHERE".toList] (by decide) (by decide) (by decide)

theorem spaces_in : Spaces " IN " [Reading.word "IN"] :=
  spaces_words ["IN".toList] (by decide) (by decide) (by decide)

theorem writes_end {x : Draft} {ls : List Lexeme} (h : Writes x ls) :
    Writes (x ++ .word " END") (ls ++ [.token (Reading.word "END")]) := by
  have ending : wordTokens " END" = [Reading.word "END"] := by decide
  constructor
  · intro ps vs
    simp only [pieces_append, params_append, pieces_word, params_word, List.append_assoc, List.nil_append,
      List.cons_append, fill, ending, h.fills, List.map_cons, List.map_nil]
  · intro d plain
    rw [isPlain_append] at plain
    rw [text_append, text_word, tokens_append, tokens_word, ending]
    exact (h.lexes d plain.1).spaced (Lexes.run (w := "END".toList) (by decide))

def choicesOf (column : String) (rows : List Fields) : List Choice :=
  rows.filterMap fun row => (row.value? column).map fun v => ⟨idColumn, idOf row, v⟩

def assigned (changes : Fields) : List (Column × Source) := changes.map fun change => (partsOf change.1, .value change.2)

def chosen (rows : List Fields) (columns : List String) : List (Column × Source) :=
  columns.map fun c => (partsOf c, .choice (choicesOf c rows) (partsOf c))

def updateOfRow (schema : Option String) (tableName : String) (row : Fields) (id : Value) : Update :=
  ⟨tableColumn schema tableName, assigned (withoutId row), idColumn, [id]⟩

def updateOfRows (schema : Option String) (tableName : String) (rows : List Fields) : Update :=
  ⟨tableColumn schema tableName, chosen rows (withoutId (rows.headD [])).keys, idColumn, rows.map idOf⟩

theorem writes_assignment (column : String) (k : Int) (v : Value) :
    Writes (assignment column k v) (setLexemes (partsOf column, .value v)) := by
  have written := (writes_name column).around spaces_equals (writes_mark (k + 1) v)
  simpa [assignment, setLexemes, Source.lexemes] using written

theorem writes_assignments (offset : Int) (changes : Fields) :
    List.Forall₂ Writes (assignments offset changes) ((assigned changes).map setLexemes) := by
  induction changes generalizing offset with
  | nil => exact .nil
  | cons change rest ih => exact .cons (writes_assignment change.1 offset change.2) (ih _)

theorem writes_choice (k : Int) (id v : Value) :
    Writes (choice k id v) (.token (Reading.word "WHEN") :: (Choice.mk idColumn id v).lexemes) := by
  have named := (writes_name idField).behind opens_when
  have written := (named.around spaces_equals (writes_mark (k + 1) id)).around spaces_then (writes_mark (k + 2) v)
  simpa [choice, Choice.lexemes, idColumn] using written

theorem writes_whens (column : String) (offset : Int) (rows : List Fields) :
    List.Forall₂ Writes (whens column offset rows)
      ((choicesOf column rows).map fun c => .token (Reading.word "WHEN") :: c.lexemes) := by
  induction rows generalizing offset with
  | nil => exact .nil
  | cons row rest ih =>
    cases found : row.value? column with
    | none =>
      simp only [whens, choicesOf, List.filterMap_cons, found, Option.map_none]
      exact ih offset
    | some v =>
      simp only [whens, choicesOf, List.filterMap_cons, found, Option.map_some, List.map_cons]
      exact .cons (writes_choice offset (idOf row) v) (ih _)

theorem series_led {α : Type} (write : α → List Lexeme) (separator : Token) {as : List α} (some : as ≠ []) :
    [].intercalate (as.map fun a => .token separator :: write a) = .token separator :: series write separator as := by
  induction as with
  | nil => exact absurd rfl some
  | cons a as ih =>
    cases as with
    | nil => simp [series, List.intercalate_singleton]
    | cons b as =>
      have behind := ih (List.cons_ne_nil b as)
      rw [series] at behind ⊢
      simp only [List.map_cons] at behind ⊢
      rw [List.intercalate_cons_cons, List.intercalate_cons_cons, behind]
      simp

theorem writes_choices (column : String) (offset : Int) {rows : List Fields} (given : choicesOf column rows ≠ []) :
    Writes (choices column (whens column offset rows))
      (setLexemes (partsOf column, .choice (choicesOf column rows) (partsOf column))) := by
  have list := writes_join spaces_blank (writes_whens column offset rows)
  rw [List.map_nil, series_led _ _ given] at list
  have written := writes_end (((writes_name column).around spaces_case list).around spaces_else (writes_name column))
  simpa [choices, setLexemes, Source.lexemes] using written

theorem choicesOf_ne_nil {column : String} {rows : List Fields} {row : Fields} (h : row ∈ rows)
    (given : column ∈ row.keys) : choicesOf column rows ≠ [] := by
  obtain ⟨field, hfield, rfl⟩ := List.mem_map.mp given
  obtain ⟨v, value⟩ : ∃ v, row.value? field.1 = some v := by
    rw [← Option.isSome_iff_exists]
    exact List.lookup_isSome_iff.mpr ⟨field, hfield, beq_self_eq_true _⟩
  have chosen : Choice.mk idColumn (idOf row) v ∈ choicesOf field.1 rows :=
    List.mem_filterMap.mpr ⟨row, h, by rw [value, Option.map_some]⟩
  exact List.ne_nil_of_mem chosen

theorem writes_caseAssignments (offset : Int) {rows : List Fields} {columns : List String}
    (given : ∀ c ∈ columns, choicesOf c rows ≠ []) :
    List.Forall₂ Writes (caseAssignments rows offset columns) ((chosen rows columns).map setLexemes) := by
  induction columns generalizing offset with
  | nil => exact .nil
  | cons column rest ih =>
    obtain ⟨first, others⟩ := List.forall_mem_cons.mp given
    exact .cons (writes_choices column offset first) (ih _ others)

theorem writes_updateHead (schema : Option String) (tableName : String) {xs : List Draft} {sets : List (Column × Source)}
    (h : List.Forall₂ Writes xs (sets.map setLexemes)) :
    Writes (updateHead schema tableName xs) (.token (Reading.word "UPDATE") :: (columnLexemes (tableColumn schema tableName) ++
      .token (Reading.word "SET") :: series setLexemes (.mark ',') sets)) := by
  have list := writes_join spaces_comma h
  have written := ((writes_table schema tableName).behind opens_update).around spaces_set list
  simpa [updateHead, series, commaList] using written

theorem writes_markers (offset : Int) (vs : List Value) :
    List.Forall₂ Writes (Draft.markers offset vs) (vs.map valueLexemes) := by
  unfold Draft.markers
  generalize 1 = k
  induction vs generalizing k with
  | nil => exact .nil
  | cons v vs ih => exact .cons (writes_mark _ v) (ih (k + 1))

theorem keysLexemes_several {vs : List Value} (several : 2 ≤ vs.length) :
    keysLexemes vs = .token (Reading.word "IN") :: .token (.mark '(') ::
      (series valueLexemes (.mark ',') vs ++ [.token (.mark ')')]) := by
  match vs with
  | [] => exact absurd several (by decide)
  | [v] => exact absurd several (by simp)
  | v :: w :: vs => rfl

theorem writes_updateMany {schema : Option String} {op : UpdateOp} {first : Fields} {rest : List Fields} {x : Draft}
    (rows : op.rows = first :: rest) (several : 2 ≤ op.rows.length) (h : updateMany schema op first = .ok x) :
    Writes x (updateOfRows schema op.table op.rows).lexemes := by
  obtain ⟨cases, rfl, rfl⟩ := updateMany_ok h
  have member : first ∈ op.rows := rows ▸ List.mem_cons_self
  have own : ∀ c ∈ (withoutId first).keys, c ∈ first.keys := keys_withoutId fun _ h => h
  have given : ∀ c ∈ (withoutId first).keys, choicesOf c op.rows ≠ [] :=
    fun c hc => choicesOf_ne_nil member (own c hc)
  have head := writes_updateHead schema op.table (writes_caseAssignments 0 given)
  have marks := (writes_join spaces_comma
    (writes_markers (paramCount (caseAssignments op.rows 0 (withoutId first).keys)) (op.rows.map idOf))).between
  have written := (head.around spaces_where (writes_name idField)).around spaces_in marks
  have count : 2 ≤ (op.rows.map idOf).length := by rwa [List.length_map]
  have keys := keysLexemes_several count
  have columns : (withoutId (op.rows.headD [])).keys = (withoutId first).keys := by rw [rows, List.headD_cons]
  rw [updateOfRows, columns]
  simpa [Update.lexemes, keys, series, commaList, idColumn] using written

theorem writes_updateOne {schema : Option String} {op : UpdateOp} {row : Fields} {s : Scalar} {x : Draft}
    (unfiltered : op.filter = []) (id : row.value? idField = some (.scalar s)) (h : updateOne schema op row = .ok x) :
    Writes x (updateOfRow schema op.table row (.scalar s)).lexemes := by
  obtain ⟨ps, filter, rfl⟩ := updateOne_ok h
  obtain rfl : ps = [Request.idEquals s] := by
    have own : rowFilter op row = .ok [Request.idEquals s] := by
      rw [rowFilter, unfiltered, id]
      rfl
    exact Except.ok.inj (filter.symm.trans own)
  have head := writes_updateHead schema op.table (writes_assignments 0 (withoutId row))
  have clause : Writes (.word "WHERE " ++ Predicate.compileList false (withoutId row).length [Request.idEquals s])
      (.token (Reading.word "WHERE") :: setLexemes (idColumn, .value (.scalar s))) := by
    rw [compileList_idEquals false]
    exact (writes_assignment idField (withoutId row).length (.scalar s)).behind opens_where
  have clauses : filterClause "WHERE" (withoutId row).length [Request.idEquals s] =
      [.word "WHERE " ++ Predicate.compileList false (withoutId row).length [Request.idEquals s]] := rfl
  have written := writes_join spaces_blank (.cons head (.cons clause .nil))
  rw [clauses]
  simpa [Update.lexemes, updateOfRow, keysLexemes, setLexemes, Source.lexemes, List.intercalate_cons_cons] using written

/-- The statement of an update says an update of rows: so does its draft, each of whose names is taken for what
it names, and so does its text if there is no quote in the names. -/
structure Says (d : Dialect) (schema : Option String) (op : UpdateOp) (stmt : Fragment) (u : Update) : Prop where
  draft : ∃ x, draft d schema (.update op) = .ok x ∧ stmt = x.render d ∧ updateOf? x.params (x.tokens d) = some u
  text : (∀ s ∈ schema, Identifier.IsPlain s.toList) → (∀ s ∈ (Operation.update op).names, Identifier.IsPlain s.toList) →
    (lex d.quote none stmt.sql.toList).bind (updateOf? stmt.params) = some u

theorem wording_unmarked : ∀ s ∈ wording, Unmarked s := by decide +kernel

theorem says_of_writes {d : Dialect} {schema : Option String} {op : UpdateOp} {u : Update} {x : Draft}
    (h : update schema op = .ok x) (written : Writes x u.lexemes) (full : u.Full) : Says d schema op (x.render d) u := by
  have words : ∀ s, .word s ∈ x.pieces → Unmarked s := by
    intro s hs
    have regular : x.Regular (fun _ => True) fun _ => False :=
      regular_update (fun _ _ => trivial) (fun _ _ => trivial) trivial h (fun _ _ => trivial)
    cases regular _ hs with
    | word fixed => exact wording_unmarked s fixed
    | count _ never => exact never.elim
  have bound := bind?_tokens d words [] x.params (update_marks h).2
  have filled := written.fills [] []
  rw [List.append_nil, List.append_nil, show fill [] [] = [] from rfl, List.append_nil] at filled
  have tokens : updateOf? x.params (x.tokens d) = some u := by
    rw [List.nil_append, filled] at bound
    exact (congrArg (Option.bind · update?) bound).trans (update?_lexemes full)
  refine ⟨⟨x, h, rfl, tokens⟩, fun schemaPlain namesPlain => ?_⟩
  have plain : x.IsPlain := by
    intro s hs
    have regular : x.Regular (fun s => Identifier.IsPlain s.toList) fun _ => False :=
      regular_update schemaPlain (fun s hs => Name.isPlain_of_isReference hs) (by decide) h namesPlain
    cases regular _ hs with
    | name given => exact given
  have lexes := written.lexes d plain [] breaks_nil
  rw [List.append_nil] at lexes
  rw [render_sql, lexes]
  simpa [lex, Draft.render] using tokens

end Sql
end QueryGate
