import QueryGate.Proofs.ReplacedMarks
import QueryGate.Text.Word

/-! The three dialects agree. Their statements of one operation differ in the style of quotes and of parameter marks
only, but that a deletion of several rows by id binds the ids as one list where the dialect has lists. -/
namespace QueryGate

namespace Name

def isNameChar (c : Char) : Bool := Text.isWordChar c || c == '.' || c == '*'

def IsPortable (s : String) : Prop := ∀ c ∈ s.toList, isNameChar c = true

instance (s : String) : Decidable (IsPortable s) := List.decidableBAll _ s.toList

/-- A name that has no quotes of either style and no marks of parameters in it. -/
def IsInert (s : String) : Prop := Identifier.IsPlain s.toList ∧ Placeholder.IsQuiet s.toList

instance (s : String) : Decidable (IsInert s) := inferInstanceAs (Decidable (_ ∧ _))

theorem IsPortable.isInert {s : String} (h : IsPortable s) : IsInert s := by
  have not_mem {c : Char} (hc : isNameChar c = false) : c ∉ s.toList := by
    intro mem
    rw [h c mem] at hc
    exact Bool.noConfusion hc
  exact ⟨⟨not_mem (by decide), not_mem (by decide)⟩, not_mem (by decide), not_mem (by decide)⟩

theorem isInert_of_isReference {s : String} (h : isReference s = true) : IsInert s :=
  ⟨isPlain_of_isReference h, Placeholder.isQuiet_of_isReference h⟩

end Name

open Name Placeholder

namespace DialectText

def backtick (c : Char) : Char := if c = '"' then '\x60' else c

/-- A text with a question mark for each dollar sign in front of digits, which are left out with it; whether the text
stands behind such digits is given. -/
def questionMarks : Bool → List Char → List Char
  | _, [] => []
  | behind, c :: rest =>
    if behind && c.isDigit then questionMarks true rest
    else if c = '$' && rest.head?.any Char.isDigit then '?' :: questionMarks true rest
    else c :: questionMarks false rest

theorem map_backtick {s : List Char} (h : '"' ∉ s) : s.map backtick = s := by
  have same : ∀ c ∈ s, backtick c = c := by
    intro c hc
    exact if_neg fun (quote : c = '"') => h (quote ▸ hc)
  rw [List.map_congr_left same, List.map_id']

theorem map_backtick_quotePart {part : List Char} (h : '"' ∉ part) :
    (Identifier.quotePart '"' part).map backtick = Identifier.quotePart '\x60' part := by
  unfold Identifier.quotePart
  split
  next star => rw [star]; rfl
  next =>
    rw [List.map_cons, List.map_append, map_backtick h]
    rfl

theorem map_backtick_escapeChars {s : List Char} (h : Identifier.IsPlain s) :
    (Identifier.escapeChars '"' s).map backtick = Identifier.escapeChars '\x60' s := by
  rw [show '"' = Dialect.sqlite.quote from rfl, show '\x60' = Dialect.mysql.quote from rfl,
    Identifier.escapeChars_of_isPlain .sqlite h, Identifier.escapeChars_of_isPlain .mysql h,
    Splitting.map_intercalate, List.map_map]
  congr 1
  apply List.map_congr_left
  intro part hp
  exact map_backtick_quotePart fun quote => h.1 (Splitting.mem_of_mem_splitOn hp quote)

theorem wording_unquoted : ∀ s ∈ Sql.wording, '"' ∉ s.toList := by decide

theorem count_unquoted {keyword : String} (hk : keyword = "LIMIT" ∨ keyword = "OFFSET") (n : Int) :
    '"' ∉ (keyword ++ " " ++ toString n).toList := by
  have number : '"' ∉ (toString n).toList := fun hc => absurd (Numeral.digit_or_sign_of_mem hc) (by decide)
  rw [String.toList_append, List.mem_append, not_or]
  rcases hk with rfl | rfl <;> exact ⟨by decide, number⟩

section
variable {counts : Int → Prop} {p : Piece} {ps : List Piece}

theorem render_mysql (h : p.Regular IsInert counts) :
    (p.render .mysql).toList = (p.render .sqlite).toList.map backtick := by
  cases h with
  | word h => exact (map_backtick (wording_unquoted _ h)).symm
  | count hk _ => exact (map_backtick (count_unquoted hk _)).symm
  | name h =>
    rw [Piece.render, Piece.render, Identifier.escape, Identifier.escape, String.toList_ofList, String.toList_ofList]
    exact (map_backtick_escapeChars h.1).symm
  | marker index =>
    rw [Piece.render, Piece.render, Reading.marker_question (by decide), Reading.marker_question (by decide)]
    rfl

theorem pieces_mysql (h : ∀ p ∈ ps, p.Regular IsInert counts) :
    ps.flatMap (fun p => (p.render .mysql).toList) = (ps.flatMap fun p => (p.render .sqlite).toList).map backtick := by
  induction ps with
  | nil => rfl
  | cons p ps ih =>
    obtain ⟨hp, hps⟩ := List.forall_mem_cons.mp h
    rw [List.flatMap_cons, List.flatMap_cons, List.map_append, render_mysql hp, ih hps]

theorem questionMarks_eq_replaceMarks (behind : Bool) (s : List Char) :
    questionMarks behind s = replaceMarks (fun _ => ['?']) behind s := by
  induction s generalizing behind with
  | nil => rfl
  | cons c rest ih => simp only [questionMarks, replaceMarks, ih, List.singleton_append]

theorem questionMarks_pieces (h : ∀ p ∈ ps, p.Regular IsInert counts) (hi : ∀ i ∈ ps.filterMap Piece.index?, 0 ≤ i) :
    questionMarks false (ps.flatMap fun p => (p.render .postgres).toList) =
      ps.flatMap fun p => (p.render .sqlite).toList := by
  have quiet : ∀ p ∈ ps, p.Regular (fun s => '$' ∉ s.toList) counts := fun p hp => (h p hp).imp fun _ inert => inert.2.2
  rw [questionMarks_eq_replaceMarks, replaceMarks_pieces quiet hi]
  congr 1
  funext p
  cases p with
  | word s => rfl
  | name s => rfl
  | marker index =>
    rw [Piece.render, Reading.marker_question (by decide)]
    rfl

end
end DialectText

open DialectText

namespace Operation

def deletedIds? : Operation → Option (List Scalar)
  | delete op => Sql.bulkIds? op.filter
  | _ => none

end Operation

namespace Sql
open Draft

theorem delete_eq {schema : Option String} {op : DeleteOp} {ids : List Scalar} (h : bulkIds? op.filter = some ids)
    (d : Dialect) : delete d schema op =
      .word "DELETE FROM " ++ table schema op.table ++ .word " WHERE " ++ idMatch d idField (ids.map .scalar) 0 := by
  unfold delete
  cases filter : op.filter with
  | nil =>
    rw [filter] at h
    exact absurd h nofun
  | cons p ps =>
    rw [filter] at h
    rw [h]

theorem draft_eq {d d' : Dialect} {op : Operation} (h : op.deletedIds? = none ∨ d.bindsLists = d'.bindsLists)
    (schema : Option String) : draft d schema op = draft d' schema op := by
  cases op with
  | create op => rfl
  | read op => rfl
  | update op => rfl
  | delete op =>
    have same : delete d schema op = delete d' schema op := by
      rcases h with none | binds
      · unfold delete
        rw [show bulkIds? op.filter = .none from none]
        cases op.filter <;> rfl
      · unfold delete idMatch
        rw [binds]
    exact congrArg Except.ok same

theorem text_join (d : Dialect) (s : String) (xs : List Draft) :
    (join s xs).text d = s.toList.intercalate (xs.map (·.text d)) := by
  induction xs with
  | nil => rfl
  | cons x rest ih =>
    cases rest with
    | nil => rw [text_join_singleton, List.map_singleton, List.intercalate_singleton]
    | cons y rest =>
      rw [text_join_cons_cons, ih, List.map_cons, List.map_cons, List.map_cons, List.intercalate_cons_cons]

theorem text_markers {d : Dialect} (other : d ≠ .postgres) (offset : Int) (vs : List Value) :
    (markers offset vs).map (·.text d) = List.replicate vs.length ['?'] := by
  have each (v : Value × Nat) : (Draft.mk [.marker (offset + v.2)] [v.1]).text d = ['?'] := by
    rw [text_mark, Reading.marker_question other]
  rw [markers, List.map_map, List.eq_replicate_iff]
  refine ⟨by rw [List.length_map, List.length_zipIdx], fun text ht => ?_⟩
  obtain ⟨v, -, rfl⟩ := List.mem_map.mp ht
  exact each v

theorem idMatch_sqlite (column : String) (ids : List Value) : (idMatch .sqlite column ids 0).text .sqlite =
    Identifier.escapeChars '"' column.toList ++ " IN (".toList ++
      [',', ' '].intercalate (List.replicate ids.length ['?']) ++ [')'] := by
  have marks := text_markers (d := .sqlite) (by decide) 0 ids
  rw [idMatch, if_neg (by decide), text_append, text_append, text_name, text_word, text_between, commaList, text_join,
    marks]
  simp only [List.append_assoc]
  rfl

/-- The three statements of an operation, of which the ids are given if it deletes several rows by id. -/
structure Agree (ids? : Option (List Scalar)) (stmt : Dialect → Fragment) : Prop where
  mysql : (stmt .mysql).sql.toList = (stmt .sqlite).sql.toList.map backtick
  mysqlParams : (stmt .mysql).params = (stmt .sqlite).params
  postgres : ids? = none → (stmt .sqlite).sql.toList = questionMarks false (stmt .postgres).sql.toList
  postgresParams : ids? = none → (stmt .sqlite).params = (stmt .postgres).params
  idMarks : ∀ ids ∈ ids?, ∃ target, (stmt .sqlite).sql.toList = "DELETE FROM ".toList ++ target ++
    " WHERE \"id\" IN (".toList ++ [',', ' '].intercalate (List.replicate ids.length ['?']) ++ [')']
  idParams : ∀ ids ∈ ids?, (stmt .sqlite).params = ids.map .scalar
  idList : ∀ ids ∈ ids?, (stmt .postgres).params = [.list (stmt .sqlite).params]

theorem draft_each (schema : Option String) (op : Operation) :
    (∃ f, ∀ d, draft d schema op = .error f) ∨ ∃ x : Dialect → Draft, ∀ d, draft d schema op = .ok (x d) := by
  cases op with
  | create op =>
    cases outcome : insert schema op with
    | error f => exact .inl ⟨f, fun _ => outcome⟩
    | ok x => exact .inr ⟨fun _ => x, fun _ => outcome⟩
  | read op => exact .inr ⟨fun _ => select schema op, fun _ => rfl⟩
  | update op =>
    cases outcome : update schema op with
    | error f => exact .inl ⟨f, fun _ => outcome⟩
    | ok x => exact .inr ⟨fun _ => x, fun _ => outcome⟩
  | delete op => exact .inr ⟨fun d => delete d schema op, fun _ => rfl⟩

theorem draft_deletedIds (schema : Option String) {op : Operation} {ids : List Scalar} (h : op.deletedIds? = some ids) :
    ∃ target : Draft, target.params = [] ∧ ∀ d, draft d schema op =
      .ok (.word "DELETE FROM " ++ target ++ .word " WHERE " ++ idMatch d idField (ids.map .scalar) 0) := by
  cases op with
  | create op => exact absurd h nofun
  | read op => exact absurd h nofun
  | update op => exact absurd h nofun
  | delete op => exact ⟨table schema op.table, (isFree_table schema op.table).2, fun d => congrArg Except.ok (delete_eq h d)⟩

/-- An operation whose names are made of letters, digits, underscores, dots and stars fails for all dialects with one
fault or has statements that agree. -/
theorem compile_agree {schema : Option String} {op : Operation} (hs : ∀ s ∈ schema, IsPortable s)
    (hn : ∀ s ∈ op.names, IsPortable s) :
    (∃ f, ∀ d, compile d schema op = .error f) ∨
    ∃ stmt : Dialect → Fragment, (∀ d, compile d schema op = .ok (stmt d)) ∧ Agree op.deletedIds? stmt := by
  obtain ⟨f, fails⟩ | ⟨x, drafts⟩ := draft_each schema op
  · exact .inl ⟨f, fun d => by rw [compile, fails]; rfl⟩
  refine .inr ⟨fun d => (x d).render d, fun d => by rw [compile, drafts]; rfl, ?_⟩
  have regular (d : Dialect) : (x d).Regular IsInert fun _ => True :=
    regular_draft (fun s h => (hs s h).isInert) (fun _ => isInert_of_isReference) (by decide) (drafts d) (by decide)
      (fun s h => (hn s h).isInert) fun _ _ => trivial
  have same {d d' : Dialect} (h : op.deletedIds? = none ∨ d.bindsLists = d'.bindsLists) : x d = x d' :=
    Except.ok.inj ((drafts d).symm.trans ((draft_eq h schema).trans (drafts d')))
  have quoted : x .mysql = x .sqlite := same (.inr rfl)
  refine ⟨?mysql, congrArg Draft.params quoted, ?postgres, fun none => congrArg Draft.params (same (.inl none)), ?marks,
    ?params, ?list⟩
  case mysql =>
    rw [render_sql, render_sql, quoted]
    exact pieces_mysql (regular .sqlite)
  case postgres =>
    intro none
    have positive : ∀ i ∈ (x .postgres).indexes, 0 ≤ i := by
      rw [draft_indexes (drafts .postgres)]
      intro i hi
      obtain ⟨k, -, rfl⟩ := List.mem_map.mp hi
      omega
    rw [render_sql, render_sql, same (.inl none)]
    exact (questionMarks_pieces (regular .postgres) positive).symm
  all_goals
    intro ids deleted
    obtain ⟨target, free, bulk⟩ := draft_deletedIds schema deleted
    have shape (d : Dialect) := Except.ok.inj ((drafts d).symm.trans (bulk d))
    have params (d : Dialect) : (x d).params = if d.bindsLists then [.list (ids.map .scalar)] else ids.map .scalar := by
      rw [shape d, params_append, (idMatch_marks d _ _).1]
      simp only [params_append, params_word, free, List.nil_append]
  case params => exact params .sqlite
  case list =>
    show (x .postgres).params = [.list (x .sqlite).params]
    rw [params, params]
    rfl
  case marks =>
    refine ⟨target.text .sqlite, ?_⟩
    rw [render_sql, shape, text_append, idMatch_sqlite, List.length_map]
    simp only [text_append, text_word, List.append_assoc]
    rfl

theorem compile_agree_overdueOrders :
    ∃ stmt : Dialect → Fragment, (∀ d, compile d (some "shop") (.read overdueOrders) = .ok (stmt d)) ∧
      Agree none stmt := by
  have outcome := @compile_agree (some "shop") (.read overdueOrders) (by decide) (by decide)
  obtain ⟨f, fails⟩ | agree := outcome
  · exact absurd (fails .sqlite) nofun
  · exact agree

end Sql
end QueryGate
