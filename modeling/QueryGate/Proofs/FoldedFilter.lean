import QueryGate.Proofs.CanonicalForm
import QueryGate.Proofs.Interleaving
import QueryGate.Proofs.LooserLimits
import QueryGate.Proofs.Meaning
import QueryGate.Proofs.QueryFaults
import QueryGate.Proofs.ReadLimits
import QueryGate.Proofs.RequestNames

/-! Conditions that are put into one group for a query: the statement is the one of the conditions side by side. -/
namespace QueryGate
open Outcome

namespace Predicate

/-- A group of `AND` that stands alone is compiled as its members are side by side: it needs no parentheses, and its
members need none below it that they do not need without it. -/
theorem compileList_conj (inJoin : Bool) (offset : Int) (ps : List Predicate) :
    compileList inJoin offset [.group .conj ps false] = compileList inJoin offset ps := by
  have group : compileAll inJoin none offset [.group .conj ps false] =
      [.join " AND " (compileAll inJoin (some .conj) offset ps)] := rfl
  rw [compileList, group, Draft.join_singleton, compileList, compileAll_none]

end Predicate

theorem Sql.filterClause_conj (keyword : String) (offset : Int) {ps : List Predicate} (given : ps ≠ []) :
    filterClause keyword offset [.group .conj ps false] = filterClause keyword offset ps := by
  have nonempty : ¬ps.isEmpty = true := by rwa [List.isEmpty_iff]
  rw [filterClause, filterClause, if_neg nonempty, Predicate.compileList_conj]
  rfl

theorem Sql.select_conj (schema : Option String) (op : ReadOp) {ps : List Predicate} (given : ps ≠ []) :
    select schema { op with filter := [.group .conj ps false] } = select schema { op with filter := ps } := by
  simp only [select, filterClause_conj _ _ given]

def Query.folded (q : Query) (ps : List Predicate) : Query := { q with filter := some [.group .conj ps false] }

def Query.unfolded (q : Query) (ps : List Predicate) : Query := { q with filter := some ps }

variable {o : ValidationOptions} {b : Builder} {q : Query} {ps : List Predicate}

theorem Request.reading_folded (target : Target) (q : Query) (ps : List Predicate) :
    reading target (q.folded ps) = reading target (q.unfolded ps) ∨
      ∃ op : ReadOp, reading target (q.folded ps) = { op with filter := [.group .conj ps false] } ∧
        reading target (q.unfolded ps) = { op with filter := ps } := by
  simp only [reading_readOp]
  cases target.id.filter (· != Target.wholeTable) with
  | some id => exact .inl rfl
  | none => exact .inr ⟨readOp target.table q [] q.limit, rfl, rfl⟩

theorem Sql.select_reading_folded (schema : Option String) (target : Target) (q : Query) (given : ps ≠ []) :
    select schema (Request.reading target (q.folded ps)) = select schema (Request.reading target (q.unfolded ps)) := by
  rcases Request.reading_folded target q ps with same | ⟨op, folded, unfolded⟩
  · rw [same]
  · rw [folded, unfolded, select_conj schema op given]

theorem Gate.compile_folded (config : Config) (target : Target) (given : ps ≠ []) :
    compile config (config.rowLimit.enforce (.read (Request.reading target (q.folded ps)))) =
      compile config (config.rowLimit.enforce (.read (Request.reading target (q.unfolded ps)))) := by
  rw [RowLimit.enforce_read, RowLimit.enforce_read]
  rcases Request.reading_folded target q ps with same | ⟨op, folded, unfolded⟩
  · rw [same]
  · rw [folded, unfolded]
    exact compile_congr rfl rfl
      (congrArg Except.ok (Sql.select_conj config.schema { op with limit := config.rowLimit.apply op.limit } given))

theorem Gate.checkNames_reading (target : Target) (q : Query) :
    checkNames (.read (Request.reading target q)) = discard (validateTable "table" (.text target.table)) := by
  unfold Request.reading
  cases target.id.filter (· != Target.wholeTable) <;> rfl

theorem Gate.toSql_validated {config : Config} {request : Request}
    (h : validate config.validation request.query = .ok q) :
    toSql config request = request.operation (.ok q) >>= fun op => (checkNames op).mapError .invalid >>= fun _ =>
      compile config (config.rowLimit.enforce op) := by
  unfold toSql parse
  rw [h]
  show (_ >>= fun op => _ >>= fun _ => pure _) >>= compile config = _
  simp only [bind_assoc, pure_bind]

theorem Gate.toSql_folded {config : Config} {request : Request} {v w : Value}
    (hv : validate config.validation v = .ok (q.folded ps)) (hw : validate config.validation w = .ok (q.unfolded ps))
    (given : ps ≠ []) : toSql config { request with query := v } = toSql config { request with query := w } := by
  rw [toSql_validated hv, toSql_validated hw]
  unfold Request.operation
  cases Target.ofPath request.path with
  | error f => rfl
  | ok target =>
    cases Method.ofText? request.method with
    | none => rfl
    | some method =>
      cases method with
      | get =>
        show (checkNames (.read (Request.reading target (q.folded ps)))).mapError _ >>= _ =
          (checkNames (.read (Request.reading target (q.unfolded ps)))).mapError _ >>= _
        rw [checkNames_reading, checkNames_reading]
        exact bind_congr fun _ => compile_folded config target given
      | post | put | delete => rfl

theorem ofFields_folded (entries : List Value) :
    PredicateShape.ofFields [("operator", .text "AND"), ("conditions", .list entries)] =
      .ok (.group (.text "AND") (.list entries) .null) := by
  have known : PredicateShape.unknownKeys PredicateShape.groupKeys
      [("operator", .text "AND"), ("conditions", .list entries)] = [] :=
    PredicateShape.unknownKeys_of_sublist (List.Sublist.refl ["operator", "conditions"]) (by decide)
  show PredicateShape.ofGroup _ = _
  simp only [PredicateShape.ofGroup, known]
  rfl

theorem validateLogic_and {operator : Logic} (h : validateLogic o (.text "AND") = .ok operator) : operator = .conj := by
  have same := validateLogic_eq h
  cases operator with
  | conj => rfl
  | disj => exact absurd (Scalar.text.inj (Value.scalar.inj same)) (by decide)

theorem validateClause_folded {clause : String} {entries : List Value} {filter : Option (List Predicate)}
    (h : validateClause o clause (OpenGroup.value ⟨.text "AND", false, entries⟩) = .ok filter) :
    ∃ ps, filter = some [.group .conj ps false] ∧ ps.length = entries.length ∧
      validateClause o clause (.list entries) = .ok (some ps) := by
  obtain ⟨found, checked, rfl⟩ := map_eq_ok.mp h
  obtain ⟨count, each⟩ := mapM_ok checked
  obtain ⟨p, rfl⟩ := List.length_eq_one_iff.mp count
  obtain ⟨_, member, hp⟩ := each p (List.mem_singleton_self p)
  obtain rfl := List.mem_singleton.mp member
  cases levels : o.levels with
  | zero => exact absurd (levels ▸ hp) nofun
  | succ below =>
    rw [levels] at hp
    obtain ⟨shape, hshape, read⟩ := validatePredicate_object.mp hp
    obtain rfl := Except.ok.inj ((ofFields_folded entries).symm.trans hshape)
    cases read with
    | group operator_ok raws_ok negate_ok children_ok =>
      obtain rfl := validateLogic_and operator_ok
      obtain rfl := Except.ok.inj negate_ok
      obtain rfl := Value.list.inj (validateChildren_eq raws_ok)
      refine ⟨_, rfl, (mapM_ok children_ok).1, map_eq_ok.mpr ⟨_, ?_, rfl⟩⟩
      rw [levels]
      exact mapM_keeps children_ok fun raw _ p hp => validatePredicate_loosened (.refl o) (Nat.le_succ below) hp

theorem filter_fields (several : 2 ≤ b.filter.length) :
    b.fields.firstOf ["where"] = OpenGroup.value ⟨.text "AND", false, b.filter⟩ := by
  have entry : Builder.filterEntry b.filter = some (OpenGroup.value ⟨.text "AND", false, b.filter⟩) := by
    match entries : b.filter with
    | [] | [_] => exact absurd several (by simp [entries])
    | first :: second :: rest => rfl
  rw [Fields.firstOf_cons, show b.fields.value? "where" = _ from b.value?_fields .filter, Builder.clauseValue?, entry]
  rfl

theorem validate_folded (several : 2 ≤ b.filter.length) (h : validate o (.object b.fields) = .ok q) :
    ∃ ps, ps ≠ [] ∧ q = q.folded ps ∧
      validate o (.object (b.fields.set "where" (.list b.filter))) = .ok (q.unfolded ps) := by
  have read := validate_object.mp h
  have filter := read.filter
  rw [filter_fields several] at filter
  obtain ⟨ps, folded, count, unfolded⟩ := validateClause_folded filter
  have kept {keys : List String} (h : "where" ∉ keys) :
      (b.fields.set "where" (.list b.filter)).firstOf keys = b.fields.firstOf keys := Fields.firstOf_set_other _ h
  refine ⟨ps, ?_, ?_, validate_object.mpr ?_⟩
  · rintro rfl
    exact absurd (count ▸ several) (by decide)
  · rw [Query.folded, ← folded]
  · exact {
      known := PredicateShape.unknownKeys_eq_nil.mpr fun key hkey => by
        rcases Fields.mem_keys_set hkey with rfl | hkey
        · decide
        · exact PredicateShape.unknownKeys_eq_nil.mp read.known key hkey
      select := by rw [kept (by decide)]; exact read.select
      joins := by rw [kept (by decide)]; exact read.joins
      filter := by rw [Fields.firstOf_cons, Fields.value?_set]; exact unfolded
      groupBy := by rw [kept (by decide)]; exact read.groupBy
      having := by rw [kept (by decide)]; exact read.having
      orderBy := by rw [kept (by decide)]; exact read.orderBy
      limit := by rw [kept (by decide)]; exact read.limit
      offset := by rw [kept (by decide)]; exact read.offset }

/-- Folding the conditions of a query into one group changes nothing that it is sent for: with its conditions side by
side it is accepted as well, and a reading has the same statement. -/
theorem folding_sameStatement {fields : Fields} (several : 2 ≤ b.filter.length)
    (built : b.toValue = .ok (.object fields)) (accepted : validate o (.object fields) = .ok q) :
    ∃ plain, validate o (.object (fields.set "where" (.list b.filter))) = .ok plain ∧
      (∀ d schema target, ∃ stmt, Sql.compile d schema (.read (Request.reading target q)) = .ok stmt ∧
        Sql.compile d schema (.read (Request.reading target plain)) = .ok stmt) ∧
      ∀ (config : Config) (request : Request), config.validation = o →
        Gate.toSql config { request with query := .object fields } =
          Gate.toSql config { request with query := .object (fields.set "where" (.list b.filter)) } := by
  obtain ⟨-, -, same⟩ := Builder.toValue_ok built
  obtain rfl := Value.object.inj same
  obtain ⟨ps, given, folded, unfolded⟩ := validate_folded several accepted
  refine ⟨q.unfolded ps, unfolded, fun d schema target => ?_, ?_⟩
  · have same := congrArg (Draft.render d) (Sql.select_reading_folded schema target q given)
    rw [← folded] at same
    exact ⟨_, congrArg Except.ok same, rfl⟩
  · rintro config request rfl
    rw [folded] at accepted
    exact Gate.toSql_folded accepted unfolded given

def welcomeGuests : Builder where
  filter :=
    [conditionValue (.text "age") (.text ">") (.int 18),
      OpenGroup.value ⟨.text "OR", false,
        [conditionValue (.text "town") (.text "=") (.text "Bath"),
          conditionValue (.text "vip") (.text "IS NOT NULL") .null]⟩,
      OpenGroup.value ⟨.text "AND", true, [conditionValue (.text "banned") (.text "=") (.bool true)]⟩]

def welcomeText : String :=
  "SELECT * FROM \"guests\" WHERE \"age\" > $1 AND (\"town\" = $2 OR \"vip\" IS NOT NULL) AND NOT (\"banned\" = $3)"

theorem folding_sameStatement_welcomeGuests :
    ∃ q plain stmt, 2 ≤ welcomeGuests.filter.length ∧
      welcomeGuests.toValue = .ok (.object welcomeGuests.fields) ∧
      validate {} (.object welcomeGuests.fields) = .ok q ∧
      validate {} (.object (welcomeGuests.fields.set "where" (.list welcomeGuests.filter))) = .ok plain ∧
      Sql.compile .postgres none (.read (Request.reading ⟨"guests", none⟩ q)) = .ok stmt ∧
      Sql.compile .postgres none (.read (Request.reading ⟨"guests", none⟩ plain)) = .ok stmt ∧
      stmt.sql.toList = welcomeText.toList := by
  have several : 2 ≤ welcomeGuests.filter.length := by decide
  have sent : ((validate {} (.object welcomeGuests.fields)).toOption.bind fun q =>
      (Sql.compile .postgres none (.read (Request.reading ⟨"guests", none⟩ q))).toOption.map fun stmt =>
        stmt.sql) = some welcomeText := by decide +kernel
  obtain ⟨q, hq, sent⟩ := Option.bind_eq_some_iff.mp sent
  obtain ⟨asked, hasked, text⟩ := toOption_map_eq_some.mp sent
  rw [toOption_eq_some] at hq
  obtain ⟨plain, hplain, same, -⟩ := folding_sameStatement several rfl hq
  obtain ⟨stmt, hstmt, hsame⟩ := same .postgres none ⟨"guests", none⟩
  obtain rfl := Except.ok.inj (hasked.symm.trans hstmt)
  exact ⟨q, plain, asked, several, rfl, hq, hplain, hasked, hsame, congrArg String.toList text⟩

end QueryGate
