import QueryGate.Proofs.AllowedQuery
import QueryGate.Proofs.Lookup
import QueryGate.Proofs.ReadFrom

/-! Validating what has been validated: whatever satisfies the rules is let through in the form it is written in, and
comes out as it was. -/
namespace QueryGate
open Outcome PredicateShape

theorem Danger.isForbidden_eq_false {text : String} (marks : ∀ c ∈ forbiddenMarks, c ∉ text.toList)
    (comments : ∀ m ∈ commentMarks, ¬ m <:+: text.toList) : isForbidden text = false := by
  have noComment (m : List Char) (hm : m ∈ commentMarks) : occurs [.mark m] text.toList = false := by
    rw [Bool.eq_false_iff, ne_eq, occurs_mark]
    exact comments m hm
  have noMark : text.toList.any (fun c => c == '\'' || c == '"' || c == '\\' || c == ';') = false := by
    rw [List.any_eq_false]
    intro c hc found
    simp only [Bool.or_eq_true, beq_iff_eq, or_assoc] at found
    exact marks c (by simpa [forbiddenMarks] using found) hc
  rw [isForbidden, noMark, noComment _ (by decide), noComment _ (by decide), noComment _ (by decide)]
  rfl

theorem AllowedField.isField {o : ValidationOptions} {name : String} (h : AllowedField o name) :
    isField o name = true := by
  simp only [QueryGate.isField, h.accepted, h.harmless, bne_iff_ne.mpr h.notStar, Bool.not_false, Bool.and_self]

theorem AllowedField.validate {o : ValidationOptions} {name : String} (h : AllowedField o name) :
    validateField o (.text name) = .ok name := if_pos h.isField

theorem spellOperator_text (operator : Operator) : Operator.ofText? (spellOperator operator.text) = some operator := by
  cases operator <;> decide +kernel

theorem validateOperator_text {o : ValidationOptions} {operator : Operator} (h : operator ∈ o.operators) :
    validateOperator o (.text operator.text) = .ok operator := by
  unfold validateOperator
  rw [show Value.text? (.text operator.text) = some operator.text from rfl, Option.bind_some, spellOperator_text]
  exact if_pos (List.contains_iff_mem.mpr h)

theorem AllowedText.validateOperand {o : ValidationOptions} {s : Scalar} (hasText : s.isShort = true)
    (h : AllowedText o (operandText s)) : validateOperand o (.scalar s) = .ok s := by
  have short : tooLong o (operandText s) = none := by
    rw [tooLong, Option.filter_eq_none_iff]
    intro most given long
    obtain ⟨nonzero, long⟩ := of_decide_eq_true long
    exact Int.not_lt.mpr (h.short most given nonzero) long
  have clean := Danger.isForbidden_eq_false h.noMark h.noComment
  have plain : (o.preventKeywords && Danger.hasKeyword (operandText s)) = false := by
    cases on : o.preventKeywords with
    | false => rfl
    | true => exact h.noKeyword on
  simp only [QueryGate.validateOperand, hasText, short, h.harmless, clean, plain, Bool.not_true, Bool.false_eq_true,
    if_false]

theorem Condition.Allowed.validate {o : ValidationOptions} {c : Condition} (h : c.Allowed o) :
    validateCondition o (.text c.field) (.text c.operator.text) (.scalar c.value) = .ok c := by
  refine bind_eq_ok.mpr ⟨_, h.field.validate, ?_⟩
  refine bind_eq_ok.mpr ⟨_, validateOperator_text h.operator, ?_⟩
  cases unary : c.operator.isUnary with
  | true =>
    rw [if_pos rfl, ← h.unary unary]
    rfl
  | false =>
    obtain ⟨given, hasText, text⟩ := h.operand unary
    have notNull : (Value.scalar c.value).isNull = false := by
      cases value : c.value
      case null => exact absurd value given
      all_goals rfl
    rw [if_neg Bool.false_ne_true, notNull, if_neg Bool.false_ne_true]
    exact bind_eq_ok.mpr ⟨_, text.validateOperand hasText, rfl⟩

theorem Condition.toWire_shape (c : Condition) : ∃ fields, c.toWire = .object fields ∧
    ofFields fields = .ok (.condition (.text c.field) (.text c.operator.text) (.scalar c.value)) := by
  refine ⟨_, rfl, ?_⟩
  have operand : ((if c.value = .null then none else some (.scalar c.value)).getD .null : Value) = .scalar c.value := by
    split
    next null => rw [null, Option.getD_none]
    next => rfl
  have known : unknownKeys conditionKeys ([("field", .text c.field), ("operator", .text c.operator.text)] ++
      optionalField "value" (if c.value = .null then none else some (.scalar c.value))) = [] :=
    unknownKeys_of_sublist (c.keys_toWire rfl) (by decide)
  have tag : Form.predicateTag? ([("field", .text c.field), ("operator", .text c.operator.text)] ++
      optionalField "value" (if c.value = .null then none else some (.scalar c.value))) = some .condition := by
    simp [Form.predicateTag?, Fields.has]
  rw [ofFields, tag]
  simp only [ofCondition, known]
  simp [Fields.firstOf_cons, operand]

theorem Predicate.toWire_shape (operator : Logic) (children : List Predicate) (negate : Bool) :
    ∃ fields, (Predicate.group operator children negate).toWire = .object fields ∧
      ofFields fields = .ok (.group (.text operator.text) (.list (children.map toWire)) (.bool negate)) := by
  refine ⟨_, rfl, ?_⟩
  rw [toWireAll_eq_map]
  have known : unknownKeys groupKeys [("operator", .text operator.text),
      ("conditions", .list (children.map toWire)), ("not", .bool negate)] = [] :=
    unknownKeys_of_sublist (List.Sublist.refl ["operator", "conditions", "not"]) (by decide)
  show ofGroup _ = _
  simp only [ofGroup, known]
  rfl

theorem validateLogic_text {o : ValidationOptions} {operator : Logic} (h : operator ∈ o.connectives) :
    validateLogic o (.text operator.text) = .ok operator := by
  have spelled : Logic.ofText? (Text.upper operator.text) = some operator := by cases operator <;> decide
  unfold validateLogic
  simp only [Value.text?, Option.bind_some, spelled]
  exact if_pos (List.contains_iff_mem.mpr h)

theorem validateChildren_list {o : ValidationOptions} {children : List Value} (some : 1 ≤ children.length)
    (few : (children.length : Int) ≤ o.maxConditions) : validateChildren o (.list children) = .ok children := by
  have notEmpty : children.isEmpty = false := by
    cases children with
    | nil => exact absurd some (by decide)
    | cons child rest => rfl
  simp only [validateChildren, notEmpty, Bool.false_eq_true, if_false, if_neg (Int.not_lt.mpr few)]

theorem Predicate.validate_toWire {o : ValidationOptions} {levels : Nat} (root : Predicate)
    (h : ∀ depth p, root.At depth p → depth < levels ∧ p.Allowed o) :
    validatePredicate o levels root.toWire = .ok root := by
  induction root generalizing levels with
  | condition c =>
    obtain ⟨shallow, allowed⟩ := h 0 _ (.here _)
    obtain ⟨rest, rfl⟩ := Nat.exists_eq_add_one_of_ne_zero (Nat.ne_of_gt shallow)
    obtain ⟨fields, wire, shape⟩ := c.toWire_shape
    have allowed : c.Allowed o := allowed
    rw [toWire, wire]
    exact validatePredicate_object.mpr ⟨_, shape, .condition allowed.validate⟩
  | group operator children negate ih =>
    obtain ⟨shallow, some, few, connective⟩ := h 0 _ (.here _)
    obtain ⟨rest, rfl⟩ := Nat.exists_eq_add_one_of_ne_zero (Nat.ne_of_gt shallow)
    obtain ⟨fields, wire, shape⟩ := Predicate.toWire_shape operator children negate
    rw [← List.length_map toWire] at some few
    have below : (children.map toWire).mapM (validatePredicate o rest) = .ok children := by
      refine mapM_map_ok fun child hc => ih child hc fun depth p hp => ?_
      exact (h (depth + 1) p (.under hc hp)).imp_left Nat.lt_of_succ_lt_succ
    rw [wire]
    exact validatePredicate_object.mpr ⟨_, shape, .group (validateLogic_text connective)
      (validateChildren_list some few) rfl below⟩

theorem validateClause_toWire {o : ValidationOptions} (clause : String) {ps : List Predicate} (h : AllowedTrees o ps) :
    validateClause o clause (.list (Predicate.toWireAll ps)) = .ok (some ps) := by
  have each : (ps.map Predicate.toWire).mapM (validatePredicate o o.levels) = .ok ps := by
    refine mapM_map_ok fun root hroot => root.validate_toWire fun depth p hp => ?_
    refine (h root hroot depth p hp).imp_left fun shallow => ?_
    unfold ValidationOptions.levels
    omega
  rw [Predicate.toWireAll_eq_map]
  exact map_eq_ok.mpr ⟨ps, each, rfl⟩

theorem AllowedEntry.validate (clause : String) {name : String} (h : AllowedEntry name) :
    validateListedName clause (.text name) = .ok name := by
  unfold validateListedName
  rcases h with rfl | ⟨harmless, dotted, noKeyword⟩
  · rfl
  · have plain : ((name.toList.splitOn '.').any fun part => Danger.isKeyword (String.ofList part)) = false := by
      rw [List.any_eq_false]
      intro part hp
      rw [noKeyword part hp]
      exact Bool.false_ne_true
    by_cases star : name = "*"
    · exact if_pos star
    · simp only [star, harmless, dotted, plain, Bool.not_true, Bool.false_eq_true, if_false]

theorem validateNames_textList {clause : String} {most : Int} {names : List String} (few : (names.length : Int) ≤ most)
    (h : ∀ name ∈ names, AllowedEntry name) : validateNames clause most (textList names) = .ok (some names) := by
  have each : (names.map Value.text).mapM (validateListedName clause) = .ok names :=
    mapM_map_ok fun name hn => (h name hn).validate clause
  rw [← List.length_map Value.text] at few
  show (if _ then _ else _) = _
  rw [if_neg (Int.not_lt.mpr few)]
  exact map_eq_ok.mpr ⟨names, each, rfl⟩

theorem validateTable_text (role : String) {name : String} (h : Name.isTable name.toList = true) :
    validateTable role (.text name) = .ok name := if_pos h

theorem validateJoinKind_text (kind : JoinKind) : validateJoinKind (.text kind.text) = .ok kind := by
  cases kind <;> rfl

theorem Join.Allowed.validate {o : ValidationOptions} {j : Join} (h : j.Allowed o) :
    validateJoin o j.toWire = .ok j := by
  refine validateJoin_object.mpr ⟨?known, ?kind, ?table, ?label, ?on, h.conditions⟩
  case known => exact unknownKeys_of_sublist (j.keys_toWire rfl) (by decide)
  case kind =>
    simpa [Fields.firstOf_cons] using validateJoinKind_text j.kind
  case table =>
    simpa [Fields.firstOf_cons] using validateTable_text "table" h.table
  case label =>
    cases label : j.label with
    | none => simp [Fields.firstOf_cons, validateLabel]
    | some name =>
      have valid : validateLabel (.text name) = .ok (some name) :=
        map_eq_ok.mpr ⟨name, validateTable_text "alias" (h.label name label), rfl⟩
      simpa [Fields.firstOf_cons] using valid
  case on =>
    simpa [Fields.firstOf_cons] using validateClause_toWire "join" h.on

theorem validateDirection_text (direction : Direction) : validateDirection (.text direction.text) = .ok direction := by
  cases direction <;> rfl

theorem AllowedField.validateOrder {o : ValidationOptions} {order : Order} (h : AllowedField o order.field) :
    validateOrder o order.toWire = .ok order := by
  refine validateOrder_object.mpr ⟨?known, ?field, ?direction⟩
  case known => exact unknownKeys_of_sublist (order.keys_toWire rfl) (by decide)
  case field =>
    have valid : validateOrderName o (.text order.field) = .ok order.field := if_pos h.isField
    simpa [Fields.firstOf_cons] using valid
  case direction =>
    simpa [Fields.firstOf_cons] using validateDirection_text order.direction

theorem validateCount_int {least n : Int} (broken : Rejection) (h : least ≤ n) :
    validateCount least broken (.int n) = .ok (some n) := if_pos h

theorem read_optional {α : Type} (read : Value → Except QueryFault (Option α)) (wire : α → Value) {clause : Option α}
    (absent : read .null = .ok none) (present : ∀ a ∈ clause, read (wire a) = .ok (some a)) :
    read ((clause.map wire).getD .null) = .ok clause := by
  cases clause with
  | none => exact absent
  | some a => exact present a rfl

theorem Query.Allowed.validate {o : ValidationOptions} {q : Query} (h : q.Allowed o) :
    QueryGate.validate o q.toWire = .ok q := by
  refine validate_object.mpr ⟨?known, ?select, ?joins, ?filter, ?groupBy, ?having, ?orderBy, ?limit, ?offset⟩
  case known => exact unknownKeys_of_sublist (q.keys_toWire rfl) (by decide)
  case select =>
    have read := read_optional (validateNames "select" o.maxSelect) textList rfl fun names given =>
      validateNames_textList (h.select names given).1 (h.select names given).2
    simpa [Fields.firstOf_cons] using read
  case joins =>
    have read := read_optional (validateJoins o) (fun js => .list (js.map Join.toWire)) rfl fun js given =>
      map_eq_ok.mpr ⟨js, mapM_map_ok fun j hj => (h.joins js given j hj).validate, rfl⟩
    simpa [Fields.firstOf_cons] using read
  case filter =>
    have read := read_optional (validateClause o "where") (fun ps => .list (Predicate.toWireAll ps)) rfl fun ps given =>
      validateClause_toWire "where" (h.filter ps given)
    simpa [Fields.firstOf_cons] using read
  case groupBy =>
    have read := read_optional (validateNames "groupBy" o.maxGroupBy) textList rfl fun names given =>
      validateNames_textList (h.groupBy names given).1 (h.groupBy names given).2
    simpa [Fields.firstOf_cons, Form.groupByNames] using read
  case having =>
    have read := read_optional (validateClause o "having") (fun ps => .list (Predicate.toWireAll ps)) rfl fun ps given =>
      validateClause_toWire "having" (h.having ps given)
    simpa [Fields.firstOf_cons] using read
  case orderBy =>
    have read := read_optional (validateOrders o) (fun os => .list (os.map Order.toWire)) rfl
      fun orders given => map_eq_ok.mpr ⟨orders, mapM_map_ok fun order ho => (h.orderBy orders given order ho).validateOrder, rfl⟩
    simpa [Fields.firstOf_cons, Form.orderByNames] using read
  case limit =>
    have read := read_optional (validateCount 1 .invalidLimit) .int rfl fun n given =>
      validateCount_int .invalidLimit (h.limit n given)
    simpa [Fields.firstOf_cons] using read
  case offset =>
    have read := read_optional (validateCount 0 .invalidOffset) .int rfl fun n given =>
      validateCount_int .invalidOffset (h.offset n given)
    simpa [Fields.firstOf_cons] using read

def rowsUpTo (n : Int) : Value := .object [("limit", .int n)]

theorem validate_rowsUpTo (o : ValidationOptions) {n : Int} (positive : 1 ≤ n) :
    validate o (rowsUpTo n) = .ok { limit := some n } := by
  have allowed : Query.Allowed o { limit := some n } :=
    ⟨nofun, nofun, nofun, nofun, nofun, nofun, fun _ same => Option.some.inj same ▸ positive, nofun⟩
  exact allowed.validate

/-- Validation is idempotent. -/
theorem revalidate_validated {o : ValidationOptions} {raw : Value} {q : Query} (h : validate o raw = .ok q) :
    revalidate o q = .ok q := by
  obtain ⟨fields, read⟩ := exists_readFrom h
  exact read.allowed.validate

def overdueBills : Value := .object
  [("where", .object [("and", .list
      [.object [("field", .text "due"), ("op", .text "<"), ("value", .date ⟨2024, 2, 29⟩)],
        .object [("field", .text "seen"), ("op", .text "!="), ("value", .moment ⟨⟨2024, 3, 1⟩, 8, 30, 0, 0, some 0⟩)],
        .object [("field", .text "rate"), ("op", .text "not  in"), ("value", .float .nan)],
        .object [("field", .text "paid"), ("op", .text "is null"), ("value", .bool false)]]), ("negate", .bool true)]),
    ("limit", .float (.ofRatio false 20 1))]

theorem revalidate_validated_overdueBills :
    ∃ q, validate .strict overdueBills = .ok q ∧ revalidate .strict q = .ok q ∧ q.limit = some 20 ∧
      (Predicate.leavesOf (q.filter.getD [])).map (·.value) =
        [.date ⟨2024, 2, 29⟩, .moment ⟨⟨2024, 3, 1⟩, 8, 30, 0, 0, some 0⟩, .float .nan, .null] := by
  have accepted : ((validate .strict overdueBills).toOption.map fun q =>
      (q.limit, (Predicate.leavesOf (q.filter.getD [])).map (·.value))) = some (some 20,
        [.date ⟨2024, 2, 29⟩, .moment ⟨⟨2024, 3, 1⟩, 8, 30, 0, 0, some 0⟩, .float .nan, .null]) := by decide +kernel
  obtain ⟨q, hq, seen⟩ := Option.map_eq_some_iff.mp accepted
  rw [toOption_eq_some] at hq
  obtain ⟨limit, values⟩ := Prod.mk.inj seen
  exact ⟨q, hq, revalidate_validated hq, limit, values⟩

end QueryGate
