import QueryGate.Proofs.AllowedQuery
import QueryGate.Proofs.Lookup
import QueryGate.Proofs.QueryFaults
import QueryGate.Proofs.ReadFrom

/-! The canonical form of a query as it is sent: one spelling for each key and each word, defaults written out, and
nothing written for what is absent. It depends on no options, and a query that is let through is the one that its
canonical form spells out. -/
namespace QueryGate
open Outcome

namespace Canonical

def given (key : String) (v : Value) : Fields := if v.isNull then [] else [(key, v)]

def upper : Value → Value
  | .text s => .text (Text.upper s)
  | v => v

def upperOr (default : String) (v : Value) : Value := if v.isEmpty then .text default else upper v

def operatorWords : Value → Value
  | .text s => .text (" ".intercalate ((Text.words (Text.upper s).toList).map String.ofList))
  | v => v

def takesNothing (operator : Value) : Bool :=
  operator.text?.any fun s => s == "IS NULL" || s == "IS NOT NULL"

def condition (field operator operand : Value) : Value :=
  .object ([("field", field), ("operator", operator)] ++
    if takesNothing operator then [] else given "value" operand)

def group (operator children negate : Value) : Value :=
  .object [("operator", operator), ("conditions", children), ("not", if negate.isNull then .bool false else negate)]

/-- A predicate by its fields, which are also given with the predicates below each of them in canonical form. -/
def predicateOf (fields below : Fields) : Value :=
  if fields.has "field" then
    condition (fields.firstOf ["field"]) (operatorWords (fields.firstOf ["operator", "op"])) (fields.firstOf ["value"])
  else if fields.has "conditions" || fields.has "children" then
    group (upper (fields.firstOf ["operator", "logicalOperator", "logical_operator"]))
      (below.firstOf ["conditions", "children"]) (fields.firstOf ["not", "negate"])
  else
    match fields.keys.find? fun key => ["AND", "OR"].contains (Text.upper key) with
    | some key => group (upper (.text key)) (below.firstOf [key]) (fields.firstOf ["not", "negate"])
    | none => .object fields

mutual
def predicate : Value → Value
  | .object fields => predicateOf fields (eachBelow fields)
  | v => v
termination_by structural v => v
def predicates : Value → Value
  | .list items => .list (predicateItems items)
  | v => v
termination_by structural v => v
def predicateItems : List Value → List Value
  | [] => []
  | v :: rest => predicate v :: predicateItems rest
termination_by structural vs => vs
def eachBelow : List (String × Value) → List (String × Value)
  | [] => []
  | (key, v) :: rest => (key, predicates v) :: eachBelow rest
termination_by structural fs => fs
end

def listed : Value → Value
  | .object fields => .list [.object fields]
  | v => v

def clause (v : Value) : Value := predicates (listed v)

def each (form : Fields → Value) : Value → Value
  | .list items => .list (items.map fun item => (item.object?.map form).getD item)
  | v => v

def join (fields : Fields) : Value :=
  .object ([("type", upperOr "INNER" (fields.firstOf ["type", "kind"])), ("table", fields.firstOf ["table"])] ++
    given "alias" (fields.firstOf ["alias"]) ++ [("on", clause (fields.firstOf ["on"]))])

def order (fields : Fields) : Value :=
  .object [("field", fields.firstOf ["field"]), ("direction", upperOr "ASC" (fields.firstOf ["direction"]))]

def count : Value → Value
  | .float x => (x.toInt?.map .int).getD (.float x)
  | v => v

def query (fields : Fields) : Value :=
  .object (given "select" (fields.firstOf ["select"]) ++
    given "where" (clause (fields.firstOf ["where"])) ++
    given "joins" (each join (fields.firstOf ["joins"])) ++
    given "groupBy" (fields.firstOf ["groupBy", "group_by"]) ++
    given "having" (clause (fields.firstOf ["having"])) ++
    given "orderBy" (each order (listed (fields.firstOf ["orderBy", "order_by"]))) ++
    given "limit" (count (fields.firstOf ["limit"])) ++
    given "offset" (count (fields.firstOf ["offset"])))

@[simp] theorem given_null (key : String) : given key .null = [] := rfl

theorem given_optional {α : Type} (key : String) (wire : α → Value) (notNull : ∀ a, (wire a).isNull = false)
    (clause : Option α) : given key ((clause.map wire).getD .null) = optionalField key (clause.map wire) := by
  cases clause with
  | none => rfl
  | some a =>
    show (if (wire a).isNull then [] else [(key, wire a)]) = [(key, wire a)]
    rw [notNull a, if_neg Bool.false_ne_true]

theorem value?_eachBelow (fields : Fields) (key : String) :
    Fields.value? (eachBelow fields) key = (fields.value? key).map predicates := by
  induction fields with
  | nil => rfl
  | cons field rest ih =>
    obtain ⟨name, v⟩ := field
    rw [eachBelow, Fields.value?_cons, Fields.value?_cons, ih]
    cases key == name <;> rfl

theorem firstOf_eachBelow (fields : Fields) (keys : List String) :
    Fields.firstOf (eachBelow fields) keys = predicates (fields.firstOf keys) := by
  induction keys with
  | nil => rfl
  | cons key keys ih =>
    rw [Fields.firstOf_cons, Fields.firstOf_cons, value?_eachBelow, ih]
    cases fields.value? key <;> rfl

theorem predicateItems_eq_map (items : List Value) : predicateItems items = items.map predicate := by
  induction items with
  | nil => rfl
  | cons v rest ih => rw [predicateItems, ih, List.map_cons]

end Canonical

open Canonical

theorem validateField_eq {o : ValidationOptions} {v : Value} {name : String} (h : validateField o v = .ok name) :
    v = .text name := by
  unfold validateField at h
  split at h
  · obtain ⟨-, h⟩ := when_eq_ok.mp h
    rw [Except.ok.inj h]
  · exact absurd h nofun

theorem spell_of_find? {α : Type} (all : List α) (spell : α → String) {s : String} {a : α}
    (h : all.find? (fun a => spell a == s) = some a) : spell a = s := by
  simpa only [beq_iff_eq] using List.find?_some h

theorem Operator.text_of_ofText? {s : String} {operator : Operator} (h : ofText? s = some operator) :
    operator.text = s := spell_of_find? all text h

theorem Logic.text_of_ofText? {s : String} {operator : Logic} (h : ofText? s = some operator) :
    operator.text = s := spell_of_find? all text h

theorem JoinKind.text_of_ofText? {s : String} {kind : JoinKind} (h : ofText? s = some kind) :
    kind.text = s := spell_of_find? all text h

theorem Direction.text_of_ofText? {s : String} {direction : Direction} (h : ofText? s = some direction) :
    direction.text = s := spell_of_find? all text h

theorem text_of_bind {α : Type} {find : String → Option α} {v : Value} {a : α} (h : v.text?.bind find = some a) :
    ∃ s, v = .text s ∧ find s = some a := by
  obtain ⟨s, text, found⟩ := Option.bind_eq_some_iff.mp h
  exact ⟨s, Value.text?_eq_some.mp text, found⟩

theorem validateOperator_text? {o : ValidationOptions} {v : Value} {operator : Operator}
    (h : validateOperator o v = .ok operator) :
    ∃ s, v = .text s ∧ Operator.ofText? (spellOperator s) = some operator := by
  unfold validateOperator at h
  split at h
  next found =>
    obtain ⟨-, h⟩ := when_eq_ok.mp h
    rw [Except.ok.inj h] at found
    exact text_of_bind found
  · exact absurd h nofun

theorem validateOperator_eq {o : ValidationOptions} {v : Value} {operator : Operator}
    (h : validateOperator o v = .ok operator) : operatorWords v = .text operator.text := by
  obtain ⟨s, rfl, found⟩ := validateOperator_text? h
  rw [Operator.text_of_ofText? found, operatorWords, spellOperator]

theorem takesNothing_text (operator : Operator) : takesNothing (.text operator.text) = operator.isUnary := by
  cases operator <;> decide

theorem validateCondition_canonical {o : ValidationOptions} {field operator operand : Value} {c : Condition}
    (h : validateCondition o field operator operand = .ok c) : c.toWire = condition field (operatorWords operator) operand := by
  obtain ⟨name, hname, h⟩ := bind_eq_ok.mp h
  obtain ⟨op, hop, h⟩ := bind_eq_ok.mp h
  rw [validateField_eq hname, validateOperator_eq hop, condition, takesNothing_text]
  cases unary : op.isUnary with
  | true =>
    rw [unary] at h
    obtain rfl := Except.ok.inj h
    rfl
  | false =>
    rw [unary] at h
    obtain ⟨notNull, h⟩ := unless_eq_ok.mp h
    obtain ⟨s, hs, h⟩ := bind_eq_ok.mp h
    obtain rfl := Except.ok.inj h
    obtain ⟨rfl, -⟩ := validateOperand_ok hs
    have given_operand : given "value" (.scalar s) = [("value", .scalar s)] := if_neg notNull
    have present : s ≠ .null := fun null => notNull (null ▸ rfl)
    rw [given_operand, Condition.toWire, if_neg present]
    rfl

theorem validateLogic_eq {o : ValidationOptions} {v : Value} {operator : Logic} (h : validateLogic o v = .ok operator) :
    upper v = .text operator.text := by
  unfold validateLogic at h
  split at h
  · exact absurd h nofun
  · exact absurd h nofun
  · split at h
    next found =>
      obtain ⟨-, h⟩ := when_eq_ok.mp h
      obtain rfl := Except.ok.inj h
      obtain ⟨s, text, found⟩ := text_of_bind found
      rw [text, upper, Logic.text_of_ofText? found]
    · exact absurd h nofun

theorem validateNegation_eq {v : Value} {negate : Bool} (h : validateNegation v = .ok negate) :
    (if v.isNull then .bool false else v) = .bool negate := by
  unfold validateNegation at h
  split at h
  · rw [← Except.ok.inj h]
    rfl
  · rw [← Except.ok.inj h]
    rfl
  · exact absurd h nofun

theorem predicateOf_condition {fields below : Fields} (tag : Form.predicateTag? fields = some .condition) :
    predicateOf fields below = condition (fields.firstOf ["field"]) (operatorWords (fields.firstOf ["operator", "op"]))
      (fields.firstOf ["value"]) := by
  unfold Form.predicateTag? at tag
  split at tag
  next field => exact if_pos field
  next => split at tag <;> exact absurd tag nofun

theorem predicateOf_group {fields below : Fields} (tag : Form.predicateTag? fields = some .group) :
    predicateOf fields below = group (upper (fields.firstOf Form.logicNames)) (below.firstOf Form.childrenNames)
      (fields.firstOf Form.negateNames) := by
  unfold Form.predicateTag? at tag
  split at tag
  next => exact absurd tag nofun
  next noField =>
    split at tag
    next children =>
      rw [predicateOf, if_neg noField, if_pos children]
      rfl
    next => exact absurd tag nofun

theorem isShorthand_eq (key : String) :
    PredicateShape.isShorthand key = ["AND", "OR"].contains (Text.upper key) := by
  unfold PredicateShape.isShorthand Logic.ofText? Logic.all
  generalize Text.upper key = word
  by_cases conj : word = "AND"
  · subst conj
    rfl
  · by_cases disj : word = "OR"
    · subst disj
      rfl
    · simp [Logic.text, conj, disj, Ne.symm conj, Ne.symm disj]

theorem predicateOf_shorthand {fields below : Fields} {key : String} (tag : Form.predicateTag? fields = none)
    (only : fields.keys.filter PredicateShape.isShorthand = [key]) :
    predicateOf fields below = group (upper (.text key)) (below.firstOf [key]) (fields.firstOf Form.negateNames) := by
  have found : (fields.keys.find? fun key => ["AND", "OR"].contains (Text.upper key)) = some key := by
    have first : fields.keys.find? PredicateShape.isShorthand = some key := by
      rw [← List.head?_filter, only, List.head?_cons]
    rwa [funext isShorthand_eq] at first
  unfold Form.predicateTag? at tag
  split at tag
  next => exact absurd tag nofun
  next noField =>
    split at tag
    next => exact absurd tag nofun
    next noChildren =>
      rw [predicateOf, if_neg noField, if_neg noChildren, found]
      rfl

theorem Logic.upper_text (operator : Logic) : Text.upper operator.text = operator.text := by cases operator <;> decide

/-- An object is written as the shape that was found in it. -/
def PredicateShape.written : PredicateShape → Value
  | .condition field operator operand => Canonical.condition field (operatorWords operator) operand
  | .group operator children negate => Canonical.group (upper operator) (predicates children) negate

theorem ofFields_canonical {fields : Fields} {shape : PredicateShape} (h : PredicateShape.ofFields fields = .ok shape) :
    predicate (.object fields) = shape.written := by
  rw [predicate]
  cases PredicateShape.foundIn_of_ofFields h with
  | condition tag => rw [predicateOf_condition tag, PredicateShape.written]
  | group tag => rw [predicateOf_group tag, PredicateShape.written, firstOf_eachBelow]
  | @shorthand key tag only =>
    have shorthand : key ∈ fields.keys.filter PredicateShape.isShorthand := by
      rw [only]
      exact List.mem_singleton_self key
    obtain ⟨operator, word⟩ := Option.isSome_iff_exists.mp (List.mem_filter.mp shorthand).2
    have spelled := Logic.text_of_ofText? word
    rw [predicateOf_shorthand tag only, PredicateShape.written, firstOf_eachBelow, upper, upper, ← spelled,
      Logic.upper_text]

theorem validatePredicate_canonical {o : ValidationOptions} {levels : Nat} {raw : Value} {p : Predicate}
    (h : validatePredicate o levels raw = .ok p) : p.toWire = predicate raw := by
  induction levels generalizing raw p with
  | zero => exact absurd h nofun
  | succ levels ih =>
    cases raw with
    | scalar s => exact absurd h nofun
    | list items => exact absurd h nofun
    | object fields =>
      obtain ⟨shape, hshape, read⟩ := validatePredicate_object.mp h
      rw [ofFields_canonical hshape]
      cases read with
      | condition hc => exact validateCondition_canonical hc
      | group hoperator hraws hnegate hchildren =>
        obtain rfl := validateChildren_eq hraws
        have below := map_eq_of_mapM hchildren fun raw _ child hchild => ih hchild
        rw [PredicateShape.written, Canonical.group, validateLogic_eq hoperator, validateNegation_eq hnegate, predicates,
          predicateItems_eq_map, ← below, ← Predicate.toWireAll_eq_map]
        rfl

theorem validatePredicates_canonical {o : ValidationOptions} {levels : Nat} {items : List Value} {ps : List Predicate}
    (h : items.mapM (validatePredicate o levels) = .ok ps) :
    .list (Predicate.toWireAll ps) = predicates (.list items) := by
  have each := map_eq_of_mapM h fun raw _ p hp => validatePredicate_canonical hp
  rw [predicates, predicateItems_eq_map, ← each, Predicate.toWireAll_eq_map]

theorem validateClause_canonical {o : ValidationOptions} {name : String} {v : Value} {result : Option (List Predicate)}
    (h : validateClause o name v = .ok result) :
    (result.map fun ps => .list (Predicate.toWireAll ps)).getD .null = clause v := by
  unfold validateClause at h
  split at h
  · rw [← Except.ok.inj h]
    rfl
  · obtain ⟨ps, hps, rfl⟩ := map_eq_ok.mp h
    exact validatePredicates_canonical hps
  · obtain ⟨ps, hps, rfl⟩ := map_eq_ok.mp h
    exact validatePredicates_canonical hps
  · exact absurd h nofun

theorem validateListedName_eq {clause : String} {v : Value} {name : String}
    (h : validateListedName clause v = .ok name) : .text name = v := by
  unfold validateListedName at h
  split at h
  · split at h
    · rw [← Except.ok.inj h]
    · obtain ⟨-, h⟩ := unless_eq_ok.mp h
      obtain ⟨-, h⟩ := unless_eq_ok.mp h
      obtain ⟨-, h⟩ := unless_eq_ok.mp h
      rw [← Except.ok.inj h]
  · exact absurd h nofun

theorem validateNames_canonical {clause : String} {most : Int} {v : Value} {result : Option (List String)}
    (h : validateNames clause most v = .ok result) : (result.map textList).getD .null = v := by
  unfold validateNames at h
  split at h
  · rw [← Except.ok.inj h]
    rfl
  · obtain ⟨-, h⟩ := unless_eq_ok.mp h
    obtain ⟨names, hnames, rfl⟩ := map_eq_ok.mp h
    have each : names.map Value.text = _ := map_eq_of_mapM hnames fun v _ name hname => validateListedName_eq hname
    rw [List.map_id'] at each
    exact congrArg Value.list each
  · exact absurd h nofun

theorem wordOr_eq (default : String) (v : Value) : wordOr default v = upperOr default v := by
  unfold wordOr upperOr
  cases v with
  | scalar s => cases s <;> rfl
  | list items => rfl
  | object fields => rfl

theorem validateJoinKind_eq {v : Value} {kind : JoinKind} (h : validateJoinKind v = .ok kind) :
    .text kind.text = upperOr "INNER" v := by
  unfold validateJoinKind at h
  simp only at h
  split at h
  next found =>
    obtain ⟨s, word, found⟩ := text_of_bind found
    rw [← wordOr_eq, word, ← Except.ok.inj h, JoinKind.text_of_ofText? found]
  · exact absurd h nofun

theorem validateDirection_eq {v : Value} {direction : Direction} (h : validateDirection v = .ok direction) :
    .text direction.text = upperOr "ASC" v := by
  unfold validateDirection at h
  split at h
  next found =>
    obtain ⟨s, word, found⟩ := text_of_bind found
    rw [← wordOr_eq, word, ← Except.ok.inj h, Direction.text_of_ofText? found]
  · exact absurd h nofun

theorem validateLabel_canonical {v : Value} {label : Option String} (h : validateLabel v = .ok label) :
    (label.map .text).getD .null = v := by
  unfold validateLabel at h
  split at h
  · rw [← Except.ok.inj h]
    rfl
  · obtain ⟨name, hname, rfl⟩ := map_eq_ok.mp h
    exact (validateTable_ok hname).1.symm

theorem validateJoin_canonical {o : ValidationOptions} {fields : Fields} {j : Join} (h : j.ReadFrom o fields) :
    j.toWire = Canonical.join fields := by
  have table := (validateTable_ok h.table).1
  have on := validateClause_canonical h.on
  have label : optionalField "alias" (j.label.map .text) = given "alias" (fields.firstOf ["alias"]) := by
    rw [← given_optional "alias" Value.text fun _ => rfl, validateLabel_canonical h.label]
  rw [Join.toWire, Canonical.join, validateJoinKind_eq h.kind, table, label, ← on]
  rfl

theorem validateOrderName_eq {o : ValidationOptions} {v : Value} {name : String}
    (h : validateOrderName o v = .ok name) : v = .text name := by
  unfold validateOrderName at h
  split at h
  · obtain ⟨-, h⟩ := when_eq_ok.mp h
    rw [Except.ok.inj h]
  · exact absurd h nofun

theorem validateOrder_canonical {o : ValidationOptions} {fields : Fields} {order : Order} (h : order.ReadFrom o fields) :
    order.toWire = Canonical.order fields := by
  rw [Order.toWire, Canonical.order, validateOrderName_eq h.field, validateDirection_eq h.direction]

theorem each_eq {α : Type} {read : Value → Except QueryFault α} {wire : α → Value} {form : Fields → Value}
    (item : ∀ v a, read v = .ok a → ∃ fields, v = .object fields ∧ wire a = form fields) {items : List Value}
    {result : List α} (h : items.mapM read = .ok result) : .list (result.map wire) = each form (.list items) := by
  refine congrArg Value.list (map_eq_of_mapM h fun v _ a ha => ?_)
  obtain ⟨fields, rfl, written⟩ := item v a ha
  exact written

theorem validateJoins_canonical {o : ValidationOptions} {v : Value} {result : Option (List Join)}
    (h : validateJoins o v = .ok result) : (result.map fun js => .list (js.map Join.toWire)).getD .null = each join v := by
  have item (v : Value) (j : Join) (h : validateJoin o v = .ok j) :
      ∃ fields, v = .object fields ∧ j.toWire = Canonical.join fields := by
    cases v with
    | scalar s => exact absurd h nofun
    | list items => exact absurd h nofun
    | object fields => exact ⟨fields, rfl, validateJoin_canonical (validateJoin_object.mp h)⟩
  unfold validateJoins at h
  split at h
  · rw [← Except.ok.inj h]
    rfl
  · obtain ⟨js, hjs, rfl⟩ := map_eq_ok.mp h
    exact each_eq item hjs
  · exact absurd h nofun

theorem validateOrders_canonical {o : ValidationOptions} {v : Value} {result : Option (List Order)}
    (h : validateOrders o v = .ok result) :
    (result.map fun orders => .list (orders.map Order.toWire)).getD .null = each order (listed v) := by
  have item (v : Value) (order : Order) (h : validateOrder o v = .ok order) :
      ∃ fields, v = .object fields ∧ order.toWire = Canonical.order fields := by
    cases v with
    | scalar s => exact absurd h nofun
    | list items => exact absurd h nofun
    | object fields => exact ⟨fields, rfl, validateOrder_canonical (validateOrder_object.mp h)⟩
  unfold validateOrders at h
  split at h
  · rw [← Except.ok.inj h]
    rfl
  · obtain ⟨orders, horders, rfl⟩ := map_eq_ok.mp h
    exact each_eq item horders
  · obtain ⟨orders, horders, rfl⟩ := map_eq_ok.mp h
    exact each_eq item horders
  · exact absurd h nofun

theorem validateCount_canonical {least : Int} {broken : Rejection} {v : Value} {result : Option Int}
    (h : validateCount least broken v = .ok result) : (result.map .int).getD .null = count v := by
  unfold validateCount at h
  split at h
  · rw [← Except.ok.inj h]
    rfl
  · split at h
    next found =>
      obtain ⟨-, h⟩ := when_eq_ok.mp h
      rw [← Except.ok.inj h]
      unfold wholeNumber? at found
      split at found
      · rw [Option.some.inj found]
        rfl
      · rw [count, found]
        rfl
      · exact absurd found nofun
    · exact absurd h nofun

/-- What is let through is the canonical form of what was sent, whatever the options. -/
theorem validate_canonical {o : ValidationOptions} {fields : Fields} {q : Query}
    (h : validate o (.object fields) = .ok q) : q.toWire = Canonical.query fields := by
  have read := validate_object.mp h
  have names (key : String) (names : Option (List String)) :=
    given_optional key textList (fun _ => rfl) names
  have conditions (key : String) (ps : Option (List Predicate)) :=
    given_optional key (fun ps => Value.list (Predicate.toWireAll ps)) (fun _ => rfl) ps
  have joins := given_optional "joins" (fun js => Value.list (js.map Join.toWire)) (fun _ => rfl) q.joins
  have orders := given_optional "orderBy" (fun os => Value.list (os.map Order.toWire)) (fun _ => rfl) q.orderBy
  have counts (key : String) (n : Option Int) := given_optional key Value.int (fun _ => rfl) n
  rw [Query.toWire, Canonical.query]
  rw [← names, ← names, ← conditions, ← conditions, ← joins, ← orders, ← counts, ← counts]
  rw [validateNames_canonical read.select, validateNames_canonical read.groupBy, validateClause_canonical read.filter,
    validateClause_canonical read.having, validateJoins_canonical read.joins, validateOrders_canonical read.orderBy,
    validateCount_canonical read.limit, validateCount_canonical read.offset]
  rfl

def mixedSpellings : Fields :=
  [("order_by", .object [("direction", .text "desc"), ("field", .text "u.age")]),
    ("where", .object [("not", .null), ("Or", .list
      [.object [("op", .text "is  not\tnull"), ("field", .text "note"), ("value", .int 1)],
        .object [("logicalOperator", .text "and"), ("negate", .bool true), ("children", .list
          [.object [("value", .float (.ofRatio false 18 1)), ("field", .text "u.age"), ("operator", .text " >= ")]])]])]),
    ("joins", .list [.object [("alias", .null), ("kind", .text "left"), ("table", .text "users"),
      ("on", .object [("field", .text "u.id"), ("operator", .text "="), ("value", .text "orders.user_id")])]]),
    ("limit", .float (.ofRatio false 5 1)), ("offset", .null)]

theorem validate_canonical_mixedSpellings :
    ∃ q, validate .strict (.object mixedSpellings) = .ok q ∧ q.toWire = Canonical.query mixedSpellings ∧
      q.toWire.matchesBy (· == ·) (.object
        [("where", .list [.object [("operator", .text "OR"), ("conditions", .list
            [.object [("field", .text "note"), ("operator", .text "IS NOT NULL")],
              .object [("operator", .text "AND"), ("conditions", .list [.object [("field", .text "u.age"),
                ("operator", .text ">="), ("value", .float (.ofRatio false 18 1))]]), ("not", .bool true)]]),
            ("not", .bool false)]]),
          ("joins", .list [.object [("type", .text "LEFT"), ("table", .text "users"), ("on", .list
            [.object [("field", .text "u.id"), ("operator", .text "="), ("value", .text "orders.user_id")]])]]),
          ("orderBy", .list [.object [("field", .text "u.age"), ("direction", .text "DESC")]]),
          ("limit", .int 5)]) = true := by
  have accepted : (validate .strict (.object mixedSpellings)).toOption.isSome = true := by decide +kernel
  obtain ⟨q, hq⟩ := Option.isSome_iff_exists.mp accepted
  rw [toOption_eq_some] at hq
  have canonical := validate_canonical hq
  refine ⟨q, hq, canonical, ?_⟩
  rw [canonical]
  decide +kernel

end QueryGate
