import QueryGate.Proofs.Lookup
import QueryGate.Proofs.Outcome
import QueryGate.Validation.Query

/-! Objects that are let through, part by part: what each part was read from, and that there was nothing else. -/
namespace QueryGate
open Outcome

namespace PredicateShape

/-- The three ways in which an object is a predicate. -/
inductive FoundIn (fields : Fields) : PredicateShape → Prop
  | condition (tag : Form.predicateTag? fields = some .condition) (known : unknownKeys conditionKeys fields = []) :
      FoundIn fields (.condition (fields.firstOf ["field"]) (fields.firstOf ["operator", "op"]) (fields.firstOf ["value"]))
  | group (tag : Form.predicateTag? fields = some .group) (known : unknownKeys groupKeys fields = []) :
      FoundIn fields (.group (fields.firstOf Form.logicNames) (fields.firstOf Form.childrenNames)
        (fields.firstOf Form.negateNames))
  | shorthand {key : String} (tag : Form.predicateTag? fields = none) (only : fields.keys.filter isShorthand = [key])
      (known : unknownKeys (key :: Form.negateNames) fields = []) :
      FoundIn fields (.group (.text (Text.upper key)) (fields.firstOf [key]) (fields.firstOf Form.negateNames))

theorem foundIn_of_ofFields {fields : Fields} {shape : PredicateShape} (h : ofFields fields = .ok shape) :
    shape.FoundIn fields := by
  unfold ofFields at h
  split at h
  case h_1 tag =>
    unfold ofCondition at h
    split at h
    next known =>
      obtain rfl := Except.ok.inj h
      exact .condition tag known
    · exact absurd h nofun
  case h_2 tag =>
    unfold ofGroup at h
    split at h
    next known =>
      obtain rfl := Except.ok.inj h
      exact .group tag known
    · exact absurd h nofun
  case h_3 tag =>
    split at h
    · exact absurd h nofun
    · unfold ofShorthand at h
      split at h
      next only known =>
        obtain rfl := Except.ok.inj h
        rw [only] at known
        exact .shorthand tag only known
      · exact absurd h nofun

end PredicateShape

namespace Predicate

/-- What a predicate was read from, with some levels left below it. -/
inductive ReadFrom (o : ValidationOptions) (levels : Nat) : PredicateShape → Predicate → Prop
  | condition {field operator operand : Value} {c : Condition}
      (h : validateCondition o field operator operand = .ok c) :
      ReadFrom o levels (.condition field operator operand) (.condition c)
  | group {rawOperator rawChildren rawNegate : Value} {operator : Logic} {raws : List Value} {negate : Bool}
      {children : List Predicate} (operator_ok : validateLogic o rawOperator = .ok operator)
      (raws_ok : validateChildren o rawChildren = .ok raws) (negate_ok : validateNegation rawNegate = .ok negate)
      (children_ok : raws.mapM (validatePredicate o levels) = .ok children) :
      ReadFrom o levels (.group rawOperator rawChildren rawNegate) (.group operator children negate)

end Predicate

theorem validatePredicate_object {o : ValidationOptions} {levels : Nat} {fields : Fields} {p : Predicate} :
    validatePredicate o (levels + 1) (.object fields) = .ok p ↔
      ∃ shape, PredicateShape.ofFields fields = .ok shape ∧ Predicate.ReadFrom o levels shape p := by
  constructor
  · intro h
    obtain ⟨shape, hshape, h⟩ := bind_eq_ok.mp h
    refine ⟨shape, hshape, ?_⟩
    cases shape with
    | condition field operator operand =>
      obtain ⟨c, hc, rfl⟩ := map_eq_ok.mp h
      exact .condition hc
    | group rawOperator rawChildren rawNegate =>
      obtain ⟨operator, hoperator, h⟩ := bind_eq_ok.mp h
      obtain ⟨raws, hraws, h⟩ := bind_eq_ok.mp h
      obtain ⟨negate, hnegate, h⟩ := bind_eq_ok.mp h
      obtain ⟨children, hchildren, h⟩ := bind_eq_ok.mp h
      obtain rfl := Except.ok.inj h
      exact .group hoperator hraws hnegate hchildren
  · rintro ⟨shape, hshape, read⟩
    refine bind_eq_ok.mpr ⟨shape, hshape, ?_⟩
    cases read with
    | condition hc => exact map_eq_ok.mpr ⟨_, hc, rfl⟩
    | group hoperator hraws hnegate hchildren =>
      refine bind_eq_ok.mpr ⟨_, hoperator, ?_⟩
      refine bind_eq_ok.mpr ⟨_, hraws, ?_⟩
      refine bind_eq_ok.mpr ⟨_, hnegate, ?_⟩
      exact bind_eq_ok.mpr ⟨_, hchildren, rfl⟩

structure Join.ReadFrom (o : ValidationOptions) (fields : Fields) (j : Join) : Prop where
  known : PredicateShape.unknownKeys joinKeys fields = []
  kind : validateJoinKind (fields.firstOf ["type", "kind"]) = .ok j.kind
  table : validateTable "table" (fields.firstOf ["table"]) = .ok j.table
  label : validateLabel (fields.firstOf ["alias"]) = .ok j.label
  on : validateClause o "join" (fields.firstOf ["on"]) = .ok (some j.on)
  conditions : j.on ≠ []

theorem noUnknown_eq_ok {α : Type} {unknown : List String} {r : Rejection} {x : Except QueryFault α} {a : α} :
    (if !unknown.isEmpty then reject r else x) = .ok a ↔ unknown = [] ∧ x = .ok a := by
  rw [reject, unless_eq_ok, Bool.not_eq_true', Bool.not_eq_false, List.isEmpty_iff]

theorem validateJoin_object {o : ValidationOptions} {fields : Fields} {j : Join} :
    validateJoin o (.object fields) = .ok j ↔ j.ReadFrom o fields := by
  constructor
  · intro h
    obtain ⟨known, h⟩ := noUnknown_eq_ok.mp h
    obtain ⟨kind, hkind, h⟩ := bind_eq_ok.mp h
    obtain ⟨table, htable, h⟩ := bind_eq_ok.mp h
    obtain ⟨label, hlabel, h⟩ := bind_eq_ok.mp h
    obtain ⟨on, hon, h⟩ := bind_eq_ok.mp h
    split at h
    next p ps =>
      obtain rfl := Except.ok.inj h
      exact ⟨known, hkind, htable, hlabel, hon, List.cons_ne_nil p ps⟩
    · exact absurd h nofun
  · obtain ⟨kind, table, label, on⟩ := j
    rintro ⟨known, hkind, htable, hlabel, hon, some⟩
    refine noUnknown_eq_ok.mpr ⟨known, ?_⟩
    refine bind_eq_ok.mpr ⟨kind, hkind, ?_⟩
    refine bind_eq_ok.mpr ⟨table, htable, ?_⟩
    refine bind_eq_ok.mpr ⟨label, hlabel, ?_⟩
    refine bind_eq_ok.mpr ⟨_, hon, ?_⟩
    cases on with
    | nil => exact absurd rfl some
    | cons p ps => rfl

structure Order.ReadFrom (o : ValidationOptions) (fields : Fields) (order : Order) : Prop where
  known : PredicateShape.unknownKeys orderKeys fields = []
  field : validateOrderName o (fields.firstOf ["field"]) = .ok order.field
  direction : validateDirection (fields.firstOf ["direction"]) = .ok order.direction

theorem validateOrder_object {o : ValidationOptions} {fields : Fields} {order : Order} :
    validateOrder o (.object fields) = .ok order ↔ order.ReadFrom o fields := by
  constructor
  · intro h
    obtain ⟨known, h⟩ := noUnknown_eq_ok.mp h
    obtain ⟨field, hfield, h⟩ := bind_eq_ok.mp h
    obtain ⟨direction, hdirection, h⟩ := bind_eq_ok.mp h
    obtain rfl := Except.ok.inj h
    exact ⟨known, hfield, hdirection⟩
  · rintro ⟨known, hfield, hdirection⟩
    refine noUnknown_eq_ok.mpr ⟨known, ?_⟩
    refine bind_eq_ok.mpr ⟨_, hfield, ?_⟩
    exact bind_eq_ok.mpr ⟨_, hdirection, rfl⟩

structure Query.ReadFrom (o : ValidationOptions) (fields : Fields) (q : Query) : Prop where
  known : PredicateShape.unknownKeys clauseNames fields = []
  select : validateNames "select" o.maxSelect (fields.firstOf ["select"]) = .ok q.select
  joins : validateJoins o (fields.firstOf ["joins"]) = .ok q.joins
  filter : validateClause o "where" (fields.firstOf ["where"]) = .ok q.filter
  groupBy : validateNames "groupBy" o.maxGroupBy (fields.firstOf Form.groupByNames) = .ok q.groupBy
  having : validateClause o "having" (fields.firstOf ["having"]) = .ok q.having
  orderBy : validateOrders o (fields.firstOf Form.orderByNames) = .ok q.orderBy
  limit : validateCount 1 .invalidLimit (fields.firstOf ["limit"]) = .ok q.limit
  offset : validateCount 0 .invalidOffset (fields.firstOf ["offset"]) = .ok q.offset

theorem validate_object {o : ValidationOptions} {fields : Fields} {q : Query} :
    validate o (.object fields) = .ok q ↔ q.ReadFrom o fields := by
  constructor
  · intro h
    obtain ⟨known, h⟩ := noUnknown_eq_ok.mp h
    obtain ⟨select, hselect, h⟩ := bind_eq_ok.mp h
    obtain ⟨joins, hjoins, h⟩ := bind_eq_ok.mp h
    obtain ⟨filter, hfilter, h⟩ := bind_eq_ok.mp h
    obtain ⟨groupBy, hgroupBy, h⟩ := bind_eq_ok.mp h
    obtain ⟨having, hhaving, h⟩ := bind_eq_ok.mp h
    obtain ⟨orderBy, horderBy, h⟩ := bind_eq_ok.mp h
    obtain ⟨limit, hlimit, h⟩ := bind_eq_ok.mp h
    obtain ⟨offset, hoffset, h⟩ := bind_eq_ok.mp h
    obtain rfl := Except.ok.inj h
    exact ⟨known, hselect, hjoins, hfilter, hgroupBy, hhaving, horderBy, hlimit, hoffset⟩
  · rintro ⟨known, hselect, hjoins, hfilter, hgroupBy, hhaving, horderBy, hlimit, hoffset⟩
    refine noUnknown_eq_ok.mpr ⟨known, ?_⟩
    refine bind_eq_ok.mpr ⟨_, hselect, ?_⟩
    refine bind_eq_ok.mpr ⟨_, hjoins, ?_⟩
    refine bind_eq_ok.mpr ⟨_, hfilter, ?_⟩
    refine bind_eq_ok.mpr ⟨_, hgroupBy, ?_⟩
    refine bind_eq_ok.mpr ⟨_, hhaving, ?_⟩
    refine bind_eq_ok.mpr ⟨_, horderBy, ?_⟩
    refine bind_eq_ok.mpr ⟨_, hlimit, ?_⟩
    exact bind_eq_ok.mpr ⟨_, hoffset, rfl⟩

theorem exists_readFrom {o : ValidationOptions} {raw : Value} {q : Query} (h : validate o raw = .ok q) :
    ∃ fields, q.ReadFrom o fields := by
  unfold validate at h
  split at h
  · -- nothing at all reads as an object without fields
    obtain rfl := Except.ok.inj h
    exact ⟨[], PredicateShape.unknownKeys_eq_nil.mpr (List.forall_mem_nil _), rfl, rfl, rfl, rfl, rfl, rfl, rfl, rfl⟩
  · exact ⟨_, validate_object.mp h⟩
  · exact absurd h nofun

end QueryGate
