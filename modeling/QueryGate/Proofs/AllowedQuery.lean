import QueryGate.Proofs.AllowedCondition
import QueryGate.Proofs.ReadFrom
import QueryGate.Proofs.Tree

/-! What a query that was let through satisfies, at every level of its trees of conditions. -/
namespace QueryGate
open Outcome

def Predicate.Allowed (o : ValidationOptions) : Predicate → Prop
  | .condition c => c.Allowed o
  | .group operator children _ =>
    1 ≤ children.length ∧ (children.length : Int) ≤ o.maxConditions ∧ operator ∈ o.connectives

/-- Trees of conditions that are allowed at every level and not deeper than may be. -/
def AllowedTrees (o : ValidationOptions) (ps : List Predicate) : Prop :=
  ∀ root ∈ ps, ∀ depth p, root.At depth p → (depth : Int) ≤ o.maxDepth ∧ p.Allowed o

/-- An entry of a field list: the star, or words joined by dots that are harmless and no keywords. -/
def AllowedEntry (name : String) : Prop :=
  name = "*" ∨ Danger.isDangerous name = false ∧ Name.isDotted name.toList = true ∧
    ∀ part ∈ name.toList.splitOn '.', Danger.isKeyword (String.ofList part) = false

structure Join.Allowed (o : ValidationOptions) (j : Join) : Prop where
  table : Name.isTable j.table.toList = true
  label : ∀ label ∈ j.label, Name.isTable label.toList = true
  conditions : j.on ≠ []
  on : AllowedTrees o j.on

structure Query.Allowed (o : ValidationOptions) (q : Query) : Prop where
  select : ∀ names ∈ q.select, (names.length : Int) ≤ o.maxSelect ∧ ∀ name ∈ names, AllowedEntry name
  joins : ∀ js ∈ q.joins, ∀ j ∈ js, j.Allowed o
  filter : ∀ ps ∈ q.filter, AllowedTrees o ps
  groupBy : ∀ names ∈ q.groupBy, (names.length : Int) ≤ o.maxGroupBy ∧ ∀ name ∈ names, AllowedEntry name
  having : ∀ ps ∈ q.having, AllowedTrees o ps
  orderBy : ∀ orders ∈ q.orderBy, ∀ order ∈ orders, AllowedField o order.field
  limit : ∀ n ∈ q.limit, 1 ≤ n
  offset : ∀ n ∈ q.offset, 0 ≤ n

theorem AllowedTrees.leaves {o : ValidationOptions} {ps : List Predicate} (h : AllowedTrees o ps) :
    ∀ c ∈ Predicate.leavesOf ps, c.Allowed o := by
  intro c hc
  obtain ⟨root, hroot, hc⟩ := Predicate.mem_leavesOf.mp hc
  obtain ⟨depth, hdepth⟩ := Predicate.at_of_mem_leaves hc
  exact (h root hroot depth _ hdepth).2

theorem validateLogic_ok {o : ValidationOptions} {v : Value} {operator : Logic} (h : validateLogic o v = .ok operator) :
    operator ∈ o.connectives := by
  unfold validateLogic at h
  split at h
  · exact absurd h nofun
  · exact absurd h nofun
  · split at h
    · obtain ⟨allowed, h⟩ := when_eq_ok.mp h
      exact Except.ok.inj h ▸ List.contains_iff_mem.mp allowed
    · exact absurd h nofun

theorem validateChildren_ok {o : ValidationOptions} {v : Value} {children : List Value}
    (h : validateChildren o v = .ok children) :
    1 ≤ children.length ∧ (children.length : Int) ≤ o.maxConditions := by
  unfold validateChildren at h
  split at h
  · obtain ⟨some, h⟩ := unless_eq_ok.mp h
    obtain ⟨few, h⟩ := unless_eq_ok.mp h
    obtain rfl := Except.ok.inj h
    rw [List.isEmpty_iff] at some
    exact ⟨List.length_pos_iff.mpr some, Int.not_lt.mp few⟩
  · exact absurd h nofun

theorem validatePredicate_cases {o : ValidationOptions} {levels : Nat} {raw : Value} {p : Predicate}
    (h : validatePredicate o levels raw = .ok p) :
    ∃ rest, levels = rest + 1 ∧
      ((∃ c, p = .condition c ∧ c.Allowed o) ∨
        ∃ operator children negate, p = .group operator children negate ∧ p.Allowed o ∧
          ∀ child ∈ children, ∃ v, validatePredicate o rest v = .ok child) := by
  cases levels with
  | zero => exact absurd h nofun
  | succ rest =>
    refine ⟨rest, rfl, ?_⟩
    cases raw with
    | scalar s => exact absurd h nofun
    | list items => exact absurd h nofun
    | object fields =>
      obtain ⟨shape, -, h⟩ := bind_eq_ok.mp h
      cases shape with
      | condition field operator operand =>
        obtain ⟨c, hc, rfl⟩ := map_eq_ok.mp h
        exact .inl ⟨c, rfl, validateCondition_ok hc⟩
      | group operator children negate =>
        obtain ⟨operator, hoperator, h⟩ := bind_eq_ok.mp h
        obtain ⟨raws, hraws, h⟩ := bind_eq_ok.mp h
        obtain ⟨negate, -, h⟩ := bind_eq_ok.mp h
        obtain ⟨children, hchildren, h⟩ := bind_eq_ok.mp h
        obtain rfl := Except.ok.inj h
        obtain ⟨same, results⟩ := mapM_ok hchildren
        obtain ⟨some, few⟩ := validateChildren_ok hraws
        refine .inr ⟨operator, children, negate, rfl, ⟨same ▸ some, same ▸ few, validateLogic_ok hoperator⟩, ?_⟩
        exact fun child hc => (results child hc).imp fun _ => And.right

theorem validatePredicate_ok {o : ValidationOptions} {levels : Nat} {raw : Value} {root : Predicate}
    (h : validatePredicate o levels raw = .ok root) {depth : Nat} {p : Predicate} (hp : root.At depth p) :
    depth < levels ∧ p.Allowed o := by
  -- along the path from the root, each step of which uses up a level
  induction hp generalizing levels raw with
  | here root =>
    obtain ⟨rest, rfl, ⟨c, rfl, allowed⟩ | ⟨_, _, _, -, allowed, -⟩⟩ := validatePredicate_cases h
    · exact ⟨Nat.succ_pos rest, allowed⟩
    · exact ⟨Nat.succ_pos rest, allowed⟩
  | under hc _ ih =>
    obtain ⟨rest, rfl, ⟨c, isCondition, -⟩ | ⟨_, _, _, same, -, results⟩⟩ := validatePredicate_cases h
    · exact absurd isCondition nofun
    · obtain ⟨rfl, rfl, rfl⟩ := Predicate.group.inj same
      obtain ⟨v, hv⟩ := results _ hc
      exact (ih hv).imp_left Nat.succ_lt_succ

theorem allowedTrees_of_mapM {o : ValidationOptions} {raws : List Value} {ps : List Predicate}
    (h : raws.mapM (validatePredicate o o.levels) = .ok ps) : AllowedTrees o ps := by
  intro root hroot depth p hp
  obtain ⟨raw, -, hraw⟩ := (mapM_ok h).2 root hroot
  refine (validatePredicate_ok hraw hp).imp_left fun shallow => ?_
  -- a depth of zero is one level
  unfold ValidationOptions.levels at shallow
  omega

theorem validateClause_ok {o : ValidationOptions} {clause : String} {v : Value} {result : Option (List Predicate)}
    (h : validateClause o clause v = .ok result) : ∀ ps ∈ result, AllowedTrees o ps := by
  unfold validateClause at h
  rintro ps rfl
  split at h
  · exact absurd h nofun
  · obtain ⟨_, hps, same⟩ := map_eq_ok.mp h
    exact allowedTrees_of_mapM (Option.some.inj same ▸ hps)
  · obtain ⟨_, hps, same⟩ := map_eq_ok.mp h
    exact allowedTrees_of_mapM (Option.some.inj same ▸ hps)
  · exact absurd h nofun

theorem validateListedName_ok {clause : String} {v : Value} {name : String}
    (h : validateListedName clause v = .ok name) : AllowedEntry name := by
  unfold validateListedName at h
  split at h
  next s =>
    split at h
    next star => exact .inl (Except.ok.inj h ▸ star)
    next =>
      obtain ⟨harmless, h⟩ := unless_eq_ok.mp h
      obtain ⟨dotted, h⟩ := unless_eq_ok.mp h
      obtain ⟨plain, h⟩ := unless_eq_ok.mp h
      obtain rfl := Except.ok.inj h
      refine .inr ⟨Bool.eq_false_iff.mpr harmless, by simpa using dotted, fun part hp => ?_⟩
      rw [List.any_eq_true, not_exists] at plain
      exact Bool.eq_false_iff.mpr fun keyword => plain part ⟨hp, keyword⟩
  · exact absurd h nofun

theorem validateNames_ok {clause : String} {most : Int} {v : Value} {result : Option (List String)}
    (h : validateNames clause most v = .ok result) :
    ∀ names ∈ result, (names.length : Int) ≤ most ∧ ∀ name ∈ names, AllowedEntry name := by
  unfold validateNames at h
  rintro names rfl
  split at h
  · exact absurd h nofun
  · obtain ⟨few, h⟩ := unless_eq_ok.mp h
    obtain ⟨_, hnames, same⟩ := map_eq_ok.mp h
    obtain rfl := Option.some.inj same
    obtain ⟨length, results⟩ := mapM_ok hnames
    refine ⟨length ▸ Int.not_lt.mp few, fun name hn => ?_⟩
    obtain ⟨v, -, hv⟩ := results name hn
    exact validateListedName_ok hv
  · exact absurd h nofun

theorem validateTable_ok {role : String} {v : Value} {name : String} (h : validateTable role v = .ok name) :
    v = .text name ∧ Name.isTable name.toList = true := by
  unfold validateTable at h
  split at h
  · obtain ⟨table, h⟩ := when_eq_ok.mp h
    obtain rfl := Except.ok.inj h
    exact ⟨rfl, table⟩
  · exact absurd h nofun

theorem validateLabel_ok {v : Value} {result : Option String} (h : validateLabel v = .ok result) :
    ∀ label ∈ result, Name.isTable label.toList = true := by
  unfold validateLabel at h
  rintro label rfl
  split at h
  · exact absurd h nofun
  · obtain ⟨_, hlabel, same⟩ := map_eq_ok.mp h
    exact Option.some.inj same ▸ (validateTable_ok hlabel).2

theorem validateJoin_ok {o : ValidationOptions} {v : Value} {j : Join} (h : validateJoin o v = .ok j) :
    j.Allowed o := by
  cases v with
  | scalar s => exact absurd h nofun
  | list items => exact absurd h nofun
  | object fields =>
    obtain ⟨-, h⟩ := unless_eq_ok.mp h
    obtain ⟨kind, -, h⟩ := bind_eq_ok.mp h
    obtain ⟨table, htable, h⟩ := bind_eq_ok.mp h
    obtain ⟨label, hlabel, h⟩ := bind_eq_ok.mp h
    obtain ⟨on, hon, h⟩ := bind_eq_ok.mp h
    split at h
    next p ps =>
      obtain rfl := Except.ok.inj h
      exact ⟨(validateTable_ok htable).2, validateLabel_ok hlabel, List.cons_ne_nil p ps, validateClause_ok hon _ rfl⟩
    · exact absurd h nofun

theorem validateJoins_ok {o : ValidationOptions} {v : Value} {result : Option (List Join)}
    (h : validateJoins o v = .ok result) : ∀ js ∈ result, ∀ j ∈ js, j.Allowed o := by
  unfold validateJoins at h
  rintro js rfl j hj
  split at h
  · exact absurd h nofun
  · obtain ⟨_, hjs, same⟩ := map_eq_ok.mp h
    obtain ⟨v, -, hv⟩ := (mapM_ok (Option.some.inj same ▸ hjs)).2 j hj
    exact validateJoin_ok hv
  · exact absurd h nofun

theorem validateOrderName_ok {o : ValidationOptions} {v : Value} {name : String}
    (h : validateOrderName o v = .ok name) : AllowedField o name := by
  unfold validateOrderName at h
  split at h
  · obtain ⟨field, h⟩ := when_eq_ok.mp h
    exact Except.ok.inj h ▸ allowedField_of_isField field
  · exact absurd h nofun

theorem validateOrder_ok {o : ValidationOptions} {v : Value} {order : Order} (h : validateOrder o v = .ok order) :
    AllowedField o order.field := by
  cases v with
  | scalar s => exact absurd h nofun
  | list items => exact absurd h nofun
  | object fields =>
    obtain ⟨-, h⟩ := unless_eq_ok.mp h
    obtain ⟨field, hfield, h⟩ := bind_eq_ok.mp h
    obtain ⟨direction, -, h⟩ := bind_eq_ok.mp h
    obtain rfl := Except.ok.inj h
    exact validateOrderName_ok hfield

theorem validateOrders_ok {o : ValidationOptions} {v : Value} {result : Option (List Order)}
    (h : validateOrders o v = .ok result) : ∀ orders ∈ result, ∀ order ∈ orders, AllowedField o order.field := by
  have each {raws : List Value} {orders : List Order} (h : raws.mapM (validateOrder o) = .ok orders) :
      ∀ order ∈ orders, AllowedField o order.field := by
    intro order ho
    obtain ⟨v, -, hv⟩ := (mapM_ok h).2 order ho
    exact validateOrder_ok hv
  unfold validateOrders at h
  rintro orders rfl
  split at h
  · exact absurd h nofun
  · obtain ⟨_, horders, same⟩ := map_eq_ok.mp h
    exact each (Option.some.inj same ▸ horders)
  · obtain ⟨_, horders, same⟩ := map_eq_ok.mp h
    exact each (Option.some.inj same ▸ horders)
  · exact absurd h nofun

theorem validateCount_ok {least : Int} {broken : Rejection} {v : Value} {result : Option Int}
    (h : validateCount least broken v = .ok result) : ∀ n ∈ result, least ≤ n := by
  unfold validateCount at h
  rintro n rfl
  split at h
  · exact absurd h nofun
  · split at h
    · obtain ⟨enough, h⟩ := when_eq_ok.mp h
      exact Option.some.inj (Except.ok.inj h) ▸ enough
    · exact absurd h nofun

theorem Query.ReadFrom.allowed {o : ValidationOptions} {fields : Fields} {q : Query} (h : q.ReadFrom o fields) :
    q.Allowed o where
  select := validateNames_ok h.select
  joins := validateJoins_ok h.joins
  filter := validateClause_ok h.filter
  groupBy := validateNames_ok h.groupBy
  having := validateClause_ok h.having
  orderBy := validateOrders_ok h.orderBy
  limit := validateCount_ok h.limit
  offset := validateCount_ok h.offset

/-- A query that was let through keeps to its options in every clause. -/
theorem validate_allowed {o : ValidationOptions} {raw : Value} {q : Query} (h : validate o raw = .ok q) :
    q.Allowed o := by
  unfold validate at h
  split at h
  · obtain rfl := Except.ok.inj h
    constructor <;> exact nofun
  · obtain ⟨-, h⟩ := unless_eq_ok.mp h
    obtain ⟨select, hselect, h⟩ := bind_eq_ok.mp h
    obtain ⟨joins, hjoins, h⟩ := bind_eq_ok.mp h
    obtain ⟨filter, hfilter, h⟩ := bind_eq_ok.mp h
    obtain ⟨groupBy, hgroupBy, h⟩ := bind_eq_ok.mp h
    obtain ⟨having, hhaving, h⟩ := bind_eq_ok.mp h
    obtain ⟨orderBy, horderBy, h⟩ := bind_eq_ok.mp h
    obtain ⟨limit, hlimit, h⟩ := bind_eq_ok.mp h
    obtain ⟨offset, hoffset, h⟩ := bind_eq_ok.mp h
    obtain rfl := Except.ok.inj h
    exact {
      select := validateNames_ok hselect
      joins := validateJoins_ok hjoins
      filter := validateClause_ok hfilter
      groupBy := validateNames_ok hgroupBy
      having := validateClause_ok hhaving
      orderBy := validateOrders_ok horderBy
      limit := validateCount_ok hlimit
      offset := validateCount_ok hoffset }
  · exact absurd h nofun

def adultsOrNoted : Value := .object
  [("select", .list [.text "u.name", .text "*"]),
    ("where", .object [("or", .list [.object [("field", .text "u.age"), ("op", .text ">="), ("value", .int 18)],
      .object [("logicalOperator", .text "and"), ("negate", .bool true), ("children", .list
        [.object [("field", .text "note"), ("operator", .text "is  not null"), ("value", .text "a;b")]])]])]),
    ("joins", .list [.object [("table", .text "users"), ("alias", .text "u"), ("on", .list
      [.object [("field", .text "u.id"), ("operator", .text "="), ("value", .text "orders.user_id")]])]]),
    ("order_by", .object [("field", .text "u.age")]),
    ("limit", .int 5)]

theorem validate_allowed_adultsOrNoted :
    ∃ q, validate .strict adultsOrNoted = .ok q ∧ q.Allowed .strict ∧
      Predicate.leavesOf (q.filter.getD []) = [⟨"u.age", .atLeast, .int 18⟩, ⟨"note", .isNotNull, .null⟩] := by
  have accepted : ((validate .strict adultsOrNoted).toOption.map fun q => Predicate.leavesOf (q.filter.getD [])) =
      some [⟨"u.age", .atLeast, .int 18⟩, ⟨"note", .isNotNull, .null⟩] := by decide +kernel
  obtain ⟨q, hq, leaves⟩ := Option.map_eq_some_iff.mp accepted
  rw [toOption_eq_some] at hq
  exact ⟨q, hq, validate_allowed hq, leaves⟩

end QueryGate
