import QueryGate.Proofs.ReadFrom

/-! Limits that are loosened: a query that was let through stays so, and is read as the same query. -/
namespace QueryGate
open Outcome

/-- Other options with the same pattern for field names that permit at least as much in everything else. -/
structure ValidationOptions.LoosensTo (o looser : ValidationOptions) : Prop where
  pattern : looser.fieldPattern = o.fieldPattern
  depth : o.maxDepth ≤ looser.maxDepth
  conditions : o.maxConditions ≤ looser.maxConditions
  select : o.maxSelect ≤ looser.maxSelect
  groupBy : o.maxGroupBy ≤ looser.maxGroupBy
  operators : o.operators ⊆ looser.operators
  connectives : o.connectives ⊆ looser.connectives
  length : ∀ most ∈ looser.maxValueLength, most ≠ 0 → ∃ least ∈ o.maxValueLength, least ≠ 0 ∧ least ≤ most
  keywords : looser.preventKeywords = true → o.preventKeywords = true

theorem ValidationOptions.LoosensTo.refl (o : ValidationOptions) : o.LoosensTo o where
  pattern := rfl
  depth := Int.le_refl _
  conditions := Int.le_refl _
  select := Int.le_refl _
  groupBy := Int.le_refl _
  operators := List.Subset.refl _
  connectives := List.Subset.refl _
  length most given nonzero := ⟨most, given, nonzero, Int.le_refl _⟩
  keywords := id

variable {o looser : ValidationOptions} (loosens : o.LoosensTo looser)
include loosens

theorem isField_loosened (name : String) : isField looser name = isField o name := by
  rw [isField, isField, loosens.pattern]

theorem validateField_loosened (name : Value) : validateField looser name = validateField o name := by
  unfold validateField
  split
  · rw [isField_loosened loosens]
  · rfl

theorem validateOperator_loosened {v : Value} {operator : Operator} (h : validateOperator o v = .ok operator) :
    validateOperator looser v = .ok operator := by
  unfold validateOperator at h ⊢
  split at h
  · obtain ⟨allowed, h⟩ := when_eq_ok.mp h
    have still := List.contains_iff_mem.mpr (loosens.operators (List.contains_iff_mem.mp allowed))
    exact when_eq_ok.mpr ⟨still, h⟩
  · exact absurd h nofun

theorem tooLong_loosened {text : String} (h : tooLong o text = none) : tooLong looser text = none := by
  refine Option.filter_eq_none_iff.mpr fun most given long => ?_
  obtain ⟨nonzero, long⟩ := of_decide_eq_true long
  obtain ⟨least, limit, positive, tighter⟩ := loosens.length most given nonzero
  have fits := Option.filter_eq_none_iff.mp h least limit
  exact fits (decide_eq_true ⟨positive, Int.lt_of_le_of_lt tighter long⟩)

theorem validateOperand_loosened {v : Value} {s : Scalar} (h : validateOperand o v = .ok s) :
    validateOperand looser v = .ok s := by
  unfold validateOperand at h ⊢
  split at h
  · obtain ⟨hasText, h⟩ := unless_eq_ok.mp h
    refine unless_eq_ok.mpr ⟨hasText, ?_⟩
    simp only at h ⊢
    split at h
    · exact absurd h nofun
    next short =>
      rw [tooLong_loosened loosens short]
      obtain ⟨harmless, h⟩ := unless_eq_ok.mp h
      obtain ⟨clean, h⟩ := unless_eq_ok.mp h
      obtain ⟨plain, h⟩ := unless_eq_ok.mp h
      refine unless_eq_ok.mpr ⟨harmless, unless_eq_ok.mpr ⟨clean, unless_eq_ok.mpr ⟨fun blocked => plain ?_, h⟩⟩⟩
      rw [Bool.and_eq_true] at blocked ⊢
      exact blocked.imp_left loosens.keywords
  · exact absurd h nofun

theorem validateCondition_loosened {field operator operand : Value} {c : Condition}
    (h : validateCondition o field operator operand = .ok c) :
    validateCondition looser field operator operand = .ok c := by
  obtain ⟨name, hname, h⟩ := bind_eq_ok.mp h
  obtain ⟨op, hop, h⟩ := bind_eq_ok.mp h
  refine bind_eq_ok.mpr ⟨name, (validateField_loosened loosens field).trans hname, ?_⟩
  refine bind_eq_ok.mpr ⟨op, validateOperator_loosened loosens hop, ?_⟩
  split
  next unary =>
    rwa [if_pos unary] at h
  next binary =>
    rw [if_neg binary] at h
    obtain ⟨given, h⟩ := unless_eq_ok.mp h
    obtain ⟨s, hs, h⟩ := bind_eq_ok.mp h
    exact unless_eq_ok.mpr ⟨given, bind_eq_ok.mpr ⟨s, validateOperand_loosened loosens hs, h⟩⟩

theorem validateLogic_loosened {v : Value} {operator : Logic} (h : validateLogic o v = .ok operator) :
    validateLogic looser v = .ok operator := by
  unfold validateLogic at h ⊢
  split at h
  · exact absurd h nofun
  · exact absurd h nofun
  · split at h
    · obtain ⟨allowed, h⟩ := when_eq_ok.mp h
      have still := List.contains_iff_mem.mpr (loosens.connectives (List.contains_iff_mem.mp allowed))
      exact when_eq_ok.mpr ⟨still, h⟩
    · exact absurd h nofun

theorem validateChildren_loosened {v : Value} {children : List Value} (h : validateChildren o v = .ok children) :
    validateChildren looser v = .ok children := by
  unfold validateChildren at h ⊢
  split at h
  · obtain ⟨nonempty, h⟩ := unless_eq_ok.mp h
    obtain ⟨few, h⟩ := unless_eq_ok.mp h
    refine unless_eq_ok.mpr ⟨nonempty, unless_eq_ok.mpr ⟨fun many => few ?_, h⟩⟩
    exact Int.lt_of_le_of_lt loosens.conditions many
  · exact absurd h nofun

theorem validatePredicate_loosened {levels more : Nat} (room : levels ≤ more) {raw : Value} {p : Predicate}
    (h : validatePredicate o levels raw = .ok p) : validatePredicate looser more raw = .ok p := by
  -- on the levels below the predicate, of which each child has one less under either limit
  induction levels generalizing more raw p with
  | zero => exact absurd h nofun
  | succ levels ih =>
    obtain ⟨more, rfl⟩ := Nat.exists_eq_add_of_lt room
    cases raw with
    | scalar s => exact absurd h nofun
    | list items => exact absurd h nofun
    | object fields =>
      obtain ⟨shape, hshape, read⟩ := validatePredicate_object.mp h
      refine validatePredicate_object.mpr ⟨shape, hshape, ?_⟩
      cases read with
      | condition hc => exact .condition (validateCondition_loosened loosens hc)
      | group operator_ok raws_ok negate_ok children_ok =>
        have logic := validateLogic_loosened loosens operator_ok
        have raws := validateChildren_loosened loosens raws_ok
        have children := mapM_keeps children_ok fun child _ p hp => ih (Nat.le_add_right levels more) hp
        exact .group logic raws negate_ok children

theorem validateClause_loosened {clause : String} {v : Value} {result : Option (List Predicate)}
    (h : validateClause o clause v = .ok result) : validateClause looser clause v = .ok result := by
  have room : o.levels ≤ looser.levels := Int.toNat_le_toNat (Int.add_le_add_right loosens.depth 1)
  have each {raws : List Value} {ps : List Predicate} (h : raws.mapM (validatePredicate o o.levels) = .ok ps) :
      raws.mapM (validatePredicate looser looser.levels) = .ok ps :=
    mapM_keeps h fun raw _ p hp => validatePredicate_loosened loosens room hp
  unfold validateClause at h ⊢
  split at h
  · exact h
  · obtain ⟨ps, hps, same⟩ := map_eq_ok.mp h
    exact map_eq_ok.mpr ⟨ps, each hps, same⟩
  · obtain ⟨ps, hps, same⟩ := map_eq_ok.mp h
    exact map_eq_ok.mpr ⟨ps, each hps, same⟩
  · exact absurd h nofun

omit loosens in
theorem validateNames_loosened {clause : String} {most more : Int} (room : most ≤ more) {v : Value}
    {result : Option (List String)} (h : validateNames clause most v = .ok result) :
    validateNames clause more v = .ok result := by
  unfold validateNames at h ⊢
  split at h
  · exact h
  · obtain ⟨few, h⟩ := unless_eq_ok.mp h
    exact unless_eq_ok.mpr ⟨fun many => few (Int.lt_of_le_of_lt room many), h⟩
  · exact absurd h nofun

theorem validateJoin_loosened {v : Value} {j : Join} (h : validateJoin o v = .ok j) :
    validateJoin looser v = .ok j := by
  cases v with
  | scalar s => exact absurd h nofun
  | list items => exact absurd h nofun
  | object fields =>
    obtain ⟨known, kind, table, label, on, nonempty⟩ := validateJoin_object.mp h
    exact validateJoin_object.mpr ⟨known, kind, table, label, validateClause_loosened loosens on, nonempty⟩

theorem validateJoins_loosened {v : Value} {result : Option (List Join)} (h : validateJoins o v = .ok result) :
    validateJoins looser v = .ok result := by
  unfold validateJoins at h ⊢
  split at h
  · exact h
  · obtain ⟨js, hjs, same⟩ := map_eq_ok.mp h
    exact map_eq_ok.mpr ⟨js, mapM_keeps hjs fun v _ j hj => validateJoin_loosened loosens hj, same⟩
  · exact absurd h nofun

theorem validateOrderName_loosened (name : Value) : validateOrderName looser name = validateOrderName o name := by
  unfold validateOrderName
  split
  · rw [isField_loosened loosens]
  · rfl

theorem validateOrder_loosened {v : Value} {order : Order} (h : validateOrder o v = .ok order) :
    validateOrder looser v = .ok order := by
  cases v with
  | scalar s => exact absurd h nofun
  | list items => exact absurd h nofun
  | object fields =>
    obtain ⟨known, field, direction⟩ := validateOrder_object.mp h
    exact validateOrder_object.mpr ⟨known, (validateOrderName_loosened loosens _).trans field, direction⟩

theorem validateOrders_loosened {v : Value} {result : Option (List Order)} (h : validateOrders o v = .ok result) :
    validateOrders looser v = .ok result := by
  have each {raws : List Value} {orders : List Order} (h : raws.mapM (validateOrder o) = .ok orders) :
      raws.mapM (validateOrder looser) = .ok orders :=
    mapM_keeps h fun raw _ order ho => validateOrder_loosened loosens ho
  unfold validateOrders at h ⊢
  split at h
  · exact h
  · obtain ⟨orders, horders, same⟩ := map_eq_ok.mp h
    exact map_eq_ok.mpr ⟨orders, each horders, same⟩
  · obtain ⟨orders, horders, same⟩ := map_eq_ok.mp h
    exact map_eq_ok.mpr ⟨orders, each horders, same⟩
  · exact absurd h nofun

theorem Query.ReadFrom.loosened {fields : Fields} {q : Query} (h : q.ReadFrom o fields) : q.ReadFrom looser fields where
  known := h.known
  select := validateNames_loosened loosens.select h.select
  joins := validateJoins_loosened loosens h.joins
  filter := validateClause_loosened loosens h.filter
  groupBy := validateNames_loosened loosens.groupBy h.groupBy
  having := validateClause_loosened loosens h.having
  orderBy := validateOrders_loosened loosens h.orderBy
  limit := h.limit
  offset := h.offset

theorem validate_loosened {raw : Value} {q : Query} (h : validate o raw = .ok q) : validate looser raw = .ok q := by
  cases raw with
  | scalar s =>
    cases s with
    | null => exact h
    | _ => exact absurd h nofun
  | list items => exact absurd h nofun
  | object fields => exact validate_object.mpr ((validate_object.mp h).loosened loosens)

/-- What is let through, as a client sends it or validated before, is let through with the same result under
looser limits. -/
theorem loosening_keeps :
    (∀ raw q, validate o raw = .ok q → validate looser raw = .ok q) ∧
      ∀ known q, revalidate o known = .ok q → revalidate looser known = .ok q :=
  ⟨fun _ _ h => validate_loosened loosens h, fun _ _ h => validate_loosened loosens h⟩

omit loosens

def narrow : ValidationOptions where
  maxDepth := 1
  maxConditions := 2
  maxSelect := 2
  maxGroupBy := 1
  operators := [.equal, .greater]
  connectives := [.conj]
  maxValueLength := some 4
  preventKeywords := true

def wide : ValidationOptions := { maxDepth := 2, maxConditions := 3, maxValueLength := some 0 }

def busyTowns : Value := .object
  [("select", .list [.text "town", .text "count"]),
    ("where", .object [("and", .list
      [.object [("field", .text "age"), ("op", .text ">"), ("value", .int 18)],
        .object [("field", .text "state"), ("op", .text "="), ("value", .text "open")]])]),
    ("groupBy", .list [.text "town"]),
    ("orderBy", .object [("field", .text "town")])]

theorem loosening_keeps_busyTowns :
    narrow.LoosensTo wide ∧
      ∃ q again, validate narrow busyTowns = .ok q ∧ revalidate narrow q = .ok again ∧
        validate wide busyTowns = .ok q ∧ revalidate wide q = .ok again ∧
        q.groupBy = some ["town"] ∧ again.groupBy = some ["town"] := by
  have loosens : narrow.LoosensTo wide :=
    ⟨rfl, by decide, by decide, by decide, by decide, by decide, by decide, by decide, by decide⟩
  have accepted : ((validate narrow busyTowns).toOption.bind fun q => (revalidate narrow q).toOption.map fun again =>
      (q.groupBy, again.groupBy)) = some (some ["town"], some ["town"]) := by decide +kernel
  obtain ⟨q, hq, accepted⟩ := Option.bind_eq_some_iff.mp accepted
  obtain ⟨again, hagain, grouped⟩ := toOption_map_eq_some.mp accepted
  rw [toOption_eq_some] at hq
  obtain ⟨first, second⟩ := Prod.mk.inj grouped
  obtain ⟨sent, known⟩ := loosening_keeps loosens
  exact ⟨loosens, q, again, hq, hagain, sent _ _ hq, known _ _ hagain, first, second⟩

end QueryGate
