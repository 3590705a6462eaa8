import Mathlib.Data.List.Forall2
import QueryGate.Proofs.CanonicalForm
import QueryGate.Proofs.QueryFaults
import QueryGate.Proofs.Tree

/-! The conditions of a query are condition objects that were sent for it, in their order, and none of these is
left out but where a group has two lists of children. -/
namespace QueryGate
open Outcome

namespace Sent

def isChildrenKey (key : String) : Bool := Form.childrenNames.contains key || PredicateShape.isShorthand key

mutual
def conditions : Value → List Fields
  | .object fields => if Fields.has fields "field" then [fields] else below fields
  | _ => []
termination_by structural v => v
def listed : Value → List Fields
  | .list items => each items
  | _ => []
termination_by structural v => v
def each : List Value → List Fields
  | [] => []
  | v :: rest => conditions v ++ each rest
termination_by structural vs => vs
def below : List (String × Value) → List Fields
  | [] => []
  | (key, v) :: rest => (if isChildrenKey key then listed v else []) ++ below rest
termination_by structural fs => fs
end

def clause : Value → List Fields
  | .list items => each items
  | v => conditions v

def joins : Value → List Fields
  | .list items => items.flatMap fun item => clause ((item.object?.getD []).firstOf ["on"])
  | _ => []

def query (raw : Value) : List Fields :=
  let fields := raw.object?.getD []
  clause (fields.firstOf ["where"]) ++ clause (fields.firstOf ["having"]) ++ joins (fields.firstOf ["joins"])

end Sent

/-- A condition says what an object says; an operator without operand has none, whatever was sent. -/
structure Condition.Says (fields : Fields) (c : Condition) : Prop where
  field : fields.firstOf ["field"] = .text c.field
  operator : ∃ s, fields.firstOf ["operator", "op"] = .text s ∧ c.operator.text = spellOperator s
  operand : if c.operator.isUnary then c.value = .null else fields.firstOf ["value"] = .scalar c.value

/-- No object in a value has a key twice, or two lists of children. -/
def Value.GivesChildrenOnce (raw : Value) : Prop :=
  ∀ fields : Fields, (Value.object fields).Inside raw →
    fields.keys.Nodup ∧ ¬ (fields.has "conditions" ∧ fields.has "children")

/-- Some conditions are what was sent, in its order and without gaps if children were given once. -/
def Carries (raw : Value) (sent : List Fields) (cs : List Condition) : Prop :=
  ∃ carried, carried.Sublist sent ∧ List.Forall₂ Condition.Says carried cs ∧ (raw.GivesChildrenOnce → carried = sent)

theorem Value.GivesChildrenOnce.inside {v raw : Value} (h : raw.GivesChildrenOnce) (inside : v.Inside raw) :
    v.GivesChildrenOnce := fun fields deeper => h fields (deeper.trans inside)

namespace Sent

theorem listed_sublist {fields : Fields} {key : String} {v : Value} (children : isChildrenKey key = true)
    (member : (key, v) ∈ fields) : (listed v).Sublist (below fields) := by
  induction fields with
  | nil => exact absurd member List.not_mem_nil
  | cons field rest ih =>
    obtain ⟨name, w⟩ := field
    rw [below]
    rcases List.mem_cons.mp member with same | later
    · cases same
      rw [if_pos children]
      exact List.sublist_append_left _ _
    · exact (ih later).trans (List.sublist_append_right _ _)

theorem below_eq_nil {fields : Fields} (h : ∀ name ∈ fields.keys, isChildrenKey name = false) : below fields = [] := by
  induction fields with
  | nil => rfl
  | cons field rest ih =>
    obtain ⟨own, others⟩ := List.forall_mem_cons.mp h
    rw [below, own, if_neg Bool.false_ne_true, List.nil_append]
    exact ih others

theorem below_eq {fields : Fields} {key : String} {v : Value} (once : fields.keys.Nodup)
    (children : isChildrenKey key = true) (only : ∀ name ∈ fields.keys, isChildrenKey name = true → name = key)
    (member : (key, v) ∈ fields) : below fields = listed v := by
  induction fields with
  | nil => exact absurd member List.not_mem_nil
  | cons field rest ih =>
    obtain ⟨name, w⟩ := field
    obtain ⟨notBehind, once⟩ := List.nodup_cons.mp once
    obtain ⟨own, others⟩ := List.forall_mem_cons.mp only
    rw [below]
    rcases List.mem_cons.mp member with same | later
    · cases same
      have none : below rest = [] := below_eq_nil fun other behind =>
        Bool.eq_false_iff.mpr fun holds => notBehind (others other behind holds ▸ behind)
      rw [if_pos children, none, List.append_nil]
    · have behind : key ∈ Fields.keys rest := List.mem_map_of_mem later
      have silent : isChildrenKey name = false :=
        Bool.eq_false_iff.mpr fun holds => notBehind (own holds ▸ behind)
      rw [silent, if_neg Bool.false_ne_true, List.nil_append]
      exact ih once others later

end Sent

theorem carries_nil (raw : Value) : Carries raw [] [] := ⟨[], List.Sublist.refl [], .nil, fun _ => rfl⟩

theorem Carries.mono {v raw : Value} {sent : List Fields} {cs : List Condition} (h : Carries v sent cs)
    (inside : v.Inside raw) : Carries raw sent cs := by
  obtain ⟨carried, sub, meaning, full⟩ := h
  exact ⟨carried, sub, meaning, fun once => full (once.inside inside)⟩

theorem Carries.append {raw : Value} {sent sent' : List Fields} {cs cs' : List Condition} (h : Carries raw sent cs)
    (h' : Carries raw sent' cs') : Carries raw (sent ++ sent') (cs ++ cs') := by
  obtain ⟨carried, sub, meaning, full⟩ := h
  obtain ⟨carried', sub', meaning', full'⟩ := h'
  refine ⟨carried ++ carried', sub.append sub', List.rel_append meaning meaning', fun once => ?_⟩
  rw [full once, full' once]

theorem Carries.within {raw : Value} {sent more : List Fields} {cs : List Condition} (h : Carries raw sent cs)
    (sub : sent.Sublist more) (all : raw.GivesChildrenOnce → more = sent) : Carries raw more cs := by
  obtain ⟨carried, sub', meaning, full⟩ := h
  exact ⟨carried, sub'.trans sub, meaning, fun once => (full once).trans (all once).symm⟩

theorem validateCondition_carried {o : ValidationOptions} {fields : Fields} {c : Condition}
    (h : validateCondition o (fields.firstOf ["field"]) (fields.firstOf ["operator", "op"])
      (fields.firstOf ["value"]) = .ok c) : c.Says fields := by
  obtain ⟨name, hname, h⟩ := bind_eq_ok.mp h
  obtain ⟨op, hop, h⟩ := bind_eq_ok.mp h
  obtain ⟨s, text, found⟩ := validateOperator_text? hop
  have spelled := Operator.text_of_ofText? found
  cases unary : op.isUnary with
  | true =>
    rw [unary] at h
    obtain rfl := Except.ok.inj h
    exact ⟨validateField_eq hname, ⟨s, text, spelled⟩, by rw [unary, if_pos rfl]⟩
  | false =>
    rw [unary] at h
    obtain ⟨-, h⟩ := unless_eq_ok.mp h
    obtain ⟨operand, hoperand, h⟩ := bind_eq_ok.mp h
    obtain rfl := Except.ok.inj h
    refine ⟨validateField_eq hname, ⟨s, text, spelled⟩, ?_⟩
    rw [unary, if_neg Bool.false_ne_true]
    exact (validateOperand_ok hoperand).1

theorem Fields.has_of_mem {fields : Fields} {key : String} (h : key ∈ fields.keys) : fields.has key = true := by
  obtain ⟨field, member, rfl⟩ := List.mem_map.mp h
  exact List.lookup_isSome_iff.mpr ⟨field, member, beq_self_eq_true _⟩

theorem has_field {fields : Fields} (tag : Form.predicateTag? fields = some .condition) :
    fields.has "field" = true := by
  unfold Form.predicateTag? at tag
  split at tag
  next field => exact field
  next => split at tag <;> exact absurd tag nofun

theorem has_no_field {fields : Fields} (tag : Form.predicateTag? fields ≠ some .condition) :
    fields.has "field" = false := by
  rw [← Bool.not_eq_true]
  exact fun field => tag (if_pos field)

theorem groupKeys_children : ∀ name ∈ PredicateShape.groupKeys, Sent.isChildrenKey name = true →
    name = "conditions" ∨ name = "children" := by decide +kernel

theorem negateNames_children : ∀ name ∈ Form.negateNames, Sent.isChildrenKey name = false := by decide +kernel

theorem PredicateShape.FoundIn.children_place {fields : Fields} {operator children negate : Value}
    (found : FoundIn fields (.group operator children negate)) (some : children ≠ .null) :
    fields.has "field" = false ∧ ∃ key, (key, children) ∈ fields ∧ Sent.isChildrenKey key = true ∧
      (¬ (fields.has "conditions" ∧ fields.has "children") →
        ∀ name ∈ fields.keys, Sent.isChildrenKey name = true → name = key) := by
  cases found with
  | group tag known =>
    have isGroup : Form.predicateTag? fields ≠ .some .condition := by rw [tag]; decide
    refine ⟨has_no_field isGroup, ?_⟩
    rcases fields.firstOf_cases Form.childrenNames with none | ⟨key, own, member⟩
    · exact absurd none some
    · refine ⟨key, member, ?_, fun once name hname holds => ?_⟩
      · rw [Sent.isChildrenKey, List.contains_iff_mem.mpr own, Bool.true_or]
      · have hkey : key ∈ fields.keys := List.mem_map_of_mem member
        have named := groupKeys_children name (unknownKeys_eq_nil.mp known name hname) holds
        have kept : key = "conditions" ∨ key = "children" := by simpa [Form.childrenNames] using own
        rcases named with rfl | rfl <;> rcases kept with rfl | rfl
        · rfl
        · exact absurd ⟨Fields.has_of_mem hname, Fields.has_of_mem hkey⟩ once
        · exact absurd ⟨Fields.has_of_mem hkey, Fields.has_of_mem hname⟩ once
        · rfl
  | @shorthand key tag only known =>
    have isShorthand : Form.predicateTag? fields ≠ .some .condition := by rw [tag]; exact nofun
    refine ⟨has_no_field isShorthand, ?_⟩
    rcases fields.firstOf_cases [key] with none | ⟨own, same, member⟩
    · exact absurd none some
    · obtain rfl := List.mem_singleton.mp same
      have spelled : own ∈ fields.keys.filter PredicateShape.isShorthand := only ▸ List.mem_cons_self
      refine ⟨own, member, ?_, fun _ name hname holds => ?_⟩
      · rw [Sent.isChildrenKey, (List.mem_filter.mp spelled).2, Bool.or_true]
      · rcases List.mem_cons.mp (unknownKeys_eq_nil.mp known name hname) with rfl | negate
        · rfl
        · exact absurd (negateNames_children name negate) (holds ▸ nofun)

theorem carries_children {fields : Fields} {operator negate : Value} {raws : List Value} {cs : List Condition}
    (found : PredicateShape.FoundIn fields (.group operator (.list raws) negate))
    (below : (∀ item ∈ raws, item.Inside (.object fields)) → Carries (.object fields) (Sent.each raws) cs) :
    Carries (.object fields) (Sent.conditions (.object fields)) cs := by
  obtain ⟨noField, key, member, children, only⟩ := found.children_place nofun
  have inside (item : Value) (h : item ∈ raws) : item.Inside (.object fields) :=
    .field member (.item h (.here item))
  rw [Sent.conditions, noField, if_neg Bool.false_ne_true]
  have list : Sent.each raws = Sent.listed (.list raws) := by rw [Sent.listed]
  refine (below inside).within (list ▸ Sent.listed_sublist children member) fun once => ?_
  obtain ⟨distinct, single⟩ := once fields (.here _)
  rw [list]
  exact Sent.below_eq distinct children (only single) member

theorem carries_each {o : ValidationOptions} {levels : Nat}
    (own : ∀ v p, validatePredicate o levels v = .ok p → Carries v (Sent.conditions v) p.leaves) {raw : Value}
    {items : List Value} {ps : List Predicate} (h : items.mapM (validatePredicate o levels) = .ok ps)
    (inside : ∀ item ∈ items, item.Inside raw) : Carries raw (Sent.each items) (Predicate.leavesOf ps) := by
  induction items generalizing ps with
  | nil =>
    obtain rfl := Except.ok.inj h
    exact carries_nil raw
  | cons item rest ih =>
    obtain ⟨first, others⟩ := List.forall_mem_cons.mp inside
    rw [List.mapM_cons] at h
    obtain ⟨p, hp, h⟩ := bind_eq_ok.mp h
    obtain ⟨ps, hps, h⟩ := bind_eq_ok.mp h
    obtain rfl := Except.ok.inj h
    rw [Sent.each, Predicate.leavesOf_cons]
    exact ((own item p hp).mono first).append (ih hps others)

theorem validatePredicate_carries {o : ValidationOptions} {levels : Nat} {raw : Value} {p : Predicate}
    (h : validatePredicate o levels raw = .ok p) : Carries raw (Sent.conditions raw) p.leaves := by
  induction levels generalizing raw p with
  | zero => exact absurd h nofun
  | succ levels ih =>
    cases raw with
    | scalar s => exact absurd h nofun
    | list items => exact absurd h nofun
    | object fields =>
      obtain ⟨shape, hshape, read⟩ := validatePredicate_object.mp h
      have found := PredicateShape.foundIn_of_ofFields hshape
      cases read with
      | condition valid =>
        cases found with
        | condition tag =>
          rw [Sent.conditions, if_pos (has_field tag), Predicate.leaves_condition]
          exact ⟨[fields], List.Sublist.refl _, .cons (validateCondition_carried valid) .nil, fun _ => rfl⟩
      | group operator_ok raws_ok negate_ok children_ok =>
        have list := validateChildren_eq raws_ok
        rw [Predicate.leaves_group]
        subst list
        exact carries_children found (carries_each (fun _ _ => ih) children_ok)

def Query.leaves (q : Query) : List Condition :=
  Predicate.leavesOf (q.filter.getD []) ++ Predicate.leavesOf (q.having.getD []) ++
    (q.joins.getD []).flatMap fun j => Predicate.leavesOf j.on

theorem carries_firstOf {fields : Fields} {names : List String} {sent : List Fields} {cs : List Condition}
    (h : Carries (fields.firstOf names) sent cs) : Carries (.object fields) sent cs := by
  rcases fields.firstOf_cases names with null | ⟨key, -, member⟩
  · obtain ⟨carried, sub, meaning, full⟩ := h
    have once : (fields.firstOf names).GivesChildrenOnce := by
      rw [null]
      rintro _ ⟨⟩
    exact ⟨carried, sub, meaning, fun _ => full once⟩
  · exact h.mono (.field member (.here _))

theorem validateClause_carries {o : ValidationOptions} {clause : String} {v : Value} {result : Option (List Predicate)}
    (h : validateClause o clause v = .ok result) : Carries v (Sent.clause v) (Predicate.leavesOf (result.getD [])) := by
  unfold validateClause at h
  split at h
  · obtain rfl := Except.ok.inj h
    exact carries_nil _
  next fields =>
    obtain ⟨ps, hps, rfl⟩ := map_eq_ok.mp h
    have alone : ∀ item ∈ [Value.object fields], item.Inside (.object fields) :=
      List.forall_mem_singleton.mpr (.here _)
    have carried := carries_each (fun _ _ => validatePredicate_carries) hps alone
    rwa [Sent.each, Sent.each, List.append_nil] at carried
  next items =>
    obtain ⟨ps, hps, rfl⟩ := map_eq_ok.mp h
    exact carries_each (fun _ _ => validatePredicate_carries) hps fun item member => .item member (.here item)
  · exact absurd h nofun

theorem validateJoin_carries {o : ValidationOptions} {v : Value} {j : Join} (h : validateJoin o v = .ok j) :
    Carries v (Sent.clause ((v.object?.getD []).firstOf ["on"])) (Predicate.leavesOf j.on) := by
  cases v with
  | scalar s => exact absurd h nofun
  | list items => exact absurd h nofun
  | object fields => exact carries_firstOf (validateClause_carries (validateJoin_object.mp h).on)

theorem validateJoins_carries {o : ValidationOptions} {v : Value} {result : Option (List Join)}
    (h : validateJoins o v = .ok result) :
    Carries v (Sent.joins v) ((result.getD []).flatMap fun j => Predicate.leavesOf j.on) := by
  unfold validateJoins at h
  split at h
  · obtain rfl := Except.ok.inj h
    exact carries_nil _
  next items =>
    obtain ⟨js, hjs, rfl⟩ := map_eq_ok.mp h
    have each (rest : List Value) (js : List Join) (h : rest.mapM (validateJoin o) = .ok js)
        (inside : ∀ item ∈ rest, item ∈ items) :
        Carries (.list items) (Sent.joins (.list rest)) (js.flatMap fun j => Predicate.leavesOf j.on) := by
      induction rest generalizing js with
      | nil =>
        obtain rfl := Except.ok.inj h
        exact carries_nil _
      | cons item rest ih =>
        obtain ⟨member, others⟩ := List.forall_mem_cons.mp inside
        rw [List.mapM_cons] at h
        obtain ⟨j, hj, h⟩ := bind_eq_ok.mp h
        obtain ⟨js, hjs, h⟩ := bind_eq_ok.mp h
        obtain rfl := Except.ok.inj h
        rw [Sent.joins, List.flatMap_cons, List.flatMap_cons]
        exact ((validateJoin_carries hj).mono (.item member (.here item))).append (ih js hjs others)
    exact each items js hjs fun _ member => member
  · exact absurd h nofun

/-- The leaf conditions of a query that is let through are condition objects that were sent in its trees, in their
order, and all of them unless a group was given two lists of children. -/
theorem validate_carries {o : ValidationOptions} {raw : Value} {q : Query} (h : validate o raw = .ok q) :
    Carries raw (Sent.query raw) q.leaves := by
  cases raw with
  | scalar s =>
    cases s with
    | null =>
      obtain rfl := Except.ok.inj h
      exact carries_nil _
    | _ => exact absurd h nofun
  | list items => exact absurd h nofun
  | object fields =>
    have read := validate_object.mp h
    have filter := carries_firstOf (validateClause_carries read.filter)
    have having := carries_firstOf (validateClause_carries read.having)
    exact (filter.append having).append (carries_firstOf (validateJoins_carries read.joins))

def paidOrders : Value := .object
  [("joins", .list [.object [("table", .text "users"),
      ("on", .object [("field", .text "users.id"), ("op", .text "="), ("value", .text "orders.user")])]]),
    ("where", .object [("or", .list
      [.object [("field", .text "paid"), ("operator", .text "is  not null"), ("value", .int 1)],
        .object [("operator", .text "and"), ("children", .list
          [.object [("field", .text "total"), ("op", .text "="), ("value", .int 0)]])]])])]

theorem validate_carries_paidOrders : ∃ q, validate {} paidOrders = .ok q ∧
    Carries paidOrders (Sent.query paidOrders) q.leaves ∧ List.Forall₂ Condition.Says (Sent.query paidOrders) q.leaves := by
  have accepted : ((validate {} paidOrders).toOption.map fun q => q.leaves.length) = some 3 := by decide +kernel
  obtain ⟨q, hq, count⟩ := toOption_map_eq_some.mp accepted
  obtain ⟨carried, sub, meaning, -⟩ := validate_carries hq
  have sent : (Sent.query paidOrders).length = 3 := by decide +kernel
  -- as many leaves as condition objects, so none of these is missing
  have all : carried = Sent.query paidOrders := sub.eq_of_length (by rw [meaning.length_eq, count, sent])
  exact ⟨q, hq, validate_carries hq, all ▸ meaning⟩

def doubledChildren : Value := .object
  [("where", .object [("operator", .text "AND"),
    ("conditions", .list [.object [("field", .text "a"), ("operator", .text "="), ("value", .int 1)]]),
    ("children", .list [.object [("field", .text "b"), ("operator", .text "="), ("value", .int 2)]])])]

theorem doubledChildren_dropped : ∃ q, validate {} doubledChildren = .ok q ∧
    (Sent.query doubledChildren).length = 2 ∧ q.leaves = [⟨"a", .equal, .int 1⟩] ∧
      ¬ List.Forall₂ Condition.Says (Sent.query doubledChildren) q.leaves := by
  have accepted : ((validate {} doubledChildren).toOption.map fun q => q.leaves) = some [⟨"a", .equal, .int 1⟩] := by
    decide +kernel
  obtain ⟨q, hq, leaves⟩ := toOption_map_eq_some.mp accepted
  have sent : (Sent.query doubledChildren).length = 2 := by decide +kernel
  refine ⟨q, hq, sent, leaves, fun each => ?_⟩
  have count := each.length_eq
  rw [sent, leaves] at count
  exact absurd count (by decide)

end QueryGate
