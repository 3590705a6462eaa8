import Mathlib.Algebra.Order.BigOperators.Group.List
import Mathlib.Algebra.Order.Ring.Nat
import QueryGate.Proofs.Revalidation

/-! How many leaf conditions a clause may have: the limits bound every predicate of its list, and nothing bounds the
list. -/
namespace QueryGate
open Outcome

/-- The most leaves of a tree of some depth: the root's children, their children and so on, as many as each group may
have. A condition alone is a leaf as well. -/
def leafBound (depth conditions : Int) : Nat :=
  if depth < 0 then 0 else (max 1 conditions.toNat) ^ depth.toNat

namespace Predicate

theorem leavesOf_eq_flatMap (ps : List Predicate) : leavesOf ps = ps.flatMap leaves := by
  induction ps with
  | nil => rfl
  | cons p rest ih => rw [leavesOf_cons, ih, List.flatMap_cons]

theorem length_leavesOf_replicate (n : Nat) (p : Predicate) :
    (leavesOf (List.replicate n p)).length = n * p.leaves.length := by
  rw [leavesOf_eq_flatMap, List.length_flatMap, List.map_replicate, List.sum_replicate_nat]

theorem length_leavesOf_le {ps : List Predicate} {most : Nat} (each : ∀ p ∈ ps, p.leaves.length ≤ most) :
    (leavesOf ps).length ≤ ps.length * most := by
  have total := List.sum_le_card_nsmul (ps.map fun p => p.leaves.length) most (List.forall_mem_map.mpr each)
  rwa [← List.length_flatMap, ← leavesOf_eq_flatMap, List.length_map, Nat.nsmul_eq_mul] at total

theorem length_leaves_le {root : Predicate} {depth width : Nat}
    (h : ∀ level p, root.At level p → level ≤ depth ∧
      ∀ operator children negate, p = .group operator children negate → children.length ≤ width) :
    root.leaves.length ≤ (max 1 width) ^ depth := by
  induction root generalizing depth with
  | condition c => exact Nat.one_le_pow _ _ (by omega)
  | group operator children negate ih =>
    have few := (h 0 _ (.here _)).2 _ _ _ rfl
    rw [leaves_group]
    cases depth with
    | zero =>
      -- without a level below the root there is no child either
      cases children with
      | nil => exact Nat.zero_le _
      | cons child rest =>
        have deep := (h 1 child (.under List.mem_cons_self (.here _))).1
        exact absurd deep (by decide)
    | succ depth =>
      have below : ∀ child ∈ children, child.leaves.length ≤ (max 1 width) ^ depth := fun child member =>
        ih child member fun level p place =>
          (h (level + 1) p (.under member place)).imp_left Nat.le_of_succ_le_succ
      calc (leavesOf children).length ≤ children.length * (max 1 width) ^ depth := length_leavesOf_le below
        _ ≤ max 1 width * (max 1 width) ^ depth := Nat.mul_le_mul_right _ (few.trans (le_max_right 1 width))
        _ = (max 1 width) ^ (depth + 1) := (Nat.pow_succ').symm

end Predicate

theorem AllowedTrees.length_leaves_le {o : ValidationOptions} {ps : List Predicate} (h : AllowedTrees o ps) :
    ∀ p ∈ ps, p.leaves.length ≤ leafBound o.maxDepth o.maxConditions := by
  intro root member
  have top := (h root member 0 root (.here root)).1
  have notNegative : ¬ o.maxDepth < 0 := by omega
  rw [leafBound, if_neg notNegative]
  refine Predicate.length_leaves_le fun level p place => ?_
  obtain ⟨shallow, allowed⟩ := h root member level p place
  refine ⟨by omega, ?_⟩
  rintro operator children negate rfl
  obtain ⟨-, few, -⟩ := allowed
  omega

def Sent.count : Value → Nat
  | .list items => items.length
  | .object _ => 1
  | _ => 0

theorem validateClause_count {o : ValidationOptions} {clause : String} {v : Value} {result : Option (List Predicate)}
    (h : validateClause o clause v = .ok result) : (result.getD []).length = Sent.count v := by
  unfold validateClause at h
  split at h
  · obtain rfl := Except.ok.inj h
    rfl
  · obtain ⟨ps, hps, rfl⟩ := map_eq_ok.mp h
    exact (mapM_ok hps).1
  · obtain ⟨ps, hps, rfl⟩ := map_eq_ok.mp h
    exact (mapM_ok hps).1
  · exact absurd h nofun

/-- At most `most` leaves in each predicate of a clause, of which there are as many as were sent. -/
structure LeavesBounded (most : Nat) (sent : Value) (ps : List Predicate) : Prop where
  each : ∀ p ∈ ps, p.leaves.length ≤ most
  count : ps.length = Sent.count sent
  total : (Predicate.leavesOf ps).length ≤ Sent.count sent * most

theorem validateClause_bounded {o : ValidationOptions} {clause : String} {v : Value} {result : Option (List Predicate)}
    (h : validateClause o clause v = .ok result) :
    LeavesBounded (leafBound o.maxDepth o.maxConditions) v (result.getD []) := by
  have each : ∀ p ∈ result.getD [], p.leaves.length ≤ leafBound o.maxDepth o.maxConditions := by
    cases result with
    | none => exact List.forall_mem_nil _
    | some ps => exact (validateClause_ok h ps rfl).length_leaves_le
  have count := validateClause_count h
  exact ⟨each, count, count ▸ Predicate.length_leavesOf_le each⟩

/-- The leaf conditions of `where` and of `having` are at most as many as the depth and the conditions of a group
allow, times the predicates that were sent in the clause's list. -/
theorem validate_leaves_bounded {o : ValidationOptions} {raw : Value} {q : Query} (h : validate o raw = .ok q) :
    LeavesBounded (leafBound o.maxDepth o.maxConditions) ((raw.object?.getD []).firstOf ["where"]) (q.filter.getD []) ∧
      LeavesBounded (leafBound o.maxDepth o.maxConditions) ((raw.object?.getD []).firstOf ["having"])
        (q.having.getD []) := by
  cases raw with
  | scalar s =>
    cases s with
    | null =>
      obtain rfl := Except.ok.inj h
      exact ⟨@validateClause_bounded o "where" .null none rfl, @validateClause_bounded o "having" .null none rfl⟩
    | _ => exact absurd h nofun
  | list items => exact absurd h nofun
  | object fields =>
    have read := validate_object.mp h
    exact ⟨validateClause_bounded read.filter, validateClause_bounded read.having⟩

def pairedOrders : Value := .object
  [("where", .list
      [.object [("or", .list
          [.object [("field", .text "paid"), ("op", .text "="), ("value", .bool true)],
            .object [("field", .text "due"), ("op", .text "is null")]])],
        .object [("field", .text "total"), ("op", .text ">"), ("value", .int 0)]]),
    ("having", .object [("operator", .text "and"), ("conditions", .list
      [.object [("field", .text "total"), ("operator", .text "<"), ("value", .int 9)],
        .object [("field", .text "total"), ("operator", .text "!="), ("value", .int 5)]])])]

def shallow : ValidationOptions := { maxDepth := 1, maxConditions := 2 }

theorem validate_leaves_bounded_pairedOrders : ∃ q, validate shallow pairedOrders = .ok q ∧
    LeavesBounded (leafBound 1 2) ((pairedOrders.object?.getD []).firstOf ["where"]) (q.filter.getD []) ∧
    LeavesBounded (leafBound 1 2) ((pairedOrders.object?.getD []).firstOf ["having"]) (q.having.getD []) ∧
    leafBound 1 2 = 2 ∧ (q.filter.getD []).map (·.leaves.length) = [2, 1] ∧
    (q.having.getD []).map (·.leaves.length) = [2] := by
  have accepted : ((validate shallow pairedOrders).toOption.map fun q =>
      ((q.filter.getD []).map (·.leaves.length), (q.having.getD []).map (·.leaves.length))) = some ([2, 1], [2]) := by
    decide +kernel
  obtain ⟨q, hq, counts⟩ := toOption_map_eq_some.mp accepted
  obtain ⟨filter, having⟩ := Prod.mk.inj counts
  obtain ⟨boundedFilter, boundedHaving⟩ := validate_leaves_bounded hq
  exact ⟨q, hq, boundedFilter, boundedHaving, rfl, filter, having⟩

theorem Query.Allowed.filter_trees {o : ValidationOptions} {q : Query} (h : q.Allowed o) :
    AllowedTrees o (q.filter.getD []) := by
  cases given : q.filter with
  | none => exact List.forall_mem_nil _
  | some ps => exact h.filter ps given

theorem validate_repeated {o : ValidationOptions} {raw : Value} {q : Query} (h : validate o raw = .ok q) {p : Predicate}
    (member : p ∈ q.filter.getD []) (n : Nat) :
    ∃ raw', validate o raw' = .ok { filter := some (List.replicate n p) } := by
  obtain ⟨fields, read⟩ := exists_readFrom h
  have allowed := read.allowed.filter_trees p member
  have repeated : Query.Allowed o { filter := some (List.replicate n p) } := by
    constructor
    case filter =>
      intro ps same root inside
      obtain rfl := Option.some.inj same
      exact List.eq_of_mem_replicate inside ▸ allowed
    all_goals exact nofun
  exact ⟨_, repeated.validate⟩

/-- Options that let one condition through in `where` let through more conditions than any number. -/
theorem filter_unbounded {o : ValidationOptions} {raw : Value} {q : Query} (h : validate o raw = .ok q) {p : Predicate}
    (member : p ∈ q.filter.getD []) (leaf : p.leaves ≠ []) :
    ¬ ∃ most, ∀ raw q, validate o raw = .ok q → (Predicate.leavesOf (q.filter.getD [])).length ≤ most := by
  rintro ⟨most, bounded⟩
  obtain ⟨raw', accepted⟩ := validate_repeated h member (most + 1)
  have few := bounded raw' _ accepted
  have one := List.length_pos_iff.mpr leaf
  rw [Option.getD_some, Predicate.length_leavesOf_replicate] at few
  exact absurd (Nat.le_trans (Nat.le_mul_of_pos_right _ one) few) (Nat.not_succ_le_self most)

def tight : ValidationOptions := { maxDepth := 0, maxConditions := 1 }

def listedOrders : Value := .object
  [("where", .list
      [.object [("field", .text "a"), ("operator", .text "="), ("value", .int 1)],
        .object [("field", .text "b"), ("operator", .text "="), ("value", .int 2)],
        .object [("field", .text "c"), ("operator", .text "="), ("value", .int 3)]])]

theorem listedOrders_unbounded :
    (∃ q, validate tight listedOrders = .ok q ∧ (Predicate.leavesOf (q.filter.getD [])).length = 3) ∧
      leafBound tight.maxDepth tight.maxConditions = 1 ∧
      ¬ ∃ most, ∀ raw q, validate tight raw = .ok q → (Predicate.leavesOf (q.filter.getD [])).length ≤ most := by
  have accepted : ((validate tight listedOrders).toOption.map fun q => Predicate.leavesOf (q.filter.getD [])) =
      some [⟨"a", .equal, .int 1⟩, ⟨"b", .equal, .int 2⟩, ⟨"c", .equal, .int 3⟩] := by decide +kernel
  obtain ⟨q, hq, leaves⟩ := toOption_map_eq_some.mp accepted
  obtain ⟨p, member, leaf⟩ := Predicate.mem_leavesOf.mp (leaves ▸ List.mem_cons_self)
  exact ⟨⟨q, hq, congrArg List.length leaves⟩, rfl, filter_unbounded hq member (List.ne_nil_of_mem leaf)⟩

end QueryGate
