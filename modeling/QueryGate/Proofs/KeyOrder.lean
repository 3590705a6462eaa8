import QueryGate.Proofs.Corresponding
import QueryGate.Proofs.Lookup
import QueryGate.Proofs.QueryFaults

/-! The order of the keys in the objects of a query, at any depth, has no bearing on what validation makes of it. -/
namespace QueryGate
open Outcome

mutual
/-- A value that has no key twice in an object, and the same value with the keys of its objects in another order. -/
inductive Value.Reordered : Value → Value → Prop
  | scalar (s : Scalar) : Value.Reordered (.scalar s) (.scalar s)
  | list {items others : List Value} (each : List.Forall₂ Value.Reordered items others) :
      Value.Reordered (.list items) (.list others)
  | object {fields inPlace others : Fields} (once : fields.keys.Nodup) (each : Fields.ReorderedInside fields inPlace)
      (order : inPlace.Perm others) : Value.Reordered (.object fields) (.object others)
inductive Fields.ReorderedInside : Fields → Fields → Prop
  | nil : Fields.ReorderedInside [] []
  | cons {v w : Value} {fields others : Fields} (key : String) (value : Value.Reordered v w)
      (rest : Fields.ReorderedInside fields others) : Fields.ReorderedInside ((key, v) :: fields) ((key, w) :: others)
end

namespace Fields

theorem value?_eq_some {fields : Fields} (once : fields.keys.Nodup) {key : String} {v : Value} :
    fields.value? key = some v ↔ (key, v) ∈ fields := by
  constructor
  · intro h
    obtain ⟨before, after, rfl, -⟩ := List.lookup_eq_some_iff.mp h
    exact List.mem_append_right _ List.mem_cons_self
  · intro member
    induction fields with
    | nil => exact absurd member List.not_mem_nil
    | cons field rest ih =>
      obtain ⟨name, w⟩ := field
      obtain ⟨notBehind, once⟩ := List.nodup_cons.mp once
      rw [value?_cons]
      rcases List.mem_cons.mp member with same | later
      · cases same
        rw [beq_self_eq_true, if_pos rfl]
      · have behind : key ∈ Fields.keys rest := List.mem_map_of_mem later
        have other : key ≠ name := fun same => notBehind (same ▸ behind)
        rw [beq_eq_false_iff_ne.mpr other, if_neg Bool.false_ne_true]
        exact ih once later

theorem value?_perm {fields others : Fields} (once : fields.keys.Nodup) (order : fields.Perm others) (key : String) :
    fields.value? key = others.value? key := by
  have keys : fields.keys.Perm others.keys := order.map _
  refine Option.ext fun v => ?_
  rw [value?_eq_some once, value?_eq_some (keys.nodup_iff.mp once)]
  exact order.mem_iff

theorem ReorderedInside.keys_eq {fields others : Fields} (h : fields.ReorderedInside others) :
    fields.keys = others.keys := by
  induction fields generalizing others with
  | nil => cases h; rfl
  | cons field rest ih =>
    cases h with
    | cons key _ behind => exact congrArg (key :: ·) (ih behind)

theorem ReorderedInside.value? {fields others : Fields} (h : fields.ReorderedInside others) (key : String) :
    Option.Rel Value.Reordered (fields.value? key) (others.value? key) := by
  induction fields generalizing others with
  | nil =>
    cases h
    exact .none
  | cons field rest ih =>
    cases h with
    | cons name value behind =>
      rw [value?_cons, value?_cons]
      split
      · exact .some value
      · exact ih behind

theorem ReorderedInside.forall₂ {fields others : Fields} (h : fields.ReorderedInside others) :
    List.Forall₂ (fun f g => f.2.Reordered g.2) fields others := by
  induction fields generalizing others with
  | nil =>
    cases h
    exact .nil
  | cons field rest ih =>
    cases h with
    | cons key value behind => exact .cons value (ih behind)

structure Reordered (fields others : Fields) : Prop where
  keys : fields.keys.Perm others.keys
  value? : ∀ key, Option.Rel Value.Reordered (fields.value? key) (others.value? key)

variable {fields others : Fields} (h : fields.Reordered others)
include h

theorem Reordered.has_eq (key : String) : fields.has key = others.has key := by
  have found := h.value? key
  unfold Fields.has
  generalize fields.value? key = v, others.value? key = w at found
  cases found <;> rfl

theorem Reordered.firstOf (names : List String) : (fields.firstOf names).Reordered (others.firstOf names) := by
  induction names with
  | nil => exact .scalar .null
  | cons name names ih =>
    have found := h.value? name
    rw [Fields.firstOf_cons, Fields.firstOf_cons]
    generalize fields.value? name = v, others.value? name = w at found
    cases found with
    | none => exact ih
    | some found => exact found

theorem Reordered.length_eq : fields.length = others.length := by
  simpa only [Fields.keys, List.length_map] using h.keys.length_eq

end Fields

theorem isEmpty_eq_of_length {α β : Type} {xs : List α} {ys : List β} (h : xs.length = ys.length) :
    xs.isEmpty = ys.isEmpty := by
  rw [Bool.eq_iff_iff, List.isEmpty_iff_length_eq_zero, List.isEmpty_iff_length_eq_zero, h]

namespace Value

theorem Reordered.fields {fields others : Fields} (h : (Value.object fields).Reordered (.object others)) :
    fields.Reordered others := by
  cases h with
  | object once each order =>
    rw [each.keys_eq] at once
    constructor
    case keys =>
      rw [each.keys_eq]
      exact order.map _
    case value? =>
      intro key
      rw [← Fields.value?_perm once order]
      exact each.value? key

theorem Reordered.isNull_eq {v w : Value} (h : v.Reordered w) : v.isNull = w.isNull := by
  cases h <;> rfl

theorem forall_mem_iff {α β : Type} {R : α → β → Prop} {P : α → Prop} {Q : β → Prop} {xs : List α} {ys : List β}
    (h : List.Forall₂ R xs ys) (each : ∀ x ∈ xs, ∀ y, R x y → (P x ↔ Q y)) : (∀ x ∈ xs, P x) ↔ ∀ y ∈ ys, Q y := by
  induction h with
  | nil => exact iff_of_true (List.forall_mem_nil _) (List.forall_mem_nil _)
  | cons related _ ih =>
    obtain ⟨first, others⟩ := List.forall_mem_cons.mp each
    rw [List.forall_mem_cons, List.forall_mem_cons, first _ related, ih others]

theorem Reordered.isShort_iff {v w : Value} (h : v.Reordered w) : v.isShort = true ↔ w.isShort = true := by
  -- on the levels of the value, since what is reordered stands inside two relations
  obtain ⟨n, shallow⟩ : ∃ n, v.levels ≤ n := ⟨_, Nat.le_refl _⟩
  induction n generalizing v w with
  | zero =>
    cases h with
    | scalar s => exact Iff.rfl
    | list each => exact absurd shallow (Nat.not_succ_le_zero _)
    | object once each order => exact absurd shallow (Nat.not_succ_le_zero _)
  | succ n ih =>
    cases h with
    | scalar s => exact Iff.rfl
    | list each =>
      rw [isShort_list, isShort_list]
      exact forall_mem_iff each fun v member w related => ih related (levels_list.mp shallow v member)
    | object once each order =>
      rw [isShort_object, isShort_object, forall_mem_iff each.forall₂ fun f member g related =>
        ih related (levels_object.mp shallow f member)]
      exact forall_congr' fun f => imp_congr_left order.mem_iff

theorem Reordered.isEmpty_eq {v w : Value} (h : v.Reordered w) : v.isEmpty = w.isEmpty := by
  cases h with
  | scalar s => rfl
  | list each => exact isEmpty_eq_of_length each.length_eq
  | object once each order => exact isEmpty_eq_of_length (Reordered.object once each order).fields.length_eq

end Value

/-- The causes whose message shows a value as it was sent. -/
def Rejection.showing : List (Value → Rejection) :=
  [.invalidName, .logicNotAllowed, .operatorNotAllowed, .invalidJoinKind, .invalidTable "table", .invalidTable "alias",
    .invalidOrderName, .invalidDirection]

/-- The same fault, but for the order of keys in the value that its message shows. -/
inductive QueryFault.Reordered : QueryFault → QueryFault → Prop
  | same (f : QueryFault) : Reordered f f
  | shown {cause : Value → Rejection} {v w : Value} (showing : cause ∈ Rejection.showing) (h : v.Reordered w) :
      Reordered (.rejected (cause v)) (.rejected (cause w))

def QueryFault.kind? : QueryFault → Option String
  | .rejected r => some r.kind
  | _ => none

theorem QueryFault.Reordered.kind_eq {f g : QueryFault} (h : f.Reordered g) : f.kind? = g.kind? := by
  have each : ∀ cause ∈ Rejection.showing, ∀ v w, (cause v).kind = (cause w).kind := by
    simp [Rejection.showing, Rejection.kind]
  cases h with
  | same f => rfl
  | shown showing h => exact congrArg some (each _ showing _ _)

/-- Two validations with the same result, or with the same fault but for an order of keys. -/
abbrev SameCourse {α : Type} : Except QueryFault α → Except QueryFault α → Prop := Corresponds QueryFault.Reordered Eq

theorem sameCourse_refl {α : Type} (x : Except QueryFault α) : SameCourse x x := Corresponds.refl .same x

theorem sameCourse_shown {α : Type} {cause : Value → Rejection} {v w : Value} (showing : cause ∈ Rejection.showing)
    (h : v.Reordered w) : SameCourse (reject (cause v) : Except QueryFault α) (reject (cause w)) := by
  have shows : ∀ cause ∈ Rejection.showing, ∀ v, (cause v).shows = [v] := by
    simp [Rejection.showing, Rejection.shows]
  rw [reject, reject, Rejection.fault, Rejection.fault, shows _ showing, shows _ showing]
  simp only [List.all_cons, List.all_nil, Bool.and_true, h.isShort_iff]
  split
  · exact .error (.shown showing h)
  · exact .error (.same _)

namespace Text

theorem precedesChars_total (s t : List Char) : precedesChars s t || precedesChars t s := by
  induction s generalizing t with
  | nil => rfl
  | cons a s ih =>
    cases t with
    | nil => rfl
    | cons b t =>
      by_cases same : a = b
      · simpa [precedesChars, same] using ih t
      · have differ : a.toNat ≠ b.toNat := fun e => same (Char.toNat_inj.mp e)
        simp only [precedesChars, same, Ne.symm same, if_false, Bool.or_eq_true, decide_eq_true_eq]
        omega

theorem precedesChars_trans {s t u : List Char} (h : precedesChars s t) (h' : precedesChars t u) :
    precedesChars s u := by
  induction s generalizing t u with
  | nil => rfl
  | cons a s ih =>
    cases t with
    | nil => exact absurd h nofun
    | cons b t =>
      cases u with
      | nil => exact absurd h' nofun
      | cons c u =>
        grind [precedesChars]

theorem precedesChars_antisymm {s t : List Char} (h : precedesChars s t) (h' : precedesChars t s) : s = t := by
  induction s generalizing t with
  | nil =>
    cases t with
    | nil => rfl
    | cons b t => exact absurd h' nofun
  | cons a s ih =>
    cases t with
    | nil => exact absurd h nofun
    | cons b t => grind [precedesChars]

theorem sorted_eq_of_perm {texts others : List String} (h : texts.Perm others) : sorted texts = sorted others := by
  have total (s t : String) : precedes s t || precedes t s := precedesChars_total s.toList t.toList
  have trans (s t u : String) (h : precedes s t) (h' : precedes t u) : precedes s u := precedesChars_trans h h'
  have ordered (texts : List String) : (sorted texts).Pairwise (precedes · ·) :=
    List.pairwise_mergeSort trans total texts
  have perm : (sorted texts).Perm (sorted others) :=
    ((List.mergeSort_perm texts _).trans h).trans (List.mergeSort_perm others _).symm
  refine List.Perm.eq_of_pairwise (fun s t _ _ st ts => ?_) (ordered texts) (ordered others) perm
  exact String.toList_inj.mp (precedesChars_antisymm st ts)

end Text

namespace PredicateShape

theorem unknownKeys_eq {fields others : Fields} (known : List String) (h : fields.keys.Perm others.keys) :
    unknownKeys known fields = unknownKeys known others := Text.sorted_eq_of_perm (h.filter _)

end PredicateShape

section
variable {α : Type} {check : Value → Except QueryFault α} {v w : Value} (h : v.Reordered w)
include h

theorem sameCourse_of_shown {cause : Value → Rejection} (showing : cause ∈ Rejection.showing)
    (list : ∀ items, check (.list items) = reject (cause (.list items)))
    (object : ∀ fields, check (.object fields) = reject (cause (.object fields))) :
    SameCourse (check v) (check w) := by
  cases h with
  | scalar s => exact sameCourse_refl _
  | list each =>
    rw [list, list]
    exact sameCourse_shown showing (.list each)
  | object once each order =>
    rw [object, object]
    exact sameCourse_shown showing (.object once each order)

theorem sameCourse_of_alike (list : ∀ items others, check (.list items) = check (.list others))
    (object : ∀ fields others, check (.object fields) = check (.object others)) :
    SameCourse (check v) (check w) := by
  cases h with
  | scalar s => exact sameCourse_refl _
  | list each =>
    rw [list]
    exact sameCourse_refl _
  | object once each order =>
    rw [object]
    exact sameCourse_refl _

end

theorem sameCourse_each {α : Type} {check : Value → Except QueryFault α} {items others : List Value}
    (each : List.Forall₂ Value.Reordered items others)
    (alike : ∀ {v w : Value}, v.Reordered w → SameCourse (check v) (check w)) :
    SameCourse (some <$> items.mapM check) (some <$> others.mapM check) :=
  (Corresponds.mapM_same each fun _ _ => alike).map_same some

variable (o : ValidationOptions)

theorem validateCondition_reordered {field operator operand field' operator' operand' : Value}
    (h : field.Reordered field') (h' : operator.Reordered operator') (h'' : operand.Reordered operand') :
    SameCourse (validateCondition o field operator operand) (validateCondition o field' operator' operand') := by
  have names : SameCourse (validateField o field) (validateField o field') :=
    sameCourse_of_shown h (by simp [Rejection.showing]) (fun _ => rfl) (fun _ => rfl)
  have operators : SameCourse (validateOperator o operator) (validateOperator o operator') :=
    sameCourse_of_shown h' (by simp [Rejection.showing]) (fun _ => rfl) (fun _ => rfl)
  have operands : SameCourse (validateOperand o operand) (validateOperand o operand') :=
    sameCourse_of_alike h'' (fun _ _ => rfl) (fun _ _ => rfl)
  apply names.bind_same
  intro name
  apply operators.bind_same
  intro op
  rw [h''.isNull_eq]
  split
  · exact sameCourse_refl _
  · split
    · exact sameCourse_refl _
    · exact operands.bind_same fun s => sameCourse_refl _

namespace PredicateShape

inductive Reordered : PredicateShape → PredicateShape → Prop
  | condition {field operator operand field' operator' operand' : Value} (h : field.Reordered field')
      (h' : operator.Reordered operator') (h'' : operand.Reordered operand') :
      Reordered (.condition field operator operand) (.condition field' operator' operand')
  | group {operator children negate operator' children' negate' : Value} (h : operator.Reordered operator')
      (h' : children.Reordered children') (h'' : negate.Reordered negate') :
      Reordered (.group operator children negate) (.group operator' children' negate')

variable {fields others : Fields} (h : fields.Reordered others)
include h

theorem ofShorthand_reordered {keys keys' : List String} (order : keys.Perm keys') :
    Corresponds QueryFault.Reordered Reordered (ofShorthand keys fields) (ofShorthand keys' others) := by
  have single := order.length_eq
  unfold ofShorthand
  match keys, keys' with
  | [key], [key'] =>
    obtain rfl := List.singleton_perm_singleton.mp order
    rw [unknownKeys_eq _ h.keys]
    cases unknownKeys ([key] ++ Form.negateNames) others with
    | nil => exact .ok (.group (.scalar _) (h.firstOf _) (h.firstOf _))
    | cons name names => exact .error (.same _)
  | [], [] => exact .error (.same _)
  | _ :: _ :: _, _ :: _ :: _ => exact .error (.same _)

theorem ofFields_reordered : Corresponds QueryFault.Reordered Reordered (ofFields fields) (ofFields others) := by
  have tag : Form.predicateTag? fields = Form.predicateTag? others := by
    unfold Form.predicateTag?
    rw [h.has_eq, h.has_eq, h.has_eq]
  unfold ofFields
  rw [tag]
  split
  · unfold ofCondition
    rw [unknownKeys_eq _ h.keys]
    split
    · exact .ok (.condition (h.firstOf _) (h.firstOf _) (h.firstOf _))
    · exact .error (.same _)
  · unfold ofGroup
    rw [unknownKeys_eq _ h.keys]
    split
    · exact .ok (.group (h.firstOf _) (h.firstOf _) (h.firstOf _))
    · exact .error (.same _)
  · have shorthands : (fields.keys.filter isShorthand).Perm (others.keys.filter isShorthand) := h.keys.filter _
    generalize fields.keys.filter isShorthand = keys, others.keys.filter isShorthand = keys' at shorthands
    cases keys with
    | nil =>
      obtain rfl := List.nil_perm.mp shorthands
      exact .error (.same _)
    | cons key keys =>
      cases keys' with
      | nil => exact absurd shorthands.length_eq nofun
      | cons key' keys' => exact ofShorthand_reordered h shorthands

end PredicateShape

theorem validateLogic_reordered {v w : Value} (h : v.Reordered w) :
    SameCourse (validateLogic o v) (validateLogic o w) :=
  sameCourse_of_alike h (fun _ _ => rfl) (fun _ _ => rfl)

theorem validateChildren_reordered {v w : Value} (h : v.Reordered w) :
    Corresponds QueryFault.Reordered (List.Forall₂ Value.Reordered) (validateChildren o v) (validateChildren o w) := by
  cases h with
  | scalar s => exact .error (.same _)
  | object once each order => exact .error (.same _)
  | list each =>
    have same := each.length_eq
    unfold validateChildren
    simp only [isEmpty_eq_of_length same, same]
    split
    · exact .error (.same _)
    · split
      · exact .error (.same _)
      · exact .ok each

theorem validateNegation_reordered {v w : Value} (h : v.Reordered w) :
    SameCourse (validateNegation v) (validateNegation w) :=
  sameCourse_of_alike h (fun _ _ => rfl) (fun _ _ => rfl)

theorem validatePredicate_reordered (levels : Nat) {v w : Value} (h : v.Reordered w) :
    SameCourse (validatePredicate o levels v) (validatePredicate o levels w) := by
  -- on the levels left, of which each child of a group has one less
  induction levels generalizing v w with
  | zero => exact sameCourse_refl _
  | succ levels ih =>
    cases h with
    | scalar s => exact sameCourse_refl _
    | list each => exact sameCourse_refl _
    | object once each order =>
      have shapes := PredicateShape.ofFields_reordered (Value.Reordered.object once each order).fields
      apply shapes.bind
      intro shape shape' reordered
      cases reordered with
      | condition h h' h'' => exact (validateCondition_reordered o h h' h'').map_same _
      | group h h' h'' =>
        apply (validateLogic_reordered o h).bind_same
        intro operator
        apply (validateChildren_reordered o h').bind
        intro items others each
        apply (validateNegation_reordered h'').bind_same
        intro negate
        have children := Corresponds.mapM_same each fun _ _ => ih
        apply children.bind_same
        intro children
        exact sameCourse_refl _

theorem validateClause_reordered (clause : String) {v w : Value} (h : v.Reordered w) :
    SameCourse (validateClause o clause v) (validateClause o clause w) := by
  cases h with
  | scalar s => exact sameCourse_refl _
  | list each => exact sameCourse_each each (validatePredicate_reordered o o.levels)
  | object once each order =>
    exact sameCourse_each (.cons (.object once each order) .nil) (validatePredicate_reordered o o.levels)

theorem validateNames_reordered (clause : String) (most : Int) {v w : Value} (h : v.Reordered w) :
    SameCourse (validateNames clause most v) (validateNames clause most w) := by
  cases h with
  | scalar s => exact sameCourse_refl _
  | object once each order => exact sameCourse_refl _
  | list each =>
    have entry {v w : Value} (h : v.Reordered w) :
        SameCourse (validateListedName clause v) (validateListedName clause w) :=
      sameCourse_of_alike h (fun _ _ => rfl) (fun _ _ => rfl)
    unfold validateNames
    simp only [each.length_eq]
    split
    · exact sameCourse_refl _
    · exact sameCourse_each each entry

theorem validateTable_reordered {role : String} (showing : Rejection.invalidTable role ∈ Rejection.showing)
    {v w : Value} (h : v.Reordered w) : SameCourse (validateTable role v) (validateTable role w) :=
  sameCourse_of_shown h showing (fun _ => rfl) (fun _ => rfl)

theorem validateLabel_reordered {v w : Value} (h : v.Reordered w) : SameCourse (validateLabel v) (validateLabel w) := by
  have showing : Rejection.invalidTable "alias" ∈ Rejection.showing := by simp [Rejection.showing]
  have label := (validateTable_reordered showing h).map_same some
  cases h with
  | scalar s => exact sameCourse_refl _
  | list each => exact label
  | object once each order => exact label

theorem wordOr_reordered (default : String) {v w : Value} (h : v.Reordered w) :
    (wordOr default v).Reordered (wordOr default w) := by
  unfold wordOr
  rw [h.isEmpty_eq]
  split
  · exact .scalar _
  · cases h with
    | scalar s => cases s <;> exact .scalar _
    | list each => exact .list each
    | object once each order => exact .object once each order

theorem wordOr_text (default : String) {v w : Value} (h : v.Reordered w) :
    (wordOr default v).text? = (wordOr default w).text? := by
  have words := wordOr_reordered default h
  generalize wordOr default v = v, wordOr default w = w at words
  cases words <;> rfl

theorem validateJoinKind_reordered {v w : Value} (h : v.Reordered w) :
    SameCourse (validateJoinKind v) (validateJoinKind w) := by
  unfold validateJoinKind
  dsimp only
  rw [wordOr_text "INNER" h]
  split
  · exact sameCourse_refl _
  · -- a kind that is not known is shown as the word that it was read as
    exact sameCourse_shown (by simp [Rejection.showing]) (wordOr_reordered "INNER" h)

theorem validateJoin_reordered {v w : Value} (h : v.Reordered w) :
    SameCourse (validateJoin o v) (validateJoin o w) := by
  cases h with
  | scalar s => exact sameCourse_refl _
  | list each => exact sameCourse_refl _
  | object once each order =>
    have h := (Value.Reordered.object once each order).fields
    unfold validateJoin
    simp only [PredicateShape.unknownKeys_eq joinKeys h.keys]
    split
    · exact sameCourse_refl _
    · apply (validateJoinKind_reordered (h.firstOf _)).bind_same
      intro kind
      apply (validateTable_reordered (by simp [Rejection.showing]) (h.firstOf _)).bind_same
      intro table
      apply (validateLabel_reordered (h.firstOf _)).bind_same
      intro label
      apply (validateClause_reordered o "join" (h.firstOf _)).bind_same
      intro on
      exact sameCourse_refl _

theorem validateJoins_reordered {v w : Value} (h : v.Reordered w) :
    SameCourse (validateJoins o v) (validateJoins o w) := by
  cases h with
  | scalar s => exact sameCourse_refl _
  | object once each order => exact sameCourse_refl _
  | list each => exact sameCourse_each each (validateJoin_reordered o)

theorem validateDirection_reordered {v w : Value} (h : v.Reordered w) :
    SameCourse (validateDirection v) (validateDirection w) := by
  unfold validateDirection
  rw [wordOr_text "ASC" h]
  split
  · exact sameCourse_refl _
  · exact sameCourse_shown (by simp [Rejection.showing]) h

theorem validateOrder_reordered {v w : Value} (h : v.Reordered w) :
    SameCourse (validateOrder o v) (validateOrder o w) := by
  cases h with
  | scalar s => exact sameCourse_refl _
  | list each => exact sameCourse_refl _
  | object once each order =>
    have h := (Value.Reordered.object once each order).fields
    have names : SameCourse (validateOrderName o (Fields.firstOf _ ["field"])) (validateOrderName o _) :=
      sameCourse_of_shown (h.firstOf ["field"]) (by simp [Rejection.showing]) (fun _ => rfl) (fun _ => rfl)
    unfold validateOrder
    simp only [PredicateShape.unknownKeys_eq orderKeys h.keys]
    split
    · exact sameCourse_refl _
    · apply names.bind_same
      intro name
      apply (validateDirection_reordered (h.firstOf _)).bind_same
      intro direction
      exact sameCourse_refl _

theorem validateOrders_reordered {v w : Value} (h : v.Reordered w) :
    SameCourse (validateOrders o v) (validateOrders o w) := by
  cases h with
  | scalar s => exact sameCourse_refl _
  | list each => exact sameCourse_each each (validateOrder_reordered o)
  | object once each order => exact sameCourse_each (.cons (.object once each order) .nil) (validateOrder_reordered o)

theorem validateCount_reordered (least : Int) (broken : Rejection) {v w : Value} (h : v.Reordered w) :
    SameCourse (validateCount least broken v) (validateCount least broken w) :=
  sameCourse_of_alike h (fun _ _ => rfl) (fun _ _ => rfl)

theorem validate_reordered {v w : Value} (h : v.Reordered w) : SameCourse (validate o v) (validate o w) := by
  cases h with
  | scalar s => exact sameCourse_refl _
  | list each => exact sameCourse_refl _
  | object once each order =>
    have h := (Value.Reordered.object once each order).fields
    unfold validate
    simp only [PredicateShape.unknownKeys_eq clauseNames h.keys]
    split
    · exact sameCourse_refl _
    · apply (validateNames_reordered "select" _ (h.firstOf _)).bind_same
      intro select
      apply (validateJoins_reordered o (h.firstOf _)).bind_same
      intro joins
      apply (validateClause_reordered o "where" (h.firstOf _)).bind_same
      intro filter
      apply (validateNames_reordered "groupBy" _ (h.firstOf _)).bind_same
      intro groupBy
      apply (validateClause_reordered o "having" (h.firstOf _)).bind_same
      intro having
      apply (validateOrders_reordered o (h.firstOf _)).bind_same
      intro orderBy
      apply (validateCount_reordered 1 _ (h.firstOf _)).bind_same
      intro limit
      apply (validateCount_reordered 0 _ (h.firstOf _)).bind_same
      intro offset
      exact sameCourse_refl _

omit o

/-- A query that is sent with its keys in another order is read as the same query, or refused for the same reason:
the same rule is broken first, and the message can differ in the order of keys of a value that it shows only. -/
theorem validate_keyOrder {raw other : Value} (h : raw.Reordered other) (o : ValidationOptions) :
    (∃ q, validate o raw = .ok q ∧ validate o other = .ok q) ∨
      ∃ f g, validate o raw = .error f ∧ validate o other = .error g ∧ f.Reordered g ∧ f.kind? = g.kind? := by
  obtain accepted | ⟨f, g, hf, hg, reordered⟩ := (validate_reordered o h).same_or
  · exact .inl accepted
  · exact .inr ⟨f, g, hf, hg, reordered, reordered.kind_eq⟩

def tallAdults : Value := .object
  [("where", .object [("not", .bool true), ("and", .list
      [.object [("field", .text "age"), ("op", .text ">"), ("value", .int 18)],
        .object [("children", .list [.object [("field", .text "height"), ("operator", .text "is null")]]),
          ("logicalOperator", .text "or")]])]),
    ("limit", .int 5)]

def tallAdultsReordered : Value := .object
  [("limit", .int 5),
    ("where", .object [("and", .list
      [.object [("value", .int 18), ("op", .text ">"), ("field", .text "age")],
        .object [("logicalOperator", .text "or"),
          ("children", .list [.object [("operator", .text "is null"), ("field", .text "height")]])]]),
      ("not", .bool true)])]

theorem tallAdults_reordered : tallAdults.Reordered tallAdultsReordered := by
  have age : Value.Reordered (.object [("field", .text "age"), ("op", .text ">"), ("value", .int 18)]) _ :=
    .object (by decide) (.cons _ (.scalar _) (.cons _ (.scalar _) (.cons _ (.scalar _) .nil)))
      (List.reverse_perm _).symm
  have height : Value.Reordered (.object [("field", .text "height"), ("operator", .text "is null")]) _ :=
    .object (by decide) (.cons _ (.scalar _) (.cons _ (.scalar _) .nil)) (.swap _ _ _)
  have group : Value.Reordered (.object [("children", .list [_]), ("logicalOperator", .text "or")]) _ :=
    .object (by decide) (.cons _ (.list (.cons height .nil)) (.cons _ (.scalar _) .nil)) (.swap _ _ _)
  have both : Value.Reordered (.object [("not", .bool true), ("and", .list [_, _])]) _ :=
    .object (by decide) (.cons _ (.scalar _) (.cons _ (.list (.cons age (.cons group .nil))) .nil)) (.swap _ _ _)
  exact .object (by decide) (.cons _ both (.cons _ (.scalar _) .nil)) (.swap _ _ _)

def pairedName (pair : Fields) : Value := .object
  [("where", .object [("field", .object pair), ("operator", .text "="), ("value", .int 1)])]

theorem pairedName_reordered :
    (pairedName [("a", .int 1), ("b", .int 2)]).Reordered (pairedName [("b", .int 2), ("a", .int 1)]) := by
  have pair : Value.Reordered (.object [("a", .int 1), ("b", .int 2)]) (.object [("b", .int 2), ("a", .int 1)]) :=
    .object (by decide) (.cons _ (.scalar _) (.cons _ (.scalar _) .nil)) (.swap _ _ _)
  have condition : Value.Reordered (.object [("field", .object _), ("operator", .text "="), ("value", .int 1)]) _ :=
    .object (by decide) (.cons _ pair (.cons _ (.scalar _) (.cons _ (.scalar _) .nil))) (.refl _)
  exact .object (by decide) (.cons _ condition .nil) (.refl _)

theorem validate_keyOrder_tallAdults :
    (tallAdults.Reordered tallAdultsReordered ∧ ∃ q, validate .strict tallAdults = .ok q ∧
      validate .strict tallAdultsReordered = .ok q ∧ q.limit = some 5) ∧
    ∃ f g, validate .strict (pairedName [("a", .int 1), ("b", .int 2)]) = .error f ∧
      validate .strict (pairedName [("b", .int 2), ("a", .int 1)]) = .error g ∧ f.kind? = g.kind? ∧
      f.message ≠ g.message := by
  constructor
  · have accepted : (validate .strict tallAdults).toOption.map (·.limit) = some (some 5) := by decide +kernel
    obtain ⟨q, hq, limit⟩ := toOption_map_eq_some.mp accepted
    obtain ⟨r, hr, again⟩ | ⟨f, g, hf, -⟩ := validate_keyOrder tallAdults_reordered .strict
    · obtain rfl := Except.ok.inj (hq.symm.trans hr)
      exact ⟨tallAdults_reordered, q, hq, again, limit⟩
    · rw [hq] at hf
      cases hf
  · have refused (pair : Fields) (short : (Value.object pair).isShort = true) :
        validate .strict (pairedName pair) = .error (.rejected (.invalidName (.object pair))) := by
      have run : validate .strict (pairedName pair) = reject (.invalidName (.object pair)) := by with_unfolding_all rfl
      rw [run, reject, Rejection.fault, Rejection.shows, List.all_cons, short]
      rfl
    obtain ⟨r, hr, -⟩ | ⟨f, g, hf, hg, -, kind⟩ := validate_keyOrder pairedName_reordered .strict
    · rw [refused _ (by decide)] at hr
      cases hr
    · obtain rfl := Except.error.inj ((refused _ (by decide)).symm.trans hf)
      obtain rfl := Except.error.inj ((refused _ (by decide)).symm.trans hg)
      exact ⟨_, _, hf, hg, kind, by decide +kernel⟩

end QueryGate
