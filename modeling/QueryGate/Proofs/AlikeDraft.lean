import QueryGate.Proofs.Alike
import QueryGate.Proofs.StatementMarks

/-! Drafts with one text whose parameters differ only where the values do that they were made from. -/
namespace QueryGate
variable {R : Value → Value → Prop}

/-- What two runs bind at one mark: values of one place, lists of such values, or null in the place of a value that
neither row has. -/
inductive ParamAlike (R : Value → Value → Prop) : Value → Value → Prop
  | value {v w : Value} (h : R v w) : ParamAlike R v w
  | list {vs ws : List Value} (h : List.Forall₂ R vs ws) : ParamAlike R (.list vs) (.list ws)
  | absent : ParamAlike R .null .null

namespace Draft

structure Alike (R : Value → Value → Prop) (x y : Draft) : Prop where
  pieces : x.pieces = y.pieces
  params : List.Forall₂ (ParamAlike R) x.params y.params

theorem IsFree.alike {x : Draft} (h : IsFree x) : x.Alike R x := ⟨rfl, h.2 ▸ .nil⟩

theorem Alike.append {x x' y y' : Draft} (hx : x.Alike R x') (hy : y.Alike R y') : (x ++ y).Alike R (x' ++ y') := by
  constructor
  · rw [pieces_append, pieces_append, hx.pieces, hy.pieces]
  · rw [params_append, params_append]
    exact List.rel_append hx.params hy.params

theorem Alike.between {x x' : Draft} (h : x.Alike R x') (s t : String) : (x.between s t).Alike R (x'.between s t) :=
  ((isFree_word s).alike.append h).append (isFree_word t).alike

theorem alike_params {xs ys : List Draft} (h : List.Forall₂ (Alike R) xs ys) :
    List.Forall₂ (ParamAlike R) (xs.flatMap (·.params)) (ys.flatMap (·.params)) :=
  List.rel_flatMap h fun _ _ each => each.params

theorem alike_join {xs ys : List Draft} (h : List.Forall₂ (Alike R) xs ys) (s : String) :
    (join s xs).Alike R (join s ys) := by
  have pieces : xs.map (·.pieces) = ys.map (·.pieces) := by
    induction h with
    | nil => rfl
    | cons first _ ih => rw [List.map_cons, List.map_cons, first.pieces, ih]
  exact ⟨congrArg [Piece.word s].intercalate pieces, alike_params h⟩

theorem alike_mark (i : Int) {v w : Value} (h : ParamAlike R v w) :
    (Draft.mk [.marker i] [v]).Alike R ⟨[.marker i], [w]⟩ := ⟨rfl, .cons h .nil⟩

theorem alike_markers (offset : Int) {vs ws : List Value} (h : List.Forall₂ (ParamAlike R) vs ws) :
    List.Forall₂ (Alike R) (markers offset vs) (markers offset ws) := by
  unfold markers
  generalize 1 = k
  induction h generalizing k with
  | nil => exact .nil
  | cons first _ ih => exact .cons (alike_mark _ first) (ih _)

theorem alike_of_free {xs : List Draft} (h : ∀ x ∈ xs, IsFree x) : List.Forall₂ (Alike R) xs xs :=
  List.forall₂_same.mpr fun x hx => (h x hx).alike

end Draft

open Draft

theorem Condition.Alike.compile {inJoin : Bool} {c c' : Condition} (h : c.Alike R inJoin c') (offset : Int) :
    (c.compile inJoin offset).Alike R (c'.compile inJoin offset) := by
  have head (s : String) : (Draft.name c'.field ++ .word s).Alike R (.name c'.field ++ .word s) :=
    ((isFree_name _).append (isFree_word s)).alike
  unfold Condition.compile
  rw [h.field, h.operator, h.reference]
  cases c'.operator.isUnary with
  | true => exact head _
  | false =>
    cases ref : c'.reference? inJoin with
    | some column => exact (head _).append (isFree_name column).alike
    | none =>
      have operand := alike_mark (offset + 1) (.value (h.value (h.reference.trans ref)))
      cases c'.operator.takesList with
      | true => exact (head _).append (operand.between _ _)
      | false => exact (head _).append operand

theorem Logic.alike_compileGroup {children children' : List Draft} (h : List.Forall₂ (Draft.Alike R) children children')
    (operator : Logic) (negate : Bool) (parent : Option Logic) :
    (operator.compileGroup negate parent children).Alike R (operator.compileGroup negate parent children') := by
  have body := alike_join h (" " ++ operator.text ++ " ")
  unfold Logic.compileGroup
  cases operator.needsParentheses negate parent <;> cases negate
  · exact body
  · exact (isFree_word _).alike.append body
  · exact body.between _ _
  · exact (isFree_word _).alike.append (body.between _ _)

namespace Predicate

theorem areAlike_iff {inJoin : Bool} {ps ps' : List Predicate} :
    AreAlike R inJoin ps ps' ↔ List.Forall₂ (Predicate.Alike R inJoin) ps ps' := by
  induction ps generalizing ps' with
  | nil => cases ps' <;> simp [AreAlike]
  | cons p ps ih => cases ps' <;> simp [AreAlike, ih]

theorem alike_compileAll_of {inJoin : Bool} (parent : Option Logic) {ps ps' : List Predicate}
    (each : ∀ p ∈ ps, ∀ p', p.Alike R inJoin p' → ∀ offset,
      (p.compile inJoin parent offset).Alike R (p'.compile inJoin parent offset))
    (h : AreAlike R inJoin ps ps') (offset : Int) :
    List.Forall₂ (Draft.Alike R) (compileAll inJoin parent offset ps) (compileAll inJoin parent offset ps') := by
  have h := areAlike_iff.mp h
  induction h generalizing offset with
  | nil => exact .nil
  | @cons p p' ps ps' first _ ih =>
    obtain ⟨hp, hps⟩ := List.forall_mem_cons.mp each
    have compiled := hp p' first offset
    -- as many parameters come before the others
    rw [compileAll, compileAll, ← compiled.params.length_eq]
    exact .cons compiled (ih hps (areAlike_iff.mpr ‹_›) _)

theorem Alike.compile {inJoin : Bool} {p p' : Predicate} (h : p.Alike R inJoin p') (parent : Option Logic)
    (offset : Int) : (p.compile inJoin parent offset).Alike R (p'.compile inJoin parent offset) := by
  induction p generalizing p' parent offset with
  | condition c =>
    cases p' with
    | condition c' => exact Condition.Alike.compile h offset
    | group operator' children' negate' => exact h.elim
  | group operator children negate ih =>
    cases p' with
    | condition c' => exact h.elim
    | group operator' children' negate' =>
      obtain ⟨rfl, below, rfl⟩ := h
      exact Logic.alike_compileGroup (alike_compileAll_of _ (fun p hp p' h o => ih p hp h _ o) below offset) ..

theorem AreAlike.compileList {inJoin : Bool} {ps ps' : List Predicate} (h : AreAlike R inJoin ps ps') (offset : Int) :
    (Predicate.compileList inJoin offset ps).Alike R (Predicate.compileList inJoin offset ps') :=
  alike_join (alike_compileAll_of none (fun _ _ _ h o => h.compile none o) h offset) " AND "

theorem AreAlike.isEmpty {inJoin : Bool} {ps ps' : List Predicate} (h : AreAlike R inJoin ps ps') :
    ps.isEmpty = ps'.isEmpty := by
  cases areAlike_iff.mp h <;> rfl

end Predicate

namespace Fields

theorem Alike.keys {row row' : Fields} (h : Fields.Alike R row row') : row.keys = row'.keys := by
  induction h with
  | nil => rfl
  | cons first _ ih => exact congrArg₂ List.cons first.1 ih

theorem Alike.isEmpty {row row' : Fields} (h : Fields.Alike R row row') : row.isEmpty = row'.isEmpty := by
  cases h <;> rfl

theorem Alike.withoutId {row row' : Fields} (h : Fields.Alike R row row') :
    Fields.Alike R (Sql.withoutId row) (Sql.withoutId row') :=
  List.rel_filter (fun _ _ each => iff_of_eq (congrArg (fun name => (name != idField) = true) each.1)) h

theorem Alike.value? {row row' : Fields} (h : Fields.Alike R row row') (column : String) :
    Option.Rel R (row.value? column) (row'.value? column) := by
  induction h with
  | nil => exact .none
  | @cons f g rest rest' first _ ih =>
    obtain ⟨key, v⟩ := f
    obtain ⟨key', w⟩ := g
    obtain ⟨rfl, hv⟩ := first
    unfold Fields.value? at ih ⊢
    rw [List.lookup_cons, List.lookup_cons]
    cases column == key with
    | true => exact .some hv
    | false => exact ih

theorem Alike.value?_getD {row row' : Fields} (h : Fields.Alike R row row') (column : String) :
    ParamAlike R ((row.value? column).getD .null) ((row'.value? column).getD .null) := by
  have both := h.value? column
  generalize row.value? column = found, row'.value? column = found' at both
  cases both with
  | none => exact .absent
  | some hv => exact .value hv

end Fields
end QueryGate
