import QueryGate.Proofs.Bound

/-! Parameter marks are numbered in a row: a draft with some parameters before it has the next numbers, one for
each parameter of its own. -/
namespace QueryGate

def following (offset : Int) : Nat → List Int
  | 0 => []
  | n + 1 => (offset + 1) :: following (offset + 1) n

theorem following_add (offset : Int) (m n : Nat) :
    following offset (m + n) = following offset m ++ following (offset + m) n := by
  induction m generalizing offset with
  | zero => simp [following]
  | succ m ih =>
    have shift : offset + 1 + (m : Int) = offset + (m + 1 : Nat) := by omega
    rw [Nat.succ_add, following, following, ih, shift, List.cons_append]

theorem following_zero (n : Nat) : following 0 n = (List.range n).map fun (i : Nat) => (i : Int) + 1 := by
  induction n with
  | zero => rfl
  | succ n ih =>
    rw [following_add, ih, List.range_succ, List.map_append, List.map_singleton]
    simp [following]

namespace Draft

/-- The marks of drafts one after the other have the next numbers behind `offset`. -/
def AreNumbered (offset : Int) (xs : List Draft) : Prop :=
  xs.flatMap (·.indexes) = following offset (xs.flatMap (·.params)).length

def Numbered (offset : Int) (x : Draft) : Prop := x.indexes = following offset x.params.length

theorem Numbered.nonneg {x : Draft} (h : Numbered 0 x) : ∀ i ∈ x.indexes, 0 ≤ i := by
  rw [show x.indexes = _ from h, following_zero]
  intro i hi
  obtain ⟨n, -, rfl⟩ := List.mem_map.mp hi
  omega

theorem areNumbered_nil (offset : Int) : AreNumbered offset [] := rfl

theorem areNumbered_append {offset : Int} {xs ys : List Draft} (hx : AreNumbered offset xs)
    (hy : AreNumbered (offset + (xs.flatMap (·.params)).length) ys) : AreNumbered offset (xs ++ ys) := by
  unfold AreNumbered at *
  rw [List.flatMap_append, List.flatMap_append, List.length_append, following_add, hx, hy]

theorem Numbered.singleton {offset : Int} {x : Draft} (h : Numbered offset x) : AreNumbered offset [x] := by
  unfold AreNumbered
  rw [List.flatMap_singleton, List.flatMap_singleton]
  exact h

theorem areNumbered_cons {offset : Int} {x : Draft} {xs : List Draft} (hx : Numbered offset x)
    (h : AreNumbered (offset + x.params.length) xs) : AreNumbered offset (x :: xs) := by
  refine areNumbered_append hx.singleton ?_
  rwa [List.flatMap_singleton]

theorem AreNumbered.join {offset : Int} {xs : List Draft} (h : AreNumbered offset xs) (s : String) :
    Numbered offset (join s xs) := by
  unfold Numbered
  rw [indexes_join, params_join]
  exact h

theorem numbered_append {offset : Int} {x y : Draft} (hx : Numbered offset x)
    (hy : Numbered (offset + x.params.length) y) : Numbered offset (x ++ y) := by
  unfold Numbered at *
  rw [indexes_append, params_append, List.length_append, following_add, hx, hy]

theorem numbered_mark (offset : Int) (v : Value) : Numbered offset ⟨[.marker (offset + 1)], [v]⟩ := rfl

theorem Numbered.between {offset : Int} {x : Draft} (h : Numbered offset x) (s t : String) :
    Numbered offset (x.between s t) := by
  unfold Numbered
  rw [indexes_between, params_between]
  exact h

def IsFree (x : Draft) : Prop := x.indexes = [] ∧ x.params = []

theorem isFree_word (s : String) : IsFree (word s) := ⟨rfl, rfl⟩
theorem isFree_name (s : String) : IsFree (name s) := ⟨rfl, rfl⟩

theorem IsFree.append {x y : Draft} (hx : IsFree x) (hy : IsFree y) : IsFree (x ++ y) := by
  simp only [IsFree, indexes_append, params_append, hx.1, hx.2, hy.1, hy.2, List.append_nil, and_self]

theorem isFree_join {s : String} {xs : List Draft} (h : ∀ x ∈ xs, IsFree x) : IsFree (join s xs) := by
  simp only [IsFree, indexes_join, params_join, List.flatMap_eq_nil_iff]
  exact ⟨fun x hx => (h x hx).1, fun x hx => (h x hx).2⟩

theorem IsFree.numbered {x : Draft} (h : IsFree x) (offset : Int) : Numbered offset x := by
  rw [Numbered, h.1, h.2]
  rfl

theorem areNumbered_of_free {xs : List Draft} (h : ∀ x ∈ xs, IsFree x) (offset : Int) : AreNumbered offset xs := by
  have marks : xs.flatMap (·.indexes) = [] := List.flatMap_eq_nil_iff.mpr fun x hx => (h x hx).1
  have params : xs.flatMap (·.params) = [] := List.flatMap_eq_nil_iff.mpr fun x hx => (h x hx).2
  rw [AreNumbered, marks, params]
  rfl

theorem IsFree.before {offset : Int} {x y : Draft} (hx : IsFree x) (hy : Numbered offset y) :
    Numbered offset (x ++ y) := by
  refine numbered_append (hx.numbered offset) ?_
  simpa only [hx.2, List.length_nil, Int.ofNat_zero, Int.add_zero] using hy

theorem Numbered.before_free {offset : Int} {x y : Draft} (hx : Numbered offset x) (hy : IsFree y) :
    Numbered offset (x ++ y) := numbered_append hx (hy.numbered _)

theorem markers_params (offset : Int) (vs : List Value) : (markers offset vs).flatMap (·.params) = vs := by
  unfold markers
  generalize 1 = k
  induction vs generalizing k with
  | nil => rfl
  | cons v vs ih => simp only [List.zipIdx_cons, List.map_cons, List.flatMap_cons, ih, List.singleton_append]

theorem areNumbered_markers (offset : Int) (vs : List Value) : AreNumbered offset (markers offset vs) := by
  have row (f : Value × Nat → Draft) (hf : ∀ v i, (f (v, i)).indexes = [offset + (i : Int)]) (k : Nat) :
      ((vs.zipIdx (k + 1)).map f).flatMap (·.indexes) = following (offset + k) vs.length := by
    induction vs generalizing k with
    | nil => rfl
    | cons v vs ih =>
      have shift : offset + (k : Int) + 1 = offset + (k + 1 : Nat) := by omega
      rw [List.zipIdx_cons, List.map_cons, List.flatMap_cons, ih, hf, List.length_cons, following, shift,
        List.singleton_append]
  rw [AreNumbered, markers_params]
  simpa only [markers, Nat.zero_add, Int.ofNat_zero, Int.add_zero] using row _ (fun _ _ => rfl) 0

end Draft

namespace Condition

theorem numbered_compile (inJoin : Bool) (offset : Int) (c : Condition) :
    (c.compile inJoin offset).Numbered offset := by
  have head (s : String) : Draft.IsFree (.name c.field ++ .word s) :=
    (Draft.isFree_name c.field).append (Draft.isFree_word s)
  unfold compile
  cases c.operator.isUnary with
  | true => exact (head _).numbered offset
  | false =>
    cases c.reference? inJoin with
    | some column => exact ((head _).append (Draft.isFree_name column)).numbered offset
    | none =>
      cases c.operator.takesList with
      | true => exact (head _).before ((Draft.numbered_mark offset (.scalar c.value)).between _ _)
      | false => exact (head _).before (Draft.numbered_mark offset (.scalar c.value))

end Condition

theorem Logic.numbered_compileGroup {offset : Int} {children : List Draft} (h : Draft.AreNumbered offset children)
    (operator : Logic) (negate : Bool) (parent : Option Logic) :
    (operator.compileGroup negate parent children).Numbered offset := by
  have body := h.join (" " ++ operator.text ++ " ")
  unfold Logic.compileGroup
  cases operator.needsParentheses negate parent <;> cases negate
  · exact body
  · exact (Draft.isFree_word _).before body
  · exact body.between _ _
  · exact (Draft.isFree_word _).before (body.between _ _)

namespace Predicate

theorem areNumbered_of (inJoin : Bool) (parent : Option Logic) {ps : List Predicate}
    (h : ∀ p ∈ ps, ∀ offset, (p.compile inJoin parent offset).Numbered offset) (offset : Int) :
    Draft.AreNumbered offset (compileAll inJoin parent offset ps) := by
  induction ps generalizing offset with
  | nil => exact Draft.areNumbered_nil offset
  | cons p rest ih =>
    obtain ⟨hp, hrest⟩ := List.forall_mem_cons.mp h
    exact Draft.areNumbered_cons (hp offset) (ih hrest _)

theorem numbered_compile (inJoin : Bool) (parent : Option Logic) (offset : Int) (p : Predicate) :
    (p.compile inJoin parent offset).Numbered offset := by
  induction p generalizing parent offset with
  | condition c => exact c.numbered_compile inJoin offset
  | group operator children negate ih =>
    exact Logic.numbered_compileGroup (areNumbered_of inJoin _ (fun p hp o => ih p hp _ o) offset) operator negate parent

theorem numbered_compileList (inJoin : Bool) (offset : Int) (ps : List Predicate) :
    (compileList inJoin offset ps).Numbered offset :=
  (areNumbered_of inJoin none (fun p _ o => p.numbered_compile inJoin none o) offset).join " AND "

end Predicate
end QueryGate
