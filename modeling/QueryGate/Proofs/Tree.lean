import QueryGate.Query.Basic

/-! Induction over trees of conditions, and their leaves. -/
namespace QueryGate.Predicate

@[elab_as_elim, induction_eliminator]
theorem induct {motive : Predicate → Prop} (condition : ∀ c, motive (.condition c))
    (group : ∀ operator children negate, (∀ p ∈ children, motive p) →
      motive (.group operator children negate)) (p : Predicate) : motive p :=
  @Predicate.rec motive (fun ps => ∀ p ∈ ps, motive p) condition
    (fun operator children negate ih => group operator children negate ih)
    (List.forall_mem_nil _)
    (fun _ _ h ih => List.forall_mem_cons.mpr ⟨h, ih⟩) p

@[simp] theorem leaves_condition (c : Condition) : (condition c).leaves = [c] := rfl

@[simp] theorem leaves_group (operator : Logic) (children : List Predicate) (negate : Bool) :
    (group operator children negate).leaves = leavesOf children := rfl

@[simp] theorem leavesOf_nil : leavesOf [] = [] := rfl

@[simp] theorem leavesOf_cons (p : Predicate) (rest : List Predicate) :
    leavesOf (p :: rest) = p.leaves ++ leavesOf rest := rfl

theorem mem_leavesOf {c : Condition} {ps : List Predicate} : c ∈ leavesOf ps ↔ ∃ p ∈ ps, c ∈ p.leaves := by
  induction ps with
  | nil => simp only [leavesOf_nil, List.not_mem_nil, false_and, exists_false]
  | cons p rest ih => simp only [leavesOf_cons, List.mem_append, ih, List.mem_cons, exists_eq_or_imp]

def fields (ps : List Predicate) : List String := (leavesOf ps).map (·.field)

/-- `root.At depth p` if `p` stands `depth` levels below `root`. -/
inductive At : Predicate → Nat → Predicate → Prop
  | here (p : Predicate) : At p 0 p
  | under {operator : Logic} {children : List Predicate} {negate : Bool} {child p : Predicate} {depth : Nat}
      (hc : child ∈ children) (h : At child depth p) : At (.group operator children negate) (depth + 1) p

theorem at_of_mem_leaves {root : Predicate} {c : Condition} (h : c ∈ root.leaves) :
    ∃ depth, root.At depth (.condition c) := by
  induction root with
  | condition b =>
    rw [leaves_condition, List.mem_singleton] at h
    exact ⟨0, h ▸ .here _⟩
  | group operator children negate ih =>
    rw [leaves_group, mem_leavesOf] at h
    obtain ⟨p, hp, h⟩ := h
    obtain ⟨depth, h⟩ := ih p hp h
    exact ⟨depth + 1, .under hp h⟩

end QueryGate.Predicate
