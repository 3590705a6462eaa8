import QueryGate.Proofs.ColumnReference
import QueryGate.Proofs.Draft
import QueryGate.Proofs.Tree

/-! What statements are made of: fixed words, counts, names and marks. The names are those of the operation and
of its schema, the star, the id column and the columns that operands name. -/
namespace QueryGate

def Sql.wording : List String :=
  ["SELECT ", " FROM ", ".", ", ", " AS ", " ON ", " ", "WHERE ", "GROUP BY ", "HAVING ", "ORDER BY ", "INSERT INTO ",
    " (", ") VALUES ", "UPDATE ", " SET ", " = ", " = CASE ", "WHEN ", " THEN ", " ELSE ", " END", " WHERE ", " IN ",
    "DELETE FROM ", " = ANY(", "(", ")", "NOT "] ++
  Operator.all.map (fun o => " " ++ o.text) ++ Operator.all.map (fun o => " " ++ o.text ++ " ") ++
  Logic.all.map (fun l => " " ++ l.text ++ " ") ++ JoinKind.all.map (fun k => k.text ++ " JOIN ") ++
  Direction.all.map fun d => " " ++ d.text

inductive Piece.Regular (names : String → Prop) (counts : Int → Prop) : Piece → Prop
  | word {s : String} (h : s ∈ Sql.wording) : Regular names counts (.word s)
  | count {keyword : String} {n : Int} (hk : keyword = "LIMIT" ∨ keyword = "OFFSET") (hn : counts n) :
      Regular names counts (.word (keyword ++ " " ++ toString n))
  | name {s : String} (h : names s) : Regular names counts (.name s)
  | marker (index : Int) : Regular names counts (.marker index)

theorem Piece.Regular.imp {names names' : String → Prop} {counts : Int → Prop} {p : Piece}
    (h : p.Regular names counts) (weaken : ∀ s, names s → names' s) : p.Regular names' counts := by
  cases h with
  | word h => exact .word h
  | count hk hn => exact .count hk hn
  | name h => exact .name (weaken _ h)
  | marker index => exact .marker index

def Draft.Regular (names : String → Prop) (counts : Int → Prop) (x : Draft) : Prop :=
  ∀ p ∈ x.pieces, p.Regular names counts

namespace Operation

def joinNames (j : Join) : List String := j.table :: (j.label.toList ++ Predicate.fields j.on)

/-- The names that an operation is given: its table, its columns, the fields of its conditions and, for each join,
the table, the label and the fields. -/
def names : Operation → List String
  | create op => op.table :: op.rows.flatMap Fields.keys
  | read op =>
    op.table :: (op.fields ++ op.joins.flatMap joinNames ++ Predicate.fields op.filter ++ op.groupBy ++
      Predicate.fields op.having ++ op.orderBy.map (·.field))
  | update op => op.table :: (op.rows.flatMap Fields.keys ++ Predicate.fields op.filter)
  | delete op => op.table :: Predicate.fields op.filter

end Operation

namespace Sql

theorem operator_mem_wording (o : Operator) : " " ++ o.text ∈ wording := by cases o <;> decide
theorem comparison_mem_wording (o : Operator) : " " ++ o.text ++ " " ∈ wording := by cases o <;> decide
theorem connective_mem_wording (l : Logic) : " " ++ l.text ++ " " ∈ wording := by cases l <;> decide
theorem kind_mem_wording (k : JoinKind) : k.text ++ " JOIN " ∈ wording := by cases k <;> decide
theorem direction_mem_wording (d : Direction) : " " ++ d.text ∈ wording := by cases d <;> decide

end Sql

section
variable {names : String → Prop} {counts : Int → Prop}

namespace Draft

theorem regular_word {s : String} (h : s ∈ Sql.wording) : Regular names counts (.word s) := by
  intro p hp
  rw [pieces_word, List.mem_singleton] at hp
  exact hp ▸ .word h

theorem regular_name {s : String} (h : names s) : Regular names counts (.name s) := by
  intro p hp
  rw [pieces_name, List.mem_singleton] at hp
  exact hp ▸ .name h

theorem regular_mark (index : Int) (vs : List Value) : Regular names counts ⟨[.marker index], vs⟩ := by
  intro p hp
  rw [List.mem_singleton.mp hp]
  exact .marker index

theorem Regular.append {x y : Draft} (hx : Regular names counts x) (hy : Regular names counts y) :
    Regular names counts (x ++ y) := by
  intro p hp
  rw [pieces_append, List.mem_append] at hp
  exact hp.elim (hx p) (hy p)

theorem Regular.between {x : Draft} (h : Regular names counts x) : Regular names counts (x.between "(" ")") :=
  ((regular_word (by decide)).append h).append (regular_word (by decide))

theorem regular_join {s : String} {xs : List Draft} (hs : s ∈ Sql.wording) (h : ∀ x ∈ xs, Regular names counts x) :
    Regular names counts (join s xs) := by
  intro p hp
  obtain rfl | ⟨x, hx, hp⟩ := mem_pieces_join hp
  · exact .word hs
  · exact h x hx p hp

theorem regular_markers (offset : Int) (vs : List Value) : ∀ x ∈ markers offset vs, Regular names counts x := by
  intro x hx
  obtain ⟨⟨v, i⟩, -, rfl⟩ := List.mem_map.mp hx
  exact regular_mark _ _

end Draft

open Draft

variable (references : ∀ s, Name.isReference s = true → names s)
include references

theorem Condition.regular_compile (inJoin : Bool) (offset : Int) {c : Condition} (h : names c.field) :
    Regular names counts (c.compile inJoin offset) := by
  unfold compile
  split
  · exact (regular_name h).append (regular_word (Sql.operator_mem_wording _))
  · have head : Regular names counts (.name c.field ++ .word (" " ++ c.operator.text ++ " ")) :=
      (regular_name h).append (regular_word (Sql.comparison_mem_wording _))
    split
    next column ref => exact head.append (regular_name (references _ (isReference_of_reference? ref)))
    next =>
      split
      · exact head.append (regular_mark _ _).between
      · exact head.append (regular_mark _ _)

omit references in
theorem Logic.regular_compileGroup {children : List Draft} (h : ∀ x ∈ children, Regular names counts x)
    (operator : Logic) (negate : Bool) (parent : Option Logic) :
    Regular names counts (operator.compileGroup negate parent children) := by
  have body := regular_join (Sql.connective_mem_wording operator) h
  unfold Logic.compileGroup
  cases operator.needsParentheses negate parent <;> cases negate
  · exact body
  · exact (regular_word (by decide)).append body
  · exact body.between
  · exact (regular_word (by decide)).append body.between

namespace Predicate

omit references in
theorem forall_mem_compileAll {P : Draft → Prop} (inJoin : Bool) (parent : Option Logic) {ps : List Predicate}
    (h : ∀ p ∈ ps, ∀ offset, P (p.compile inJoin parent offset)) (offset : Int) :
    ∀ x ∈ compileAll inJoin parent offset ps, P x := by
  induction ps generalizing offset with
  | nil => exact List.forall_mem_nil _
  | cons p ps ih =>
    obtain ⟨hp, hps⟩ := List.forall_mem_cons.mp h
    exact List.forall_mem_cons.mpr ⟨hp offset, ih hps _⟩

theorem regular_compile (inJoin : Bool) (parent : Option Logic) (offset : Int) (p : Predicate)
    (h : ∀ c ∈ p.leaves, names c.field) : Regular names counts (p.compile inJoin parent offset) := by
  induction p generalizing parent offset with
  | condition c => exact c.regular_compile references inJoin offset (h c (by rw [leaves_condition]; simp))
  | group operator children negate ih =>
    refine Logic.regular_compileGroup (forall_mem_compileAll inJoin _ (fun p hp o => ?_) offset) operator negate parent
    exact ih p hp _ o fun c hc => h c (mem_leavesOf.mpr ⟨p, hp, hc⟩)

theorem regular_compileList (inJoin : Bool) (offset : Int) {ps : List Predicate} (h : ∀ s ∈ fields ps, names s) :
    Regular names counts (compileList inJoin offset ps) := by
  refine regular_join (by decide) (forall_mem_compileAll inJoin none (fun p hp o => ?_) offset)
  refine p.regular_compile references inJoin none o fun c hc => ?_
  exact h _ (List.mem_map.mpr ⟨c, mem_leavesOf.mpr ⟨p, hp, hc⟩, rfl⟩)

end Predicate
end
end QueryGate
