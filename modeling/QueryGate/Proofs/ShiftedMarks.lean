import QueryGate.Proofs.ReplacedMarks

/-! Conditions behind other parameters. Their marks have as many numbers more and nothing else of them changes, so that
conditions side by side are compiled one list after the other. -/
namespace QueryGate

def Piece.shift (k : Int) : Piece → Piece
  | .marker index => .marker (index + k)
  | p => p

namespace Draft

def shift (k : Int) (x : Draft) : Draft := ⟨x.pieces.map (Piece.shift k), x.params⟩

section
variable (k : Int)

@[simp] theorem params_shift (x : Draft) : (x.shift k).params = x.params := rfl
@[simp] theorem shift_word (s : String) : (word s).shift k = word s := rfl
@[simp] theorem shift_name (s : String) : (name s).shift k = name s := rfl

@[simp] theorem shift_mark (i : Int) (vs : List Value) :
    (Draft.mk [.marker i] vs).shift k = ⟨[.marker (i + k)], vs⟩ := rfl

@[simp] theorem shift_append (x y : Draft) : (x ++ y).shift k = x.shift k ++ y.shift k := by
  show Draft.mk ((x.pieces ++ y.pieces).map (Piece.shift k)) _ = _
  rw [List.map_append]
  rfl

@[simp] theorem shift_between (s t : String) (x : Draft) : (x.between s t).shift k = (x.shift k).between s t := by
  simp only [between, shift_append, shift_word]

theorem shift_join (s : String) (xs : List Draft) : (join s xs).shift k = join s (xs.map (shift k)) := by
  simp only [shift, join, Splitting.map_intercalate, List.map_map, List.flatMap_map]
  rfl

end

theorem sql_append (d : Dialect) (x y : Draft) : ((x ++ y).render d).sql = (x.render d).sql ++ (y.render d).sql := by
  rw [← String.toList_inj, String.toList_append, render_sql, render_sql, render_sql, text_append]

theorem sql_word (d : Dialect) (s : String) : ((word s).render d).sql = s := by
  rw [← String.toList_inj, render_sql, text_word]

theorem text_shift_of_ne {d : Dialect} (other : d ≠ .postgres) (k : Int) (x : Draft) :
    (x.shift k).text d = x.text d := by
  rw [text, shift, List.flatMap_map, text]
  congr 1
  funext p
  cases p with
  | word s => rfl
  | name s => rfl
  | marker index =>
    rw [Piece.shift, Piece.render, Piece.render, Reading.marker_question other, Reading.marker_question other]

end Draft

namespace Condition

theorem compile_shift (inJoin : Bool) (offset k : Int) (c : Condition) :
    c.compile inJoin (offset + k) = (c.compile inJoin offset).shift k := by
  have index : offset + k + 1 = offset + 1 + k := Int.add_right_comm offset k 1
  unfold compile
  -- only a bound value has a mark
  cases c.operator.isUnary with
  | true => rfl
  | false =>
    cases c.reference? inJoin with
    | some column => rfl
    | none =>
      cases c.operator.takesList with
      | true => simp [index]
      | false => simp [index]

end Condition

theorem Logic.compileGroup_shift (operator : Logic) (negate : Bool) (parent : Option Logic) (k : Int)
    (children : List Draft) : operator.compileGroup negate parent (children.map (Draft.shift k)) =
      (operator.compileGroup negate parent children).shift k := by
  unfold compileGroup
  rw [← Draft.shift_join]
  cases operator.needsParentheses negate parent <;> cases negate <;> simp

namespace Predicate

theorem compileAll_shift_of (inJoin : Bool) (parent : Option Logic) (k : Int) {ps : List Predicate}
    (h : ∀ p ∈ ps, ∀ offset, p.compile inJoin parent (offset + k) = (p.compile inJoin parent offset).shift k)
    (offset : Int) :
    compileAll inJoin parent (offset + k) ps = (compileAll inJoin parent offset ps).map (Draft.shift k) := by
  induction ps generalizing offset with
  | nil => rfl
  | cons p rest ih =>
    obtain ⟨hp, hrest⟩ := List.forall_mem_cons.mp h
    -- the shift goes past the parameters of the first to the offset of the others
    rw [compileAll, compileAll, List.map_cons, hp, Draft.params_shift, Int.add_right_comm, ih hrest]

/-- A tree behind more parameters, wherever it stands. -/
theorem compile_shift (inJoin : Bool) (parent : Option Logic) (offset k : Int) (p : Predicate) :
    p.compile inJoin parent (offset + k) = (p.compile inJoin parent offset).shift k := by
  -- a child stands behind its siblings' parameters, so the hypothesis is needed at every offset
  induction p generalizing parent offset with
  | condition c => exact c.compile_shift inJoin offset k
  | group operator children negate ih =>
    rw [compile, compile, compileAll_shift_of inJoin _ k fun p hp offset => ih p hp _ offset]
    exact operator.compileGroup_shift negate parent k _

theorem compileList_shift (inJoin : Bool) (offset k : Int) (ps : List Predicate) :
    compileList inJoin (offset + k) ps = (compileList inJoin offset ps).shift k := by
  rw [compileList, compileList, Draft.shift_join,
    compileAll_shift_of inJoin none k fun p _ offset => p.compile_shift inJoin none offset k]

theorem compileAll_append (inJoin : Bool) (parent : Option Logic) (offset : Int) (xs ys : List Predicate) :
    compileAll inJoin parent offset (xs ++ ys) = compileAll inJoin parent offset xs ++
      compileAll inJoin parent (offset + (bound inJoin xs).length) ys := by
  induction xs generalizing offset with
  | nil => rw [bound, leavesOf_nil, List.flatMap_nil, List.length_nil, Int.natCast_zero, Int.add_zero]; rfl
  | cons x xs ih =>
    have first : bound inJoin (x :: xs) = (x.compile inJoin parent offset).params ++ bound inJoin xs := by
      rw [compile_params, bound, leavesOf_cons, List.flatMap_append]
      rfl
    rw [List.cons_append, compileAll, compileAll, ih, first, List.length_append, Int.natCast_add, Int.add_assoc]
    rfl

theorem compileAll_ne_nil (inJoin : Bool) (parent : Option Logic) (offset : Int) {ps : List Predicate} (h : ps ≠ []) :
    compileAll inJoin parent offset ps ≠ [] := by
  obtain ⟨p, rest, rfl⟩ := List.exists_cons_of_ne_nil h
  exact List.cons_ne_nil _ _

theorem compileList_append (inJoin : Bool) (offset : Int) {xs ys : List Predicate} (hx : xs ≠ []) (hy : ys ≠ []) :
    compileList inJoin offset (xs ++ ys) = compileList inJoin offset xs ++ .word " AND " ++
      compileList inJoin (offset + (compileList inJoin offset xs).params.length) ys := by
  rw [compileList_params, compileList, compileAll_append]
  exact Draft.join_append " AND " (compileAll_ne_nil inJoin none offset hx) (compileAll_ne_nil inJoin none _ hy)

end Predicate

namespace Placeholder

def raisedMark (k : Int) (digits : List Char) : List Char :=
  '$' :: (toString ((Nat.ofDigitChars 10 digits 0 : Int) + k)).toList

/-- A text in which each numbered mark is raised. -/
def raiseMarks (k : Int) (s : List Char) : List Char := replaceMarks (raisedMark k) false s

theorem replaced_raisedMark (k : Int) {p : Piece} (h : ∀ i ∈ p.index?, 0 ≤ i) :
    p.replaced (raisedMark k) = ((p.shift k).render .postgres).toList := by
  cases p with
  | word s => rfl
  | name s => rfl
  | marker index =>
    obtain ⟨n, rfl⟩ := Int.eq_ofNat_of_zero_le (h index rfl)
    rw [Piece.replaced, raisedMark, Numeral.ofDigitChars_natural, Piece.shift, Piece.render, Reading.marker_dollar]

theorem text_shift_postgres {counts : Int → Prop} (k : Int) {x : Draft}
    (h : x.Regular (fun s => '$' ∉ s.toList) counts) (hi : ∀ i ∈ x.indexes, 0 ≤ i) :
    (x.shift k).text .postgres = raiseMarks k (x.text .postgres) := by
  rw [raiseMarks, Draft.text, Draft.text, replaceMarks_pieces h hi, Draft.shift, List.flatMap_map, List.flatMap_def,
    List.flatMap_def]
  congr 1
  apply List.map_congr_left
  intro p hp
  refine (replaced_raisedMark k fun i hpi => hi i ?_).symm
  exact List.mem_filterMap.mpr ⟨p, hp, hpi⟩

end Placeholder

namespace Predicate

/-- How a list of conditions depends on the number of parameters in front of it: its own parameters do not, nor does its
text where marks have no numbers; numbered marks are raised by as much. A list in two parts is the one part behind the
other, whose offset counts the parameters of the first. -/
theorem compileList_offset (d : Dialect) (inJoin : Bool) (k : Int) (xs : List Predicate) :
    ((compileList inJoin k xs).render d).params = ((compileList inJoin 0 xs).render d).params ∧
    (d ≠ .postgres → ((compileList inJoin k xs).render d).sql = ((compileList inJoin 0 xs).render d).sql) ∧
    (d = .postgres → (∀ s ∈ fields xs, '$' ∉ s.toList) → ((compileList inJoin k xs).render d).sql.toList =
      Placeholder.raiseMarks k ((compileList inJoin 0 xs).render d).sql.toList) ∧
    ∀ ys : List Predicate, xs ≠ [] → ys ≠ [] →
      let first := (compileList inJoin k xs).render d
      let second := (compileList inJoin (k + first.params.length) ys).render d
      (compileList inJoin k (xs ++ ys)).render d =
        ⟨first.sql ++ " AND " ++ second.sql, first.params ++ second.params⟩ := by
  have shifted : compileList inJoin k xs = (compileList inJoin 0 xs).shift k := by
    rw [← compileList_shift, Int.zero_add]
  refine ⟨by rw [shifted]; rfl, ?question, ?dollar, ?parts⟩
  case question =>
    intro other
    rw [← String.toList_inj, Draft.render_sql, Draft.render_sql, shifted, Draft.text_shift_of_ne other]
  case dollar =>
    rintro rfl free
    have regular : (compileList inJoin 0 xs).Regular (fun s => '$' ∉ s.toList) fun _ => False :=
      regular_compileList (fun _ reference => (Placeholder.isQuiet_of_isReference reference).2) inJoin 0 free
    have nonneg := (numbered_compileList inJoin 0 xs).nonneg
    rw [Draft.render_sql, Draft.render_sql, shifted, Placeholder.text_shift_postgres k regular nonneg]
  case parts =>
    intro ys hx hy first second
    have text : ((compileList inJoin k (xs ++ ys)).render d).sql = first.sql ++ " AND " ++ second.sql := by
      rw [compileList_append inJoin k hx hy, Draft.sql_append, Draft.sql_append, Draft.sql_word]
      rfl
    have params : (compileList inJoin k (xs ++ ys)).params = first.params ++ second.params := by
      rw [compileList_append inJoin k hx hy, Draft.params_append, Draft.params_append, Draft.params_word,
        List.append_nil]
      rfl
    rw [← text, ← params]
    rfl

def lateOrders : List Predicate :=
  [.condition ⟨"users.id", .equal, .text "orders.user_id"⟩,
    .group .disj [.condition ⟨"sent?", .isNull, .null⟩, .group .conj [.condition ⟨"days", .greater, .int 30⟩,
      .condition ⟨"state", .isIn, .text "late"⟩] false] true]

def lateText : String :=
  "\"users\".\"id\" = \"orders\".\"user_id\" AND NOT (\"sent?\" IS NULL OR (\"days\" > $10 AND \"state\" IN ($11)))"

theorem compileList_offset_lateOrders :
    (∀ s ∈ fields lateOrders, '$' ∉ s.toList) ∧
    ((compileList true 9 lateOrders).render .postgres).sql = lateText ∧
    Placeholder.raiseMarks 9 ((compileList true 0 lateOrders).render .postgres).sql.toList = lateText.toList ∧
    ((compileList true 9 lateOrders).render .mysql).sql = ((compileList true 0 lateOrders).render .mysql).sql ∧
    (compileList true 9 (lateOrders ++ [.condition ⟨"town", .like, .text "B%"⟩])).render .postgres =
      ⟨((compileList true 9 lateOrders).render .postgres).sql ++ " AND " ++ "\"town\" LIKE $12",
        [.int 30, .text "late", .text "B%"]⟩ := by
  have free : ∀ s ∈ fields lateOrders, '$' ∉ s.toList := by decide
  obtain ⟨-, -, raised, appended⟩ := compileList_offset .postgres true 9 lateOrders
  have question := (compileList_offset .mysql true 9 lateOrders).2.1 (by decide)
  have text : ((compileList true 9 lateOrders).render .postgres).sql = lateText := by decide +kernel
  refine ⟨free, text, (raised rfl free).symm.trans (congrArg String.toList text), question, ?_⟩
  exact appended [.condition ⟨"town", .like, .text "B%"⟩] (List.cons_ne_nil _ _) (List.cons_ne_nil _ _)

end Predicate
end QueryGate
