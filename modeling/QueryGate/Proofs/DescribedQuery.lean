import QueryGate.Proofs.Interleaving

/-! A query that is built has what its steps describe: the filter whose brackets they are, the joins they open with
the conditions given until they are closed, and the rest in the order of the steps. -/
namespace QueryGate
open Outcome

/-- A part of a filter: an entry that is given as a whole, or a group of parts. -/
inductive Branch where
  | leaf (entry : Value)
  | node (operator : Value) (negate : Bool) (children : List Branch)

inductive Bracket where
  | leaf (entry : Value)
  | opening (operator : Value) (negate : Bool)
  | closing

def BuilderStep.brackets : BuilderStep → List Bracket
  | .filter field operator operand => [.leaf (conditionValue field operator operand)]
  | .group operator children negate => [.leaf (OpenGroup.value ⟨operator, negate, children⟩)]
  | .openGroup operator negate => [.opening operator negate]
  | .closeGroup => [.closing]
  | _ => []

namespace Branch

mutual
def value : Branch → Value
  | leaf entry => entry
  | node operator negate children => OpenGroup.value ⟨operator, negate, values children⟩
termination_by structural t => t
def values : List Branch → List Value
  | [] => []
  | t :: rest => t.value :: values rest
termination_by structural ts => ts
end

mutual
def brackets : Branch → List Bracket
  | leaf entry => [.leaf entry]
  | node operator negate children => .opening operator negate :: (allBrackets children ++ [.closing])
termination_by structural t => t
def allBrackets : List Branch → List Bracket
  | [] => []
  | t :: rest => t.brackets ++ allBrackets rest
termination_by structural ts => ts
end

@[simp] theorem values_append (front back : List Branch) : values (front ++ back) = values front ++ values back := by
  induction front with
  | nil => rfl
  | cons t rest ih => simp only [List.cons_append, values, ih]

@[simp] theorem allBrackets_append (front back : List Branch) :
    allBrackets (front ++ back) = allBrackets front ++ allBrackets back := by
  induction front with
  | nil => rfl
  | cons t rest ih => simp only [List.cons_append, allBrackets, ih, List.append_assoc]

def Ends (rest : List Bracket) : Prop := rest = [] ∨ ∃ back, rest = .closing :: back

theorem not_ends_brackets (t : Branch) (rest : List Bracket) : ¬ Ends (t.brackets ++ rest) := by
  cases t <;> simp [brackets, Ends]

mutual
/-- A tree can be told from its brackets, whatever they are followed by. -/
theorem brackets_append_inj (t u : Branch) {rest others : List Bracket}
    (h : t.brackets ++ rest = u.brackets ++ others) : t = u ∧ rest = others := by
  match t, u with
  | leaf entry, leaf _ =>
    simp only [brackets, List.singleton_append, List.cons.injEq, Bracket.leaf.injEq] at h
    exact ⟨congrArg leaf h.1, h.2⟩
  | leaf _, node .. => simp [brackets] at h
  | node .., leaf _ => simp [brackets] at h
  | node _ _ children, node _ _ children' =>
    simp only [brackets, List.cons_append, List.append_assoc, List.nil_append, List.cons.injEq,
      Bracket.opening.injEq] at h
    obtain ⟨⟨rfl, rfl⟩, inner⟩ := h
    obtain ⟨rfl, closing⟩ := allBrackets_append_inj children children' (.inr ⟨rest, rfl⟩) (.inr ⟨others, rfl⟩) inner
    exact ⟨rfl, (List.cons.inj closing).2⟩
termination_by structural t
theorem allBrackets_append_inj (ts us : List Branch) {rest others : List Bracket} (ends : Ends rest)
    (ends' : Ends others) (h : allBrackets ts ++ rest = allBrackets us ++ others) : ts = us ∧ rest = others := by
  match ts, us with
  | [], [] => exact ⟨rfl, h⟩
  | [], u :: us =>
    rw [allBrackets, allBrackets, List.nil_append, List.append_assoc] at h
    exact absurd (h ▸ ends) (not_ends_brackets u _)
  | t :: ts, [] =>
    rw [allBrackets, allBrackets, List.nil_append, List.append_assoc] at h
    exact absurd (h ▸ ends') (not_ends_brackets t _)
  | t :: ts, u :: us =>
    rw [allBrackets, allBrackets, List.append_assoc, List.append_assoc] at h
    obtain ⟨rfl, behind⟩ := brackets_append_inj t u h
    obtain ⟨rfl, same⟩ := allBrackets_append_inj ts us ends ends' behind
    exact ⟨rfl, same⟩
termination_by structural ts
end

end Branch

structure OpenBranch where
  operator : Value
  negate : Bool
  children : List Branch

def OpenBranch.group (o : OpenBranch) : OpenGroup := ⟨o.operator, o.negate, Branch.values o.children⟩

def OpenBranch.brackets (o : OpenBranch) : List Bracket := .opening o.operator o.negate :: Branch.allBrackets o.children

namespace Builder
variable {b b' : Builder} {step : BuilderStep} {steps : List BuilderStep}

/-- The filter of a builder after some brackets: the trees that are complete, and the groups that are open, from the
innermost outwards. -/
def HasRead (b : Builder) (past : List Bracket) : Prop :=
  ∃ (forest : List Branch) (opened : List OpenBranch), b.filter = Branch.values forest ∧
    b.groups = opened.map OpenBranch.group ∧
    past = Branch.allBrackets forest ++ opened.reverse.flatMap OpenBranch.brackets

theorem HasRead.addEntry {past : List Bracket} (h : b.HasRead past) (t : Branch) :
    (b.addEntry t.value).HasRead (past ++ t.brackets) := by
  obtain ⟨forest, opened, filter, groups, rfl⟩ := h
  cases opened with
  | nil =>
    refine ⟨forest ++ [t], [], ?_, ?_, ?_⟩
    · simp [Builder.addEntry, groups, filter, Branch.values]
    · simp [Builder.addEntry, groups]
    · simp [Branch.allBrackets]
  | cons o outer =>
    refine ⟨forest, { o with children := o.children ++ [t] } :: outer, ?_, ?_, ?_⟩
    · simp [Builder.addEntry, groups, filter]
    · simp [Builder.addEntry, groups, OpenBranch.group, Branch.values]
    · simp [OpenBranch.brackets, Branch.allBrackets]

theorem HasRead.closeGroup {past : List Bracket} (h : b.HasRead past) (closed : b.closeGroup = .ok b') :
    b'.HasRead (past ++ [.closing]) := by
  obtain ⟨forest, opened, filter, groups, rfl⟩ := h
  unfold Builder.closeGroup at closed
  rw [groups] at closed
  cases opened with
  | nil => exact nomatch closed
  | cons o outer =>
    obtain ⟨-, closed⟩ := unless_eq_ok.mp closed
    obtain rfl := Except.ok.inj closed
    have below : HasRead { b with groups := outer.map OpenBranch.group }
        (Branch.allBrackets forest ++ outer.reverse.flatMap OpenBranch.brackets) := ⟨forest, outer, filter, rfl, rfl⟩
    have whole := below.addEntry (.node o.operator o.negate o.children)
    rw [show (Branch.node o.operator o.negate o.children).value = o.group.value from rfl] at whole
    simpa [OpenBranch.brackets, Branch.brackets] using whole

theorem HasRead.apply {past : List Bracket} (own : step.clause = .filter) (h : b.HasRead past)
    (taken : b.apply step = .ok b') : b'.HasRead (past ++ step.brackets) := by
  cases step with
  | filter field operator operand =>
    obtain rfl := Except.ok.inj taken
    exact h.addEntry (.leaf _)
  | group operator children negate =>
    obtain rfl := Except.ok.inj taken
    exact h.addEntry (.leaf _)
  | openGroup operator negate =>
    obtain rfl := Except.ok.inj taken
    obtain ⟨forest, opened, filter, groups, rfl⟩ := h
    refine ⟨forest, ⟨operator, negate, []⟩ :: opened, filter, ?_, ?_⟩
    · simp [groups, OpenBranch.group, Branch.values]
    · simp [BuilderStep.brackets, OpenBranch.brackets, Branch.allBrackets]
  | closeGroup => exact h.closeGroup taken
  | _ => exact nomatch own

end Builder

inductive JoinCall where
  | opening (kind table label : Value)
  | on (condition : Value)
  | closing

def BuilderStep.joinCalls : BuilderStep → List JoinCall
  | .openJoin kind table label => [.opening kind table label]
  | .on field operator operand => [.on (conditionValue field operator operand)]
  | .closeJoin => [.closing]
  | .join kind table field operator operand =>
    [.opening kind table .null, .on (conditionValue field operator operand), .closing]
  | _ => []

namespace JoinCall

def conditions : List JoinCall → List Value
  | .on condition :: rest => condition :: conditions rest
  | _ => []

def joins : List JoinCall → List JoinParts
  | [] => []
  | .opening kind table label :: rest => ⟨kind, table, label, conditions rest⟩ :: joins rest
  | _ :: rest => joins rest

end JoinCall

namespace JoinParts

def openCalls (j : JoinParts) : List JoinCall := .opening j.kind j.table j.label :: j.on.map .on

def calls (j : JoinParts) : List JoinCall := j.openCalls ++ [.closing]

end JoinParts

namespace JoinCall

end JoinCall

namespace Builder
variable {b b' : Builder} {step : BuilderStep} {steps : List BuilderStep}

def HasJoined (b : Builder) (past : List JoinCall) : Prop :=
  past = b.joins.flatMap JoinParts.calls ++ b.openJoin.toList.flatMap JoinParts.openCalls

variable {past : List JoinCall}

theorem HasJoined.beginJoin {kind table label : Value} (h : b.HasJoined past)
    (begun : b.beginJoin kind table label = .ok b') : b'.HasJoined (past ++ [.opening kind table label]) := by
  unfold Builder.beginJoin at begun
  split at begun
  · exact nomatch begun
  · next closed =>
    obtain rfl := Except.ok.inj begun
    rw [h, closed]
    simp [HasJoined, JoinParts.openCalls]

theorem HasJoined.addOn {condition : Value} (h : b.HasJoined past) (added : b.addOn condition = .ok b') :
    b'.HasJoined (past ++ [.on condition]) := by
  unfold Builder.addOn at added
  split at added
  · exact nomatch added
  · next j opened =>
    obtain rfl := Except.ok.inj added
    rw [h, opened]
    simp [HasJoined, JoinParts.openCalls]

theorem HasJoined.closeJoin (h : b.HasJoined past) (closed : b.closeJoin = .ok b') :
    b'.HasJoined (past ++ [.closing]) := by
  unfold Builder.closeJoin at closed
  split at closed
  · exact nomatch closed
  · next j opened =>
    obtain ⟨-, closed⟩ := unless_eq_ok.mp closed
    obtain rfl := Except.ok.inj closed
    rw [h, opened]
    simp [HasJoined, JoinParts.calls]

theorem HasJoined.apply (own : step.clause = .joins) (h : b.HasJoined past) (taken : b.apply step = .ok b') :
    b'.HasJoined (past ++ step.joinCalls) := by
  cases step with
  | openJoin kind table label => exact h.beginJoin taken
  | on field operator operand => exact h.addOn taken
  | closeJoin => exact h.closeJoin taken
  | join kind table field operator operand =>
    obtain ⟨opened, begun, taken⟩ := bind_eq_ok.mp taken
    obtain ⟨filled, added, closed⟩ := bind_eq_ok.mp taken
    simpa [BuilderStep.joinCalls] using ((h.beginJoin begun).addOn added).closeJoin closed
  | _ => exact nomatch own

end Builder

def BuilderStep.orders : BuilderStep → List Value
  | .orderBy field direction => [.object [("field", field), ("direction", direction)]]
  | _ => []

namespace Builder
variable {b b' : Builder} {step : BuilderStep} {steps : List BuilderStep}

end Builder
end QueryGate
