import QueryGate.Builder
import QueryGate.Proofs.Lookup
import QueryGate.Proofs.Outcome

/-! The steps that build one clause of a query neither see nor change what the steps of another clause do. -/
namespace QueryGate
open Outcome

inductive Clause where
  | select
  | filter
  | joins
  | groupBy
  | having
  | orderBy
  | limit
  | offset
  deriving DecidableEq, Repr

namespace Clause

def key : Clause → String
  | select => "select"
  | filter => "where"
  | joins => "joins"
  | groupBy => "groupBy"
  | having => "having"
  | orderBy => "orderBy"
  | limit => "limit"
  | offset => "offset"

def keys : List String := [select, filter, joins, groupBy, having, orderBy, limit, offset].map key

end Clause

def BuilderStep.clause : BuilderStep → Clause
  | .select _ => .select
  | .filter .. | .group .. | .openGroup .. | .closeGroup => .filter
  | .openJoin .. | .on .. | .closeJoin | .join .. => .joins
  | .groupBy _ => .groupBy
  | .having .. => .having
  | .orderBy .. => .orderBy
  | .limit _ => .limit
  | .offset _ => .offset

namespace Builder

def follow (b : Builder) (steps : List BuilderStep) : Except BuilderFault Builder := steps.foldlM apply b

def build (steps : List BuilderStep) : Except BuilderFault Value := do
  let b ← new.follow steps
  b.toValue

def AgreeOn (b c : Builder) : Clause → Prop
  | .select => b.select = c.select
  | .filter => b.filter = c.filter ∧ b.groups = c.groups
  | .joins => b.joins = c.joins ∧ b.openJoin = c.openJoin
  | .groupBy => b.groupBy = c.groupBy
  | .having => b.having = c.having
  | .orderBy => b.orderBy = c.orderBy
  | .limit => b.limit = c.limit
  | .offset => b.offset = c.offset

/-- A builder with a clause of another one. -/
def put (b c : Builder) : Clause → Builder
  | .select => { b with select := c.select }
  | .filter => { b with filter := c.filter, groups := c.groups }
  | .joins => { b with joins := c.joins, openJoin := c.openJoin }
  | .groupBy => { b with groupBy := c.groupBy }
  | .having => { b with having := c.having }
  | .orderBy => { b with orderBy := c.orderBy }
  | .limit => { b with limit := c.limit }
  | .offset => { b with offset := c.offset }

variable {b b' c c' d : Builder} {step : BuilderStep} {steps : List BuilderStep} {clause other : Clause}

theorem AgreeOn.refl (b : Builder) (clause : Clause) : b.AgreeOn b clause := by
  cases clause <;> simp only [AgreeOn, and_self]

theorem AgreeOn.symm (h : b.AgreeOn c clause) : c.AgreeOn b clause := by
  cases clause <;> simp_all only [AgreeOn, and_self]

theorem AgreeOn.trans (h : b.AgreeOn c clause) (h' : c.AgreeOn d clause) : b.AgreeOn d clause := by
  cases clause <;> simp_all only [AgreeOn, and_self]

def listEntry (items : List Value) : Option Value := if items.isEmpty then none else some (.list items)

def countEntry (count : Value) : Option Value := if count.isNull then none else some count

def filterEntry (entries : List Value) : Option Value := (filterField entries).value? "where"

def clauseValue? (b : Builder) : Clause → Option Value
  | .select => listEntry b.select
  | .filter => filterEntry b.filter
  | .joins => listEntry ((b.joins ++ b.openJoin.toList).map JoinParts.value)
  | .groupBy => listEntry b.groupBy
  | .having => listEntry b.having
  | .orderBy => listEntry b.orderBy
  | .limit => countEntry b.limit
  | .offset => countEntry b.offset

theorem value?_listField (name key : String) (items : List Value) :
    Fields.value? (listField name items) key = if key == name then listEntry items else none := by
  unfold listField listEntry
  split <;> simp

theorem value?_countField (name key : String) (count : Value) :
    Fields.value? (countField name count) key = if key == name then countEntry count else none := by
  unfold countField countEntry
  split <;> simp

theorem value?_filterField (key : String) (entries : List Value) :
    Fields.value? (filterField entries) key = if key == "where" then filterEntry entries else none := by
  unfold filterEntry filterField
  split <;> simp

theorem value?_fields (b : Builder) (clause : Clause) : b.fields.value? clause.key = b.clauseValue? clause := by
  unfold fields
  simp only [Fields.value?_append, value?_listField, value?_countField, value?_filterField]
  cases clause <;> simp [Clause.key, clauseValue?]

theorem toValue_ok {v : Value} (h : b.toValue = .ok v) :
    b.groups = [] ∧ (∀ j, b.openJoin = some j → j.on ≠ []) ∧ v = .object b.fields := by
  unfold toValue at h
  obtain ⟨closed, h⟩ := unless_eq_ok.mp h
  obtain ⟨filled, h⟩ := unless_eq_ok.mp h
  refine ⟨by simpa using closed, fun j opened => ?_, (Except.ok.inj h).symm⟩
  simpa [opened] using filled

end Builder
end QueryGate
