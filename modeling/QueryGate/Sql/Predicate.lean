import QueryGate.Query.Basic
import QueryGate.Sql.Fragment
import QueryGate.Text.Character
import QueryGate.Value.Shape

/-!
Compiling trees of conditions. A group is put in parentheses where its context could tear it apart:
`OR` always, a negated group always, and `AND` inside `OR`.
-/
namespace QueryGate

namespace Name

def isReferenceWord : List Char → Bool
  | [] => false
  | c :: rest => (c.isAlpha || c == '_') && rest.all fun c => c.isAlphanum || c == '_'

def isReference (s : String) : Bool :=
  let parts := (Text.dropLineEnd s.toList).splitOn '.'
  2 ≤ parts.length && parts.all isReferenceWord

end Name

namespace Condition

/-- The column that the operand names instead of being a value, which only a join allows. -/
def reference? (inJoin : Bool) (c : Condition) : Option String :=
  match c.value with
  | .text s => if inJoin && Name.isReference s then some s else none
  | _ => none

def compile (inJoin : Bool) (offset : Int) (c : Condition) : Draft :=
  if c.operator.isUnary then .name c.field ++ .word (" " ++ c.operator.text)
  else
    let head := Draft.name c.field ++ .word (" " ++ c.operator.text ++ " ")
    match c.reference? inJoin with
    | some column => head ++ .name column
    | none =>
      let operand : Draft := ⟨[.marker (offset + 1)], [.scalar c.value]⟩
      head ++ (if c.operator.takesList then operand.between "(" ")" else operand)

end Condition

def Logic.needsParentheses (operator : Logic) (negate : Bool) (parent : Option Logic) : Bool :=
  operator == .disj || negate || parent == some .disj

def Logic.compileGroup (operator : Logic) (negate : Bool) (parent : Option Logic) (children : List Draft) :
    Draft :=
  let body := Draft.join (" " ++ operator.text ++ " ") children
  let body := if operator.needsParentheses negate parent then body.between "(" ")" else body
  if negate then .word "NOT " ++ body else body

namespace Predicate

mutual
def compile (inJoin : Bool) (parent : Option Logic) (offset : Int) : Predicate → Draft
  | .condition c => c.compile inJoin offset
  | .group operator children negate =>
    operator.compileGroup negate parent (compileAll inJoin (some operator) offset children)
termination_by structural p => p
def compileAll (inJoin : Bool) (parent : Option Logic) (offset : Int) : List Predicate → List Draft
  | [] => []
  | p :: rest =>
    let d := compile inJoin parent offset p
    d :: compileAll inJoin parent (offset + d.params.length) rest
termination_by structural ps => ps
end

def notPredicate (v : Value) : String := "Not a predicate: " ++ v.typeName

def compileList (inJoin : Bool) (offset : Int) (ps : List Predicate) : Draft :=
  .join " AND " (compileAll inJoin none offset ps)

end Predicate
end QueryGate
