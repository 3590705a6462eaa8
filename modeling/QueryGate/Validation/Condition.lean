import QueryGate.Query.Basic
import QueryGate.Text.UpperCase
import QueryGate.Validation.Name

/-!
Checks of one condition: its field, its operator in any case and spacing, and its operand.
-/
namespace QueryGate

def spellOperator (s : String) : String :=
  " ".intercalate ((Text.words (Text.upper s).toList).map String.ofList)

def validateField (o : ValidationOptions) (name : Value) : Except QueryFault String :=
  match name with
  | .text s => if isField o s then .ok s else reject (.invalidName name)
  | _ => reject (.invalidName name)

def validateOperator (o : ValidationOptions) (operator : Value) : Except QueryFault Operator :=
  match operator.text?.bind fun s => Operator.ofText? (spellOperator s) with
  | some op => if o.operators.contains op then .ok op else reject (.operatorNotAllowed operator)
  | none => reject (.operatorNotAllowed operator)

def operandText : Scalar → String
  | .moment m => m.iso
  | s => s.shown

def tooLong (o : ValidationOptions) (text : String) : Option Int :=
  o.maxValueLength.filter fun most => most ≠ 0 ∧ most < text.length

def validateOperand (o : ValidationOptions) : Value → Except QueryFault Scalar
  | .scalar s =>
    if !s.isShort then .error .longInteger
    else
      let text := operandText s
      match tooLong o text with
      | some most => reject (.operandTooLong most)
      | none =>
        if Danger.isDangerous text then reject .operandDangerous
        else if Danger.isForbidden text then reject .operandForbidden
        else if o.preventKeywords && Danger.hasKeyword text then reject .operandKeyword
        else .ok s
  | _ => reject .operandComposite

def validateCondition (o : ValidationOptions) (field operator operand : Value) :
    Except QueryFault Condition := do
  let field ← validateField o field
  let op ← validateOperator o operator
  if op.isUnary then return ⟨field, op, .null⟩
  else if operand.isNull then reject (.operandMissing op)
  else return ⟨field, op, ← validateOperand o operand⟩

end QueryGate
