import QueryGate.Proofs.DangerousText
import QueryGate.Proofs.Outcome
import QueryGate.Validation.Condition

/-! What a condition that was let through satisfies. -/
namespace QueryGate
open Outcome

namespace Danger

theorem occurs_mark (m s : List Char) : occurs [.mark m] s = true ↔ m <:+: s := by
  have exact : IsExact [.mark m] := ⟨nofun, trivial⟩
  rw [occurs_iff exact]
  simp only [matches_mark, exists_eq_right]

def forbiddenMarks : List Char := ['\'', '"', '\\', ';']

def commentMarks : List (List Char) := [['-', '-'], ['/', '*'], ['*', '/']]

theorem of_isForbidden_eq_false {text : String} (h : isForbidden text = false) :
    (∀ c ∈ forbiddenMarks, c ∉ text.toList) ∧ ∀ m ∈ commentMarks, ¬ m <:+: text.toList := by
  simp only [isForbidden, ← Bool.not_eq_true, Bool.or_eq_true, not_or, occurs_mark, List.any_eq_true, beq_iff_eq] at h
  obtain ⟨⟨⟨chars, dashes⟩, opening⟩, closing⟩ := h
  constructor
  · intro c hc hm
    refine chars ⟨c, hm, ?_⟩
    simp only [forbiddenMarks, List.mem_cons, List.not_mem_nil, or_false] at hc
    grind
  · simp only [commentMarks, List.forall_mem_cons]
    exact ⟨dashes, opening, closing, List.forall_mem_nil _⟩

end Danger

structure AllowedText (o : ValidationOptions) (text : String) : Prop where
  short : ∀ most ∈ o.maxValueLength, most ≠ 0 → (text.length : Int) ≤ most
  harmless : Danger.isDangerous text = false
  noMark : ∀ c ∈ Danger.forbiddenMarks, c ∉ text.toList
  noComment : ∀ m ∈ Danger.commentMarks, ¬ m <:+: text.toList
  noKeyword : o.preventKeywords = true → Danger.hasKeyword text = false

structure AllowedField (o : ValidationOptions) (name : String) : Prop where
  notStar : name ≠ "*"
  accepted : o.fieldPattern.accepts name = true
  harmless : Danger.isDangerous name = false

structure Condition.Allowed (o : ValidationOptions) (c : Condition) : Prop where
  field : AllowedField o c.field
  operator : c.operator ∈ o.operators
  unary : c.operator.isUnary = true → c.value = .null
  operand : c.operator.isUnary = false →
    c.value ≠ .null ∧ c.value.isShort = true ∧ AllowedText o (operandText c.value)

theorem allowedField_of_isField {o : ValidationOptions} {name : String} (h : isField o name = true) :
    AllowedField o name := by
  simp only [isField, Bool.and_eq_true, bne_iff_ne, ne_eq, Bool.not_eq_true'] at h
  exact ⟨h.1.1, h.1.2, h.2⟩

theorem validateField_ok {o : ValidationOptions} {v : Value} {name : String} (h : validateField o v = .ok name) :
    AllowedField o name := by
  unfold validateField at h
  split at h
  · obtain ⟨field, h⟩ := when_eq_ok.mp h
    exact Except.ok.inj h ▸ allowedField_of_isField field
  · exact absurd h nofun

theorem validateOperator_ok {o : ValidationOptions} {v : Value} {operator : Operator}
    (h : validateOperator o v = .ok operator) : operator ∈ o.operators := by
  unfold validateOperator at h
  split at h
  · obtain ⟨allowed, h⟩ := when_eq_ok.mp h
    exact Except.ok.inj h ▸ List.contains_iff_mem.mp allowed
  · exact absurd h nofun

theorem validateOperand_ok {o : ValidationOptions} {v : Value} {s : Scalar} (h : validateOperand o v = .ok s) :
    v = .scalar s ∧ s.isShort = true ∧ AllowedText o (operandText s) := by
  unfold validateOperand at h
  split at h
  next operand =>
    obtain ⟨hasText, h⟩ := unless_eq_ok.mp h
    simp only at h
    split at h
    · exact absurd h nofun
    next short =>
      obtain ⟨harmless, h⟩ := unless_eq_ok.mp h
      obtain ⟨clean, h⟩ := unless_eq_ok.mp h
      obtain ⟨plain, h⟩ := unless_eq_ok.mp h
      obtain rfl := Except.ok.inj h
      obtain ⟨marks, comments⟩ := Danger.of_isForbidden_eq_false (Bool.eq_false_iff.mpr clean)
      refine ⟨rfl, by simpa using hasText, ?_⟩
      refine ⟨fun most given nonzero => ?_, Bool.eq_false_iff.mpr harmless, marks, comments, fun on => ?_⟩
      · have fits := Option.filter_eq_none_iff.mp short most given
        simp only [decide_eq_true_eq, not_and] at fits
        exact Int.not_lt.mp (fits nonzero)
      · rw [on, Bool.true_and] at plain
        exact Bool.eq_false_iff.mpr plain
  · exact absurd h nofun

theorem validateCondition_ok {o : ValidationOptions} {field operator operand : Value} {c : Condition}
    (h : validateCondition o field operator operand = .ok c) : c.Allowed o := by
  obtain ⟨name, hname, h⟩ := bind_eq_ok.mp h
  obtain ⟨op, hop, h⟩ := bind_eq_ok.mp h
  have allowedField := validateField_ok hname
  have allowedOperator := validateOperator_ok hop
  cases unary : op.isUnary with
  | true =>
    -- what was sent as the operand is dropped unseen
    rw [unary] at h
    obtain rfl := Except.ok.inj h
    exact ⟨allowedField, allowedOperator, fun _ => rfl, fun binary => absurd (unary.symm.trans binary) nofun⟩
  | false =>
    rw [unary] at h
    obtain ⟨given, h⟩ := unless_eq_ok.mp h
    obtain ⟨s, hs, h⟩ := bind_eq_ok.mp h
    obtain rfl := Except.ok.inj h
    obtain ⟨rfl, text⟩ := validateOperand_ok hs
    refine ⟨allowedField, allowedOperator, fun binary => absurd (unary.symm.trans binary) nofun, fun _ => ⟨?_, text⟩⟩
    rintro rfl
    exact given rfl

end QueryGate
