import QueryGate.Proofs.PlainName
import QueryGate.Sql.Predicate

/-! What a text that is taken for a column consists of. -/
namespace QueryGate

namespace Name

/-- A word with a letter or an underscore in front, behind which one line end may stand. -/
def IsIdentifier (part : List Char) : Prop :=
  ∃ word ending, part = word ++ ending ∧ isReferenceWord word = true ∧ (ending = [] ∨ ending = ['\n'])

theorem isReferenceWord_char {word : List Char} (h : isReferenceWord word = true) {c : Char} (hc : c ∈ word) :
    c.isAlphanum || c == '_' := by
  cases word with
  | nil => exact absurd hc List.not_mem_nil
  | cons b rest =>
    simp only [isReferenceWord, Bool.and_eq_true, List.all_eq_true] at h
    rcases List.mem_cons.mp hc with rfl | hc
    · have first := h.1
      unfold Char.isAlphanum
      grind
    · exact h.2 c hc

theorem IsIdentifier.char {part : List Char} (h : IsIdentifier part) {c : Char} (hc : c ∈ part) :
    (c.isAlphanum || c == '_') = true ∨ c = '\n' := by
  obtain ⟨word, ending, rfl, hw, he⟩ := h
  rcases List.mem_append.mp hc with hc | hc
  · exact .inl (isReferenceWord_char hw hc)
  · rcases he with rfl | rfl
    · exact absurd hc List.not_mem_nil
    · exact .inr (List.mem_singleton.mp hc)

theorem dropLineEnd_append (s : List Char) :
    ∃ ending, s = Text.dropLineEnd s ++ ending ∧ (ending = [] ∨ ending = ['\n']) := by
  unfold Text.dropLineEnd
  by_cases h : s.getLast? = some '\n'
  · refine ⟨['\n'], ?_, .inr rfl⟩
    obtain ⟨front, rfl⟩ := List.getLast?_eq_some_iff.mp h
    simp
  · exact ⟨[], by simp [h], .inl rfl⟩

theorem isIdentifier_of_isReference {s : String} (h : isReference s = true) {part : List Char}
    (hp : part ∈ s.toList.splitOn '.') : IsIdentifier part := by
  simp only [isReference, Bool.and_eq_true, List.all_eq_true] at h
  obtain ⟨ending, hs, he⟩ := dropLineEnd_append s.toList
  have hdot : '.' ∉ ending := by rcases he with rfl | rfl <;> decide
  obtain ⟨front, last, hfront, happend⟩ := Splitting.splitOn_append_of_not_mem hdot (Text.dropLineEnd s.toList)
  rw [hfront] at h
  rw [hs, happend, List.mem_append, List.mem_singleton] at hp
  rcases hp with hp | rfl
  · exact ⟨part, [], (List.append_nil part).symm, h.2 part (List.mem_append_left _ hp), .inl rfl⟩
  · exact ⟨last, ending, rfl, h.2 last (List.mem_append_right _ (List.mem_singleton_self last)), he⟩

theorem isReference_char {s : String} (h : isReference s = true) {c : Char} (hc : c ∈ s.toList) :
    c = '.' ∨ (c.isAlphanum || c == '_') = true ∨ c = '\n' := by
  obtain rfl | ⟨part, hp, hc⟩ := Splitting.mem_splitOn_of_mem '.' hc
  · exact .inl rfl
  · exact .inr ((isIdentifier_of_isReference h hp).char hc)

theorem isPlain_of_isReference {s : String} (h : isReference s = true) : Identifier.IsPlain s.toList := by
  constructor <;> intro hc <;> exact absurd (isReference_char h hc) (by decide)

end Name

namespace Condition

theorem reference?_eq_some {inJoin : Bool} {c : Condition} {column : String} :
    c.reference? inJoin = some column ↔
      inJoin = true ∧ c.value = .text column ∧ Name.isReference column = true := by
  unfold reference?
  split
  next s hs =>
    rw [hs, Scalar.text.injEq]
    constructor
    · intro h
      obtain ⟨both, same⟩ := Option.ite_none_right_eq_some.mp h
      obtain rfl := Option.some.inj same
      obtain ⟨join, reference⟩ := Bool.and_eq_true_iff.mp both
      exact ⟨join, rfl, reference⟩
    · rintro ⟨rfl, rfl, reference⟩
      rw [Bool.true_and, if_pos reference]
  next other =>
    constructor
    · exact nofun
    · rintro ⟨-, text, -⟩
      exact absurd text (other column)

theorem isReference_of_reference? {inJoin : Bool} {c : Condition} {s : String}
    (h : c.reference? inJoin = some s) : Name.isReference s = true := (reference?_eq_some.mp h).2.2

end Condition
end QueryGate
