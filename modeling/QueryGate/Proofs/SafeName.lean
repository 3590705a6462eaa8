import QueryGate.Proofs.AllowedQuery
import QueryGate.Proofs.ColumnReference

/-! Names that fall into stars and identifiers at their dots, which all names that are let through do. -/
namespace QueryGate

namespace Name

def IsSafe (s : String) : Prop := ∀ part ∈ s.toList.splitOn '.', part = ['*'] ∨ IsIdentifier part

theorem isReferenceWord_of_isWord {word : List Char} (h : isWord word = true) : isReferenceWord word = true := by
  cases word with
  | nil => exact absurd h nofun
  | cons c rest =>
    simp only [isWord, Bool.and_eq_true] at h
    simp only [isReferenceWord, h.1, Bool.true_or, Bool.true_and]
    exact h.2

theorem isSafe_of_isDotted {s : String} (h : isDotted s.toList = true) : IsSafe s := by
  intro part hp
  have word := List.all_eq_true.mp h part hp
  exact .inr ⟨part, [], (List.append_nil part).symm, isReferenceWord_of_isWord word, .inl rfl⟩

theorem isDotted_of_isTable {s : List Char} (h : isTable s = true) : isDotted s = true := by
  have word : isWord s = true := (Bool.and_eq_true_iff.mp h).1
  have noDot : '.' ∉ s := fun hdot =>
    absurd (isReferenceWord_char (isReferenceWord_of_isWord word) hdot) (by decide)
  rw [isDotted, List.splitOn_eq_singleton noDot, List.all_cons, word]
  rfl

theorem isSafe_of_isTable {s : String} (h : isTable s.toList = true) : IsSafe s :=
  isSafe_of_isDotted (isDotted_of_isTable h)

theorem isSafe_of_isReference (s : String) (h : isReference s = true) : IsSafe s :=
  fun _ hp => .inr (isIdentifier_of_isReference h hp)

theorem isSafe_star : IsSafe "*" := by
  intro part hp
  exact .inl (List.mem_singleton.mp hp)

theorem IsSafe.char {s : String} (h : IsSafe s) {c : Char} (hc : c ∈ s.toList) :
    c = '.' ∨ c = '*' ∨ (c.isAlphanum || c == '_') = true ∨ c = '\n' := by
  obtain rfl | ⟨part, hp, hc⟩ := Splitting.mem_splitOn_of_mem '.' hc
  · exact .inl rfl
  · rcases h part hp with rfl | identifier
    · exact .inr (.inl (List.mem_singleton.mp hc))
    · exact .inr (.inr (identifier.char hc))

theorem IsSafe.isPlain {s : String} (h : IsSafe s) : Identifier.IsPlain s.toList := by
  constructor <;> intro hc <;> exact absurd (h.char hc) (by decide)

end Name

open Name

theorem AllowedEntry.isSafe {name : String} (h : AllowedEntry name) : IsSafe name := by
  rcases h with rfl | ⟨-, dotted, -⟩
  · exact isSafe_star
  · exact isSafe_of_isDotted dotted

theorem AllowedField.isSafe {o : ValidationOptions} (pattern : o.fieldPattern = .safe) {name : String}
    (h : AllowedField o name) : IsSafe name := by
  have accepted := h.accepted
  rw [pattern] at accepted
  rcases Bool.or_eq_true_iff.mp accepted with star | dotted
  · exact absurd (String.toList_inj.mp (beq_iff_eq.mp star)) h.notStar
  · exact isSafe_of_isDotted dotted

theorem AllowedTrees.fields_isSafe {o : ValidationOptions} (pattern : o.fieldPattern = .safe) {ps : List Predicate}
    (h : AllowedTrees o ps) : ∀ name ∈ Predicate.fields ps, IsSafe name := by
  intro name hn
  obtain ⟨c, hc, rfl⟩ := List.mem_map.mp hn
  exact (h.leaves c hc).field.isSafe pattern

end QueryGate
