import QueryGate.Proofs.Placeholders

/-! Texts of statements with something else in the place of each numbered mark, chosen by its number. -/
namespace QueryGate

namespace Placeholder

/-- A text in which a dollar sign and the digits behind it make way for what `f` has for the digits; a dollar sign alone
stays. Whether the text stands behind such digits is given. -/
def replaceMarks (f : List Char → List Char) : Bool → List Char → List Char
  | _, [] => []
  | behind, c :: rest =>
    if behind && c.isDigit then replaceMarks f true rest
    else if c = '$' && rest.head?.any Char.isDigit then f (rest.takeWhile Char.isDigit) ++ replaceMarks f true rest
    else c :: replaceMarks f false rest

end Placeholder

def Piece.replaced (f : List Char → List Char) : Piece → List Char
  | .marker index => f (toString index).toList
  | p => (p.render .postgres).toList

namespace Placeholder

section
variable {f : List Char → List Char} {names : String → Prop} {counts : Int → Prop} {ps : List Piece}

theorem replaceMarks_quiet {s : List Char} (h : '$' ∉ s) (t : List Char) :
    replaceMarks f false (s ++ t) = s ++ replaceMarks f false t := by
  induction s with
  | nil => rfl
  | cons c s ih =>
    obtain ⟨hc, hs⟩ := List.ne_and_not_mem_of_not_mem_cons h
    rw [List.cons_append, replaceMarks, Bool.false_and, if_neg Bool.false_ne_true, decide_eq_false (Ne.symm hc),
      Bool.false_and, if_neg Bool.false_ne_true, ih hs, List.cons_append]

theorem replaceMarks_begins {t : List Char} (ht : t = [] ∨ Begins t) :
    replaceMarks f true t = replaceMarks f false t := by
  rcases ht with rfl | ht
  · rfl
  · cases t with
    | nil => exact absurd ht nofun
    | cons c t => rw [replaceMarks, replaceMarks, Option.some.inj ht, Bool.and_false, Bool.and_false]

theorem replaceMarks_digits {digits : List Char} (h : ∀ c ∈ digits, c.isDigit = true) (t : List Char) :
    replaceMarks f true (digits ++ t) = replaceMarks f true t := by
  induction digits with
  | nil => rfl
  | cons c digits ih =>
    obtain ⟨hc, hdigits⟩ := List.forall_mem_cons.mp h
    rw [List.cons_append, replaceMarks, hc, Bool.and_self, if_pos rfl, ih hdigits]

theorem replaceMarks_mark {digits : List Char} (some : digits ≠ []) (h : ∀ c ∈ digits, c.isDigit = true)
    {t : List Char} (ht : t = [] ∨ Begins t) :
    replaceMarks f false ('$' :: (digits ++ t)) = f digits ++ replaceMarks f false t := by
  have front : (digits ++ t).head?.any Char.isDigit = true := by
    obtain ⟨c, rest, rfl⟩ := List.exists_cons_of_ne_nil some
    exact h c List.mem_cons_self
  rw [replaceMarks, front, takeWhile_digits h ht, replaceMarks_digits h, replaceMarks_begins ht]
  rfl

theorem replaceMarks_pieces (h : ∀ p ∈ ps, p.Regular (fun s => '$' ∉ s.toList) counts)
    (hi : ∀ i ∈ ps.filterMap Piece.index?, 0 ≤ i) :
    replaceMarks f false (ps.flatMap fun p => (p.render .postgres).toList) = ps.flatMap (Piece.replaced f) := by
  induction ps with
  | nil => rfl
  | cons p ps ih =>
    obtain ⟨hp, hps⟩ := List.forall_mem_cons.mp h
    rw [List.flatMap_cons, List.flatMap_cons]
    rcases regular_cases_char (.inr rfl) hp with ⟨i, rfl⟩ | ⟨none, still⟩
    · -- the digits of the mark end where the next piece begins
      rw [indexes_marker, List.forall_mem_cons] at hi
      obtain ⟨n, rfl⟩ := Int.eq_ofNat_of_zero_le hi.1
      rw [Piece.render, Reading.marker_dollar, List.cons_append,
        replaceMarks_mark (Numeral.natural_ne_nil n) (fun c => Numeral.digit_of_mem_natural) (begins_pieces _ hps),
        ih hps hi.2]
      rfl
    · rw [List.filterMap_cons_none none] at hi
      rw [replaceMarks_quiet (still _), ih hps hi]
      cases p with
      | marker index => exact absurd none (Option.some_ne_none index)
      | word s | name s => rfl

end
end Placeholder
end QueryGate
