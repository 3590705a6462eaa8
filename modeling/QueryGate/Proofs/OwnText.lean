import QueryGate.Proofs.Comparing
import QueryGate.Proofs.SafeName
import QueryGate.Proofs.Wording

/-! Which text of a statement is the compiler's own: all but what stands between quotes, and between quotes
stand identifiers. -/
namespace QueryGate
open Identifier Name

namespace OwnText

def keywords : List String :=
  ["SELECT", "FROM", "INNER", "LEFT", "RIGHT", "FULL", "JOIN", "AS", "ON", "WHERE", "GROUP", "BY", "HAVING", "ORDER",
    "ASC", "DESC", "LIMIT", "OFFSET", "INSERT", "INTO", "VALUES", "UPDATE", "SET", "CASE", "WHEN", "THEN", "ELSE",
    "END", "DELETE", "ANY", "AND", "OR", "NOT", "IN", "IS", "NULL", "LIKE", "REGEXP"]

def symbols : List String := ["=", "!=", "<>", ">", ">=", "<", "<=", "*", ".", ",", "(", ")", " "]

/-- What the text outside of quotes is put together from. -/
inductive Lexeme (d : Dialect) : List Char → Prop
  | word {s : String} (h : s ∈ keywords ++ symbols) : Lexeme d s.toList
  | number (n : Nat) : Lexeme d (toString n).toList
  | placeholder (n : Nat) : Lexeme d (d.marker ((n : Int) + 1)).toList

end OwnText

open OwnText

def OwnText (d : Dialect) (s : List Char) : Prop :=
  ∃ lexemes : List (List Char), (∀ l ∈ lexemes, Lexeme d l) ∧ s = lexemes.flatten

namespace OwnText
variable {d : Dialect}

theorem nil : OwnText d [] := ⟨[], List.forall_mem_nil _, rfl⟩

theorem of_lexeme {s : List Char} (h : Lexeme d s) : OwnText d s :=
  ⟨[s], fun _ hl => List.mem_singleton.mp hl ▸ h, (List.append_nil s).symm⟩

theorem append {s t : List Char} (hs : OwnText d s) (ht : OwnText d t) : OwnText d (s ++ t) := by
  obtain ⟨ls, hls, rfl⟩ := hs
  obtain ⟨lt, hlt, rfl⟩ := ht
  exact ⟨ls ++ lt, List.forall_mem_append.mpr ⟨hls, hlt⟩, List.flatten_append.symm⟩

theorem of_word {s : String} (h : s ∈ keywords ++ symbols) : OwnText d s.toList := of_lexeme (.word h)

def isSpelled (s : List Char) : Bool :=
  (s.splitOn ' ').all fun part =>
    part.isEmpty || (keywords ++ symbols).any (·.toList == part) || part == ['A', 'N', 'Y', '(']

theorem of_isSpelled {s : List Char} (h : isSpelled s = true) : OwnText d s := by
  have whole : [' '].intercalate (s.splitOn ' ') = s := List.intercalate_splitOn ' '
  rw [← whole]
  refine Splitting.intercalate_of_append nil (fun _ _ => append) (of_word (s := " ") (by decide)) fun part hp => ?_
  have spelled := List.all_eq_true.mp h part hp
  simp only [Bool.or_eq_true, List.isEmpty_iff, List.any_eq_true, beq_iff_eq] at spelled
  obtain (rfl | ⟨word, hword, rfl⟩) | rfl := spelled
  · exact nil
  · exact of_word hword
  · -- the one place where a keyword touches a symbol
    exact (of_word (s := "ANY") (by decide)).append (of_word (s := "(") (by decide))

theorem wording_isSpelled : ∀ s ∈ Sql.wording, isSpelled s.toList = true := by decide +kernel

/-- Quotes, the ends of statements and the marks of comments, none of which the compiler writes outside of quotes. -/
def foreign : List Char := ['\'', '"', '\x60', ';', '\\', '-', '/']

theorem not_foreign_of_digit {c : Char} (h : c.isDigit = true) : c ∉ foreign := by
  intro hc
  simp only [foreign, List.mem_cons, List.not_mem_nil, or_false] at hc
  rcases hc with rfl | rfl | rfl | rfl | rfl | rfl | rfl <;> exact absurd h (by decide)

theorem words_not_foreign : ((keywords ++ symbols).all fun s => s.toList.all fun c => !foreign.contains c) = true := by
  decide +kernel

theorem not_foreign {s : List Char} (h : OwnText d s) {c : Char} (hc : c ∈ s) : c ∉ foreign := by
  obtain ⟨lexemes, all, rfl⟩ := h
  obtain ⟨l, hl, hc⟩ := List.mem_flatten.mp hc
  cases all l hl with
  | word h =>
    have clean := List.all_eq_true.mp (List.all_eq_true.mp words_not_foreign _ h) c hc
    simpa using clean
  | number n => exact not_foreign_of_digit (Numeral.digit_of_mem_natural hc)
  | placeholder n =>
    by_cases postgres : d = .postgres
    · rw [postgres, Reading.marker_dollar, List.mem_cons] at hc
      rcases hc with rfl | hc
      · decide
      · exact not_foreign_of_digit (Numeral.digit_of_mem_natural hc)
    · rw [Reading.marker_question postgres, List.mem_singleton] at hc
      rw [hc]
      decide

theorem of_count {keyword : String} (hk : keyword = "LIMIT" ∨ keyword = "OFFSET") {n : Int} (hn : 0 ≤ n) :
    OwnText d (keyword ++ " " ++ toString n).toList := by
  obtain ⟨n, rfl⟩ := Int.eq_ofNat_of_zero_le hn
  have number : OwnText d (toString (n : Int)).toList := of_lexeme (.number n)
  rw [String.toList_append]
  rcases hk with rfl | rfl <;> exact (of_isSpelled (by decide)).append number

end OwnText
end QueryGate
