/-! The characters of integers written in decimal. -/
namespace QueryGate.Numeral

theorem natural_toList (n : Nat) : (toString (n : Int)).toList = Nat.toDigits 10 n := by
  rw [Int.toString_eq_repr]
  exact Nat.toList_repr

theorem digit_of_mem_natural {n : Nat} {c : Char} (h : c ∈ (toString (n : Int)).toList) : c.isDigit = true := by
  rw [natural_toList] at h
  exact Nat.isDigit_of_mem_toDigits (by decide) (by decide) h

theorem natural_ne_nil (n : Nat) : (toString (n : Int)).toList ≠ [] := by
  rw [natural_toList]
  exact Nat.toDigits_ne_nil

theorem ofDigitChars_natural (n : Nat) : Nat.ofDigitChars 10 (toString (n : Int)).toList 0 = n := by
  rw [natural_toList, Nat.ofDigitChars_ten_toDigits]

theorem natural_inj {m n : Nat} (h : (toString (m : Int)).toList = (toString (n : Int)).toList) : m = n := by
  rw [← ofDigitChars_natural m, h, ofDigitChars_natural]

theorem signed_toList (i : Int) : ∃ sign digits, (toString i).toList = sign ++ digits ∧
    (sign = [] ∨ sign = ['-']) ∧ ∀ c ∈ digits, c.isDigit = true := by
  cases i with
  | ofNat n => exact ⟨[], _, rfl, .inl rfl, fun c => digit_of_mem_natural⟩
  | negSucc n =>
    have text : (toString (Int.negSucc n)).toList = '-' :: (toString ((n + 1 : Nat) : Int)).toList :=
      String.toList_append
    exact ⟨['-'], _, text, .inr rfl, fun c => digit_of_mem_natural⟩

theorem digit_or_sign_of_mem {i : Int} {c : Char} (h : c ∈ (toString i).toList) : c.isDigit = true ∨ c = '-' := by
  obtain ⟨sign, digits, text, hsign, hdigits⟩ := signed_toList i
  rw [text, List.mem_append] at h
  rcases h with h | h
  · rcases hsign with rfl | rfl
    · exact absurd h List.not_mem_nil
    · exact .inr (List.mem_singleton.mp h)
  · exact .inl (hdigits c h)

end QueryGate.Numeral
