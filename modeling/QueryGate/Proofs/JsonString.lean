import QueryGate.Json.Reader
import QueryGate.Json.Writer
import QueryGate.Proofs.Outcome
import QueryGate.Proofs.Utf8Text

/-! Texts written in JSON are read back: each character stands as it is, behind a backslash or as its codes. -/
namespace QueryGate
open Outcome

namespace Text

theorem hexDigits_succ (width n : Nat) :
    hexDigits (width + 2) n = hexDigits (width + 1) (n / 16) ++ [Nat.digitChar (n % 16)] := by
  unfold hexDigits
  dsimp only
  by_cases small : n < 16
  · rw [Nat.toDigits_of_lt_base small, Nat.div_eq_of_lt small, Nat.mod_eq_of_lt small, Nat.toDigits_zero]
    show List.replicate (width + 1) '0' ++ [n.digitChar] = List.replicate width '0' ++ ['0'] ++ [n.digitChar]
    rw [List.replicate_succ']
  · have pad : width + 2 - ((Nat.toDigits 16 (n / 16)).length + 1) = width + 1 - (Nat.toDigits 16 (n / 16)).length := by
      omega
    rw [Nat.toDigits_of_base_le (by decide) (Nat.le_of_not_lt small), List.length_append, List.length_singleton, pad,
      List.append_assoc]

theorem hexDigits_four {n : Nat} (h : n < 65536) : hexDigits 4 n =
    [Nat.digitChar (n / 4096), Nat.digitChar (n / 256 % 16), Nat.digitChar (n / 16 % 16), Nat.digitChar (n % 16)] := by
  have one : hexDigits 1 (n / 4096) = [Nat.digitChar (n / 4096)] := by
    unfold hexDigits
    rw [Nat.toDigits_of_lt_base (by omega)]
    rfl
  have second : n / 16 / 16 = n / 256 := by omega
  have third : n / 256 / 16 = n / 4096 := by omega
  rw [hexDigits_succ, hexDigits_succ, second, hexDigits_succ, third, one]
  rfl

theorem hexValue?_digitChar {n : Nat} (h : n < 16) : hexValue? (Nat.digitChar n) = some n := by
  have all : ∀ n < 16, hexValue? (Nat.digitChar n) = some n := by decide
  exact all n h

end Text

namespace Json

theorem hexQuad?_hexDigits {n : Nat} (h : n < 65536) {rest : List Char} (more : rest ≠ []) :
    hexQuad? (Text.hexDigits 4 n ++ rest) = some (n, rest) := by
  obtain ⟨c, rest, rfl⟩ := List.exists_cons_of_ne_nil more
  have whole : ((n / 4096 * 16 + n / 256 % 16) * 16 + n / 16 % 16) * 16 + n % 16 = n := by omega
  rw [Text.hexDigits_four h]
  simp only [List.cons_append, List.nil_append, hexQuad?, Text.hexValue?_digitChar (n := n / 4096) (by omega),
    Text.hexValue?_digitChar (n := n / 256 % 16) (by omega), Text.hexValue?_digitChar (n := n / 16 % 16) (by omega),
    Text.hexValue?_digitChar (n := n % 16) (by omega), Option.bind_eq_bind, Option.bind_some, whole]

theorem codeEscape_append (n : Nat) (rest : List Char) :
    codeEscape n ++ rest = '\\' :: 'u' :: (Text.hexDigits 4 n ++ rest) := rfl

theorem readCode_single {c : Char} (h : c.toNat < 65536) {rest : List Char} (more : rest ≠ []) :
    readCode ('u' :: (Text.hexDigits 4 c.toNat ++ rest)) = .ok (c, rest) := by
  have valid : c.toNat < 0xD800 ∨ 0xDFFF < c.toNat ∧ c.toNat < 0x110000 := c.valid
  have whole : isHighHalf c.toNat = false := by
    rw [isHighHalf, Bool.and_eq_false_iff, decide_eq_false_iff_not, decide_eq_false_iff_not]
    omega
  rw [readCode, List.drop_one, List.tail_cons, hexQuad?_hexDigits h more]
  simp only [whole, Bool.false_and, oneCode, Wire.charOf?_toNat]

theorem readCode_pair {c : Char} (h : 65536 ≤ c.toNat) {rest : List Char} (more : rest ≠ []) :
    readCode ('u' :: (Text.hexDigits 4 (0xD800 + (c.toNat - 0x10000) / 1024) ++
      (codeEscape (0xDC00 + (c.toNat - 0x10000) % 1024) ++ rest))) = .ok (c, rest) := by
  have valid : c.toNat < 0xD800 ∨ 0xDFFF < c.toNat ∧ c.toNat < 0x110000 := c.valid
  obtain ⟨n, hn⟩ : ∃ n, c.toNat - 0x10000 = n := ⟨_, rfl⟩
  have high : isHighHalf (0xD800 + n / 1024) = true := by
    rw [isHighHalf, Bool.and_eq_true, decide_eq_true_eq, decide_eq_true_eq]
    omega
  have low : isLowHalf (0xDC00 + n % 1024) = true := by
    rw [isLowHalf, Bool.and_eq_true, decide_eq_true_eq, decide_eq_true_eq]
    omega
  have code : 0x10000 + (0xD800 + n / 1024 - 0xD800) * 1024 + (0xDC00 + n % 1024 - 0xDC00) = c.toNat := by omega
  obtain ⟨digits, hdigits⟩ : ∃ digits, Text.hexDigits 4 (0xDC00 + n % 1024) = digits := ⟨_, rfl⟩
  have second : hexQuad? (digits ++ rest) = some (0xDC00 + n % 1024, rest) :=
    hdigits ▸ hexQuad?_hexDigits (by omega) more
  have long : 7 ≤ ('\\' :: 'u' :: (digits ++ rest)).length := by
    have some := List.length_pos_iff.mpr more
    rw [← hdigits, Text.hexDigits_four (by omega)]
    simp only [List.length_append, List.length_cons, List.length_nil]
    omega
  rw [hn, codeEscape_append, hdigits, readCode, List.drop_one, List.tail_cons,
    hexQuad?_hexDigits (by omega) (List.cons_ne_nil _ _)]
  simp only [high, decide_eq_true long, Bool.and_self, second, low, if_true, code, Char.ofNat_toNat]

section
variable {start fuel : Nat} {rest : List Char} {text : List Char × List Char}

theorem readString_code {c : Char} {code : List Char} (hcode : readCode ('u' :: code) = .ok (c, rest))
    (h : readString start fuel rest = .ok text) :
    readString start (fuel + 1) ('\\' :: 'u' :: code) = .ok (c :: text.1, text.2) := by
  rw [readString]
  exact bind_eq_ok.mpr ⟨_, hcode, bind_eq_ok.mpr ⟨_, h, rfl⟩⟩

theorem readString_escaped {e c : Char} (short : escapedChar? e = some c) (h : readString start fuel rest = .ok text) :
    readString start (fuel + 1) ('\\' :: e :: rest) = .ok (c :: text.1, text.2) := by
  have notCode : e ≠ 'u' := by
    rintro rfl
    exact absurd short nofun
  rw [readString]
  · rw [short, h]
    rfl
  · exact notCode

theorem readString_plain {c : Char} (quote : c ≠ '"') (backslash : c ≠ '\\') (printed : 32 ≤ c.toNat)
    (h : readString start fuel rest = .ok text) :
    readString start (fuel + 1) (c :: rest) = .ok (c :: text.1, text.2) := by
  rw [readString]
  · rw [if_neg (Nat.not_lt.mpr printed), h]
    rfl
  · exact quote
  · exact backslash

theorem readString_writeChar (c : Char) (more : rest ≠ []) (h : readString start fuel rest = .ok text) :
    readString start (fuel + 1) (writeChar c ++ rest) = .ok (c :: text.1, text.2) := by
  have escaped {e d : Char} (same : (c == d) = true) (short : escapedChar? e = some d) :
      readString start (fuel + 1) ('\\' :: e :: rest) = .ok (c :: text.1, text.2) :=
    readString_escaped (beq_iff_eq.mp same ▸ short) h
  unfold writeChar
  split
  next same => exact escaped same rfl
  next quote =>
  split
  next same => exact escaped same rfl
  next backslash =>
  split
  next same => exact escaped same rfl
  split
  next same => exact escaped same rfl
  split
  next same => exact escaped same rfl
  split
  next same => exact escaped same rfl
  split
  next same => exact escaped same rfl
  split
  next printed => exact readString_plain (by simpa using quote) (by simpa using backslash) printed.1 h
  split
  next single =>
    rw [codeEscape_append]
    exact readString_code (readCode_single single more) h
  next pair =>
    rw [List.append_assoc, codeEscape_append]
    exact readString_code (readCode_pair (Nat.le_of_not_lt pair) more) h

end

theorem readString_flatMap {start fuel : Nat} (chars rest : List Char) (enough : chars.length < fuel) :
    readString start fuel (chars.flatMap writeChar ++ '"' :: rest) = .ok (chars, rest) := by
  induction chars generalizing fuel with
  | nil =>
    obtain ⟨fuel, rfl⟩ := Nat.exists_eq_add_one_of_ne_zero (Nat.ne_of_gt enough)
    rfl
  | cons c chars ih =>
    obtain ⟨fuel, rfl⟩ := Nat.exists_eq_add_one_of_ne_zero (Nat.ne_of_gt (Nat.zero_lt_of_lt enough))
    rw [List.flatMap_cons, List.append_assoc]
    exact readString_writeChar c (by simp) (ih (Nat.lt_of_succ_lt_succ enough))

theorem writeChar_ne_nil (c : Char) : writeChar c ≠ [] := by
  unfold writeChar
  repeat' split
  all_goals nofun

theorem length_flatMap_writeChar (chars : List Char) : chars.length ≤ (chars.flatMap writeChar).length := by
  induction chars with
  | nil => exact Nat.le_refl 0
  | cons c chars ih =>
    have some := List.length_pos_iff.mpr (writeChar_ne_nil c)
    rw [List.flatMap_cons, List.length_append, List.length_cons]
    omega

theorem readQuoted_writeString (s : String) (rest : List Char) : readQuoted (writeString s ++ rest) = .ok (s, rest) := by
  have enough : s.toList.length < (writeString s ++ rest).length := by
    have long := length_flatMap_writeChar s.toList
    simp only [writeString, List.cons_append, List.length_cons, List.length_append]
    omega
  have text : (writeString s ++ rest).drop 1 = s.toList.flatMap writeChar ++ '"' :: rest := by
    simp only [writeString, List.cons_append, List.drop_one, List.tail_cons, List.append_assoc, List.nil_append]
  rw [readQuoted, text]
  refine bind_eq_ok.mpr ⟨_, readString_flatMap s.toList rest enough, ?_⟩
  show Except.ok (String.ofList s.toList, rest) = _
  rw [String.ofList_toList]

end Json
end QueryGate
