import Mathlib.Data.List.TakeDrop
import QueryGate.Json.Reader
import QueryGate.Json.Writer
import QueryGate.Proofs.Numeral
import QueryGate.Proofs.ShortestDecimal

/-! Numbers written in JSON are read back: integers by their digits, and floating-point numbers by digits that round
to them. -/
namespace QueryGate.Json

def NoDigit (rest : List Char) : Prop := ∀ c, rest.head? = some c → c.isDigit = false

theorem noDigit_nil : NoDigit [] := nofun

theorem noDigit_cons {c : Char} (h : c.isDigit = false) (rest : List Char) : NoDigit (c :: rest) :=
  fun _ e => Option.some.inj e ▸ h

section
variable {digits rest : List Char} (h : ∀ c ∈ digits, c.isDigit = true) (ends : NoDigit rest)
include h ends

theorem span_digits : (digits ++ rest).span Char.isDigit = (digits, rest) := by
  rw [List.span_eq_takeWhile_dropWhile, List.takeWhile_append_of_pos h, List.dropWhile_append_of_pos h]
  cases rest with
  | nil => rw [List.takeWhile_nil, List.dropWhile_nil, List.append_nil]
  | cons c rest =>
    have stop := ends c rfl
    rw [List.takeWhile_cons_of_neg (by simp [stop]), List.dropWhile_cons_of_neg (by simp [stop]), List.append_nil]

theorem takeWhole?_digits (given : digits ≠ []) (zero : digits = ['0'] ∨ digits.head? ≠ some '0') :
    takeWhole? (digits ++ rest) = some (digits, rest) := by
  rcases zero with rfl | first
  · rfl
  · have notZero : ∀ more, digits ++ rest ≠ '0' :: more := by
      intro more e
      obtain ⟨c, others, rfl⟩ := List.exists_cons_of_ne_nil given
      exact first (congrArg some (List.cons.inj e).1)
    have notEmpty : digits.isEmpty = false := List.isEmpty_eq_false_iff.mpr given
    unfold takeWhole?
    split
    next more e => exact absurd e (notZero more)
    next =>
      rw [span_digits h ends]
      simp only [notEmpty, Bool.false_eq_true, if_false]

theorem takeFraction_digits (given : digits ≠ []) : takeFraction ('.' :: (digits ++ rest)) = (some digits, rest) := by
  have notEmpty : digits.isEmpty = false := List.isEmpty_eq_false_iff.mpr given
  rw [takeFraction, span_digits h ends]
  simp only [notEmpty, Bool.false_eq_true, if_false]

theorem takeExponent_digits (given : digits ≠ []) (negative : Bool) :
    takeExponent ('e' :: (if negative then '-' else '+') :: (digits ++ rest)) =
      (some (if negative then -((Nat.ofDigitChars 10 digits 0 : Nat) : Int) else (Nat.ofDigitChars 10 digits 0 : Nat)),
        rest) := by
  have notEmpty : digits.isEmpty = false := List.isEmpty_eq_false_iff.mpr given
  have sign : Binary64.takeSign ((if negative then '-' else '+') :: (digits ++ rest)) = (negative, digits ++ rest) := by
    cases negative <;> rfl
  rw [takeExponent.eq_def]
  simp only [beq_self_eq_true, Bool.true_or, if_true, sign, span_digits h ends, notEmpty, Bool.false_eq_true, if_false]

end

theorem takeFraction_none {s : List Char} (h : s.head? ≠ some '.') : takeFraction s = (none, s) := by
  unfold takeFraction
  split
  · exact absurd rfl h
  · rfl

theorem takeExponent_none {s : List Char} (h : s.head? ≠ some 'e') (h' : s.head? ≠ some 'E') :
    takeExponent s = (none, s) := by
  cases s with
  | nil => rfl
  | cons c s =>
    have lower : (c == 'e') = false := beq_eq_false_iff_ne.mpr fun e => h (congrArg some e)
    have upper : (c == 'E') = false := beq_eq_false_iff_ne.mpr fun e => h' (congrArg some e)
    rw [takeExponent, lower, upper]
    rfl

def signed (negative : Bool) (s : List Char) : List Char := if negative then '-' :: s else s

def takeMinus : List Char → Bool × List Char
  | '-' :: rest => (true, rest)
  | rest => (false, rest)

theorem takeMinus_signed (negative : Bool) {s : List Char} (positive : s.head? ≠ some '-') :
    takeMinus (signed negative s) = (negative, s) := by
  cases negative with
  | true => rfl
  | false =>
    show takeMinus s = _
    unfold takeMinus
    split
    · exact absurd rfl positive
    · rfl

def numberOf (negative : Bool) (whole : List Char) (fraction : Option (List Char)) (exponent : Option Int) : Value :=
  if fraction.isNone && exponent.isNone then
    let size : Int := (Nat.ofDigitChars 10 whole 0 : Nat)
    .int (if negative then -size else size)
  else .float (Binary64.ofParts negative whole (fraction.getD []) (exponent.getD 0))

theorem readNumber?_eq (s : List Char) : readNumber? s = (takeWhole? (takeMinus s).2).map fun (whole, rest) =>
    let fraction := takeFraction rest
    let exponent := takeExponent fraction.2
    (numberOf (takeMinus s).1 whole fraction.1 exponent.1, exponent.2) := by
  have unfolded : readNumber? s = (takeWhole? (takeMinus s).2).bind fun (whole, rest) =>
      let fraction := takeFraction rest
      let exponent := takeExponent fraction.2
      if fraction.1.isNone && exponent.1.isNone then
        let size : Int := (Nat.ofDigitChars 10 whole 0 : Nat)
        some (.int (if (takeMinus s).1 then -size else size), exponent.2)
      else some (.float (Binary64.ofParts (takeMinus s).1 whole (fraction.1.getD []) (exponent.1.getD 0)), exponent.2) :=
    rfl
  rw [unfolded]
  cases takeWhole? (takeMinus s).2 with
  | none => rfl
  | some parts =>
    rw [Option.bind_some, Option.map_some]
    unfold numberOf
    dsimp only
    split <;> rfl

theorem readNumber?_parts (negative : Bool) {s whole behind behind' rest : List Char} {fraction : Option (List Char)}
    {exponent : Option Int} (positive : s.head? ≠ some '-') (hwhole : takeWhole? s = some (whole, behind))
    (hfraction : takeFraction behind = (fraction, behind')) (hexponent : takeExponent behind' = (exponent, rest)) :
    readNumber? (signed negative s) = some (numberOf negative whole fraction exponent, rest) := by
  rw [readNumber?_eq, takeMinus_signed negative positive, hwhole, Option.map_some]
  dsimp only
  rw [hfraction, hexponent]

theorem toDigits_isDigit (n : Nat) : ∀ c ∈ Nat.toDigits 10 n, c.isDigit = true :=
  fun _ hc => Nat.isDigit_of_mem_toDigits (by decide) (by decide) hc

theorem head?_toDigits {n : Nat} (h : 0 < n) : (Nat.toDigits 10 n).head? ≠ some '0' := by
  induction n using Nat.strongRecOn with
  | ind n ih =>
    by_cases small : n < 10
    · rw [Nat.toDigits_of_lt_base small, List.head?_cons]
      intro e
      exact h.ne' (Nat.digitChar_eq_zero.mp (Option.some.inj e))
    · rw [Nat.toDigits_of_base_le (by decide) (Nat.le_of_not_lt small), List.head?_append_of_ne_nil _ Nat.toDigits_ne_nil]
      exact ih (n / 10) (Nat.div_lt_self h (by decide)) (Nat.div_pos (Nat.le_of_not_lt small) (by decide))

theorem head?_of_isDigit {s : List Char} (h : ∀ c ∈ s, c.isDigit = true) (rest : List Char) (given : s ≠ []) {c : Char}
    (other : c.isDigit = false) : (s ++ rest).head? ≠ some c := by
  obtain ⟨d, s, rfl⟩ := List.exists_cons_of_ne_nil given
  intro e
  obtain rfl : d = c := Option.some.inj e
  exact absurd (h d List.mem_cons_self) (by simp [other])

/-- Nothing that goes on a number stands in front of the text. -/
structure EndsNumber (rest : List Char) : Prop where
  digit : NoDigit rest
  point : rest.head? ≠ some '.'
  lower : rest.head? ≠ some 'e'
  upper : rest.head? ≠ some 'E'

theorem readNumber?_natural (negative : Bool) (n : Nat) {rest : List Char} (ends : EndsNumber rest) :
    readNumber? (signed negative (Nat.toDigits 10 n ++ rest)) = some (.int (if negative then -(n : Int) else n), rest) := by
  have zero : Nat.toDigits 10 n = ['0'] ∨ (Nat.toDigits 10 n).head? ≠ some '0' := by
    rcases Nat.eq_zero_or_pos n with rfl | positive
    · exact .inl (Nat.toDigits_zero 10)
    · exact .inr (head?_toDigits positive)
  have number : numberOf negative (Nat.toDigits 10 n) none none = .int (if negative then -(n : Int) else n) := by
    simp only [numberOf, Option.isNone_none, Bool.and_self, if_true, Nat.ofDigitChars_ten_toDigits]
  rw [← number]
  exact readNumber?_parts negative (head?_of_isDigit (toDigits_isDigit n) rest Nat.toDigits_ne_nil rfl)
    (takeWhole?_digits (toDigits_isDigit n) ends.digit Nat.toDigits_ne_nil zero) (takeFraction_none ends.point)
    (takeExponent_none ends.lower ends.upper)

theorem readNumber?_int (n : Int) {rest : List Char} (ends : EndsNumber rest) :
    readNumber? ((toString n).toList ++ rest) = some (.int n, rest) := by
  cases n with
  | ofNat n =>
    have text : (toString (Int.ofNat n)).toList = Nat.toDigits 10 n := Numeral.natural_toList n
    rw [text]
    exact readNumber?_natural false n ends
  | negSucc n =>
    have text : (toString (Int.negSucc n)).toList = '-' :: Nat.toDigits 10 (n + 1) := by
      have minus : (toString (Int.negSucc n)).toList = '-' :: (toString ((n + 1 : Nat) : Int)).toList :=
        String.toList_append
      rw [minus, Numeral.natural_toList]
    rw [text]
    exact readNumber?_natural true (n + 1) ends

open Binary64

structure IsDigits (n : Nat) (ds : List Char) : Prop where
  digit : ∀ c ∈ ds, c.isDigit = true
  given : ds ≠ []
  first : ds.head? ≠ some '0'
  worth : Nat.ofDigitChars 10 ds 0 = n

theorem isDigits_toDigits {n : Nat} (h : 0 < n) : IsDigits n (Nat.toDigits 10 n) :=
  ⟨toDigits_isDigit n, Nat.toDigits_ne_nil, head?_toDigits h, Nat.ofDigitChars_ten_toDigits⟩

theorem isDigit_zeros (k : Nat) : ∀ c ∈ List.replicate k '0', c.isDigit = true := by
  intro c hc
  rw [List.eq_of_mem_replicate hc]
  rfl

theorem isDigit_zero : ∀ c ∈ ['0'], c.isDigit = true := isDigit_zeros 1

theorem readNumber?_fraction (negative : Bool) (whole fraction : List Char) {behind rest : List Char} {exponent : Option Int}
    (hwhole : ∀ c ∈ whole, c.isDigit = true) (given : whole ≠ []) (zero : whole = ['0'] ∨ whole.head? ≠ some '0')
    (hfraction : ∀ c ∈ fraction, c.isDigit = true) (given' : fraction ≠ []) (ends : NoDigit behind)
    (hexponent : takeExponent behind = (exponent, rest)) :
    readNumber? (signed negative (whole ++ '.' :: (fraction ++ behind))) =
      some (.float (ofParts negative whole fraction (exponent.getD 0)), rest) :=
  readNumber?_parts negative (head?_of_isDigit hwhole _ given rfl)
    (takeWhole?_digits hwhole (noDigit_cons rfl _) given zero) (takeFraction_digits hfraction ends given') hexponent

section
variable {n : Nat} {ds : List Char} (digits : IsDigits n ds) (negative : Bool) {rest : List Char}
  (ends : EndsNumber rest)
include digits ends

theorem readNumber?_small (k : Nat) :
    readNumber? (signed negative ('0' :: '.' :: (List.replicate k '0' ++ ds ++ rest))) =
      some (.float (ofDecimal negative n (-(k + ds.length : Nat))), rest) := by
  have number : Nat.ofDigitChars 10 ('0' :: (List.replicate k '0' ++ ds)) 0 = n := by
    show Nat.ofDigitChars 10 (List.replicate (k + 1) '0' ++ ds) 0 = n
    rw [Nat.ofDigitChars_append, Nat.ofDigitChars_replicate_zero, Nat.mul_zero, digits.worth]
  have parts : ofParts negative ['0'] (List.replicate k '0' ++ ds) 0 =
      ofDecimal negative n (-(k + ds.length : Nat)) := by
    rw [ofParts, List.singleton_append, number, List.length_append, List.length_replicate, Int.zero_sub]
  rw [← parts]
  have read := readNumber?_fraction negative ['0'] (List.replicate k '0' ++ ds) isDigit_zero (by decide) (.inl rfl)
    (List.forall_mem_append.mpr ⟨isDigit_zeros k, digits.digit⟩) (by simp [digits.given]) ends.digit
    (takeExponent_none ends.lower ends.upper)
  exact read

theorem readNumber?_large (k : Nat) :
    readNumber? (signed negative (ds ++ List.replicate k '0' ++ '.' :: '0' :: rest)) =
      some (.float (ofDecimal negative (n * 10 ^ (k + 1)) (-1)), rest) := by
  have number : Nat.ofDigitChars 10 (ds ++ List.replicate k '0' ++ ['0']) 0 = n * 10 ^ (k + 1) := by
    rw [List.append_assoc, ← List.replicate_succ', Nat.ofDigitChars_append, digits.worth,
      Nat.ofDigitChars_replicate_zero, Nat.mul_comm]
  have parts : ofParts negative (ds ++ List.replicate k '0') ['0'] 0 =
      ofDecimal negative (n * 10 ^ (k + 1)) (-1) := by
    rw [ofParts, number]
    rfl
  have first : (ds ++ List.replicate k '0').head? ≠ some '0' := by
    rw [List.head?_append_of_ne_nil _ digits.given]
    exact digits.first
  rw [← parts]
  have read := readNumber?_fraction negative (ds ++ List.replicate k '0') ['0']
    (List.forall_mem_append.mpr ⟨digits.digit, isDigit_zeros k⟩) (by simp [digits.given]) (.inr first) isDigit_zero
    (by decide) ends.digit (takeExponent_none ends.lower ends.upper)
  exact read

theorem readNumber?_split (point : Nat) (some : 0 < point) (more : point < ds.length) :
    readNumber? (signed negative (ds.take point ++ '.' :: (ds.drop point ++ rest))) =
      .some (.float (ofDecimal negative n (-(ds.length - point : Nat))), rest) := by
  have parts : ofParts negative (ds.take point) (ds.drop point) 0 =
      ofDecimal negative n (-(ds.length - point : Nat)) := by
    rw [ofParts, List.take_append_drop, digits.worth, List.length_drop, Int.zero_sub]
  have front : ds.take point ≠ [] := fun nothing => by
    have short := congrArg List.length nothing
    rw [List.length_take, List.length_nil] at short
    omega
  have back : ds.drop point ≠ [] := fun nothing => by
    have short := congrArg List.length nothing
    rw [List.length_drop, List.length_nil] at short
    omega
  have first : (ds.take point).head? ≠ .some '0' := by
    rw [List.head?_take, if_neg (Nat.ne_of_gt some)]
    exact digits.first
  rw [← parts]
  have read := readNumber?_fraction negative (ds.take point) (ds.drop point)
    (fun c hc => digits.digit c (List.mem_of_mem_take hc)) front (.inr first)
    (fun c hc => digits.digit c (List.mem_of_mem_drop hc)) back ends.digit (takeExponent_none ends.lower ends.upper)
  exact read

end

theorem value_scaled (digits k : Nat) : Decimal.value ⟨digits * 10 ^ (k + 1), -1⟩ = Decimal.value ⟨digits, k⟩ := by
  have ten : (10 : ℚ) ≠ 0 := by norm_num
  rw [Decimal.value, Decimal.value, zpow_natCast, zpow_neg_one]
  push_cast
  rw [pow_succ]
  field_simp

/-- What is read of the digits may be another decimal, but one of the same value. -/
theorem readNumber?_pointed {d : Decimal} (some : 0 < d.digits) (negative : Bool) {rest : List Char}
    (ends : EndsNumber rest) : ∃ digits exponent,
      readNumber? (signed negative (pointedDigits (Nat.toDigits 10 d.digits)
        ((Nat.toDigits 10 d.digits).length + d.exponent) ++ rest)) =
        .some (.float (ofDecimal negative digits exponent), rest) ∧ Decimal.value ⟨digits, exponent⟩ = d.value := by
  have digits := isDigits_toDigits some
  obtain ⟨ds, hds⟩ : ∃ ds, Nat.toDigits 10 d.digits = ds := ⟨_, rfl⟩
  rw [hds] at digits ⊢
  unfold pointedDigits
  split
  next before =>
    have read := readNumber?_small digits negative ends (-(ds.length + d.exponent)).toNat
    have power : -(((-(ds.length + d.exponent)).toNat + ds.length : Nat) : Int) = d.exponent := by omega
    rw [power] at read
    exact ⟨d.digits, d.exponent, read, rfl⟩
  split
  next before behind =>
    have read := readNumber?_large digits negative ends ((ds.length + d.exponent).toNat - ds.length)
    have power : (((ds.length + d.exponent).toNat - ds.length : Nat) : Int) = d.exponent := by omega
    refine ⟨_, -1, ?_, (value_scaled d.digits _).trans (by rw [power])⟩
    rw [List.append_assoc]
    exact read
  next before behind =>
    have read := readNumber?_split digits negative ends (ds.length + d.exponent).toNat (by omega) (by omega)
    have power : -((ds.length - (ds.length + d.exponent).toNat : Nat) : Int) = d.exponent := by omega
    rw [power] at read
    refine ⟨d.digits, d.exponent, ?_, rfl⟩
    rw [List.append_assoc]
    exact read

theorem takeExponent_power (power : Int) {rest : List Char} (ends : NoDigit rest) :
    takeExponent ('e' :: (if power < 0 then '-' else '+') ::
      ((if (Nat.toDigits 10 power.natAbs).length < 2 then '0' :: Nat.toDigits 10 power.natAbs
        else Nat.toDigits 10 power.natAbs) ++ rest)) = (some power, rest) := by
  obtain ⟨digits, hdigits⟩ : ∃ digits, (if (Nat.toDigits 10 power.natAbs).length < 2 then
    '0' :: Nat.toDigits 10 power.natAbs else Nat.toDigits 10 power.natAbs) = digits := ⟨_, rfl⟩
  have worth : (∀ c ∈ digits, c.isDigit = true) ∧ digits ≠ [] ∧ Nat.ofDigitChars 10 digits 0 = power.natAbs := by
    rw [← hdigits]
    split
    · exact ⟨List.forall_mem_cons.mpr ⟨rfl, toDigits_isDigit _⟩, List.cons_ne_nil _ _, Nat.ofDigitChars_ten_toDigits⟩
    · exact ⟨toDigits_isDigit _, Nat.toDigits_ne_nil, Nat.ofDigitChars_ten_toDigits⟩
  obtain ⟨isDigit, given, worth⟩ := worth
  have sign : (if power < 0 then '-' else '+') = if decide (power < 0) then '-' else '+' := by simp
  rw [hdigits, sign, takeExponent_digits isDigit ends given, worth]
  congr 2
  simp only [decide_eq_true_eq]
  split <;> omega

theorem readNumber?_exponent {n : Nat} {ds : List Char} (digits : IsDigits n ds) (negative : Bool) (exponent : Int)
    {rest : List Char} (ends : EndsNumber rest) :
    readNumber? (signed negative (exponentDigits ds (ds.length + exponent) ++ rest)) =
      .some (.float (ofDecimal negative n exponent), rest) := by
  obtain ⟨isDigit, given, first, worth⟩ := digits
  obtain ⟨power, hpower⟩ : ∃ power : Int, (ds.length : Int) + exponent - 1 = power := ⟨_, rfl⟩
  have hexponent := takeExponent_power power ends.digit
  unfold exponentDigits
  dsimp only
  rw [hpower]
  cases ds with
  | nil => exact absurd rfl given
  | cons c ds =>
    cases ds with
    | nil =>
      have parts : numberOf negative [c] none (.some power) = .float (ofDecimal negative n exponent) := by
        show Value.float (ofDecimal negative (Nat.ofDigitChars 10 [c] 0) (power - 0)) = _
        rw [worth, ← hpower]
        congr 2
        simp
      rw [← parts]
      have read := readNumber?_parts negative (head?_of_isDigit isDigit _ given rfl)
        (takeWhole?_digits isDigit (noDigit_cons rfl _) given (.inr first))
        (takeFraction_none (s := 'e' :: _) (by simp)) hexponent
      simpa only [List.append_assoc, List.cons_append, List.nil_append] using read
    | cons b ds =>
      have parts : ofParts negative [c] (b :: ds) power = ofDecimal negative n exponent := by
        rw [ofParts, List.singleton_append, worth, ← hpower]
        congr 1
        simp only [List.length_cons]
        omega
      have front : ∀ x ∈ [c], x.isDigit = true := fun x hx => isDigit x (List.mem_singleton.mp hx ▸ List.mem_cons_self)
      have back : ∀ x ∈ b :: ds, x.isDigit = true := fun x hx => isDigit x (List.mem_cons_of_mem c hx)
      rw [← parts]
      have read := readNumber?_fraction negative [c] (b :: ds) front (List.cons_ne_nil _ _) (.inr first) back
        (List.cons_ne_nil _ _) (noDigit_cons rfl _) hexponent
      simpa only [List.append_assoc, List.cons_append, List.nil_append, Option.getD_some] using read

theorem readNumber?_layout {d : Decimal} (some : 0 < d.digits) (negative : Bool) {rest : List Char}
    (ends : EndsNumber rest) : ∃ digits exponent, readNumber? (signed negative (layout d ++ rest)) =
        .some (.float (ofDecimal negative digits exponent), rest) ∧ Decimal.value ⟨digits, exponent⟩ = d.value := by
  unfold layout
  dsimp only
  split
  · exact readNumber?_pointed some negative ends
  · exact ⟨d.digits, d.exponent, readNumber?_exponent (isDigits_toDigits some) negative d.exponent ends, rfl⟩

/-- A finite number is read back from its text. -/
theorem readNumber?_finite {negative : Bool} {m : Nat} {e : Int} (normal : fits m e = true) {rest : List Char}
    (ends : EndsNumber rest) : readNumber? ((Binary64.finite negative m e normal).text.toList ++ rest) =
      some (.float (.finite negative m e normal), rest) := by
  obtain ⟨size, hsize⟩ : ∃ size, (if m = 0 then ['0', '.', '0'] else layout (RoundingInterval.of m e).shortest) = size :=
    ⟨_, rfl⟩
  have text : (Binary64.finite negative m e normal).text.toList ++ rest = signed negative (size ++ rest) := by
    rw [Binary64.text, hsize, String.toList_ofList]
    cases negative <;> rfl
  rw [text, ← hsize]
  split
  next zero =>
    subst zero
    have least : e = -1074 := by
      obtain ⟨-, wide, -⟩ := fits_iff.mp normal
      omega
    subst least
    have read := readNumber?_fraction negative ['0'] ['0'] isDigit_zero (by decide) (.inl rfl) isDigit_zero (by decide)
      ends.digit (takeExponent_none ends.lower ends.upper)
    exact read
  next positive =>
    have hm : 0 < m := Nat.pos_of_ne_zero positive
    have near := RoundingInterval.near_of_has hm (RoundingInterval.has_shortest hm normal)
    obtain ⟨digits, exponent, read, same⟩ := readNumber?_layout (near.magnitude normal hm).1 negative ends
    rw [read, ofDecimal_shortest normal hm same]

end QueryGate.Json
