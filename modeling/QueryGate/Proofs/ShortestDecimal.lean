import Mathlib.Data.Nat.Cast.Order.Field
import QueryGate.Binary64.Shortest
import QueryGate.Proofs.Rounding

/-! The shortest decimal of a number rounds to it, in whatever digits and power of ten it is written. -/
namespace QueryGate

def Decimal.value (d : Decimal) : ℚ := d.digits * 10 ^ d.exponent

theorem tenTo_pos (n : Nat) : 0 < tenTo n := Nat.pow_pos (by decide)

theorem Decimal.value_eq_div (d : Decimal) :
    d.value = (d.digits * tenTo d.exponent.toNat : Nat) / (tenTo (-d.exponent).toNat : Nat) := by
  have power : (10 : ℚ) ^ d.exponent = (tenTo d.exponent.toNat : Nat) / (tenTo (-d.exponent).toNat : Nat) :=
    zpow_eq_div 10 d.exponent
  rw [value, power, Nat.cast_mul, mul_div_assoc]

namespace RoundingInterval

theorem has_iff {i : RoundingInterval} (hden : 0 < i.denominator) (d : Decimal) : i.has d = true ↔
    if i.closed then (i.low / i.denominator : ℚ) ≤ d.value ∧ d.value ≤ i.high / i.denominator
    else (i.low / i.denominator : ℚ) < d.value ∧ d.value < i.high / i.denominator := by
  have denQ : (0 : ℚ) < i.denominator := by exact_mod_cast hden
  have scaleQ : (0 : ℚ) < (tenTo (-d.exponent).toNat : Nat) := by exact_mod_cast tenTo_pos _
  rw [d.value_eq_div]
  unfold has
  dsimp only
  split
  next closed =>
    rw [div_le_div_iff₀ denQ scaleQ, div_le_div_iff₀ scaleQ denQ, Bool.and_eq_true, decide_eq_true_eq, decide_eq_true_eq]
    norm_cast
  next isOpen =>
    rw [div_lt_div_iff₀ denQ scaleQ, div_lt_div_iff₀ scaleQ denQ, Bool.and_eq_true, decide_eq_true_eq, decide_eq_true_eq]
    norm_cast

variable {m : Nat} {e : Int}

theorem of_denominator_pos (m : Nat) (e : Int) : 0 < (of m e).denominator := Nat.pow_pos (by decide)

theorem unit_div (e : Int) : ((twoTo (e - 2).toNat : Nat) : ℚ) / (twoTo (2 - e).toNat : Nat) = 2 ^ e / 4 := by
  have power : (2 : ℚ) ^ (e - 2) = (twoTo (e - 2).toNat : Nat) / (twoTo (-(e - 2)).toNat : Nat) := zpow_eq_div 2 (e - 2)
  rw [Int.neg_sub] at power
  rw [← power, zpow_sub₀ (by norm_num)]
  norm_num

theorem of_value (m : Nat) (e : Int) : ((of m e).value / (of m e).denominator : ℚ) = m * 2 ^ e := by
  simp only [of]
  push_cast
  rw [mul_div_assoc, unit_div]
  ring

theorem of_high (m : Nat) (e : Int) : ((of m e).high / (of m e).denominator : ℚ) = (m + 1 / 2) * 2 ^ e := by
  simp only [of]
  push_cast
  rw [mul_div_assoc, unit_div]
  ring

theorem of_low (hm : 0 < m) (e : Int) :
    ((of m e).low / (of m e).denominator : ℚ) = (m - Binary64.below m e) * 2 ^ e := by
  simp only [of, Binary64.below]
  have room : (if m = twoTo 52 ∧ -1074 < e then 1 else 2) ≤ 4 * m := by split <;> omega
  rw [Nat.cast_mul, Nat.cast_sub room, mul_div_assoc, unit_div]
  split
  · push_cast
    ring
  · push_cast
    ring

theorem near_of_has (hm : 0 < m) {d : Decimal} (h : (of m e).has d = true) : Binary64.Near m e d.value := by
  rw [has_iff (of_denominator_pos m e), of_low hm, of_high] at h
  split at h
  next closed =>
    refine ⟨h.1, h.2, fun isOdd => absurd closed ?_⟩
    simp only [of, beq_iff_eq]
    omega
  next => exact ⟨h.1.le, h.2.le, fun _ => h⟩

theorem has_of_onGrid? {i : RoundingInterval} {exponent : Int} {d : Decimal} (h : i.onGrid? exponent = some d) :
    i.has d = true := by
  unfold onGrid? at h
  dsimp only at h
  split at h
  next hbelow habove =>
    obtain rfl := Option.some.inj h
    unfold roundDiv
    dsimp only
    split
    · exact habove
    · exact hbelow
  next hbelow habove => exact Option.some.inj h ▸ hbelow
  next hbelow habove => exact Option.some.inj h ▸ habove
  next => exact absurd h nofun

theorem has_search {i : RoundingInterval} {fuel : Nat} {exponent : Int}
    (hit : ∃ k < fuel, (i.onGrid? (exponent - (k : Nat))).isSome = true) : i.has (i.search fuel exponent) = true := by
  induction fuel generalizing exponent with
  | zero =>
    obtain ⟨k, hk, -⟩ := hit
    exact absurd hk (Nat.not_lt_zero k)
  | succ fuel ih =>
    rw [search]
    cases found : i.onGrid? exponent with
    | some d => exact has_of_onGrid? found
    | none =>
      obtain ⟨k, hk, hit⟩ := hit
      refine ih ?_
      cases k with
      | zero =>
        rw [Int.ofNat_zero, Int.sub_zero, found] at hit
        exact absurd hit nofun
      | succ k =>
        refine ⟨k, Nat.lt_of_succ_lt_succ hk, ?_⟩
        rwa [show exponent - 1 - (k : Int) = exponent - ((k + 1 : Nat) : Int) by omega]

theorem grid_le_gap (hm : Binary64.fits m e = true) : (10 : ℚ) ^ (-329 : Int) ≤ Binary64.below m e * 2 ^ e := by
  obtain ⟨-, -, least, -⟩ := Binary64.fits_iff.mp hm
  have two : (2 : ℚ) ≠ 0 := by norm_num
  have powers : (2 : ℚ) ^ 1075 ≤ 10 ^ 329 := by
    have nat : 2 ^ 1075 ≤ 10 ^ 329 := by decide +kernel
    exact_mod_cast nat
  have smallest : (2 : ℚ) ^ (-1075 : Int) ≤ Binary64.below m e * 2 ^ e := by
    unfold Binary64.below
    split
    next power =>
      have shift : (1 / 4 : ℚ) * 2 ^ e = 2 ^ (e - 2) := by
        rw [zpow_sub₀ two]
        norm_num
        ring
      rw [shift]
      exact zpow_le_zpow_right₀ (by norm_num) (by omega)
    next =>
      have shift : (1 / 2 : ℚ) * 2 ^ e = 2 ^ (e - 1) := by
        rw [zpow_sub_one₀ two]
        ring
      rw [shift]
      exact zpow_le_zpow_right₀ (by norm_num) (by omega)
  refine le_trans ?_ smallest
  rw [zpow_neg, zpow_neg]
  exact inv_anti₀ (by positivity) powers

theorem steps_mul (m : Nat) (e exponent : Int) : (((of m e).value * tenTo (-exponent).toNat : Nat) : ℚ) /
    ((of m e).denominator * tenTo exponent.toNat : Nat) * 10 ^ exponent = m * 2 ^ e := by
  have power : (10 : ℚ) ^ exponent = (tenTo exponent.toNat : Nat) / (tenTo (-exponent).toNat : Nat) :=
    zpow_eq_div 10 exponent
  have up : (0 : ℚ) < (tenTo (-exponent).toNat : Nat) := by exact_mod_cast tenTo_pos _
  have down : (0 : ℚ) < (tenTo exponent.toNat : Nat) := by exact_mod_cast tenTo_pos _
  have whole : (0 : ℚ) < (of m e).denominator := by exact_mod_cast of_denominator_pos m e
  rw [← of_value, power, Nat.cast_mul, Nat.cast_mul]
  field_simp

section
variable (hm : 0 < m) {exponent : Int} (fine : (10 : ℚ) ^ exponent ≤ Binary64.below m e * 2 ^ e)
include hm fine

theorem has_floor : (of m e).has ⟨(of m e).value * tenTo (-exponent).toNat /
    ((of m e).denominator * tenTo exponent.toNat), exponent⟩ = true := by
  have count := steps_mul m e exponent
  have denPos : 0 < (of m e).denominator * tenTo exponent.toNat := Nat.mul_pos (of_denominator_pos m e) (tenTo_pos _)
  obtain ⟨num, hnum⟩ : ∃ num, (of m e).value * tenTo (-exponent).toNat = num := ⟨_, rfl⟩
  obtain ⟨den, hden⟩ : ∃ den, (of m e).denominator * tenTo exponent.toNat = den := ⟨_, rfl⟩
  rw [hnum, hden] at count
  rw [hden] at denPos
  rw [hnum, hden]
  have denQ : (0 : ℚ) < den := by exact_mod_cast denPos
  have grid : (0 : ℚ) < 10 ^ exponent := zpow_pos (by norm_num) _
  have unit : (0 : ℚ) < 2 ^ e := zpow_pos (by norm_num) e
  have floor : ((num / den : Nat) : ℚ) ≤ num / den := Nat.cast_div_le
  have next : (num / den : ℚ) < (num / den : Nat) + 1 := by
    rw [div_lt_iff₀ denQ, mul_comm]
    exact_mod_cast Nat.lt_mul_div_succ num denPos
  have under := mul_le_mul_of_nonneg_right floor grid.le
  have beyond := mul_lt_mul_of_pos_right next grid
  have strict : ((of m e).low / (of m e).denominator : ℚ) < Decimal.value ⟨num / den, exponent⟩ ∧
      Decimal.value ⟨num / den, exponent⟩ < (of m e).high / (of m e).denominator := by
    rw [of_low hm, of_high, Decimal.value]
    constructor <;> linarith
  rw [has_iff (of_denominator_pos m e)]
  split
  · exact ⟨strict.1.le, strict.2.le⟩
  · exact strict

theorem onGrid?_fine : ((of m e).onGrid? exponent).isSome = true := by
  have point := has_floor hm fine
  unfold onGrid?
  dsimp only
  rw [point]
  split
  · rfl
  · rfl
  next absent _ => exact absurd absent nofun
  next absent _ => exact absurd absent nofun

end

theorem has_shortest (hm : 0 < m) (normal : Binary64.fits m e = true) : (of m e).has (of m e).shortest = true := by
  unfold shortest
  dsimp only
  refine has_search ⟨_ + 329, Nat.add_lt_add_left (by decide) _, ?_⟩
  have last (top : Nat) : (top : Int) - ((top + 329 : Nat) : Int) = -329 := by omega
  rw [last]
  exact onGrid?_fine hm (grid_le_gap normal)

end RoundingInterval

namespace Binary64

theorem digits_bounds {n : Nat} (h : 0 < n) :
    10 ^ ((Nat.toDigits 10 n).length - 1) ≤ n ∧ n < 10 ^ (Nat.toDigits 10 n).length := by
  have some : 0 < (Nat.toDigits 10 n).length := Nat.length_toDigits_pos
  refine ⟨?_, (Nat.length_toDigits_le_iff (by decide) some).mp (Nat.le_refl _)⟩
  by_contra small
  by_cases one : (Nat.toDigits 10 n).length = 1
  · rw [one] at small
    omega
  · have shorter := (Nat.length_toDigits_le_iff (by decide) (by omega)).mpr (Nat.lt_of_not_le small)
    omega

theorem Near.magnitude {m : Nat} {e : Int} (normal : fits m e = true) (hm : 0 < m) {d : Decimal}
    (near : Near m e d.value) : 0 < d.digits ∧ -400 ≤ d.exponent + (Nat.toDigits 10 d.digits).length ∧
      d.exponent + (Nat.toDigits 10 d.digits).length ≤ 400 := by
  obtain ⟨small, -, least, most⟩ := fits_iff.mp normal
  have ten : (10 : ℚ) ≠ 0 := by norm_num
  have unit : (0 : ℚ) < 2 ^ e := zpow_pos (by norm_num) e
  have grid : (0 : ℚ) < 10 ^ d.exponent := zpow_pos (by norm_num) _
  have half := below_le m e
  have one : (1 : ℚ) ≤ m := by exact_mod_cast hm
  have gap := RoundingInterval.grid_le_gap normal
  have low : (10 : ℚ) ^ (-329 : Int) ≤ d.value := by
    have more : below m e * 2 ^ e ≤ (m - below m e) * 2 ^ e := mul_le_mul_of_nonneg_right (by linarith) unit.le
    exact gap.trans (more.trans near.low)
  have high : d.value < 10 ^ (400 : Int) := by
    have powers : (2 : ℚ) ^ 53 * 2 ^ 971 < 10 ^ 400 := by
      have nat : 2 ^ 53 * 2 ^ 971 < 10 ^ 400 := by decide +kernel
      exact_mod_cast nat
    have cast : (m : ℚ) + 1 ≤ 2 ^ 53 := by exact_mod_cast small
    have top : (2 : ℚ) ^ e ≤ 2 ^ (971 : Int) := zpow_le_zpow_right₀ (by norm_num) most
    calc d.value ≤ (m + 1 / 2) * 2 ^ e := near.high
      _ ≤ 2 ^ 53 * 2 ^ (971 : Int) := by gcongr; linarith
      _ < 10 ^ (400 : Int) := powers
  have positive : (0 : ℚ) < d.value := lt_of_lt_of_le (zpow_pos (by norm_num) _) low
  have digits : 0 < d.digits := by
    rw [Decimal.value] at positive
    exact_mod_cast pos_of_mul_pos_left positive grid.le
  obtain ⟨atLeast, under⟩ := digits_bounds digits
  obtain ⟨l, hl⟩ : ∃ l, (Nat.toDigits 10 d.digits).length = l := ⟨_, rfl⟩
  rw [hl] at atLeast under ⊢
  have some : 0 < l := hl ▸ Nat.length_toDigits_pos
  refine ⟨digits, ?_, ?_⟩
  · have cast : (d.digits : ℚ) < 10 ^ l := by exact_mod_cast under
    have value : d.value < 10 ^ (d.exponent + l) := by
      rw [Decimal.value, zpow_add₀ ten, zpow_natCast, mul_comm]
      gcongr
    have exponents := (zpow_lt_zpow_iff_right₀ (by norm_num)).mp (low.trans_lt value)
    omega
  · have cast : ((10 : ℚ)) ^ (l - 1) ≤ d.digits := by exact_mod_cast atLeast
    have value : (10 : ℚ) ^ (d.exponent + (l - 1 : Nat)) ≤ d.value := by
      rw [Decimal.value, zpow_add₀ ten, zpow_natCast, mul_comm]
      gcongr
    have exponents := (zpow_lt_zpow_iff_right₀ (by norm_num)).mp (value.trans_lt high)
    omega

theorem ofDecimal_eq {negative : Bool} {m : Nat} {e : Int} (normal : fits m e = true) (hm : 0 < m) {d : Decimal}
    (near : Near m e d.value) : ofDecimal negative d.digits d.exponent = .finite negative m e normal := by
  obtain ⟨digits, low, high⟩ := near.magnitude normal hm
  rw [d.value_eq_div] at near
  unfold ofDecimal
  dsimp only
  rw [if_neg, if_neg (Int.not_lt.mpr high)]
  · exact ofRatio_eq normal (Nat.mul_pos digits (tenTo_pos _)) (tenTo_pos _) near
  · simp only [Bool.or_eq_true, decide_eq_true_eq, not_or, Int.not_lt]
    exact ⟨digits.ne', low⟩

/-- What the shortest decimal of a number is worth is read as the number, in whatever digits it is given. -/
theorem ofDecimal_shortest {negative : Bool} {m : Nat} {e : Int} (normal : fits m e = true) (hm : 0 < m)
    {digits : Nat} {exponent : Int} (same : Decimal.value ⟨digits, exponent⟩ = (RoundingInterval.of m e).shortest.value) :
    ofDecimal negative digits exponent = .finite negative m e normal := by
  have near := RoundingInterval.near_of_has hm (RoundingInterval.has_shortest hm normal)
  rw [← same] at near
  exact ofDecimal_eq normal hm near

end Binary64
end QueryGate
