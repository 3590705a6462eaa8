import Mathlib.Algebra.Order.Field.Power
import Mathlib.Algebra.Order.Field.Rat
import Mathlib.Tactic.FieldSimp
import Mathlib.Tactic.GCongr
import Mathlib.Tactic.Linarith
import Mathlib.Tactic.NormNum
import Mathlib.Tactic.Positivity
import Mathlib.Tactic.Ring
import QueryGate.Binary64

/-! Which quotients round to a finite number: those no further from it than half the way to its neighbours, the ends
included where its significand is even. -/
namespace QueryGate

theorem roundDiv_eq {num den k : Nat} (hden : 0 < den) (low : 2 * k * den ≤ 2 * num + den)
    (high : 2 * num ≤ (2 * k + 1) * den)
    (odd : k % 2 = 1 → 2 * k * den < 2 * num + den ∧ 2 * num < (2 * k + 1) * den) : roundDiv num den = k := by
  have split := Nat.div_add_mod num den
  have small := Nat.mod_lt num hden
  unfold roundDiv
  dsimp only
  obtain ⟨q, hq⟩ : ∃ q, num / den = q := ⟨_, rfl⟩
  obtain ⟨r, hr⟩ : ∃ r, num % den = r := ⟨_, rfl⟩
  rw [hq, hr] at split
  rw [hr] at small
  rw [hq, hr]
  rw [← split] at low high odd
  have upper : k < q + 2 := by
    by_contra far
    have big : (q + 2) * den ≤ k * den := Nat.mul_le_mul_right den (Nat.le_of_not_lt far)
    nlinarith
  have lower : q < k + 1 := by
    by_contra far
    have big : (k + 1) * den ≤ q * den := Nat.mul_le_mul_right den (Nat.le_of_not_lt far)
    nlinarith
  simp only [gt_iff_lt, Bool.or_eq_true, decide_eq_true_eq, Bool.and_eq_true, beq_iff_eq]
  obtain rfl | rfl : k = q ∨ k = q + 1 := by omega
  · have half : 2 * r ≤ den := by linarith
    rw [if_neg]
    rintro (above | ⟨tie, isOdd⟩)
    · omega
    · obtain ⟨-, strict⟩ := odd isOdd
      have below : 2 * r < den := by linarith
      omega
  · have half : den ≤ 2 * r := by linarith
    rw [if_pos]
    by_contra neither
    rw [not_or] at neither
    obtain ⟨notAbove, notTie⟩ := neither
    have isOdd : (q + 1) % 2 = 1 := by omega
    obtain ⟨strict, -⟩ := odd isOdd
    have above : den < 2 * r := by linarith
    exact notAbove above

theorem zpow_eq_div (b : Nat) (e : Int) : (b : ℚ) ^ e = (b ^ e.toNat : Nat) / (b ^ (-e).toNat : Nat) := by
  obtain ⟨n, rfl | rfl⟩ := e.eq_nat_or_neg
  · simp
  · simp

theorem scaled_div (num den : Nat) (e : Int) :
    ((num * twoTo (-e).toNat : Nat) : ℚ) / (den * twoTo e.toNat : Nat) = num / den / 2 ^ e := by
  have power : (2 : ℚ) ^ e = (twoTo e.toNat : Nat) / (twoTo (-e).toNat : Nat) := zpow_eq_div 2 e
  have pos (n : Nat) : (0 : ℚ) < (twoTo n : Nat) := by exact_mod_cast Nat.pow_pos (by decide)
  have up := pos e.toNat
  have down := pos (-e).toNat
  rw [power]
  push_cast
  field_simp

namespace Binary64

structure IsUnit (x : ℚ) (e : Int) : Prop where
  least : -1074 ≤ e
  below : x < 2 ^ (e + 53)
  above : e = -1074 ∨ 2 ^ (e + 52) ≤ x

theorem IsUnit.unique {x : ℚ} {e f : Int} (he : IsUnit x e) (hf : IsUnit x f) : e = f := by
  have le {e f : Int} (he : IsUnit x e) (hf : IsUnit x f) : e ≤ f := by
    have hleast := hf.least
    rcases he.above with rfl | above
    · exact hleast
    · have powers : (2 : ℚ) ^ (e + 52) < 2 ^ (f + 53) := above.trans_lt hf.below
      have exponents := (zpow_lt_zpow_iff_right₀ (by norm_num)).mp powers
      omega
  exact Int.le_antisymm (le he hf) (le hf he)

theorem div_bounds_log2 {num den : Nat} (hnum : 0 < num) (hden : 0 < den) :
    (2 : ℚ) ^ ((Nat.log2 num : Int) - Nat.log2 den - 1) < num / den ∧
      (num / den : ℚ) < 2 ^ ((Nat.log2 num : Int) - Nat.log2 den + 1) := by
  have two : (2 : ℚ) ≠ 0 := by norm_num
  have pos : (0 : ℚ) < den := by exact_mod_cast hden
  have numLow : ((2 ^ Nat.log2 num : Nat) : ℚ) ≤ num := by exact_mod_cast Nat.log2_self_le hnum.ne'
  have numHigh : (num : ℚ) < (2 ^ (Nat.log2 num + 1) : Nat) := by exact_mod_cast Nat.lt_log2_self
  have denLow : ((2 ^ Nat.log2 den : Nat) : ℚ) ≤ den := by exact_mod_cast Nat.log2_self_le hden.ne'
  have denHigh : (den : ℚ) < (2 ^ (Nat.log2 den + 1) : Nat) := by exact_mod_cast Nat.lt_log2_self
  push_cast at numLow numHigh denLow denHigh
  have quotient (a b : Nat) : (2 : ℚ) ^ ((a : Int) - b) = 2 ^ a / 2 ^ b := by
    rw [zpow_sub₀ two, zpow_natCast, zpow_natCast]
  constructor
  · calc (2 : ℚ) ^ ((Nat.log2 num : Int) - Nat.log2 den - 1)
        = 2 ^ Nat.log2 num / 2 ^ (Nat.log2 den + 1) := by rw [← quotient, Int.sub_sub, Int.natCast_add_one]
      _ ≤ num / 2 ^ (Nat.log2 den + 1) := by gcongr
      _ < num / den := by gcongr
  · calc (num / den : ℚ) < 2 ^ (Nat.log2 num + 1) / den := by gcongr
      _ ≤ 2 ^ (Nat.log2 num + 1) / 2 ^ Nat.log2 den := by gcongr
      _ = 2 ^ ((Nat.log2 num : Int) - Nat.log2 den + 1) := by
        rw [← quotient, Int.natCast_add_one, add_sub_right_comm]

theorem unitOf_isUnit {num den : Nat} (hnum : 0 < num) (hden : 0 < den) : IsUnit (num / den) (unitOf num den) := by
  have two : (2 : ℚ) ≠ 0 := by norm_num
  obtain ⟨low, high⟩ := div_bounds_log2 hnum hden
  obtain ⟨l, hl⟩ : ∃ l : Int, (Nat.log2 num : Int) - Nat.log2 den = l := ⟨_, rfl⟩
  obtain ⟨u, hu⟩ : ∃ u : Int, max (-1074) (l - 53) = u := ⟨_, rfl⟩
  rw [hl] at low high
  unfold unitOf
  rw [hl, hu]
  dsimp only
  have fits : num * twoTo (-u).toNat / (den * twoTo u.toNat) < twoTo 53 ↔ (num / den : ℚ) < 2 ^ (u + 53) := by
    have pos : 0 < den * twoTo u.toNat := Nat.mul_pos hden (Nat.pow_pos (by decide))
    have posQ : (0 : ℚ) < (den * twoTo u.toNat : Nat) := by exact_mod_cast pos
    have unit : (0 : ℚ) < 2 ^ u := zpow_pos (by norm_num) u
    rw [Nat.div_lt_iff_lt_mul pos, add_comm u, zpow_add₀ two, ← div_lt_iff₀ unit, ← scaled_div, div_lt_iff₀ posQ]
    exact_mod_cast Iff.rfl
  by_cases below : (num / den : ℚ) < 2 ^ (u + 53)
  · rw [if_pos (fits.mpr below)]
    refine ⟨by omega, below, ?_⟩
    rcases le_total (l - 53) (-1074) with least | more
    · exact .inl (by omega)
    · have unit : u + 52 = l - 1 := by omega
      exact .inr (unit ▸ low.le)
  · rw [if_neg fun h => below (fits.mp h)]
    have least : -1074 ≤ u := by omega
    refine ⟨by omega, ?_, .inr ?_⟩
    · have grows : (2 : ℚ) ^ (l + 1) ≤ 2 ^ (u + 1 + 53) := zpow_le_zpow_right₀ (by norm_num) (by omega)
      exact high.trans_le grows
    · rw [show u + 1 + 52 = u + 53 by ring]
      exact not_lt.mp below

theorem roundAt_eq {num den k : Nat} (hden : 0 < den) {e : Int} (low : (k : ℚ) - 1 / 2 ≤ num / den / 2 ^ e)
    (high : (num / den / 2 ^ e : ℚ) ≤ k + 1 / 2)
    (odd : k % 2 = 1 → (k : ℚ) - 1 / 2 < num / den / 2 ^ e ∧ (num / den / 2 ^ e : ℚ) < k + 1 / 2) :
    roundAt num den e = k := by
  rw [← scaled_div] at low high odd
  have pos : 0 < den * twoTo e.toNat := Nat.mul_pos hden (Nat.pow_pos (by decide))
  unfold roundAt
  obtain ⟨a, ha⟩ : ∃ a, num * twoTo (-e).toNat = a := ⟨_, rfl⟩
  obtain ⟨b, hb⟩ : ∃ b, den * twoTo e.toNat = b := ⟨_, rfl⟩
  rw [hb] at pos
  rw [ha, hb] at low high odd ⊢
  have posQ : (0 : ℚ) < b := by exact_mod_cast pos
  rw [le_div_iff₀ posQ] at low
  rw [div_le_iff₀ posQ] at high
  rw [lt_div_iff₀ posQ, div_lt_iff₀ posQ] at odd
  refine roundDiv_eq pos ?_ ?_ fun isOdd => ⟨?_, ?_⟩
  · have cast : ((2 * k * b : Nat) : ℚ) ≤ (2 * a + b : Nat) := by
      push_cast
      linarith
    exact_mod_cast cast
  · have cast : ((2 * a : Nat) : ℚ) ≤ ((2 * k + 1) * b : Nat) := by
      push_cast
      linarith
    exact_mod_cast cast
  · have cast : ((2 * k * b : Nat) : ℚ) < (2 * a + b : Nat) := by
      push_cast
      linarith [(odd isOdd).1]
    exact_mod_cast cast
  · have cast : ((2 * a : Nat) : ℚ) < ((2 * k + 1) * b : Nat) := by
      push_cast
      linarith [(odd isOdd).2]
    exact_mod_cast cast

/-- The distance from `m * 2 ^ e` down to the reals that round to the number below it, in units of `2 ^ e`. At a power
of two the numbers below stand twice as close. -/
def below (m : Nat) (e : Int) : ℚ := if m = twoTo 52 ∧ -1074 < e then 1 / 4 else 1 / 2

/-- What lies no further from `m * 2 ^ e` than half the way to its neighbours. -/
structure Near (m : Nat) (e : Int) (x : ℚ) : Prop where
  low : (m - below m e) * 2 ^ e ≤ x
  high : x ≤ (m + 1 / 2) * 2 ^ e
  odd : m % 2 = 1 → (m - below m e) * 2 ^ e < x ∧ x < (m + 1 / 2) * 2 ^ e

theorem below_le (m : Nat) (e : Int) : below m e ≤ 1 / 2 := by
  unfold below
  split <;> norm_num

theorem fits_iff {m : Nat} {e : Int} :
    fits m e = true ↔ m < 2 ^ 53 ∧ (2 ^ 52 ≤ m ∨ e = -1074) ∧ -1074 ≤ e ∧ e ≤ 971 := by
  simp only [fits, Bool.and_eq_true, Bool.or_eq_true, decide_eq_true_eq, beq_iff_eq, and_assoc]
  rfl

theorem Near.scaled {m : Nat} {e : Int} {x : ℚ} (h : Near m e x) : (m : ℚ) - below m e ≤ x / 2 ^ e ∧
    x / 2 ^ e ≤ m + 1 / 2 ∧ (m % 2 = 1 → (m : ℚ) - below m e < x / 2 ^ e ∧ x / 2 ^ e < m + 1 / 2) := by
  have unit : (0 : ℚ) < 2 ^ e := zpow_pos (by norm_num) e
  rw [le_div_iff₀ unit, div_le_iff₀ unit, lt_div_iff₀ unit, div_lt_iff₀ unit]
  exact ⟨h.low, h.high, h.odd⟩

theorem Near.isUnit {m : Nat} {e : Int} {x : ℚ} (normal : fits m e = true) (near : Near m e x)
    (above : -1074 < e → 2 ^ (e + 52) ≤ x) : IsUnit x e := by
  obtain ⟨small, -, least, -⟩ := fits_iff.mp normal
  refine ⟨least, ?_, (eq_or_lt_of_le least).imp Eq.symm above⟩
  have unit : (0 : ℚ) < 2 ^ e := zpow_pos (by norm_num) e
  have cast : (m : ℚ) + 1 ≤ 2 ^ 53 := by exact_mod_cast small
  calc x ≤ (m + 1 / 2) * 2 ^ e := near.high
    _ < 2 ^ 53 * 2 ^ e := by gcongr; linarith
    _ = 2 ^ (e + 53) := by
      rw [add_comm, zpow_add₀ (by norm_num)]
      rfl

theorem Near.underPower {m : Nat} {e : Int} {x : ℚ} (normal : fits m e = true) (near : Near m e x) (least : -1074 < e)
    (under : x < 2 ^ (e + 52)) : m = twoTo 52 ∧ IsUnit x (e - 1) ∧ (2 : ℚ) ^ 53 - 1 / 2 ≤ x / 2 ^ (e - 1) ∧
      x / 2 ^ (e - 1) < 2 ^ 53 := by
  obtain ⟨-, wide, -, -⟩ := fits_iff.mp normal
  obtain ⟨low, -, -⟩ := near.scaled
  have two : (2 : ℚ) ≠ 0 := by norm_num
  have unit : (0 : ℚ) < 2 ^ e := zpow_pos (by norm_num) e
  have power : (2 : ℚ) ^ (e + 52) = 2 ^ 52 * 2 ^ e := by
    rw [add_comm, zpow_add₀ two]
    rfl
  have count : x / 2 ^ e < 2 ^ 52 := by rwa [div_lt_iff₀ unit, ← power]
  have half := below_le m e
  have exact52 : m = twoTo 52 := by
    by_contra other
    have more : 2 ^ 52 + 1 ≤ m := by
      have ne : m ≠ 2 ^ 52 := other
      omega
    have cast : (2 : ℚ) ^ 52 + 1 ≤ m := by exact_mod_cast more
    linarith
  have quarter : (2 : ℚ) ^ 52 - 1 / 4 ≤ x / 2 ^ e := by
    have cast : (m : ℚ) = 2 ^ 52 := by
      rw [exact52]
      norm_num [twoTo]
    rw [below, if_pos ⟨exact52, least⟩, cast] at low
    exact low
  have double : x / 2 ^ (e - 1) = 2 * (x / 2 ^ e) := by
    rw [zpow_sub_one₀ two]
    field_simp
  refine ⟨exact52, ⟨by omega, ?_, .inr ?_⟩, ?_, ?_⟩
  · rw [show e - 1 + 53 = e + 52 by ring]
    exact under
  · have smaller : (2 : ℚ) ^ 51 ≤ x / 2 ^ e := by linarith
    rw [le_div_iff₀ unit] at smaller
    rw [show e - 1 + 52 = 51 + e by ring, zpow_add₀ two]
    exact smaller
  · rw [double]
    linarith
  · rw [double]
    linarith

/-- A quotient near a number rounds to it. -/
theorem ofRatio_eq {negative : Bool} {num den m : Nat} {e : Int} (normal : fits m e = true) (hnum : 0 < num)
    (hden : 0 < den) (near : Near m e (num / den)) : ofRatio negative num den = .finite negative m e normal := by
  obtain ⟨low, high, odd⟩ := near.scaled
  have unit := unitOf_isUnit hnum hden
  unfold ofRatio
  rw [if_neg hnum.ne']
  dsimp only
  by_cases under : -1074 < e ∧ (num / den : ℚ) < 2 ^ (e + 52)
  · obtain ⟨rfl, isUnit, least, most⟩ := near.underPower normal under.1 under.2
    have full : ((twoTo 53 : Nat) : ℚ) = 2 ^ 53 := by norm_num [twoTo]
    have rounded : roundAt num den (e - 1) = twoTo 53 := by
      refine roundAt_eq hden ?_ ?_ fun isOdd => absurd isOdd (by decide)
      · rw [full]
        exact least
      · rw [full]
        linarith
    rw [unit.unique isUnit, rounded, if_pos rfl, Int.sub_add_cancel, pack, dif_pos normal]
  · have isUnit := near.isUnit normal fun least => not_lt.mp fun h => under ⟨least, h⟩
    have half := below_le m e
    have rounded : roundAt num den e = m :=
      roundAt_eq hden (by linarith) high fun isOdd => ⟨by linarith [(odd isOdd).1], (odd isOdd).2⟩
    have notFull : m ≠ twoTo 53 := Nat.ne_of_lt (fits_iff.mp normal).1
    rw [unit.unique isUnit, rounded, if_neg notFull, pack, dif_pos normal]

end Binary64
end QueryGate
