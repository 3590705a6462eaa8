import QueryGate.Binary64

/-!
The shortest decimal that reads back as a given number: the coarsest grid of powers of ten that has a
point among the reals rounding to the number, and of two such points the nearer.
-/
namespace QueryGate

structure Decimal where
  digits : Nat
  exponent : Int
  deriving DecidableEq, Repr

/-- The reals that round to a number, over one denominator. The ends belong to it iff `closed`. -/
structure RoundingInterval where
  low : Nat
  value : Nat
  high : Nat
  denominator : Nat
  closed : Bool

namespace RoundingInterval

def of (significand : Nat) (exponent : Int) : RoundingInterval :=
  let unit := twoTo (exponent - 2).toNat
  let below := if significand = twoTo 52 ∧ -1074 < exponent then 1 else 2
  { low := (4 * significand - below) * unit
    value := 4 * significand * unit
    high := (4 * significand + 2) * unit
    denominator := twoTo (2 - exponent).toNat
    closed := significand % 2 == 0 }

def has (i : RoundingInterval) (d : Decimal) : Bool :=
  let point := d.digits * tenTo d.exponent.toNat * i.denominator
  let scale := tenTo (-d.exponent).toNat
  if i.closed then i.low * scale ≤ point && point ≤ i.high * scale
  else i.low * scale < point && point < i.high * scale

def onGrid? (i : RoundingInterval) (exponent : Int) : Option Decimal :=
  let num := i.value * tenTo (-exponent).toNat
  let den := i.denominator * tenTo exponent.toNat
  let below : Decimal := ⟨num / den, exponent⟩
  let above : Decimal := ⟨num / den + 1, exponent⟩
  match i.has below, i.has above with
  | true, true => some ⟨roundDiv num den, exponent⟩
  | true, false => some below
  | false, true => some above
  | false, false => none

def search (i : RoundingInterval) : Nat → Int → Decimal
  | 0, exponent => ⟨i.value * tenTo (-exponent).toNat / (i.denominator * tenTo exponent.toNat), exponent⟩
  | fuel + 1, exponent => (i.onGrid? exponent).getD (i.search fuel (exponent - 1))

/-- No interval is narrower than `10 ^ (-324)`, so the search meets a hit. -/
def shortest (i : RoundingInterval) : Decimal :=
  let top := (Nat.toDigits 10 (i.value / i.denominator)).length
  i.search (top + 330) top

end RoundingInterval
end QueryGate
