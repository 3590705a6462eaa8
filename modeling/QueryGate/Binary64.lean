/-!
Binary floating-point numbers of 64 bits: a sign, a significand of 53 bits and a power of two.
A finite number is normal by construction, so equal numbers with equal signs are equal values.
-/
namespace QueryGate

def twoTo (n : Nat) : Nat := Nat.pow 2 n

def tenTo (n : Nat) : Nat := Nat.pow 10 n

def Binary64.fits (significand : Nat) (exponent : Int) : Bool :=
  significand < twoTo 53 && (twoTo 52 ≤ significand || exponent == -1074) &&
    -1074 ≤ exponent && exponent ≤ 971

inductive Binary64 where
  | nan
  | infinite (negative : Bool)
  | finite (negative : Bool) (significand : Nat) (exponent : Int)
      (normal : Binary64.fits significand exponent = true)
  deriving DecidableEq

def roundDiv (num den : Nat) : Nat :=
  let q := num / den
  let r := num % den
  if 2 * r > den || (2 * r == den && q % 2 == 1) then q + 1 else q

namespace Binary64

def pack (negative : Bool) (significand : Nat) (exponent : Int) : Binary64 :=
  if h : fits significand exponent = true then .finite negative significand exponent h
  else .infinite negative

def zero (negative : Bool) : Binary64 := .finite negative 0 (-1074) rfl

/-- The number nearest to `num / den * 2 ^ (-exponent)`, counted in units of `2 ^ exponent`. -/
def roundAt (num den : Nat) (exponent : Int) : Nat :=
  roundDiv (num * twoTo (-exponent).toNat) (den * twoTo exponent.toNat)

def unitOf (num den : Nat) : Int :=
  let low : Int := max (-1074) ((Nat.log2 num : Int) - (Nat.log2 den : Int) - 53)
  if num * twoTo (-low).toNat / (den * twoTo low.toNat) < twoTo 53 then low else low + 1

def ofRatio (negative : Bool) (num den : Nat) : Binary64 :=
  if num = 0 then zero negative
  else
    let unit := unitOf num den
    let significand := roundAt num den unit
    if significand = twoTo 53 then pack negative (twoTo 52) (unit + 1) else pack negative significand unit

/-- The number nearest to `digits * 10 ^ exponent`. Far outside the format's range the answer is known
without the power. -/
def ofDecimal (negative : Bool) (digits : Nat) (exponent : Int) : Binary64 :=
  let magnitude : Int := exponent + (Nat.toDigits 10 digits).length
  if digits = 0 || magnitude < -400 then zero negative
  else if magnitude > 400 then .infinite negative
  else ofRatio negative (digits * tenTo exponent.toNat) (tenTo (-exponent).toNat)

def isFinite : Binary64 → Bool
  | .finite .. => true
  | _ => false

def isZero : Binary64 → Bool
  | .finite _ significand _ _ => significand == 0
  | _ => false

def toInt? : Binary64 → Option Int
  | .finite negative significand exponent _ =>
    let scale := twoTo (-exponent).toNat
    if significand % scale = 0 then
      let size : Int := ((significand / scale * twoTo exponent.toNat : Nat) : Int)
      some (if negative then -size else size)
    else none
  | _ => none

def agrees (x y : Binary64) : Bool :=
  match x, y with
  | .nan, _ | _, .nan => false
  | x, y => x == y || (x.isZero && y.isZero)

end Binary64
end QueryGate
