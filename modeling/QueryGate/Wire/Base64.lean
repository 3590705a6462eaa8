/-!
Base64: four characters for three bytes. Reading is strict; it refuses what writing never makes, except
for leftover bits of the last character and padding after complete groups.
-/
namespace QueryGate.Wire

inductive Base64Fault where
  | notAscii
  | leadingPadding
  | excessData
  | notInAlphabet
  | brokenPadding
  | loneCharacter (count : Nat)
  | incorrectPadding
  deriving DecidableEq, Repr

def Base64Fault.message : Base64Fault → String
  | .notAscii => "string argument should contain only ASCII characters"
  | .leadingPadding => "Leading padding not allowed"
  | .excessData => "Excess data after padding"
  | .notInAlphabet => "Only base64 data is allowed"
  | .brokenPadding => "Discontinuous padding not allowed"
  | .loneCharacter count => "Invalid base64-encoded string: number of data characters (" ++ toString count ++
      ") cannot be 1 more than a multiple of 4"
  | .incorrectPadding => "Incorrect padding"

namespace Base64

def sextetChar (n : Nat) : Char :=
  if n < 26 then Char.ofNat (65 + n)
  else if n < 52 then Char.ofNat (71 + n)
  else if n < 62 then Char.ofNat (n - 4)
  else if n = 62 then '+' else '/'

def sextet? (c : Char) : Option Nat :=
  if c.isUpper then some (c.toNat - 65)
  else if c.isLower then some (c.toNat - 71)
  else if c.isDigit then some (c.toNat + 4)
  else if c = '+' then some 62
  else if c = '/' then some 63
  else none

def encode : List UInt8 → List Char
  | a :: b :: c :: rest =>
    let n := (a.toNat * 256 + b.toNat) * 256 + c.toNat
    sextetChar (n / 262144) :: sextetChar (n / 4096 % 64) :: sextetChar (n / 64 % 64) :: sextetChar (n % 64) ::
      encode rest
  | [a, b] =>
    let n := (a.toNat * 256 + b.toNat) * 4
    [sextetChar (n / 4096), sextetChar (n / 64 % 64), sextetChar (n % 64), '=']
  | [a] =>
    let n := a.toNat * 16
    [sextetChar (n / 64), sextetChar (n % 64), '=', '=']
  | [] => []

/-- Where a reading stands: its place in the group of four, the bits not yet written, the run of padding,
whether padding has begun, and how many data characters were read. -/
structure Progress where
  place : Nat
  bits : Nat
  padding : Nat
  padded : Bool
  count : Nat

def Progress.start : Progress := ⟨0, 0, 0, false, 0⟩

def Progress.take (p : Progress) (n : Nat) : Option UInt8 × Progress :=
  let after (place bits : Nat) : Progress := ⟨place, bits, 0, p.padded, p.count + 1⟩
  match p.place with
  | 0 => (none, after 1 n)
  | 1 => (some (UInt8.ofNat (p.bits * 4 + n / 16)), after 2 (n % 16))
  | 2 => (some (UInt8.ofNat (p.bits * 16 + n / 4)), after 3 (n % 4))
  | _ => (some (UInt8.ofNat (p.bits * 64 + n)), after 0 0)

def decodeFrom (p : Progress) : List Char → Except Base64Fault (List UInt8)
  | [] =>
    if p.place = 0 then .ok []
    else if p.place = 1 then .error (.loneCharacter p.count)
    else .error .incorrectPadding
  | c :: rest =>
    if c = '=' then
      if 2 ≤ p.place then
        if 4 ≤ p.place + p.padding + 1 then (if rest.isEmpty then .ok [] else .error .excessData)
        else decodeFrom { p with padding := p.padding + 1, padded := true } rest
      else decodeFrom { p with padded := true } rest
    else
      match sextet? c with
      | none => .error .notInAlphabet
      | some n =>
        if p.padded then .error .brokenPadding
        else
          let (byte, p) := p.take n
          (byte.toList ++ ·) <$> decodeFrom p rest

def decode (s : List Char) : Except Base64Fault (List UInt8) :=
  if s.any fun c => 128 ≤ c.toNat then .error .notAscii
  else if s.head? = some '=' then .error .leadingPadding
  else decodeFrom .start s

end Base64
end QueryGate.Wire
