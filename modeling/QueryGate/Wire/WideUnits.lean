import QueryGate.Wire.Utf8

/-!
Texts in units of two or four bytes, in either byte order, and the choice of the encoding of a body:
a byte order mark decides, and where there is none the zero bytes at its front do.
-/
namespace QueryGate.Wire

def pairs (big : Bool) (encoding : String) (position : Nat) :
    List UInt8 → Except ByteFault (List (Nat × Nat × UInt8))
  | [] => .ok []
  | [a] => .error ⟨encoding, .truncated, position, a, 1⟩
  | a :: b :: s =>
    let code := if big then a.toNat * 256 + b.toNat else b.toNat * 256 + a.toNat
    ((position, code, a) :: ·) <$> pairs big encoding (position + 2) s

def joinPairs (encoding : String) : List (Nat × Nat × UInt8) → Except ByteFault (List Char)
  | (position, a, byte) :: (next, b, byte') :: s =>
    if 0xD800 ≤ a ∧ a ≤ 0xDBFF ∧ 0xDC00 ≤ b ∧ b ≤ 0xDFFF then
      (Char.ofNat (0x10000 + (a - 0xD800) * 1024 + (b - 0xDC00)) :: ·) <$> joinPairs encoding s
    else spell encoding a position byte 2 (joinPairs encoding ((next, b, byte') :: s))
  | [(position, a, byte)] => spell encoding a position byte 2 (.ok [])
  | [] => .ok []

def decodePairs (big : Bool) (position : Nat) (bytes : List UInt8) : Except ByteFault (List Char) :=
  let encoding := if big then "utf-16-be" else "utf-16-le"
  pairs big encoding position bytes >>= joinPairs encoding

def decodeQuads (big : Bool) (position : Nat) : List UInt8 → Except ByteFault (List Char)
  | [] => .ok []
  | a :: b :: c :: d :: s =>
    let code := if big then ((a.toNat * 256 + b.toNat) * 256 + c.toNat) * 256 + d.toNat
      else ((d.toNat * 256 + c.toNat) * 256 + b.toNat) * 256 + a.toNat
    if 0x110000 ≤ code then .error ⟨encoding, .outOfRange, position, a, 4⟩
    else spell encoding code position a 4 (decodeQuads big (position + 4) s)
  | a :: s => .error ⟨encoding, .truncated, position, a, s.length + 1⟩
where
  encoding : String := if big then "utf-32-be" else "utf-32-le"

/-- Decodes a body by its byte order mark, which is dropped, or else by its zero bytes. -/
def decodeBody : List UInt8 → Except ByteFault (List Char)
  | 0x00 :: 0x00 :: 0xFE :: 0xFF :: s => decodeQuads true 4 s
  | 0xFF :: 0xFE :: 0x00 :: 0x00 :: s => decodeQuads false 4 s
  | 0xFE :: 0xFF :: s => decodePairs true 2 s
  | 0xFF :: 0xFE :: s => decodePairs false 2 s
  | 0xEF :: 0xBB :: 0xBF :: s => Utf8.decodeFrom true 0 s
  | [a, b] =>
    if a == 0 then decodePairs true 0 [a, b]
    else if b == 0 then decodePairs false 0 [a, b]
    else Utf8.decodeFrom true 0 [a, b]
  | a :: b :: c :: d :: s =>
    let bytes := a :: b :: c :: d :: s
    if a == 0 then (if b == 0 then decodeQuads true 0 bytes else decodePairs true 0 bytes)
    else if b == 0 then (if c == 0 && d == 0 then decodeQuads false 0 bytes else decodePairs false 0 bytes)
    else Utf8.decodeFrom true 0 bytes
  | bytes => Utf8.decodeFrom true 0 bytes

end QueryGate.Wire
