/-!
UTF-8: bytes of a text, and the text of bytes or the first place where they go wrong.
-/
namespace QueryGate.Wire

inductive ByteFlaw where
  | invalidStart
  | invalidContinuation
  | unexpectedEnd
  | truncated
  | outOfRange
  | halfCharacter
  deriving DecidableEq, Repr

def ByteFlaw.text : ByteFlaw → String
  | .invalidStart => "invalid start byte"
  | .invalidContinuation => "invalid continuation byte"
  | .unexpectedEnd => "unexpected end of data"
  | .truncated => "truncated data"
  | .outOfRange => "code point not in range(0x110000)"
  | .halfCharacter => "half of a surrogate pair"

/-- The `count` bytes from `position` on, the first of which is `byte`, are no code of the encoding. -/
structure ByteFault where
  encoding : String
  flaw : ByteFlaw
  position : Nat
  byte : UInt8
  count : Nat
  deriving DecidableEq, Repr

def hexByte (b : UInt8) : String :=
  String.ofList [Nat.digitChar (b.toNat / 16), Nat.digitChar (b.toNat % 16)]

def ByteFault.message (f : ByteFault) : String :=
  let place := if f.count = 1 then " byte 0x" ++ hexByte f.byte ++ " in position " ++ toString f.position
    else " bytes in position " ++ toString f.position ++ "-" ++ toString (f.position + f.count - 1)
  "'" ++ f.encoding ++ "' codec can't decode" ++ place ++ ": " ++ f.flaw.text

def charOf? (code : Nat) : Option Char :=
  if 0xD800 ≤ code ∧ code ≤ 0xDFFF then none else some (Char.ofNat code)

def spell (encoding : String) (code position : Nat) (byte : UInt8) (count : Nat)
    (rest : Except ByteFault (List Char)) : Except ByteFault (List Char) :=
  match charOf? code with
  | some c => (c :: ·) <$> rest
  | none => rest.bind fun _ => .error ⟨encoding, .halfCharacter, position, byte, count⟩

namespace Utf8

def encode (s : List Char) : List UInt8 := s.flatMap String.utf8EncodeChar

def isTail (b : UInt8) : Bool := 0x80 ≤ b && b ≤ 0xBF

def mayFollow (a b : UInt8) : Bool :=
  isTail b &&
    (if a == 0xE0 then 0xA0 ≤ b
    else if a == 0xED then b ≤ 0x9F
    else if a == 0xF0 then 0x90 ≤ b
    else if a == 0xF4 then b ≤ 0x8F
    else true)

def isHalf (a b : UInt8) (c : Option UInt8) : Bool := a == 0xED && isTail b && c.any isTail

def low (b : UInt8) : Nat := b.toNat % 64

def fault (flaw : ByteFlaw) (position : Nat) (a : UInt8) (count : Nat) : Except ByteFault (List Char) :=
  .error ⟨"utf-8", flaw, position, a, count⟩

/-- Decodes bytes that start at `position` of their text. The place of a fault is the longest beginning
of a code that is still right. Halves of surrogate pairs are codes only on demand. -/
def decodeFrom (halves : Bool) (position : Nat) : List UInt8 → Except ByteFault (List Char)
  | [] => .ok []
  | a :: s =>
    if a < 0x80 then (Char.ofNat a.toNat :: ·) <$> decodeFrom halves (position + 1) s
    else if a < 0xC2 || 0xF4 < a then fault .invalidStart position a 1
    else
      match s with
      | [] => fault .unexpectedEnd position a 1
      | b :: s =>
        if !mayFollow a b && !(halves && isHalf a b s.head?) then fault .invalidContinuation position a 1
        else if a < 0xE0 then
          spell "utf-8" (a.toNat % 32 * 64 + low b) position a 2 (decodeFrom halves (position + 2) s)
        else
          match s with
          | [] => fault .unexpectedEnd position a 2
          | c :: s =>
            if !isTail c then fault .invalidContinuation position a 2
            else if a < 0xF0 then
              spell "utf-8" ((a.toNat % 16 * 64 + low b) * 64 + low c) position a 3 (decodeFrom halves (position + 3) s)
            else
              match s with
              | [] => fault .unexpectedEnd position a 3
              | d :: s =>
                if !isTail d then fault .invalidContinuation position a 3
                else
                  spell "utf-8" (((a.toNat % 8 * 64 + low b) * 64 + low c) * 64 + low d) position a 4
                    (decodeFrom halves (position + 4) s)

def decode (bytes : List UInt8) : Except ByteFault (List Char) := decodeFrom false 0 bytes

end Utf8
end QueryGate.Wire
