import QueryGate.Value.Shape

/-!
What can be wrong with a JSON text, and where; and what a value can have that cannot be written.
-/
namespace QueryGate.Json

inductive Cause where
  | expectingValue
  | extraData
  | expectingName
  | expectingColon
  | expectingComma
  | unterminated
  | controlCharacter
  | badEscape
  | badUnicodeEscape
  | byteOrderMark
  | longInteger (digits : Nat)
  | tooDeep (c : Composite)
  | halfCharacter
  deriving DecidableEq, Repr

namespace Cause

def text : Cause → String
  | expectingValue => "Expecting value"
  | extraData => "Extra data"
  | expectingName => "Expecting property name enclosed in double quotes"
  | expectingColon => "Expecting ':' delimiter"
  | expectingComma => "Expecting ',' delimiter"
  | unterminated => "Unterminated string starting at"
  | controlCharacter => "Invalid control character at"
  | badEscape => "Invalid \\escape"
  | badUnicodeEscape => "Invalid \\uXXXX escape"
  | byteOrderMark => "Unexpected UTF-8 BOM (decode using utf-8-sig)"
  | longInteger digits => Numeral.tooLong (some digits)
  | tooDeep .list => "maximum recursion depth exceeded while decoding a JSON array from a unicode string"
  | tooDeep .object => "maximum recursion depth exceeded while decoding a JSON object from a unicode string"
  | halfCharacter => "half of a surrogate pair"

def isPlaced : Cause → Bool
  | longInteger _ | tooDeep _ | halfCharacter => false
  | _ => true

/-- Whoever has a text read is told of most faults. That there is no room for its levels ends the reading some other way;
and texts with half of a surrogate pair in them are beyond what is described here. -/
def isReported : Cause → Bool
  | tooDeep _ | halfCharacter => false
  | _ => true

end Cause

structure Fault where
  cause : Cause
  rest : Nat
  deriving DecidableEq, Repr

def Fault.message (f : Fault) (text : List Char) : String :=
  let index := text.length - f.rest
  let before := text.take index
  let line := before.count '\n' + 1
  let column := (before.reverse.takeWhile (· != '\n')).length + 1
  let place := ": line " ++ toString line ++ " column " ++ toString column ++ " (char " ++ toString index ++ ")"
  if f.cause.isPlaced then f.cause.text ++ place else f.cause.text

inductive Unwritable where
  | longInteger
  | tooDeep
  deriving DecidableEq, Repr

def Unwritable.message : Unwritable → String
  | longInteger => Numeral.tooLong none
  | tooDeep => "maximum recursion depth exceeded while encoding a JSON object"

end QueryGate.Json
