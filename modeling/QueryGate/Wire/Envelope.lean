import QueryGate.Json.Reader
import QueryGate.Json.Writer
import QueryGate.Wire.Base64
import QueryGate.Wire.Utf8

/-!
The envelope that a query travels in: JSON, as UTF-8, as base64. Reading takes the URL-safe alphabet and text whose padding
was stripped as well. Where it is written and where it is read, there is room for so many levels.
-/
namespace QueryGate.Wire

inductive EnvelopeFault where
  | absent
  | base64 (f : Base64Fault)
  | bytes (f : ByteFault)
  | json (f : Json.Fault) (text : List Char)

namespace EnvelopeFault

def message : EnvelopeFault → String
  | absent => "Invalid base64 or JSON format"
  | base64 f => "Invalid base64 or JSON format: " ++ f.message
  | bytes f => "Invalid base64 or JSON format: " ++ f.message
  | json f text => "Invalid base64 or JSON format: " ++ f.message text

end EnvelopeFault

namespace Envelope

def encodeChars (v : Value) : List Char := Base64.encode (Utf8.encode (Json.write v))

def encode (room : Nat) (v : Value) : Except Json.Unwritable String :=
  match Json.unwritable? room v with
  | some f => .error f
  | none => .ok (String.ofList (encodeChars v))

def standardChar (c : Char) : Char := if c = '-' then '+' else if c = '_' then '/' else c

def normalize (s : List Char) : List Char :=
  s.map standardChar ++ List.replicate ((4 - s.length % 4) % 4) '='

def decodeChars (room : Nat) (s : List Char) : Except EnvelopeFault Value := do
  let bytes ← (Base64.decode (normalize s)).mapError .base64
  let text ← (Utf8.decode bytes).mapError .bytes
  (Json.read room text).mapError fun f => .json f text

def decode (room : Nat) : Value → Except EnvelopeFault Value
  | .text s => if s.isEmpty then .error .absent else decodeChars room s.toList
  | _ => .error .absent

end Envelope
end QueryGate.Wire
