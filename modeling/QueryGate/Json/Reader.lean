import QueryGate.Binary64.Text
import QueryGate.Json.Fault
import QueryGate.Text.Character
import QueryGate.Wire.Utf8

/-!
Reading JSON. A number with a fraction or an exponent is a floating-point number and any other an integer; `NaN` and the
infinities are values. Of a repeated key the last value counts, at the first place. There is room for so many levels of
lists and objects inside each other.
-/
namespace QueryGate.Json

def failAt {α : Type} (cause : Cause) (s : List Char) : Except Fault α := .error ⟨cause, s.length⟩

def isBlank (c : Char) : Bool := c == ' ' || c == '\t' || c == '\n' || c == '\r'

def skipBlanks (s : List Char) : List Char := s.dropWhile isBlank

def hexQuad? : List Char → Option (Nat × List Char)
  | a :: b :: c :: d :: e :: s => do
    let a ← Text.hexValue? a
    let b ← Text.hexValue? b
    let c ← Text.hexValue? c
    let d ← Text.hexValue? d
    some (((a * 16 + b) * 16 + c) * 16 + d, e :: s)
  | _ => none

def isHighHalf (n : Nat) : Bool := 0xD800 ≤ n && n ≤ 0xDBFF

def isLowHalf (n : Nat) : Bool := 0xDC00 ≤ n && n ≤ 0xDFFF

def oneCode (code : Nat) (s rest : List Char) : Except Fault (Char × List Char) :=
  match Wire.charOf? code with
  | some c => .ok (c, rest)
  | none => failAt .halfCharacter s

/-- An escape by code, from its `u` on. Two halves of a surrogate pair make one character. -/
def readCode (s : List Char) : Except Fault (Char × List Char) :=
  match hexQuad? (s.drop 1) with
  | none => failAt .badUnicodeEscape s
  | some (high, rest) =>
    match isHighHalf high && 7 ≤ rest.length, rest with
    | true, '\\' :: 'u' :: more =>
      match hexQuad? more with
      | none => failAt .badUnicodeEscape ('u' :: more)
      | some (low, rest') =>
        if isLowHalf low then .ok (Char.ofNat (0x10000 + (high - 0xD800) * 1024 + (low - 0xDC00)), rest')
        else oneCode high s rest
    | _, _ => oneCode high s rest

def escapedChar? : Char → Option Char
  | '"' => some '"'
  | '\\' => some '\\'
  | '/' => some '/'
  | 'b' => some '\x08'
  | 'f' => some '\x0c'
  | 'n' => some '\n'
  | 'r' => some '\r'
  | 't' => some '\t'
  | _ => none

def readString (start : Nat) : Nat → List Char → Except Fault (List Char × List Char)
  | 0, _ => .error ⟨.unterminated, start⟩
  | fuel + 1, s =>
    match s with
    | [] => .error ⟨.unterminated, start⟩
    | '"' :: rest => .ok ([], rest)
    | '\\' :: rest =>
      match rest with
      | [] => .error ⟨.unterminated, start⟩
      | 'u' :: _ => do
        let (c, rest) ← readCode rest
        let (cs, rest) ← readString start fuel rest
        return (c :: cs, rest)
      | e :: rest =>
        match escapedChar? e with
        | none => failAt .badEscape s
        | some c => do
          let (cs, rest) ← readString start fuel rest
          return (c :: cs, rest)
    | c :: rest =>
      if c.toNat < 32 then failAt .controlCharacter s
      else do
        let (cs, rest) ← readString start fuel rest
        return (c :: cs, rest)

def readQuoted (s : List Char) : Except Fault (String × List Char) := do
  let (cs, rest) ← readString s.length s.length (s.drop 1)
  return (String.ofList cs, rest)

def takeWhole? : List Char → Option (List Char × List Char)
  | '0' :: rest => some (['0'], rest)
  | s =>
    let (digits, rest) := s.span Char.isDigit
    if digits.isEmpty then none else some (digits, rest)

def takeFraction (s : List Char) : Option (List Char) × List Char :=
  match s with
  | '.' :: more =>
    let (digits, rest) := more.span Char.isDigit
    if digits.isEmpty then (none, s) else (some digits, rest)
  | _ => (none, s)

def takeExponent (s : List Char) : Option Int × List Char :=
  match s with
  | c :: more =>
    if c == 'e' || c == 'E' then
      let (negative, more) := Binary64.takeSign more
      let (digits, rest) := more.span Char.isDigit
      if digits.isEmpty then (none, s)
      else
        let size : Int := (Nat.ofDigitChars 10 digits 0 : Nat)
        (some (if negative then -size else size), rest)
    else (none, s)
  | [] => (none, s)

def readNumber? (s : List Char) : Option (Value × List Char) := do
  let (negative, unsigned) := match s with
    | '-' :: rest => (true, rest)
    | rest => (false, rest)
  let (whole, rest) ← takeWhole? unsigned
  let (fraction, rest) := takeFraction rest
  let (exponent, rest) := takeExponent rest
  if fraction.isNone && exponent.isNone then
    let size : Int := (Nat.ofDigitChars 10 whole 0 : Nat)
    some (.int (if negative then -size else size), rest)
  else
    some (.float (Binary64.ofParts negative whole (fraction.getD []) (exponent.getD 0)), rest)

def namedValues : List (List Char × Value) :=
  [("null".toList, .null), ("true".toList, .bool true), ("false".toList, .bool false),
    ("NaN".toList, .float .nan), ("Infinity".toList, .float (.infinite false)),
    ("-Infinity".toList, .float (.infinite true))]

def readPlain (s : List Char) : Except Fault (Value × List Char) :=
  match namedValues.find? fun n => n.1.isPrefixOf s with
  | some (name, value) => .ok (value, s.drop name.length)
  | none =>
    match readNumber? s with
    | some (.int n, rest) =>
      if Numeral.isLong n then failAt (.longInteger (Numeral.digitCount n)) s else .ok (.int n, rest)
    | some r => .ok r
    | none => failAt .expectingValue s

mutual
def readValue : Nat → Nat → List Char → Except Fault (Value × List Char)
  | 0, _, s => failAt .expectingValue s
  | fuel + 1, room, s =>
    match s with
    | '"' :: _ => do
      let (t, rest) ← readQuoted s
      return (.text t, rest)
    | '[' :: rest =>
      match room, skipBlanks rest with
      | 0, _ => failAt (.tooDeep .list) s
      | _ + 1, ']' :: rest => .ok (.list [], rest)
      | room + 1, rest => do
        let (items, rest) ← readItems fuel room rest
        return (.list items, rest)
    | '\x7b' :: rest =>
      match room, skipBlanks rest with
      | 0, _ => failAt (.tooDeep .object) s
      | _ + 1, '\x7d' :: rest => .ok (.object [], rest)
      | room + 1, rest => do
        let (fields, rest) ← readMembers fuel room [] rest
        return (.object fields, rest)
    | _ => readPlain s
termination_by structural fuel => fuel
def readItems : Nat → Nat → List Char → Except Fault (List Value × List Char)
  | 0, _, s => failAt .expectingValue s
  | fuel + 1, room, s => do
    let (item, rest) ← readValue fuel room s
    match skipBlanks rest with
    | ']' :: rest => return ([item], rest)
    | ',' :: rest => do
      let (items, rest) ← readItems fuel room (skipBlanks rest)
      return (item :: items, rest)
    | rest => failAt .expectingComma rest
termination_by structural fuel => fuel
def readMembers : Nat → Nat → Fields → List Char → Except Fault (Fields × List Char)
  | 0, _, _, s => failAt .expectingName s
  | fuel + 1, room, before, s =>
    match s with
    | '"' :: _ => do
      let (key, rest) ← readQuoted s
      match skipBlanks rest with
      | ':' :: rest => do
        let (value, rest) ← readValue fuel room (skipBlanks rest)
        let fields := before.set key value
        match skipBlanks rest with
        | '\x7d' :: rest => return (fields, rest)
        | ',' :: rest => readMembers fuel room fields (skipBlanks rest)
        | rest => failAt .expectingComma rest
      | rest => failAt .expectingColon rest
    | _ => failAt .expectingName s
termination_by structural fuel => fuel
end

/-- A text that holds one value, with blanks around it. Every step of the reading takes a character or is
followed by one that does, which bounds the steps. -/
def readAll (room : Nat) (s : List Char) : Except Fault Value := do
  let (value, rest) ← readValue (2 * s.length + 2) room (skipBlanks s)
  let rest := skipBlanks rest
  if rest.isEmpty then return value else .error ⟨.extraData, rest.length⟩

def read (room : Nat) (s : List Char) : Except Fault Value :=
  if s.head? = some '\uFEFF' then .error ⟨.byteOrderMark, s.length⟩ else readAll room s

end QueryGate.Json
