import QueryGate.Binary64.Text
import QueryGate.Text.Printable
import QueryGate.Value

/-!
Values as messages show them. A text stands as it is on its own and between quotes inside a list or an
object; a moment has its plain form on its own and its parts inside.
-/
namespace QueryGate

namespace Text

def quoteFor (s : List Char) : Char := if s.contains '\'' && !s.contains '"' then '"' else '\''

def hexDigits (width n : Nat) : List Char :=
  let digits := Nat.toDigits 16 n
  List.replicate (width - digits.length) '0' ++ digits

def quotedChar (quote c : Char) : List Char :=
  if c == quote || c == '\\' then ['\\', c]
  else if c == '\n' then ['\\', 'n']
  else if c == '\t' then ['\\', 't']
  else if c == '\r' then ['\\', 'r']
  else if isPrintable c then [c]
  else if c.toNat < 256 then '\\' :: 'x' :: hexDigits 2 c.toNat
  else if c.toNat < 65536 then '\\' :: 'u' :: hexDigits 4 c.toNat
  else '\\' :: 'U' :: hexDigits 8 c.toNat

def quoted (s : String) : String :=
  let quote := quoteFor s.toList
  String.ofList (quote :: (s.toList.flatMap (quotedChar quote) ++ [quote]))

def listed (items : List String) : String := ", ".intercalate items

def precedesChars : List Char → List Char → Bool
  | [], _ => true
  | _ :: _, [] => false
  | a :: s, b :: t => if a = b then precedesChars s t else a.toNat < b.toNat

def precedes (s t : String) : Bool := precedesChars s.toList t.toList

def sorted (texts : List String) : List String := texts.mergeSort precedes

end Text

open Text

def Date.parts (d : Date) : String := listed [toString d.year, toString d.month, toString d.day]

def Moment.zoneParts (offset : Int) : String :=
  if offset = 0 then "datetime.timezone.utc"
  else
    let rest := offset.fmod dayLength
    let parts := [("days", offset.fdiv dayLength), ("seconds", rest / 1000000),
      ("microseconds", rest % 1000000)]
    let shown := (parts.filter (·.2 ≠ 0)).map fun (name, count) => name ++ "=" ++ toString count
    "datetime.timezone(datetime.timedelta(" ++ listed shown ++ "))"

def Moment.parts (m : Moment) : String :=
  let clock := [m.hour, m.minute] ++
    (if m.micro ≠ 0 then [m.second, m.micro] else if m.second ≠ 0 then [m.second] else [])
  let zone := match m.offset with
    | none => []
    | some offset => ["tzinfo=" ++ zoneParts offset]
  listed ([m.date.parts] ++ clock.map toString ++ zone)

def Scalar.shown : Scalar → String
  | .null => "None"
  | .bool b => if b then "True" else "False"
  | .int n => toString n
  | .float x => x.text
  | .text s => s
  | .date d => d.iso
  | .moment m => m.text ' '

def Scalar.quoted : Scalar → String
  | .text s => Text.quoted s
  | .date d => "datetime.date(" ++ d.parts ++ ")"
  | .moment m => "datetime.datetime(" ++ m.parts ++ ")"
  | s => s.shown

namespace Value

mutual
def quoted : Value → String
  | .scalar s => s.quoted
  | .list items => "[" ++ listed (quotedItems items) ++ "]"
  | .object fields => "\x7b" ++ listed (quotedFields fields) ++ "\x7d"
termination_by structural v => v
def quotedItems : List Value → List String
  | [] => []
  | v :: rest => quoted v :: quotedItems rest
termination_by structural vs => vs
def quotedFields : List (String × Value) → List String
  | [] => []
  | (key, v) :: rest => (Text.quoted key ++ ": " ++ quoted v) :: quotedFields rest
termination_by structural fs => fs
end

def shown : Value → String
  | .scalar s => s.shown
  | v => v.quoted

end Value
end QueryGate
