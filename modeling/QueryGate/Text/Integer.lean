import QueryGate.Text.Character

/-!
Integers read from text, with white space around them. Two rules are in use. Settings take one sign and the
digits of every script. Numeric fields take ASCII digits, zeros in front and a fraction of zeros; what
follows the zeros in front may have a minus sign of its own.
-/
namespace QueryGate.Text

def signOf : List Char → Int × List Char
  | '-' :: rest => (-1, rest)
  | '+' :: rest => (1, rest)
  | rest => (1, rest)

def groupedNumber? (digit? : Char → Option Nat) (s : List Char) : Option Nat :=
  let groups := s.splitOn '_'
  if groups.all fun group => !group.isEmpty && group.all fun c => (digit? c).isSome then
    some ((groups.flatten.filterMap digit?).foldl (fun n d => 10 * n + d) 0)
  else none

def settingInteger? (s : String) : Option Int :=
  let (sign, digits) := signOf (trimWith isSpace s.toList)
  (groupedNumber? digitValue? digits).map fun n => sign * (n : Int)

def dropPlus? : List Char → Option (List Char)
  | '+' :: '-' :: _ => none
  | '+' :: rest => some rest
  | s => some s

def afterZeros? (last : Char) : List Char → Option (List Char)
  | [] => some [last]
  | c :: rest =>
    if c == '0' || c == '_' then afterZeros? c rest
    else if c == '.' then some (last :: c :: rest)
    else if c == '-' || c.isDigit then some (c :: rest)
    else none

def dropZeros? : List Char → Option (List Char)
  | '0' :: rest => afterZeros? '0' rest
  | c :: rest => if c == '-' || c.isDigit then some (c :: rest) else none
  | [] => none

def dropZeroFraction (s : List Char) : List Char :=
  let (whole, rest) := s.span (· != '.')
  match rest with
  | '.' :: zeros => if !zeros.isEmpty && zeros.all (· == '0') then whole else s
  | _ => s

def dropUnderscores? (s : List Char) : Option (List Char) :=
  let groups := s.splitOn '_'
  if groups.all (!·.isEmpty) then some groups.flatten else none

def plainNumber? (s : List Char) : Option Nat :=
  if s.isEmpty || !s.all Char.isDigit || (s.head? == some '0' && s.length != 1) then none
  else some (Nat.ofDigitChars 10 s 0)

def plainInteger? : List Char → Option Int
  | '-' :: digits => (plainNumber? digits).map fun n => -(n : Int)
  | digits => (plainNumber? digits).map fun n => (n : Int)

def fieldInteger? (s : String) : Option Int := do
  let unsigned ← dropPlus? (trimWith isSpace s.toList)
  let number ← dropZeros? unsigned
  plainInteger? (← dropUnderscores? (dropZeroFraction number))

end QueryGate.Text
