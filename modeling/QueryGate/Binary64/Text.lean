import QueryGate.Binary64.Shortest
import QueryGate.Text.Character

/-!
The text of a floating-point number and its reading back. The fewest digits that read back are written,
positionally from `0.0001` up to below `10 ^ 16` and with an exponent of at least two digits elsewhere.
-/
namespace QueryGate.Binary64

def pointedDigits (digits : List Char) (point : Int) : List Char :=
  if point ≤ 0 then '0' :: '.' :: (List.replicate (-point).toNat '0' ++ digits)
  else if digits.length ≤ point.toNat then
    digits ++ List.replicate (point.toNat - digits.length) '0' ++ ['.', '0']
  else digits.take point.toNat ++ '.' :: digits.drop point.toNat

def exponentDigits (digits : List Char) (point : Int) : List Char :=
  let power := point - 1
  let size := Nat.toDigits 10 power.natAbs
  let mantissa := match digits with
    | d :: e :: rest => d :: '.' :: e :: rest
    | short => short
  mantissa ++ ['e', if power < 0 then '-' else '+'] ++
    (if size.length < 2 then '0' :: size else size)

def layout (d : Decimal) : List Char :=
  let digits := Nat.toDigits 10 d.digits
  let point : Int := digits.length + d.exponent
  if -4 < point && point ≤ 16 then pointedDigits digits point else exponentDigits digits point

def text : Binary64 → String
  | .nan => "nan"
  | .infinite negative => if negative then "-inf" else "inf"
  | .finite negative significand exponent _ =>
    let size := if significand = 0 then ['0', '.', '0']
      else layout (RoundingInterval.of significand exponent).shortest
    String.ofList (if negative then '-' :: size else size)

def takeDigits (s : List Char) : List Char × List Char := s.span Char.isDigit

def takeSign : List Char → Bool × List Char
  | '-' :: rest => (true, rest)
  | '+' :: rest => (false, rest)
  | rest => (false, rest)

def ofParts (negative : Bool) (whole fraction : List Char) (exponent : Int) : Binary64 :=
  ofDecimal negative (Nat.ofDigitChars 10 (whole ++ fraction) 0) (exponent - fraction.length)

def ofExponent? : List Char → Option Int
  | [] => some 0
  | c :: rest =>
    if c == 'e' || c == 'E' then
      let (negative, digits) := takeSign rest
      if digits.isEmpty || !digits.all Char.isDigit then none
      else
        let size : Int := (Nat.ofDigitChars 10 digits 0 : Nat)
        some (if negative then -size else size)
    else none

/-- A text without its underscores, which have to be single and between digits. `inDigit` says whether a
digit comes before the text. -/
def dropUnderscores? (inDigit : Bool) : List Char → Option (List Char)
  | [] => some []
  | '_' :: c :: rest =>
    if inDigit && c.isDigit then (dropUnderscores? true rest).map (c :: ·) else none
  | c :: rest => if c == '_' then none else (dropUnderscores? c.isDigit rest).map (c :: ·)

def plainDigit (c : Char) : Char := ((Text.digitValue? c).map Nat.digitChar).getD c

def ofText? (s : String) : Option Binary64 := do
  let plain ← dropUnderscores? false ((Text.trimWith Text.isSpace s.toList).map plainDigit)
  let (negative, rest) := takeSign plain
  let name := String.ofList (rest.map Char.toLower)
  if name == "nan" then some .nan
  else if name == "inf" || name == "infinity" then some (.infinite negative)
  else
    let (whole, rest) := takeDigits rest
    let (fraction, rest) := match rest with
      | '.' :: more => takeDigits more
      | other => ([], other)
    if whole.isEmpty && fraction.isEmpty then none
    else (ofExponent? rest).map (ofParts negative whole fraction)

end QueryGate.Binary64
