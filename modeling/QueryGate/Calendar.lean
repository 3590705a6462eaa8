/-!
Calendar days and moments, and their written forms: the ISO text, the text with a blank in place of `T`,
and the wire form, which writes offsets in hours and minutes and `Z` for no offset.
-/
namespace QueryGate

structure Date where
  year : Nat
  month : Nat
  day : Nat
  deriving DecidableEq, Repr

structure Moment where
  date : Date
  hour : Nat
  minute : Nat
  second : Nat
  micro : Nat
  offset : Option Int
  deriving DecidableEq, Repr

def padded (width n : Nat) : List Char :=
  let digits := Nat.toDigits 10 n
  List.replicate (width - digits.length) '0' ++ digits

namespace Date

def isLeap (year : Nat) : Bool := year % 4 == 0 && (year % 100 != 0 || year % 400 == 0)

def daysIn (year month : Nat) : Nat :=
  if month == 2 then (if isLeap year then 29 else 28)
  else if [4, 6, 9, 11].contains month then 30 else 31

def valid (d : Date) : Bool :=
  1 ≤ d.year && d.year < 10000 && 1 ≤ d.month && d.month ≤ 12 && 1 ≤ d.day && d.day ≤ daysIn d.year d.month

def isoChars (d : Date) : List Char :=
  padded 4 d.year ++ '-' :: padded 2 d.month ++ '-' :: padded 2 d.day

def iso (d : Date) : String := String.ofList d.isoChars

end Date

namespace Moment

def dayLength : Nat := 86400000000

def valid (m : Moment) : Bool :=
  m.date.valid && m.hour < 24 && m.minute < 60 && m.second < 60 && m.micro < 1000000 &&
    m.offset.all fun offset => offset.natAbs < dayLength

def fractionChars (micro : Nat) : List Char := if micro = 0 then [] else '.' :: padded 6 micro

def clockChars (m : Moment) : List Char :=
  padded 2 m.hour ++ ':' :: padded 2 m.minute ++ ':' :: padded 2 m.second ++ fractionChars m.micro

def hourMinuteChars (negative : Bool) (seconds : Nat) : List Char :=
  (if negative then '-' else '+') :: padded 2 (seconds / 3600) ++ ':' :: padded 2 (seconds / 60 % 60)

def offsetChars (offset : Int) : List Char :=
  let seconds := offset.natAbs / 1000000
  let micro := offset.natAbs % 1000000
  hourMinuteChars (offset < 0) seconds ++
    (if seconds % 60 = 0 ∧ micro = 0 then [] else ':' :: padded 2 (seconds % 60) ++ fractionChars micro)

def text (m : Moment) (separator : Char) : String :=
  String.ofList (m.date.isoChars ++ separator :: m.clockChars ++ (m.offset.map offsetChars).getD [])

def iso (m : Moment) : String := m.text 'T'

def wireOffsetChars (offset : Int) : List Char :=
  let seconds := offset.fdiv 1000000
  if seconds = 0 then ['Z'] else hourMinuteChars (seconds < 0) seconds.natAbs

def wire (m : Moment) : String :=
  String.ofList (m.date.isoChars ++ 'T' :: m.clockChars ++ (m.offset.map wireOffsetChars).getD [])

end Moment
end QueryGate
