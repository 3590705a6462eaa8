import QueryGate.Calendar.Week

/-!
Reading days and moments in the ISO forms: calendar dates and week dates, with hyphens or without, and
clocks with colons or without. Any one character stands between the date and the clock.
-/
namespace QueryGate
namespace Calendar

def fixedNumber? (count : Nat) (s : List Char) : Option (Nat × List Char) :=
  let digits := s.take count
  if digits.length = count ∧ digits.all Char.isDigit then
    some (Nat.ofDigitChars 10 digits 0, s.drop count)
  else none

def skipHyphen? (hyphens : Bool) (s : List Char) : Option (List Char) :=
  if !hyphens then some s
  else
    match s with
    | '-' :: rest => some rest
    | _ => none

def weekDate? (year : Nat) (hyphens : Bool) (s : List Char) : Option Date := do
  let (week, rest) ← fixedNumber? 2 s
  if rest.isEmpty then Date.ofWeek? year week 1
  else
    let (day, _) ← fixedNumber? 1 (← skipHyphen? hyphens rest)
    Date.ofWeek? year week day

def monthDate? (year : Nat) (hyphens : Bool) (s : List Char) : Option Date := do
  let (month, rest) ← fixedNumber? 2 s
  let (day, _) ← fixedNumber? 2 (← skipHyphen? hyphens rest)
  some ⟨year, month, day⟩

def date? (s : List Char) : Option Date := do
  let (year, rest) ← fixedNumber? 4 s
  let hyphens := rest.head? == some '-'
  let date ← match (if hyphens then rest.drop 1 else rest) with
    | 'W' :: week => weekDate? year hyphens week
    | parts => monthDate? year hyphens parts
  if date.valid then some date else none

def digitAt (s : List Char) (index : Nat) : Bool := (s[index]?).any Char.isDigit

/-- The length of the date in front of a moment. A week date may or may not have its day: with hyphens it
has none if two digits follow the second one; without, if what follows the week is the separator, itself a
digit, and an even number of digits. -/
def dateLength (s : List Char) : Nat :=
  if s.length = 7 then 7
  else if s[4]? == some '-' then
    if s[5]? == some 'W' ∧ (s[8]? != some '-' ∨ digitAt s 10) then 8 else 10
  else if s[4]? == some 'W' then
    let digits := ((s.drop 7).takeWhile Char.isDigit).length
    if digits < 2 then 7 + digits else if digits % 2 = 1 then 7 else 8
  else 8

structure Clock where
  hour : Nat
  minute : Nat
  second : Nat
  micro : Nat

def fraction? (s : List Char) : Option (Nat × Bool) :=
  let kept := s.take 6
  if kept.all Char.isDigit then
    some (Nat.ofDigitChars 10 (kept ++ List.replicate (6 - kept.length) '0') 0,
      (s.dropWhile Char.isDigit).isEmpty)
  else none

def parts? (colons : Bool) : Nat → List Char → Option (List Nat × Nat × Bool)
  | 0, s => (fraction? s).map fun (micro, whole) => ([], micro, whole)
  | count + 1, s => do
    let (part, rest) ← fixedNumber? 2 s
    match rest with
    | [] => some ([part], 0, true)
    | [c] => if c.toNat < 128 then some ([part], 0, false) else none
    | c :: after =>
      let (others, micro, whole) ←
        if colons && c == ':' then parts? colons count after
        else if c == '.' || c == ',' then parts? colons 0 after
        else if !colons then parts? colons count rest
        else none
      some (part :: others, micro, whole)

def clock? (s : List Char) : Option (Clock × Bool) := do
  let (parts, micro, whole) ← parts? (s[2]? == some ':') 3 s
  some (⟨parts.getD 0 0, parts.getD 1 0, parts.getD 2 0, micro⟩, whole)

def offset? : List Char → Option Int
  | ['Z'] => some 0
  | sign :: rest => do
    guard (sign == '+' || sign == '-')
    let (clock, whole) ← clock? rest
    guard whole
    let seconds := clock.hour * 3600 + clock.minute * 60 + clock.second
    let size := if seconds = 0 then 0 else seconds * 1000000 + clock.micro
    some (if sign == '-' then -(size : Int) else size)
  | [] => none

def isZoneMark (c : Char) : Bool := c == '+' || c == '-' || c == 'Z'

def zonedClock? (s : List Char) : Option (Clock × Option Int) := do
  let (clock, whole) ← clock? (s.takeWhile (!isZoneMark ·))
  match s.dropWhile (!isZoneMark ·) with
  | [] => if whole then some (clock, none) else none
  | zone => some (clock, some (← offset? zone))

end Calendar

open Calendar

def Date.ofIso? (s : String) : Option Date :=
  if [7, 8, 10].contains s.utf8ByteSize then date? s.toList else none

def Moment.ofIso? (s : String) : Option Moment := do
  let length := dateLength s.toList
  let date ← date? (s.toList.take length)
  let (clock, offset) ← match s.toList.drop length with
    | [] => some (⟨0, 0, 0, 0⟩, none)
    | _ :: rest => zonedClock? rest
  let moment : Moment := ⟨date, clock.hour, clock.minute, clock.second, clock.micro, offset⟩
  if moment.valid then some moment else none

end QueryGate
