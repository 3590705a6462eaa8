import QueryGate.Binary64
import QueryGate.Calendar

/-!
The values that queries and rows are made of: scalars, lists and objects. An object keeps the order of
its keys. Texts are made of characters and so are free of lone halves of surrogate pairs.
-/
namespace QueryGate

namespace Numeral

/-- Integers with more digits than these have no text and are read from none. -/
def maxDigits : Nat := 4300

def digitCount (n : Int) : Nat := (Nat.toDigits 10 n.natAbs).length

def isLong (n : Int) : Bool := maxDigits < digitCount n

def tooLong (digits : Option Nat) : String :=
  let count := digits.elim "" fun n => ": value has " ++ toString n ++ " digits"
  "Exceeds the limit (" ++ toString maxDigits ++ " digits) for integer string conversion" ++ count ++
    "; use sys.set_int_max_str_digits() to increase the limit"

end Numeral

inductive Scalar where
  | null
  | bool (b : Bool)
  | int (n : Int)
  | float (x : Binary64)
  | text (s : String)
  | date (d : Date)
  | moment (m : Moment)
  deriving DecidableEq

def Scalar.isShort : Scalar → Bool
  | .int n => !Numeral.isLong n
  | _ => true

inductive Value where
  | scalar (s : Scalar)
  | list (items : List Value)
  | object (fields : List (String × Value))

abbrev Fields := List (String × Value)

namespace Value

@[match_pattern] abbrev null : Value := .scalar .null
@[match_pattern] abbrev bool (b : Bool) : Value := .scalar (.bool b)
@[match_pattern] abbrev int (n : Int) : Value := .scalar (.int n)
@[match_pattern] abbrev float (x : Binary64) : Value := .scalar (.float x)
@[match_pattern] abbrev text (s : String) : Value := .scalar (.text s)
@[match_pattern] abbrev date (d : Date) : Value := .scalar (.date d)
@[match_pattern] abbrev moment (m : Moment) : Value := .scalar (.moment m)

instance : Inhabited Value := ⟨null⟩

def isNull : Value → Bool
  | null => true
  | _ => false

def text? : Value → Option String
  | text s => some s
  | _ => none

def object? : Value → Option Fields
  | object fields => some fields
  | _ => none

def isEmpty : Value → Bool
  | null => true
  | bool b => !b
  | int n => n == 0
  | float x => x.isZero
  | text s => s.isEmpty
  | list items => items.isEmpty
  | object fields => fields.isEmpty
  | _ => false

mutual
def levels : Value → Nat
  | .scalar _ => 0
  | .list items => levelsItems items + 1
  | .object fields => levelsFields fields + 1
termination_by structural v => v
def levelsItems : List Value → Nat
  | [] => 0
  | v :: rest => max v.levels (levelsItems rest)
termination_by structural vs => vs
def levelsFields : List (String × Value) → Nat
  | [] => 0
  | (_, v) :: rest => max v.levels (levelsFields rest)
termination_by structural fs => fs
end

mutual
def scalars : Value → List Scalar
  | .scalar s => [s]
  | .list items => scalarsItems items
  | .object fields => scalarsFields fields
termination_by structural v => v
def scalarsItems : List Value → List Scalar
  | [] => []
  | v :: rest => v.scalars ++ scalarsItems rest
termination_by structural vs => vs
def scalarsFields : List (String × Value) → List Scalar
  | [] => []
  | (_, v) :: rest => v.scalars ++ scalarsFields rest
termination_by structural fs => fs
end

def isShort (v : Value) : Bool := v.scalars.all Scalar.isShort

mutual
def mapScalars (f : Scalar → Scalar) : Value → Value
  | .scalar s => .scalar (f s)
  | .list items => .list (mapScalarsItems f items)
  | .object fields => .object (mapScalarsFields f fields)
termination_by structural v => v
def mapScalarsItems (f : Scalar → Scalar) : List Value → List Value
  | [] => []
  | v :: rest => mapScalars f v :: mapScalarsItems f rest
termination_by structural vs => vs
def mapScalarsFields (f : Scalar → Scalar) : List (String × Value) → List (String × Value)
  | [] => []
  | (key, v) :: rest => (key, mapScalars f v) :: mapScalarsFields f rest
termination_by structural fs => fs
end

end Value

namespace Fields

def value? (fields : Fields) (key : String) : Option Value := fields.lookup key

def has (fields : Fields) (key : String) : Bool := (fields.value? key).isSome

def keys (fields : Fields) : List String := fields.map (·.1)

def firstOf? (fields : Fields) (keys : List String) : Option (String × Value) :=
  keys.findSome? fun key => (fields.value? key).map (key, ·)

def firstOf (fields : Fields) (keys : List String) : Value :=
  ((fields.firstOf? keys).map (·.2)).getD .null

/-- Gives a key a value: at the key's place if it has one, at the end otherwise. -/
def set : Fields → String → Value → Fields
  | [], key, value => [(key, value)]
  | (k, v) :: rest, key, value => if k = key then (k, value) :: rest else (k, v) :: set rest key value

end Fields
end QueryGate
