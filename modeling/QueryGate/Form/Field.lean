import QueryGate.Form.Fault
import QueryGate.Text.Integer

/-!
Reading single fields. Numbers and booleans are taken from texts and from each other where nothing is
lost; texts are never made from other values.
-/
namespace QueryGate.Form

def text : Value → Except Fault String
  | .text s => .ok s
  | _ => refuse .notText

def wordLimit : Nat := 9223372036854775808

def integerOfFloat (x : Binary64) : Except Fault Int :=
  if !x.isFinite then refuse .infiniteInteger
  else
    match x.toInt? with
    | none => refuse .fractionalInteger
    | some n => if n.natAbs < wordLimit then .ok n else refuse .oversizeInteger

def integer : Value → Except Fault Int
  | .int n => .ok n
  | .bool b => .ok (if b then 1 else 0)
  | .float x => integerOfFloat x
  | .text s => ((Text.fieldInteger? s).map .ok).getD (refuse .unreadableInteger)
  | _ => refuse .notInteger

def positive (v : Value) : Except Fault Int := do
  let n ← integer v
  if 0 < n then return n else refuse .notPositive

def trueWords : List String := ["1", "on", "t", "true", "y", "yes"]

def falseWords : List String := ["0", "off", "f", "false", "n", "no"]

def booleanOfText (s : String) : Except Fault Bool :=
  let word := String.ofList (s.toList.map Char.toLower)
  if trueWords.contains word then .ok true
  else if falseWords.contains word then .ok false
  else refuse .unreadableBoolean

def booleanOfInt (n : Int) : Except Fault Bool :=
  if n = 0 then .ok false else if n = 1 then .ok true else refuse .unreadableBoolean

def boolean : Value → Except Fault Bool
  | .bool b => .ok b
  | .text s => booleanOfText s
  | .int n => if -(wordLimit : Int) ≤ n ∧ n < wordLimit then booleanOfInt n else refuse .notBoolean
  | .float x => match integerOfFloat x with
    | .ok n => booleanOfInt n
    | .error _ => refuse .notBoolean
  | _ => refuse .notBoolean

def choice {α : Type} (all : List α) (spell : α → String) (v : Value) : Except Fault α :=
  match v.text?.bind fun s => all.find? fun a => spell a == s with
  | some a => .ok a
  | none => refuse (.notAmong (all.map spell))

def scalar : Value → Except Fault Scalar
  | .scalar s => .ok s
  | _ => within "bool" (refuse .notBoolean)

def optional {α : Type} (item : Value → Except Fault α) : Value → Except Fault (Option α)
  | .null => .ok none
  | v => some <$> item v

def itemsFrom {α : Type} (item : Value → Except Fault α) (index : Nat) : List Value → Except Fault (List α)
  | [] => .ok []
  | v :: rest => do
    let a ← within (toString index) (item v)
    let as ← itemsFrom item (index + 1) rest
    return a :: as

def listOf {α : Type} (item : Value → Except Fault α) : Value → Except Fault (List α)
  | .list items => itemsFrom item 0 items
  | _ => refuse .notList

def setOf {α : Type} (item : Value → Except Fault α) : Value → Except Fault (List α)
  | .list items => itemsFrom item 0 items
  | _ => refuse .notSet

def object : Value → Except Fault Fields
  | .object fields => .ok fields
  | _ => refuse .notObject

def required {α : Type} (names : List String) (item : Value → Except Fault α) (fields : Fields) :
    Except Fault α :=
  match fields.firstOf? names with
  | some (name, v) => within name (item v)
  | none => within (names.headD "") (refuse .missing)

def withDefault {α : Type} (names : List String) (default : α) (item : Value → Except Fault α)
    (fields : Fields) : Except Fault α :=
  match fields.firstOf? names with
  | some (name, v) => within name (item v)
  | none => .ok default

/-- Refuses keys that no field was read from. Each field has a list of names, of which the first present
one is used. -/
def noExtras (names : List (List String)) (fields : Fields) : Except Fault Unit :=
  let used := names.filterMap fun n => (fields.firstOf? n).map (·.1)
  match fields.keys.find? fun key => !used.contains key with
  | some key => within key (refuse .extra)
  | none => .ok ()

end QueryGate.Form
