import QueryGate.Json.Writer
import QueryGate.Value.Shape

/-!
Objects that are given as pairs of a key and a value. A pair may be anything with two elements.
-/
namespace QueryGate.Wire

inductive PairsFault where
  | notIterable (v : Value)
  | notSequence (index : Nat)
  | notPair (index length : Nat)
  | notKey (c : Composite)

def PairsFault.message : PairsFault → String
  | notIterable v => v.notIterable
  | notSequence index =>
    "cannot convert dictionary update sequence element #" ++ toString index ++ " to a sequence"
  | notPair index length => "dictionary update sequence element #" ++ toString index ++ " has length " ++
      toString length ++ "; 2 is required"
  | notKey c => c.notComparable

def keyOf : Value → Except PairsFault String
  | .text s => .ok s
  | .scalar s => .ok (String.ofList (Json.writeScalar s))
  | .list _ => .error (.notKey .list)
  | .object _ => .error (.notKey .object)

def pairOf (index : Nat) (v : Value) : Except PairsFault (String × Value) :=
  match v.elements? with
  | none => .error (.notSequence index)
  | some [key, value] => (keyOf key).map (·, value)
  | some elements => .error (.notPair index elements.length)

def addPairs (index : Nat) (fields : Fields) : List Value → Except PairsFault Fields
  | [] => .ok fields
  | v :: rest => do
    let (key, value) ← pairOf index v
    addPairs (index + 1) (fields.set key value) rest

def fieldsOfPairs : Value → Except PairsFault Fields
  | .object fields => .ok fields
  | v =>
    match v.elements? with
    | some elements => addPairs 0 [] elements
    | none => .error (.notIterable v)

end QueryGate.Wire
