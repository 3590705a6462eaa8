import QueryGate.Validation.Danger
import QueryGate.Validation.FieldPattern
import QueryGate.Validation.Options
import QueryGate.Validation.Rejection

/-!
Checks of names: tables, columns of rows, and the entries of field lists.
-/
namespace QueryGate

def validateTable (role : String) (name : Value) : Except QueryFault String :=
  match name with
  | .text s => if Name.isTable s.toList then .ok s else reject (.invalidTable role name)
  | _ => reject (.invalidTable role name)

def isColumn (name : String) : Bool := Name.isDotted name.toList

def validateRow (index : Nat) (row : Value) : Except QueryFault Fields :=
  match row with
  | .object fields =>
    if fields.isEmpty then reject (.rowNotObject index)
    else
      match fields.find? fun f => !isColumn f.1 with
      | some (name, _) => reject (.invalidColumn name index)
      | none => .ok fields
  | _ => reject (.rowNotObject index)

def validateRowsFrom (index : Nat) : List Value → Except QueryFault (List Fields)
  | [] => .ok []
  | row :: rest => do
    let fields ← validateRow index row
    let others ← validateRowsFrom (index + 1) rest
    return fields :: others

def validateRows (rows : List Value) : Except QueryFault (List Fields) := validateRowsFrom 0 rows

def validateListedName (clause : String) : Value → Except QueryFault String
  | .text s =>
    if s = "*" then .ok s
    else if Danger.isDangerous s then reject (.dangerousName s)
    else if !Name.isDotted s.toList then reject (.invalidName (.text s))
    else if (s.toList.splitOn '.').any fun part => Danger.isKeyword (String.ofList part) then
      reject (.keywordName s)
    else .ok s
  | _ => reject (.namesNotTexts clause)

def validateNames (clause : String) (most : Int) : Value → Except QueryFault (Option (List String))
  | .null => .ok none
  | .list items =>
    if most < items.length then reject (.tooManyNames clause most)
    else some <$> items.mapM (validateListedName clause)
  | _ => reject (.namesNotTexts clause)

def isField (o : ValidationOptions) (name : String) : Bool :=
  name != "*" && o.fieldPattern.accepts name && !Danger.isDangerous name

end QueryGate
