import QueryGate.Binary64.Text
import QueryGate.Json.Fault
import QueryGate.Text.Quoted

/-!
Writing JSON without blanks and in ASCII alone: other characters are written by their UTF-16 units. An integer may be too
long for it, and a value too deep.
-/
namespace QueryGate.Json

def codeEscape (n : Nat) : List Char := '\\' :: 'u' :: Text.hexDigits 4 n

def writeChar (c : Char) : List Char :=
  if c == '"' then ['\\', '"']
  else if c == '\\' then ['\\', '\\']
  else if c == '\n' then ['\\', 'n']
  else if c == '\r' then ['\\', 'r']
  else if c == '\t' then ['\\', 't']
  else if c == '\x08' then ['\\', 'b']
  else if c == '\x0c' then ['\\', 'f']
  else if 32 ≤ c.toNat ∧ c.toNat < 127 then [c]
  else if c.toNat < 0x10000 then codeEscape c.toNat
  else codeEscape (0xD800 + (c.toNat - 0x10000) / 1024) ++ codeEscape (0xDC00 + (c.toNat - 0x10000) % 1024)

def writeString (s : String) : List Char := '"' :: (s.toList.flatMap writeChar ++ ['"'])

def writeFloat : Binary64 → List Char
  | .nan => "NaN".toList
  | .infinite negative => if negative then "-Infinity".toList else "Infinity".toList
  | x => x.text.toList

def writeScalar : Scalar → List Char
  | .null => "null".toList
  | .bool b => if b then "true".toList else "false".toList
  | .int n => (toString n).toList
  | .float x => writeFloat x
  | .text s => writeString s
  | .date d => writeString (Scalar.date d).shown
  | .moment m => writeString (Scalar.moment m).shown

mutual
def write : Value → List Char
  | .scalar s => writeScalar s
  | .list items => '[' :: writeItems items
  | .object fields => '\x7b' :: writeMembers fields
termination_by structural v => v
def writeItems : List Value → List Char
  | [] => [']']
  | v :: rest => write v ++ writeItemsAfter rest
termination_by structural vs => vs
def writeItemsAfter : List Value → List Char
  | [] => [']']
  | v :: rest => ',' :: (write v ++ writeItemsAfter rest)
termination_by structural vs => vs
def writeMembers : List (String × Value) → List Char
  | [] => ['\x7d']
  | (key, v) :: rest => writeString key ++ ':' :: (write v ++ writeMembersAfter rest)
termination_by structural fs => fs
def writeMembersAfter : List (String × Value) → List Char
  | [] => ['\x7d']
  | (key, v) :: rest => ',' :: (writeString key ++ ':' :: (write v ++ writeMembersAfter rest))
termination_by structural fs => fs
end

def writeText (v : Value) : String := String.ofList (write v)

mutual
/-- The first thing in a value that keeps it from being written with room for so many levels. -/
def unwritable? : Nat → Value → Option Unwritable
  | _, .scalar s => if s.isShort then none else some .longInteger
  | 0, .list _ => some .tooDeep
  | room + 1, .list items => unwritableItem? room items
  | 0, .object _ => some .tooDeep
  | room + 1, .object fields => unwritableMember? room fields
termination_by structural _ v => v
def unwritableItem? (room : Nat) : List Value → Option Unwritable
  | [] => none
  | v :: rest => (unwritable? room v).or (unwritableItem? room rest)
termination_by structural vs => vs
def unwritableMember? (room : Nat) : List (String × Value) → Option Unwritable
  | [] => none
  | (_, v) :: rest => (unwritable? room v).or (unwritableMember? room rest)
termination_by structural fs => fs
end

end QueryGate.Json
