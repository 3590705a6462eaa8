import QueryGate.Text.Character
import QueryGate.Text.Word

/-!
Texts that are refused for what they contain: comment marks, statement ends, fragments of statements, and
SQL keywords that stand as words of their own.
-/
namespace QueryGate.Danger

/-- Whether a character is a letter of a pattern, in either case. The long s, the dotless and the dotted I
and the Kelvin sign count as the letters they look like. -/
def sameLetter (letter c : Char) : Bool :=
  c.toLower == letter ||
    (letter == 's' && c == '\u017F') || (letter == 'i' && (c == '\u0131' || c == '\u0130')) ||
    (letter == 'k' && c == '\u212A')

def afterWord? : List Char → List Char → Option (List Char)
  | [], s => some s
  | letter :: word, c :: s => if sameLetter letter c then afterWord? word s else none
  | _ :: _, [] => none

inductive Part where
  | mark (s : List Char)
  | word (s : List Char)
  | blanks
  | someBlanks
  | digits

namespace Part

/-- The text after a part that it begins with. Runs are taken whole, which loses nothing: in no pattern
does a run stand before a part that could begin with one of its characters. -/
def after? (s : List Char) : Part → Option (List Char)
  | mark m => if m.isPrefixOf s then some (s.drop m.length) else none
  | word w => afterWord? w s
  | blanks => some (s.dropWhile Text.isBlank)
  | someBlanks => if (s.head?.map Text.isBlank).getD false then some (s.dropWhile Text.isBlank) else none
  | digits =>
    if (s.head?.map Text.isDecimalDigit).getD false then some (s.dropWhile Text.isDecimalDigit) else none

end Part

def beginsWith (parts : List Part) (s : List Char) : Bool :=
  (parts.foldl (fun rest part => rest.bind part.after?) (some s)).isSome

def occurs (parts : List Part) : List Char → Bool
  | [] => beginsWith parts []
  | c :: s => beginsWith parts (c :: s) || occurs parts s

def wordPair (first second : String) : List Part := [.word first.toList, .someBlanks, .word second.toList]

def patterns : List (List Part) :=
  [[.mark ['-', '-']],
    [.mark ['/', '*']],
    [.mark ['*', '/']],
    [.mark ['\''], .blanks, .word ['o', 'r'], .blanks, .mark ['\''], .digits, .mark ['\'']],
    wordPair "union" "select",
    wordPair "select" "from",
    wordPair "drop" "table",
    wordPair "delete" "from",
    [.mark [';'], .blanks, .word "drop".toList],
    [.mark [';'], .blanks, .word "delete".toList]]

def endsStatement (s : List Char) : Bool := (s.reverse.dropWhile Text.isBlank).head? == some ';'

def isDangerous (text : String) : Bool :=
  endsStatement text.toList || patterns.any fun p => occurs p text.toList

def isForbidden (text : String) : Bool :=
  text.toList.any (fun c => c == '\'' || c == '"' || c == '\\' || c == ';') ||
    occurs [.mark ['-', '-']] text.toList || occurs [.mark ['/', '*']] text.toList ||
    occurs [.mark ['*', '/']] text.toList

def keywords : List String :=
  ["alter", "cast", "convert", "create", "database", "declare", "delete", "drop", "exec", "execute", "from",
    "group", "having", "insert", "into", "join", "limit", "offset", "order", "select", "set", "table",
    "truncate", "union", "update", "values", "where"]

def isKeyword (word : String) : Bool := keywords.contains (String.ofList (word.toList.map Char.toLower))

def keywordAt (s : List Char) : Bool :=
  (keywords.any fun k =>
    match afterWord? k.toList s with
    | some rest => !(rest.head?.map Text.isWordChar).getD false
    | none => false) ||
  (["sp", "xp"].any fun k =>
    match afterWord? k.toList s with
    | some rest => rest.head? == some '_'
    | none => false)

def keywordAfter (inWord : Bool) : List Char → Bool
  | [] => false
  | c :: rest => (!inWord && keywordAt (c :: rest)) || keywordAfter (Text.isWordChar c) rest

def hasKeyword (text : String) : Bool := keywordAfter false text.toList

end QueryGate.Danger
