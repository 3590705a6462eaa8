/-!
The patterns that names must match as a whole: one or more words of letters, digits and underscores joined
by dots, table names of at most 64 characters, and the alternatives a configuration may choose.
-/
namespace QueryGate

namespace Name

def isWordPart (c : Char) : Bool := c.isAlphanum || c == '_'

def isWord : List Char → Bool
  | [] => false
  | c :: rest => c.isAlpha && rest.all isWordPart

def isDotted (s : List Char) : Bool := (s.splitOn '.').all isWord

def isTable (s : List Char) : Bool := isWord s && s.length ≤ 64

end Name

/-- The patterns that a field name may be held to. One that is not listed is given by its writing and by which
whole names it matches. -/
inductive FieldPattern where
  | safe
  | lowerWords
  | upperLetters
  | lowerLetters
  | anyLine
  | other (source : String) (fullMatch : String → Bool)

namespace FieldPattern

def listed : List FieldPattern := [safe, lowerWords, upperLetters, lowerLetters, anyLine]

def source : FieldPattern → String
  | safe => "^(\\*|[a-zA-Z][a-zA-Z0-9_]*(?:\\.[a-zA-Z][a-zA-Z0-9_]*)*)$"
  | lowerWords => "^[a-z_]+$"
  | upperLetters => "^[A-Z]+$"
  | lowerLetters => "[a-z]+"
  | anyLine => ".*"
  | other source _ => source

def ofSource? (s : String) : Option FieldPattern := listed.find? fun p => p.source == s

def accepts (p : FieldPattern) (name : String) : Bool :=
  let s := name.toList
  match p with
  | safe => s == ['*'] || Name.isDotted s
  | lowerWords => !s.isEmpty && s.all fun c => c.isLower || c == '_'
  | upperLetters => !s.isEmpty && s.all Char.isUpper
  | lowerLetters => !s.isEmpty && s.all Char.isLower
  | anyLine => s.all (· != '\n')
  | other _ fullMatch => fullMatch name

end FieldPattern
end QueryGate
