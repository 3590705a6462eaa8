/-!
The SQL dialects: how each quotes names and marks parameters. Each part of a dotted name is put between quotes with the
quotes inside it doubled; the star and what is already between quotes of either style are left alone.
-/
namespace QueryGate

inductive Dialect where
  | mysql
  | postgres
  | sqlite
  deriving DecidableEq, Repr

namespace Dialect

def all : List Dialect := [mysql, postgres, sqlite]

def name : Dialect → String
  | mysql => "mysql"
  | postgres => "postgres"
  | sqlite => "sqlite"

def ofName? (s : String) : Option Dialect := all.find? fun d => d.name == s

def unsupported (name : String) : String := "Unsupported SQL dialect: " ++ name

def quote : Dialect → Char
  | mysql => '\x60'
  | _ => '"'

def marker (d : Dialect) (index : Int) : String :=
  match d with
  | postgres => "$" ++ toString index
  | _ => "?"

def bindsLists (d : Dialect) : Bool := d == postgres

def label : Dialect → String
  | mysql => "<MySQLDialect mysql>"
  | postgres => "<PostgresDialect postgres>"
  | sqlite => "<SQLiteDialect sqlite>"

end Dialect

namespace Identifier

def isQuotedBy (q : Char) (s : List Char) : Bool := s.head? == some q && s.getLast? == some q

/-- Between double quotes or backticks, the two ends being different characters of the text. -/
def isQuotedChars (s : List Char) : Bool := 2 ≤ s.length && (isQuotedBy '"' s || isQuotedBy '\x60' s)

def double (q : Char) (s : List Char) : List Char := s.flatMap fun c => if c = q then [q, q] else [c]

def escapePart (q : Char) (part : List Char) : List Char :=
  if isQuotedChars part || part == ['*'] then part else q :: (double q part ++ [q])

def escapeChars (q : Char) (s : List Char) : List Char :=
  if isQuotedChars s then s else ['.'].intercalate ((s.splitOn '.').map (escapePart q))

def isQuoted (name : String) : Bool := isQuotedChars name.toList

def escape (d : Dialect) (name : String) : String := String.ofList (escapeChars d.quote name.toList)

end Identifier
end QueryGate
