/-!
The fixed vocabularies of a query: comparison operators, connectives, kinds of join and directions, each
with its one spelling.
-/
namespace QueryGate

inductive Operator where
  | equal
  | notEqual
  | distinct
  | greater
  | atLeast
  | less
  | atMost
  | like
  | notLike
  | isIn
  | notIn
  | isNull
  | isNotNull
  | regexp
  | notRegexp
  deriving DecidableEq, Repr

inductive Logic where
  | conj
  | disj
  deriving DecidableEq, Repr

inductive JoinKind where
  | inner
  | left
  | right
  | full
  deriving DecidableEq, Repr

inductive Direction where
  | ascending
  | descending
  deriving DecidableEq, Repr

namespace Operator

def all : List Operator :=
  [equal, notEqual, distinct, greater, atLeast, less, atMost, like, notLike, isIn, notIn, isNull, isNotNull,
    regexp, notRegexp]

def text : Operator → String
  | equal => "="
  | notEqual => "!="
  | distinct => "<>"
  | greater => ">"
  | atLeast => ">="
  | less => "<"
  | atMost => "<="
  | like => "LIKE"
  | notLike => "NOT LIKE"
  | isIn => "IN"
  | notIn => "NOT IN"
  | isNull => "IS NULL"
  | isNotNull => "IS NOT NULL"
  | regexp => "REGEXP"
  | notRegexp => "NOT REGEXP"

def ofText? (s : String) : Option Operator := all.find? fun o => o.text == s

def isUnary (o : Operator) : Bool := o == isNull || o == isNotNull

def takesList (o : Operator) : Bool := o == isIn || o == notIn

theorem ofText?_text (o : Operator) : ofText? o.text = some o := by cases o <;> decide

end Operator

namespace Logic

def all : List Logic := [conj, disj]

def text : Logic → String
  | conj => "AND"
  | disj => "OR"

def ofText? (s : String) : Option Logic := all.find? fun l => l.text == s

theorem ofText?_text (l : Logic) : ofText? l.text = some l := by cases l <;> decide

end Logic

namespace JoinKind

def all : List JoinKind := [inner, left, right, full]

def text : JoinKind → String
  | inner => "INNER"
  | left => "LEFT"
  | right => "RIGHT"
  | full => "FULL"

def ofText? (s : String) : Option JoinKind := all.find? fun k => k.text == s

theorem ofText?_text (k : JoinKind) : ofText? k.text = some k := by cases k <;> decide

end JoinKind

namespace Direction

def all : List Direction := [ascending, descending]

def text : Direction → String
  | ascending => "ASC"
  | descending => "DESC"

def ofText? (s : String) : Option Direction := all.find? fun d => d.text == s

theorem ofText?_text (d : Direction) : ofText? d.text = some d := by cases d <;> decide

end Direction
end QueryGate
