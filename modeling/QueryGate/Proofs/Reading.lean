import QueryGate.Proofs.Truth
import QueryGate.Sql.Dialect

/-! How SQL reads a text of conditions: as quoted names, words and signs, of which a name, an operator and an
operand are a comparison; `NOT` binds tighter than `AND` and `AND` tighter than `OR`, parentheses first. -/
namespace QueryGate.Reading

inductive Token where
  | name (s : List Char)
  | word (s : List Char)
  | mark (c : Char)
  deriving DecidableEq, Repr

def isLetter (c : Char) : Bool := c.isAlphanum || c == '_' || c == '$' || c == '-'

def isSign (c : Char) : Bool := c == '=' || c == '<' || c == '>' || c == '!'

def areJoined (a b : Char) : Bool := (isLetter a && isLetter b) || (isSign a && isSign b)

def extend (c : Char) (next? : Option Char) (ts : List Token) : List Token :=
  match ts with
  | .word w :: rest => if next?.any (areJoined c) then .word (c :: w) :: rest else .word [c] :: ts
  | _ => .word [c] :: ts

/-- The tokens of a text. Inside a quoted name, of which the part so far is given, a quote is written twice. -/
def lex (q : Char) : Option (List Char) → List Char → Option (List Token)
  | none, [] => some []
  | some _, [] => none
  | some n, [c] => if c = q then some [.name n] else none
  | some n, c :: d :: s =>
    if c ≠ q then lex q (some (n ++ [c])) (d :: s)
    else if d = q then lex q (some (n ++ [q])) s
    else (lex q none (d :: s)).map (.name n :: ·)
  | none, c :: s =>
    if c = q then lex q (some []) s
    else if c = ' ' then lex q none s
    else if isLetter c || isSign c then (lex q none s).map (extend c s.head?)
    else (lex q none s).map (.mark c :: ·)

inductive Part where
  | star
  | name (s : List Char)
  deriving DecidableEq, Repr

inductive Operand where
  | nothing
  | parameter (mark : List Char) (enclosed : Bool)
  | column (parts : List Part)
  deriving DecidableEq, Repr

structure Comparison where
  column : List Part
  operator : Operator
  operand : Operand
  deriving DecidableEq, Repr

def part? : Token → Option Part
  | .name s => some (.name s)
  | .mark '*' => some .star
  | _ => none

def dotted? : List Token → Option (List Part × List Token)
  | t :: .mark '.' :: rest => do
    let p ← part? t
    let (ps, rest) ← dotted? rest
    return (p :: ps, rest)
  | t :: rest => (part? t).map fun p => ([p], rest)
  | [] => none

def operatorTokens (o : Operator) : List Token := (o.text.toList.splitOn ' ').map .word

def operator? (ts : List Token) : Option (Operator × List Token) :=
  Operator.all.findSome? fun o => ((operatorTokens o).isPrefixOf? ts).map (o, ·)

def parameter? : List Token → Option (List Char × List Token)
  | .mark '?' :: rest => some (['?'], rest)
  | .word ('$' :: k) :: rest => some ('$' :: k, rest)
  | _ => none

def operand? : List Token → Option (Operand × List Token)
  | .mark '(' :: ts =>
    match parameter? ts with
    | some (mark, .mark ')' :: rest) => some (.parameter mark true, rest)
    | _ => none
  | ts =>
    match parameter? ts with
    | some (mark, rest) => some (.parameter mark false, rest)
    | none => (dotted? ts).map fun (ps, rest) => (.column ps, rest)

def comparison? (ts : List Token) : Option (Comparison × List Token) := do
  let (column, ts) ← dotted? ts
  let (operator, ts) ← operator? ts
  if operator.isUnary then return (⟨column, operator, .nothing⟩, ts)
  else
    let (operand, ts) ← operand? ts
    return (⟨column, operator, operand⟩, ts)

inductive Formula where
  | atom (c : Comparison)
  | not (f : Formula)
  | and (f g : Formula)
  | or (f g : Formula)
  deriving DecidableEq, Repr

namespace Formula

def atoms : Formula → List Comparison
  | atom c => [c]
  | not f => f.atoms
  | and f g => f.atoms ++ g.atoms
  | or f g => f.atoms ++ g.atoms

def value (v : Nat → Truth) (k : Nat) : Formula → Truth
  | atom _ => v k
  | not f => (value v k f).not
  | and f g => (value v k f).and (value v (k + f.atoms.length) g)
  | or f g => (value v k f).or (value v (k + f.atoms.length) g)

end Formula

inductive Level where
  | disj
  | conj
  | neg
  | prim
  deriving DecidableEq, Repr

def wordAnd : Token := .word ['A', 'N', 'D']

def wordOr : Token := .word ['O', 'R']

def wordNot : Token := .word ['N', 'O', 'T']

def after? (t : Token) : List Token → Option (List Token)
  | u :: rest => if u = t then some rest else none
  | [] => none

/-- Reads the formula of a level in front of some tokens. `AND` and `OR` being associative, a row of either is
read from its first operand on. -/
def read : Level → Nat → List Token → Option (Formula × List Token)
  | _, 0, _ => none
  | .disj, n + 1, ts => do
    let (f, ts) ← read .conj n ts
    match after? wordOr ts with
    | some ts => (read .disj n ts).map fun (g, ts) => (f.or g, ts)
    | none => return (f, ts)
  | .conj, n + 1, ts => do
    let (f, ts) ← read .neg n ts
    match after? wordAnd ts with
    | some ts => (read .conj n ts).map fun (g, ts) => (f.and g, ts)
    | none => return (f, ts)
  | .neg, n + 1, ts =>
    match after? wordNot ts with
    | some ts => (read .neg n ts).map fun (f, ts) => (f.not, ts)
    | none => read .prim n ts
  | .prim, n + 1, ts =>
    match after? (.mark '(') ts with
    | some ts => do
      let (f, ts) ← read .disj n ts
      (after? (.mark ')') ts).map (f, ·)
    | none => (comparison? ts).map fun (c, ts) => (.atom c, ts)

def read? (d : Dialect) (sql : String) : Option Formula := do
  let ts ← lex d.quote none sql.toList
  match read .disj (3 * ts.length + 4) ts with
  | some (f, []) => return f
  | _ => none

end QueryGate.Reading
