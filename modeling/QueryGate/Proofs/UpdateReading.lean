import QueryGate.Proofs.Comparing

/-! How SQL reads an `UPDATE` by a key, its parameters in the places of their marks, and what that makes of the
rows of a table. -/
namespace QueryGate.Reading

abbrev Column := List Part

inductive Lexeme where
  | token (t : Token)
  | value (v : Value)

def word (s : String) : Token := .word s.toList

/-- The place of the parameter that a token marks behind `k` marks: of a numbered mark its number, from one. -/
def place? (k : Nat) : Token → Option Nat
  | .mark '?' => some k
  | .word ('$' :: s) =>
    if s.all Char.isDigit then
      match Nat.ofDigitChars 10 s 0 with
      | n + 1 => some n
      | 0 => none
    else none
  | _ => none

def bind? (params : List Value) : Nat → List Token → Option (List Lexeme)
  | _, [] => some []
  | k, t :: ts =>
    match place? k t with
    | some i => do
      let v ← params[i]?
      let ls ← bind? params (k + 1) ts
      return .value v :: ls
    | none => (bind? params k ts).map (.token t :: ·)

structure Choice where
  column : Column
  id : Value
  value : Value

inductive Source where
  | value (v : Value)
  | choice (choices : List Choice) (otherwise : Column)

structure Update where
  table : Column
  sets : List (Column × Source)
  key : Column
  keys : List Value

abbrev StoredRow := Column → Value

abbrev Database := Column → List StoredRow

def Source.eval (equal : Value → Value → Bool) (row : StoredRow) : Source → Value
  | value v => v
  | choice choices otherwise =>
    ((choices.find? fun c => equal (row c.column) c.id).map (·.value)).getD (row otherwise)

namespace Update
variable (equal : Value → Value → Bool) (u : Update)

def meets (row : StoredRow) : Bool := u.keys.any (equal (row u.key))

/-- A stored row with its new values, which are all found in the row as it was. -/
def write (row : StoredRow) : StoredRow := fun column =>
  match u.sets.lookup column with
  | some source => source.eval equal row
  | none => row column

def step (row : StoredRow) : StoredRow := if u.meets equal row then u.write equal row else row

def run (db : Database) : Database := fun table =>
  if table = u.table then (db table).map (u.step equal) else db table

end Update

def token? (t : Token) : List Lexeme → Option (List Lexeme)
  | .token u :: rest => if u = t then some rest else none
  | _ => none

def value? : List Lexeme → Option (Value × List Lexeme)
  | .value v :: rest => some (v, rest)
  | _ => none

def column? : List Lexeme → Option (Column × List Lexeme)
  | .token t :: .token (.mark '.') :: rest => do
    let p ← part? t
    let (ps, rest) ← column? rest
    return (p :: ps, rest)
  | .token t :: rest => (part? t).map fun p => ([p], rest)
  | _ => none

def series? {α : Type} (item : List Lexeme → Option (α × List Lexeme)) (separator : Token) :
    Nat → List Lexeme → Option (List α × List Lexeme)
  | 0, _ => none
  | n + 1, ls => do
    let (a, ls) ← item ls
    match token? separator ls with
    | some ls => (series? item separator n ls).map fun (as, ls) => (a :: as, ls)
    | none => return ([a], ls)

def items? {α : Type} (item : List Lexeme → Option (α × List Lexeme)) (separator : Token) (ls : List Lexeme) :
    Option (List α × List Lexeme) := series? item separator (ls.length + 1) ls

def choice? (ls : List Lexeme) : Option (Choice × List Lexeme) := do
  let (column, ls) ← column? ls
  let ls ← token? (word "=") ls
  let (id, ls) ← value? ls
  let ls ← token? (word "THEN") ls
  let (v, ls) ← value? ls
  return (⟨column, id, v⟩, ls)

def source? (ls : List Lexeme) : Option (Source × List Lexeme) :=
  match token? (word "CASE") ls with
  | none => (value? ls).map fun (v, ls) => (.value v, ls)
  | some ls => do
    let ls ← token? (word "WHEN") ls
    let (choices, ls) ← items? choice? (word "WHEN") ls
    let ls ← token? (word "ELSE") ls
    let (otherwise, ls) ← column? ls
    let ls ← token? (word "END") ls
    return (.choice choices otherwise, ls)

def set? (ls : List Lexeme) : Option ((Column × Source) × List Lexeme) := do
  let (column, ls) ← column? ls
  let ls ← token? (word "=") ls
  let (source, ls) ← source? ls
  return ((column, source), ls)

def keys? (ls : List Lexeme) : Option (List Value × List Lexeme) :=
  match token? (word "=") ls with
  | some ls => (value? ls).map fun (v, ls) => ([v], ls)
  | none => do
    let ls ← token? (word "IN") ls
    let ls ← token? (.mark '(') ls
    let (keys, ls) ← items? value? (.mark ',') ls
    let ls ← token? (.mark ')') ls
    return (keys, ls)

def update? (ls : List Lexeme) : Option Update := do
  let ls ← token? (word "UPDATE") ls
  let (table, ls) ← column? ls
  let ls ← token? (word "SET") ls
  let (sets, ls) ← items? set? (.mark ',') ls
  let ls ← token? (word "WHERE") ls
  let (key, ls) ← column? ls
  let (keys, ls) ← keys? ls
  if ls.isEmpty then return ⟨table, sets, key, keys⟩ else none

/-- The update that the tokens of a statement say with some parameters. -/
def updateOf? (params : List Value) (ts : List Token) : Option Update := (bind? params 0 ts).bind update?

def columnLexemes (c : Column) : List Lexeme := (dotted c).map .token

def series {α : Type} (write : α → List Lexeme) (separator : Token) (as : List α) : List Lexeme :=
  [Lexeme.token separator].intercalate (as.map write)

def valueLexemes (v : Value) : List Lexeme := [.value v]

def Choice.lexemes (c : Choice) : List Lexeme :=
  columnLexemes c.column ++ [.token (word "="), .value c.id, .token (word "THEN"), .value c.value]

def Source.lexemes : Source → List Lexeme
  | value v => [.value v]
  | choice choices otherwise =>
    .token (word "CASE") :: .token (word "WHEN") :: (series Choice.lexemes (word "WHEN") choices ++
      .token (word "ELSE") :: (columnLexemes otherwise ++ [.token (word "END")]))

def setLexemes (set : Column × Source) : List Lexeme :=
  columnLexemes set.1 ++ .token (word "=") :: set.2.lexemes

def keysLexemes : List Value → List Lexeme
  | [v] => [.token (word "="), .value v]
  | vs => .token (word "IN") :: .token (.mark '(') ::
    (series valueLexemes (.mark ',') vs ++ [.token (.mark ')')])

def Update.lexemes (u : Update) : List Lexeme :=
  .token (word "UPDATE") :: (columnLexemes u.table ++ .token (word "SET") ::
    (series setLexemes (.mark ',') u.sets ++ .token (word "WHERE") :: (columnLexemes u.key ++ keysLexemes u.keys)))

def Closed (rest : List Lexeme) : Prop := ∀ t ∈ rest.head?, t ≠ .token (.mark '.')

/-- What is written is read back, whatever stands behind it. -/
def ReadBack {α : Type} (read : List Lexeme → Option (α × List Lexeme)) (write : α → List Lexeme) (a : α) : Prop :=
  ∀ rest, read (write a ++ rest) = some (a, rest)

theorem closed_token {t : Token} (h : t ≠ .mark '.') (rest : List Lexeme) : Closed (.token t :: rest) :=
  fun _ first => Option.some.inj first ▸ fun same => h (Lexeme.token.inj same)

theorem token?_cons (t : Token) (rest : List Lexeme) : token? t (.token t :: rest) = some rest := if_pos rfl

theorem token?_other {t u : Token} (h : u ≠ t) (rest : List Lexeme) : token? t (.token u :: rest) = none := if_neg h

theorem value?_cons (v : Value) (rest : List Lexeme) : value? (.value v :: rest) = some (v, rest) := rfl

theorem column?_columnLexemes {c : Column} (some : c ≠ []) {rest : List Lexeme} (closed : Closed rest) :
    column? (columnLexemes c ++ rest) = .some (c, rest) := by
  induction c with
  | nil => exact absurd rfl some
  | cons p ps ih =>
    cases ps with
    | nil =>
      cases rest with
      | nil => simp [columnLexemes, dotted, column?, part?_token]
      | cons l rest =>
        have last : l ≠ .token (.mark '.') := closed l rfl
        simp [columnLexemes, dotted, column?, part?_token, last]
    | cons p' ps =>
      have behind := ih (List.cons_ne_nil p' ps)
      simp only [columnLexemes] at behind
      simp [columnLexemes, dotted, column?, part?_token, behind]

theorem length_le_series {α : Type} (write : α → List Lexeme) (separator : Token) (as : List α) :
    as.length ≤ (series write separator as).length + 1 := by
  induction as with
  | nil => exact Nat.zero_le _
  | cons a as ih =>
    cases as with
    | nil => exact Nat.le_add_left 1 _
    | cons b as =>
      simp only [series, List.map_cons, List.intercalate_cons_cons, List.length_append, List.length_cons,
        List.length_nil] at ih ⊢
      omega

theorem series?_series {α : Type} {read : List Lexeme → Option (α × List Lexeme)} {write : α → List Lexeme}
    {separator : Token} {as : List α} (some : as ≠ []) (back : ∀ a ∈ as, ReadBack read write a) {rest : List Lexeme}
    (last : token? separator rest = none) {n : Nat} (steps : as.length ≤ n) :
    series? read separator n (series write separator as ++ rest) = .some (as, rest) := by
  induction as generalizing n with
  | nil => exact absurd rfl some
  | cons a as ih =>
    obtain ⟨ha, has⟩ := List.forall_mem_cons.mp back
    obtain ⟨n, rfl⟩ := Nat.exists_eq_add_of_le' (Nat.le_trans (Nat.le_add_left 1 as.length) steps)
    cases as with
    | nil =>
      rw [series, List.map_singleton, List.intercalate_singleton, series?, ha]
      simp [last]
    | cons b as =>
      have behind := ih (List.cons_ne_nil b as) has (n := n) (Nat.le_of_succ_le_succ steps)
      rw [series] at behind
      rw [series, List.map_cons, List.map_cons, List.intercalate_cons_cons, ← List.map_cons, List.append_assoc,
        List.append_assoc, List.singleton_append, series?, ha]
      simp only [Option.pure_def, Option.bind_eq_bind, Option.bind_some, token?_cons, behind, Option.map_some]

theorem items?_series {α : Type} {read : List Lexeme → Option (α × List Lexeme)} {write : α → List Lexeme}
    {separator : Token} {as : List α} (some : as ≠ []) (back : ∀ a ∈ as, ReadBack read write a) {rest : List Lexeme}
    (last : token? separator rest = none) :
    items? read separator (series write separator as ++ rest) = .some (as, rest) := by
  refine series?_series some back last ?_
  have least := length_le_series write separator as
  rw [List.length_append]
  omega

theorem readBack_choice {c : Choice} (column : c.column ≠ []) : ReadBack choice? Choice.lexemes c := by
  intro rest
  have behind := column?_columnLexemes column (closed_token (t := word "=") (by decide)
    (.value c.id :: .token (word "THEN") :: .value c.value :: rest))
  rw [Choice.lexemes, List.append_assoc, choice?]
  simp only [List.cons_append, List.nil_append, behind]
  rfl

def Source.Full : Source → Prop
  | value _ => True
  | choice choices otherwise => choices ≠ [] ∧ (∀ c ∈ choices, c.column ≠ []) ∧ otherwise ≠ []

theorem readBack_source {s : Source} (full : s.Full) : ReadBack source? Source.lexemes s := by
  intro rest
  cases s with
  | value v => rfl
  | choice choices otherwise =>
    obtain ⟨some, columns, other⟩ := full
    have back : ∀ c ∈ choices, ReadBack choice? Choice.lexemes c := fun c hc => readBack_choice (columns c hc)
    have last : token? (word "WHEN") (.token (word "ELSE") :: (columnLexemes otherwise ++
        .token (word "END") :: rest)) = none := token?_other (by decide) _
    have behind := column?_columnLexemes other (closed_token (t := word "END") (by decide) rest)
    rw [Source.lexemes, List.cons_append, List.cons_append, List.append_assoc, List.cons_append, List.append_assoc,
      List.singleton_append, source?, token?_cons]
    simp [token?_cons, items?_series some back last, behind]

theorem readBack_set {set : Column × Source} (column : set.1 ≠ []) (full : set.2.Full) :
    ReadBack set? setLexemes set := by
  intro rest
  rw [setLexemes, List.append_assoc, List.cons_append, set?, column?_columnLexemes column (closed_token (by decide) _)]
  simp [token?_cons, readBack_source full rest]

theorem readBack_keys {vs : List Value} (some : vs ≠ []) : ReadBack keys? keysLexemes vs := by
  intro rest
  match vs with
  | [] => exact absurd rfl some
  | [v] => rfl
  | v :: w :: vs =>
    have back : ∀ x ∈ v :: w :: vs, ReadBack value? valueLexemes x := fun x _ => value?_cons x
    have last : token? (.mark ',') (.token (.mark ')') :: rest) = none := token?_other (by decide) _
    have list := items?_series some back last
    rw [keysLexemes, List.cons_append, List.cons_append, List.append_assoc, List.singleton_append, keys?,
      token?_other (by decide)]
    · simp [token?_cons, list]
    · nofun

structure Update.Full (u : Update) : Prop where
  table : u.table ≠ []
  sets : u.sets ≠ []
  columns : ∀ set ∈ u.sets, set.1 ≠ []
  sources : ∀ set ∈ u.sets, set.2.Full
  key : u.key ≠ []
  keys : u.keys ≠ []

theorem Update.Full.closed {u : Update} (full : u.Full) : Closed (keysLexemes u.keys) := by
  match h : u.keys with
  | [] => exact absurd h full.keys
  | [v] => exact closed_token (by decide) _
  | v :: w :: vs => exact closed_token (by decide) _

theorem update?_lexemes {u : Update} (full : u.Full) : update? u.lexemes = some u := by
  have back : ∀ set ∈ u.sets, ReadBack set? setLexemes set :=
    fun set h => readBack_set (full.columns set h) (full.sources set h)
  have last : token? (.mark ',') (.token (word "WHERE") :: (columnLexemes u.key ++ keysLexemes u.keys)) = none :=
    token?_other (by decide) _
  have keys := readBack_keys full.keys []
  rw [List.append_nil] at keys
  rw [Update.lexemes, update?, token?_cons]
  simp [column?_columnLexemes full.table (closed_token (t := word "SET") (by decide) _), token?_cons,
    items?_series full.sets back last, column?_columnLexemes full.key full.closed, keys]

end QueryGate.Reading
