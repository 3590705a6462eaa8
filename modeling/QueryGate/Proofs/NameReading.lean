import QueryGate.Sql.Dialect

/-! Names as statements have them: stars and texts between quotes, with dots between them. A reader takes exactly
these texts apart, since a quote inside a text is doubled and none follows the one that ends it. -/
namespace QueryGate.Identifier

def quotes : List Char := ['"', '\x60']

theorem quote_mem_quotes (d : Dialect) : d.quote ∈ quotes := by cases d <;> decide

/-- A component of a written name; the text is what stands between the quotes, before doubling. -/
inductive Component where
  | star
  | quoted (q : Char) (isQuote : q ∈ quotes) (text : List Char)

def Component.write : Component → List Char
  | star => ['*']
  | quoted q _ text => q :: (double q text ++ [q])

def writeName (cs : List Component) : List Char := ['.'].intercalate (cs.map Component.write)

def Enclosed (s : List Char) : Prop := ∃ cs, cs ≠ [] ∧ s = writeName cs

theorem writeName_singleton (c : Component) : writeName [c] = c.write := List.intercalate_singleton

theorem writeName_cons (c : Component) {cs : List Component} (h : cs ≠ []) :
    writeName (c :: cs) = c.write ++ '.' :: writeName cs := by
  have others : cs.map Component.write ≠ [] := fun none => h (List.map_eq_nil_iff.mp none)
  rw [writeName, List.map_cons, List.intercalate_cons_of_ne_nil others, List.append_assoc, List.singleton_append, writeName]

theorem writeName_append {as bs : List Component} (ha : as ≠ []) (hb : bs ≠ []) :
    writeName (as ++ bs) = writeName as ++ '.' :: writeName bs := by
  induction as with
  | nil => exact absurd rfl ha
  | cons a as ih =>
    cases as with
    | nil => rw [List.singleton_append, writeName_cons a hb, writeName_singleton]
    | cons next as =>
      have nonempty : next :: as ≠ [] := List.cons_ne_nil next as
      rw [List.cons_append, writeName_cons a (List.append_ne_nil_of_left_ne_nil nonempty bs), ih nonempty,
        writeName_cons a nonempty, List.append_assoc, List.cons_append]

theorem Enclosed.write (c : Component) : Enclosed c.write := ⟨[c], List.cons_ne_nil c [], (writeName_singleton c).symm⟩

theorem Enclosed.intercalate {pieces : List (List Char)} (nonempty : pieces ≠ []) (h : ∀ p ∈ pieces, Enclosed p) :
    Enclosed (['.'].intercalate pieces) := by
  induction pieces with
  | nil => exact absurd rfl nonempty
  | cons p rest ih =>
    obtain ⟨first, others⟩ := List.forall_mem_cons.mp h
    cases rest with
    | nil => rwa [List.intercalate_singleton]
    | cons next rest =>
      obtain ⟨as, ha, rfl⟩ := first
      obtain ⟨bs, hb, same⟩ := ih (List.cons_ne_nil next rest) others
      refine ⟨as ++ bs, List.append_ne_nil_of_left_ne_nil ha bs, ?_⟩
      rw [List.intercalate_cons_cons, same, writeName_append ha hb, List.append_assoc, List.singleton_append]

/-- Where a reader of names stands: in front of a component, inside one behind its quote and some text, or behind
what is a whole component unless a second quote follows. -/
inductive Place where
  | front
  | inside (q : Char) (isQuote : q ∈ quotes) (text : List Char)
  | behind (c : Component)

def readFrom : Place → List Char → Option (List Component)
  | .front, [] => none
  | .front, c :: rest =>
    if c = '*' then readFrom (.behind .star) rest
    else if isQuote : c ∈ quotes then readFrom (.inside c isQuote []) rest
    else none
  | .inside .., [] => none
  | .inside q isQuote text, c :: rest =>
    if c = q then readFrom (.behind (.quoted q isQuote text)) rest
    else readFrom (.inside q isQuote (text ++ [c])) rest
  | .behind component, [] => some [component]
  | .behind component, c :: rest =>
    if c = '.' then (readFrom .front rest).map (component :: ·)
    else
      match component with
      | .star => none
      | .quoted q isQuote text => if c = q then readFrom (.inside q isQuote (text ++ [q])) rest else none

def readName? (s : List Char) : Option (List Component) := readFrom .front s

def Component.text? (d : Dialect) : Component → Option (List Char)
  | star => some ['*']
  | quoted q _ text => if q = d.quote then some text else none

/-- The name that a written one stands for: its components without their quotes, the quotes inside no more doubled. -/
def unescape? (d : Dialect) (written : String) : Option String := do
  let components ← readName? written.toList
  let parts ← components.mapM (Component.text? d)
  return String.ofList (['.'].intercalate parts)

theorem readFrom_end (c : Component) : readFrom (.behind c) [] = some [c] := by cases c <;> rfl

theorem readFrom_dot (c : Component) (rest : List Char) :
    readFrom (.behind c) ('.' :: rest) = (readFrom .front rest).map (c :: ·) := by
  cases c <;> rfl

section Quote
variable {q : Char} (isQuote : q ∈ quotes)
include isQuote

theorem quote_ne_dot : q ≠ '.' := by
  rintro rfl
  exact absurd isQuote (by decide)

theorem quote_ne_star : q ≠ '*' := by
  rintro rfl
  exact absurd isQuote (by decide)

theorem readFrom_other {c : Char} (h : c ≠ q) (text rest : List Char) :
    readFrom (.inside q isQuote text) (c :: rest) = readFrom (.inside q isQuote (text ++ [c])) rest := by
  rw [readFrom, if_neg h]

theorem readFrom_quote (text rest : List Char) :
    readFrom (.inside q isQuote text) (q :: rest) = readFrom (.behind (.quoted q isQuote text)) rest := by
  rw [readFrom, if_pos rfl]

theorem readFrom_second (text rest : List Char) :
    readFrom (.behind (.quoted q isQuote text)) (q :: rest) = readFrom (.inside q isQuote (text ++ [q])) rest := by
  rw [readFrom, if_neg (quote_ne_dot isQuote)]
  exact if_pos rfl

theorem readFrom_double (start text rest : List Char) :
    readFrom (.inside q isQuote start) (double q text ++ rest) = readFrom (.inside q isQuote (start ++ text)) rest := by
  induction text generalizing start with
  | nil => rw [List.append_nil]; rfl
  | cons c text ih =>
    have cons : double q (c :: text) = (if c = q then [q, q] else [c]) ++ double q text := rfl
    rw [cons, List.append_assoc, List.append_cons start]
    by_cases same : c = q
    · rw [if_pos same, same, List.cons_append, List.cons_append, List.nil_append, readFrom_quote, readFrom_second]
      exact ih (start ++ [q])
    · rw [if_neg same, List.singleton_append, readFrom_other isQuote same]
      exact ih (start ++ [c])

end Quote

theorem readFrom_write (c : Component) (rest : List Char) :
    readFrom .front (c.write ++ rest) = readFrom (.behind c) rest := by
  cases c with
  | star => rfl
  | quoted q isQuote text =>
    rw [Component.write, List.cons_append, readFrom, if_neg (quote_ne_star isQuote), dif_pos isQuote,
      List.append_assoc, readFrom_double, List.nil_append, List.singleton_append, readFrom_quote]

theorem readName?_writeName {cs : List Component} (h : cs ≠ []) : readName? (writeName cs) = some cs := by
  induction cs with
  | nil => exact absurd rfl h
  | cons c cs ih =>
    cases cs with
    | nil =>
      have last := readFrom_write c []
      rwa [List.append_nil, readFrom_end, ← writeName_singleton] at last
    | cons next cs =>
      have nonempty : next :: cs ≠ [] := List.cons_ne_nil next cs
      have others : readFrom .front (writeName (next :: cs)) = some (next :: cs) := ih nonempty
      rw [readName?, writeName_cons c nonempty, readFrom_write, readFrom_dot, others]
      rfl

/-- What a reader has seen of the component at which it stands. -/
def Place.seen : Place → List Char
  | front => []
  | inside q _ text => q :: double q text
  | behind c => c.write

theorem double_append (q : Char) (s t : List Char) : double q (s ++ t) = double q s ++ double q t := List.flatMap_append

theorem seen_of_readFrom {place : Place} {s : List Char} {cs : List Component} (h : readFrom place s = some cs) :
    cs ≠ [] ∧ place.seen ++ s = writeName cs := by
  induction s generalizing place cs with
  | nil =>
    cases place with
    | front => exact absurd h nofun
    | inside => exact absurd h nofun
    | behind c =>
      rw [readFrom_end] at h
      obtain rfl := Option.some.inj h
      exact ⟨List.cons_ne_nil c [], by rw [List.append_nil, writeName_singleton, Place.seen]⟩
  | cons c s ih =>
    cases place with
    | front =>
      rw [readFrom] at h
      split at h
      next star => exact star ▸ ih h
      next =>
        split at h
        · exact ih h
        · exact absurd h nofun
    | inside q isQuote text =>
      by_cases closing : c = q
      · subst closing
        rw [readFrom_quote] at h
        simpa [Place.seen, Component.write] using ih h
      · rw [readFrom_other isQuote closing] at h
        simpa [Place.seen, double_append, double, closing] using ih h
    | behind component =>
      by_cases dot : c = '.'
      · subst dot
        rw [readFrom_dot] at h
        obtain ⟨others, hothers, rfl⟩ := Option.map_eq_some_iff.mp h
        obtain ⟨nonempty, rest⟩ := ih hothers
        exact ⟨List.cons_ne_nil component others, by rw [writeName_cons component nonempty, ← rest]; rfl⟩
      · cases component with
        | star =>
          rw [readFrom, if_neg dot] at h
          exact absurd h nofun
        | quoted q isQuote text =>
          by_cases second : c = q
          · subst second
            rw [readFrom_second] at h
            simpa [Place.seen, Component.write, double_append, double] using ih h
          · simp only [readFrom, if_neg dot, if_neg second] at h
            exact absurd h nofun

theorem readName?_eq_some {s : List Char} {cs : List Component} : readName? s = some cs ↔ cs ≠ [] ∧ s = writeName cs := by
  constructor
  · exact seen_of_readFrom
  · rintro ⟨nonempty, rfl⟩
    exact readName?_writeName nonempty

theorem isSome_readName?_iff {s : List Char} : (readName? s).isSome ↔ Enclosed s := by
  rw [Option.isSome_iff_exists]
  exact exists_congr fun _ => readName?_eq_some

instance (s : List Char) : Decidable (Enclosed s) := decidable_of_iff _ isSome_readName?_iff

end QueryGate.Identifier
