import Mathlib.Data.List.Forall2
import QueryGate.Validation.Danger

/-! A text is dangerous if it ends a statement or has one of some constructs in it, and for no other reason. Runs that
are taken whole make no difference to that. -/
namespace QueryGate.Danger

def Spells (word x : List Char) : Prop := List.Forall₂ (fun letter c => sameLetter letter c = true) word x

def AreBlank (x : List Char) : Prop := ∀ c ∈ x, Text.isBlank c = true

def AreDigits (x : List Char) : Prop := ∀ c ∈ x, Text.isDecimalDigit c = true

namespace Part

def Matches : Part → List Char → Prop
  | mark m, x => x = m
  | word w, x => Spells w x
  | blanks, x => AreBlank x
  | someBlanks, x => x ≠ [] ∧ AreBlank x
  | digits, x => x ≠ [] ∧ AreDigits x

def run? : Part → Option (Char → Bool)
  | mark _ => none
  | word _ => none
  | blanks => some Text.isBlank
  | someBlanks => some Text.isBlank
  | digits => some Text.isDecimalDigit

end Part

def Matches : List Part → List Char → Prop
  | [], x => x = []
  | p :: ps, x => ∃ y z, x = y ++ z ∧ p.Matches y ∧ Matches ps z

theorem beginsWith_cons (p : Part) (ps : List Part) (s : List Char) :
    beginsWith (p :: ps) s = true ↔ ∃ rest, p.after? s = some rest ∧ beginsWith ps rest = true := by
  have stuck : ∀ ps : List Part, ps.foldl (fun rest part => rest.bind part.after?) (none : Option (List Char)) = none := by
    intro ps
    induction ps with
    | nil => rfl
    | cons p ps ih => exact ih
  unfold beginsWith
  rw [List.foldl_cons, Option.bind_some]
  cases p.after? s with
  | none => simp [stuck]
  | some rest => simp

theorem after?_mark {m s rest : List Char} : (Part.mark m).after? s = some rest ↔ s = m ++ rest := by
  show (if m.isPrefixOf s then some (s.drop m.length) else none) = some rest ↔ _
  split
  next found =>
    obtain ⟨t, rfl⟩ := List.isPrefixOf_iff_prefix.mp found
    rw [List.drop_left, Option.some.injEq, List.append_right_inj]
  next missing =>
    refine ⟨nofun, ?_⟩
    rintro rfl
    exact absurd (List.isPrefixOf_iff_prefix.mpr (List.prefix_append m rest)) missing

theorem after?_word {w s rest : List Char} : (Part.word w).after? s = some rest ↔ ∃ x, s = x ++ rest ∧ Spells w x := by
  show afterWord? w s = some rest ↔ _
  unfold Spells
  induction w generalizing s with
  | nil => simp only [afterWord?, Option.some.injEq, List.forall₂_nil_left_iff, exists_eq_right, List.nil_append]
  | cons letter w ih =>
    cases s with
    | nil =>
      refine ⟨nofun, ?_⟩
      rintro ⟨x, empty, spells⟩
      obtain ⟨c, y, -, -, rfl⟩ := List.forall₂_cons_left_iff.mp spells
      exact absurd empty nofun
    | cons c s =>
      rw [afterWord?]
      split
      next same =>
        rw [ih]
        constructor
        · rintro ⟨x, rfl, spells⟩
          exact ⟨c :: x, rfl, .cons same spells⟩
        · rintro ⟨x, whole, spells⟩
          obtain ⟨b, y, -, others, rfl⟩ := List.forall₂_cons_left_iff.mp spells
          exact ⟨y, (List.cons.inj whole).2, others⟩
      next other =>
        refine ⟨nofun, ?_⟩
        rintro ⟨x, whole, spells⟩
        obtain ⟨b, y, same, -, rfl⟩ := List.forall₂_cons_left_iff.mp spells
        rw [(List.cons.inj whole).1] at other
        exact absurd same other

def Stops (run : Char → Bool) (ps : List Part) : Prop :=
  ∀ s, beginsWith ps s = true → ∃ c rest, s = c :: rest ∧ run c = false

variable {run : Char → Bool} {ps : List Part}

theorem stops_mark {c : Char} (m : List Char) (other : run c = false) : Stops run (.mark (c :: m) :: ps) := by
  intro s found
  obtain ⟨rest, after, -⟩ := (beginsWith_cons _ _ _).mp found
  exact ⟨c, m ++ rest, after?_mark.mp after, other⟩

theorem stops_word {letter : Char} (w : List Char) (other : ∀ c, sameLetter letter c = true → run c = false) :
    Stops run (.word (letter :: w) :: ps) := by
  intro s found
  obtain ⟨rest, after, -⟩ := (beginsWith_cons _ _ _).mp found
  obtain ⟨x, rfl, spells⟩ := after?_word.mp after
  obtain ⟨c, y, same, -, rfl⟩ := List.forall₂_cons_left_iff.mp spells
  exact ⟨c, y ++ rest, rfl, other c same⟩

theorem dropWhile_stopped (stops : Stops run ps) {y : List Char} (hy : ∀ c ∈ y, run c = true) {rest : List Char}
    (found : beginsWith ps rest = true) : (y ++ rest).dropWhile run = rest := by
  obtain ⟨c, tail, rfl, stop⟩ := stops rest found
  rw [List.dropWhile_append_of_pos hy, List.dropWhile_cons_of_neg (by rw [stop]; exact Bool.false_ne_true)]

/-- A run that is taken whole leaves what any shorter run in front of the pattern would leave. -/
theorem run_then (stops : Stops run ps) (s : List Char) :
    beginsWith ps (s.dropWhile run) = true ↔
      ∃ y rest, s = y ++ rest ∧ (∀ c ∈ y, run c = true) ∧ beginsWith ps rest = true := by
  constructor
  · intro found
    exact ⟨s.takeWhile run, s.dropWhile run, List.takeWhile_append_dropWhile.symm,
      List.all_eq_true.mp List.all_takeWhile, found⟩
  · rintro ⟨y, rest, rfl, hy, found⟩
    rwa [dropWhile_stopped stops hy found]

theorem someRun_then (stops : Stops run ps) (s : List Char) :
    (∃ rest, (if (s.head?.map run).getD false then some (s.dropWhile run) else none) = some rest ∧
        beginsWith ps rest = true) ↔
      ∃ y rest, s = y ++ rest ∧ (y ≠ [] ∧ ∀ c ∈ y, run c = true) ∧ beginsWith ps rest = true := by
  have begun : (∃ rest, (if (s.head?.map run).getD false then some (s.dropWhile run) else none) = some rest ∧
      beginsWith ps rest = true) ↔
      (s.head?.map run).getD false = true ∧ beginsWith ps (s.dropWhile run) = true := by
    cases (s.head?.map run).getD false <;> simp
  rw [begun, run_then stops]
  constructor
  · rintro ⟨first, y, rest, rfl, hy, found⟩
    refine ⟨y, rest, rfl, ⟨?_, hy⟩, found⟩
    rintro rfl
    obtain ⟨c, tail, rfl, stop⟩ := stops rest found
    exact absurd (stop.symm.trans first) Bool.false_ne_true
  · rintro ⟨y, rest, rfl, ⟨some, hy⟩, found⟩
    refine ⟨?_, y, rest, rfl, hy, found⟩
    obtain ⟨c, tail, rfl⟩ := List.exists_cons_of_ne_nil some
    exact hy c List.mem_cons_self

theorem after?_then {p : Part} (stops : ∀ run ∈ p.run?, Stops run ps) (s : List Char) :
    (∃ rest, p.after? s = some rest ∧ beginsWith ps rest = true) ↔
      ∃ y rest, s = y ++ rest ∧ p.Matches y ∧ beginsWith ps rest = true := by
  cases p with
  | mark m =>
    simp only [after?_mark]
    constructor
    · rintro ⟨rest, whole, found⟩
      exact ⟨m, rest, whole, rfl, found⟩
    · rintro ⟨y, rest, whole, rfl, found⟩
      exact ⟨rest, whole, found⟩
  | word w =>
    simp only [after?_word]
    constructor
    · rintro ⟨rest, ⟨y, whole, spells⟩, found⟩
      exact ⟨y, rest, whole, spells, found⟩
    · rintro ⟨y, rest, whole, spells, found⟩
      exact ⟨rest, ⟨y, whole, spells⟩, found⟩
  | blanks =>
    refine Iff.trans ?_ (run_then (stops _ rfl) s)
    simp only [Part.after?, Option.some.injEq, exists_eq_left']
  | someBlanks => exact someRun_then (stops _ rfl) s
  | digits => exact someRun_then (stops _ rfl) s

/-- A pattern in which nothing that follows a run begins with one of its characters. -/
def IsExact : List Part → Prop
  | [] => True
  | p :: ps => (∀ run ∈ p.run?, Stops run ps) ∧ IsExact ps

theorem beginsWith_iff {ps : List Part} (exact : IsExact ps) (s : List Char) :
    beginsWith ps s = true ↔ ∃ x, x <+: s ∧ Matches ps x := by
  induction ps generalizing s with
  | nil =>
    refine ⟨fun _ => ⟨[], List.nil_prefix, rfl⟩, fun _ => rfl⟩
  | cons p ps ih =>
    rw [beginsWith_cons, after?_then exact.1]
    simp only [ih exact.2]
    constructor
    · rintro ⟨y, rest, rfl, own, x, ⟨t, rfl⟩, others⟩
      exact ⟨y ++ x, ⟨t, List.append_assoc y x t⟩, y, x, rfl, own, others⟩
    · rintro ⟨x, ⟨t, rfl⟩, y, z, rfl, own, others⟩
      exact ⟨y, z ++ t, List.append_assoc y z t, own, z, List.prefix_append z t, others⟩

theorem occurs_iff {ps : List Part} (exact : IsExact ps) (s : List Char) :
    occurs ps s = true ↔ ∃ x, x <:+: s ∧ Matches ps x := by
  induction s with
  | nil =>
    rw [occurs, beginsWith_iff exact]
    simp only [List.prefix_nil, List.infix_nil]
  | cons c s ih =>
    rw [occurs, Bool.or_eq_true, ih, beginsWith_iff exact]
    simp only [List.infix_cons_iff, or_and_right, exists_or]

theorem letter_of_sameLetter {letter c : Char} (low : 'a' ≤ letter ∧ letter ≤ 'z') (h : sameLetter letter c = true) :
    c.isAlpha = true ∨ c ∈ ['\u017F', '\u0131', '\u0130', '\u212A'] := by
  simp only [sameLetter, Bool.or_eq_true, Bool.and_eq_true, beq_iff_eq] at h
  rcases h with ((rfl | ⟨-, rfl⟩) | ⟨-, rfl | rfl⟩) | ⟨-, rfl⟩
  · left
    unfold Char.isAlpha Char.isUpper Char.isLower
    simp only [Bool.or_eq_true, Bool.and_eq_true, decide_eq_true_eq]
    unfold Char.toLower at low
    split at low
    · exact .inl ‹_›
    · exact .inr low
  all_goals simp

theorem isBlank_of_isAlpha {c : Char} (h : c.isAlpha = true) : Text.isBlank c = false := by
  have code : c.toNat = c.val.toNat := rfl
  unfold Char.isAlpha Char.isUpper Char.isLower at h
  simp [Text.isBlank, Text.blankRanges, Text.Ranges.has, UInt32.le_iff_toNat_le] at h ⊢
  omega

theorem isBlank_of_sameLetter {letter c : Char} (low : 'a' ≤ letter ∧ letter ≤ 'z') (h : sameLetter letter c = true) :
    Text.isBlank c = false := by
  rcases letter_of_sameLetter low h with alpha | special
  · exact isBlank_of_isAlpha alpha
  · simp only [List.mem_cons, List.not_mem_nil, or_false] at special
    rcases special with rfl | rfl | rfl | rfl <;> decide

theorem isExact_of_mem {ps : List Part} (h : ps ∈ patterns) : IsExact ps := by
  have word (letter : Char) (w : List Char) (low : 'a' ≤ letter ∧ letter ≤ 'z') (ps : List Part) :
      Stops Text.isBlank (.word (letter :: w) :: ps) := stops_word w fun c => isBlank_of_sameLetter low
  have pair (first : List Char) (letter : Char) (w : List Char) (low : 'a' ≤ letter ∧ letter ≤ 'z') :
      IsExact [.word first, .someBlanks, .word (letter :: w)] :=
    ⟨nofun, fun run hr => Option.some.inj hr ▸ word letter w low [], nofun, trivial⟩
  have next (letter : Char) (w : List Char) (low : 'a' ≤ letter ∧ letter ≤ 'z') :
      IsExact [.mark [';'], .blanks, .word (letter :: w)] :=
    ⟨nofun, fun run hr => Option.some.inj hr ▸ word letter w low [], nofun, trivial⟩
  simp only [patterns, wordPair, List.mem_cons, List.not_mem_nil, or_false] at h
  rcases h with rfl | rfl | rfl | rfl | rfl | rfl | rfl | rfl | rfl | rfl
  · exact ⟨nofun, trivial⟩
  · exact ⟨nofun, trivial⟩
  · exact ⟨nofun, trivial⟩
  · refine ⟨nofun, fun run hr => Option.some.inj hr ▸ word 'o' _ (by decide) _, nofun, ?_⟩
    refine ⟨fun run hr => Option.some.inj hr ▸ stops_mark [] (by decide), nofun, ?_⟩
    exact ⟨fun run hr => Option.some.inj hr ▸ stops_mark [] (by decide), nofun, trivial⟩
  · exact pair _ 's' _ (by decide)
  · exact pair _ 'f' _ (by decide)
  · exact pair _ 't' _ (by decide)
  · exact pair _ 'f' _ (by decide)
  · exact next 'd' _ (by decide)
  · exact next 'd' _ (by decide)

def Separated (first second : String) (more : List Char → Prop) (x : List Char) : Prop :=
  ∃ a gap other b, x = a ++ gap ++ other ++ b ∧ Spells first.toList a ∧ gap ≠ [] ∧ AreBlank gap ∧ more other ∧
    Spells second.toList b

/-- The constructs that make a text dangerous. What may stand between `SELECT` and `FROM`, behind the white space, is
given by `between`. -/
inductive Construct (between : List Char → Prop) : List Char → Prop
  | comment : Construct between "--".toList
  | opening : Construct between "/*".toList
  | closing : Construct between "*/".toList
  | tautology {left or right digits : List Char} (hl : AreBlank left) (ho : Spells "or".toList or) (hr : AreBlank right)
      (some : digits ≠ []) (hd : AreDigits digits) :
      Construct between ('\'' :: (left ++ or ++ right ++ '\'' :: (digits ++ ['\''])))
  | union {x : List Char} (h : Separated "union" "select" (· = []) x) : Construct between x
  | drop {x : List Char} (h : Separated "drop" "table" (· = []) x) : Construct between x
  | delete {x : List Char} (h : Separated "delete" "from" (· = []) x) : Construct between x
  | select {x : List Char} (h : Separated "select" "from" between x) : Construct between x
  | another {word : String} {gap a : List Char} (hw : word ∈ ["drop", "delete"]) (hg : AreBlank gap)
      (ha : Spells word.toList a) : Construct between (';' :: (gap ++ a))

/-- A text that ends a statement, or has a construct in it. -/
def IsHarmful (between : List Char → Prop) (text : List Char) : Prop :=
  (∃ front gap, text = front ++ ';' :: gap ∧ AreBlank gap) ∨ ∃ x, x <:+: text ∧ Construct between x

theorem matches_mark (m x : List Char) : Matches [.mark m] x ↔ x = m := by
  simp [Matches, Part.Matches]

theorem matches_wordPair (first second : String) (x : List Char) :
    Matches (wordPair first second) x ↔ Separated first second (· = []) x := by
  unfold Separated wordPair
  simp only [Matches, Part.Matches]
  constructor
  · rintro ⟨a, _, rfl, ha, gap, _, rfl, ⟨some, hg⟩, b, _, rfl, hb, rfl⟩
    exact ⟨a, gap, [], b, by simp, ha, some, hg, rfl, hb⟩
  · rintro ⟨a, gap, _, b, rfl, ha, some, hg, rfl, hb⟩
    exact ⟨a, gap ++ b, by simp, ha, gap, b, rfl, ⟨some, hg⟩, b, [], by simp, hb, rfl⟩

theorem matches_another (word : String) (x : List Char) :
    Matches [.mark [';'], .blanks, .word word.toList] x ↔
      ∃ gap a, x = ';' :: (gap ++ a) ∧ AreBlank gap ∧ Spells word.toList a := by
  simp only [Matches, Part.Matches]
  constructor
  · rintro ⟨_, _, rfl, rfl, gap, _, rfl, hg, a, _, rfl, ha, rfl⟩
    exact ⟨gap, a, by simp, hg, ha⟩
  · rintro ⟨gap, a, rfl, hg, ha⟩
    exact ⟨[';'], gap ++ a, rfl, rfl, gap, a, rfl, hg, a, [], by simp, ha, rfl⟩

theorem matches_tautology (x : List Char) :
    Matches [.mark ['\''], .blanks, .word ['o', 'r'], .blanks, .mark ['\''], .digits, .mark ['\'']] x ↔
      ∃ left or right digits, x = '\'' :: (left ++ or ++ right ++ '\'' :: (digits ++ ['\''])) ∧ AreBlank left ∧
        Spells "or".toList or ∧ AreBlank right ∧ digits ≠ [] ∧ AreDigits digits := by
  simp only [Matches, Part.Matches]
  constructor
  · rintro ⟨_, _, rfl, rfl, left, _, rfl, hl, or, _, rfl, ho, right, _, rfl, hr, _, _, rfl, rfl, digits, _, rfl, ⟨some, hd⟩,
      _, _, rfl, rfl, rfl⟩
    exact ⟨left, or, right, digits, by simp, hl, ho, hr, some, hd⟩
  · rintro ⟨left, or, right, digits, rfl, hl, ho, hr, some, hd⟩
    exact ⟨['\''], _, rfl, rfl, left, or ++ (right ++ '\'' :: (digits ++ ['\''])), by simp, hl, or, _, rfl, ho, right, _, rfl, hr,
      ['\''], _, rfl, rfl, digits, _, rfl, ⟨some, hd⟩, ['\''], [], rfl, rfl, rfl⟩

theorem Construct.matches {x : List Char} (h : Construct (· = []) x) : ∃ ps ∈ patterns, Matches ps x := by
  cases h with
  | comment => exact ⟨_, by simp [patterns], (matches_mark ['-', '-'] _).mpr rfl⟩
  | opening => exact ⟨_, by simp [patterns], (matches_mark ['/', '*'] _).mpr rfl⟩
  | closing => exact ⟨_, by simp [patterns], (matches_mark ['*', '/'] _).mpr rfl⟩
  | tautology hl ho hr some hd =>
    exact ⟨_, by simp [patterns], (matches_tautology _).mpr ⟨_, _, _, _, rfl, hl, ho, hr, some, hd⟩⟩
  | union h => exact ⟨_, by simp [patterns], (matches_wordPair "union" "select" _).mpr h⟩
  | drop h => exact ⟨_, by simp [patterns], (matches_wordPair "drop" "table" _).mpr h⟩
  | delete h => exact ⟨_, by simp [patterns], (matches_wordPair "delete" "from" _).mpr h⟩
  | select h => exact ⟨_, by simp [patterns], (matches_wordPair "select" "from" _).mpr h⟩
  | another hw hg ha =>
    simp only [List.mem_cons, List.not_mem_nil, or_false] at hw
    rcases hw with rfl | rfl
    · exact ⟨_, by simp [patterns], (matches_another "drop" _).mpr ⟨_, _, rfl, hg, ha⟩⟩
    · exact ⟨_, by simp [patterns], (matches_another "delete" _).mpr ⟨_, _, rfl, hg, ha⟩⟩

theorem construct_iff (x : List Char) : Construct (· = []) x ↔ ∃ ps ∈ patterns, Matches ps x := by
  refine ⟨Construct.matches, ?_⟩
  simp only [patterns, List.mem_cons, List.not_mem_nil, or_false, exists_eq_or_imp, exists_eq_left, matches_mark,
    matches_wordPair, matches_another, matches_tautology]
  rintro (rfl | rfl | rfl | ⟨left, or, right, digits, rfl, hl, ho, hr, some, hd⟩ | h | h | h | h |
    ⟨gap, a, rfl, hg, ha⟩ | ⟨gap, a, rfl, hg, ha⟩)
  · exact .comment
  · exact .opening
  · exact .closing
  · exact .tautology hl ho hr some hd
  · exact .union h
  · exact .select h
  · exact .drop h
  · exact .delete h
  · exact .another (by decide) hg ha
  · exact .another (by decide) hg ha

theorem Construct.imp {between between' : List Char → Prop} (weaker : ∀ other, between other → between' other)
    {x : List Char} (h : Construct between x) : Construct between' x := by
  cases h with
  | comment => exact .comment
  | opening => exact .opening
  | closing => exact .closing
  | tautology hl ho hr some hd => exact .tautology hl ho hr some hd
  | union h => exact .union h
  | drop h => exact .drop h
  | delete h => exact .delete h
  | another hw hg ha => exact .another hw hg ha
  | select h =>
    obtain ⟨a, gap, other, b, rfl, ha, some, hg, allowed, hb⟩ := h
    exact .select ⟨a, gap, other, b, rfl, ha, some, hg, weaker other allowed, hb⟩

theorem Construct.narrow {between : List Char → Prop} {x : List Char} (h : Construct between x) :
    Construct (· = []) x ∨ Separated "select" "from" between x := by
  cases h with
  | comment => exact .inl .comment
  | opening => exact .inl .opening
  | closing => exact .inl .closing
  | tautology hl ho hr some hd => exact .inl (.tautology hl ho hr some hd)
  | union h => exact .inl (.union h)
  | drop h => exact .inl (.drop h)
  | delete h => exact .inl (.delete h)
  | another hw hg ha => exact .inl (.another hw hg ha)
  | select h => exact .inr h

theorem endsStatement_iff (text : List Char) :
    endsStatement text = true ↔ ∃ front gap, text = front ++ ';' :: gap ∧ AreBlank gap := by
  unfold endsStatement
  rw [beq_iff_eq]
  constructor
  · intro h
    obtain ⟨tail, rest⟩ := List.head?_eq_some_iff.mp h
    refine ⟨tail.reverse, (text.reverse.takeWhile Text.isBlank).reverse, ?_, ?_⟩
    · have whole := List.takeWhile_append_dropWhile (p := Text.isBlank) (l := text.reverse)
      rw [rest] at whole
      have back := congrArg List.reverse whole
      simpa using back.symm
    · intro c hc
      exact List.all_eq_true.mp List.all_takeWhile c (List.mem_reverse.mp hc)
  · rintro ⟨front, gap, rfl, hg⟩
    rw [List.reverse_append, List.reverse_cons, List.append_assoc,
      List.dropWhile_append_of_pos fun c hc => hg c (List.mem_reverse.mp hc)]
    rfl

theorem isDangerous_iff_isHarmful (text : String) : isDangerous text = true ↔ IsHarmful (· = []) text.toList := by
  unfold isDangerous IsHarmful
  rw [Bool.or_eq_true, endsStatement_iff, List.any_eq_true]
  refine or_congr_right ?_
  constructor
  · rintro ⟨ps, hps, found⟩
    obtain ⟨x, inside, matched⟩ := (occurs_iff (isExact_of_mem hps) _).mp found
    exact ⟨x, inside, (construct_iff x).mpr ⟨ps, hps, matched⟩⟩
  · rintro ⟨x, inside, construct⟩
    obtain ⟨ps, hps, matched⟩ := (construct_iff x).mp construct
    exact ⟨ps, hps, (occurs_iff (isExact_of_mem hps) _).mpr ⟨x, inside, matched⟩⟩

theorem IsHarmful.narrow {between : List Char → Prop} {text : List Char} (h : IsHarmful between text) :
    IsHarmful (· = []) text ∨ ∃ x, x <:+: text ∧ Separated "select" "from" between x := by
  rcases h with ends | ⟨x, inside, construct⟩
  · exact .inl (.inl ends)
  · rcases construct.narrow with narrow | selection
    · exact .inl (.inr ⟨x, inside, narrow⟩)
    · exact .inr ⟨x, inside, selection⟩

/-- A text without any of the constructs is not dangerous, and one with any of them is, unless it is a `SELECT` that
has more than white space in front of its `FROM`. -/
theorem isDangerous_iff (text : String) :
    (isDangerous text = true ↔ IsHarmful (· = []) text.toList) ∧
      (IsHarmful (fun _ => True) text.toList ↔
        isDangerous text = true ∨ ∃ x, x <:+: text.toList ∧ Separated "select" "from" (fun _ => True) x) := by
  refine ⟨isDangerous_iff_isHarmful text, ?_⟩
  rw [isDangerous_iff_isHarmful]
  constructor
  · exact IsHarmful.narrow
  · rintro ((ends | ⟨x, inside, construct⟩) | ⟨x, inside, selection⟩)
    · exact .inl ends
    · exact .inr ⟨x, inside, construct.imp fun _ _ => trivial⟩
    · exact .inr ⟨x, inside, .select selection⟩

theorem wholeTable_harmless :
    IsHarmful (fun _ => True) "SELECT * FROM users".toList ∧ isDangerous "SELECT * FROM users" = false := by
  have blank : AreBlank [' '] := List.forall_mem_singleton.mpr rfl
  have select : Spells "select".toList "SELECT".toList := by
    unfold Spells
    decide
  have source : Spells "from".toList "FROM".toList := by
    unfold Spells
    decide
  have apart : Separated "select" "from" (fun _ => True) "SELECT * FROM".toList :=
    ⟨_, [' '], "* ".toList, _, rfl, select, List.cons_ne_nil _ _, blank, trivial, source⟩
  exact ⟨.inr ⟨_, ⟨[], " users".toList, rfl⟩, .select apart⟩, by decide +kernel⟩

end QueryGate.Danger
