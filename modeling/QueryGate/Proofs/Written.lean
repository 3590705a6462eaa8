import Mathlib.Data.List.Forall2
import QueryGate.Proofs.Numbering
import QueryGate.Proofs.UpdateReading

/-! Drafts and what is read from them: the tokens of their pieces, with the values of the marks in place of these.
Where no name has a quote, they are the tokens of the text as well. -/
namespace QueryGate
open Reading

def wordTokens (s : String) : List Token := (lex '"' none s.toList).getD []

def Piece.tokens (d : Dialect) : Piece → List Token
  | word s => wordTokens s
  | name s => dotted (partsOf s)
  | marker index => markTokens (d.marker index).toList

def Draft.tokens (d : Dialect) (x : Draft) : List Token := x.pieces.flatMap (Piece.tokens d)

def fill : List Piece → List Value → List Lexeme
  | [], _ => []
  | .word s :: ps, vs => (wordTokens s).map .token ++ fill ps vs
  | .name s :: ps, vs => columnLexemes (partsOf s) ++ fill ps vs
  | .marker _ :: ps, v :: vs => .value v :: fill ps vs
  | .marker _ :: ps, [] => fill ps []

def Unmarked (s : String) : Prop := ∀ t ∈ wordTokens s, place? 0 t = none

instance (s : String) : Decidable (Unmarked s) := inferInstanceAs (Decidable (∀ _ ∈ _, _))

theorem place?_eq_none {t : Token} (h : place? 0 t = none) (k : Nat) : place? k t = none := by
  unfold place? at h ⊢
  split at h
  · exact absurd h nofun
  · exact h
  · rfl

theorem place?_mark (d : Dialect) (k : Nat) :
    ∃ t, markTokens (d.marker ((k : Int) + 1)).toList = [t] ∧ place? k t = some k := by
  by_cases h : d = .postgres
  · subst h
    have digits : ∀ c ∈ (toString ((k + 1 : Nat) : Int)).toList, c.isDigit = true :=
      fun c hc => Numeral.digit_of_mem_natural hc
    refine ⟨.word ('$' :: (toString ((k + 1 : Nat) : Int)).toList), ?_, ?_⟩
    · have other : '$' :: (toString ((k + 1 : Nat) : Int)).toList ≠ ['?'] := by simp
      rw [← Int.natCast_succ, marker_dollar, markTokens, if_neg other]
    · rw [place?, if_pos (List.all_eq_true.mpr digits), Numeral.natural_toList, Nat.ofDigitChars_ten_toDigits]
  · exact ⟨.mark '?', by rw [marker_question h, markTokens, if_pos rfl], rfl⟩

theorem bind?_unplaced {ts : List Token} (h : ∀ t ∈ ts, place? 0 t = none) (params : List Value) (k : Nat)
    (rest : List Token) : bind? params k (ts ++ rest) = (bind? params k rest).map (ts.map .token ++ ·) := by
  induction ts with
  | nil => exact Option.map_id'.symm
  | cons t ts ih =>
    obtain ⟨ht, hts⟩ := List.forall_mem_cons.mp h
    rw [List.cons_append, bind?, place?_eq_none ht k, ih hts, Option.map_map]
    rfl

theorem place?_dotted (ps : List Part) : ∀ t ∈ dotted ps, place? 0 t = none := by
  induction ps with
  | nil => exact List.forall_mem_nil _
  | cons p ps ih =>
    have own : place? 0 p.token = none := by cases p <;> rfl
    cases ps with
    | nil => exact List.forall_mem_singleton.mpr own
    | cons p' ps => exact List.forall_mem_cons.mpr ⟨own, List.forall_mem_cons.mpr ⟨rfl, ih⟩⟩

theorem bind?_tokens (d : Dialect) {ps : List Piece} (words : ∀ s, .word s ∈ ps → Unmarked s) (before vs : List Value)
    (numbered : ps.filterMap Piece.index? = following before.length vs.length) :
    bind? (before ++ vs) before.length (ps.flatMap (Piece.tokens d)) = some (fill ps vs) := by
  induction ps generalizing before vs with
  | nil => rfl
  | cons p ps ih =>
    have rest : ∀ s, .word s ∈ ps → Unmarked s := fun s h => words s (List.mem_cons_of_mem p h)
    rw [List.flatMap_cons]
    cases p with
    | word s =>
      rw [Piece.tokens, bind?_unplaced (words s List.mem_cons_self), ih rest before vs numbered]
      rfl
    | name s =>
      rw [Piece.tokens, bind?_unplaced (place?_dotted _), ih rest before vs numbered]
      rfl
    | marker index =>
      cases vs with
      | nil => exact absurd numbered nofun
      | cons v vs =>
        -- the value of this mark is the first behind those that came before
        obtain ⟨first, others⟩ := List.cons_eq_cons.mp numbered
        obtain ⟨t, tokens, place⟩ := place?_mark d before.length
        have behind := ih rest (before ++ [v]) vs (by
          rw [List.length_append, List.length_singleton]
          exact others)
        rw [List.append_assoc, List.singleton_append, List.length_append, List.length_singleton] at behind
        rw [Piece.tokens, first, tokens, List.singleton_append, bind?, place]
        simp [behind, fill]

namespace Reading

def Opens (w : String) (ts : List Token) : Prop :=
  ∀ (d : Dialect) rest, lex d.quote none (w.toList ++ rest) = (lex d.quote none rest).map (ts ++ ·)

structure Spaces (w : String) (ts : List Token) : Prop where
  opens : Opens w ts
  breaks : ∀ rest, Breaks (w.toList ++ rest)

theorem Opens.tokens {w : String} {ts : List Token} (h : Opens w ts) : wordTokens w = ts := by
  have own := h .sqlite []
  rw [List.append_nil] at own
  have text : lex '"' none w.toList = some ts := own.trans (congrArg some (List.append_nil ts))
  rw [wordTokens, text, Option.getD_some]

theorem opens_words {w : String} (ws : List (List Char)) (some : ws ≠ []) (runs : ∀ v ∈ ws, isRun v)
    (text : w.toList = [' '].intercalate ws ++ [' ']) : Opens w (ws.map .word) := by
  intro d rest
  rw [text, List.append_assoc, List.singleton_append, Lexes.words some runs _ (breaks_blank rest), lex_blank]

theorem spaces_words {w : String} (ws : List (List Char)) (some : ws ≠ []) (runs : ∀ v ∈ ws, isRun v)
    (text : w.toList = ' ' :: ([' '].intercalate ws ++ [' '])) : Spaces w (ws.map .word) := by
  refine ⟨fun d rest => ?_, fun rest => text ▸ breaks_blank _⟩
  rw [text, List.cons_append, List.append_assoc, List.singleton_append, lex_blank,
    Lexes.words some runs _ (breaks_blank rest), lex_blank]

theorem spaces_blank : Spaces " " [] :=
  ⟨fun d rest => (lex_blank d rest).trans Option.map_id'.symm, breaks_blank⟩

theorem spaces_comma : Spaces ", " [.mark ','] := by
  refine ⟨fun d rest => ?_, fun rest => breaks_cons (by decide) _⟩
  have comma := lex_mark d (c := ',') (by cases d <;> decide) (by decide) (by decide) (' ' :: rest)
  rw [lex_blank] at comma
  exact comma

theorem Lexes.around {d : Dialect} {w : String} {s t : List Char} {ts us vs : List Token} (hs : Lexes d s ts)
    (hw : Spaces w us) (ht : Lexes d t vs) : Lexes d (s ++ w.toList ++ t) (ts ++ us ++ vs) := by
  intro rest hr
  rw [List.append_assoc, List.append_assoc, hs _ (hw.breaks _), hw.opens, ht rest hr, Option.map_map, Option.map_map]
  congr 1
  funext more
  simp only [Function.comp_apply, List.append_assoc]

theorem Lexes.behind {d : Dialect} {w : String} {t : List Char} {us vs : List Token} (hw : Opens w us)
    (ht : Lexes d t vs) : Lexes d (w.toList ++ t) (us ++ vs) := by
  intro rest hr
  rw [List.append_assoc, hw, ht rest hr, Option.map_map]
  congr 1
  funext more
  simp only [Function.comp_apply, List.append_assoc]

theorem dotted_append {ps qs : List Part} (hp : ps ≠ []) (hq : qs ≠ []) :
    dotted (ps ++ qs) = dotted ps ++ .mark '.' :: dotted qs := by
  induction ps with
  | nil => exact absurd rfl hp
  | cons p ps ih =>
    cases ps with
    | nil =>
      cases qs with
      | nil => exact absurd rfl hq
      | cons q qs => rfl
    | cons p' ps => exact congrArg (fun ts => p.token :: .mark '.' :: ts) (ih (List.cons_ne_nil p' ps))

end Reading

namespace Draft

def IsPlain (x : Draft) : Prop := ∀ s, .name s ∈ x.pieces → Identifier.IsPlain s.toList

theorem isPlain_append {x y : Draft} : (x ++ y).IsPlain ↔ x.IsPlain ∧ y.IsPlain := by
  simp only [IsPlain, pieces_append, List.mem_append, or_imp, forall_and]

@[simp] theorem tokens_append (d : Dialect) (x y : Draft) : (x ++ y).tokens d = x.tokens d ++ y.tokens d :=
  List.flatMap_append

@[simp] theorem tokens_word (d : Dialect) (s : String) : (word s).tokens d = wordTokens s := List.flatMap_singleton _ _

@[simp] theorem tokens_name (d : Dialect) (s : String) : (name s).tokens d = dotted (partsOf s) :=
  List.flatMap_singleton _ _

@[simp] theorem tokens_mark (d : Dialect) (i : Int) (vs : List Value) :
    (Draft.mk [.marker i] vs).tokens d = markTokens (d.marker i).toList := List.flatMap_singleton _ _

/-- A draft is written as some lexemes: its marks have its parameters, and its text has its tokens. -/
structure Writes (x : Draft) (ls : List Lexeme) : Prop where
  fills : ∀ ps vs, fill (x.pieces ++ ps) (x.params ++ vs) = ls ++ fill ps vs
  lexes : ∀ d, x.IsPlain → Lexes d (x.text d) (x.tokens d)

theorem writes_empty : Writes empty [] :=
  ⟨fun _ _ => rfl, fun _ _ _ _ => Option.map_id'.symm⟩

theorem writes_name (s : String) : Writes (name s) (columnLexemes (partsOf s)) := by
  refine ⟨fun _ _ => rfl, fun d plain => ?_⟩
  rw [text_name, tokens_name]
  exact Lexes.name (plain s (List.mem_singleton.mpr rfl))

theorem writes_mark (i : Int) (v : Value) : Writes ⟨[.marker i], [v]⟩ [.value v] := by
  refine ⟨fun _ _ => rfl, fun d _ => ?_⟩
  rw [text_mark, tokens_mark]
  exact Lexes.mark i

theorem Writes.around {x y : Draft} {ls ms : List Lexeme} {w : String} {ts : List Token} (hx : Writes x ls)
    (hw : Spaces w ts) (hy : Writes y ms) : Writes (x ++ .word w ++ y) (ls ++ ts.map .token ++ ms) := by
  constructor
  · intro ps vs
    simp only [pieces_append, params_append, pieces_word, params_word, List.append_assoc, List.nil_append, hx.fills,
      List.cons_append, fill, hw.opens.tokens, hy.fills]
  · intro d plain
    rw [isPlain_append, isPlain_append] at plain
    rw [text_append, text_append, text_word, tokens_append, tokens_append, tokens_word, hw.opens.tokens]
    exact (hx.lexes d plain.1.1).around hw (hy.lexes d plain.2)

theorem Writes.behind {y : Draft} {ms : List Lexeme} {w : String} {ts : List Token} (hw : Opens w ts)
    (hy : Writes y ms) : Writes (.word w ++ y) (ts.map .token ++ ms) := by
  constructor
  · intro ps vs
    simp only [pieces_append, params_append, pieces_word, params_word, List.append_assoc, List.nil_append,
      List.cons_append, fill, hw.tokens, hy.fills]
  · intro d plain
    rw [isPlain_append] at plain
    rw [text_append, text_word, tokens_append, tokens_word, hw.tokens]
    exact (hy.lexes d plain.2).behind hw

theorem Writes.between {x : Draft} {ls : List Lexeme} (h : Writes x ls) :
    Writes (x.between "(" ")") (.token (.mark '(') :: (ls ++ [.token (.mark ')')])) := by
  have opening : wordTokens "(" = [.mark '('] := by decide
  have closing : wordTokens ")" = [.mark ')'] := by decide
  constructor
  · intro ps vs
    simp only [Draft.between, pieces_append, params_append, pieces_word, params_word, List.append_assoc,
      List.nil_append, List.cons_append, fill, opening, closing, h.fills, List.map_cons, List.map_nil]
  · intro d plain
    rw [Draft.between, isPlain_append, isPlain_append] at plain
    have tokens : (x.between "(" ")").tokens d = .mark '(' :: (x.tokens d ++ [.mark ')']) := by
      rw [Draft.between, tokens_append, tokens_append, tokens_word, tokens_word, opening, closing]
      rfl
    rw [text_between, tokens]
    exact (h.lexes d plain.1.2).enclosed

theorem writes_join {w : String} {ts : List Token} (hw : Spaces w ts) {xs : List Draft} {lss : List (List Lexeme)}
    (h : List.Forall₂ Writes xs lss) : Writes (join w xs) ((ts.map .token).intercalate lss) := by
  induction h with
  | nil => exact writes_empty
  | @cons x ls xs lss hx hxs ih =>
    cases hxs with
    | nil => rwa [join_singleton, List.intercalate_singleton]
    | cons hy hys =>
      rw [join_cons_cons, List.intercalate_cons_cons]
      exact hx.around hw ih

end Draft

end QueryGate
