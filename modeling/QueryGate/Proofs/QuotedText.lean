import QueryGate.Proofs.OwnText

/-! Statements cut at their quotes: pieces of the compiler's own text and identifiers take turns. -/
namespace QueryGate
open Identifier Name

/-- Pieces of two kinds that take turns, beginning and ending with the first kind. -/
def Alternate (outside inside : List Char → Prop) : List (List Char) → Prop
  | [] => False
  | [s] => outside s
  | s :: t :: rest => outside s ∧ inside t ∧ Alternate outside inside rest

/-- Text of the compiler's own with identifiers between quotes in it. -/
inductive QuotedText (d : Dialect) : List Char → Prop
  | own {s : List Char} (h : OwnText d s) : QuotedText d s
  | quoted {s name rest : List Char} (hs : OwnText d s) (hn : IsIdentifier name) (hr : QuotedText d rest) :
      QuotedText d (s ++ d.quote :: (name ++ d.quote :: rest))

namespace QuotedText
variable {d : Dialect}

theorem own_append {s t : List Char} (hs : OwnText d s) (ht : QuotedText d t) : QuotedText d (s ++ t) := by
  cases ht with
  | own ht => exact .own (hs.append ht)
  | quoted hs' hn hr =>
    rw [← List.append_assoc]
    exact .quoted (hs.append hs') hn hr

theorem append {s t : List Char} (hs : QuotedText d s) (ht : QuotedText d t) : QuotedText d (s ++ t) := by
  induction hs with
  | own hs => exact own_append hs ht
  | quoted hs hn _ ih =>
    simp only [List.append_assoc, List.cons_append]
    exact .quoted hs hn ih

theorem quote_foreign (d : Dialect) : d.quote ∈ OwnText.foreign := by cases d <;> decide

theorem quote_not_mem_own {s : List Char} (h : OwnText d s) : d.quote ∉ s :=
  fun hq => h.not_foreign hq (quote_foreign d)

theorem identifier_not_foreign {name : List Char} (h : IsIdentifier name) {c : Char} (hc : c ∈ name) :
    c ∉ OwnText.foreign := by
  intro hf
  simp only [OwnText.foreign, List.mem_cons, List.not_mem_nil, or_false] at hf
  rcases hf with rfl | rfl | rfl | rfl | rfl | rfl | rfl <;> exact absurd (h.char hc) (by decide)

theorem quote_not_mem_identifier {name : List Char} (h : IsIdentifier name) (d : Dialect) : d.quote ∉ name :=
  fun hq => identifier_not_foreign h hq (quote_foreign d)

theorem alternate {s : List Char} (h : QuotedText d s) :
    Alternate (OwnText d) IsIdentifier (s.splitOn d.quote) := by
  -- neither kind of piece has a quote in it, so the first cut is behind the first piece
  induction h with
  | own h =>
    rw [List.splitOn_eq_singleton (quote_not_mem_own h)]
    exact h
  | quoted hs hn _ ih =>
    rw [List.splitOn_append_cons_self_of_not_mem (quote_not_mem_own hs),
      List.splitOn_append_cons_self_of_not_mem (quote_not_mem_identifier hn d)]
    exact ⟨hs, hn, ih⟩

theorem even_quotes {s : List Char} (h : QuotedText d s) : s.count d.quote % 2 = 0 := by
  induction h with
  | own h => rw [List.count_eq_zero.mpr (quote_not_mem_own h)]
  | quoted hs hn _ ih =>
    rw [List.count_append, List.count_cons_self, List.count_append, List.count_cons_self,
      List.count_eq_zero.mpr (quote_not_mem_own hs), List.count_eq_zero.mpr (quote_not_mem_identifier hn d)]
    omega

theorem eq_quote_of_foreign {s : List Char} (h : QuotedText d s) {c : Char} (hc : c ∈ s) (hf : c ∈ OwnText.foreign) :
    c = d.quote := by
  induction h with
  | own h => exact absurd hf (h.not_foreign hc)
  | quoted hs hn _ ih =>
    simp only [List.mem_append, List.mem_cons] at hc
    rcases hc with hc | hc | hc | hc | hc
    · exact absurd hf (hs.not_foreign hc)
    · exact hc
    · exact absurd hf (identifier_not_foreign hn hc)
    · exact hc
    · exact ih hc

/-- The characters that no dialect has in a statement. -/
def neverWritten : List Char := ['\'', ';', '\\', '-', '/']

theorem not_mem {s : List Char} (h : QuotedText d s) {c : Char} (hc : c ∈ neverWritten) : c ∉ s := by
  intro hs
  have other : ∀ c ∈ neverWritten, c ∈ OwnText.foreign ∧ c ≠ '"' ∧ c ≠ '\x60' := by
    simp [neverWritten, OwnText.foreign]
  obtain ⟨foreign, double, back⟩ := other c hc
  have quote := h.eq_quote_of_foreign hs foreign
  cases d
  · exact back quote
  · exact double quote
  · exact double quote

theorem of_part {part : List Char} (h : part = ['*'] ∨ IsIdentifier part) :
    QuotedText d (quotePart d.quote part) := by
  unfold quotePart
  split
  next star =>
    rw [star]
    exact .own (.of_word (s := "*") (by decide))
  next noStar => exact .quoted .nil (h.resolve_left noStar) (.own .nil)

theorem of_name {name : String} (h : IsSafe name) : QuotedText d (escapeChars d.quote name.toList) := by
  rw [escapeChars_of_isPlain d h.isPlain]
  refine Splitting.intercalate_of_append (.own .nil) (fun _ _ => append)
    (.own (.of_word (s := ".") (by decide))) fun part hp => ?_
  obtain ⟨raw, hraw, rfl⟩ := List.mem_map.mp hp
  exact of_part (h raw hraw)

theorem of_pieces {ps : List Piece} (h : ∀ p ∈ ps, p.Regular IsSafe (0 ≤ ·))
    (hi : ∀ i ∈ ps.filterMap Piece.index?, ∃ n : Nat, i = (n : Int) + 1) :
    QuotedText d (ps.flatMap fun p => (p.render d).toList) := by
  induction ps with
  | nil => exact .own .nil
  | cons p ps ih =>
    obtain ⟨hp, hps⟩ := List.forall_mem_cons.mp h
    have others : ∀ i ∈ ps.filterMap Piece.index?, ∃ n : Nat, i = (n : Int) + 1 :=
      fun i hm => hi i ((List.sublist_cons_self p ps).filterMap _ |>.mem hm)
    rw [List.flatMap_cons]
    refine append ?_ (ih hps others)
    cases hp with
    | word fixed => exact .own (.of_isSpelled (OwnText.wording_isSpelled _ fixed))
    | count hk hn => exact .own (.of_count hk hn)
    | name safe =>
      rw [Piece.render, escape, String.toList_ofList]
      exact of_name safe
    | marker index =>
      obtain ⟨n, rfl⟩ := hi index (List.mem_filterMap.mpr ⟨.marker index, List.mem_cons_self, rfl⟩)
      exact .own (.of_lexeme (.placeholder n))

end QuotedText

/-- A statement's text in which all that is not the compiler's own are identifiers between quotes. -/
structure CleanText (d : Dialect) (s : List Char) : Prop where
  pieces : Alternate (OwnText d) IsIdentifier (s.splitOn d.quote)
  quotes : s.count d.quote % 2 = 0
  marks : ∀ c ∈ ['\'', ';', '\\'], c ∉ s
  comments : ∀ m ∈ Danger.commentMarks, ¬ m <:+: s
  otherQuotes : ∀ other : Dialect, other.quote ≠ d.quote → other.quote ∉ s

theorem QuotedText.clean {d : Dialect} {s : List Char} (h : QuotedText d s) : CleanText d s where
  pieces := h.alternate
  quotes := h.even_quotes
  marks := by
    intro c hc
    have single : ∀ c ∈ ['\'', ';', '\\'], c ∈ QuotedText.neverWritten := by
      simp [QuotedText.neverWritten]
    exact h.not_mem (single c hc)
  comments := by
    intro m hm part
    have mark : ∀ m ∈ Danger.commentMarks, '-' ∈ m ∨ '/' ∈ m := by decide
    rcases mark m hm with hc | hc
    · exact h.not_mem (by decide) (part.subset hc)
    · exact h.not_mem (by decide) (part.subset hc)
  otherQuotes := by
    intro other different hs
    exact different (h.eq_quote_of_foreign hs (QuotedText.quote_foreign other))

end QueryGate
