import QueryGate.Proofs.Comparing
import QueryGate.Proofs.Numeral
import QueryGate.Proofs.StatementMarks
import QueryGate.Proofs.StatementWording

/-! The placeholders in the text of a statement: where no name has a question mark or a dollar sign in it, they
are the parameter marks and nothing else. -/
namespace QueryGate
namespace Placeholder

def IsQuiet (s : List Char) : Prop := '?' ∉ s ∧ '$' ∉ s

instance (s : List Char) : Decidable (IsQuiet s) := inferInstanceAs (Decidable (_ ∧ _))

def Begins (s : List Char) : Prop := s.head?.map Char.isDigit = some false

instance (s : List Char) : Decidable (Begins s) := inferInstanceAs (Decidable (_ = _))

theorem IsQuiet.append {s t : List Char} (hs : IsQuiet s) (ht : IsQuiet t) : IsQuiet (s ++ t) := by
  simp only [IsQuiet, List.mem_append, not_or]
  exact ⟨⟨hs.1, ht.1⟩, hs.2, ht.2⟩

theorem Begins.append {s : List Char} (h : Begins s) (t : List Char) : Begins (s ++ t) := by
  cases s with
  | nil => exact absurd h nofun
  | cons c s => exact h

theorem takeWhile_digits {digits : List Char} (h : ∀ c ∈ digits, c.isDigit = true) {t : List Char}
    (ht : t = [] ∨ Begins t) : (digits ++ t).takeWhile Char.isDigit = digits := by
  rw [List.takeWhile_append_of_pos h]
  rcases ht with rfl | ht
  · exact List.append_nil digits
  · cases t with
    | nil => exact absurd ht nofun
    | cons c t => rw [List.takeWhile_cons, Option.some.inj ht, if_neg Bool.false_ne_true, List.append_nil]

theorem wording_quiet : ∀ s ∈ Sql.wording, IsQuiet s.toList ∧ Begins s.toList := by decide

theorem isQuiet_of_isReference {s : String} (h : Name.isReference s = true) : IsQuiet s.toList := by
  constructor <;> intro hc <;> exact absurd (Name.isReference_char h hc) (by decide)

theorem isQuiet_count {keyword : String} (hk : keyword = "LIMIT" ∨ keyword = "OFFSET") (n : Int) :
    IsQuiet (keyword ++ " " ++ toString n).toList := by
  have digits : IsQuiet (toString n).toList := by
    constructor <;> intro hc <;> exact absurd (Numeral.digit_or_sign_of_mem hc) (by decide)
  rw [String.toList_append]
  rcases hk with rfl | rfl <;> exact IsQuiet.append (by decide) digits

theorem begins_count {keyword : String} (hk : keyword = "LIMIT" ∨ keyword = "OFFSET") (n : Int) :
    Begins (keyword ++ " " ++ toString n).toList := by
  rw [String.toList_append]
  rcases hk with rfl | rfl <;> exact Begins.append (by decide) _

end Placeholder

namespace Identifier

theorem mem_escapeChars {q c : Char} {s : List Char} (h : c ∈ escapeChars q s) : c ∈ s ∨ c = q ∨ c = '.' := by
  unfold escapeChars at h
  split at h
  · exact .inl h
  · obtain h | ⟨part, hp, h⟩ := Splitting.of_mem_intercalate h
    · exact .inr (.inr (List.mem_singleton.mp h))
    · obtain ⟨raw, hraw, rfl⟩ := List.mem_map.mp hp
      exact (mem_escapePart h).imp (Splitting.mem_of_mem_splitOn hraw) .inl

theorem begins_of_isQuotedChars {s : List Char} (h : isQuotedChars s = true) : Placeholder.Begins s := by
  simp only [isQuotedChars, isQuotedBy, Bool.and_eq_true, Bool.or_eq_true, beq_iff_eq] at h
  unfold Placeholder.Begins
  obtain ⟨-, ⟨head, -⟩ | ⟨head, -⟩⟩ := h <;> rw [head] <;> decide

theorem begins_escapePart (d : Dialect) (part : List Char) : Placeholder.Begins (escapePart d.quote part) := by
  unfold escapePart
  split
  next asIs =>
    rcases Bool.or_eq_true_iff.mp asIs with quoted | star
    · exact begins_of_isQuotedChars quoted
    · rw [beq_iff_eq.mp star]
      decide
  next => cases d <;> rfl

theorem begins_escapeChars (d : Dialect) (s : List Char) : Placeholder.Begins (escapeChars d.quote s) := by
  unfold escapeChars
  split
  next quoted => exact begins_of_isQuotedChars quoted
  next =>
    obtain ⟨part, rest, parts⟩ := List.exists_cons_of_ne_nil (List.splitOn_ne_nil '.' s)
    rw [parts, List.map_cons]
    cases rest with
    | nil =>
      rw [List.map_nil, List.intercalate_singleton]
      exact begins_escapePart d part
    | cons next rest =>
      rw [List.map_cons, List.intercalate_cons_cons, List.append_assoc]
      exact (begins_escapePart d part).append _

end Identifier

namespace Placeholder

section
variable {names : String → Prop} {counts : Int → Prop} {ps : List Piece}

/-- Only a mark has a placeholder's first character in it where no name has. -/
theorem regular_cases_char {c : Char} (hc : c = '?' ∨ c = '$') {p : Piece}
    (h : p.Regular (fun s => c ∉ s.toList) counts) :
    (∃ i, p = .marker i) ∨ p.index? = none ∧ ∀ d, c ∉ (p.render d).toList := by
  have own {s : List Char} (quiet : IsQuiet s) : c ∉ s := by
    rcases hc with rfl | rfl
    · exact quiet.1
    · exact quiet.2
  cases h with
  | word h => exact .inr ⟨rfl, fun _ => own (wording_quiet _ h).1⟩
  | count hk _ => exact .inr ⟨rfl, fun _ => own (isQuiet_count hk _)⟩
  | name h =>
    refine .inr ⟨rfl, fun d mem => ?_⟩
    rw [Piece.render, Identifier.escape, String.toList_ofList] at mem
    rcases Identifier.mem_escapeChars mem with mem | quote | dot
    · exact h mem
    · rcases hc with rfl | rfl <;> cases d <;> exact absurd quote (by decide)
    · rcases hc with rfl | rfl <;> exact absurd dot (by decide)
  | marker index => exact .inl ⟨index, rfl⟩

theorem begins_render (d : Dialect) {p : Piece} (h : p.Regular names counts) : Begins (p.render d).toList := by
  cases h with
  | word h => exact (wording_quiet _ h).2
  | count hk _ => exact begins_count hk _
  | name h =>
    rw [Piece.render, Identifier.escape, String.toList_ofList]
    exact Identifier.begins_escapeChars d _
  | marker index =>
    rw [Piece.render]
    obtain mark | ⟨digits, mark⟩ := Reading.marker_shape d index <;> rw [mark] <;> rfl

theorem begins_pieces (d : Dialect) (h : ∀ p ∈ ps, p.Regular names counts) :
    ps.flatMap (fun p => (p.render d).toList) = [] ∨ Begins (ps.flatMap fun p => (p.render d).toList) := by
  cases ps with
  | nil => exact .inl rfl
  | cons p ps => exact .inr ((begins_render d (h p List.mem_cons_self)).append _)

theorem indexes_marker (i : Int) (ps : List Piece) :
    (Piece.marker i :: ps).filterMap Piece.index? = i :: ps.filterMap Piece.index? := rfl

end
end Placeholder

namespace Sql

def overdueOrders : ReadOp where
  table := "orders"
  fields := ["u.name", "*"]
  joins := [⟨.left, "users", some "u", [.group .disj [.condition ⟨"u.id", .equal, .text "orders.user_id"⟩,
    .group .conj [.condition ⟨"u.age", .atLeast, .int 18⟩, .condition ⟨"u.left", .isNull, .null⟩] true] false]⟩]
  filter := [.condition ⟨"status", .isIn, .text "late"⟩, .condition ⟨"note", .like, .text "orders.note?"⟩]
  groupBy := ["u.name"]
  having := [.group .conj [.condition ⟨"total", .greater, .int 5⟩] true]
  limit := some 10

end Sql
end QueryGate
