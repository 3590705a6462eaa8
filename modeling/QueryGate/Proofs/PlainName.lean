import QueryGate.Proofs.Splitting
import QueryGate.Sql.Dialect

/-! Names without quotes of either style: their parts are put between quotes as they are. What any name begins and
ends with once it is escaped. -/
namespace QueryGate.Identifier

def IsPlain (s : List Char) : Prop := '"' ∉ s ∧ '\x60' ∉ s

instance (s : List Char) : Decidable (IsPlain s) := inferInstanceAs (Decidable (_ ∧ _))

def quotePart (q : Char) (part : List Char) : List Char := if part = ['*'] then part else q :: (part ++ [q])

theorem IsPlain.subset {s t : List Char} (h : IsPlain t) (sub : ∀ c ∈ s, c ∈ t) : IsPlain s :=
  ⟨fun m => h.1 (sub _ m), fun m => h.2 (sub _ m)⟩

theorem IsPlain.quote_not_mem {s : List Char} (h : IsPlain s) (d : Dialect) : d.quote ∉ s := by
  cases d
  · exact h.2
  · exact h.1
  · exact h.1

theorem isQuotedChars_of_isPlain {s : List Char} (h : IsPlain s) : isQuotedChars s = false := by
  have none (q : Char) (hq : q ∉ s) : isQuotedBy q s = false := by
    have head : s.head? ≠ some q := fun e => hq (List.mem_of_mem_head? e)
    simp only [isQuotedBy, beq_eq_false_iff_ne.mpr head, Bool.false_and]
  simp only [isQuotedChars, none _ h.1, none _ h.2, Bool.or_self, Bool.and_false]

theorem double_of_not_mem {q : Char} {s : List Char} (h : q ∉ s) : double q s = s := by
  induction s with
  | nil => rfl
  | cons c s ih =>
    obtain ⟨hc, hs⟩ := List.ne_and_not_mem_of_not_mem_cons h
    simp only [double, List.flatMap_cons, if_neg (Ne.symm hc)] at ih ⊢
    rw [ih hs, List.singleton_append]

theorem mem_double {q c : Char} {s : List Char} (h : c ∈ double q s) : c ∈ s ∨ c = q := by
  obtain ⟨b, hb, h⟩ := List.mem_flatMap.mp h
  split at h
  · exact .inr (by simpa using h)
  · exact .inl (List.mem_singleton.mp h ▸ hb)

theorem mem_escapePart {q c : Char} {part : List Char} (h : c ∈ escapePart q part) : c ∈ part ∨ c = q := by
  unfold escapePart at h
  split at h
  · exact .inl h
  · simp only [List.mem_cons, List.mem_append, List.not_mem_nil, or_false] at h
    exact h.elim .inr (·.elim mem_double .inr)

theorem escapePart_of_isPlain (d : Dialect) {s : List Char} (h : IsPlain s) :
    escapePart d.quote s = quotePart d.quote s := by
  simp only [escapePart, quotePart, isQuotedChars_of_isPlain h, double_of_not_mem (h.quote_not_mem d),
    Bool.false_or, beq_iff_eq]

theorem escapeChars_of_isPlain (d : Dialect) {s : List Char} (h : IsPlain s) :
    escapeChars d.quote s = ['.'].intercalate ((s.splitOn '.').map (quotePart d.quote)) := by
  rw [escapeChars, isQuotedChars_of_isPlain h, if_neg Bool.false_ne_true]
  congr 1
  apply List.map_congr_left
  intro part hp
  exact escapePart_of_isPlain d (h.subset fun c hc => Splitting.mem_of_mem_splitOn hp hc)

def edges : List Char := ['"', '\x60', '*']

def IsEdged (s : List Char) : Prop := (∃ c ∈ edges, s.head? = some c) ∧ ∃ c ∈ edges, s.getLast? = some c

theorem IsEdged.append {s t : List Char} (hs : IsEdged s) (sep : List Char) (ht : IsEdged t) :
    IsEdged (s ++ sep ++ t) := by
  obtain ⟨⟨b, hb, head⟩, -⟩ := hs
  obtain ⟨-, c, hc, last⟩ := ht
  refine ⟨⟨b, hb, ?_⟩, c, hc, ?_⟩
  · rw [List.append_assoc, List.head?_append, head, Option.some_or]
  · rw [List.getLast?_append, last, Option.some_or]

theorem isEdged_quoted {q : Char} (hq : q ∈ edges) (s : List Char) : IsEdged (q :: (s ++ [q])) := by
  refine ⟨⟨q, hq, rfl⟩, q, hq, ?_⟩
  rw [← List.cons_append, List.getLast?_concat]

theorem isEdged_of_isQuotedChars {s : List Char} (h : isQuotedChars s = true) : IsEdged s := by
  have ends {q : Char} (hq : q ∈ edges) (h : isQuotedBy q s = true) : IsEdged s := by
    simp only [isQuotedBy, Bool.and_eq_true, beq_iff_eq] at h
    exact ⟨⟨q, hq, h.1⟩, q, hq, h.2⟩
  simp only [isQuotedChars, Bool.and_eq_true, Bool.or_eq_true] at h
  exact h.2.elim (ends (by decide)) (ends (by decide))

theorem quote_mem_edges (d : Dialect) : d.quote ∈ edges := by cases d <;> decide

theorem isEdged_escapePart (d : Dialect) (part : List Char) : IsEdged (escapePart d.quote part) := by
  unfold escapePart
  split
  next asIs =>
    rcases Bool.or_eq_true_iff.mp asIs with quoted | star
    · exact isEdged_of_isQuotedChars quoted
    · rw [beq_iff_eq.mp star]
      exact ⟨⟨'*', by decide, rfl⟩, '*', by decide, rfl⟩
  next => exact isEdged_quoted (quote_mem_edges d) _

theorem isEdged_intercalate (sep : List Char) {parts : List (List Char)} (some : parts ≠ [])
    (h : ∀ part ∈ parts, IsEdged part) : IsEdged (sep.intercalate parts) := by
  induction parts with
  | nil => exact absurd rfl some
  | cons part rest ih =>
    obtain ⟨first, others⟩ := List.forall_mem_cons.mp h
    cases rest with
    | nil => rwa [List.intercalate_singleton]
    | cons next rest =>
      rw [List.intercalate_cons_cons]
      exact first.append sep (ih (List.cons_ne_nil next rest) others)

theorem isEdged_escapeChars (d : Dialect) (s : List Char) : IsEdged (escapeChars d.quote s) := by
  unfold escapeChars
  split
  next quoted => exact isEdged_of_isQuotedChars quoted
  next =>
    refine isEdged_intercalate _ (Splitting.map_splitOn_ne_nil _ '.' s) fun part hp => ?_
    obtain ⟨own, -, rfl⟩ := List.mem_map.mp hp
    exact isEdged_escapePart d own

end QueryGate.Identifier
