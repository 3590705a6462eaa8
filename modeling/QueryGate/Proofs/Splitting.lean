/-! Which elements stand in joined lists and in the parts of a split one. -/
namespace QueryGate.Splitting
variable {α : Type}

theorem mem_intercalate_of_mem (sep : List α) {a : α} {part : List α} {parts : List (List α)}
    (hp : part ∈ parts) (ha : a ∈ part) : a ∈ sep.intercalate parts := by
  induction parts with
  | nil => exact absurd hp List.not_mem_nil
  | cons first rest ih =>
    cases rest with
    | nil => rwa [List.intercalate_singleton, ← List.mem_singleton.mp hp]
    | cons second rest =>
      rw [List.intercalate_cons_cons, List.append_assoc, List.mem_append, List.mem_append]
      rcases List.mem_cons.mp hp with rfl | hp
      · exact .inl ha
      · exact .inr (.inr (ih hp))

theorem of_mem_intercalate {sep : List α} {a : α} {parts : List (List α)} (h : a ∈ sep.intercalate parts) :
    a ∈ sep ∨ ∃ part ∈ parts, a ∈ part := by
  induction parts with
  | nil => exact absurd h List.not_mem_nil
  | cons first rest ih =>
    cases rest with
    | nil =>
      rw [List.intercalate_singleton] at h
      exact .inr ⟨first, List.mem_cons_self, h⟩
    | cons second rest =>
      rw [List.intercalate_cons_cons, List.append_assoc, List.mem_append, List.mem_append] at h
      rcases h with h | h | h
      · exact .inr ⟨first, List.mem_cons_self, h⟩
      · exact .inl h
      · obtain h | ⟨part, hp, h⟩ := ih h
        · exact .inl h
        · exact .inr ⟨part, List.mem_cons_of_mem first hp, h⟩

theorem intercalate_of_append {P : List α → Prop} (nil : P []) (append : ∀ s t, P s → P t → P (s ++ t))
    {sep : List α} (hsep : P sep) {parts : List (List α)} (h : ∀ part ∈ parts, P part) :
    P (sep.intercalate parts) := by
  induction parts with
  | nil => exact nil
  | cons part rest ih =>
    obtain ⟨first, others⟩ := List.forall_mem_cons.mp h
    cases rest with
    | nil => rwa [List.intercalate_singleton]
    | cons next rest =>
      rw [List.intercalate_cons_cons]
      exact append _ _ (append _ _ first hsep) (ih others)

theorem map_intercalate {β : Type} (f : α → β) (sep : List α) (parts : List (List α)) :
    (sep.intercalate parts).map f = (sep.map f).intercalate (parts.map (List.map f)) := by
  induction parts with
  | nil => rfl
  | cons part rest ih =>
    cases rest with
    | nil => simp only [List.map_cons, List.map_nil, List.intercalate_singleton]
    | cons next rest =>
      simp only [List.map_cons] at ih ⊢
      rw [List.intercalate_cons_cons, List.intercalate_cons_cons, List.map_append, List.map_append, ih]

theorem intercalate_append_last (sep : List α) (front : List (List α)) (last t : List α) :
    sep.intercalate (front ++ [last ++ t]) = sep.intercalate (front ++ [last]) ++ t := by
  induction front with
  | nil => rw [List.nil_append, List.nil_append, List.intercalate_singleton, List.intercalate_singleton]
  | cons part front ih =>
    cases front with
    | nil => simp only [List.cons_append, List.nil_append, List.intercalate_cons_cons, List.intercalate_singleton,
        List.append_assoc]
    | cons next front =>
      simp only [List.cons_append] at ih ⊢
      rw [List.intercalate_cons_cons, List.intercalate_cons_cons, ih]
      simp only [List.append_assoc]

variable [BEq α] [LawfulBEq α]

theorem mem_of_mem_splitOn {sep a : α} {part s : List α} (hp : part ∈ s.splitOn sep) (ha : a ∈ part) : a ∈ s := by
  have whole : [sep].intercalate (s.splitOn sep) = s := List.intercalate_splitOn sep
  rw [← whole]
  exact mem_intercalate_of_mem [sep] hp ha

theorem mem_splitOn_of_mem (sep : α) {a : α} {s : List α} (h : a ∈ s) : a = sep ∨ ∃ part ∈ s.splitOn sep, a ∈ part := by
  have whole : [sep].intercalate (s.splitOn sep) = s := List.intercalate_splitOn sep
  rw [← whole] at h
  obtain h | h := of_mem_intercalate h
  · exact .inl (List.mem_singleton.mp h)
  · exact .inr h

omit [LawfulBEq α] in
theorem map_splitOn_ne_nil {β : Type} (f : List α → β) (sep : α) (s : List α) : (s.splitOn sep).map f ≠ [] :=
  fun none => List.splitOn_ne_nil sep s (List.map_eq_nil_iff.mp none)

theorem not_mem_of_mem_splitOn {sep : α} {part s : List α} (hp : part ∈ s.splitOn sep) : sep ∉ part := by
  induction s generalizing part with
  | nil =>
    rw [List.splitOn_nil, List.mem_singleton] at hp
    exact hp ▸ List.not_mem_nil
  | cons a s ih =>
    obtain ⟨first, others, parts⟩ := List.exists_cons_of_ne_nil (List.splitOn_ne_nil sep s)
    rw [parts] at ih
    rw [List.splitOn_cons_eq_if_modifyHead, parts] at hp
    split at hp
    · rcases List.mem_cons.mp hp with rfl | hp
      · exact List.not_mem_nil
      · exact ih hp
    next other =>
      rcases List.mem_cons.mp hp with rfl | hp
      · exact List.not_mem_cons_of_ne_of_not_mem (fun same => other (beq_iff_eq.mpr same.symm)) (ih List.mem_cons_self)
      · exact ih (List.mem_cons_of_mem first hp)

theorem splitOn_append_of_not_mem {sep : α} {t : List α} (ht : sep ∉ t) (s : List α) :
    ∃ front last, s.splitOn sep = front ++ [last] ∧ (s ++ t).splitOn sep = front ++ [last ++ t] := by
  -- on `s`, which is cut from its front while `t` stays behind its last part
  induction s with
  | nil => exact ⟨[], [], List.splitOn_nil sep, List.splitOn_eq_singleton ht⟩
  | cons a s ih =>
    obtain ⟨front, last, hs, hst⟩ := ih
    simp only [List.cons_append, List.splitOn_cons_eq_if_modifyHead, hs, hst]
    by_cases h : a == sep
    · exact ⟨[] :: front, last, by simp only [h, if_true, List.cons_append], by simp only [h, if_true, List.cons_append]⟩
    · cases front with
      | nil => exact ⟨[], a :: last, by simp [h], by simp [h]⟩
      | cons first front => exact ⟨(a :: first) :: front, last, by simp [h], by simp [h]⟩

end QueryGate.Splitting
