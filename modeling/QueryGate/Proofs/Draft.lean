import QueryGate.Sql.Statement

/-! Drafts piece by piece: what appending, joining and bracketing do to the text, the marks and the
parameters. -/
namespace QueryGate

def Piece.index? : Piece → Option Int
  | .marker index => some index
  | _ => none

namespace Draft

def text (dialect : Dialect) (x : Draft) : List Char := x.pieces.flatMap fun p => (p.render dialect).toList

def indexes (x : Draft) : List Int := x.pieces.filterMap Piece.index?

theorem render_sql (dialect : Dialect) (x : Draft) : (x.render dialect).sql.toList = x.text dialect := by
  simp only [render, renderPieces, String.toList_join, List.flatMap_map, text]

theorem render_eq {d : Dialect} {x y : Draft} (text : x.text d = y.text d) (params : x.params = y.params) :
    x.render d = y.render d := by
  have sql : (x.render d).sql = (y.render d).sql := by
    rw [← String.toList_inj, render_sql, render_sql, text]
  simp only [render, Fragment.mk.injEq]
  exact ⟨sql, params⟩

@[simp] theorem pieces_append (a b : Draft) : (a ++ b).pieces = a.pieces ++ b.pieces := rfl
@[simp] theorem pieces_word (s : String) : (word s).pieces = [.word s] := rfl
@[simp] theorem pieces_name (s : String) : (name s).pieces = [.name s] := rfl
@[simp] theorem pieces_empty : empty.pieces = [] := rfl

@[simp] theorem params_append (a b : Draft) : (a ++ b).params = a.params ++ b.params := rfl
@[simp] theorem params_word (s : String) : (word s).params = [] := rfl
@[simp] theorem params_name (s : String) : (name s).params = [] := rfl
@[simp] theorem params_empty : empty.params = [] := rfl
@[simp] theorem params_join (s : String) (xs : List Draft) : (join s xs).params = xs.flatMap (·.params) := rfl

theorem append_assoc (x y z : Draft) : x ++ y ++ z = x ++ (y ++ z) := by
  show Draft.mk (x.pieces ++ y.pieces ++ z.pieces) (x.params ++ y.params ++ z.params) = _
  rw [List.append_assoc, List.append_assoc]
  rfl

theorem append_empty (x : Draft) : x ++ empty = x := by
  show Draft.mk (x.pieces ++ []) (x.params ++ []) = x
  rw [List.append_nil, List.append_nil]

@[simp] theorem params_between (s t : String) (x : Draft) : (x.between s t).params = x.params := by
  simp only [between, params_append, params_word, List.nil_append, List.append_nil]

@[simp] theorem text_append (d : Dialect) (a b : Draft) : (a ++ b).text d = a.text d ++ b.text d := by
  simp only [text, pieces_append, List.flatMap_append]

@[simp] theorem text_word (d : Dialect) (s : String) : (word s).text d = s.toList := by
  simp only [text, pieces_word, List.flatMap_singleton, Piece.render]

@[simp] theorem text_name (d : Dialect) (s : String) : (name s).text d = Identifier.escapeChars d.quote s.toList := by
  simp only [text, pieces_name, List.flatMap_singleton, Piece.render, Identifier.escape, String.toList_ofList]

@[simp] theorem text_mark (d : Dialect) (i : Int) (vs : List Value) :
    (Draft.mk [.marker i] vs).text d = (d.marker i).toList := by
  simp only [text, List.flatMap_singleton, Piece.render]

@[simp] theorem text_between (d : Dialect) (s t : String) (x : Draft) :
    (x.between s t).text d = s.toList ++ x.text d ++ t.toList := by
  simp only [between, text_append, text_word]

@[simp] theorem indexes_append (a b : Draft) : (a ++ b).indexes = a.indexes ++ b.indexes := by
  simp only [indexes, pieces_append, List.filterMap_append]

@[simp] theorem indexes_word (s : String) : (word s).indexes = [] := rfl
@[simp] theorem indexes_name (s : String) : (name s).indexes = [] := rfl
@[simp] theorem indexes_empty : empty.indexes = [] := rfl
@[simp] theorem indexes_mark (i : Int) (vs : List Value) : (Draft.mk [.marker i] vs).indexes = [i] := rfl

@[simp] theorem indexes_between (s t : String) (x : Draft) : (x.between s t).indexes = x.indexes := by
  simp only [between, indexes_append, indexes_word, List.nil_append, List.append_nil]

theorem pieces_join_cons_cons (s : String) (a b : Draft) (rest : List Draft) :
    (join s (a :: b :: rest)).pieces = a.pieces ++ .word s :: (join s (b :: rest)).pieces := by
  simp only [join, List.map_cons, List.intercalate_cons_cons, List.append_assoc, List.cons_append, List.nil_append]

theorem pieces_join_singleton (s : String) (a : Draft) : (join s [a]).pieces = a.pieces := by
  simp only [join, List.map_cons, List.map_nil, List.intercalate_singleton]

theorem join_singleton (s : String) (x : Draft) : join s [x] = x := by
  simp only [join, List.map_cons, List.map_nil, List.intercalate_singleton, List.flatMap_singleton]

theorem pieces_join_nil (s : String) : (join s []).pieces = [] := rfl

theorem join_cons_cons (s : String) (a b : Draft) (rest : List Draft) :
    join s (a :: b :: rest) = a ++ word s ++ join s (b :: rest) := by
  have pieces := pieces_join_cons_cons s a b rest
  have params : (join s (a :: b :: rest)).params = (a ++ word s ++ join s (b :: rest)).params := by simp
  calc join s (a :: b :: rest) = ⟨(join s (a :: b :: rest)).pieces, (join s (a :: b :: rest)).params⟩ := rfl
    _ = ⟨a.pieces ++ [.word s] ++ (join s (b :: rest)).pieces, a.params ++ [] ++ (join s (b :: rest)).params⟩ := by
      rw [pieces, params, List.append_assoc]
      rfl

theorem join_append (s : String) {xs ys : List Draft} (hx : xs ≠ []) (hy : ys ≠ []) :
    join s (xs ++ ys) = join s xs ++ word s ++ join s ys := by
  obtain ⟨y, ys, rfl⟩ := List.exists_cons_of_ne_nil hy
  induction xs with
  | nil => exact absurd rfl hx
  | cons x xs ih =>
    cases xs with
    | nil => rw [join_singleton, List.singleton_append, join_cons_cons]
    | cons x' xs =>
      have behind := ih (List.cons_ne_nil x' xs)
      rw [List.cons_append] at behind
      rw [List.cons_append, List.cons_append, join_cons_cons, join_cons_cons, behind]
      simp only [append_assoc]

theorem join_split (s : String) {xs : List Draft} (some : xs ≠ []) (y : Draft) (zs : List Draft) :
    ∃ after, join s (xs ++ y :: zs) = join s xs ++ word s ++ y ++ after := by
  rw [join_append s some (List.cons_ne_nil y zs)]
  cases zs with
  | nil =>
    refine ⟨empty, ?_⟩
    rw [join_singleton, append_empty]
  | cons z zs =>
    refine ⟨word s ++ join s (z :: zs), ?_⟩
    rw [join_cons_cons]
    simp only [append_assoc]

theorem text_join_cons_cons (d : Dialect) (s : String) (a b : Draft) (rest : List Draft) :
    (join s (a :: b :: rest)).text d = a.text d ++ s.toList ++ (join s (b :: rest)).text d := by
  simp only [text, pieces_join_cons_cons, List.flatMap_append, List.flatMap_cons, Piece.render, List.append_assoc]

theorem text_join_singleton (d : Dialect) (s : String) (a : Draft) : (join s [a]).text d = a.text d := by
  simp only [text, pieces_join_singleton]

theorem text_join_concat (d : Dialect) (s : String) {xs : List Draft} (some : xs ≠ []) (y : Draft) :
    (join s (xs ++ [y])).text d = (join s xs).text d ++ s.toList ++ y.text d := by
  rw [join_append s some (List.cons_ne_nil y []), join_singleton, text_append, text_append, text_word]

theorem text_join_cons (d : Dialect) (s : String) (x : Draft) (rest : List Draft) :
    (join s (x :: rest)).text d = x.text d ++ rest.flatMap fun y => s.toList ++ y.text d := by
  induction rest generalizing x with
  | nil => rw [text_join_singleton, List.flatMap_nil, List.append_nil]
  | cons y rest ih => rw [text_join_cons_cons, ih, List.flatMap_cons, List.append_assoc, List.append_assoc]

theorem text_join_begins (d : Dialect) (s : String) (x : Draft) (rest : List Draft) :
    x.text d <+: (join s (x :: rest)).text d := ⟨_, (text_join_cons d s x rest).symm⟩

@[simp] theorem indexes_join (s : String) (xs : List Draft) : (join s xs).indexes = xs.flatMap (·.indexes) := by
  induction xs with
  | nil => rfl
  | cons a rest ih =>
    cases rest with
    | nil => simp only [indexes, pieces_join_singleton, List.flatMap_singleton]
    | cons b rest =>
      simp only [indexes, pieces_join_cons_cons, List.filterMap_append, List.filterMap_cons, Piece.index?] at ih ⊢
      rw [ih]
      simp only [List.flatMap_cons]

theorem mem_pieces_join {s : String} {xs : List Draft} {p : Piece} (h : p ∈ (join s xs).pieces) :
    p = .word s ∨ ∃ x ∈ xs, p ∈ x.pieces := by
  induction xs with
  | nil => simp only [pieces_join_nil, List.not_mem_nil] at h
  | cons a rest ih =>
    cases rest with
    | nil => exact .inr ⟨a, List.mem_cons_self, by rwa [pieces_join_singleton] at h⟩
    | cons b rest =>
      rw [pieces_join_cons_cons, List.mem_append, List.mem_cons] at h
      rcases h with h | h | h
      · exact .inr ⟨a, List.mem_cons_self, h⟩
      · exact .inl h
      · obtain h | ⟨x, hx, h⟩ := ih h
        · exact .inl h
        · exact .inr ⟨x, List.mem_cons_of_mem a hx, h⟩

end Draft
end QueryGate
