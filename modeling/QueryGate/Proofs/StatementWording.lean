import QueryGate.Proofs.StatementShape
import QueryGate.Proofs.Wording

/-! Every piece of the statement of an operation is a fixed word, a count of the operation, a parameter mark or a
name: one of the operation or its schema, the star, the id column or a column reference. -/
namespace QueryGate.Sql
open Draft

section
variable {names : String → Prop} {counts : Int → Prop}

theorem regular_table {schema : Option String} {name : String} (hs : ∀ s ∈ schema, names s) (h : names name) :
    Regular names counts (table schema name) := by
  unfold table
  split
  next s present =>
    have given := hs s (Option.filter_eq_some_iff.mp present).1
    exact ((regular_name given).append (regular_word (by decide))).append (regular_name h)
  next => exact regular_name h

theorem regular_names {columns : List String} (h : ∀ s ∈ columns, names s) :
    ∀ x ∈ columns.map Draft.name, Regular names counts x := by
  intro x hx
  obtain ⟨s, hs, rfl⟩ := List.mem_map.mp hx
  exact regular_name (h s hs)

theorem regular_commaList {xs : List Draft} (h : ∀ x ∈ xs, Regular names counts x) :
    Regular names counts (commaList xs) := regular_join (by decide) h

theorem regular_listClause {keyword : String} {xs : List Draft} (hk : keyword ++ " " ∈ wording)
    (h : ∀ x ∈ xs, Regular names counts x) : ∀ x ∈ listClause keyword xs, Regular names counts x := by
  intro x hx
  unfold listClause at hx
  split at hx
  · exact absurd hx List.not_mem_nil
  · rw [List.mem_singleton.mp hx]
    exact (regular_word hk).append (regular_commaList h)

theorem regular_countClause {keyword : String} {count : Option Int} (hk : keyword = "LIMIT" ∨ keyword = "OFFSET")
    (h : ∀ n ∈ count, counts n) : ∀ x ∈ countClause keyword count, Regular names counts x := by
  intro x hx p hp
  cases count with
  | none => exact absurd hx List.not_mem_nil
  | some n =>
    rw [List.mem_singleton.mp hx, pieces_word, List.mem_singleton] at hp
    exact hp ▸ .count hk (h n rfl)

theorem regular_orders {orders : List Order} (h : ∀ o ∈ orders, names o.field) :
    ∀ x ∈ orders.map fun o => Draft.name o.field ++ .word (" " ++ o.direction.text), Regular names counts x := by
  intro x hx
  obtain ⟨o, ho, rfl⟩ := List.mem_map.mp hx
  exact (regular_name (h o ho)).append (regular_word (direction_mem_wording _))

theorem regular_valueTuples (columns : List String) (offset : Int) (rows : List Fields) :
    ∀ x ∈ valueTuples columns offset rows, Regular names counts x := by
  induction rows generalizing offset with
  | nil => exact List.forall_mem_nil _
  | cons row rest ih =>
    exact List.forall_mem_cons.mpr ⟨(regular_commaList (regular_markers _ _)).between, ih _⟩

theorem regular_assignments (offset : Int) {changes : Fields} (h : ∀ s ∈ changes.keys, names s) :
    ∀ x ∈ assignments offset changes, Regular names counts x := by
  induction changes generalizing offset with
  | nil => exact List.forall_mem_nil _
  | cons change rest ih =>
    obtain ⟨first, others⟩ := List.forall_mem_cons.mp h
    exact List.forall_mem_cons.mpr
      ⟨((regular_name first).append (regular_word (by decide))).append (regular_mark _ _), ih _ others⟩

variable {schema : Option String} (hs : ∀ s ∈ schema, names s)
include hs

theorem regular_updateHead {tableName : String} (ht : names tableName) {xs : List Draft}
    (h : ∀ x ∈ xs, Regular names counts x) : Regular names counts (updateHead schema tableName xs) :=
  (((regular_word (by decide)).append (regular_table hs ht)).append (regular_word (by decide))).append
    (regular_commaList h)

theorem regular_selectHead {tableName : String} (ht : names tableName) {columns : List String}
    (h : ∀ s ∈ columns, names s) : Regular names counts
      (.word "SELECT " ++ commaList (columns.map .name) ++ .word " FROM " ++ table schema tableName) := by
  have selected : Regular names counts (.word "SELECT " ++ commaList (columns.map .name)) :=
    (regular_word (by decide)).append (regular_commaList (regular_names h))
  exact (selected.append (regular_word (by decide))).append (regular_table hs ht)

theorem regular_insert {op : CreateOp} {x : Draft} (h : insert schema op = .ok x)
    (hn : ∀ s ∈ (Operation.create op).names, names s) : Regular names counts x := by
  obtain ⟨ht, hk⟩ := List.forall_mem_cons.mp hn
  obtain ⟨first, rest, rows, rfl⟩ := insert_ok h
  have keys : ∀ s ∈ first.keys, names s :=
    fun s hs => hk s (List.mem_flatMap.mpr ⟨first, rows ▸ List.mem_cons_self, hs⟩)
  have target : Regular names counts (.word "INSERT INTO " ++ table schema op.table) :=
    (regular_word (by decide)).append (regular_table hs ht)
  have columns := (target.append (regular_word (s := " (") (by decide))).append (regular_commaList (regular_names keys))
  exact (columns.append (regular_word (by decide))).append (regular_commaList (regular_valueTuples _ _ _))

variable (references : ∀ s, Name.isReference s = true → names s)
include references

omit hs in
theorem regular_filterClause {keyword : String} (hk : keyword ++ " " ∈ wording) (offset : Int) {ps : List Predicate}
    (h : ∀ s ∈ Predicate.fields ps, names s) : ∀ x ∈ filterClause keyword offset ps, Regular names counts x := by
  intro x hx
  unfold filterClause at hx
  split at hx
  · exact absurd hx List.not_mem_nil
  · rw [List.mem_singleton.mp hx]
    exact (regular_word hk).append (Predicate.regular_compileList references false offset h)

theorem regular_joinClauses (offset : Int) {js : List Join} (h : ∀ s ∈ js.flatMap Operation.joinNames, names s) :
    ∀ x ∈ joinClauses schema offset js, Regular names counts x := by
  induction js generalizing offset with
  | nil => exact List.forall_mem_nil _
  | cons j rest ih =>
    simp only [List.flatMap_cons, Operation.joinNames, List.forall_mem_append, List.forall_mem_cons] at h
    obtain ⟨⟨ht, hl, hf⟩, others⟩ := h
    have target : Regular names counts (.word (j.kind.text ++ " JOIN ") ++ table schema j.table) :=
      (regular_word (kind_mem_wording _)).append (regular_table hs ht)
    refine List.forall_mem_cons.mpr ⟨?_, ih _ others⟩
    refine ((target.append ?label).append (regular_word (by decide))).append
      (Predicate.regular_compileList references true _ hf)
    split
    next name present =>
      have given := hl name (Option.mem_toList.mpr (Option.filter_eq_some_iff.mp present).1)
      exact (regular_word (by decide)).append (regular_name given)
    next => exact List.forall_mem_nil _

theorem regular_select {op : ReadOp} (star : names "*") (hn : ∀ s ∈ (Operation.read op).names, names s)
    (hc : ∀ n ∈ (Operation.read op).counts, counts n) : Regular names counts (select schema op) := by
  obtain ⟨ht, hn⟩ := List.forall_mem_cons.mp hn
  simp only [List.forall_mem_append] at hn
  obtain ⟨⟨⟨⟨⟨fields, joins⟩, filter⟩, groups⟩, having⟩, orders⟩ := hn
  obtain ⟨limit, offset⟩ := List.forall_mem_append.mp hc
  refine regular_join (by decide) ?_
  simp only [List.forall_mem_append]
  refine ⟨⟨⟨⟨⟨⟨⟨?head, ?joins⟩, ?filter⟩, ?groups⟩, ?having⟩, ?orders⟩, ?limit⟩, ?offset⟩
  case joins => exact regular_joinClauses hs references _ joins
  case filter => exact regular_filterClause references (by decide) _ filter
  case groups => exact regular_listClause (by decide) (regular_names groups)
  case having => exact regular_filterClause references (by decide) _ having
  case orders =>
    exact regular_listClause (by decide) (regular_orders fun o ho => orders _ (List.mem_map.mpr ⟨o, ho, rfl⟩))
  case limit => exact regular_countClause (.inl rfl) fun n h => limit n (Option.mem_toList.mpr h)
  case offset => exact regular_countClause (.inr rfl) fun n h => offset n (Option.mem_toList.mpr h)
  case head =>
    intro x hx
    rw [List.mem_singleton.mp hx]
    refine regular_selectHead hs ht fun s hs => ?_
    split at hs
    · exact List.mem_singleton.mp hs ▸ star
    · exact fields s hs

variable (id : names idField)
include id

omit hs references in
theorem regular_whens (column : String) (offset : Int) (rows : List Fields) :
    ∀ x ∈ whens column offset rows, Regular names counts x := by
  induction rows generalizing offset with
  | nil => exact List.forall_mem_nil _
  | cons row rest ih =>
    unfold whens
    split
    · exact ih offset
    · have test : Regular names counts (.word "WHEN " ++ .name idField ++ .word " = ") :=
        ((regular_word (by decide)).append (regular_name id)).append (regular_word (by decide))
      have choice := (test.append (regular_mark (offset + 1) [idOf row])).append (regular_word (s := " THEN ") (by decide))
      exact List.forall_mem_cons.mpr ⟨choice.append (regular_mark _ _), ih _⟩

omit hs references in
theorem regular_caseAssignments (rows : List Fields) (offset : Int) {columns : List String}
    (h : ∀ s ∈ columns, names s) : ∀ x ∈ caseAssignments rows offset columns, Regular names counts x := by
  induction columns generalizing offset with
  | nil => exact List.forall_mem_nil _
  | cons column rest ih =>
    obtain ⟨first, others⟩ := List.forall_mem_cons.mp h
    refine List.forall_mem_cons.mpr ⟨?_, ih _ others⟩
    have choices : Regular names counts (join " " (whens column offset rows)) :=
      regular_join (by decide) (regular_whens id column offset rows)
    have front := ((regular_name first).append (regular_word (s := " = CASE ") (by decide))).append choices
    exact ((front.append (regular_word (by decide))).append (regular_name first)).append (regular_word (by decide))

omit hs references id in
theorem keys_withoutId {row : Fields} (h : ∀ s ∈ row.keys, names s) : ∀ s ∈ (withoutId row).keys, names s := by
  intro s hs
  obtain ⟨f, hf, rfl⟩ := List.mem_map.mp hs
  exact h _ (List.mem_map.mpr ⟨f, (List.mem_filter.mp hf).1, rfl⟩)

theorem regular_updateOne {op : UpdateOp} {row : Fields} {x : Draft} (h : updateOne schema op row = .ok x)
    (ht : names op.table) (hk : ∀ s ∈ row.keys, names s) (hf : ∀ s ∈ Predicate.fields op.filter, names s) :
    Regular names counts x := by
  obtain ⟨ps, filter, rfl⟩ := updateOne_ok h
  have fields : ∀ s ∈ Predicate.fields ps, names s := by
    obtain ⟨-, rfl⟩ | ⟨-, -, rfl⟩ | ⟨v, -, -, rfl⟩ := rowFilter_ok filter
    · exact hf
    · exact List.forall_mem_nil _
    · exact fun s hs => List.mem_singleton.mp hs ▸ id
  refine regular_join (by decide) (List.forall_mem_cons.mpr ⟨?_, ?_⟩)
  · exact regular_updateHead hs ht (regular_assignments 0 (keys_withoutId hk))
  · exact regular_filterClause references (by decide) _ fields

omit references in
theorem regular_updateMany {op : UpdateOp} {first : Fields} {x : Draft} (h : updateMany schema op first = .ok x)
    (ht : names op.table) (hk : ∀ s ∈ first.keys, names s) : Regular names counts x := by
  obtain ⟨cases, rfl, rfl⟩ := updateMany_ok h
  have head : Regular names counts (updateHead schema op.table _) :=
    regular_updateHead hs ht (regular_caseAssignments id op.rows 0 (keys_withoutId hk))
  refine Regular.append ?_ (regular_commaList (regular_markers _ _)).between
  exact ((head.append (regular_word (by decide))).append (regular_name id)).append (regular_word (by decide))

theorem regular_update {op : UpdateOp} {x : Draft} (h : update schema op = .ok x)
    (hn : ∀ s ∈ (Operation.update op).names, names s) : Regular names counts x := by
  obtain ⟨ht, hn⟩ := List.forall_mem_cons.mp hn
  obtain ⟨hk, hf⟩ := List.forall_mem_append.mp hn
  have keys {row : Fields} (hr : row ∈ op.rows) : ∀ s ∈ row.keys, names s :=
    fun s hs => hk s (List.mem_flatMap.mpr ⟨row, hr, hs⟩)
  obtain ⟨row, rows, h⟩ | ⟨first, second, rest, rows, h⟩ := update_ok h
  · exact regular_updateOne hs references id h ht (keys (rows ▸ List.mem_cons_self)) hf
  · exact regular_updateMany hs id h ht (keys (rows ▸ List.mem_cons_self))

omit hs references in
theorem regular_idMatch (d : Dialect) (ids : List Value) (offset : Int) :
    Regular names counts (idMatch d idField ids offset) := by
  unfold idMatch
  split
  · exact (((regular_name id).append (regular_word (by decide))).append (regular_mark _ _)).append
      (regular_word (by decide))
  · exact ((regular_name id).append (regular_word (by decide))).append
      (regular_commaList (regular_markers _ _)).between

theorem regular_delete (d : Dialect) {op : DeleteOp} (hn : ∀ s ∈ (Operation.delete op).names, names s) :
    Regular names counts (delete d schema op) := by
  obtain ⟨ht, hf⟩ := List.forall_mem_cons.mp hn
  have head : Regular names counts (.word "DELETE FROM " ++ table schema op.table) :=
    (regular_word (by decide)).append (regular_table hs ht)
  have filtered := head.append (regular_word (s := " WHERE ") (by decide))
  unfold delete
  split
  · exact head
  · exact filtered.append (regular_idMatch id d _ 0)
  · exact filtered.append (Predicate.regular_compileList references false 0 hf)

theorem regular_draft {d : Dialect} {op : Operation} {x : Draft} (h : draft d schema op = .ok x) (star : names "*")
    (hn : ∀ s ∈ op.names, names s) (hc : ∀ n ∈ op.counts, counts n) : Regular names counts x := by
  cases op with
  | create op => exact regular_insert hs h hn
  | read op =>
    obtain rfl := Except.ok.inj h
    exact regular_select hs references star hn hc
  | update op => exact regular_update hs references id h hn
  | delete op =>
    obtain rfl := Except.ok.inj h
    exact regular_delete hs references id d hn

end
end QueryGate.Sql
