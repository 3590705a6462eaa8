import QueryGate.Query.Wire
import QueryGate.Validation.Predicate

/-! What objects are looked up for: the values behind their keys, in objects put together from optional fields. -/
namespace QueryGate

theorem Value.text?_eq_some {v : Value} {s : String} : v.text? = some s ↔ v = .text s := by
  constructor
  · intro h
    unfold text? at h
    split at h
    · rw [Option.some.inj h]
    · exact absurd h nofun
  · rintro rfl
    rfl

namespace Fields

@[simp] theorem value?_nil (key : String) : Fields.value? [] key = none := rfl

@[simp] theorem value?_cons (name : String) (v : Value) (rest : Fields) (key : String) :
    Fields.value? ((name, v) :: rest) key = if key == name then some v else Fields.value? rest key := by
  unfold Fields.value?
  rw [List.lookup_cons]
  cases key == name <;> rfl

@[simp] theorem value?_append (front back : Fields) (key : String) :
    Fields.value? (front ++ back) key = (front.value? key).or (back.value? key) := List.lookup_append

@[simp] theorem value?_optionalField (name : String) (v : Option Value) (key : String) :
    Fields.value? (optionalField name v) key = if key == name then v else none := by
  cases v with
  | none => simp [optionalField]
  | some v => simp [optionalField]

theorem firstOf_cons (fields : Fields) (key : String) (keys : List String) :
    fields.firstOf (key :: keys) = (fields.value? key).getD (fields.firstOf keys) := by
  unfold Fields.firstOf Fields.firstOf?
  rw [List.findSome?_cons]
  cases fields.value? key <;> rfl

@[simp] theorem firstOf_nil (fields : Fields) : fields.firstOf [] = .null := rfl

theorem value?_set (fields : Fields) (key : String) (v : Value) : (fields.set key v).value? key = some v := by
  induction fields with
  | nil => simp [Fields.set]
  | cons field rest ih =>
    obtain ⟨k, w⟩ := field
    rw [Fields.set]
    split
    next same => simp [same]
    next other => simp [Ne.symm other, ih]

theorem value?_set_other {fields : Fields} {key other : String} (v : Value) (h : other ≠ key) :
    (fields.set key v).value? other = fields.value? other := by
  induction fields with
  | nil => simp [Fields.set, h]
  | cons field rest ih =>
    obtain ⟨name, w⟩ := field
    rw [Fields.set]
    split
    next same => simp [same, h]
    · rw [value?_cons, value?_cons, ih]

theorem firstOf_set_other {fields : Fields} {key : String} (v : Value) {keys : List String} (h : key ∉ keys) :
    (fields.set key v).firstOf keys = fields.firstOf keys := by
  induction keys with
  | nil => rfl
  | cons other rest ih =>
    obtain ⟨ne, h⟩ := not_or.mp (mt List.mem_cons.mpr h)
    rw [firstOf_cons, firstOf_cons, value?_set_other v (Ne.symm ne), ih h]

@[simp] theorem keys_nil : Fields.keys [] = [] := rfl

@[simp] theorem keys_cons (name : String) (v : Value) (rest : Fields) :
    Fields.keys ((name, v) :: rest) = name :: Fields.keys rest := rfl

@[simp] theorem keys_append (front back : Fields) : Fields.keys (front ++ back) = front.keys ++ back.keys :=
  List.map_append

theorem mem_keys_set {fields : Fields} {key name : String} {v : Value} (h : name ∈ (fields.set key v).keys) :
    name = key ∨ name ∈ fields.keys := by
  induction fields with
  | nil => exact .inl (List.mem_singleton.mp h)
  | cons field rest ih =>
    obtain ⟨other, w⟩ := field
    rw [Fields.set] at h
    split at h
    · exact .inr h
    · rw [keys_cons, List.mem_cons] at h ⊢
      rcases h with rfl | h
      · exact .inr (.inl rfl)
      · exact (ih h).imp_right .inr

theorem keys_optionalField (name : String) (v : Option Value) : (Fields.keys (optionalField name v)).Sublist [name] := by
  cases v with
  | none => exact List.nil_sublist _
  | some v => exact List.Sublist.refl _

end Fields

namespace PredicateShape

theorem unknownKeys_eq_nil {known : List String} {fields : Fields} :
    unknownKeys known fields = [] ↔ ∀ key ∈ fields.keys, key ∈ known := by
  have unsorted : unknownKeys known fields = [] ↔ (fields.keys.filter fun key => !known.contains key) = [] := by
    rw [← List.length_eq_zero_iff, ← List.length_eq_zero_iff, unknownKeys, Text.sorted, List.length_mergeSort]
  rw [unsorted, List.filter_eq_nil_iff]
  simp only [Bool.not_eq_true', Bool.not_eq_false, List.contains_iff_mem]

theorem unknownKeys_of_sublist {known names : List String} {fields : Fields} (keys : fields.keys.Sublist names)
    (all : ∀ name ∈ names, name ∈ known) : unknownKeys known fields = [] :=
  unknownKeys_eq_nil.mpr fun key hkey => all key (keys.subset hkey)

end PredicateShape

theorem Condition.keys_toWire (c : Condition) {fields : Fields} (wire : c.toWire = .object fields) :
    fields.keys.Sublist ["field", "operator", "value"] := by
  obtain rfl := Value.object.inj wire
  exact (List.Sublist.refl ["field", "operator"]).append (Fields.keys_optionalField "value" _)

theorem Predicate.keys_toWire (operator : Logic) (children : List Predicate) (negate : Bool) {fields : Fields}
    (wire : (Predicate.group operator children negate).toWire = .object fields) :
    fields.keys.Sublist ["operator", "conditions", "not"] := by
  obtain rfl := Value.object.inj wire
  exact List.Sublist.refl _

theorem Join.keys_toWire (j : Join) {fields : Fields} (wire : j.toWire = .object fields) :
    fields.keys.Sublist ["type", "table", "alias", "on"] := by
  obtain rfl := Value.object.inj wire
  rw [Fields.keys_append, Fields.keys_append]
  exact ((List.Sublist.refl ["type", "table"]).append (Fields.keys_optionalField "alias" _)).append
    (List.Sublist.refl ["on"])

theorem Order.keys_toWire (order : Order) {fields : Fields} (wire : order.toWire = .object fields) :
    fields.keys.Sublist ["field", "direction"] := by
  obtain rfl := Value.object.inj wire
  exact List.Sublist.refl _

theorem Query.keys_toWire (q : Query) {fields : Fields} (wire : q.toWire = .object fields) :
    fields.keys.Sublist ["select", "where", "joins", "groupBy", "having", "orderBy", "limit", "offset"] := by
  obtain rfl := Value.object.inj wire
  have clause (name : String) (v : Option Value) := Fields.keys_optionalField name v
  simp only [Fields.keys_append]
  exact (((((((clause "select" _).append (clause "where" _)).append (clause "joins" _)).append
    (clause "groupBy" _)).append (clause "having" _)).append (clause "orderBy" _)).append (clause "limit" _)).append
      (clause "offset" _)

end QueryGate
