import QueryGate.Proofs.Extent
import QueryGate.Proofs.Failing
import QueryGate.Proofs.ReadFrom

/-! What stops the validation of a query: a refusal, a group whose connective is a list or an object, or an integer that
has no text. -/
namespace QueryGate
open Outcome

def QueryFault.IsRefusal : QueryFault → Prop
  | .rejected _ => True
  | _ => False

abbrev Refuses {α : Type} (x : Except QueryFault α) : Prop := Fails QueryFault.IsRefusal x

namespace Value

/-- A value that stands somewhere in another one. -/
inductive Inside : Value → Value → Prop
  | here (v : Value) : Inside v v
  | item {v item : Value} {items : List Value} (member : item ∈ items) (h : Inside v item) : Inside v (.list items)
  | field {v w : Value} {fields : Fields} {key : String} (member : (key, w) ∈ fields) (h : Inside v w) :
      Inside v (.object fields)

theorem Inside.isShort {v w : Value} (h : v.Inside w) (long : v.isShort = false) : w.isShort = false := by
  rw [Bool.eq_false_iff] at long ⊢
  induction h with
  | here => exact long
  | item member _ ih => exact fun short => ih (isShort_list.mp short _ member)
  | field member _ ih => exact fun short => ih (isShort_object.mp short _ member)

theorem Inside.fits {room : Nat} {v w : Value} (h : v.Inside w) (fits : w.Fits room) : v.Fits room := by
  induction h generalizing room with
  | here => exact fits
  | item member _ ih =>
    obtain ⟨inner, rfl⟩ := fits.exists_list
    exact (ih (fits_list.mp fits _ member)).mono (Nat.le_succ inner)
  | field member _ ih =>
    obtain ⟨inner, rfl⟩ := fits.exists_object
    exact (ih (fits_object.mp fits _ member)).mono (Nat.le_succ inner)

theorem Inside.trans {u v w : Value} (h : Inside u v) (h' : Inside v w) : Inside u w := by
  induction h' with
  | here => exact h
  | item member _ ih => exact .item member ih
  | field member _ ih => exact .field member ih

def composite? : Value → Option Composite
  | .scalar _ => none
  | .list _ => some .list
  | .object _ => some .object

/-- A group of conditions whose connective is a list or an object. -/
def IsOddGroup (c : Composite) (v : Value) : Prop :=
  ∃ fields, v = .object fields ∧ Form.predicateTag? fields = some .group ∧
    (Fields.firstOf fields Form.logicNames).composite? = some c

end Value

theorem Fields.firstOf_cases (fields : Fields) (names : List String) :
    fields.firstOf names = .null ∨ ∃ key ∈ names, (key, fields.firstOf names) ∈ fields := by
  unfold Fields.firstOf
  cases found : fields.firstOf? names with
  | none => exact .inl rfl
  | some entry =>
    obtain ⟨name, known, value⟩ := List.exists_of_findSome?_eq_some found
    obtain ⟨v, lookup, rfl⟩ := Option.map_eq_some_iff.mp value
    obtain ⟨before, after, rfl, -⟩ := List.lookup_eq_some_iff.mp lookup
    exact .inr ⟨name, known, List.mem_append_right _ List.mem_cons_self⟩

def ValidationOptions.limits (o : ValidationOptions) : List Int :=
  [o.maxDepth, o.maxConditions, o.maxSelect, o.maxGroupBy] ++ o.maxValueLength.toList

/-- The faults that a query can have by what it is made of and by the limits it is held to. -/
inductive QueryFault.Of (o : ValidationOptions) (raw : Value) : QueryFault → Prop
  | refusal (r : Rejection) : Of o raw (.rejected r)
  | connective {c : Composite} {group : Value} (inside : group.Inside raw) (odd : group.IsOddGroup c) :
      Of o raw (.notComparable c)
  | longValue (long : raw.isShort = false) : Of o raw .longInteger
  | longLimit {n : Int} (limit : n ∈ o.limits) (long : Numeral.isLong n = true) : Of o raw .longInteger

namespace QueryFault
variable {o : ValidationOptions}

theorem Of.mono {v raw : Value} (inside : v.Inside raw) {f : QueryFault} (h : Of o v f) : Of o raw f := by
  cases h with
  | refusal r => exact .refusal r
  | connective deeper odd => exact .connective (deeper.trans inside) odd
  | longValue long => exact .longValue (inside.isShort long)
  | longLimit limit long => exact .longLimit limit long

theorem of_null {raw : Value} {f : QueryFault} (h : Of o .null f) : Of o raw f := by
  cases h with
  | refusal r => exact .refusal r
  | connective inside odd =>
    cases inside
    obtain ⟨fields, isObject, -⟩ := odd
    exact absurd isObject nofun
  | longValue long => exact absurd long (by decide)
  | longLimit limit long => exact .longLimit limit long

theorem of_firstOf {fields : Fields} (names : List String) {f : QueryFault} (h : Of o (fields.firstOf names) f) :
    Of o (.object fields) f := by
  rcases fields.firstOf_cases names with null | ⟨key, -, member⟩
  · rw [null] at h
    exact of_null h
  · exact h.mono (.field member (.here _))

end QueryFault

theorem Outcome.Fails.of {α : Type} {x : Except QueryFault α} (h : Refuses x) {o : ValidationOptions} (raw : Value) :
    Fails (QueryFault.Of o raw) x := by
  intro f fails
  cases f with
  | rejected r => exact .refusal r
  | _ => exact (h _ fails).elim

section
variable {α : Type} {o : ValidationOptions} {r : Rejection}

end

namespace PredicateShape

theorem ofFields_group {fields : Fields} {operator children negate : Value}
    (h : ofFields fields = .ok (.group operator children negate)) :
    (Form.predicateTag? fields = some .group ∧ operator = fields.firstOf Form.logicNames ∨
      ∃ s, operator = .text s) ∧ ∃ names, children = fields.firstOf names := by
  cases foundIn_of_ofFields h with
  | group tag => exact ⟨.inl ⟨tag, rfl⟩, _, rfl⟩
  | shorthand tag only => exact ⟨.inr ⟨_, rfl⟩, _, rfl⟩

end PredicateShape

theorem validateChildren_eq {o : ValidationOptions} {v : Value} {children : List Value}
    (h : validateChildren o v = .ok children) : v = .list children := by
  unfold validateChildren at h
  split at h
  · obtain ⟨-, h⟩ := unless_eq_ok.mp h
    obtain ⟨-, h⟩ := unless_eq_ok.mp h
    rw [Except.ok.inj h]
  · exact absurd h nofun

end QueryGate
