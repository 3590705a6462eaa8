import Mathlib.Algebra.Group.Int.Defs
import Mathlib.Algebra.Group.Nat.Defs
import QueryGate.Json.Writer

/-! How deep values are nested and whether their integers have texts: what can be written, and what is read. -/
namespace QueryGate

namespace Numeral

theorem isLong_iff {n : Int} : isLong n = true ↔ 10 ^ maxDigits ≤ n.natAbs := by
  unfold isLong digitCount
  rw [decide_eq_true_iff, ← Nat.not_le, Nat.length_toDigits_le_iff (by decide) (by decide), Nat.not_lt]

theorem isLong_pow : isLong (10 ^ maxDigits) = true := by
  rw [isLong_iff]
  generalize maxDigits = digits
  exact Nat.le_of_eq (Int.natAbs_pow 10 digits).symm

end Numeral

namespace Value

theorem isShort_scalar (s : Scalar) : (scalar s).isShort = s.isShort := by
  simp only [isShort, scalars, List.all_cons, List.all_nil, Bool.and_true]

theorem isShort_list {items : List Value} : (list items).isShort = true ↔ ∀ v ∈ items, v.isShort = true := by
  show (scalarsItems items).all Scalar.isShort = true ↔ _
  induction items with
  | nil => exact iff_of_true rfl (List.forall_mem_nil _)
  | cons v items ih =>
    rw [scalarsItems, List.all_append, Bool.and_eq_true, ih, List.forall_mem_cons]
    rfl

theorem isShort_object {fields : Fields} :
    (object fields).isShort = true ↔ ∀ f ∈ fields, f.2.isShort = true := by
  show (scalarsFields fields).all Scalar.isShort = true ↔ _
  induction fields with
  | nil => exact iff_of_true rfl (List.forall_mem_nil _)
  | cons field fields ih =>
    rw [scalarsFields, List.all_append, Bool.and_eq_true, ih, List.forall_mem_cons]
    rfl

theorem levels_list {items : List Value} {n : Nat} : (list items).levels ≤ n + 1 ↔ ∀ v ∈ items, v.levels ≤ n := by
  rw [levels, Nat.add_le_add_iff_right]
  induction items with
  | nil => exact iff_of_true (Nat.zero_le n) (List.forall_mem_nil _)
  | cons v items ih => rw [levelsItems, Nat.max_le, ih, List.forall_mem_cons]

theorem levels_object {fields : Fields} {n : Nat} :
    (object fields).levels ≤ n + 1 ↔ ∀ f ∈ fields, f.2.levels ≤ n := by
  rw [levels, Nat.add_le_add_iff_right]
  induction fields with
  | nil => exact iff_of_true (Nat.zero_le n) (List.forall_mem_nil _)
  | cons field fields ih => rw [levelsFields, Nat.max_le, ih, List.forall_mem_cons]

/-- A value with integers that have texts, nested no deeper than there is room for. -/
structure Fits (room : Nat) (v : Value) : Prop where
  shallow : v.levels ≤ room
  short : v.isShort = true

theorem fits_iff {room : Nat} {v : Value} : v.Fits room ↔ v.isShort = true ∧ v.levels ≤ room :=
  ⟨fun fits => ⟨fits.short, fits.shallow⟩, fun h => ⟨h.2, h.1⟩⟩

theorem Fits.mono {room more : Nat} {v : Value} (h : v.Fits room) (le : room ≤ more) : v.Fits more :=
  ⟨Nat.le_trans h.shallow le, h.short⟩

theorem fits_scalar {room : Nat} {s : Scalar} : (scalar s).Fits room ↔ s.isShort = true := by
  rw [← isShort_scalar]
  exact ⟨Fits.short, fun short => ⟨Nat.zero_le room, short⟩⟩

theorem not_fits_list (items : List Value) : ¬ (list items).Fits 0 := fun h => Nat.not_succ_le_zero _ h.shallow

theorem not_fits_object (fields : Fields) : ¬ (object fields).Fits 0 := fun h => Nat.not_succ_le_zero _ h.shallow

theorem Fits.exists_list {room : Nat} {items : List Value} (h : (list items).Fits room) : ∃ inner, room = inner + 1 :=
  Nat.exists_eq_add_one_of_ne_zero fun none => not_fits_list items (none ▸ h)

theorem Fits.exists_object {room : Nat} {fields : Fields} (h : (object fields).Fits room) : ∃ inner, room = inner + 1 :=
  Nat.exists_eq_add_one_of_ne_zero fun none => not_fits_object fields (none ▸ h)

theorem fits_list {room : Nat} {items : List Value} : (list items).Fits (room + 1) ↔ ∀ v ∈ items, v.Fits room := by
  constructor
  · exact fun h v member => ⟨levels_list.mp h.shallow v member, isShort_list.mp h.short v member⟩
  · intro h
    exact ⟨levels_list.mpr fun v member => (h v member).shallow, isShort_list.mpr fun v member => (h v member).short⟩

theorem fits_object {room : Nat} {fields : Fields} :
    (object fields).Fits (room + 1) ↔ ∀ f ∈ fields, f.2.Fits room := by
  constructor
  · exact fun h f member => ⟨levels_object.mp h.shallow f member, isShort_object.mp h.short f member⟩
  · intro h
    exact ⟨levels_object.mpr fun f member => (h f member).shallow, isShort_object.mpr fun f member => (h f member).short⟩

end Value

namespace Json

theorem unwritableItem?_eq_none {room : Nat} {items : List Value} :
    unwritableItem? room items = none ↔ ∀ v ∈ items, unwritable? room v = none := by
  induction items with
  | nil => exact iff_of_true rfl (List.forall_mem_nil _)
  | cons v items ih => rw [unwritableItem?, Option.or_eq_none_iff, ih, List.forall_mem_cons]

theorem unwritableMember?_eq_none {room : Nat} {fields : Fields} :
    unwritableMember? room fields = none ↔ ∀ f ∈ fields, unwritable? room f.2 = none := by
  induction fields with
  | nil => exact iff_of_true rfl (List.forall_mem_nil _)
  | cons field fields ih => rw [unwritableMember?, Option.or_eq_none_iff, ih, List.forall_mem_cons]

theorem unwritable?_eq_none {room : Nat} {v : Value} : unwritable? room v = none ↔ v.Fits room := by
  induction room generalizing v with
  | zero =>
    cases v with
    | scalar s => simp [unwritable?, Value.fits_scalar]
    | list items => simp [unwritable?, Value.not_fits_list]
    | object fields => simp [unwritable?, Value.not_fits_object]
  | succ room ih =>
    cases v with
    | scalar s => simp [unwritable?, Value.fits_scalar]
    | list items => simp only [unwritable?, unwritableItem?_eq_none, ih, Value.fits_list]
    | object fields => simp only [unwritable?, unwritableMember?_eq_none, ih, Value.fits_object]

end Json
end QueryGate
