import QueryGate.Proofs.Extent
import QueryGate.Proofs.JsonNumber
import QueryGate.Proofs.JsonString
import QueryGate.Proofs.Lookup

/-! Values written in JSON are read back, with whatever stands behind them in a list or an object. -/
namespace QueryGate
open Outcome

def Scalar.isJson : Scalar → Bool
  | .date _ | .moment _ => false
  | _ => true

/-- The values that JSON has: no days or moments in them, and no key twice in an object. Their texts are free of lone
halves of surrogate pairs, as all texts are. -/
inductive Value.IsJson : Value → Prop
  | scalar {s : Scalar} (h : s.isJson = true) : IsJson (.scalar s)
  | list {items : List Value} (each : ∀ v ∈ items, IsJson v) : IsJson (.list items)
  | object {fields : Fields} (once : fields.keys.Nodup) (each : ∀ f ∈ fields, IsJson f.2) : IsJson (.object fields)

namespace Value

@[simp] theorem isJson_scalar {s : Scalar} : (Value.scalar s).IsJson ↔ s.isJson = true :=
  ⟨fun | .scalar h => h, .scalar⟩

@[simp] theorem isJson_list {items : List Value} : (Value.list items).IsJson ↔ ∀ v ∈ items, v.IsJson :=
  ⟨fun | .list each => each, .list⟩

@[simp] theorem isJson_object {fields : Fields} :
    (Value.object fields).IsJson ↔ fields.keys.Nodup ∧ ∀ f ∈ fields, f.2.IsJson :=
  ⟨fun | .object once each => ⟨once, each⟩, fun h => .object h.1 h.2⟩

end Value

namespace Fields

theorem set_of_notMem {fields : Fields} {key : String} (h : key ∉ fields.keys) (value : Value) :
    fields.set key value = fields ++ [(key, value)] := by
  induction fields with
  | nil => rfl
  | cons field fields ih =>
    obtain ⟨other, behind⟩ := List.ne_and_not_mem_of_not_mem_cons h
    rw [Fields.set, if_neg other.symm, ih behind, List.cons_append]

end Fields

namespace Json

def opensValue (c : Char) : Bool := !isBlank c && c != ']' && c != '\x7d' && c != '\uFEFF'

def Begins (s : List Char) : Prop := ∃ c more, s = c :: more ∧ opensValue c = true

theorem Begins.append {s : List Char} (h : Begins s) (rest : List Char) : Begins (s ++ rest) := by
  obtain ⟨c, more, rfl, opens⟩ := h
  exact ⟨c, more ++ rest, rfl, opens⟩

theorem Begins.ne_nil {s : List Char} (h : Begins s) : s ≠ [] := by
  obtain ⟨c, more, rfl, -⟩ := h
  exact List.cons_ne_nil c more

theorem Begins.skipBlanks {s : List Char} (h : Begins s) : skipBlanks s = s := by
  obtain ⟨c, more, rfl, opens⟩ := h
  simp only [opensValue, Bool.and_eq_true, Bool.not_eq_true'] at opens
  exact List.dropWhile_cons_of_neg (by simp [opens.1.1.1])

theorem Begins.head?_ne {s : List Char} (h : Begins s) {c : Char} (closing : opensValue c = false) : s.head? ≠ some c := by
  obtain ⟨d, more, rfl, opens⟩ := h
  intro e
  obtain rfl : d = c := Option.some.inj e
  exact absurd opens (by simp [closing])

def EndsValue (rest : List Char) : Prop := ∀ c, rest.head? = some c → c = ',' ∨ c = ']' ∨ c = '\x7d'

theorem endsValue_cons {c : Char} (h : c = ',' ∨ c = ']' ∨ c = '\x7d') (rest : List Char) : EndsValue (c :: rest) :=
  fun _ e => Option.some.inj e ▸ h

theorem EndsValue.head?_ne {rest : List Char} (h : EndsValue rest) {c : Char}
    (other : c ≠ ',' ∧ c ≠ ']' ∧ c ≠ '\x7d') : rest.head? ≠ some c := by
  intro e
  rcases h c e with same | same | same
  · exact other.1 same
  · exact other.2.1 same
  · exact other.2.2 same

theorem EndsValue.endsNumber {rest : List Char} (h : EndsValue rest) : EndsNumber rest where
  digit := by
    intro c e
    rcases h c e with rfl | rfl | rfl <;> rfl
  point := h.head?_ne (by decide)
  lower := h.head?_ne (by decide)
  upper := h.head?_ne (by decide)

theorem ne_of_isDigit {c d : Char} (digit : c.isDigit = true) (other : d.isDigit = false) : c ≠ d := by
  rintro rfl
  exact absurd digit (by simp [other])

theorem signed_takeMinus (s : List Char) : signed (takeMinus s).1 (takeMinus s).2 = s := by
  unfold takeMinus
  split <;> rfl

theorem takeWhole?_begins {s : List Char} {parts : List Char × List Char} (h : takeWhole? s = some parts) :
    ∃ c more, s = c :: more ∧ c.isDigit = true := by
  unfold takeWhole? at h
  split at h
  next rest => exact ⟨'0', rest, rfl, rfl⟩
  next =>
    cases s with
    | nil => exact absurd h nofun
    | cons c more =>
      refine ⟨c, more, rfl, ?_⟩
      by_contra other
      rw [List.span_eq_takeWhile_dropWhile, List.takeWhile_cons_of_neg other] at h
      exact absurd h nofun

theorem readNumber?_begins {s : List Char} {r : Value × List Char} (h : readNumber? s = some r) :
    ∃ negative c more, s = signed negative (c :: more) ∧ c.isDigit = true := by
  rw [readNumber?_eq] at h
  obtain ⟨parts, whole, -⟩ := Option.map_eq_some_iff.mp h
  obtain ⟨c, more, digits, digit⟩ := takeWhole?_begins whole
  exact ⟨(takeMinus s).1, c, more, digits ▸ (signed_takeMinus s).symm, digit⟩

theorem namedValues_begin {n : List Char × Value} (h : n ∈ namedValues) :
    ∃ negative c more, n.1 = signed negative (c :: more) ∧ c.isDigit = false ∧ c ≠ '-' := by
  simp only [namedValues, List.mem_cons, List.not_mem_nil, or_false] at h
  rcases h with rfl | rfl | rfl | rfl | rfl | rfl
  · exact ⟨false, 'n', _, rfl, rfl, by decide⟩
  · exact ⟨false, 't', _, rfl, rfl, by decide⟩
  · exact ⟨false, 'f', _, rfl, rfl, by decide⟩
  · exact ⟨false, 'N', _, rfl, rfl, by decide⟩
  · exact ⟨false, 'I', _, rfl, rfl, by decide⟩
  · exact ⟨true, 'I', _, rfl, rfl, by decide⟩

theorem find?_namedValues {c : Char} (digit : c.isDigit = true) (negative : Bool) (more : List Char) :
    (namedValues.find? fun n => n.1.isPrefixOf (signed negative (c :: more))) = none := by
  rw [List.find?_eq_none]
  intro n hn
  obtain ⟨sign, b, name, spelled, letter, notMinus⟩ := namedValues_begin hn
  have other := (ne_of_isDigit digit letter).symm
  have minus := (ne_of_isDigit (d := '-') digit rfl).symm
  rw [spelled]
  cases sign <;> cases negative <;> simp [signed, other, notMinus, minus]

theorem readPlain_number {s rest : List Char} {v : Value} (h : readNumber? s = some (v, rest)) (short : v.isShort = true) :
    readPlain s = .ok (v, rest) := by
  obtain ⟨negative, c, more, rfl, digit⟩ := readNumber?_begins h
  simp only [readPlain, find?_namedValues digit negative more, h]
  split
  next n _ same =>
    obtain ⟨rfl, rfl⟩ := Prod.mk.inj (Option.some.inj same)
    rw [Value.isShort_scalar, Scalar.isShort, Bool.not_eq_true'] at short
    rw [short]
    rfl
  next same => rw [← Option.some.inj same]
  next same => exact absurd same nofun

theorem readValue_plain {s : List Char} (quote : s.head? ≠ some '"') (bracket : s.head? ≠ some '[')
    (brace : s.head? ≠ some '\x7b') (fuel room : Nat) : readValue (fuel + 1) room s = readPlain s := by
  rw [readValue]
  · rintro more rfl
    exact quote rfl
  · rintro more rfl
    exact bracket rfl
  · rintro more rfl
    exact brace rfl

theorem readValue_number {s rest : List Char} {v : Value} (h : readNumber? s = some (v, rest)) (short : v.isShort = true)
    (fuel room : Nat) : readValue (fuel + 1) room s = .ok (v, rest) := by
  obtain ⟨negative, c, more, rfl, digit⟩ := readNumber?_begins h
  have other {d : Char} (notDigit : d.isDigit = false) (notMinus : d ≠ '-') :
      (signed negative (c :: more)).head? ≠ some d := by
    intro e
    cases negative with
    | true => exact notMinus (Option.some.inj e).symm
    | false => exact ne_of_isDigit digit notDigit (Option.some.inj e)
  rw [readValue_plain (other rfl (by decide)) (other rfl (by decide)) (other rfl (by decide))]
  exact readPlain_number h short

theorem readValue_writeString (s : String) (fuel room : Nat) (rest : List Char) :
    readValue (fuel + 1) room (writeString s ++ rest) = .ok (.text s, rest) := by
  have quoted := readQuoted_writeString s rest
  rw [writeString, List.cons_append] at quoted ⊢
  rw [readValue, quoted]
  rfl

theorem readValue_writeScalar {s : Scalar} (json : s.isJson = true) (short : s.isShort = true) (fuel room : Nat)
    {rest : List Char} (ends : EndsValue rest) :
    readValue (fuel + 1) room (writeScalar s ++ rest) = .ok (.scalar s, rest) := by
  rw [← Value.isShort_scalar] at short
  cases s with
  | null => rfl
  | bool b => cases b <;> rfl
  | int n => exact readValue_number (readNumber?_int n ends.endsNumber) short fuel room
  | float x =>
    cases x with
    | nan => rfl
    | infinite negative => cases negative <;> rfl
    | finite negative m e normal => exact readValue_number (readNumber?_finite normal ends.endsNumber) short fuel room
  | text s => exact readValue_writeString s fuel room rest
  | date d => exact absurd json Bool.false_ne_true
  | moment m => exact absurd json Bool.false_ne_true

theorem begins_writeString (s : String) : Begins (writeString s) := ⟨'"', _, rfl, rfl⟩

theorem begins_number {s : List Char} {r : Value × List Char} (h : readNumber? (s ++ []) = some r) : Begins s := by
  obtain ⟨negative, c, more, e, digit⟩ := readNumber?_begins h
  rw [List.append_nil] at e
  cases negative with
  | true => exact ⟨'-', c :: more, e, rfl⟩
  | false =>
    have other {d : Char} (notDigit : d.isDigit = false) : c ≠ d := ne_of_isDigit digit notDigit
    refine ⟨c, more, e, ?_⟩
    simp [opensValue, isBlank, other]

theorem write_begins (v : Value) : Begins (write v) := by
  have ends : EndsNumber [] := ⟨noDigit_nil, nofun, nofun, nofun⟩
  cases v with
  | scalar s =>
    cases s with
    | null => exact ⟨'n', _, rfl, rfl⟩
    | bool b =>
      cases b with
      | true => exact ⟨'t', _, rfl, rfl⟩
      | false => exact ⟨'f', _, rfl, rfl⟩
    | int n => exact begins_number (readNumber?_int n ends)
    | float x =>
      cases x with
      | nan => exact ⟨'N', _, rfl, rfl⟩
      | infinite negative =>
        cases negative with
        | true => exact ⟨'-', _, rfl, rfl⟩
        | false => exact ⟨'I', _, rfl, rfl⟩
      | finite negative m e normal => exact begins_number (readNumber?_finite normal ends)
    | text s => exact begins_writeString s
    | date d => exact begins_writeString _
    | moment m => exact begins_writeString _
  | list items => exact ⟨'[', _, rfl, rfl⟩
  | object fields => exact ⟨'\x7b', _, rfl, rfl⟩

/-- A value that is read back wherever it may stand, if there are as many steps as it has characters. -/
def ReadBack (room : Nat) (v : Value) : Prop := ∀ fuel rest, (write v).length ≤ fuel → EndsValue rest →
  readValue fuel room (write v ++ rest) = .ok (v, rest)

theorem writeItems_cons (v : Value) (items : List Value) : writeItems (v :: items) = write v ++ writeItemsAfter items := rfl

theorem writeItems_begins {items : List Value} (given : items ≠ []) : Begins (writeItems items) := by
  obtain ⟨v, items, rfl⟩ := List.exists_cons_of_ne_nil given
  exact (write_begins v).append _

theorem readItems_writeItems {room : Nat} {items : List Value} (each : ∀ v ∈ items, ReadBack room v) (given : items ≠ []) {fuel : Nat}
    (enough : (writeItems items).length ≤ fuel) (rest : List Char) :
    readItems fuel room (writeItems items ++ rest) = .ok (items, rest) := by
  induction items generalizing fuel with
  | nil => exact absurd rfl given
  | cons v items ih =>
    obtain ⟨first, others⟩ := List.forall_mem_cons.mp each
    have long := List.length_pos_iff.mpr (write_begins v).ne_nil
    rw [writeItems_cons, List.length_append] at enough
    obtain ⟨fuel, rfl⟩ := Nat.exists_eq_add_one_of_ne_zero (n := fuel) (by omega)
    rw [writeItems_cons, List.append_assoc, readItems]
    cases items with
    | nil =>
      have item : readValue fuel room (write v ++ (']' :: rest)) = .ok (v, ']' :: rest) :=
        first fuel _ (Nat.le_of_succ_le_succ enough) (endsValue_cons (by decide) rest)
      exact bind_eq_ok.mpr ⟨_, item, rfl⟩
    | cons w items =>
      have after : writeItemsAfter (w :: items) = ',' :: writeItems (w :: items) := rfl
      rw [after] at enough ⊢
      rw [List.length_cons] at enough
      have item : readValue fuel room (write v ++ (',' :: (writeItems (w :: items) ++ rest))) = .ok (v, _) :=
        first fuel _ (by omega) (endsValue_cons (by decide) _)
      have some : w :: items ≠ [] := List.cons_ne_nil w items
      refine bind_eq_ok.mpr ⟨_, item, ?_⟩
      show (readItems fuel room (skipBlanks (writeItems (w :: items) ++ rest)) >>= _) = _
      rw [((writeItems_begins some).append rest).skipBlanks]
      exact bind_eq_ok.mpr ⟨_, ih others some (by omega), rfl⟩

theorem writeMembers_cons (key : String) (v : Value) (fields : Fields) :
    writeMembers ((key, v) :: fields) = writeString key ++ ':' :: (write v ++ writeMembersAfter fields) := rfl

theorem writeMembers_begins {fields : Fields} (given : fields ≠ []) : Begins (writeMembers fields) := by
  obtain ⟨⟨key, v⟩, fields, rfl⟩ := List.exists_cons_of_ne_nil given
  exact (begins_writeString key).append _

theorem readMembers_key (fuel room : Nat) (before : Fields) (key : String) (s : List Char) :
    readMembers (fuel + 1) room before (writeString key ++ ':' :: s) = (readValue fuel room (skipBlanks s) >>= fun (value, rest) =>
      match skipBlanks rest with
      | '\x7d' :: rest => .ok (before.set key value, rest)
      | ',' :: rest => readMembers fuel room (before.set key value) (skipBlanks rest)
      | rest => failAt .expectingComma rest) := by
  have quoted := readQuoted_writeString key (':' :: s)
  rw [writeString, List.cons_append] at quoted ⊢
  rw [readMembers, quoted]
  rfl

theorem readMembers_writeMembers {room : Nat} {fields : Fields} (each : ∀ f ∈ fields, ReadBack room f.2) (given : fields ≠ []) {fuel : Nat}
    (enough : (writeMembers fields).length ≤ fuel) {before : Fields} (once : (before ++ fields).keys.Nodup)
    (rest : List Char) : readMembers fuel room before (writeMembers fields ++ rest) = .ok (before ++ fields, rest) := by
  induction fields generalizing fuel before with
  | nil => exact absurd rfl given
  | cons field fields ih =>
    obtain ⟨key, v⟩ := field
    obtain ⟨first, others⟩ := List.forall_mem_cons.mp each
    have first : ReadBack room v := first
    have new : key ∉ before.keys := by
      rw [Fields.keys_append, Fields.keys_cons, List.nodup_append] at once
      exact fun again => once.2.2 key again key List.mem_cons_self rfl
    rw [writeMembers_cons, List.length_append, List.length_cons, List.length_append] at enough
    obtain ⟨fuel, rfl⟩ := Nat.exists_eq_add_one_of_ne_zero (n := fuel) (by omega)
    rw [writeMembers_cons, List.append_assoc, List.cons_append, List.append_assoc, readMembers_key,
      ((write_begins v).append _).skipBlanks]
    cases fields with
    | nil =>
      have value : readValue fuel room (write v ++ ('\x7d' :: rest)) = .ok (v, '\x7d' :: rest) :=
        first fuel _ (by omega) (endsValue_cons (by decide) rest)
      refine bind_eq_ok.mpr ⟨_, value, ?_⟩
      show Except.ok (before.set key v, rest) = _
      rw [Fields.set_of_notMem new]
    | cons next fields =>
      have after : writeMembersAfter (next :: fields) = ',' :: writeMembers (next :: fields) := rfl
      rw [after] at enough ⊢
      rw [List.length_cons] at enough
      have value : readValue fuel room (write v ++ (',' :: (writeMembers (next :: fields) ++ rest))) = .ok (v, _) :=
        first fuel _ (by omega) (endsValue_cons (by decide) _)
      have some : next :: fields ≠ [] := List.cons_ne_nil next fields
      have together : before ++ (key, v) :: next :: fields = (before ++ [(key, v)]) ++ next :: fields := by
        rw [List.append_assoc, List.singleton_append]
      refine bind_eq_ok.mpr ⟨_, value, ?_⟩
      show readMembers fuel room (before.set key v) (skipBlanks (writeMembers (next :: fields) ++ rest)) = _
      rw [((writeMembers_begins some).append rest).skipBlanks, Fields.set_of_notMem new, together]
      exact ih others some (by omega) (together ▸ once)

theorem readValue_list {fuel room : Nat} {s : List Char} {r : List Value × List Char} (opens : Begins s)
    (h : readItems fuel room s = .ok r) : readValue (fuel + 1) (room + 1) ('[' :: s) = .ok (.list r.1, r.2) := by
  have notClosed : ∀ rest, skipBlanks s ≠ ']' :: rest := by
    intro rest e
    exact opens.head?_ne rfl (congrArg List.head? (opens.skipBlanks ▸ e))
  rw [readValue.eq_5 _ _ _ notClosed, opens.skipBlanks]
  exact bind_eq_ok.mpr ⟨_, h, rfl⟩

theorem readValue_object {fuel room : Nat} {s : List Char} {r : Fields × List Char} (opens : Begins s)
    (h : readMembers fuel room [] s = .ok r) : readValue (fuel + 1) (room + 1) ('\x7b' :: s) = .ok (.object r.1, r.2) := by
  have notClosed : ∀ rest, skipBlanks s ≠ '\x7d' :: rest := by
    intro rest e
    exact opens.head?_ne rfl (congrArg List.head? (opens.skipBlanks ▸ e))
  rw [readValue.eq_8 _ _ _ notClosed, opens.skipBlanks]
  exact bind_eq_ok.mpr ⟨_, h, rfl⟩

theorem readValue_write {v : Value} (json : v.IsJson) {room : Nat} (fits : v.Fits room) : ReadBack room v := by
  induction json generalizing room with
  | @scalar s h =>
    intro fuel rest enough ends
    have long := List.length_pos_iff.mpr (write_begins (.scalar s)).ne_nil
    obtain ⟨fuel, rfl⟩ := Nat.exists_eq_add_one_of_ne_zero (n := fuel) (by omega)
    exact readValue_writeScalar h (Value.fits_scalar.mp fits) fuel room ends
  | @list items each ih =>
    intro fuel rest enough ends
    obtain ⟨room, rfl⟩ := fits.exists_list
    rw [write, List.length_cons] at enough
    obtain ⟨fuel, rfl⟩ := Nat.exists_eq_add_one_of_ne_zero (n := fuel) (by omega)
    cases items with
    | nil => rfl
    | cons v items =>
      have given : v :: items ≠ [] := List.cons_ne_nil v items
      have inside := fun v member => ih v member (Value.fits_list.mp fits v member)
      exact readValue_list ((writeItems_begins given).append rest)
        (readItems_writeItems inside given (Nat.le_of_succ_le_succ enough) rest)
  | @object fields once each ih =>
    intro fuel rest enough ends
    obtain ⟨room, rfl⟩ := fits.exists_object
    rw [write, List.length_cons] at enough
    obtain ⟨fuel, rfl⟩ := Nat.exists_eq_add_one_of_ne_zero (n := fuel) (by omega)
    cases fields with
    | nil => rfl
    | cons field fields =>
      have given : field :: fields ≠ [] := List.cons_ne_nil field fields
      have inside := fun f member => ih f member (Value.fits_object.mp fits f member)
      exact readValue_object ((writeMembers_begins given).append rest)
        (readMembers_writeMembers inside given (Nat.le_of_succ_le_succ enough) once rest)

section
variable {v : Value} (json : v.IsJson) {room : Nat} (fits : v.Fits room)
include json fits

theorem readAll_write : readAll room (write v) = .ok v := by
  have value : readValue (2 * (write v).length + 2) room (write v ++ []) = .ok (v, []) :=
    readValue_write json fits _ [] (by omega) nofun
  rw [List.append_nil] at value
  rw [readAll, (write_begins v).skipBlanks]
  exact bind_eq_ok.mpr ⟨_, value, rfl⟩

theorem read_write : read room (write v) = .ok v := by
  rw [read, if_neg ((write_begins v).head?_ne rfl), readAll_write json fits]

end

theorem readNumber?_scalar {s rest : List Char} {v : Value} (h : readNumber? s = some (v, rest)) :
    (∃ n, v = .int n) ∨ ∃ x, v = .float x := by
  rw [readNumber?_eq] at h
  obtain ⟨parts, -, same⟩ := Option.map_eq_some_iff.mp h
  rw [← (Prod.mk.inj same).1, numberOf]
  split
  · exact .inl ⟨_, rfl⟩
  · exact .inr ⟨_, rfl⟩

theorem readPlain_fits {s rest : List Char} {v : Value} (h : readPlain s = .ok (v, rest)) (room : Nat) : v.Fits room := by
  unfold readPlain at h
  split at h
  next found =>
    obtain ⟨rfl, -⟩ := Prod.mk.inj (Except.ok.inj h)
    have named : ∀ n ∈ namedValues, n.2.levels = 0 ∧ n.2.isShort = true := by decide
    obtain ⟨flat, short⟩ := named _ (List.mem_of_find?_eq_some found)
    exact ⟨flat.trans_le (Nat.zero_le room), short⟩
  next =>
    split at h
    next =>
      obtain ⟨short, h⟩ := unless_eq_ok.mp h
      obtain ⟨rfl, -⟩ := Prod.mk.inj (Except.ok.inj h)
      exact Value.fits_scalar.mpr (by simpa [Scalar.isShort] using short)
    next other found =>
      obtain rfl := Except.ok.inj h
      rcases readNumber?_scalar found with ⟨n, rfl⟩ | ⟨x, rfl⟩
      · exact (other n rest rfl).elim
      · exact Value.fits_scalar.mpr rfl
    next => exact absurd h nofun

theorem set_fits {room : Nat} {fields : Fields} (h : ∀ f ∈ fields, f.2.Fits room) (key : String) {v : Value}
    (fits : v.Fits room) : ∀ f ∈ fields.set key v, f.2.Fits room := by
  induction fields with
  | nil => exact List.forall_mem_singleton.mpr fits
  | cons field fields ih =>
    obtain ⟨first, others⟩ := List.forall_mem_cons.mp h
    rw [Fields.set]
    split
    · exact List.forall_mem_cons.mpr ⟨fits, others⟩
    · exact List.forall_mem_cons.mpr ⟨first, ih others⟩

/-- Whatever is read in so many steps has integers with texts and no more levels than there is room for: a value, the
items of a list, and the members of an object behind those before them. -/
structure ReadsFitting (fuel : Nat) : Prop where
  value : ∀ {room s v rest}, readValue fuel room s = .ok (v, rest) → v.Fits room
  items : ∀ {room s items rest}, readItems fuel room s = .ok (items, rest) → ∀ v ∈ items, v.Fits room
  members : ∀ {room before s fields rest}, readMembers fuel room before s = .ok (fields, rest) →
    (∀ f ∈ before, f.2.Fits room) → ∀ f ∈ fields, f.2.Fits room

section
variable {fuel room : Nat} {s rest : List Char} (h : ReadsFitting fuel)
include h

theorem ReadsFitting.readValue_succ {v : Value} (read : readValue (fuel + 1) room s = .ok (v, rest)) : v.Fits room := by
  rw [readValue.eq_def] at read
  dsimp only at read
  split at read
  · obtain ⟨r, -, read⟩ := bind_eq_ok.mp read
    obtain ⟨rfl, -⟩ := Prod.mk.inj (Except.ok.inj read)
    exact Value.fits_scalar.mpr rfl
  · split at read
    · exact absurd read nofun
    · obtain ⟨rfl, -⟩ := Prod.mk.inj (Except.ok.inj read)
      exact Value.fits_list.mpr (List.forall_mem_nil _)
    · obtain ⟨r, inside, read⟩ := bind_eq_ok.mp read
      obtain ⟨rfl, -⟩ := Prod.mk.inj (Except.ok.inj read)
      exact Value.fits_list.mpr (h.items inside)
  · split at read
    · exact absurd read nofun
    · obtain ⟨rfl, -⟩ := Prod.mk.inj (Except.ok.inj read)
      exact Value.fits_object.mpr (List.forall_mem_nil _)
    · obtain ⟨r, inside, read⟩ := bind_eq_ok.mp read
      obtain ⟨rfl, -⟩ := Prod.mk.inj (Except.ok.inj read)
      exact Value.fits_object.mpr (h.members inside (List.forall_mem_nil _))
  · exact readPlain_fits read room

theorem ReadsFitting.readItems_succ {items : List Value} (read : readItems (fuel + 1) room s = .ok (items, rest)) :
    ∀ v ∈ items, v.Fits room := by
  rw [readItems] at read
  obtain ⟨r, first, read⟩ := bind_eq_ok.mp read
  dsimp only at read
  split at read
  · obtain ⟨rfl, -⟩ := Prod.mk.inj (Except.ok.inj read)
    exact List.forall_mem_singleton.mpr (h.value first)
  · obtain ⟨others, behind, read⟩ := bind_eq_ok.mp read
    obtain ⟨rfl, -⟩ := Prod.mk.inj (Except.ok.inj read)
    exact List.forall_mem_cons.mpr ⟨h.value first, h.items behind⟩
  · exact absurd read nofun

theorem ReadsFitting.readMembers_succ {before fields : Fields}
    (read : readMembers (fuel + 1) room before s = .ok (fields, rest)) (inside : ∀ f ∈ before, f.2.Fits room) :
    ∀ f ∈ fields, f.2.Fits room := by
  rw [readMembers.eq_def] at read
  dsimp only at read
  split at read
  · obtain ⟨key, -, read⟩ := bind_eq_ok.mp read
    split at read
    · obtain ⟨r, value, read⟩ := bind_eq_ok.mp read
      have inside := set_fits inside key.1 (h.value value)
      split at read
      · obtain ⟨rfl, -⟩ := Prod.mk.inj (Except.ok.inj read)
        exact inside
      · exact h.members read inside
      · exact absurd read nofun
    · exact absurd read nofun
  · exact absurd read nofun

end

theorem readsFitting (fuel : Nat) : ReadsFitting fuel := by
  induction fuel with
  | zero => exact ⟨fun h => absurd h nofun, fun h => absurd h nofun, fun h => absurd h nofun⟩
  | succ fuel ih => exact ⟨ih.readValue_succ, ih.readItems_succ, ih.readMembers_succ⟩

theorem readAll_fits {room : Nat} {s : List Char} {v : Value} (h : readAll room s = .ok v) : v.Fits room := by
  obtain ⟨r, read, h⟩ := bind_eq_ok.mp h
  obtain ⟨-, h⟩ := when_eq_ok.mp h
  obtain rfl := Except.ok.inj h
  exact (readsFitting _).value read

theorem read_fits {room : Nat} {s : List Char} {v : Value} (h : read room s = .ok v) : v.Fits room :=
  readAll_fits (unless_eq_ok.mp h).2

end Json
end QueryGate
