import QueryGate.Proofs.Transport

/-! An envelope is opened in each form that it can be sent in: in the standard alphabet or the URL-safe one or a
mixture of both, with its padding or without. -/
namespace QueryGate.Wire

namespace Envelope

inductive SentAs : Char → Char → Prop
  | same (c : Char) : SentAs c c
  | minus : SentAs '+' '-'
  | underscore : SentAs '/' '_'

/-- A text is a form of an envelope if each of its characters is one of the envelope's as it is sent, and nothing
behind them but padding is left out. -/
def IsForm (envelope sent : List Char) : Prop :=
  ∃ kept n, envelope = kept ++ List.replicate n '=' ∧ List.Forall₂ SentAs kept sent

theorem sentAs_standardChar (c : Char) : SentAs (standardChar c) c := by
  unfold standardChar
  split
  next minus => exact minus ▸ .minus
  next =>
    split
    next underscore => exact underscore ▸ .underscore
    next => exact .same c

end Envelope

namespace Base64
open Envelope

theorem IsWritten.standard_of_sentAs {c sent : Char} (h : IsWritten c) (form : SentAs c sent) :
    standardChar sent = c := by
  cases form with
  | same => exact h.standard
  | minus => rfl
  | underscore => rfl

theorem map_standardChar {kept sent : List Char} (written : ∀ c ∈ kept, IsWritten c)
    (form : List.Forall₂ SentAs kept sent) : sent.map standardChar = kept := by
  induction form with
  | nil => rfl
  | cons head _ ih =>
    obtain ⟨first, rest⟩ := List.forall_mem_cons.mp written
    rw [List.map_cons, first.standard_of_sentAs head, ih rest]

theorem count_padding_encode (bytes : List UInt8) : (encode bytes).count '=' ≤ 2 := by
  have data {n : Nat} (h : n < 64) (rest : List Char) : (sextetChar n :: rest).count '=' = rest.count '=' :=
    List.count_cons_of_ne (sextetChar_plain h).1
  induction bytes using encode.induct with
  | case1 a b c rest ih =>
    have ha := a.toNat_lt
    have hb := b.toNat_lt
    have hc := c.toNat_lt
    rw [encode, data (by omega), data (by omega), data (by omega), data (by omega)]
    exact ih
  | case2 a b =>
    have ha := a.toNat_lt
    have hb := b.toNat_lt
    rw [encode, data (by omega), data (by omega), data (by omega)]
    decide
  | case3 a =>
    have ha := a.toNat_lt
    rw [encode, data (by omega), data (by omega)]
    decide
  | case4 => exact Nat.zero_le 2

/-- What is left out of the padding is less than a group, so that the length of the rest tells how much it was. -/
theorem padding_left_out {bytes : List UInt8} {kept : List Char} {n : Nat}
    (h : encode bytes = kept ++ List.replicate n '=') : (4 - kept.length % 4) % 4 = n := by
  have few : kept.count '=' + n ≤ 2 := by
    have all := count_padding_encode bytes
    rwa [h, List.count_append, List.count_replicate_self] at all
  have whole : (kept.length + n) % 4 = 0 := by
    have all := length_encode bytes
    rwa [h, List.length_append, List.length_replicate] at all
  omega

theorem normalize_eq_encode_iff {bytes : List UInt8} {sent : List Char} :
    Envelope.normalize sent = encode bytes ↔ IsForm (encode bytes) sent := by
  constructor
  · intro h
    refine ⟨_, _, h.symm, List.forall₂_map_left_iff.mpr (List.forall₂_same.mpr fun c _ => sentAs_standardChar c)⟩
  · rintro ⟨kept, n, split, form⟩
    have written : ∀ c ∈ kept, IsWritten c := fun c hc =>
      encode_written bytes c (split ▸ List.mem_append_left _ hc)
    rw [Envelope.normalize, map_standardChar written form, ← form.length_eq, padding_left_out split, split]

end Base64

namespace Envelope

theorem form_ne_nil {v : Value} {sent : List Char} (form : IsForm (encodeChars v) sent) : sent ≠ [] := by
  rintro rfl
  exact encodeChars_ne_nil v (Base64.normalize_eq_encode_iff.mpr form).symm

theorem decodeChars_form (room : Nat) {v : Value} {sent : List Char} (form : IsForm (encodeChars v) sent) :
    decodeChars room sent = decodeChars room (encodeChars v) := by
  have normal : normalize sent = normalize (encodeChars v) :=
    (Base64.normalize_eq_encode_iff.mpr form).trans (Base64.normalize_encode _).symm
  rw [decodeChars, decodeChars, normal]

/-- A JSON value goes into an envelope if its integers have texts and there is room for its levels, and where there is
room to read it, each form of that envelope gives it back, with the keys of its objects in their order. -/
theorem decode_form {v : Value} (json : v.IsJson) (writing reading : Nat) :
    ((∃ text, encode writing v = .ok text) ↔ v.isShort = true ∧ v.levels ≤ writing) ∧
      ∀ text, encode writing v = .ok text → v.levels ≤ reading → decode reading (.text text) = .ok v ∧
        ∀ sent : String, IsForm text.toList sent.toList → decode reading (.text sent) = .ok v := by
  refine ⟨exists_encode_iff.trans Value.fits_iff, fun text written shallow => ?_⟩
  refine ⟨decode_encode json written shallow, fun sent form => ?_⟩
  obtain ⟨fits, chars⟩ := encode_ok_iff.mp written
  rw [chars] at form
  rw [decode_text reading (form_ne_nil form), decodeChars_form reading form,
    decodeChars_encodeChars json ⟨shallow, fits.short⟩]

def askedNotes : Value := .object
  [("where", .object [("field", .text "note"), ("op", .text "="), ("value", .text "é?>?>??")]), ("limit", .int 5)]

def askedNotesForm : String :=
  "eyJ3aGVyZSI6eyJmaWVsZCI6Im5vdGUiLCJvcCI6Ij0iLCJ2YWx1ZSI6Ilx1MDBlOT8-Pz4/PyJ9LCJsaW1pdCI6NX0"

theorem decode_form_askedNotes : askedNotes.IsJson ∧ ∃ text, encode 3 askedNotes = .ok text ∧
    IsForm text.toList askedNotesForm.toList ∧ decode 2 (.text text) = .ok askedNotes ∧
    decode 2 (.text askedNotesForm) = .ok askedNotes := by
  have json : askedNotes.IsJson := by simp [askedNotes, Scalar.isJson]
  obtain ⟨written, opens⟩ := decode_form json 3 2
  obtain ⟨text, written⟩ := written.mpr ⟨by decide, by decide⟩
  have normal : normalize askedNotesForm.toList = encodeChars askedNotes := by decide +kernel
  have form : IsForm text.toList askedNotesForm.toList := by
    rw [(encode_ok_iff.mp written).2]
    exact Base64.normalize_eq_encode_iff.mp normal
  obtain ⟨whole, forms⟩ := opens text written (by decide)
  exact ⟨json, text, written, form, whole, forms askedNotesForm form⟩

theorem rowsUpTo_noEnvelope : (rowsUpTo (10 ^ Numeral.maxDigits)).IsJson ∧
    encode 1000 (rowsUpTo (10 ^ Numeral.maxDigits)) = .error .longInteger := by
  refine ⟨?_, encode_rowsUpTo Numeral.isLong_pow 999⟩
  simp [rowsUpTo, Scalar.isJson]

end Envelope
end QueryGate.Wire
