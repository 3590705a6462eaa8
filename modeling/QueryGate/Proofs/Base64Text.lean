import QueryGate.Wire.Envelope

/-! What is written in base64 is read back: four characters at a time, the last of them padded. -/
namespace QueryGate.Wire.Base64

theorem sextet?_sextetChar {n : Nat} (h : n < 64) : sextet? (sextetChar n) = some n := by
  have all : ∀ n < 64, sextet? (sextetChar n) = some n := by decide
  exact all n h

def IsWritten (c : Char) : Prop := (∃ n < 64, c = sextetChar n) ∨ c = '='

theorem isWritten_sextetChar {n : Nat} (h : n < 64) : IsWritten (sextetChar n) := .inl ⟨n, h, rfl⟩

theorem sextetChar_plain {n : Nat} (h : n < 64) :
    sextetChar n ≠ '=' ∧ (sextetChar n).toNat < 128 ∧ Envelope.standardChar (sextetChar n) = sextetChar n := by
  have all : ∀ n < 64, sextetChar n ≠ '=' ∧ (sextetChar n).toNat < 128 ∧
    Envelope.standardChar (sextetChar n) = sextetChar n := by decide
  exact all n h

theorem IsWritten.ascii {c : Char} (h : IsWritten c) : c.toNat < 128 := by
  rcases h with ⟨n, hn, rfl⟩ | rfl
  · exact (sextetChar_plain hn).2.1
  · decide

theorem IsWritten.standard {c : Char} (h : IsWritten c) : Envelope.standardChar c = c := by
  rcases h with ⟨n, hn, rfl⟩ | rfl
  · exact (sextetChar_plain hn).2.2
  · decide

theorem encode_written (bytes : List UInt8) : ∀ c ∈ encode bytes, IsWritten c := by
  induction bytes using encode.induct with
  | case1 a b c rest ih =>
    have ha := a.toNat_lt
    have hb := b.toNat_lt
    have hc := c.toNat_lt
    rw [encode]
    simp only [List.forall_mem_cons]
    refine ⟨?_, ?_, ?_, ?_, ih⟩ <;> exact isWritten_sextetChar (by omega)
  | case2 a b =>
    have ha := a.toNat_lt
    have hb := b.toNat_lt
    rw [encode]
    simp only [List.forall_mem_cons]
    refine ⟨?_, ?_, ?_, .inr rfl, List.forall_mem_nil _⟩ <;> exact isWritten_sextetChar (by omega)
  | case3 a =>
    have ha := a.toNat_lt
    rw [encode]
    simp only [List.forall_mem_cons]
    refine ⟨?_, ?_, .inr rfl, .inr rfl, List.forall_mem_nil _⟩ <;> exact isWritten_sextetChar (by omega)
  | case4 => exact List.forall_mem_nil _

theorem length_encode (bytes : List UInt8) : (encode bytes).length % 4 = 0 := by
  induction bytes using encode.induct with
  | case1 a b c rest ih =>
    rw [encode]
    simp only [List.length_cons]
    omega
  | case2 a b => simp [encode]
  | case3 a => simp [encode]
  | case4 => rfl

theorem encode_begins {bytes : List UInt8} (h : bytes ≠ []) : ∃ n < 64, ∃ rest, encode bytes = sextetChar n :: rest := by
  cases bytes with
  | nil => exact absurd rfl h
  | cons a rest =>
    have ha := a.toNat_lt
    rcases rest with _ | ⟨b, _ | ⟨c, rest⟩⟩
    · rw [encode]
      exact ⟨a.toNat * 16 / 64, by omega, _, rfl⟩
    · have hb := b.toNat_lt
      rw [encode]
      exact ⟨(a.toNat * 256 + b.toNat) * 4 / 4096, by omega, _, rfl⟩
    · have hb := b.toNat_lt
      have hc := c.toNat_lt
      rw [encode]
      exact ⟨((a.toNat * 256 + b.toNat) * 256 + c.toNat) / 262144, by omega, _, rfl⟩

theorem decodeFrom_sextetChar {p : Progress} (padded : p.padded = false) {n : Nat} (h : n < 64) (rest : List Char) :
    decodeFrom p (sextetChar n :: rest) = ((p.take n).1.toList ++ ·) <$> decodeFrom (p.take n).2 rest := by
  rw [decodeFrom, if_neg (sextetChar_plain h).1, sextet?_sextetChar h, padded]
  rfl

theorem decodeFrom_encode (count : Nat) (bytes : List UInt8) :
    decodeFrom ⟨0, 0, 0, false, count⟩ (encode bytes) = .ok bytes := by
  have byte {b : UInt8} {n : Nat} (h : n = b.toNat) : UInt8.ofNat n = b := by rw [h, UInt8.ofNat_toNat]
  induction bytes using encode.induct generalizing count with
  | case1 a b c rest ih =>
    have ha := a.toNat_lt
    have hb := b.toNat_lt
    have hc := c.toNat_lt
    obtain ⟨n, hn⟩ : ∃ n, (a.toNat * 256 + b.toNat) * 256 + c.toNat = n := ⟨_, rfl⟩
    have first : UInt8.ofNat (n / 262144 * 4 + n / 4096 % 64 / 16) = a := byte (by omega)
    have second : UInt8.ofNat (n / 4096 % 64 % 16 * 16 + n / 64 % 64 / 4) = b := byte (by omega)
    have third : UInt8.ofNat (n / 64 % 64 % 4 * 64 + n % 64) = c := byte (by omega)
    rw [encode, hn]
    rw [decodeFrom_sextetChar rfl (by omega), decodeFrom_sextetChar rfl (by omega),
      decodeFrom_sextetChar rfl (by omega), decodeFrom_sextetChar rfl (by omega)]
    simp only [Progress.take, ih, first, second, third]
    rfl
  | case2 a b =>
    have ha := a.toNat_lt
    have hb := b.toNat_lt
    obtain ⟨n, hn⟩ : ∃ n, (a.toNat * 256 + b.toNat) * 4 = n := ⟨_, rfl⟩
    have first : UInt8.ofNat (n / 4096 * 4 + n / 64 % 64 / 16) = a := byte (by omega)
    have second : UInt8.ofNat (n / 64 % 64 % 16 * 16 + n % 64 / 4) = b := byte (by omega)
    rw [encode, hn]
    rw [decodeFrom_sextetChar rfl (by omega), decodeFrom_sextetChar rfl (by omega), decodeFrom_sextetChar rfl (by omega)]
    simp only [Progress.take, first, second]
    rfl
  | case3 a =>
    have ha := a.toNat_lt
    obtain ⟨n, hn⟩ : ∃ n, a.toNat * 16 = n := ⟨_, rfl⟩
    have first : UInt8.ofNat (n / 64 * 4 + n % 64 / 16) = a := byte (by omega)
    rw [encode, hn]
    rw [decodeFrom_sextetChar rfl (by omega), decodeFrom_sextetChar rfl (by omega)]
    simp only [Progress.take, first]
    rfl
  | case4 => rfl

theorem decode_encode (bytes : List UInt8) : decode (encode bytes) = .ok bytes := by
  have ascii : (encode bytes).any (fun c => 128 ≤ c.toNat) = false := by
    rw [List.any_eq_false]
    intro c hc
    have small := (encode_written bytes c hc).ascii
    simpa using small
  have head : (encode bytes).head? ≠ some '=' := by
    cases bytes with
    | nil => nofun
    | cons b rest =>
      obtain ⟨n, hn, chars, written⟩ := encode_begins (List.cons_ne_nil b rest)
      rw [written]
      exact fun e => (sextetChar_plain hn).1 (Option.some.inj e)
  rw [decode, ascii, if_neg Bool.false_ne_true, if_neg head]
  exact decodeFrom_encode 0 bytes

theorem normalize_encode (bytes : List UInt8) : Envelope.normalize (encode bytes) = encode bytes := by
  have standard : ∀ c ∈ encode bytes, Envelope.standardChar c = c := fun c hc => (encode_written bytes c hc).standard
  rw [Envelope.normalize, length_encode, List.map_congr_left standard, List.map_id']
  exact List.append_nil _

end QueryGate.Wire.Base64
