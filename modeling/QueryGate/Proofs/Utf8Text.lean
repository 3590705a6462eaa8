import QueryGate.Wire.Utf8

/-! Every text is read back from its bytes in UTF-8, whose form the size of a code decides. -/
namespace QueryGate.Wire

theorem charOf?_toNat (c : Char) : charOf? c.toNat = some c := by
  have valid : c.toNat < 0xD800 ∨ 0xDFFF < c.toNat ∧ c.toNat < 0x110000 := c.valid
  rw [charOf?, if_neg (by omega), Char.ofNat_toNat]

theorem spell_toNat (encoding : String) (c : Char) (position : Nat) (byte : UInt8) (count : Nat)
    (rest : Except ByteFault (List Char)) :
    spell encoding c.toNat position byte count rest = (c :: ·) <$> rest := by
  simp only [spell, charOf?_toNat]

namespace Utf8

theorem isTail_of_toNat {b : UInt8} (h : 128 ≤ b.toNat ∧ b.toNat ≤ 191) : isTail b = true := by
  have low : 0x80 ≤ b := UInt8.le_iff_toNat_le.mpr h.1
  have high : b ≤ 0xBF := UInt8.le_iff_toNat_le.mpr h.2
  simp only [isTail, low, high, decide_true, Bool.and_self]

theorem mayFollow_of_toNat {a b : UInt8} (tail : 128 ≤ b.toNat ∧ b.toNat ≤ 191) (overlong : a.toNat = 224 → 160 ≤ b.toNat)
    (half : a.toNat = 237 → b.toNat ≤ 159) (overlong' : a.toNat = 240 → 144 ≤ b.toNat)
    (high : a.toNat = 244 → b.toNat ≤ 143) : mayFollow a b = true := by
  rw [mayFollow, isTail_of_toNat tail, Bool.true_and]
  simp only [beq_iff_eq, ← UInt8.toNat_inj]
  split
  next e => exact decide_eq_true (UInt8.le_iff_toNat_le.mpr (overlong e))
  split
  next e => exact decide_eq_true (UInt8.le_iff_toNat_le.mpr (half e))
  split
  next e => exact decide_eq_true (UInt8.le_iff_toNat_le.mpr (overlong' e))
  split
  next e => exact decide_eq_true (UInt8.le_iff_toNat_le.mpr (high e))
  next => rfl

section
variable (halves : Bool) (position : Nat) {a b c d : UInt8} (s : List UInt8)

theorem decodeFrom_one (h : a.toNat < 128) :
    decodeFrom halves position (a :: s) = (Char.ofNat a.toNat :: ·) <$> decodeFrom halves (position + 1) s := by
  have small : a < 0x80 := UInt8.lt_iff_toNat_lt.mpr h
  rw [decodeFrom.eq_def]
  exact if_pos small

theorem lead_of_toNat (h : 194 ≤ a.toNat ∧ a.toNat ≤ 244) : ¬a < 0x80 ∧ (a < 0xC2 || 0xF4 < a) = false := by
  simp only [UInt8.lt_iff_toNat_lt, Bool.or_eq_false_iff, decide_eq_false_iff_not]
  refine ⟨?_, ?_, ?_⟩
  · show ¬a.toNat < 128
    omega
  · show ¬a.toNat < 194
    omega
  · show ¬244 < a.toNat
    omega

theorem decodeFrom_two (ha : 194 ≤ a.toNat ∧ a.toNat < 224) (hb : 128 ≤ b.toNat ∧ b.toNat ≤ 191) :
    decodeFrom halves position (a :: b :: s) =
      spell "utf-8" (a.toNat % 32 * 64 + low b) position a 2 (decodeFrom halves (position + 2) s) := by
  obtain ⟨big, lead⟩ := lead_of_toNat (a := a) (by omega)
  have follows : mayFollow a b = true := mayFollow_of_toNat hb (by omega) (by omega) (by omega) (by omega)
  have two : a < 0xE0 := UInt8.lt_iff_toNat_lt.mpr ha.2
  rw [decodeFrom.eq_def]
  simp only [if_neg big, lead, follows, two, Bool.not_true, Bool.false_and, Bool.false_eq_true, if_false, if_true]

theorem decodeFrom_three (ha : 224 ≤ a.toNat ∧ a.toNat < 240) (hb : 128 ≤ b.toNat ∧ b.toNat ≤ 191)
    (overlong : a.toNat = 224 → 160 ≤ b.toNat) (half : a.toNat = 237 → b.toNat ≤ 159)
    (hc : 128 ≤ c.toNat ∧ c.toNat ≤ 191) :
    decodeFrom halves position (a :: b :: c :: s) =
      spell "utf-8" ((a.toNat % 16 * 64 + low b) * 64 + low c) position a 3 (decodeFrom halves (position + 3) s) := by
  obtain ⟨big, lead⟩ := lead_of_toNat (a := a) (by omega)
  have follows : mayFollow a b = true := mayFollow_of_toNat hb overlong half (by omega) (by omega)
  have notTwo : ¬a < 0xE0 := fun h => Nat.not_lt.mpr ha.1 (UInt8.lt_iff_toNat_lt.mp h)
  have three : a < 0xF0 := UInt8.lt_iff_toNat_lt.mpr ha.2
  rw [decodeFrom.eq_def]
  simp only [if_neg big, lead, follows, notTwo, isTail_of_toNat hc, three, Bool.not_true, Bool.false_and,
    Bool.false_eq_true, if_false, if_true]

theorem decodeFrom_four (ha : 240 ≤ a.toNat ∧ a.toNat ≤ 244) (hb : 128 ≤ b.toNat ∧ b.toNat ≤ 191)
    (overlong : a.toNat = 240 → 144 ≤ b.toNat) (high : a.toNat = 244 → b.toNat ≤ 143)
    (hc : 128 ≤ c.toNat ∧ c.toNat ≤ 191) (hd : 128 ≤ d.toNat ∧ d.toNat ≤ 191) :
    decodeFrom halves position (a :: b :: c :: d :: s) =
      spell "utf-8" (((a.toNat % 8 * 64 + low b) * 64 + low c) * 64 + low d) position a 4
        (decodeFrom halves (position + 4) s) := by
  obtain ⟨big, lead⟩ := lead_of_toNat (a := a) (by omega)
  have follows : mayFollow a b = true := mayFollow_of_toNat hb (by omega) (by omega) overlong high
  have notTwo : ¬a < 0xE0 := fun h => by
    have small : a.toNat < 224 := UInt8.lt_iff_toNat_lt.mp h
    omega
  have notThree : ¬a < 0xF0 := fun h => Nat.not_lt.mpr ha.1 (UInt8.lt_iff_toNat_lt.mp h)
  rw [decodeFrom.eq_def]
  simp only [if_neg big, lead, follows, notTwo, isTail_of_toNat hc, notThree, isTail_of_toNat hd, Bool.not_true,
    Bool.false_and, Bool.false_eq_true, if_false]

end

theorem decodeFrom_encodeChar (halves : Bool) (position : Nat) (c : Char) (s : List UInt8) :
    ∃ next, decodeFrom halves position (String.utf8EncodeChar c ++ s) = (c :: ·) <$> decodeFrom halves next s := by
  have valid : c.toNat < 0xD800 ∨ 0xDFFF < c.toNat ∧ c.toNat < 0x110000 := c.valid
  have byte (n : Nat) (h : n < 256) : ∃ b, UInt8.ofNat n = b ∧ b.toNat = n := ⟨_, rfl, UInt8.toNat_ofNat_of_lt h⟩
  unfold String.utf8EncodeChar
  rw [show c.val.toNat = c.toNat from rfl]
  obtain ⟨n, hn⟩ : ∃ n, c.toNat = n := ⟨_, rfl⟩
  have whole {code count : Nat} {a : UInt8} {rest : Except ByteFault (List Char)} (h : code = n) :
      spell "utf-8" code position a count rest = (c :: ·) <$> rest := by
    rw [h, ← hn, spell_toNat]
  rw [hn] at valid ⊢
  dsimp only
  split
  next one =>
    obtain ⟨a, ea, ha⟩ := byte n (by omega)
    have code : Char.ofNat a.toNat = c := by rw [ha, ← hn, Char.ofNat_toNat]
    rw [ea, ← code]
    exact ⟨_, decodeFrom_one halves position s (by omega)⟩
  split
  next two =>
    obtain ⟨a, ea, ha⟩ := byte (n / 64 % 32 + 192) (by omega)
    obtain ⟨b, eb, hb⟩ := byte (n % 64 + 128) (by omega)
    have code : a.toNat % 32 * 64 + b.toNat % 64 = n := by omega
    rw [ea, eb]
    exact ⟨_, (decodeFrom_two halves position s (by omega) (by omega)).trans (whole code)⟩
  split
  next three =>
    obtain ⟨a, ea, ha⟩ := byte (n / 4096 % 16 + 224) (by omega)
    obtain ⟨b, eb, hb⟩ := byte (n / 64 % 64 + 128) (by omega)
    obtain ⟨c', ec, hc⟩ := byte (n % 64 + 128) (by omega)
    have code : (a.toNat % 16 * 64 + b.toNat % 64) * 64 + c'.toNat % 64 = n := by omega
    rw [ea, eb, ec]
    exact ⟨_, (decodeFrom_three halves position s (by omega) (by omega) (by omega) (by omega) (by omega)).trans (whole code)⟩
  next =>
    obtain ⟨a, ea, ha⟩ := byte (n / 262144 % 8 + 240) (by omega)
    obtain ⟨b, eb, hb⟩ := byte (n / 4096 % 64 + 128) (by omega)
    obtain ⟨c', ec, hc⟩ := byte (n / 64 % 64 + 128) (by omega)
    obtain ⟨d, ed, hd⟩ := byte (n % 64 + 128) (by omega)
    have code : ((a.toNat % 8 * 64 + b.toNat % 64) * 64 + c'.toNat % 64) * 64 + d.toNat % 64 = n := by omega
    rw [ea, eb, ec, ed]
    exact ⟨_, (decodeFrom_four halves position s (by omega) (by omega) (by omega) (by omega) (by omega) (by omega)).trans (whole code)⟩

theorem decodeFrom_encode (halves : Bool) (position : Nat) (s : List Char) :
    decodeFrom halves position (encode s) = .ok s := by
  induction s generalizing position with
  | nil => rfl
  | cons c s ih =>
    obtain ⟨next, step⟩ := decodeFrom_encodeChar halves position c (encode s)
    rw [encode, List.flatMap_cons]
    exact step.trans (by rw [ih]; rfl)

theorem decode_encode (s : List Char) : decode (encode s) = .ok s := decodeFrom_encode false 0 s

end Utf8
end QueryGate.Wire
