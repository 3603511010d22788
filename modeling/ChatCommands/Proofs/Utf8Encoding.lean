import ChatCommands.Calendar.Iso8601
import ChatCommands.Text.Utf8

/-!
# Bytes that encode texts

The decoder takes exactly the encodings of texts, and gives the text back (`decode_eq_ok_iff`). It
reads one sequence after another, and the sequences that it takes are the encodings of single
characters (`Sequence.encode_eq`, `sequence_encode`).
-/

namespace ChatCommands

namespace Utf8

open Iso8601 (utf8)
open String (utf8EncodeChar)

/-! ## Classes of bytes -/

theorem width_eq (a : UInt8) :
    width a =
      if a.toNat < 0x80 then 1
      else if a.toNat < 0xC2 then 0
      else if a.toNat < 0xE0 then 2
      else if a.toNat < 0xF0 then 3
      else if a.toNat < 0xF5 then 4
      else 0 := by
  simp only [width, UInt8.lt_iff_toNat_lt]
  rfl

theorem width_eq_one_iff {a : UInt8} : width a = 1 ↔ a.toNat < 0x80 := by
  rw [width_eq]
  grind

theorem width_eq_two_iff {a : UInt8} : width a = 2 ↔ 0xC2 ≤ a.toNat ∧ a.toNat < 0xE0 := by
  rw [width_eq]
  grind

theorem width_eq_three_iff {a : UInt8} : width a = 3 ↔ 0xE0 ≤ a.toNat ∧ a.toNat < 0xF0 := by
  rw [width_eq]
  grind

theorem width_eq_four_iff {a : UInt8} : width a = 4 ↔ 0xF0 ≤ a.toNat ∧ a.toNat < 0xF5 := by
  rw [width_eq]
  grind

theorem continues_iff {b : UInt8} : continues b = true ↔ 0x80 ≤ b.toNat ∧ b.toNat < 0xC0 := by
  simp only [continues, Bool.and_eq_true, decide_eq_true_eq, UInt8.lt_iff_toNat_lt,
    UInt8.le_iff_toNat_le]
  rfl

theorem fits_iff {a b : UInt8} :
    fits a b = true ↔ (0x80 ≤ b.toNat ∧ b.toNat < 0xC0) ∧ (a.toNat = 0xE0 → 0xA0 ≤ b.toNat) ∧
      (a.toNat = 0xED → b.toNat < 0xA0) ∧ (a.toNat = 0xF0 → 0x90 ≤ b.toNat) ∧
      (a.toNat = 0xF4 → b.toNat < 0x90) := by
  simp only [fits, Bool.and_eq_true, continues_iff, Bool.not_eq_true', Bool.and_eq_false_imp,
    beq_iff_eq, decide_eq_false_iff_not, UInt8.lt_iff_toNat_lt, UInt8.le_iff_toNat_le,
    ← UInt8.toNat_inj, Nat.not_lt, Nat.not_le, and_assoc]
  rfl

/-! ## Sequences -/

/-- The sequences of bytes that `sequence` takes, and the codes that it takes them for. -/
inductive Sequence : List UInt8 → Nat → Prop
  | one (a : UInt8) (hwidth : width a = 1) : Sequence [a] a.toNat
  | two (a b : UInt8) (hwidth : width a = 2) (hfits : fits a b = true) :
    Sequence [a, b] (a.toNat % 32 * 64 + payload b)
  | three (a b c : UInt8) (hwidth : width a = 3) (hfits : fits a b = true)
    (hthird : continues c = true) :
    Sequence [a, b, c] ((a.toNat % 16 * 64 + payload b) * 64 + payload c)
  | four (a b c d : UInt8) (hwidth : width a = 4) (hfits : fits a b = true)
    (hthird : continues c = true) (hfourth : continues d = true) :
    Sequence [a, b, c, d] (((a.toNat % 8 * 64 + payload b) * 64 + payload c) * 64 + payload d)

theorem ofNat_eq {n : Nat} {b : UInt8} (h : n = b.toNat) : UInt8.ofNat n = b := by
  rw [h, UInt8.ofNat_toNat]

theorem toNat_ofNat {n : Nat} (h : n < 256) : (UInt8.ofNat n).toNat = n :=
  UInt8.toNat_ofNat_of_lt h

theorem val_ofNat {n : Nat} (h : n.isValidChar) : (Char.ofNat n).val.toNat = n := by
  rw [Char.ofNat, dif_pos h]
  rfl

theorem Sequence.encode_eq {bytes : List UInt8} {code : Nat} (h : Sequence bytes code) :
    utf8EncodeChar (Char.ofNat code) = bytes := by
  cases h with
  | one a hwidth =>
    have ha := width_eq_one_iff.1 hwidth
    rw [utf8EncodeChar, val_ofNat (.inl (by omega)), if_pos (by omega), UInt8.ofNat_toNat]
  | two a b hwidth hfits =>
    have ha := width_eq_two_iff.1 hwidth
    have hb := fits_iff.1 hfits
    have hcode : a.toNat % 32 * 64 + payload b = (a.toNat - 0xC0) * 64 + (b.toNat - 0x80) := by
      rw [payload]
      omega
    rw [hcode, utf8EncodeChar, val_ofNat (.inl (by omega)), if_neg (by omega), if_pos (by omega),
      ofNat_eq (b := a) (by omega), ofNat_eq (b := b) (by omega)]
  | three a b c hwidth hfits hthird =>
    have ha := width_eq_three_iff.1 hwidth
    have hb := fits_iff.1 hfits
    have hc := continues_iff.1 hthird
    have hcode : (a.toNat % 16 * 64 + payload b) * 64 + payload c =
        ((a.toNat - 0xE0) * 64 + (b.toNat - 0x80)) * 64 + (c.toNat - 0x80) := by
      rw [payload, payload]
      omega
    -- the code is none of a surrogate, for the second byte fits the first
    have hvalid : (((a.toNat - 0xE0) * 64 + (b.toNat - 0x80)) * 64 +
        (c.toNat - 0x80)).isValidChar := by
      unfold Nat.isValidChar
      omega
    rw [hcode, utf8EncodeChar, val_ofNat hvalid, if_neg (by omega), if_neg (by omega),
      if_pos (by omega), ofNat_eq (b := a) (by omega), ofNat_eq (b := b) (by omega),
      ofNat_eq (b := c) (by omega)]
  | four a b c d hwidth hfits hthird hfourth =>
    have ha := width_eq_four_iff.1 hwidth
    have hb := fits_iff.1 hfits
    have hc := continues_iff.1 hthird
    have hd := continues_iff.1 hfourth
    have hcode : ((a.toNat % 8 * 64 + payload b) * 64 + payload c) * 64 + payload d =
        (((a.toNat - 0xF0) * 64 + (b.toNat - 0x80)) * 64 + (c.toNat - 0x80)) * 64 +
          (d.toNat - 0x80) := by
      rw [payload, payload, payload]
      omega
    rw [hcode, utf8EncodeChar, val_ofNat (.inr (by omega)), if_neg (by omega), if_neg (by omega),
      if_neg (by omega), ofNat_eq (b := a) (by omega), ofNat_eq (b := b) (by omega),
      ofNat_eq (b := c) (by omega), ofNat_eq (b := d) (by omega)]

theorem sequence_encode (c : Char) : Sequence (utf8EncodeChar c) c.toNat := by
  have hvalid : c.toNat.isValidChar := c.valid
  rw [utf8EncodeChar, ← Char.toNat]
  generalize c.toNat = n at hvalid
  unfold Nat.isValidChar at hvalid
  split
  · have ha : (UInt8.ofNat n).toNat = n := toNat_ofNat (by omega)
    have h := Sequence.one (.ofNat n) (width_eq_one_iff.2 (by omega))
    rwa [ha] at h
  · have hlast : (UInt8.ofNat (n % 64 + 128)).toNat = n % 64 + 128 := toNat_ofNat (by omega)
    split
    · have ha : (UInt8.ofNat (n / 64 % 32 + 192)).toNat = n / 64 % 32 + 192 :=
        toNat_ofNat (by omega)
      have h := Sequence.two (.ofNat (n / 64 % 32 + 192)) (.ofNat (n % 64 + 128))
        (width_eq_two_iff.2 (by omega)) (fits_iff.2 (by omega))
      rw [payload, ha, hlast] at h
      rwa [show (n / 64 % 32 + 192) % 32 * 64 + (n % 64 + 128) % 64 = n by omega] at h
    · have hmiddle : (UInt8.ofNat (n / 64 % 64 + 128)).toNat = n / 64 % 64 + 128 :=
        toNat_ofNat (by omega)
      split
      · have ha : (UInt8.ofNat (n / 4096 % 16 + 224)).toNat = n / 4096 % 16 + 224 :=
          toNat_ofNat (by omega)
        have h := Sequence.three (.ofNat (n / 4096 % 16 + 224)) (.ofNat (n / 64 % 64 + 128))
          (.ofNat (n % 64 + 128)) (width_eq_three_iff.2 (by omega)) (fits_iff.2 (by omega))
          (continues_iff.2 (by omega))
        rw [payload, payload, ha, hmiddle, hlast] at h
        rwa [show ((n / 4096 % 16 + 224) % 16 * 64 + (n / 64 % 64 + 128) % 64) * 64 +
          (n % 64 + 128) % 64 = n by omega] at h
      · have ha : (UInt8.ofNat (n / 262144 % 8 + 240)).toNat = n / 262144 % 8 + 240 :=
          toNat_ofNat (by omega)
        have hb : (UInt8.ofNat (n / 4096 % 64 + 128)).toNat = n / 4096 % 64 + 128 :=
          toNat_ofNat (by omega)
        have h := Sequence.four (.ofNat (n / 262144 % 8 + 240)) (.ofNat (n / 4096 % 64 + 128))
          (.ofNat (n / 64 % 64 + 128)) (.ofNat (n % 64 + 128)) (width_eq_four_iff.2 (by omega))
          (fits_iff.2 (by omega)) (continues_iff.2 (by omega)) (continues_iff.2 (by omega))
        rw [payload, payload, payload, ha, hb, hmiddle, hlast] at h
        rwa [show (((n / 262144 % 8 + 240) % 8 * 64 + (n / 4096 % 64 + 128) % 64) * 64 +
          (n / 64 % 64 + 128) % 64) * 64 + (n % 64 + 128) % 64 = n by omega] at h

/-! ## Decoding -/

variable {bytes : List UInt8} {code position : Nat} {cs : List Char}

theorem utf8_cons (c : Char) (cs : List Char) : utf8 (c :: cs) = utf8EncodeChar c ++ utf8 cs :=
  List.flatMap_cons

theorem Sequence.utf8_cons (h : Sequence bytes code) (cs : List Char) :
    utf8 (Char.ofNat code :: cs) = bytes ++ utf8 cs := by
  rw [Utf8.utf8_cons, h.encode_eq]

theorem Sequence.decodeFrom_append (h : Sequence bytes code) (position : Nat)
    (rest : List UInt8) :
    decodeFrom position (bytes ++ rest) =
      (decodeFrom (position + bytes.length) rest).map (Char.ofNat code :: ·) := by
  cases h with
  | one a hwidth =>
    simp only [List.cons_append, List.nil_append, decodeFrom, hwidth]
    rfl
  | two a b hwidth hfits =>
    simp only [List.cons_append, List.nil_append, decodeFrom, hwidth, hfits]
    rfl
  | three a b c hwidth hfits hthird =>
    simp only [List.cons_append, List.nil_append, decodeFrom, hwidth, hfits, hthird]
    rfl
  | four a b c d hwidth hfits hthird hfourth =>
    simp only [List.cons_append, List.nil_append, decodeFrom, hwidth, hfits, hthird, hfourth]
    rfl

theorem decodeFrom_utf8 (position : Nat) (cs : List Char) :
    decodeFrom position (utf8 cs) = .ok cs := by
  induction cs generalizing position with
  | nil => rfl
  | cons c cs ih =>
    rw [utf8_cons, (sequence_encode c).decodeFrom_append, ih, Char.ofNat_toNat]
    rfl

theorem exists_of_cons_eq_ok {c : Char} {rest : Except Fault (List Char)}
    (h : (do return c :: (← rest)) = .ok cs) : ∃ later, rest = .ok later ∧ c :: later = cs := by
  cases rest with
  | error fault => cases h
  | ok later => exact ⟨later, rfl, Except.ok.inj h⟩

theorem eq_utf8_of_decodeFrom (h : decodeFrom position bytes = .ok cs) : bytes = utf8 cs := by
  fun_induction decodeFrom position bytes generalizing cs with
  | case1 =>
    cases h
    rfl
  | case2 position a rest hwidth ih =>
    obtain ⟨later, hlater, rfl⟩ := exists_of_cons_eq_ok h
    rw [(Sequence.one a hwidth).utf8_cons, ← ih hlater]
    rfl
  | case4 position a b rest hwidth hfits =>
    rename_i code ih
    obtain ⟨later, hlater, rfl⟩ := exists_of_cons_eq_ok h
    rw [(Sequence.two a b hwidth (by simpa using hfits)).utf8_cons, ← ih hlater]
    rfl
  | case8 position a b hwidth hfits c rest hthird =>
    rename_i code ih
    obtain ⟨later, hlater, rfl⟩ := exists_of_cons_eq_ok h
    rw [(Sequence.three a b c hwidth (by simpa using hfits) (by simpa using hthird)).utf8_cons,
      ← ih hlater]
    rfl
  | case14 position a b hwidth hfits c hthird d rest hfourth =>
    rename_i code ih
    obtain ⟨later, hlater, rfl⟩ := exists_of_cons_eq_ok h
    rw [(Sequence.four a b c d hwidth (by simpa using hfits) (by simpa using hthird)
      (by simpa using hfourth)).utf8_cons, ← ih hlater]
    rfl
  | _ => cases h

/-- `decode` takes `utf8` of a text and nothing else, and gives the text back. -/
theorem decode_eq_ok_iff {text : String} : decode bytes = .ok text ↔ bytes = utf8 text.toList := by
  constructor
  · intro h
    cases hcs : decodeFrom 0 bytes with
    | error fault =>
      rw [decode, hcs] at h
      cases h
    | ok cs =>
      rw [decode, hcs] at h
      obtain rfl : String.ofList cs = text := Except.ok.inj h
      rw [eq_utf8_of_decodeFrom hcs, String.toList_ofList]
  · rintro rfl
    rw [decode, decodeFrom_utf8]
    exact congrArg Except.ok String.ofList_toList

end Utf8

end ChatCommands
