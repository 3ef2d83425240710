/-
# UTF-8 and its decoder

The decoder answers with a text exactly when the bytes are the encoding of that text, and with
a fault when they encode none.  The encoding of a character is the library's own
(`String.utf8EncodeChar`); here it is taken apart as the decoder reads it, into a first byte
and six bits of the code point in each byte after it.
-/

import Lexis.Text.Utf8
import Mathlib.Algebra.Group.Nat.Defs
import Mathlib.Tactic.SplitIfs

namespace Lexis
namespace Utf8

/-- The bytes that encode a text. -/
def encode (t : Text) : List UInt8 := t.flatMap String.utf8EncodeChar

theorem encode_cons (c : Char) (t : Text) :
    encode (c :: t) = String.utf8EncodeChar c ++ encode t := List.flatMap_cons

/-- The last six bits of a number as a byte after the first. -/
def unit (n : Nat) : Nat := n % 64 + 128

/-- The last `count` bytes of a code point. -/
def units : Nat → Nat → List UInt8
  | 0, _ => []
  | count + 1, code => UInt8.ofNat (unit (code / 64 ^ count)) :: units count code

theorem toNat_unit (n : Nat) : (UInt8.ofNat (unit n)).toNat = unit n := by
  rw [UInt8.toNat_ofNat', unit]
  omega

/-- Whether the code point `code` starts with `bits`, has `count` more bytes, and the first of
them lies between `low` and `high`. -/
def GoesOn (count bits low high code : Nat) : Prop :=
  code / 64 ^ count = bits ∧ (count = 0 ∨ low ≤ unit (code / 64 ^ (count - 1)) ∧
    unit (code / 64 ^ (count - 1)) ≤ high)

theorem goesOn_succ {count bits low high code : Nat} :
    GoesOn (count + 1) bits low high code ↔
      code / 64 ^ count / 64 = bits ∧ low ≤ unit (code / 64 ^ count) ∧
        unit (code / 64 ^ count) ≤ high := by
  unfold GoesOn
  rw [Nat.pow_succ, ← Nat.div_div_eq_div_mul, Nat.add_sub_cancel]
  simp

/-- **Reading on** takes the bytes that a code point goes on with, whatever follows them. -/
theorem continueWith_eq_ok_iff {count bits low high good : Nat} {bytes after : List UInt8}
    {code : Nat} (hrange : count = 0 ∨ 0x80 ≤ low ∧ high ≤ 0xBF) :
    continueWith count bits low high good bytes = .ok (code, after) ↔
      bytes = units count code ++ after ∧ GoesOn count bits low high code := by
  fun_induction continueWith count bits low high good bytes with
  | case1 bits low high good rest =>
    simp only [Except.ok.injEq, Prod.mk.injEq, units, List.nil_append, GoesOn, Nat.pow_zero,
      Nat.div_one, true_or, and_true]
    constructor
    · rintro ⟨rfl, rfl⟩
      exact ⟨rfl, rfl⟩
    · rintro ⟨rfl, rfl⟩
      exact ⟨rfl, rfl⟩
  | case2 => simp [units]
  | case3 bits low high good count byte rest hbyte ih =>
    rw [Bool.and_eq_true, decide_eq_true_eq, decide_eq_true_eq] at hbyte
    have hlimits : 0x80 ≤ low ∧ high ≤ 0xBF := hrange.resolve_left (Nat.succ_ne_zero count)
    rw [ih (.inr ⟨Nat.le_refl _, Nat.le_refl _⟩), goesOn_succ, units, List.cons_append,
      List.cons.injEq, ← UInt8.toNat_inj, toNat_unit]
    have hfree : (count = 0 ∨ 0x80 ≤ unit (code / 64 ^ (count - 1)) ∧
        unit (code / 64 ^ (count - 1)) ≤ 0xBF) := by
      unfold unit
      omega
    -- the byte carries the next six bits
    have hbits : code / 64 ^ count = bits * 64 + byte.toNat % 64 ↔
        byte.toNat = unit (code / 64 ^ count) ∧ code / 64 ^ count / 64 = bits := by
      unfold unit
      omega
    unfold GoesOn
    rw [hbits]
    constructor
    · rintro ⟨hrest, ⟨hunit, hdiv⟩, -⟩
      rw [hunit] at hbyte
      exact ⟨⟨hunit, hrest⟩, hdiv, hbyte⟩
    · rintro ⟨⟨hunit, hrest⟩, hdiv, -⟩
      exact ⟨hrest, ⟨hunit, hdiv⟩, hfree⟩
  | case4 bits low high good count byte rest hbyte =>
    rw [Bool.and_eq_true, decide_eq_true_eq, decide_eq_true_eq] at hbyte
    constructor
    · intro herror
      cases herror
    · rintro ⟨hbytes, hgoes⟩
      rw [units, List.cons_append, List.cons.injEq, ← UInt8.toNat_inj, toNat_unit] at hbytes
      rw [goesOn_succ, ← hbytes.1] at hgoes
      exact absurd hgoes.2 hbyte

/-! ## First bytes -/

/-- What a first byte announces, of a code point. -/
def Lead.Announces (lead : Lead) (code : Nat) : Prop :=
  GoesOn lead.following lead.bits lead.low lead.high code

/-- The second byte of a sequence is one that carries bits. -/
theorem Lead.limits {first : UInt8} {lead : Lead} (h : ofByte? first = some lead) :
    lead.following = 0 ∨ 0x80 ≤ lead.low ∧ lead.high ≤ 0xBF := by
  simp only [ofByte?] at h
  split_ifs at h <;> cases h
  · exact .inl rfl
  all_goals
    refine .inr ?_
    simp only
    omega

theorem toNat_ofNat {code : Nat} (h : code.isValidChar) : (Char.ofNat code).toNat = code := by
  unfold Char.ofNat
  rw [dif_pos h]
  rfl

theorem ofByte?_one {n : Nat} (h : n < 0x80) :
    Lead.ofByte? (UInt8.ofNat n) = some ⟨0, n, 0, 0⟩ := by
  have hn : (UInt8.ofNat n).toNat = n := UInt8.toNat_ofNat_of_lt' (show n < 256 by omega)
  simp only [Lead.ofByte?, hn]
  rw [if_pos h]

theorem ofByte?_two {n : Nat} (hlow : 0xC2 ≤ n) (hhigh : n < 0xE0) :
    Lead.ofByte? (UInt8.ofNat n) = some ⟨1, n - 0xC0, 0x80, 0xBF⟩ := by
  have hn : (UInt8.ofNat n).toNat = n := UInt8.toNat_ofNat_of_lt' (show n < 256 by omega)
  simp only [Lead.ofByte?, hn]
  rw [if_neg (by omega), if_neg (by omega), if_pos hhigh]

theorem ofByte?_three {n : Nat} (hlow : 0xE0 ≤ n) (hhigh : n < 0xF0) :
    Lead.ofByte? (UInt8.ofNat n) =
      some ⟨2, n - 0xE0, if n = 0xE0 then 0xA0 else 0x80, if n = 0xED then 0x9F else 0xBF⟩ := by
  have hn : (UInt8.ofNat n).toNat = n := UInt8.toNat_ofNat_of_lt' (show n < 256 by omega)
  simp only [Lead.ofByte?, hn]
  rw [if_neg (by omega), if_neg (by omega), if_neg (by omega), if_pos hhigh]

theorem ofByte?_four {n : Nat} (hlow : 0xF0 ≤ n) (hhigh : n < 0xF5) :
    Lead.ofByte? (UInt8.ofNat n) =
      some ⟨3, n - 0xF0, if n = 0xF0 then 0x90 else 0x80, if n = 0xF4 then 0x8F else 0xBF⟩ := by
  have hn : (UInt8.ofNat n).toNat = n := UInt8.toNat_ofNat_of_lt' (show n < 256 by omega)
  simp only [Lead.ofByte?, hn]
  rw [if_neg (by omega), if_neg (by omega), if_neg (by omega), if_neg (by omega), if_pos hhigh]

/-- Every character has a first byte that announces it. -/
theorem exists_lead (c : Char) : ∃ first lead, Lead.ofByte? first = some lead ∧
    lead.Announces c.toNat ∧ String.utf8EncodeChar c = first :: units lead.following c.toNat := by
  have hvalid : c.toNat < 0xD800 ∨ 0xDFFF < c.toNat ∧ c.toNat < 0x110000 := c.valid
  simp only [String.utf8EncodeChar, Char.toNat_val]
  generalize c.toNat = code at *
  split_ifs
  · exact ⟨_, _, ofByte?_one (n := code) (by omega), ⟨by simp, .inl rfl⟩, rfl⟩
  · refine ⟨_, _, ofByte?_two (n := code / 64 % 32 + 192) (by omega) (by omega),
      ⟨?_, .inr ?_⟩, by simp [units, unit]⟩
    · simp only [Nat.pow_one]
      omega
    · simp only [unit, Nat.sub_self, Nat.pow_zero]
      omega
  · refine ⟨_, _, ofByte?_three (n := code / 4096 % 16 + 224) (by omega) (by omega),
      ⟨?_, .inr ?_⟩, by simp [units, unit]⟩
    · simp only [Nat.reducePow]
      omega
    · simp only [unit, Nat.add_one_sub_one, Nat.pow_one]
      split_ifs <;> omega
  · refine ⟨_, _, ofByte?_four (n := code / 262144 % 8 + 240) (by omega) (by omega),
      ⟨?_, .inr ?_⟩, by simp [units, unit]⟩
    · simp only [Nat.reducePow]
      omega
    · simp only [unit, Nat.reduceSub, Nat.reducePow]
      split_ifs <;> omega

/-- What a first byte announces is a character. -/
theorem encode_of_announces {first : UInt8} {lead : Lead} (h : Lead.ofByte? first = some lead)
    {code : Nat} (hcode : lead.Announces code) :
    String.utf8EncodeChar (Char.ofNat code) = first :: units lead.following code := by
  have hfirst : ∀ n, first.toNat = n → UInt8.ofNat n = first := by
    rintro _ rfl
    exact UInt8.ofNat_toNat
  obtain ⟨hbits, hnext⟩ := hcode
  simp only [Lead.ofByte?] at h
  split at h
  · cases h
    simp only [Nat.pow_zero, Nat.div_one] at hbits
    have hvalid : code.isValidChar := .inl (by omega)
    simp only [String.utf8EncodeChar, Char.toNat_val, toNat_ofNat hvalid]
    rw [if_pos (by omega), hfirst code (by omega)]
    rfl
  split at h
  · cases h
  split at h
  · cases h
    simp only [Nat.pow_one] at hbits
    have hvalid : code.isValidChar := .inl (by omega)
    simp only [String.utf8EncodeChar, Char.toNat_val, toNat_ofNat hvalid]
    rw [if_neg (by omega), if_pos (by omega), hfirst _ (by omega)]
    simp [units, unit]
  split at h
  · cases h
    replace hnext := hnext.resolve_left (Nat.succ_ne_zero 1)
    simp only [unit, Nat.reducePow, Nat.add_one_sub_one, Nat.pow_one] at hbits hnext
    -- the narrower range after E0 keeps out overlong forms, the one after ED surrogates
    have hrange : 0x800 ≤ code ∧ code < 0x10000 ∧ (code < 0xD800 ∨ 0xDFFF < code) := by
      split_ifs at hnext <;> omega
    have hvalid : code.isValidChar := by
      unfold Nat.isValidChar
      omega
    simp only [String.utf8EncodeChar, Char.toNat_val, toNat_ofNat hvalid]
    rw [if_neg (by omega), if_neg (by omega), if_pos (by omega), hfirst _ (by omega)]
    simp [units, unit]
  split at h
  · cases h
    replace hnext := hnext.resolve_left (Nat.succ_ne_zero 2)
    simp only [unit, Nat.reducePow, Nat.reduceSub] at hbits hnext
    have hrange : 0x10000 ≤ code ∧ code < 0x110000 := by
      split_ifs at hnext <;> omega
    have hvalid : code.isValidChar := .inr (by omega)
    simp only [String.utf8EncodeChar, Char.toNat_val, toNat_ofNat hvalid]
    rw [if_neg (by omega), if_neg (by omega), if_neg (by omega), hfirst _ (by omega)]
    simp [units, unit]
  · cases h

/-! ## Texts -/

theorem decodeOnto_cons {first : UInt8} {lead : Lead} (hlead : Lead.ofByte? first = some lead)
    {rest after : List UInt8} {code : Nat}
    (hrest : continueWith lead.following lead.bits lead.low lead.high 0 rest = .ok (code, after))
    (read : Text) (position : Nat) :
    decodeOnto read position (first :: rest) =
      decodeOnto (Char.ofNat code :: read) (position + lead.following + 1) after := by
  rw [decodeOnto]
  simp only [hlead]
  split
  · rename_i heq
    rw [hrest] at heq
    cases heq
  · rename_i heq
    rw [hrest] at heq
    cases heq
    rfl

theorem decodeOnto_encode (read : Text) (position : Nat) (t : Text) :
    decodeOnto read position (encode t) = .ok (read.reverse ++ t) := by
  induction t generalizing read position with
  | nil => rw [encode, List.flatMap_nil, decodeOnto, List.append_nil]
  | cons c t ih =>
    obtain ⟨first, lead, hlead, hcode, hencode⟩ := exists_lead c
    have hrest : continueWith lead.following lead.bits lead.low lead.high 0
        (units lead.following c.toNat ++ encode t) = .ok (c.toNat, encode t) :=
      (continueWith_eq_ok_iff (Lead.limits hlead)).mpr ⟨rfl, hcode⟩
    have hbytes : encode (c :: t) = first :: (units lead.following c.toNat ++ encode t) := by
      rw [encode_cons, hencode, List.cons_append]
    rw [hbytes, decodeOnto_cons hlead hrest, ih, Char.ofNat_toNat, List.reverse_cons,
      List.append_assoc, List.singleton_append]

theorem encode_of_decodeOnto {read t : Text} {position : Nat} {bytes : List UInt8}
    (h : decodeOnto read position bytes = .ok t) :
    ∃ later, t = read.reverse ++ later ∧ bytes = encode later := by
  fun_induction decodeOnto read position bytes with
  | case1 read position =>
    cases h
    exact ⟨[], (List.append_nil _).symm, rfl⟩
  | case2 => cases h
  | case3 => cases h
  | case4 read position first rest lead hlead code after hrest ih =>
    obtain ⟨later, rfl, rfl⟩ := ih h
    obtain ⟨rfl, hcode⟩ := (continueWith_eq_ok_iff (Lead.limits hlead)).mp hrest
    refine ⟨Char.ofNat code :: later, ?_, ?_⟩
    · rw [List.reverse_cons, List.append_assoc, List.singleton_append]
    · rw [encode_cons, encode_of_announces hlead hcode, List.cons_append]

/-- **Decoding is the inverse of encoding**, and fails on all other bytes. -/
theorem decode_eq_ok_iff {bytes : List UInt8} {t : Text} :
    decode bytes = .ok t ↔ bytes = encode t := by
  constructor
  · intro h
    obtain ⟨later, rfl, hbytes⟩ := encode_of_decodeOnto h
    exact hbytes
  · rintro rfl
    exact decodeOnto_encode [] 0 t

end Utf8
end Lexis
