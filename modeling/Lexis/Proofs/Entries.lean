/-
# Entries of a listing

A listing shows each token, in order, and with `located` the place of its index
(`Entry.Shows`).  It is made of the entries that show the tokens (`Listing.render_eq_ok_iff`).

| index | without places | with places |
| --- | --- | --- |
| in the source, or its end | shown | shown with its place |
| elsewhere | shown | not shown |
| elsewhere, and too long to be written | not shown | not shown |

There are entries if all indices can be shown (`Listing.exists_shown`), else no listing
(`Listing.render_eq_error`).
-/

import Lexis.Listing
import Lexis.Proofs.Place
import Mathlib.Algebra.Group.Nat.Defs
import Mathlib.Data.List.Forall2

namespace Lexis

/-! ## Integers that may be written -/

namespace Decimal

theorem length_ofNat_of_ge {n : Nat} (h : 10 ≤ n) :
    (ofNat n).length = (ofNat (n / 10)).length + 1 := by
  rw [ofNat, if_neg (Nat.not_lt.mpr h), List.length_append]
  rfl

theorem length_ofNat_pos (n : Nat) : 0 < (ofNat n).length := by
  by_cases h : n < 10
  · rw [length_ofNat_of_lt h]
    exact Nat.one_pos
  · rw [length_ofNat_of_ge (Nat.not_lt.mp h)]
    exact Nat.succ_pos _

/-- The numbers of up to so many digits are those below a power of ten. -/
theorem length_ofNat_le_iff {n k : Nat} (hk : 0 < k) : (ofNat n).length ≤ k ↔ n < 10 ^ k := by
  induction k generalizing n with
  | zero => cases hk
  | succ k ih =>
    by_cases h : n < 10
    · have hpow : 10 ≤ 10 ^ (k + 1) := Nat.le_self_pow (Nat.succ_ne_zero _) 10
      rw [length_ofNat_of_lt h]
      omega
    · rw [length_ofNat_of_ge (Nat.not_lt.mp h), Nat.add_le_add_iff_right]
      rcases Nat.eq_zero_or_pos k with rfl | hk
      · have hpos := length_ofNat_pos (n / 10)
        omega
      · rw [ih hk, Nat.div_lt_iff_lt_mul (by decide), ← Nat.pow_succ]

/-- An integer may be written if it is below that power, its sign apart. -/
theorem isWritable_iff {z : Int} : isWritable z = true ↔ z.natAbs < 10 ^ maxDigits := by
  rw [isWritable, decide_eq_true_iff]
  exact length_ofNat_le_iff (Nat.succ_pos _)

/-- The first natural number that may not be written. -/
theorem isWritable_pow : isWritable (10 ^ maxDigits : Nat) = false := by
  rw [Bool.eq_false_iff, Ne, isWritable_iff, Int.natAbs_natCast]
  exact Nat.lt_irrefl _

end Decimal

/-! ## Entries -/

/-- The entry is that of a token, with its place in the source if `located`. -/
structure Entry.Shows (source : Text) (located : Bool) (t : Token) (e : Entry) : Prop where
  token_eq : e.token = t
  location_eq :
    if located then
      ∃ l, Location.ofIndex [] source t.index = .ok l ∧ e.location = some l
    else e.location = none
  /-- An index that is not in the source may be written. -/
  writable : Decimal.isWritable t.index ∨ 0 ≤ t.index ∧ t.index ≤ source.length

namespace Entry.Shows

variable {source : Text} {located : Bool} {t : Token} {e : Entry}

/-- Places are those of a source without a name. -/
theorem name_eq_nil (h : Shows source located t e) : ∀ l, e.location = some l → l.name = [] := by
  intro l hl
  have hlocation := h.location_eq
  split at hlocation
  · obtain ⟨place, hplace, heq⟩ := hlocation
    obtain rfl : l = place := Option.some.inj (hl.symm.trans heq)
    rw [(Location.ofIndex_eq_ok_iff.mp hplace).2]
    rfl
  · rw [hlocation] at hl
    cases hl

end Entry.Shows

/-! ## Listings -/

namespace Listing

variable {source : Text} {located : Bool} {tokens : List Token}

theorem entry_eq_ok_iff {t : Token} {e : Entry} :
    entry source located t = .ok e ↔ e.Shows source located t := by
  obtain ⟨token, location⟩ := e
  unfold entry
  constructor
  · intro h
    cases located with
    | false =>
      rw [if_neg Bool.false_ne_true] at h
      split at h
      case isTrue hwritable =>
        cases h
        exact ⟨rfl, rfl, hwritable⟩
      case isFalse => cases h
    | true =>
      rw [if_pos rfl] at h
      cases hplace : Location.ofIndex [] source t.index with
      | error _ =>
        rw [hplace] at h
        cases h
      | ok l =>
        rw [hplace] at h
        cases h
        exact ⟨rfl, ⟨l, hplace, rfl⟩, .inr (Location.ofIndex_eq_ok_iff.mp hplace).1⟩
  · rintro ⟨rfl, hlocation, hwritable⟩
    cases located with
    | false =>
      cases hlocation
      exact if_pos hwritable
    | true =>
      obtain ⟨l, hplace, hl⟩ := hlocation
      cases hl
      rw [if_pos rfl, hplace]
      rfl

theorem mapM_entry_eq_ok_iff {entries : List Entry} :
    tokens.mapM (entry source located) = .ok entries ↔
      List.Forall₂ (Entry.Shows source located) tokens entries := by
  induction tokens generalizing entries with
  | nil => simp [pure, Except.pure, eq_comm]
  | cons t tokens ih =>
    rw [List.mapM_cons, List.forall₂_cons_left_iff]
    constructor
    · intro h
      cases hentry : entry source located t with
      | error _ =>
        rw [hentry] at h
        cases h
      | ok e =>
        cases hentries : tokens.mapM (entry source located) with
        | error _ =>
          rw [hentry, hentries] at h
          cases h
        | ok more =>
          rw [hentry, hentries] at h
          cases h
          exact ⟨e, more, entry_eq_ok_iff.mp hentry, ih.mp hentries, rfl⟩
    · rintro ⟨e, more, hentry, hentries, rfl⟩
      rw [entry_eq_ok_iff.mpr hentry, ih.mpr hentries]
      rfl

/-- A listing is made of the entries that show the tokens. -/
theorem render_eq_ok_iff {format : Format} {listing : Text} :
    render format source located tokens = .ok listing ↔
      ∃ entries, List.Forall₂ (Entry.Shows source located) tokens entries ∧
        ofEntries format entries = listing := by
  unfold render
  constructor
  · intro h
    cases hentries : tokens.mapM (entry source located) with
    | error _ =>
      rw [hentries] at h
      cases h
    | ok entries =>
      rw [hentries] at h
      exact ⟨entries, mapM_entry_eq_ok_iff.mp hentries, Except.ok.inj h⟩
  · rintro ⟨entries, hentries, rfl⟩
    rw [mapM_entry_eq_ok_iff.mpr hentries]
    rfl

/-- Tokens can be shown if their indices may be written, or are in the source, and have the
places that are asked for. -/
theorem exists_shown
    (hwritable : ∀ t ∈ tokens,
      Decimal.isWritable t.index ∨ 0 ≤ t.index ∧ t.index ≤ source.length)
    (h : located = true → ∀ t ∈ tokens, 0 ≤ t.index ∧ t.index ≤ source.length) :
    ∃ entries, List.Forall₂ (Entry.Shows source located) tokens entries := by
  induction tokens with
  | nil => exact ⟨[], .nil⟩
  | cons t tokens ih =>
    obtain ⟨ht, hmore⟩ := List.forall_mem_cons.mp hwritable
    obtain ⟨entries, hentries⟩ :=
      ih hmore fun hlocated u hu => h hlocated u (List.mem_cons_of_mem t hu)
    obtain ⟨e, he⟩ : ∃ e, Entry.Shows source located t e := by
      cases located with
      | false => exact ⟨⟨t, none⟩, rfl, rfl, ht⟩
      | true =>
        have hrange := h rfl t (List.mem_cons_self ..)
        exact ⟨⟨t, some _⟩, rfl, ⟨_, if_pos hrange, rfl⟩, ht⟩
    exact ⟨e :: entries, .cons he hentries⟩

/-- An index that is not in the source cannot be shown if its place is asked for, or if it is too
long to be written. -/
theorem entry_eq_error {t : Token} (hrange : ¬(0 ≤ t.index ∧ t.index ≤ source.length))
    (h : located = true ∨ Decimal.isWritable t.index = false) :
    entry source located t = .error ⟨t.index, source.length⟩ := by
  unfold entry
  cases located with
  | true => rw [if_pos rfl, Location.ofIndex, if_neg hrange, Except.map]
  | false =>
    have hlong : Decimal.isWritable t.index = false := h.resolve_left Bool.false_ne_true
    rw [if_neg Bool.false_ne_true, if_neg]
    rw [hlong]
    exact fun hwritable => hwritable.elim Bool.false_ne_true hrange

/-- **The first token that cannot be shown is to blame**, and there is no listing. -/
theorem render_eq_error {before after : List Token} {entries : List Entry} {t : Token}
    (hbefore : List.Forall₂ (Entry.Shows source located) before entries)
    (hrange : ¬(0 ≤ t.index ∧ t.index ≤ source.length))
    (h : located = true ∨ Decimal.isWritable t.index = false) (format : Format) :
    render format source located (before ++ t :: after) =
      .error ⟨t.index, source.length⟩ := by
  unfold render
  rw [List.mapM_append, mapM_entry_eq_ok_iff.mpr hbefore, List.mapM_cons,
    entry_eq_error hrange h]
  rfl

/-- A token whose index is too long to be written has no listing, and the failure says so. -/
theorem render_eq_error_of_tooLong {t : Token} (h : Decimal.isWritable t.index = false)
    (format : Format) :
    render format [] false [t] = .error ⟨t.index, 0⟩ ∧
      OutOfRange.message ⟨t.index, 0⟩ = Decimal.tooLong := by
  have hrange : ¬(0 ≤ t.index ∧ t.index ≤ ([] : Text).length) := by
    rintro ⟨hnonneg, hle⟩
    have hzero : t.index = 0 := Int.le_antisymm hle hnonneg
    rw [hzero, Decimal.isWritable_of_lt (by decide)] at h
    cases h
  refine ⟨render_eq_error .nil hrange (.inr h) format, ?_⟩
  rw [OutOfRange.message, h, if_neg Bool.false_ne_true]

/-- The places in a listing are without a name. -/
theorem name_eq_nil_of_shows {entries : List Entry}
    (h : List.Forall₂ (Entry.Shows source located) tokens entries) :
    ∀ e ∈ entries, ∀ l, e.location = some l → l.name = [] := by
  induction h with
  | nil => nofun
  | cons hentry _ ih => exact List.forall_mem_cons.mpr ⟨hentry.name_eq_nil, ih⟩

/-- The tokens are found again in their entries. -/
theorem map_token_of_shows {entries : List Entry}
    (h : List.Forall₂ (Entry.Shows source located) tokens entries) :
    entries.map Entry.token = tokens := by
  induction h with
  | nil => rfl
  | cons hentry _ ih => rw [List.map_cons, hentry.token_eq, ih]

end Listing
end Lexis
