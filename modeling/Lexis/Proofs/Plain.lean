/-
# Plain output

What numbers, quoted texts, listings and documents are made of:

| text | characters |
| --- | --- |
| a number in base ten or sixteen | printable ASCII |
| a quoted text, a line of a listing | nothing below U+0020 |
| a listing as text | the same, and line feeds |
| a JSON document | printable ASCII and line feeds |

So an escape character is in none of them, and no control sequence is taken out of them.
-/

import Lexis.Listing
import Lexis.Text.Terminal
import Mathlib.Tactic.SplitIfs

namespace Lexis

/-! ## Characters -/

namespace Text

/-- A character beyond the 32 control characters that ASCII starts with. -/
def IsVisible (c : Char) : Prop := 0x20 ≤ c.toNat

/-- A printable character of ASCII. -/
def IsGraphic (c : Char) : Prop := 0x20 ≤ c.toNat ∧ c.toNat ≤ 0x7E

instance : DecidablePred IsVisible := fun c => inferInstanceAs (Decidable (0x20 ≤ c.toNat))

instance : DecidablePred IsGraphic := fun c =>
  inferInstanceAs (Decidable (0x20 ≤ c.toNat ∧ c.toNat ≤ 0x7E))

theorem IsGraphic.isVisible {c : Char} (h : IsGraphic c) : IsVisible c := h.1

theorem isVisible_of_isPrintable {c : Char} (h : isPrintable c = true) : IsVisible c := by
  unfold IsVisible
  by_cases hlt : c.toNat < 32
  · rw [isPrintable_of_lt hlt] at h
    cases h
  · omega

/-- What can be decided of the characters of a text one by one. -/
theorem forall_mem_of_all {p : Char → Prop} [DecidablePred p] {t : Text}
    (h : (t.all fun c => decide (p c)) = true) : ∀ c ∈ t, p c := fun c hc =>
  of_decide_eq_true (List.all_eq_true.mp h c hc)

/-- What holds of the characters of the pieces and of the separator holds of the whole. -/
theorem forall_mem_intercalate {p : Char → Prop} {separator : Text} {pieces : List Text}
    (hseparator : ∀ c ∈ separator, p c) (hpieces : ∀ t ∈ pieces, ∀ c ∈ t, p c) :
    ∀ c ∈ List.intercalate separator pieces, p c := by
  induction pieces with
  | nil => nofun
  | cons t pieces ih =>
    obtain ⟨ht, hpieces⟩ := List.forall_mem_cons.mp hpieces
    cases pieces with
    | nil => simpa using ht
    | cons u pieces =>
      rw [List.intercalate_cons_cons, List.forall_mem_append, List.forall_mem_append]
      exact ⟨⟨ht, hseparator⟩, ih hpieces⟩

theorem forall_mem_leftpad {p : Char → Prop} {t : Text} {a : Char} (n : Nat) (ha : p a)
    (ht : ∀ c ∈ t, p c) : ∀ c ∈ t.leftpad n a, p c := by
  rw [List.leftpad, List.forall_mem_append]
  exact ⟨fun c hc => List.eq_of_mem_replicate hc ▸ ha, ht⟩

theorem forall_mem_rightpad {p : Char → Prop} {t : Text} {a : Char} (n : Nat) (ha : p a)
    (ht : ∀ c ∈ t, p c) : ∀ c ∈ t.rightpad n a, p c := by
  rw [List.rightpad, List.forall_mem_append]
  exact ⟨ht, fun c hc => List.eq_of_mem_replicate hc ▸ ha⟩

end Text

open Text (IsVisible IsGraphic)

/-! ## Numbers -/

theorem Decimal.isDigit_digit {n : Nat} (h : n < 10) : (digit n).isDigit = true := by
  have hall : ∀ n < 10, (digit n).isDigit = true := by decide
  exact hall n h

theorem Decimal.isDigit_of_mem_ofNat (n : Nat) : ∀ c ∈ ofNat n, c.isDigit = true := by
  fun_induction ofNat n with
  | case1 n hlt => exact List.forall_mem_singleton.mpr (isDigit_digit hlt)
  | case2 n hge ih =>
    refine List.forall_mem_append.mpr ⟨ih, List.forall_mem_singleton.mpr (isDigit_digit ?_)⟩
    omega

theorem Decimal.isGraphic_of_isDigit {c : Char} (h : c.isDigit = true) : IsGraphic c := by
  obtain ⟨hlow, hhigh⟩ := Char.isDigit_iff_toNat.mp h
  have hzero : '0'.toNat = 48 := rfl
  have hnine : '9'.toNat = 57 := rfl
  exact ⟨by omega, by omega⟩

theorem Decimal.isGraphic_of_mem_ofNat (n : Nat) : ∀ c ∈ ofNat n, IsGraphic c :=
  fun c hc => isGraphic_of_isDigit (isDigit_of_mem_ofNat n c hc)

theorem Decimal.isGraphic_of_mem_ofInt (z : Int) : ∀ c ∈ ofInt z, IsGraphic c := by
  cases z with
  | ofNat n => exact isGraphic_of_mem_ofNat n
  | negSucc n => exact List.forall_mem_cons.mpr ⟨by decide, isGraphic_of_mem_ofNat (n + 1)⟩

theorem Hex.isGraphic_digit {n : Nat} (h : n < 16) : IsGraphic (digit n) := by
  have hall : ∀ n < 16, IsGraphic (digit n) := by decide
  exact hall n h

theorem Hex.isGraphic_of_mem_digits (width n : Nat) : ∀ c ∈ digits width n, IsGraphic c := by
  induction width generalizing n with
  | zero => nofun
  | succ width ih =>
    refine List.forall_mem_append.mpr
      ⟨ih (n / 16), List.forall_mem_singleton.mpr (isGraphic_digit ?_)⟩
    omega

/-! ## Listings as text -/

namespace Quoted

theorem isVisible_delimiter (t : Text) : IsVisible (delimiter t) := by
  unfold delimiter
  split <;> decide

theorem isVisible_of_mem_escape {q : Char} (hq : IsVisible q) (a : Char) :
    ∀ c ∈ escape q a, IsVisible c := by
  have hcode : ∀ {letter : Char}, IsVisible letter → ∀ width n,
      ∀ c ∈ '\\' :: letter :: Hex.digits width n, IsVisible c := fun hletter width n =>
    List.forall_mem_cons.mpr ⟨by decide, List.forall_mem_cons.mpr ⟨hletter, fun c hc =>
      (Hex.isGraphic_of_mem_digits width n c hc).isVisible⟩⟩
  unfold escape
  split_ifs with hself _ _ _ hprintable _ _
  · have ha : IsVisible a := by
      rcases hself with rfl | rfl
      · exact hq
      · decide
    exact List.forall_mem_cons.mpr ⟨by decide, List.forall_mem_singleton.mpr ha⟩
  iterate 3 exact Text.forall_mem_of_all rfl
  · exact List.forall_mem_singleton.mpr (Text.isVisible_of_isPrintable hprintable)
  · exact hcode (by decide) 2 _
  · exact hcode (by decide) 4 _
  · exact hcode (by decide) 8 _

/-- A quoted text has no character below U+0020, whatever it quotes. -/
theorem isVisible_of_mem_quote (t : Text) : ∀ c ∈ quote t, IsVisible c := by
  have hdelimiter := isVisible_delimiter t
  refine List.forall_mem_cons.mpr ⟨hdelimiter, List.forall_mem_append.mpr ⟨?_, ?_⟩⟩
  · intro c hc
    obtain ⟨a, -, hc⟩ := List.mem_flatMap.mp hc
    exact isVisible_of_mem_escape hdelimiter a c hc
  · exact List.forall_mem_singleton.mpr hdelimiter

end Quoted

/-- The line of a token stays one line. -/
theorem Entry.isVisible_of_mem_line (e : Entry) : ∀ c ∈ e.line, IsVisible c := by
  have hnumber : ∀ z : Int, ∀ c ∈ Decimal.ofInt z, IsVisible c := fun z c hc =>
    (Decimal.isGraphic_of_mem_ofInt z c hc).isVisible
  have hkind : ∀ c ∈ e.token.kind.name, IsVisible c := by
    cases e.token.kind <;> exact Text.forall_mem_of_all rfl
  have hblanks : ∀ c ∈ [' ', ' '], IsVisible c := Text.forall_mem_of_all rfl
  unfold line
  simp only [List.forall_mem_append]
  refine ⟨⟨⟨⟨⟨?_, ?_⟩, hblanks⟩, ?_⟩, hblanks⟩, Quoted.isVisible_of_mem_quote _⟩
  · exact Text.forall_mem_leftpad 6 (by decide) (hnumber _)
  · cases e.location with
    | none => nofun
    | some l =>
      simp only [List.forall_mem_append]
      exact ⟨⟨⟨hblanks, hnumber _⟩, Text.forall_mem_of_all rfl⟩,
        Text.forall_mem_rightpad 4 (by decide) (hnumber _)⟩
  · exact Text.forall_mem_rightpad 10 (by decide) hkind

/-! ## JSON documents -/

namespace Json

theorem isGraphic_of_mem_escape (a : Char) : ∀ c ∈ escape a, IsGraphic c := by
  unfold escape
  split_ifs with _ _ _ _ _ _ _ hgraphic
  iterate 7 exact Text.forall_mem_of_all rfl
  · exact List.forall_mem_singleton.mpr hgraphic
  · intro c hc
    obtain ⟨unit, -, hc⟩ := List.mem_flatMap.mp hc
    have hunit : ∀ c ∈ ['\\', 'u'] ++ Hex.digits 4 unit, IsGraphic c :=
      List.forall_mem_append.mpr
        ⟨Text.forall_mem_of_all rfl, Hex.isGraphic_of_mem_digits 4 unit⟩
    exact hunit c hc

theorem isGraphic_of_mem_string (t : Text) : ∀ c ∈ string t, IsGraphic c := by
  refine List.forall_mem_cons.mpr
    ⟨by decide, List.forall_mem_append.mpr ⟨?_, Text.forall_mem_of_all rfl⟩⟩
  intro c hc
  obtain ⟨a, -, hc⟩ := List.mem_flatMap.mp hc
  exact isGraphic_of_mem_escape a c hc

theorem isGraphic_of_mem_member (m : Text × Scalar) : ∀ c ∈ member m, IsGraphic c := by
  obtain ⟨name, value | value⟩ := m
  all_goals
    unfold member
    simp only [List.forall_mem_append]
    refine ⟨⟨⟨Text.forall_mem_of_all rfl, isGraphic_of_mem_string name⟩,
      Text.forall_mem_of_all rfl⟩, ?_⟩
  · exact isGraphic_of_mem_string value
  · exact Decimal.isGraphic_of_mem_ofInt value

/-- A document is made of printable ASCII and line feeds. -/
theorem eq_or_isGraphic_of_mem_document (records : List Record) :
    ∀ c ∈ document records, c = '\n' ∨ IsGraphic c := by
  have hrecord : ∀ r : Record, ∀ c ∈ record r, c = '\n' ∨ IsGraphic c := by
    intro r
    unfold record
    simp only [List.forall_mem_append]
    refine ⟨⟨Text.forall_mem_of_all rfl,
      Text.forall_mem_intercalate (Text.forall_mem_of_all rfl) ?_⟩, Text.forall_mem_of_all rfl⟩
    rintro _ ht c hc
    obtain ⟨m, -, rfl⟩ := List.mem_map.mp ht
    exact .inr (isGraphic_of_mem_member m c hc)
  unfold document
  split
  · exact Text.forall_mem_of_all rfl
  · simp only [List.forall_mem_append]
    refine ⟨⟨Text.forall_mem_of_all rfl,
      Text.forall_mem_intercalate (Text.forall_mem_of_all rfl) ?_⟩, Text.forall_mem_of_all rfl⟩
    rintro _ ht
    obtain ⟨r, -, rfl⟩ := List.mem_map.mp ht
    exact hrecord r

end Json

/-! ## What goes to a pipe -/

/-- A listing is made of line feeds and visible characters. -/
theorem Listing.eq_or_isVisible_of_mem_ofEntries (format : Format) (entries : List Entry) :
    ∀ c ∈ ofEntries format entries, c = '\n' ∨ IsVisible c := by
  cases format with
  | text =>
    refine Text.forall_mem_intercalate (Text.forall_mem_of_all rfl) ?_
    rintro _ ht c hc
    obtain ⟨e, -, rfl⟩ := List.mem_map.mp ht
    exact .inr (e.isVisible_of_mem_line c hc)
  | json =>
    intro c hc
    exact (Json.eq_or_isGraphic_of_mem_document _ c hc).imp_right IsGraphic.isVisible

namespace Terminal

theorem plainOnto_eq {t : Text} (h : '\x1b' ∉ t) (kept : Text) :
    plainOnto kept t = kept.reverse ++ t := by
  induction t generalizing kept with
  | nil => rw [plainOnto, List.append_nil]
  | cons c rest ih =>
    obtain ⟨hc, hrest⟩ := List.ne_and_not_mem_of_not_mem_cons h
    have hnone : afterSequence? (c :: rest) = none := by
      unfold afterSequence?
      split
      · rename_i heq
        cases heq
        exact absurd rfl hc
      · rfl
    rw [plainOnto]
    split
    · rename_i heq
      rw [hnone] at heq
      cases heq
    · rw [ih hrest, List.reverse_cons, List.append_assoc, List.singleton_append]

/-- A text without an escape character is plain as it is. -/
theorem plain_eq {t : Text} (h : '\x1b' ∉ t) : plain t = t := plainOnto_eq h []

/-- **A listing is plain as it is**, whatever the literals that it lists. -/
theorem plain_ofEntries (format : Format) (entries : List Entry) :
    plain (Listing.ofEntries format entries) = Listing.ofEntries format entries := by
  refine plain_eq fun hmem => ?_
  rcases Listing.eq_or_isVisible_of_mem_ofEntries format entries _ hmem with heq | hvisible
  · exact absurd heq (by decide)
  · exact absurd hvisible (by decide)

end Terminal
end Lexis
