/-
# Glyphs

The alphabets of the token languages, said without the classes of `Lexis.CharClass`:

| glyphs | characters |
| --- | --- |
| white space | space, backspace, line feed, carriage return, tab |
| start of an identifier | `A` to `Z`, `a` to `z`, `@` |
| part of an identifier | `A` to `Z`, `a` to `z`, `0` to `9`, `_`, `-` |
| start of a number | `0` to `9`, `-` |
| target of an escape | `b`, `n`, `r`, `t`, `'`, `"`, `\` |
| operator | whatever is neither white space nor a quote and starts no other token |

Each class of the lexer accepts just what its alphabet holds (`CharClass.accepts_digit` and
its like).
-/

import Lexis.CharClass

namespace Lexis

/-! ## Alphabets -/

namespace Glyph

/-- What may stand between literals. -/
def isWhite (c : Char) : Bool := [' ', '\x08', '\n', '\r', '\t'].contains c

/-- What ends a line, and stands in no literal. -/
def isLineBreak (c : Char) : Bool := c == '\n' || c == '\r'

/-- A letter of ASCII or `@`. -/
def isIdentifierStart (c : Char) : Bool := c.isAlpha || c == '@'

/-- A letter or digit of ASCII, `_` or `-`. -/
def isIdentifierPart (c : Char) : Bool := c.isAlphanum || c == '_' || c == '-'

/-- A digit of ASCII or the sign. -/
def isNumberStart (c : Char) : Bool := c.isDigit || c == '-'

/-- What makes an escape after a backslash. -/
def isEscapeTarget (c : Char) : Bool := ['b', 'n', 'r', 't', '\'', '"', '\\'].contains c

/-- What is an operator by itself: anything else. -/
def isOperator (c : Char) : Bool :=
  !(isWhite c || isIdentifierStart c || isNumberStart c || c == '\'' || c == '"')

theorem isOperator_iff {c : Char} :
    isOperator c = true ↔ isWhite c = false ∧ isIdentifierStart c = false ∧
      isNumberStart c = false ∧ c ≠ '\'' ∧ c ≠ '"' := by
  simp only [isOperator, Bool.not_eq_true', Bool.or_eq_false_iff, beq_eq_false_iff_ne, and_assoc,
    ne_eq]

theorem toNat_lt_of_isDigit {c : Char} (h : c.isDigit = true) : c.toNat < 128 := by
  have hrange := Char.isDigit_iff_toNat.mp h
  have hnine : '9'.toNat = 57 := rfl
  omega

theorem toNat_lt_of_isAlpha {c : Char} (h : c.isAlpha = true) : c.toNat < 128 := by
  rcases Bool.or_eq_true_iff.mp h with h | h
  · have hrange : c.val ≥ 'A'.val ∧ c.val ≤ 'Z'.val := of_decide_eq_true h
    exact Nat.lt_of_le_of_lt (UInt32.le_iff_toNat_le.mp hrange.2) (by decide)
  · have hle : c.val ≤ 'z'.val := of_decide_eq_true (Bool.and_eq_true_iff.mp h).2
    exact Nat.lt_of_le_of_lt (UInt32.le_iff_toNat_le.mp hle) (by decide)

theorem toNat_lt_of_isIdentifierStart {c : Char} (h : isIdentifierStart c = true) :
    c.toNat < 128 := by
  simp only [isIdentifierStart, Bool.or_eq_true, beq_iff_eq] at h
  rcases h with h | rfl
  · exact toNat_lt_of_isAlpha h
  · decide

theorem toNat_lt_of_isIdentifierPart {c : Char} (h : isIdentifierPart c = true) :
    c.toNat < 128 := by
  simp only [isIdentifierPart, Char.isAlphanum, Bool.or_eq_true, beq_iff_eq] at h
  rcases h with ((h | h) | rfl) | rfl
  · exact toNat_lt_of_isAlpha h
  · exact toNat_lt_of_isDigit h
  · decide
  · decide

theorem toNat_lt_of_isNumberStart {c : Char} (h : isNumberStart c = true) : c.toNat < 128 := by
  simp only [isNumberStart, Bool.or_eq_true, beq_iff_eq] at h
  rcases h with h | rfl
  · exact toNat_lt_of_isDigit h
  · decide

end Glyph

/-! ## Classes -/

namespace CharClass

/-- What holds of all members of a set holds of what the set accepts. -/
theorem of_accepts_oneOf {members : List Char} {p : Char → Bool} {c : Char}
    (hc : (oneOf members).accepts c = true) (h : members.all p = true) : p c = true :=
  List.all_eq_true.mp h c (List.contains_iff_mem.mp hc)

/-- A set is told by its members if they are all of ASCII; there it is enough to compare the
characters one by one. -/
theorem accepts_oneOf {members : List Char} {p : Char → Bool} (hmembers : members.all p = true)
    (hascii : ∀ c, p c = true → c.toNat < 128)
    (h : (List.range 128).all (fun n => !p (Char.ofNat n) || members.contains (Char.ofNat n)) =
      true) : (oneOf members).accepts = p := by
  funext c
  rw [Bool.eq_iff_iff]
  refine ⟨fun hc => of_accepts_oneOf hc hmembers, fun hc => ?_⟩
  have hmem := List.all_eq_true.mp h c.toNat (List.mem_range.mpr (hascii c hc))
  rwa [Char.ofNat_toNat, hc, Bool.not_true, Bool.false_or] at hmem

theorem accepts_whitespace : whitespace.accepts = Glyph.isWhite := rfl

theorem accepts_identifierStart : identifierStart.accepts = Glyph.isIdentifierStart :=
  accepts_oneOf rfl (fun _ => Glyph.toNat_lt_of_isIdentifierStart) rfl

theorem accepts_identifierPart : identifierPart.accepts = Glyph.isIdentifierPart :=
  accepts_oneOf rfl (fun _ => Glyph.toNat_lt_of_isIdentifierPart) rfl

theorem accepts_digit : digit.accepts = Char.isDigit :=
  accepts_oneOf rfl (fun _ => Glyph.toNat_lt_of_isDigit) rfl

theorem accepts_numberStart : numberStart.accepts = Glyph.isNumberStart :=
  accepts_oneOf rfl (fun _ => Glyph.toNat_lt_of_isNumberStart) rfl

theorem accepts_escapeTarget : escapeTarget.accepts = Glyph.isEscapeTarget := rfl

theorem accepts_noneOf {excluded : List Char} {c : Char} :
    (noneOf excluded).accepts c = true ↔ c ∉ excluded := by
  simp only [accepts, List.contains_eq_mem, Bool.not_eq_true', decide_eq_false_iff_not]

theorem accepts_exactly (expected c : Char) :
    (exactly [expected]).accepts c = (c == expected) := by
  rw [Bool.eq_iff_iff]
  simp only [accepts, beq_iff_eq, List.cons.injEq, and_true]
  exact eq_comm

/-- A question that has one answer for all members of a set has it for what the set accepts. -/
theorem eq_of_accepts {members : List Char} {p q : Char → Bool} {c : Char} {answer : Bool}
    (haccepts : (oneOf members).accepts = p) (hc : p c = true)
    (h : members.all (fun d => q d == answer) = true) : q c = answer := by
  rw [← haccepts] at hc
  exact eq_of_beq (of_accepts_oneOf (p := fun d => q d == answer) hc h)

end CharClass
end Lexis
