/-
# Reading JSON

A text is read by the rules of JSON alone, not by what `Lexis.Json` makes of them:

| value | written as |
| --- | --- |
| null, truth value | `null`, `true`, `false` |
| number | digits without a needless zero, maybe after a minus sign, maybe with fraction and exponent |
| string | characters between double quotes, but no control character as itself |
| array | values between brackets, separated by commas |
| object | names between braces, each with a colon and a value, separated by commas |

Inside a string, eight characters have a name after a backslash, and every character can be
written by its UTF-16 units, so one beyond U+FFFF by a surrogate pair.  A surrogate that is not
part of a pair is refused.  Space may stand around each value, name and mark.

Every document of `Lexis.Json` is read as the array of its records (`parse?_document`).
-/

import Lexis.Proofs.Decoder

namespace Lexis
namespace Json

open Text (isSpace skipSpace)

/-- What a JSON text stands for.  An object has its members in their order. -/
inductive Value where
  | null
  | boolean (value : Bool)
  | number (value : Rat)
  | string (value : Text)
  | array (items : List Value)
  | object (members : List (Text × Value))

/-- What a value without parts stands for. -/
def Scalar.value : Scalar → Value
  | .text t => .string t
  | .integer z => .number z

/-- What a record stands for. -/
def Record.value (r : Record) : Value := .object (r.map fun m => (m.1, m.2.value))

namespace Reader

/-! ## Strings -/

/-- The characters with a name, which is written after a backslash. -/
def names : List (Char × Char) :=
  [('"', '"'), ('\\', '\\'), ('/', '/'), ('b', '\x08'), ('f', '\x0c'), ('n', '\n'), ('r', '\r'),
    ('t', '\t')]

/-- Takes a UTF-16 unit, after its backslash. -/
def unit : Decoder Nat
  | 'u' :: t => Hex.decode 4 t
  | _ => none

/-- Takes a code point, after its backslash: one unit, or two if the first is a high surrogate. -/
def code : Decoder Nat := fun t => do
  let (high, t) ← unit t
  if 0xD800 ≤ high ∧ high < 0xDC00 then
    match t with
    | '\\' :: t => do
      let (low, t) ← unit t
      if 0xDC00 ≤ low ∧ low < 0xE000 then
        some (0x10000 + (high - 0xD800) * 0x400 + (low - 0xDC00), t)
      else none
    | _ => none
  else some (high, t)

/-- Takes what follows a backslash. -/
def afterBackslash : Decoder Char
  | [] => none
  | c :: rest =>
    if c = 'u' then do
      let (n, rest) ← code (c :: rest)
      (Text.charOf? n).map fun a => (a, rest)
    else (names.lookup c).map fun a => (a, rest)

/-- Takes one character inside a string. -/
def character : Decoder Char
  | [] => none
  | c :: rest =>
    if c = '\\' then afterBackslash rest
    else if c.toNat < 0x20 then none
    else some (c, rest)

/-- Takes a string. -/
def string : Decoder Text
  | '"' :: t => Decoder.upTo '"' character t
  | _ => none

/-- A unit is taken if it has no more than four digits. -/
theorem unit_digits {n : Nat} (h : n < 16 ^ 4) (rest : Text) :
    unit ('u' :: (Hex.digits 4 n ++ rest)) = some (n, rest) := Hex.decode_digits h rest

/-- A unit that is no high surrogate stands for itself. -/
theorem code_digits {n : Nat} (h : n < 0xD800 ∨ 0xDC00 ≤ n ∧ n < 0x10000) (rest : Text) :
    code ('u' :: (Hex.digits 4 n ++ rest)) = some (n, rest) := by
  have hplane : ¬(0xD800 ≤ n ∧ n < 0xDC00) := by omega
  rw [code, unit_digits (by omega), Option.bind_eq_bind, Option.bind_some]
  exact if_neg hplane

/-- A surrogate pair stands for the code point that it divides. -/
theorem code_pair {n : Nat} (h : n < 0x100000) (rest : Text) :
    code ('u' :: (Hex.digits 4 (0xD800 + n / 0x400) ++
      '\\' :: 'u' :: (Hex.digits 4 (0xDC00 + n % 0x400) ++ rest))) = some (0x10000 + n, rest) := by
  have hhigh : 0xD800 ≤ 0xD800 + n / 0x400 ∧ 0xD800 + n / 0x400 < 0xDC00 := by omega
  have hlow : 0xDC00 ≤ 0xDC00 + n % 0x400 ∧ 0xDC00 + n % 0x400 < 0xE000 := by omega
  have hsum : 0x10000 + (0xD800 + n / 0x400 - 0xD800) * 0x400 + (0xDC00 + n % 0x400 - 0xDC00) =
      0x10000 + n := by omega
  simp only [code, unit_digits (show 0xD800 + n / 0x400 < 16 ^ 4 by omega),
    unit_digits (show 0xDC00 + n % 0x400 < 16 ^ 4 by omega), Option.bind_eq_bind,
    Option.bind_some, if_pos hhigh, if_pos hlow, hsum]

/-- A character is read from its UTF-16 units. -/
theorem character_units16 (a : Char) (rest : Text) :
    character ((units16 a).flatMap (fun unit => '\\' :: 'u' :: Hex.digits 4 unit) ++ rest) =
      some (a, rest) := by
  have hread : ∀ t, code ('u' :: t) = some (a.toNat, rest) →
      character ('\\' :: 'u' :: t) = some (a, rest) := by
    intro t ht
    show afterBackslash ('u' :: t) = some (a, rest)
    simp only [afterBackslash, if_true, ht, Option.bind_eq_bind, Option.bind_some,
      Text.charOf?_toNat, Option.map_some]
  have hvalid : a.toNat < 0xD800 ∨ 0xDFFF < a.toNat ∧ a.toNat < 0x110000 := a.valid
  unfold units16
  split
  · rw [List.flatMap_singleton]
    exact hread _ (code_digits (by omega) rest)
  · have hpair := code_pair (show a.toNat - 0x10000 < 0x100000 by omega) rest
    rw [Nat.add_sub_cancel' (by omega)] at hpair
    rw [List.flatMap_cons, List.flatMap_singleton, List.append_assoc]
    exact hread _ hpair

/-- A character that was written inside a string is read again. -/
theorem character_escape (a : Char) (rest : Text) :
    character (escape a ++ rest) = some (a, rest) := by
  unfold escape
  split_ifs with hquote hslash hfeed hreturn htab hform hback hgraphic
  · rw [hquote]
    rfl
  · rw [hslash]
    rfl
  · rw [hfeed]
    rfl
  · rw [hreturn]
    rfl
  · rw [htab]
    rfl
  · rw [hform]
    rfl
  · rw [hback]
    rfl
  · have hlow : ¬ a.toNat < 0x20 := by omega
    rw [List.singleton_append, character, if_neg hslash, if_neg hlow]
  · exact character_units16 a rest

/-- Nothing is written with the closing quote in front. -/
theorem head?_escape_ne (a : Char) : (escape a).head?.any (· != '"') = true := by
  unfold escape
  split_ifs with hquote
  iterate 7 rfl
  · exact bne_iff_ne.mpr hquote
  · unfold units16
    split
    · rfl
    · rfl

/-- A string is read again. -/
theorem string_string (t rest : Text) : string (Json.string t ++ rest) = some (t, rest) := by
  rw [Json.string, List.cons_append, List.append_assoc, List.singleton_append]
  exact Decoder.upTo_flatMap character_escape head?_escape_ne t rest

/-! ## Numbers -/

/-- Takes the digits of a fraction, if there is one. -/
def fraction : Decoder Text
  | '.' :: t => Decimal.digits t
  | t => some ([], t)

/-- Takes an exponent, which may have a sign, if there is one. -/
def exponent : Decoder Int
  | c :: t =>
    if c = 'e' ∨ c = 'E' then
      match t with
      | '+' :: t => (Decimal.natural t).map fun (n, t) => ((n : Int), t)
      | t => Decimal.integer t
    else some (0, c :: t)
  | [] => some (0, [])

/-- Takes a number without a sign. -/
def unsigned : Decoder Rat := fun t => do
  let (whole, t) ← Decimal.digits t
  let (part, t) ← fraction t
  let (scale, t) ← exponent t
  let shift : Int := scale - part.length
  if whole.head? = some '0' ∧ whole ≠ ['0'] then none
  else some (Rat.ofScientific (Decimal.value (whole ++ part)) (shift < 0) shift.natAbs, t)

/-- Takes a number. -/
def number : Decoder Rat := Decimal.signed unsigned

/-- What follows a value in a document: a comma or a line feed. -/
def Ends (rest : Text) : Prop := rest.head? = some ',' ∨ rest.head? = some '\n'

/-- Nothing is taken after the digits of a number that is followed so. -/
theorem Ends.stops {rest : Text} (h : Ends rest) :
    rest.head?.any Char.isDigit = false ∧ fraction rest = some ([], rest) ∧
      exponent rest = some (0, rest) := by
  cases rest with
  | nil => rcases h with h | h <;> cases h
  | cons c rest =>
    rcases h with h | h
    · obtain rfl : c = ',' := Option.some.inj h
      exact ⟨rfl, rfl, rfl⟩
    · obtain rfl : c = '\n' := Option.some.inj h
      exact ⟨rfl, rfl, rfl⟩

theorem unsigned_ofNat (n : Nat) {rest : Text} (h : Ends rest) :
    unsigned (Decimal.ofNat n ++ rest) = some ((n : Rat), rest) := by
  obtain ⟨hdigit, hfraction, hexponent⟩ := h.stops
  have hplain : ¬((Decimal.ofNat n).head? = some '0' ∧ Decimal.ofNat n ≠ ['0']) := by
    rintro ⟨hhead, hne⟩
    obtain ⟨d, tail, heq, -, hzero⟩ := Decimal.exists_ofNat_eq n
    rw [heq] at hhead
    rw [hzero (Option.some.inj hhead), Decimal.ofNat] at hne
    exact hne rfl
  have hvalue : Rat.ofScientific n false 0 = n := by
    rw [Rat.ofScientific_false_def, Nat.pow_zero, Nat.mul_one]
  simp only [unsigned, Decimal.digits_ofNat n rest hdigit, hfraction, hexponent,
    Option.bind_eq_bind, Option.bind_some, if_neg hplain, List.append_nil, Decimal.value_ofNat]
  exact congrArg (fun q => some (q, rest)) hvalue

/-- An integer is read again. -/
theorem number_ofInt (z : Int) {rest : Text} (h : Ends rest) :
    number (Decimal.ofInt z ++ rest) = some ((z : Rat), rest) :=
  Decimal.signed_ofInt (fun n => unsigned_ofNat n h) Rat.intCast_neg z

/-! ## Values -/

/-- The values that are written as words. -/
def words : List (Text × Value) :=
  [("null".toList, .null), ("true".toList, .boolean true), ("false".toList, .boolean false)]

/-- Takes a value without parts. -/
def scalar : Decoder Value
  | [] => none
  | c :: t =>
    if c = '"' then (string (c :: t)).map fun (s, t) => (.string s, t)
    else if c.isAlpha then
      let word := (c :: t).takeWhile Char.isAlpha
      (words.lookup word).map fun v => (v, (c :: t).drop word.length)
    else (number (c :: t)).map fun (q, t) => (.number q, t)

/-- A text or an integer is read again. -/
theorem scalar_scalar (s : Scalar) {rest : Text} (h : Ends rest) :
    scalar (Json.scalar s ++ rest) = some (s.value, rest) := by
  cases s with
  | text t =>
    show (string (Json.string t ++ rest)).map _ = _
    rw [string_string]
    rfl
  | integer z =>
    obtain ⟨c, tail, heq, hc⟩ := Decimal.exists_ofInt_eq z
    have hquote : c ≠ '"' := by
      rintro rfl
      cases hc
    have hword : c.isAlpha = false :=
      CharClass.eq_of_accepts (q := Char.isAlpha) CharClass.accepts_numberStart hc rfl
    have hread := number_ofInt z h
    rw [heq, List.cons_append] at hread
    rw [Json.scalar, heq, List.cons_append, scalar, if_neg hquote, hword, if_neg Bool.false_ne_true,
      hread]
    rfl

/-- Takes items up to a closing mark, with a comma between any two of them. -/
def separated {α : Type} (close : Char) (item : Decoder α) (t : Text) :
    Option (List α × Text) :=
  match item t with
  | none => none
  | some (a, left) =>
    match skipSpace left with
    | [] => none
    | c :: rest =>
      if c = close then some ([a], rest)
      else if c = ',' ∧ rest.length < t.length then
        (separated close item rest).map fun (items, rest) => (a :: items, rest)
      else none
termination_by t.length

/-- Takes items up to a closing mark, if there are any. -/
def sequence {α : Type} (close : Char) (item : Decoder α) : Decoder (List α) := fun t =>
  match skipSpace t with
  | [] => none
  | c :: rest => if c = close then some ([], rest) else separated close item t

section Sequence

variable {α β : Type} {close : Char} {item : Decoder β} {written : α → Text} {read : α → β}

theorem separated_last {t left rest : Text} {a : β} (hitem : item t = some (a, left))
    (hleft : skipSpace left = close :: rest) : separated close item t = some ([a], rest) := by
  rw [separated]
  simp only [hitem, hleft, if_true]

theorem separated_comma {t left rest : Text} {a : β} {items : List β} {after : Text}
    (hitem : item t = some (a, left)) (hleft : skipSpace left = ',' :: rest) (hclose : ',' ≠ close)
    (hshorter : rest.length < t.length) (hitems : separated close item rest = some (items, after)) :
    separated close item t = some (a :: items, after) := by
  rw [separated]
  simp only [hitem, hleft, if_neg hclose, hshorter, and_self, if_true, hitems, Option.map_some]

/-- Items on lines of their own are read again if each of them is, whatever stands behind the
comma or line feed after it. -/
theorem separated_intercalate (hclose : ',' ≠ close) (hflush : isSpace close = false)
    (hitem : ∀ a rest, Ends rest → item ('\n' :: (written a ++ rest)) = some (read a, rest))
    {gap : Text} (hgap : ∀ c ∈ gap, isSpace c = true) (rest : Text) {items : List α}
    (hne : items ≠ []) :
    separated close item ('\n' ::
        (List.intercalate [',', '\n'] (items.map written) ++ ('\n' :: gap ++ close :: rest))) =
      some (items.map read, rest) := by
  have hend : skipSpace ('\n' :: gap ++ close :: rest) = close :: rest := by
    have hspace : ∀ c ∈ '\n' :: gap, isSpace c = true := List.forall_mem_cons.mpr ⟨rfl, hgap⟩
    exact Text.skipSpace_append hspace (congrArg not hflush)
  induction items with
  | nil => exact absurd rfl hne
  | cons a items ih =>
    cases items with
    | nil =>
      rw [List.map_singleton, List.map_singleton, List.intercalate_singleton]
      exact separated_last (hitem a _ (.inr rfl)) hend
    | cons b items =>
      rw [List.map_cons, List.map_cons, List.intercalate_cons_cons, List.append_assoc,
        List.append_assoc, ← List.map_cons, List.cons_append, List.singleton_append]
      refine separated_comma (hitem a _ (.inl rfl)) rfl hclose ?_ (ih (List.cons_ne_nil _ _))
      simp only [List.length_append, List.length_cons]
      omega

/-- The same of any number of items, if none starts with the closing mark. -/
theorem sequence_intercalate (hclose : ',' ≠ close) (hflush : isSpace close = false)
    (hstart : ∀ a rest, ∃ c tail, c ≠ close ∧ skipSpace ('\n' :: (written a ++ rest)) = c :: tail)
    (hitem : ∀ a rest, Ends rest → item ('\n' :: (written a ++ rest)) = some (read a, rest))
    {gap : Text} (hgap : ∀ c ∈ gap, isSpace c = true) (rest : Text) (items : List α) :
    sequence close item ('\n' ::
        (List.intercalate [',', '\n'] (items.map written) ++ ('\n' :: gap ++ close :: rest))) =
      some (items.map read, rest) := by
  have hspace : ∀ c ∈ '\n' :: '\n' :: gap, isSpace c = true :=
    List.forall_mem_cons.mpr ⟨rfl, List.forall_mem_cons.mpr ⟨rfl, hgap⟩⟩
  cases items with
  | nil =>
    have hend : skipSpace ('\n' :: '\n' :: gap ++ close :: rest) = close :: rest :=
      Text.skipSpace_append hspace (congrArg not hflush)
    show sequence close item ('\n' :: '\n' :: gap ++ close :: rest) = some ([], rest)
    simp only [sequence, hend, if_true]
  | cons a items =>
    have hread := separated_intercalate hclose hflush hitem hgap rest (List.cons_ne_nil a items)
    obtain ⟨more, hmore⟩ : ∃ more,
        List.intercalate [',', '\n'] ((a :: items).map written) = written a ++ more := by
      cases items with
      | nil => exact ⟨[], by simp⟩
      | cons b items =>
        exact ⟨_, by rw [List.map_cons, List.map_cons, List.intercalate_cons_cons,
          List.append_assoc]⟩
    obtain ⟨c, tail, hne, hskip⟩ := hstart a (more ++ ('\n' :: gap ++ close :: rest))
    rw [hmore, List.append_assoc] at hread ⊢
    simp only [sequence, hskip, if_neg hne, hread]

end Sequence

/-- Takes a name, a colon and a value. -/
def member (value : Decoder Value) : Decoder (Text × Value) := fun t => do
  let (name, t) ← string (skipSpace t)
  match skipSpace t with
  | ':' :: t => (value t).map fun (v, t) => ((name, v), t)
  | _ => none

/-- Takes a value with so many levels of parts within parts. -/
def value : (depth : Nat) → Decoder Value
  | 0, _ => none
  | depth + 1, t =>
    match skipSpace t with
    | [] => none
    | c :: t =>
      if c = '[' then
        (sequence ']' (value depth) t).map fun (items, t) => (.array items, t)
      else if c = '\x7b' then
        (sequence '\x7d' (member (value depth)) t).map fun (members, t) => (.object members, t)
      else scalar (c :: t)

theorem value_of_bracket (depth : Nat) {t rest : Text} (h : skipSpace t = '[' :: rest) :
    value (depth + 1) t =
      (sequence ']' (value depth) rest).map fun (items, t) => (.array items, t) := by
  rw [value, h]
  exact if_pos rfl

theorem value_of_brace (depth : Nat) {t rest : Text} (h : skipSpace t = '\x7b' :: rest) :
    value (depth + 1) t =
      (sequence '\x7d' (member (value depth)) rest).map fun (members, t) =>
        (.object members, t) := by
  have hbrace : '\x7b' ≠ '[' := by decide
  rw [value, h]
  exact (if_neg hbrace).trans (if_pos rfl)

/-- A value without parts is read again at any depth, behind the blank that a member has. -/
theorem value_scalar (depth : Nat) (s : Scalar) {rest : Text} (h : Ends rest) :
    value (depth + 1) (' ' :: (Json.scalar s ++ rest)) = some (s.value, rest) := by
  have hread := scalar_scalar s h
  obtain ⟨c, tail, heq, hc⟩ : ∃ c tail, Json.scalar s = c :: tail ∧
      (isSpace c || c == '[' || c == '\x7b') = false := by
    cases s with
    | text t => exact ⟨'"', _, rfl, rfl⟩
    | integer z =>
      obtain ⟨c, tail, heq, hc⟩ := Decimal.exists_ofInt_eq z
      exact ⟨c, tail, heq, CharClass.eq_of_accepts
        (q := fun c => isSpace c || c == '[' || c == '\x7b') CharClass.accepts_numberStart hc rfl⟩
  simp only [Bool.or_eq_false_iff, beq_eq_false_iff_ne] at hc
  obtain ⟨⟨hspace, harray⟩, hobject⟩ := hc
  have hskip : skipSpace ([' '] ++ c :: (tail ++ rest)) = c :: (tail ++ rest) :=
    Text.skipSpace_append (List.forall_mem_singleton.mpr rfl) (congrArg not hspace)
  rw [List.singleton_append] at hskip
  rw [heq, List.cons_append] at hread ⊢
  simp only [value, hskip, if_neg harray, if_neg hobject, hread]

/-- A member on a line of its own is read again. -/
theorem member_member (depth : Nat) (m : Text × Scalar) {rest : Text} (h : Ends rest) :
    member (value (depth + 1)) ('\n' :: (Json.member m ++ rest)) =
      some ((m.1, m.2.value), rest) := by
  obtain ⟨name, s⟩ := m
  have hname := string_string name (':' :: ' ' :: (Json.scalar s ++ rest))
  have hskip : skipSpace ('\n' :: (Json.member (name, s) ++ rest)) =
      Json.string name ++ ':' :: ' ' :: (Json.scalar s ++ rest) := by
    simp only [Json.member, List.append_assoc]
    rfl
  have hcolon : ∀ t, skipSpace (':' :: t) = ':' :: t := fun _ => rfl
  simp only [member, hskip, hname, Option.bind_eq_bind, Option.bind_some, hcolon,
    value_scalar depth s h, Option.map_some]

/-- A record on a line of its own is read again. -/
theorem value_record (depth : Nat) (r : Record) (rest : Text) :
    value (depth + 2) ('\n' :: (record r ++ rest)) = some (r.value, rest) := by
  have hindent : ∀ c ∈ [' ', ' '], isSpace c = true :=
    List.forall_mem_cons.mpr ⟨rfl, List.forall_mem_singleton.mpr rfl⟩
  have hmembers := sequence_intercalate (show ',' ≠ '\x7d' by decide) rfl
    (fun m tail => ⟨'"', _, by decide, rfl⟩) (fun m _ => member_member depth m) hindent rest r
  have hskip : skipSpace ('\n' :: (record r ++ rest)) = '\x7b' :: '\n' ::
      (List.intercalate [',', '\n'] (r.map Json.member) ++
        ('\n' :: [' ', ' '] ++ '\x7d' :: rest)) := by
    simp only [record, List.append_assoc]
    rfl
  rw [value_of_brace _ hskip, hmembers]
  rfl

end Reader

/-- The value that a whole text stands for.  Each level takes a bracket, so there are not more
of them than characters. -/
def parse? (t : Text) : Option Value := do
  let (v, rest) ← Reader.value t.length t
  if skipSpace rest = [] then some v else none

/-- **A document is read as the array of its records.** -/
theorem parse?_document (records : List Record) :
    parse? (document records) = some (.array (records.map Record.value)) := by
  cases records with
  | nil => rfl
  | cons r others =>
    -- An array, its records and their values are three levels.
    obtain ⟨depth, hdepth⟩ : ∃ depth, (document (r :: others)).length = depth + 3 := by
      refine ⟨1 + (List.intercalate [',', '\n'] ((r :: others).map record)).length, ?_⟩
      simp only [document, List.length_append, List.length_cons, List.length_nil]
      omega
    have hitems := Reader.sequence_intercalate (show ',' ≠ ']' by decide) rfl
      (fun r tail => ⟨'\x7b', _, by decide, rfl⟩)
      (fun r tail _ => Reader.value_record depth r tail) (List.forall_mem_nil _) [] (r :: others)
    have hskip : skipSpace (document (r :: others)) = '[' :: '\n' ::
        (List.intercalate [',', '\n'] ((r :: others).map record) ++ ('\n' :: [] ++ [']'])) := by
      simp only [document, List.append_assoc]
      rfl
    rw [parse?, hdepth, Reader.value_of_bracket _ hskip, hitems]
    rfl

/-- Other spellings than those of a document are read as well, but not a comma too many, a
needless zero, half of a pair, a control character or a second value. -/
example : (parse? " \x7b\"a\" : [-1.50E+1 , \"\\uD83D\\uDE00\\/\"] \x7d ".toList).isSome ∧
    ["[1,]", "01", "\"\\ud83d\"", "\"\n\"", "[1] 2"].all (fun t => (parse? t.toList).isNone) := by
  decide +kernel

end Json
end Lexis
