/-
# Reading text listings

A text listing is read back line by line, and the parts of a line one after another:

| part | starts with | goes on up to |
| --- | --- | --- |
| index | a digit or a minus sign | a blank |
| line and column, if shown | a digit or a minus sign | `:`, a blank |
| kind | a letter | a blank |
| literal | a quote | the same quote |

Any number of blanks stands before a part, so it does not matter how wide the columns are; and
as a kind starts with a letter, a line tells by itself whether it shows a place.  The literal
is whatever the quotes hold, be it the look of a line, and it never breaks the line
(`ofText?_ofEntries`).
-/

import Lexis.Proofs.Entries
import Lexis.Proofs.Lines
import Lexis.Proofs.Unquote

namespace Lexis

/-! ## Columns -/

namespace Text

/-- One blank or more. -/
structure IsGap (gap : Text) : Prop where
  ne_nil : gap ≠ []
  eq_blank : ∀ c ∈ gap, c = ' '

/-- A gap stops what a blank stops. -/
theorem IsGap.stops {gap : Text} (h : gap.IsGap) {p : Char → Bool} (hp : p ' ' = false)
    (rest : Text) : (gap ++ rest).head?.any p = false := by
  obtain ⟨c, gap, rfl⟩ := List.exists_cons_of_ne_nil h.ne_nil
  obtain rfl : c = ' ' := h.eq_blank c (List.mem_cons_self ..)
  exact hp

/-- Padding before the blanks between two columns. -/
theorem isGap_padding (n : Nat) : IsGap (List.replicate n ' ' ++ [' ', ' ']) where
  ne_nil := List.append_ne_nil_of_right_ne_nil _ (List.cons_ne_nil _ _)
  eq_blank := by
    rw [List.forall_mem_append]
    exact ⟨fun c hc => List.eq_of_mem_replicate hc, by simp⟩

/-- Blanks are skipped. -/
theorem skipSpace_blanks {gap t : Text} (hgap : ∀ c ∈ gap, c = ' ') (ht : t.IsFlush) :
    skipSpace (gap ++ t) = t :=
  skipSpace_append (fun c hc => hgap c hc ▸ rfl) ht

end Text

open Text (skipSpace)

namespace Decimal

theorem isFlush_ofInt (z : Int) : (ofInt z).IsFlush := by
  obtain ⟨c, rest, heq, hc⟩ := exists_ofInt_eq z
  rw [heq]
  exact CharClass.eq_of_accepts (q := (!Text.isSpace ·)) CharClass.accepts_numberStart hc rfl

/-- A number does not start as a kind does. -/
theorem head?_ofInt_append (z : Int) (rest : Text) :
    (ofInt z ++ rest).head?.any Char.isAlpha = false := by
  obtain ⟨c, digits, heq, hc⟩ := exists_ofInt_eq z
  rw [heq]
  exact CharClass.eq_of_accepts (q := Char.isAlpha) CharClass.accepts_numberStart hc rfl

end Decimal

theorem Quoted.isFlush_quote (t : Text) : (quote t).IsFlush := by
  rcases delimiter_eq t with h | h
  · rw [quote, h]
    rfl
  · rw [quote, h]
    rfl

/-! ## Kinds -/

namespace Kind

/-- Takes a kind by its name: all the letters there are. -/
def decode : Decoder Kind := fun t =>
  let name := t.takeWhile Char.isAlpha
  (ofName? name).map fun kind => (kind, t.drop name.length)

/-- A name is made of letters. -/
theorem isAlpha_of_mem_name (kind : Kind) : ∀ c ∈ kind.name, c.isAlpha = true := by
  have hall : kind.name.all Char.isAlpha = true := by cases kind <;> rfl
  exact List.all_eq_true.mp hall

/-- A kind is decoded again, unless a letter follows its name. -/
theorem decode_name (kind : Kind) {rest : Text} (h : rest.head?.any Char.isAlpha = false) :
    decode (kind.name ++ rest) = some (kind, rest) := by
  simp only [decode, Recogniser.takeWhile_append_of_stop kind.isAlpha_of_mem_name h,
    ofName?_name, Option.map_some, List.drop_left]

end Kind

/-! ## Lines -/

namespace Entry

/-- Takes line and column and the blanks after them, if they are there. -/
def place : Decoder (Option Location) := fun t =>
  if t.head?.any Char.isAlpha then some (none, t)
  else do
    let (line, t) ← Decimal.integer t
    match t with
    | ':' :: t => do
      let (column, t) ← Decimal.integer t
      some (some ⟨[], line, column⟩, skipSpace t)
    | _ => none

/-- The entry that a line shows. -/
def ofLine? (t : Text) : Option Entry := do
  let (index, t) ← Decimal.integer (skipSpace t)
  let (location, t) ← place (skipSpace t)
  let (kind, t) ← Kind.decode t
  let (literal, t) ← Quoted.decode (skipSpace t)
  if t = [] then some ⟨⟨kind, literal, index⟩, location⟩ else none

/-- The place in a line, with the blanks after it. -/
def placeText (l : Location) : Text :=
  Decimal.ofInt l.line ++
    (':' :: (Decimal.ofInt l.column ++
      (List.replicate (4 - (Decimal.ofInt l.column).length) ' ' ++ [' ', ' '])))

/-- The end of a line from the kind on. -/
def kindText (t : Token) : Text :=
  t.kind.name ++
    (List.replicate (10 - t.kind.name.length) ' ' ++ [' ', ' '] ++ Quoted.quote t.literal)

/-- The parts of a line with the blanks between them. -/
theorem exists_line_eq (e : Entry) : ∃ width,
    e.line = List.replicate width ' ' ++ (Decimal.ofInt e.token.index ++ ([' ', ' '] ++
      (e.location.elim [] placeText ++ kindText e.token))) := by
  refine ⟨6 - (Decimal.ofInt e.token.index).length, ?_⟩
  unfold line kindText
  cases e.location with
  | none => simp only [List.leftpad, List.rightpad, Option.elim, List.append_assoc, List.nil_append]
  | some l =>
    simp only [List.leftpad, List.rightpad, Option.elim, placeText, List.append_assoc,
      List.cons_append, List.nil_append]

theorem head?_kindText (t : Token) :
    (kindText t).IsFlush ∧ (kindText t).head?.any Char.isAlpha = true := by
  obtain ⟨kind, literal, index⟩ := t
  cases kind <;> exact ⟨rfl, rfl⟩

/-- A place is decoded again but for its name, which is not shown. -/
theorem place_placeText {l : Location} (hname : l.name = []) {rest : Text} (h : rest.IsFlush) :
    place (placeText l ++ rest) = some (some l, rest) := by
  obtain ⟨name, line, column⟩ := l
  have hgap := Text.isGap_padding (4 - (Decimal.ofInt column).length)
  have hhead := Decimal.head?_ofInt_append line
  have hline := fun tail => Decimal.integer_ofInt line (':' :: tail) rfl
  have hcolumn := Decimal.integer_ofInt column _ (hgap.stops rfl rest)
  have hskip := Text.skipSpace_blanks hgap.eq_blank h
  obtain rfl : name = [] := hname
  rw [placeText, List.append_assoc, List.cons_append, List.append_assoc]
  simp only [place, hhead, hline, hcolumn, hskip, Bool.false_eq_true, if_false,
    Option.bind_eq_bind, Option.bind_some]

/-- From the place on a line is read again. -/
theorem place_append {location : Option Location} (hname : ∀ l, location = some l → l.name = [])
    (t : Token) :
    place (location.elim [] placeText ++ kindText t) = some (location, kindText t) := by
  obtain ⟨hflush, hletter⟩ := head?_kindText t
  cases location with
  | none => exact if_pos hletter
  | some l => exact place_placeText (hname l rfl) hflush

/-- Whether or not a place is shown, it is set off by the blanks before it. -/
theorem isFlush_placeText (location : Option Location) (t : Token) :
    Text.IsFlush (location.elim [] placeText ++ kindText t) := by
  cases location with
  | none => exact (head?_kindText t).1
  | some l => exact ((Decimal.isFlush_ofInt l.line).append _).append _

/-- **A line is read again.** -/
theorem ofLine?_line {e : Entry} (hname : ∀ l, e.location = some l → l.name = []) :
    ofLine? e.line = some e := by
  obtain ⟨width, hline⟩ := exists_line_eq e
  obtain ⟨⟨kind, literal, index⟩, location⟩ := e
  have hgap := Text.isGap_padding (10 - kind.name.length)
  have hindex := fun tail => Decimal.integer_ofInt index ([' ', ' '] ++ tail) rfl
  have hkind : Kind.decode (kindText ⟨kind, literal, index⟩) = some (kind, _) :=
    kind.decode_name (hgap.stops rfl (Quoted.quote literal))
  have hblanks : ∀ c ∈ [' ', ' '], c = ' ' := by simp
  have hplace := Text.skipSpace_blanks hblanks
    (isFlush_placeText location ⟨kind, literal, index⟩)
  have hliteral := Quoted.decode_quote literal []
  rw [List.append_nil] at hliteral
  rw [hline, ofLine?,
    Text.skipSpace_blanks (fun c hc => List.eq_of_mem_replicate hc)
      ((Decimal.isFlush_ofInt index).append _)]
  simp only [hindex, Option.bind_eq_bind, Option.bind_some, hplace, place_append hname, hkind,
    Text.skipSpace_blanks hgap.eq_blank (Quoted.isFlush_quote literal), hliteral, if_true]

end Entry

/-! ## Listings -/

namespace Listing

/-- The entries that a listing shows, a line for each.  The empty listing shows none. -/
def ofText? (t : Text) : Option (List Entry) :=
  if t = [] then some [] else (Text.lines t).mapM Entry.ofLine?

/-- A listing has the lines of its entries. -/
theorem lines_ofEntries {entries : List Entry} (h : entries ≠ []) :
    Text.lines (ofEntries .text entries) = entries.map Entry.line := by
  have hlines : ∀ t ∈ entries.map Entry.line, '\n' ∉ t := by
    intro t ht hmem
    obtain ⟨e, -, rfl⟩ := List.mem_map.mp ht
    exact absurd (e.isVisible_of_mem_line _ hmem) (by decide)
  exact List.splitOn_intercalate '\n' hlines fun hnil => h (List.map_eq_nil_iff.mp hnil)

/-- **A listing is read again** if places are without a name. -/
theorem ofText?_ofEntries {entries : List Entry}
    (hname : ∀ e ∈ entries, ∀ l, e.location = some l → l.name = []) :
    ofText? (ofEntries .text entries) = some entries := by
  by_cases hnil : entries = []
  · rw [hnil]
    rfl
  · have hread : (entries.map Entry.line).mapM Entry.ofLine? = some entries := by
      clear hnil
      induction entries with
      | nil => rfl
      | cons e entries ih =>
        obtain ⟨he, hentries⟩ := List.forall_mem_cons.mp hname
        rw [List.map_cons, List.mapM_cons, Entry.ofLine?_line he, ih hentries]
        rfl
    -- A text without a character has one line, which shows no entry.
    have hne : ofEntries .text entries ≠ [] := by
      intro hempty
      rw [← lines_ofEntries hnil, hempty] at hread
      cases hread
    rw [ofText?, if_neg hne, lines_ofEntries hnil, hread]

/-- **A text listing has a line for each token, and shows all of it.**  Tokens whose indices may
be written and whose places can be shown, if they are to be, have a listing; no carriage return
or escape character is in it; reading it gives the tokens in order, with the place of each index
if it is shown; and it is the listing of no other tokens, whatever their source. -/
theorem ofText?_render {source : Text} {located : Bool} {tokens : List Token}
    (hwritable : ∀ t ∈ tokens, Decimal.isWritable t.index = true)
    (h : located = true → ∀ t ∈ tokens, 0 ≤ t.index ∧ t.index ≤ source.length) :
    ∃ listing entries, render .text source located tokens = .ok listing ∧
      List.Forall₂ (Entry.Shows source located) tokens entries ∧
      ofText? listing = some entries ∧
      (∀ c ∈ listing, c ≠ '\r' ∧ c ≠ '\x1b') ∧
      (tokens ≠ [] → (Text.lines listing).length = tokens.length) ∧
      ∀ source' located' tokens',
        render .text source' located' tokens' = .ok listing → tokens' = tokens := by
  obtain ⟨entries, hentries⟩ := exists_shown (fun t ht => .inl (hwritable t ht)) h
  have hread := ofText?_ofEntries (name_eq_nil_of_shows hentries)
  refine ⟨_, entries, render_eq_ok_iff.mpr ⟨entries, hentries, rfl⟩, hentries, hread, ?_, ?_, ?_⟩
  · intro c hc
    rcases eq_or_isVisible_of_mem_ofEntries .text entries c hc with rfl | hvisible
    · decide
    · constructor
      · rintro rfl
        exact absurd hvisible (by decide)
      · rintro rfl
        exact absurd hvisible (by decide)
  · intro hne
    have hlength := hentries.length_eq
    have hentries_ne : entries ≠ [] := by
      rintro rfl
      exact hne (List.length_eq_zero_iff.mp hlength)
    rw [lines_ofEntries hentries_ne, List.length_map, hlength]
  · intro source' located' tokens' hrender
    obtain ⟨entries', hentries', heq⟩ := render_eq_ok_iff.mp hrender
    have hread' := ofText?_ofEntries (name_eq_nil_of_shows hentries')
    rw [heq, hread] at hread'
    rw [← map_token_of_shows hentries', ← Option.some.inj hread', map_token_of_shows hentries]

/-- A plus sign whose index has one digit too many has no listing. -/
theorem not_exists_render_text :
    let t : Token := ⟨.operator, ['+'], (10 ^ Decimal.maxDigits : Nat)⟩
    ¬∃ listing, render .text [] false [t] = .ok listing ∧
      ofText? listing = some [⟨t, none⟩] := by
  intro t
  have hlong : Decimal.isWritable t.index = false := Decimal.isWritable_pow
  rintro ⟨listing, hlisting, -⟩
  rw [(render_eq_error_of_tooLong hlong .text).1] at hlisting
  cases hlisting

/-- A literal with both quotes that goes on like a line of its own, and a character that is not
printable, each with its place. -/
theorem ofText?_render_lineInLiteral :
    let source := ['\n', 'x', '\r']
    let tokens : List Token := [⟨.string, "\"'\n     0  INTEGER     '1'".toList, 1⟩,
      ⟨.operator, ['\u200b', '\\'], 3⟩]
    (∀ t ∈ tokens, Decimal.isWritable t.index = true) ∧
      (true = true → ∀ t ∈ tokens, 0 ≤ t.index ∧ t.index ≤ source.length) ∧
      ∃ listing, render .text source true tokens = .ok listing ∧
        ofText? listing = some [⟨tokens[0], some ⟨[], 2, 1⟩⟩, ⟨tokens[1], some ⟨[], 2, 3⟩⟩] ∧
        (Text.lines listing).length = 2 := by
  intro source tokens
  have hdigits : ∀ t ∈ tokens, t.index.natAbs < 10 := by decide
  have hwritable : ∀ t ∈ tokens, Decimal.isWritable t.index = true := fun t ht =>
    Decimal.isWritable_of_lt (hdigits t ht)
  have h : true = true → ∀ t ∈ tokens, 0 ≤ t.index ∧ t.index ≤ source.length := by decide
  obtain ⟨listing, entries, hlisting, hentries, hread, -, hlines, -⟩ :=
    ofText?_render hwritable h
  have hplaces : tokens.mapM (entry source true) =
      .ok [⟨tokens[0], some ⟨[], 2, 1⟩⟩, ⟨tokens[1], some ⟨[], 2, 3⟩⟩] := rfl
  rw [mapM_entry_eq_ok_iff.mpr hentries] at hplaces
  rw [Except.ok.inj hplaces] at hread
  exact ⟨hwritable, h, listing, hlisting, hread, hlines (List.cons_ne_nil _ _)⟩

end Listing
end Lexis
