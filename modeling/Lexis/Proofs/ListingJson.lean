/-
# Reading JSON listings

A JSON listing says of each token:

| member | value |
| --- | --- |
| type | the name of its kind |
| literal | its literal |
| index | its index |
| line and column, if shown | the place of its index |

A reader of JSON finds these members, in this order, and no others (`parse?_ofEntries`), and two
entries of which it finds the same have the same token (`Entry.token_eq_of_value_eq`).
-/

import Lexis.Proofs.Entries
import Lexis.Proofs.JsonReader

namespace Lexis

namespace Entry

/-- What a JSON listing says of an entry. -/
def value (e : Entry) : Json.Value :=
  let place :=
    match e.location with
    | none => []
    | some l => [("line".toList, .number l.line), ("column".toList, .number l.column)]
  .object ([("type".toList, .string e.token.kind.name),
    ("literal".toList, .string e.token.literal), ("index".toList, .number e.token.index)] ++ place)

theorem value_record (e : Entry) : Json.Record.value e.record = e.value := by
  obtain ⟨token, location⟩ := e
  cases location with
  | none => rfl
  | some l => rfl

/-- The token can be told from what is said of its entry. -/
theorem token_eq_of_value_eq {e e' : Entry} (h : e.value = e'.value) : e.token = e'.token := by
  obtain ⟨⟨kind, literal, index⟩, location⟩ := e
  obtain ⟨⟨kind', literal', index'⟩, location'⟩ := e'
  simp only [value, Json.Value.object.injEq, List.cons_append, List.cons.injEq, Prod.mk.injEq,
    true_and, Json.Value.string.injEq, Json.Value.number.injEq, Rat.intCast_inj] at h
  obtain ⟨hkind, hliteral, hindex, -⟩ := h
  have hname := Kind.ofName?_name kind
  rw [hkind, Kind.ofName?_name] at hname
  rw [Option.some.inj hname, hliteral, hindex]

/-- The same of the entries of a listing. -/
theorem map_token_eq_of_map_value_eq {entries entries' : List Entry}
    (h : entries.map value = entries'.map value) : entries.map token = entries'.map token := by
  rw [← List.forall₂_eq_eq_eq, List.forall₂_map_left_iff, List.forall₂_map_right_iff] at h ⊢
  exact h.imp fun _ _ => token_eq_of_value_eq

end Entry

namespace Listing

/-- **A listing is read as the array of what it says of its entries.** -/
theorem parse?_ofEntries (entries : List Entry) :
    Json.parse? (ofEntries .json entries) = some (.array (entries.map Entry.value)) := by
  have hrecords := Json.parse?_document (entries.map Entry.record)
  rw [List.map_map] at hrecords
  rw [ofEntries, hrecords]
  exact congrArg (fun f => some (Json.Value.array (entries.map f))) (funext Entry.value_record)

/-- **A JSON listing holds the tokens and nothing else.**  Tokens whose indices may be written and
whose places can be shown, if they are to be, have a listing; it is made of line feeds and
printable ASCII; a reader of JSON finds in it an array of one object for each token, with the
place of its index if that is shown; and it is the listing of no other tokens, whatever their
source. -/
theorem parse?_render {source : Text} {located : Bool} {tokens : List Token}
    (hwritable : ∀ t ∈ tokens, Decimal.isWritable t.index = true)
    (h : located = true → ∀ t ∈ tokens, 0 ≤ t.index ∧ t.index ≤ source.length) :
    ∃ listing entries, render .json source located tokens = .ok listing ∧
      List.Forall₂ (Entry.Shows source located) tokens entries ∧
      Json.parse? listing = some (.array (entries.map Entry.value)) ∧
      (∀ c ∈ listing, c = '\n' ∨ 0x20 ≤ c.toNat ∧ c.toNat ≤ 0x7E) ∧
      ∀ source' located' tokens',
        render .json source' located' tokens' = .ok listing → tokens' = tokens := by
  obtain ⟨entries, hentries⟩ := exists_shown (fun t ht => .inl (hwritable t ht)) h
  have hread := parse?_ofEntries entries
  refine ⟨_, entries, render_eq_ok_iff.mpr ⟨entries, hentries, rfl⟩, hentries, hread,
    Json.eq_or_isGraphic_of_mem_document _, ?_⟩
  intro source' located' tokens' hrender
  obtain ⟨entries', hentries', heq⟩ := render_eq_ok_iff.mp hrender
  have hread' := parse?_ofEntries entries'
  rw [heq, hread] at hread'
  have hvalues : entries.map Entry.value = entries'.map Entry.value :=
    Json.Value.array.inj (Option.some.inj hread')
  rw [← map_token_of_shows hentries', ← map_token_of_shows hentries,
    Entry.map_token_eq_of_map_value_eq hvalues]

/-- A plus sign whose index has one digit too many has no listing. -/
theorem not_exists_render_json :
    let t : Token := ⟨.operator, ['+'], (10 ^ Decimal.maxDigits : Nat)⟩
    ¬∃ listing, render .json [] false [t] = .ok listing ∧
      Json.parse? listing = some (.array [Entry.value ⟨t, none⟩]) := by
  intro t
  have hlong : Decimal.isWritable t.index = false := Decimal.isWritable_pow
  rintro ⟨listing, hlisting, -⟩
  rw [(render_eq_error_of_tooLong hlong .json).1] at hlisting
  cases hlisting

/-- A literal that goes on like a document, and one with a character beyond U+FFFF and a control
character, each with its place. -/
theorem parse?_render_documentInLiteral :
    let source := ['\n', 'x', '\r']
    let tokens : List Token := [⟨.string, "\", \"index\": 0\\".toList, 1⟩,
      ⟨.operator, ['😀', '\x00'], 3⟩]
    (∀ t ∈ tokens, Decimal.isWritable t.index = true) ∧
      (true = true → ∀ t ∈ tokens, 0 ≤ t.index ∧ t.index ≤ source.length) ∧
      ∃ listing, render .json source true tokens = .ok listing ∧
        Json.parse? listing = some (.array [
          .object [("type".toList, .string "STRING".toList),
            ("literal".toList, .string "\", \"index\": 0\\".toList), ("index".toList, .number 1),
            ("line".toList, .number 2), ("column".toList, .number 1)],
          .object [("type".toList, .string "OPERATOR".toList),
            ("literal".toList, .string ['😀', '\x00']), ("index".toList, .number 3),
            ("line".toList, .number 2), ("column".toList, .number 3)]]) := by
  intro source tokens
  have hdigits : ∀ t ∈ tokens, t.index.natAbs < 10 := by decide
  have hwritable : ∀ t ∈ tokens, Decimal.isWritable t.index = true := fun t ht =>
    Decimal.isWritable_of_lt (hdigits t ht)
  have h : true = true → ∀ t ∈ tokens, 0 ≤ t.index ∧ t.index ≤ source.length := by decide
  obtain ⟨listing, entries, hlisting, hentries, hread, -⟩ := parse?_render hwritable h
  have hplaces : tokens.mapM (entry source true) =
      .ok [⟨tokens[0], some ⟨[], 2, 1⟩⟩, ⟨tokens[1], some ⟨[], 2, 3⟩⟩] := rfl
  rw [mapM_entry_eq_ok_iff.mpr hentries] at hplaces
  rw [Except.ok.inj hplaces] at hread
  exact ⟨hwritable, h, listing, hlisting, hread⟩

end Listing
end Lexis
