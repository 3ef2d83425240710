/-
# Outcomes of runs

A command line that is accepted leads to a run on the bytes of its input.  What the run comes
to is told by these bytes:

| bytes | code | standard output |
| --- | ---: | --- |
| no UTF-8 | 2 | nothing |
| a source with a lexical fault | 1 | nothing |
| a source that can be read | 0 | the listing of its tokens |

There is no internal error: every token and every failure has a place in the source, so that
listings and diagnostics can always be shown.
-/

import Lexis.Command
import Lexis.Proofs.Caret
import Lexis.Proofs.Encoding
import Lexis.Proofs.Entries
import Lexis.Proofs.Plain
import Lexis.Proofs.Tiling

namespace Lexis

/-! ## Tokens -/

/-- The tokens of a run have places in its source. -/
theorem index_le_of_lex {source : Text} {tokens : List Token} (h : lex source = .ok tokens) :
    ∀ t ∈ tokens, 0 ≤ t.index ∧ t.index ≤ source.length := by
  intro t ht
  have hscan := lex_eq_ok_iff_scan.mp h
  obtain ⟨htiling, -⟩ := hscan.tiling (List.append_nil source).symm
  obtain ⟨hstart, hlt, hstop⟩ := htiling.span t ht
  exact ⟨by omega, by omega⟩

namespace Command

/-! ## Runs on a source -/

/-- A run on a source that cannot be read shows the failure and nothing else. -/
theorem runSource_of_error {source : Text} {f : Failure} (h : lex source = .error f)
    (settings : Settings) (name : Text) :
    ∃ shown, Diagnostic.render name source f.complaint = .ok shown ∧
      runSource settings name source =
        { status := .lexicalError
          stderr :=
            (if settings.verbose then log name source (.error f) else []) ++ say shown } := by
  have hplace := Location.ofIndex_natCast (lex_error_index_le h) name
  have hshown := Diagnostic.render_of_ofIndex (c := f.complaint) hplace
  refine ⟨_, hshown, ?_⟩
  unfold runSource
  rw [h]
  simp only [answer, Trouble.outcome, hshown, Except.map]
  split <;> rfl

/-- A run on a source that can be read lists its tokens. -/
theorem runSource_of_ok {source : Text} {tokens : List Token} (h : lex source = .ok tokens)
    (settings : Settings) (name : Text) :
    ∃ entries,
      Listing.render settings.format source settings.locations tokens =
          .ok (Listing.ofEntries settings.format entries) ∧
        runSource settings name source =
          { status := .success
            stdout :=
              if (Listing.ofEntries settings.format entries).isEmpty then []
              else Listing.ofEntries settings.format entries ++ ['\n']
            stderr :=
              if settings.verbose then log name source (.ok tokens) ++ say (count tokens)
              else [] } := by
  obtain ⟨entries, hentries⟩ : ∃ entries,
      List.Forall₂ (Entry.Shows source settings.locations) tokens entries :=
    Listing.exists_shown (fun t ht => .inr (index_le_of_lex h t ht)) fun _ => index_le_of_lex h
  have hlisting : Listing.render settings.format source settings.locations tokens =
      .ok (Listing.ofEntries settings.format entries) :=
    Listing.render_eq_ok_iff.mpr ⟨entries, hentries, rfl⟩
  refine ⟨entries, hlisting, ?_⟩
  unfold runSource
  rw [h]
  simp only [answer, hlisting, Except.map, say, Terminal.plain_ofEntries]
  split <;> rfl

/-! ## Runs on bytes -/

/-- What a run on bytes is to come to. -/
structure Reports (settings : Settings) (name : Text) (bytes : List UInt8) (out : Outcome) :
    Prop where
  /-- Bytes that encode no text. -/
  undecodable : (∀ source, bytes ≠ Utf8.encode source) → out.status.code = 2 ∧ out.stdout = []
  /-- A source with a lexical fault. -/
  failed : ∀ source f, bytes = Utf8.encode source → lex source = .error f →
    out.status.code = 1 ∧ out.stdout = [] ∧ ∃ shown,
      Diagnostic.render name source f.complaint = .ok shown ∧
        (settings.verbose = false → out.stderr = Terminal.plain shown ++ ['\n'])
  /-- A source that can be read.  The listing has no control sequence in it. -/
  listed : ∀ source tokens, bytes = Utf8.encode source → lex source = .ok tokens →
    out.status.code = 0 ∧ ∃ listing,
      Listing.render settings.format source settings.locations tokens = .ok listing ∧
        Terminal.plain listing = listing ∧
          out.stdout = if listing = [] then [] else listing ++ ['\n']

theorem runBytes_reports (settings : Settings) (name : Text) (bytes : List UInt8) :
    Reports settings name bytes (runBytes settings name bytes) := by
  constructor
  case undecodable =>
    intro hbytes
    unfold runBytes
    cases hdecode : Utf8.decode bytes with
    | ok source => exact absurd (Utf8.decode_eq_ok_iff.mp hdecode) (hbytes source)
    | error fault => exact ⟨rfl, rfl⟩
  case failed =>
    intro source f hbytes hlex
    obtain ⟨shown, hshown, hrun⟩ := runSource_of_error hlex settings name
    unfold runBytes
    rw [Utf8.decode_eq_ok_iff.mpr hbytes]
    simp only [hrun]
    refine ⟨rfl, trivial, shown, hshown, fun hverbose => ?_⟩
    rw [hverbose]
    rfl
  case listed =>
    intro source tokens hbytes hlex
    obtain ⟨entries, hlisting, hrun⟩ := runSource_of_ok hlex settings name
    unfold runBytes
    rw [Utf8.decode_eq_ok_iff.mpr hbytes]
    simp only [hrun]
    refine ⟨rfl, _, hlisting, Terminal.plain_ofEntries _ _, ?_⟩
    simp only [List.isEmpty_iff]

/-- Bytes encode no text, or a source that cannot be read, or one that can. -/
theorem encode_cases (bytes : List UInt8) :
    (∀ source, bytes ≠ Utf8.encode source) ∨
      (∃ source f, bytes = Utf8.encode source ∧ lex source = .error f) ∨
        ∃ source tokens, bytes = Utf8.encode source ∧ lex source = .ok tokens := by
  by_cases hbytes : ∃ source, bytes = Utf8.encode source
  · obtain ⟨source, hsource⟩ := hbytes
    cases hlex : lex source with
    | error f => exact .inr (.inl ⟨source, f, hsource, hlex⟩)
    | ok tokens => exact .inr (.inr ⟨source, tokens, hsource, hlex⟩)
  · exact .inl fun source hsource => hbytes ⟨source, hsource⟩

/-- **The code of a run is told by its bytes**, and is never that of an internal error.  A run
that fails prints no part of a listing. -/
theorem exists_code (bytes : List UInt8) : ∃ code, code ≠ 3 ∧
    ∀ {settings : Settings} {name : Text} {out : Outcome}, Reports settings name bytes out →
      out.status.code = code ∧ (code ≠ 0 → out.stdout = []) := by
  rcases encode_cases bytes with hbytes | ⟨source, f, hbytes, hlex⟩ | ⟨source, tokens, hbytes, hlex⟩
  · refine ⟨2, by decide, fun h => ?_⟩
    obtain ⟨hcode, hout⟩ := h.undecodable hbytes
    exact ⟨hcode, fun _ => hout⟩
  · refine ⟨1, by decide, fun h => ?_⟩
    obtain ⟨hcode, hout, -⟩ := h.failed source f hbytes hlex
    exact ⟨hcode, fun _ => hout⟩
  · refine ⟨0, by decide, fun h => ?_⟩
    exact ⟨(h.listed source tokens hbytes hlex).1, fun hne => absurd rfl hne⟩

namespace Reports

variable {settings settings' : Settings} {name name' : Text} {bytes : List UInt8}
  {out out' : Outcome}

theorem stdout_eq_nil (h : Reports settings name bytes out) (hcode : out.status.code ≠ 0) :
    out.stdout = [] := by
  obtain ⟨code, -, hreports⟩ := exists_code bytes
  obtain ⟨rfl, hout⟩ := hreports h
  exact hout hcode

theorem code_eq (h : Reports settings name bytes out) (h' : Reports settings' name' bytes out') :
    out.status.code = out'.status.code := by
  obtain ⟨code, -, hcode⟩ := exists_code bytes
  exact (hcode h).1.trans (hcode h').1.symm

/-- What a run prints is told by its bytes and the form of its listing. -/
theorem stdout_eq (h : Reports settings name bytes out) (h' : Reports settings' name' bytes out')
    (hformat : settings.format = settings'.format)
    (hlocations : settings.locations = settings'.locations) : out.stdout = out'.stdout := by
  by_cases hcode : out.status.code = 0
  · rcases encode_cases bytes with
      hbytes | ⟨source, f, hbytes, hlex⟩ | ⟨source, tokens, hbytes, hlex⟩
    · rw [(h.undecodable hbytes).1] at hcode
      cases hcode
    · rw [(h.failed source f hbytes hlex).1] at hcode
      cases hcode
    · obtain ⟨-, listing, hlisting, -, hout⟩ := h.listed source tokens hbytes hlex
      obtain ⟨-, listing', hlisting', -, hout'⟩ := h'.listed source tokens hbytes hlex
      rw [← hformat, ← hlocations, hlisting] at hlisting'
      cases hlisting'
      rw [hout, hout']
  · rw [h.stdout_eq_nil hcode, h'.stdout_eq_nil (h.code_eq h' ▸ hcode)]

end Reports

/-! ## The command -/

/-- An accepted command line leads to a run on the bytes of its input. -/
theorem run_eq_runBytes {words : List Text} {files : Text → FileEntry} {i : Invocation}
    (h : prepare files words = .ok i) (environment : Environment) (stdin : List UInt8) :
    run words environment files stdin =
      runBytes (i.settings environment) i.input.name (i.input.bytes stdin) := by
  unfold run
  rw [h]
  rfl

end Command
end Lexis
