/-
# The caret of a diagnostic

A diagnostic shows the line of a failure, set in by four blanks, and under it a caret.  The
carriage returns at the end of a line are not shown, so the caret is in its place only if the
failure is not beyond the first of them.  It never is: what comes before it begins a literal,
and no literal has a line break.
-/

import Lexis.Proofs.Place
import Lexis.Proofs.Plain
import Lexis.Proofs.ViablePrefix

namespace Lexis

/-- **A failure stands right after a part of a literal**, which has no line break. -/
theorem lex_error_split {source : Text} {f : Failure} (h : lex source = .error f) :
    ∃ text part rest, source = (text ++ part) ++ rest ∧ (text ++ part).length = f.index ∧
      part ≠ [] ∧ ∀ c ∈ part, Glyph.isLineBreak c = false := by
  obtain ⟨text, rest, i, rfl, -, hbreak, hindex⟩ := lex_eq_error_iff_scan.mp h
  obtain ⟨part, more, rfl, hpart, ⟨kind, tail, hspells⟩, -⟩ := hbreak.exists_split
  have hpos := hbreak.pos
  refine ⟨text, part, more, (List.append_assoc ..).symm, ?_, ?_, ?_⟩
  · rw [List.length_append, hpart, hindex]
  · exact List.ne_nil_of_length_pos (hpart ▸ hpos)
  · exact fun c hc => hspells.isLineBreak c (List.mem_append_left tail hc)

theorem lex_error_index_le {source : Text} {f : Failure} (h : lex source = .error f) :
    f.index ≤ source.length := by
  obtain ⟨text, part, rest, rfl, hlength, -⟩ := lex_error_split h
  rw [List.length_append, hlength]
  exact Nat.le_add_right _ _

/-- The line before a failure ends with no carriage return. -/
theorem lex_error_lastLine {source : Text} {f : Failure} (h : lex source = .error f) :
    (Location.lastLine (source.take f.index)).getLast? ≠ some '\r' := by
  obtain ⟨text, part, rest, rfl, hlength, hne, hpart⟩ := lex_error_split h
  have hfeed : '\n' ∉ part := fun hmem => absurd (hpart _ hmem) (by decide)
  rw [List.take_left' hlength, Location.lastLine_append hfeed, List.getLast?_append,
    List.getLast?_eq_some_getLast hne, Option.some_or]
  intro hlast
  have hreturn := hpart _ (List.getLast_mem hne)
  rw [Option.some.inj hlast] at hreturn
  exact absurd hreturn (by decide)

namespace Diagnostic

/-! ## Lines -/

/-- What is told about a fault has no line feed. -/
theorem lineFeed_notMem_complaint (fault : Fault) (index : Int) :
    '\n' ∉ fault.message ∧ ∀ hint ∈ (Complaint.ofFault fault index).hintLines, '\n' ∉ hint := by
  have hsame : (Complaint.ofFault fault index).hintLines =
      (Complaint.ofFault fault 0).hintLines := rfl
  rw [hsame]
  cases fault <;> decide +kernel

/-- There is a line for a hint unless that is missing or empty. -/
theorem length_hintLines (c : Complaint) :
    c.hintLines.length = if c.hint.any (· ≠ []) then 1 else 0 := by
  obtain ⟨message, index, _ | _ | ⟨a, hint⟩⟩ := c <;> rfl

theorem lineFeed_notMem_render {l : Location} (hname : '\n' ∉ l.name) : '\n' ∉ l.render := by
  have hnumber : ∀ z : Int, '\n' ∉ Decimal.ofInt z := fun z hmem =>
    absurd (Decimal.isGraphic_of_mem_ofInt z _ hmem) (by decide)
  simp [Location.render, hname, hnumber]

theorem lineFeed_notMem_caretLine (line : Text) (n : Nat) : '\n' ∉ caretLine line n := by
  have hshadow : ∀ c, shadow c ≠ '\n' := by
    intro c
    unfold shadow
    split_ifs <;> decide
  simp [caretLine, indent, hshadow, -List.map_take]

/-- **A diagnostic has the lines it is made of**, one for each. -/
theorem splitOn_lines {l : Location} {line : Text} (hname : '\n' ∉ l.name)
    (hline : '\n' ∉ line) (fault : Fault) (index : Int) :
    (Text.unlines (lines l line (.ofFault fault index))).splitOn '\n' =
      lines l line (.ofFault fault index) := by
  obtain ⟨hmessage, hhint⟩ := lineFeed_notMem_complaint fault index
  refine List.splitOn_intercalate '\n' ?_ (List.cons_ne_nil _ _)
  rw [lines, List.forall_mem_append, List.forall_mem_cons, List.forall_mem_cons,
    List.forall_mem_singleton]
  refine ⟨⟨?_, ?_, lineFeed_notMem_caretLine line _⟩, hhint⟩
  · simp [lineFeed_notMem_render hname, Complaint.ofFault, hmessage]
  · simp [indent, hline]

/-! ## The caret -/

/-- A caret after `padding`, under `row`, marks index `i` of a source, which has `n`
characters before it in its line. -/
structure Marks (source : Text) (i n : Nat) (row padding : Text) : Prop where
  /-- The line of the index starts `n` characters before it. -/
  le_index : n ≤ i
  starts : i - n = 0 ∨ source[i - n - 1]? = some '\n'
  goesOn : ∀ k, i - n ≤ k → k < i → source[k]? ≠ some '\n'
  /-- These characters are shown before the caret. -/
  take_row : row.take n = (source.take i).drop (i - n)
  /-- The caret is set in as the line is, and beyond these characters. -/
  length_padding : padding.length = 4 + n
  take_padding : padding.take 4 = [' ', ' ', ' ', ' ']
  /-- It stays in its column: a tab is under a tab. -/
  getElem?_padding : ∀ k, k < n →
    padding[4 + k]? = some (if row[k]? = some '\t' then '\t' else ' ')
  /-- It stands under the character at the index, or after the line where that is none that
  is shown. -/
  marked : n < row.length ∧ row[n]? = source[i]? ∨
    n = row.length ∧ source[i]? ∈ [none, some '\n', some '\r']

/-- Where the line does not break off within the carriage returns at its end, the caret is in
its place. -/
theorem marks_of_lastLine {source : Text} {i : Nat} (hi : i ≤ source.length)
    (hreturn : (Location.lastLine (source.take i)).getLast? ≠ some '\r') :
    Marks source i (Location.lastLine (source.take i)).length (lineText source i)
      (indent ++ ((lineText source i).take (Location.lastLine (source.take i)).length).map
        shadow) := by
  obtain ⟨start, hsplit, hstart⟩ := Location.exists_lastLine (source.take i)
  have hline := lineText_eq hi hreturn
  have hlast := Location.lineFeed_notMem_lastLine (source.take i)
  have hget : ∀ k, k < i → source[k]? = (start ++ Location.lastLine (source.take i))[k]? := by
    intro k hk
    rw [← hsplit, List.getElem?_take_of_lt hk]
  have hdrop := congrArg (List.drop start.length) hsplit
  have hlength := congrArg List.length hsplit
  rw [List.drop_left] at hdrop
  rw [List.length_append, List.length_take, Nat.min_eq_left hi] at hlength
  -- from here on the last line before the index is any text that this text ends with
  generalize Location.lastLine (source.take i) = last at *
  have hbefore : (lineText source i).take last.length = last := by rw [hline, List.take_left]
  have hsub : i - last.length = start.length := by omega
  rw [hbefore]
  constructor
  case le_index => omega
  case starts =>
    rw [hsub]
    rcases hstart with rfl | hfeed
    · exact .inl rfl
    · have hne : start ≠ [] := by
        rintro rfl
        cases hfeed
      have hpos := List.length_pos_iff.mpr hne
      rw [List.getLast?_eq_getElem?] at hfeed
      rw [hget _ (by omega), List.getElem?_append_left (by omega)]
      exact .inr hfeed
  case goesOn =>
    intro k hk hlt hfeed
    rw [hsub] at hk
    rw [hget k hlt, List.getElem?_append_right hk] at hfeed
    exact hlast (List.mem_of_getElem? hfeed)
  case take_row => rw [hbefore, hsub, hdrop]
  case length_padding =>
    rw [List.length_append, List.length_map]
    rfl
  case take_padding => rfl
  case getElem?_padding =>
    intro k hk
    have hindent : (indent ++ last.map shadow)[4 + k]? = (last.map shadow)[k]? := by
      rw [List.getElem?_append_right (Nat.le_add_right 4 k)]
      show (last.map shadow)[4 + k - 4]? = _
      rw [Nat.add_sub_cancel_left]
    rw [hindent, hline, List.getElem?_append_left hk, List.getElem?_map,
      List.getElem?_eq_getElem hk]
    simp only [Option.map_some, shadow, Option.some.injEq]
  case marked =>
    rcases head?_lineRest source i with ⟨hne, hhead⟩ | ⟨hnil, hmissing⟩
    · refine .inl ⟨?_, ?_⟩
      · have hpos := List.length_pos_iff.mpr hne
        rw [hline, List.length_append]
        omega
      · rw [hline, List.getElem?_append_right (Nat.le_refl _), Nat.sub_self, ← hhead,
          List.head?_eq_getElem?]
    · refine .inr ⟨?_, hmissing⟩
      rw [hline, hnil, List.append_nil]

end Diagnostic

/-- **The caret of a lexical fault is in its place.**  The diagnostic can be shown, and has a
line for the place and the message, the line of the index, the caret, and the hint if there is
one.  The caret is in the column of the index and marks it. -/
theorem render_lexError {source name : Text} {f : Failure} (h : lex source = .error f)
    (hname : '\n' ∉ name) :
    ∃ location shown padding,
      Location.ofIndex name source f.index = .ok location ∧
        Diagnostic.render name source f.complaint = .ok shown ∧
        shown.splitOn '\n' =
          [location.render ++ ": error: ".toList ++ f.fault.message,
            [' ', ' ', ' ', ' '] ++ lineText source f.index, padding ++ ['^']] ++
              f.complaint.hintLines ∧
        (shown.splitOn '\n').length = (if f.fault.hint.any (· ≠ []) then 4 else 3) ∧
        ∃ n : Nat, location.column = n + 1 ∧
          Diagnostic.Marks source f.index n (lineText source f.index) padding := by
  have hindex := lex_error_index_le h
  have hplace := Location.ofIndex_natCast hindex name
  have hmarks := Diagnostic.marks_of_lastLine hindex (lex_error_lastLine h)
  have hlines := Diagnostic.splitOn_lines (l := Location.ofText name (source.take f.index)) hname
    (lineFeed_notMem_lineText source f.index) f.fault f.index
  have hhint : f.complaint.hintLines.length = if f.fault.hint.any (· ≠ []) then 1 else 0 :=
    Diagnostic.length_hintLines f.complaint
  have hcolumn : ((Location.ofText name (source.take f.index)).column - 1).toNat =
      (Location.lastLine (source.take f.index)).length := by
    simp only [Location.ofText]
    omega
  refine ⟨_, _, _, hplace, Diagnostic.render_of_ofIndex hplace, ?_, ?_, _, rfl, hmarks⟩
  · refine hlines.trans ?_
    rw [Diagnostic.lines, hcolumn]
    rfl
  · refine (congrArg List.length hlines).trans ?_
    rw [Diagnostic.lines, List.length_append]
    refine (congrArg (3 + ·) hhint).trans ?_
    cases f.fault.hint.any (· ≠ []) <;> rfl

/-- Behind a tab, a point that no digit follows is to blame on the carriage return of a line
break, which is not shown: the caret stands after the line, in its fourth column. -/
theorem render_lexError_lineBreak :
    let source := ['\t', '0', '.', '\r', '\n', 'x']
    lex source = .error ⟨.trailingPoint, 3, []⟩ ∧ '\n' ∉ ['p'] ∧
      ∃ shown padding,
        Diagnostic.render ['p'] source (.ofFault .trailingPoint 3) = .ok shown ∧
          (shown.splitOn '\n').length = 4 ∧ lineText source 3 = ['\t', '0', '.'] ∧
            Diagnostic.Marks source 3 3 ['\t', '0', '.'] padding := by
  intro source
  have hlex : lex source = .error ⟨.trailingPoint, 3, []⟩ := by
    have hbreak : Breaks .trailingPoint 2 (['0'] ++ ['.', '\r', '\n', 'x']) :=
      .trailingPoint (.unsigned .zero) rfl
    exact lex_eq_error_of_scan (.white rfl .done) hbreak
  have hname : '\n' ∉ ['p'] := by decide
  obtain ⟨location, shown, padding, hplace, hshown, -, hlines, n, hcolumn, hmarks⟩ :=
    render_lexError hlex hname
  have hline : lineText source (3 : Nat) = ['\t', '0', '.'] := by decide
  have hlocation : location = ⟨['p'], 1, 4⟩ := by
    have heq : Location.ofIndex ['p'] source (3 : Nat) = .ok ⟨['p'], 1, 4⟩ := rfl
    exact Except.ok.inj (hplace.symm.trans heq)
  obtain rfl : n = 3 := by
    rw [hlocation] at hcolumn
    have hfour : (4 : Int) = n + 1 := hcolumn
    omega
  refine ⟨hlex, hname, shown, padding, hshown, hlines, hline, ?_⟩
  rw [← hline]
  exact hmarks

end Lexis
