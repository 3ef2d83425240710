/-
# Places in a source

Every index of a source has a place, and so has its end; at a place a complaint can be shown.
The line of an index is the text since the last line feed before it, then the text up to the
next line feed without the carriage returns at its end.
-/

import Lexis.Diagnostic

namespace Lexis

/-! ## Lines -/

namespace Location

/-- The last line of a text starts where the text does, or after a line feed. -/
theorem exists_lastLine (t : Text) :
    ∃ start, t = start ++ lastLine t ∧ (start = [] ∨ start.getLast? = some '\n') := by
  refine ⟨(t.reverse.dropWhile (· != '\n')).reverse, ?_, ?_⟩
  · rw [lastLine, ← List.reverse_append, List.takeWhile_append_dropWhile, List.reverse_reverse]
  · have hhead := List.head?_dropWhile_not (· != '\n') t.reverse
    rw [List.getLast?_reverse, List.reverse_eq_nil_iff]
    cases hrest : t.reverse.dropWhile (· != '\n') with
    | nil => exact .inl rfl
    | cons c rest =>
      rw [hrest] at hhead
      exact .inr (congrArg some (by simpa using hhead))

theorem lineFeed_notMem_lastLine (t : Text) : '\n' ∉ lastLine t := by
  rw [lastLine, List.mem_reverse]
  intro hmem
  have hall := List.all_takeWhile (p := (· != '\n')) (l := t.reverse)
  exact absurd (List.all_eq_true.mp hall _ hmem) (by decide)

/-- Without a line feed a text only lengthens the last line. -/
theorem lastLine_append {part : Text} (h : '\n' ∉ part) (t : Text) :
    lastLine (t ++ part) = lastLine t ++ part := by
  have hpart : ∀ c ∈ part.reverse, (c != '\n') = true := by
    intro c hc
    rw [bne_iff_ne]
    rintro rfl
    exact h (List.mem_reverse.mp hc)
  rw [lastLine, List.reverse_append, List.takeWhile_append_of_pos hpart, List.reverse_append,
    List.reverse_reverse, lastLine]

/-- An index of a source, or its end, has the place where the text before it leaves off. -/
theorem ofIndex_natCast {source : Text} {i : Nat} (h : i ≤ source.length) (name : Text) :
    ofIndex name source i = .ok (ofText name (source.take i)) := by
  have hrange : 0 ≤ (i : Int) ∧ (i : Int) ≤ source.length := by omega
  unfold ofIndex
  rw [if_pos hrange, Int.toNat_natCast]

/-- No other index has a place. -/
theorem ofIndex_eq_ok_iff {name source : Text} {index : Int} {l : Location} :
    ofIndex name source index = .ok l ↔
      (0 ≤ index ∧ index ≤ source.length) ∧ l = ofText name (source.take index.toNat) := by
  unfold ofIndex
  split
  case isTrue hrange =>
    constructor
    · intro h
      cases h
      exact ⟨hrange, rfl⟩
    · rintro ⟨-, rfl⟩
      rfl
  case isFalse hrange =>
    constructor
    · intro h
      cases h
    · exact fun h => absurd h.1 hrange

end Location

/-- Only carriage returns are dropped. -/
theorem exists_dropTrailingReturns (t : Text) :
    ∃ returns, t = dropTrailingReturns t ++ returns ∧ ∀ c ∈ returns, c = '\r' := by
  refine ⟨(t.reverse.takeWhile (· == '\r')).reverse, ?_, ?_⟩
  · rw [dropTrailingReturns, ← List.reverse_append, List.takeWhile_append_dropWhile,
      List.reverse_reverse]
  · intro c hc
    have hall := List.all_takeWhile (p := (· == '\r')) (l := t.reverse)
    exact eq_of_beq (List.all_eq_true.mp hall c (List.mem_reverse.mp hc))

/-- Nothing is dropped before a character that is no carriage return. -/
theorem dropTrailingReturns_append {t : Text} (h : t.getLast? ≠ some '\r') (u : Text) :
    dropTrailingReturns (t ++ u) = t ++ dropTrailingReturns u := by
  have hstays : t.reverse.dropWhile (· == '\r') = t.reverse := by
    rw [← List.head?_reverse] at h
    cases hreverse : t.reverse with
    | nil => rfl
    | cons c rest =>
      rw [hreverse] at h
      rw [List.dropWhile_cons_of_neg]
      rintro hc
      exact h (congrArg some (eq_of_beq hc))
  rw [dropTrailingReturns, List.reverse_append, List.dropWhile_append, hstays]
  split
  · rename_i hempty
    have hu : u.reverse.dropWhile (· == '\r') = [] := List.isEmpty_iff.mp hempty
    rw [dropTrailingReturns, hu, List.reverse_reverse, List.reverse_nil, List.append_nil]
  · rw [List.reverse_append, List.reverse_reverse, dropTrailingReturns]

theorem clampIndex_natCast {source : Text} {i : Nat} (h : i ≤ source.length) :
    clampIndex source i = i := by
  unfold clampIndex
  rw [if_neg (by omega), Int.toNat_natCast, Nat.min_eq_left h]

/-- The text from an index to the end of its line, without the line break. -/
def lineRest (source : Text) (i : Nat) : Text :=
  dropTrailingReturns ((source.drop i).takeWhile (· != '\n'))

/-- **The line at an index** goes on from the text before the index, unless that ends within
the carriage returns of a line break. -/
theorem lineText_eq {source : Text} {i : Nat} (h : i ≤ source.length)
    (hreturn : (Location.lastLine (source.take i)).getLast? ≠ some '\r') :
    lineText source i = Location.lastLine (source.take i) ++ lineRest source i := by
  unfold lineText
  rw [clampIndex_natCast h]
  exact dropTrailingReturns_append hreturn _

/-- The rest of a line starts with the character at the index, unless that is missing or
belongs to the line break. -/
theorem head?_lineRest (source : Text) (i : Nat) :
    lineRest source i ≠ [] ∧ (lineRest source i).head? = source[i]? ∨
      lineRest source i = [] ∧ source[i]? ∈ [none, some '\n', some '\r'] := by
  obtain ⟨returns, hrest, hreturns⟩ :=
    exists_dropTrailingReturns ((source.drop i).takeWhile (· != '\n'))
  have hsplit : source.drop i =
      lineRest source i ++ returns ++ (source.drop i).dropWhile (· != '\n') := by
    rw [lineRest, ← hrest, List.takeWhile_append_dropWhile]
  rw [← List.head?_drop]
  -- what is at the index is shown, or dropped with the returns, or ends the line
  cases hline : lineRest source i with
  | cons c kept =>
    rw [hline] at hsplit
    rw [hsplit]
    exact .inl ⟨List.cons_ne_nil _ _, rfl⟩
  | nil =>
    refine .inr ⟨rfl, ?_⟩
    rw [hline, List.nil_append] at hsplit
    cases returns with
    | cons c returns =>
      obtain rfl : c = '\r' := hreturns c (List.mem_cons_self ..)
      rw [hsplit]
      exact .tail _ (.tail _ (.head _))
    | nil =>
      have hhead := List.head?_dropWhile_not (· != '\n') (source.drop i)
      rw [hsplit, List.nil_append]
      cases hstop : (source.drop i).dropWhile (· != '\n') with
      | nil => exact .head _
      | cons c rest =>
        rw [hstop] at hhead
        obtain rfl : c = '\n' := by simpa using hhead
        exact .tail _ (.head _)

theorem lineFeed_notMem_lineText (source : Text) (index : Int) : '\n' ∉ lineText source index := by
  intro hmem
  unfold lineText at hmem
  obtain ⟨returns, hwhole, -⟩ := exists_dropTrailingReturns
    (Location.lastLine (source.take (clampIndex source index)) ++
      (source.drop (clampIndex source index)).takeWhile (· != '\n'))
  have hline := List.mem_append_left returns hmem
  rw [← hwhole] at hline
  rcases List.mem_append.mp hline with hbefore | hafter
  · exact Location.lineFeed_notMem_lastLine _ hbefore
  · have hall := List.all_takeWhile (p := (· != '\n'))
      (l := source.drop (clampIndex source index))
    exact absurd (List.all_eq_true.mp hall _ hafter) (by decide)

namespace Diagnostic

/-- The lines that show a complaint at a place. -/
def lines (location : Location) (line : Text) (c : Complaint) : List Text :=
  [location.render ++ ": error: ".toList ++ c.message, indent ++ line,
    caretLine line (location.column - 1).toNat] ++ c.hintLines

/-- A complaint can be shown wherever it has a place. -/
theorem render_of_ofIndex {name source : Text} {c : Complaint} {location : Location}
    (h : Location.ofIndex name source c.index = .ok location) :
    render name source c = .ok (Text.unlines (lines location (lineText source c.index) c)) := by
  unfold render
  rw [h]
  rfl

end Diagnostic
end Lexis
