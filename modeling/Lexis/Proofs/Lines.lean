/-
# Lines of a source

A place can be told from the lines of the source alone:

| | line feeds before the index | lines of the source |
| --- | --- | --- |
| line | one more than there are | the line that the index falls into |
| column | one more than the characters since the last | one more than the characters before it there |
| text shown | what stands around the index | that line, without carriage returns at its end |

Here the lines are the pieces between the line feeds, and a line with its line feed takes up
one index more than it has characters (`lineStart`).  The two ways agree on every index of the
source and on its end (`ofIndex_countsLines`).
-/

import Lexis.Proofs.Place
import Mathlib.Algebra.GroupWithZero.Nat
import Mathlib.Data.List.GetD
import Mathlib.Tactic.ByContra

namespace Lexis

namespace Text

/-- The pieces of a text between its line feeds, of which there is at least one. -/
def lines (t : Text) : List Text := t.splitOn '\n'

/-- There is one line more than there are line feeds. -/
theorem length_lines (t : Text) : (lines t).length = t.count '\n' + 1 := by
  induction t with
  | nil => rfl
  | cons c t ih =>
    unfold lines at ih ⊢
    rw [List.splitOn_cons_eq_if_modifyHead, List.count_cons]
    split
    · rw [List.length_cons, ih]
    · rw [List.length_modifyHead, ih]

/-- Where the line after the first `n` lines starts. -/
def lineStart (lines : List Text) (n : Nat) : Nat := ((lines.take n).map (·.length + 1)).sum

variable {texts : List Text}

/-- The next line starts after the characters of this one and its line feed. -/
theorem lineStart_succ {n : Nat} (h : n < texts.length) :
    lineStart texts (n + 1) = lineStart texts n + (texts.getD n []).length + 1 := by
  rw [lineStart, List.take_succ_eq_append_getElem h, List.map_append, List.sum_append, lineStart,
    List.map_singleton, List.sum_singleton, List.getD_eq_getElem _ _ h, Nat.add_assoc]

theorem lineStart_le {m n : Nat} (h : m ≤ n) : lineStart texts m ≤ lineStart texts n := by
  rw [← Nat.add_sub_cancel' h, lineStart, lineStart, List.take_add, List.map_append,
    List.sum_append]
  exact Nat.le_add_right _ _

/-- All lines together take up one index more than the text, as the last has no line feed. -/
theorem lineStart_lines (t : Text) : lineStart (lines t) (lines t).length = t.length + 1 := by
  rw [lineStart, List.take_length]
  induction t with
  | nil => rfl
  | cons c t ih =>
    unfold lines at ih ⊢
    rw [List.splitOn_cons_eq_if_modifyHead]
    split
    · rw [List.map_cons, List.sum_cons, ih, List.length_nil, List.length_cons]
      omega
    · obtain ⟨line, rest, heq⟩ := List.exists_cons_of_ne_nil (List.splitOn_ne_nil '\n' t)
      rw [heq, List.map_cons, List.sum_cons] at ih
      rw [heq, List.modifyHead_cons, List.map_cons, List.sum_cons, List.length_cons,
        List.length_cons]
      omega

/-- Index `i` is in a line and a column, both counted from one.  The column after the last
character of a line is that of its line feed, or of the end. -/
structure Counts (lines : List Text) (i line column : Nat) : Prop where
  line_pos : 1 ≤ line
  line_le : line ≤ lines.length
  column_pos : 1 ≤ column
  column_le : column ≤ (lines.getD (line - 1) []).length + 1
  index_eq : i = lineStart lines (line - 1) + column - 1

namespace Counts

variable {i j line column line' column' : Nat}

/-- Whatever is in an earlier line, or earlier in the same line, has the lower index. -/
theorem index_lt (h : Counts texts i line column) (h' : Counts texts j line' column')
    (hbefore : line < line' ∨ line = line' ∧ column < column') : i < j := by
  obtain ⟨hline, hlines, hcolumn, hwidth, rfl⟩ := h
  obtain ⟨-, -, hcolumn', -, rfl⟩ := h'
  rcases hbefore with hlt | ⟨rfl, hlt⟩
  · -- the later line starts after the whole of the earlier one
    have hstart : lineStart texts (line - 1 + 1) ≤ lineStart texts (line' - 1) :=
      lineStart_le (by omega)
    have hnext := lineStart_succ (show line - 1 < texts.length by omega)
    omega
  · omega

/-- An index is in one line and one column only. -/
theorem unique (h : Counts texts i line column) (h' : Counts texts i line' column') :
    line = line' ∧ column = column' := by
  have hforth := h.index_lt h'
  have hback := h'.index_lt h
  omega

/-- The order of the indices is that of their lines and columns. -/
theorem index_lt_iff (h : Counts texts i line column) (h' : Counts texts j line' column') :
    i < j ↔ line < line' ∨ line = line' ∧ column < column' := by
  refine ⟨fun hlt => ?_, h.index_lt h'⟩
  have hback := h'.index_lt h
  by_contra hnot
  have hsame : ¬(line = line' ∧ column = column') := by
    rintro ⟨rfl, rfl⟩
    exact absurd (h.index_eq.trans h'.index_eq.symm) (Nat.ne_of_lt hlt)
  omega

/-- A column of a line of a text is that of an index of the text, or of its end. -/
theorem index_le {t : Text} (h : Counts (lines t) i line column) : i ≤ t.length := by
  obtain ⟨hline, hlines, hcolumn, hwidth, rfl⟩ := h
  have hnext := lineStart_succ (show line - 1 < (lines t).length by omega)
  have hend : lineStart (lines t) (line - 1 + 1) ≤ lineStart (lines t) (lines t).length :=
    lineStart_le (by omega)
  rw [lineStart_lines] at hend
  omega

end Counts

/-- What is shown of a line: all of it up to the carriage returns at its end. -/
def ShownOf (line shown : Text) : Prop :=
  (∃ returns, line = shown ++ returns ∧ ∀ c ∈ returns, c = '\r') ∧ shown.getLast? ≠ some '\r'

end Text

open Text (lines lineStart Counts ShownOf)

theorem shownOf_dropTrailingReturns (t : Text) : ShownOf t (dropTrailingReturns t) := by
  refine ⟨exists_dropTrailingReturns t, ?_⟩
  have hhead := List.head?_dropWhile_not (· == '\r') t.reverse
  rw [dropTrailingReturns, List.getLast?_reverse]
  rintro hlast
  rw [hlast] at hhead
  cases hhead

namespace Location

/-- One place comes before another: in an earlier line, or earlier in the same line. -/
def Before (l m : Location) : Prop := l.line < m.line ∨ l.line = m.line ∧ l.column < m.column

instance (l m : Location) : Decidable (l.Before m) :=
  inferInstanceAs (Decidable (l.line < m.line ∨ l.line = m.line ∧ l.column < m.column))

/-- The line around an index is one of the lines of the source, with as many before it as there
are line feeds before the index. -/
theorem exists_lines_eq (source : Text) (i : Nat) :
    ∃ earlier later,
      lines source = earlier ++
          (lastLine (source.take i) ++ (source.drop i).takeWhile (· != '\n')) :: later ∧
        earlier.length = (source.take i).count '\n' ∧
        lineStart earlier earlier.length + (lastLine (source.take i)).length =
          (source.take i).length := by
  obtain ⟨start, hsplit, hstart⟩ := exists_lastLine (source.take i)
  have hlast := lineFeed_notMem_lastLine (source.take i)
  have hsource := List.take_append_drop i source
  rw [hsplit] at hsource
  rw [hsplit, List.count_append, List.length_append, ← hsplit, List.count_eq_zero.mpr hlast]
  -- from here on the last line before the index is any text without a line feed
  generalize lastLine (source.take i) = last at *
  have hright : '\n' ∉ (source.drop i).takeWhile (· != '\n') := fun hmem =>
    absurd (List.all_eq_true.mp List.all_takeWhile _ hmem) (by decide)
  have hline : '\n' ∉ last ++ (source.drop i).takeWhile (· != '\n') := by
    rw [List.mem_append]
    exact not_or.mpr ⟨hlast, hright⟩
  have hhead := List.head?_dropWhile_not (· != '\n') (source.drop i)
  have hafter := List.takeWhile_append_dropWhile (p := (· != '\n')) (l := source.drop i)
  generalize (source.drop i).takeWhile (· != '\n') = right at *
  generalize (source.drop i).dropWhile (· != '\n') = tail at *
  obtain ⟨later, hlater⟩ : ∃ later, lines (last ++ right ++ tail) = (last ++ right) :: later := by
    unfold lines
    cases tail with
    | nil =>
      rw [List.append_nil]
      exact ⟨[], List.splitOn_eq_singleton hline⟩
    | cons c tail =>
      obtain rfl : c = '\n' := by simpa using hhead
      exact ⟨_, List.splitOn_append_cons_self_of_not_mem hline tail⟩
  rw [← hafter, List.append_assoc, ← List.append_assoc last] at hsource
  rcases hstart with rfl | hfeed
  · refine ⟨[], later, ?_, rfl, rfl⟩
    rw [← hsource]
    exact hlater
  · obtain ⟨before, rfl⟩ := List.getLast?_eq_some_iff.mp hfeed
    refine ⟨lines before, later, ?_, ?_, ?_⟩
    · rw [← hlater, ← hsource, List.append_assoc]
      exact List.splitOn_append_cons_self before _
    · rw [Text.length_lines, List.count_append]
      rfl
    · rw [Text.lineStart_lines, List.length_append]
      rfl

/-- The place of an index is counted out on the lines of the source, and the text shown is that
of its line. -/
theorem counts_ofText {source : Text} {i : Nat} (h : i ≤ source.length) :
    let line := (source.take i).count '\n' + 1
    Counts (lines source) i line ((lastLine (source.take i)).length + 1) ∧
      ShownOf ((lines source).getD (line - 1) []) (lineText source i) := by
  obtain ⟨earlier, later, hlines, hcount, hindex⟩ := exists_lines_eq source i
  intro line
  have hline : line - 1 = earlier.length := hcount.symm
  have hget : (lines source).getD (line - 1) [] =
      lastLine (source.take i) ++ (source.drop i).takeWhile (· != '\n') := by
    rw [hline, hlines, List.getD_append_right _ _ _ _ (Nat.le_refl _), Nat.sub_self,
      List.getD_cons_zero]
  have hbefore : lineStart (lines source) (line - 1) = lineStart earlier earlier.length := by
    rw [hline, hlines, lineStart, List.take_left, lineStart, List.take_length]
  rw [List.length_take, Nat.min_eq_left h] at hindex
  constructor
  · refine ⟨Nat.le_add_left .., ?_, Nat.le_add_left .., ?_, ?_⟩
    · rw [hlines, List.length_append, List.length_cons]
      omega
    · rw [hget, List.length_append]
      omega
    · rw [hbefore]
      omega
  · rw [hget]
    unfold lineText
    rw [clampIndex_natCast h]
    exact shownOf_dropTrailingReturns _

/-- What it is that the places of a source agree with its lines. -/
structure CountsLines (name source : Text) : Prop where
  /-- An index, or the end, has the one place that is counted out on the lines, and the text
  shown there is that of its line. -/
  place : ∀ i : Nat, i ≤ source.length → ∃ line column : Nat,
    ofIndex name source i = .ok ⟨name, line, column⟩ ∧
      Counts (lines source) i line column ∧
      (∀ line' column', Counts (lines source) i line' column' → line' = line ∧ column' = column) ∧
      ShownOf ((lines source).getD (line - 1) []) (lineText source i)
  /-- Every column of every line is the place of an index. -/
  onto : ∀ line column : Nat, 1 ≤ line → line ≤ (lines source).length → 1 ≤ column →
    column ≤ ((lines source).getD (line - 1) []).length + 1 →
      ∃ i : Nat, i ≤ source.length ∧ ofIndex name source i = .ok ⟨name, line, column⟩
  /-- Places are in the order of their indices, and different if these are. -/
  ordered : ∀ (i j : Int) (l m : Location), ofIndex name source i = .ok l →
    ofIndex name source j = .ok m → (i < j ↔ l.Before m) ∧ (i = j ↔ l = m)
  /-- Nothing else has a place. -/
  outside : ∀ index : Int, ¬(0 ≤ index ∧ index ≤ source.length) →
    ofIndex name source index = .error ⟨index, source.length⟩

/-- A place is that of an index of the source, or of its end. -/
theorem exists_counts_of_ofIndex {name source : Text} {index : Int} {l : Location}
    (h : ofIndex name source index = .ok l) :
    ∃ i line column : Nat, index = i ∧ l = ⟨name, line, column⟩ ∧
      Counts (lines source) i line column := by
  obtain ⟨hrange, rfl⟩ := ofIndex_eq_ok_iff.mp h
  exact ⟨index.toNat, _, _, by omega, rfl, (counts_ofText (by omega)).1⟩

/-- The order of places is that of their indices. -/
theorem before_iff {name source : Text} {i j : Int} {l m : Location}
    (hl : ofIndex name source i = .ok l) (hm : ofIndex name source j = .ok m) :
    i < j ↔ l.Before m := by
  obtain ⟨i, line, column, rfl, rfl, hcounts⟩ := exists_counts_of_ofIndex hl
  obtain ⟨j, line', column', rfl, rfl, hcounts'⟩ := exists_counts_of_ofIndex hm
  have hlt := hcounts.index_lt_iff hcounts'
  simp only [Before]
  omega

/-- **Places are counted on lines.**  Indices of a source, its end included, and the columns of
its lines are in bijection and in the same order, and nothing else has a place. -/
theorem ofIndex_countsLines (name source : Text) : CountsLines name source := by
  have hplace : ∀ {i line column : Nat}, Counts (lines source) i line column →
      ofIndex name source i = .ok ⟨name, line, column⟩ := by
    intro i line column hcounts
    obtain ⟨rfl, rfl⟩ := hcounts.unique (counts_ofText hcounts.index_le).1
    exact ofIndex_natCast hcounts.index_le name
  constructor
  case place =>
    intro i hi
    obtain ⟨hcounts, hshown⟩ := counts_ofText hi
    exact ⟨_, _, hplace hcounts, hcounts, fun _ _ h => h.unique hcounts, hshown⟩
  case onto =>
    intro line column hline hlines hcolumn hwidth
    have hcounts : Counts (lines source) _ line column :=
      ⟨hline, hlines, hcolumn, hwidth, rfl⟩
    exact ⟨_, hcounts.index_le, hplace hcounts⟩
  case ordered =>
    intro i j l m hl hm
    have hforth := before_iff hl hm
    have hback := before_iff hm hl
    refine ⟨hforth, ?_, fun hsame => ?_⟩
    · rintro rfl
      exact Except.ok.inj (hl.symm.trans hm)
    · subst hsame
      have hirrefl : ¬l.Before l := by simp [Before]
      have hle : ¬i < j := fun hlt => hirrefl (hforth.mp hlt)
      have hge : ¬j < i := fun hlt => hirrefl (hback.mp hlt)
      omega
  case outside =>
    intro index hrange
    unfold ofIndex
    rw [if_neg hrange]

/-- Two line feeds in a row, with a carriage return before the first of them. -/
example :
    let source := ['a', '\r', '\n', '\n', 'b']
    lines source = [['a', '\r'], [], ['b']] ∧ lineText source 2 = ['a'] ∧
      ofIndex [] source 3 = .ok ⟨[], 2, 1⟩ ∧ ofIndex [] source 5 = .ok ⟨[], 3, 2⟩ :=
  ⟨rfl, rfl, rfl, rfl⟩

end Location
end Lexis
