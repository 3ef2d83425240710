/-
# Viable prefixes

The index of a failure is the first at which the source can no longer be mended by what
comes after it.  What is read before the index begins a literal that can still be finished,
and with the character at the index no literal can be (`Breaks.exists_split`).  So the text
before the index is a prefix of a source that can be read, and no source that agrees with
it up to and including the index can (`lex_error_viable`).
-/

import Lexis.Proofs.Scan

namespace Lexis

theorem IsStringBody.append {body body' : Text} (h : IsStringBody body) (h' : IsStringBody body') :
    IsStringBody (body ++ body') := by
  induction h with
  | nil => exact h'
  | plain hc _ ih => exact .plain hc ih
  | escape htarget _ ih => exact .escape htarget ih

/-- **A break is at the first character that no literal has.**  The part before it begins a
literal, and whatever follows that part, the literal breaks off in the same way if the
first character is the same, or is missing as well. -/
theorem Breaks.exists_split {fault : Fault} {i : Nat} {text : Text} (h : Breaks fault i text) :
    ∃ part rest, text = part ++ rest ∧ part.length = i ∧
      (∃ kind tail, Kind.Spells kind (part ++ tail)) ∧
        ∀ rest', rest.head? = rest'.head? → Breaks fault i (part ++ rest') := by
  cases h with
  | @leadingZero sign d rest hsign hd =>
    refine ⟨sign ++ ['0'], d :: rest, by simp, by simp, ⟨.integer, [], ?_⟩, fun rest' hhead => ?_⟩
    · rcases hsign with rfl | rfl
      · exact .integer (.unsigned .zero)
      · exact .integer (.signed .zero)
    · obtain ⟨tail, rfl⟩ := List.head?_eq_some_iff.mp hhead.symm
      rw [List.append_assoc]
      exact .leadingZero hsign hd
  | @trailingPoint whole rest h hrest =>
    refine ⟨whole ++ ['.'], rest, by simp, by simp, ⟨.decimal, ['0'], ?_⟩, fun rest' hhead => ?_⟩
    · rw [List.append_assoc]
      exact .decimal h (List.cons_ne_nil _ _) (List.forall_mem_singleton.mpr rfl)
    · rw [List.append_assoc]
      exact .trailingPoint h (hhead ▸ hrest)
  | @characterBody rest hrest =>
    refine ⟨['\''], rest, rfl, rfl, ⟨.character, ['a', '\''], ?_⟩, fun rest' hhead => ?_⟩
    · exact .character (.plain (by decide))
    · exact .characterBody (hhead ▸ hrest)
  | @characterEscape rest hrest =>
    refine ⟨['\'', '\\'], rest, rfl, rfl, ⟨.character, ['n', '\''], ?_⟩, fun rest' hhead => ?_⟩
    · exact .character (.escape rfl)
    · exact .characterEscape (hhead ▸ hrest)
  | @characterUnclosed body rest h hrest =>
    refine ⟨'\'' :: body, rest, rfl, rfl, ⟨.character, ['\''], .character h⟩, fun rest' hhead => ?_⟩
    exact .characterUnclosed h (hhead ▸ hrest)
  | @stringEscape body rest h hrest =>
    refine ⟨'"' :: (body ++ ['\\']), rest, by simp, by simp, ⟨.string, ['n', '"'], ?_⟩,
      fun rest' hhead => ?_⟩
    · have hbody : IsStringBody (body ++ ['\\', 'n']) := h.append (.escape rfl .nil)
      have hspells := Kind.Spells.string hbody
      rw [List.append_assoc] at hspells
      rw [List.cons_append, List.append_assoc]
      exact hspells
    · rw [List.cons_append, List.append_assoc]
      exact .stringEscape h (hhead ▸ hrest)
  | @stringBody body c rest h hc =>
    refine ⟨'"' :: body, c :: rest, rfl, rfl, ⟨.string, ['"'], .string h⟩, fun rest' hhead => ?_⟩
    obtain ⟨tail, rfl⟩ := List.head?_eq_some_iff.mp hhead.symm
    exact .stringBody h hc
  | @stringUnclosed body h =>
    refine ⟨'"' :: body, [], (List.append_nil _).symm, rfl, ⟨.string, ['"'], .string h⟩,
      fun rest' hhead => ?_⟩
    obtain rfl := List.head?_eq_none_iff.mp hhead.symm
    rw [List.append_nil]
    exact .stringUnclosed h

/-- **The index of a failure is where the source stops being viable.**  It lies beyond the
first character and not beyond the source.  The text before it can be completed to a source
that is read, while every source that agrees with this one up to and including the
character at the index fails in the same way. -/
theorem lex_error_viable {source : Text} {f : Failure} (h : lex source = .error f) :
    (1 ≤ f.index ∧ f.index ≤ source.length) ∧
      (∃ x tokens, lex (source.take f.index ++ x) = .ok tokens) ∧
        (f.index < source.length → ∀ y, lex (source.take (f.index + 1) ++ y) = .error f) := by
  obtain ⟨text, rest, i, rfl, hscan, hbreak, hindex⟩ := lex_eq_error_iff_scan.mp h
  obtain ⟨part, more, rfl, hpart, ⟨kind, tail, hspells⟩, hsame⟩ := hbreak.exists_split
  have hpos := hbreak.pos
  have hne : part ≠ [] := List.ne_nil_of_length_pos (hpart ▸ hpos)
  have hlength : (text ++ part).length = f.index := by rw [List.length_append, hpart, hindex]
  refine ⟨⟨by omega, ?_⟩, ?_, fun hlt y => ?_⟩
  · rw [hindex, List.length_append]
    exact Nat.add_le_add_left hbreak.le_length _
  · -- the completion of the broken literal completes the source: nothing follows it
    refine ⟨tail, f.tokens ++ [⟨kind, part ++ tail, (0 + text.length : Nat)⟩], ?_⟩
    rw [← List.append_assoc, List.take_left' hlength, List.append_assoc]
    refine lex_eq_ok_of_scan (Scan.append ?_ (.literal hspells rfl))
    rw [List.append_nil]
    exact hscan.congr_append hne tail
  · rw [← List.append_assoc, List.length_append, hlength] at hlt
    obtain ⟨c, more, rfl⟩ := List.exists_cons_of_length_pos (by omega : 0 < more.length)
    have htake : (text ++ (part ++ c :: more)).take (f.index + 1) ++ y =
        text ++ (part ++ c :: y) := by
      rw [← List.append_assoc, List.take_append, hlength, List.take_of_length_le (by omega),
        Nat.add_sub_cancel_left, List.take_succ_cons, List.take_zero, List.append_assoc,
        List.append_assoc, List.singleton_append]
    rw [htake]
    exact lex_eq_error_iff_scan.mpr
      ⟨text, part ++ c :: y, i, rfl, hscan.congr_append hne _, hsame _ rfl, hindex⟩

/-- A zero that another digit follows.  Up to the zero the text can be completed, with the
digit it fails, whatever comes then. -/
theorem lex_error_viable_needlessZero :
    lex ['a', ' ', '-', '0', '7', 'b'] = .error ⟨.leadingZero, 4, [⟨.identifier, ['a'], 0⟩]⟩ ∧
      (∃ x tokens, lex (['a', ' ', '-', '0'] ++ x) = .ok tokens) ∧
        ∀ y, lex (['a', ' ', '-', '0', '7'] ++ y) =
          .error ⟨.leadingZero, 4, [⟨.identifier, ['a'], 0⟩]⟩ := by
  have hscan : Scan 0 (['a'] ++ [' ']) [⟨.identifier, ['a'], 0⟩] ['-', '0', '7', 'b'] :=
    .token (by decide) rfl (.white rfl .done)
  have hbreak : Breaks .leadingZero 2 (['-'] ++ ['0', '7', 'b']) :=
    .leadingZero (.inr rfl) rfl
  have hlex : lex ['a', ' ', '-', '0', '7', 'b'] =
      .error ⟨.leadingZero, 4, [⟨.identifier, ['a'], 0⟩]⟩ := lex_eq_error_of_scan hscan hbreak
  obtain ⟨-, hviable, hbroken⟩ := lex_error_viable hlex
  exact ⟨hlex, hviable, hbroken (by decide)⟩

end Lexis
