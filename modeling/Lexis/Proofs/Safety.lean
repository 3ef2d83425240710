/-
# Safety of requests

Requests may come in any order and go on after failures, so a recogniser may be called where
its first character is missing, at the end of the source, or with text pending that an earlier
failure left.  Whatever came before, a request that minds the end of the source

* leaves the cursor inside the source,
* looks up no character that is not there,
* fails at the character where it leaves the cursor, or one further on if the fault is a
  leading zero, so that the failure has a place in the source and can be shown there.

`Reading.Sound` says this of one reading, `Cursor.Safe` of one request, and
`performAll_safe` of any sequence of them.
-/

import Lexis.Proofs.Lookup
import Lexis.Proofs.Place
import Mathlib.Algebra.Group.Nat.Defs

namespace Lexis

/-! ## Readings -/

namespace Reading

variable {α : Type}

/-- How far a reading points into its text: past what it took, or to the offending character. -/
def reach (r : Reading α) : Nat :=
  match r.verdict with
  | .ok _ => r.taken
  | .error fault => r.taken + fault.offset

/-- A reading that points into its text, and found at least the start of what it read for. -/
structure Sound (text : Text) (r : Reading α) : Prop where
  reach_le : r.reach ≤ text.length
  ne_noToken : r.verdict ≠ .error .noToken
  ne_escapeStart : r.verdict ≠ .error .escapeStart

variable {text : Text} {r : Reading α}

theorem taken_le_reach (r : Reading α) : r.taken ≤ r.reach := by
  unfold reach
  split
  · exact Nat.le_refl _
  · exact Nat.le_add_right _ _

theorem reach_after (n : Nat) (r : Reading α) : (r.after n).reach = n + r.reach := by
  obtain ⟨taken, fault | a⟩ := r
  · exact Nat.add_assoc _ _ _
  · rfl

/-- A reading that began further on in the text. -/
theorem Sound.after {n : Nat} (h : r.Sound (text.drop n)) (hn : n ≤ text.length) :
    (r.after n).Sound text := by
  refine ⟨?_, h.ne_noToken, h.ne_escapeStart⟩
  have hle := h.reach_le
  rw [List.length_drop] at hle
  rw [reach_after]
  omega

/-- A reading that succeeds. -/
theorem sound_ok {n : Nat} {a : α} (h : n ≤ text.length) : (⟨n, .ok a⟩ : Reading α).Sound text :=
  ⟨h, nofun, nofun⟩

/-- A reading that fails, but not for want of a start. -/
theorem sound_error {n : Nat} {fault : Fault} (h : n + fault.offset ≤ text.length)
    (hno : fault ≠ .noToken) (hstart : fault ≠ .escapeStart) :
    (⟨n, .error fault⟩ : Reading α).Sound text where
  reach_le := h
  ne_noToken hverdict := hno (Except.error.inj hverdict)
  ne_escapeStart hverdict := hstart (Except.error.inj hverdict)

end Reading

namespace Recogniser

theorem sound_optionally {α : Type} {p : Char → Bool} {next : Recogniser α}
    (h : ∀ text, (next text).Sound text) (text : Text) : (optionally p next text).Sound text := by
  cases text with
  | nil => exact h []
  | cons a rest =>
    rw [optionally]
    split
    · have hrest : (next rest).Sound ((a :: rest).drop 1) := h rest
      exact hrest.after (Nat.succ_pos _)
    · exact h (a :: rest)

theorem sound_identifier (text : Text) : (identifier text).Sound text :=
  sound_optionally (fun _ => Reading.sound_ok (List.takeWhile_sublist _).length_le) text

theorem sound_fraction (text : Text) : (fraction text).Sound text := by
  have hle := (List.takeWhile_sublist CharClass.digit.accepts (l := text)).length_le
  unfold fraction
  split
  · exact Reading.sound_error (Nat.zero_le _) (by decide) (by decide)
  · rename_i n hn
    rw [hn] at hle
    exact Reading.sound_ok hle

theorem sound_numberFrom (text : Text) : (numberFrom 0 text).Sound text := by
  unfold numberFrom
  split
  · rename_i rest
    have hrest : (fraction rest).Sound (('.' :: rest).drop 1) := sound_fraction rest
    exact hrest.after (Nat.succ_pos _)
  · exact Reading.sound_ok (Nat.zero_le _)

theorem sound_unsigned (text : Text) : (unsigned text).Sound text := by
  unfold unsigned
  split
  · rename_i hzero
    obtain ⟨d, rest, rfl, -⟩ := startsWithNeedlessZero_iff.mp hzero
    refine Reading.sound_error ?_ (by decide) (by decide)
    simp only [Fault.offset, List.length_cons]
    omega
  · have hle := (List.takeWhile_sublist CharClass.digit.accepts (l := text)).length_le
    have hafter := (sound_numberFrom _).after hle
    rwa [numberFrom_after, Nat.zero_add] at hafter

theorem sound_number (text : Text) : (number text).Sound text :=
  sound_optionally sound_unsigned text

/-- An escape points into its text, whatever that starts with. -/
theorem reach_escape_le (text : Text) : (escape text).reach ≤ text.length := by
  unfold escape
  split
  · split <;> simp [Reading.reach, Fault.offset]
  · simp [Reading.reach, Fault.offset]
  · exact Nat.zero_le _

theorem escape_ne_noToken (text : Text) : (escape text).verdict ≠ .error .noToken := by
  unfold escape
  split
  · split <;> nofun
  · nofun
  · nofun

/-- Where a backslash is ahead, an escape has a start. -/
theorem sound_escape (rest : Text) : (escape ('\\' :: rest)).Sound ('\\' :: rest) := by
  refine ⟨reach_escape_le _, escape_ne_noToken _, ?_⟩
  cases rest with
  | nil =>
    intro h
    cases h
  | cons target rest =>
    rw [escape]
    split <;> simp

theorem sound_closingQuote (text : Text) : (closingQuote text).Sound text := by
  unfold closingQuote
  split
  · exact Reading.sound_ok (Nat.succ_pos _)
  · exact Reading.sound_error (Nat.zero_le _) (by decide) (by decide)

theorem sound_followedBy {α β : Type} {first : Recogniser α} {next : Recogniser β} {text : Text}
    (h : (first text).Sound text) (hnext : ∀ rest, (next rest).Sound rest) :
    (followedBy first next text).Sound text := by
  simp only [followedBy]
  split
  · exact (hnext _).after (Nat.le_trans (Reading.taken_le_reach _) h.reach_le)
  · rename_i fault hfault
    have hsame : (⟨(first text).taken, .error fault⟩ : Reading β).reach = (first text).reach := by
      simp only [Reading.reach, hfault]
    refine ⟨hsame ▸ h.reach_le, ?_, ?_⟩
    · rintro ⟨⟩
      exact h.ne_noToken hfault
    · rintro ⟨⟩
      exact h.ne_escapeStart hfault

theorem sound_afterSingleQuote (text : Text) : (afterSingleQuote text).Sound text := by
  cases text with
  | nil => exact Reading.sound_error (Nat.zero_le _) (by decide) (by decide)
  | cons a rest =>
    rw [afterSingleQuote]
    split
    · rename_i hbackslash
      obtain rfl : a = '\\' := eq_of_beq ((CharClass.accepts_exactly '\\' a).symm.trans hbackslash)
      exact sound_followedBy (sound_escape rest) sound_closingQuote
    split
    · have hrest : (closingQuote rest).Sound ((a :: rest).drop 1) := sound_closingQuote rest
      exact hrest.after (Nat.succ_pos _)
    · exact Reading.sound_error (Nat.zero_le _) (by decide) (by decide)

theorem sound_character (text : Text) : (character text).Sound text :=
  sound_optionally sound_afterSingleQuote text

theorem sound_stringFrom (text : Text) : (stringFrom 0 text).Sound text := by
  obtain ⟨body, rest, rfl, hbody, hends⟩ := exists_stringBody text
  rw [stringFrom_append hbody, Nat.zero_add]
  cases hends with
  | input =>
    rw [List.append_nil]
    exact Reading.sound_error (Nat.le_refl _) (by decide) (by decide)
  | quote =>
    refine Reading.sound_ok ?_
    rw [List.length_append, List.length_cons]
    omega
  | lineBreak ha =>
    rw [stringFrom_lineBreak ha]
    refine Reading.sound_error ?_ (by decide) (by decide)
    simp [Fault.offset]
  | escape hrest =>
    rw [stringFrom_badEscape hrest]
    refine Reading.sound_error ?_ (by decide) (by decide)
    simp [Fault.offset]

theorem sound_string (text : Text) : (string text).Sound text :=
  sound_optionally sound_stringFrom text

theorem sound_operator (text : Text) : (operator text).Sound text := by
  unfold operator
  split
  · exact Reading.sound_ok (Nat.zero_le _)
  · exact Reading.sound_ok (Nat.le_refl _)
  · split
    · exact Reading.sound_ok (by simp only [List.length_cons]; omega)
    · exact Reading.sound_ok (Nat.succ_pos _)

/-- Every recogniser of a token points into its text. -/
theorem sound_startingWith (a : Char) (text : Text) : (startingWith a text).Sound text := by
  unfold startingWith
  split
  · exact sound_identifier text
  split
  · exact sound_number text
  split
  · exact sound_character text
  split
  · exact sound_string text
  · exact sound_operator text

/-- Whatever rule is asked for, and whatever the text starts with. -/
theorem sound_rule (rule : Rule) {text : Text} (h : rule ≠ .token ∨ text ≠ []) :
    (rule.recogniser text).Sound text := by
  cases rule with
  | token =>
    rcases text with _ | ⟨a, rest⟩
    · exact absurd h (by decide)
    · exact sound_startingWith a (a :: rest)
  | identifier => exact sound_identifier text
  | number => exact sound_number text
  | character => exact sound_character text
  | string => exact sound_string text
  | operator => exact sound_operator text

theorem reach_rule_le (rule : Rule) (text : Text) :
    (rule.recogniser text).reach ≤ text.length := by
  by_cases h : rule ≠ .token ∨ text ≠ []
  · exact (sound_rule rule h).reach_le
  · simp only [ne_eq, not_or, Classical.not_not] at h
    obtain ⟨rfl, rfl⟩ := h
    exact Nat.le_refl 0

end Recogniser

/-! ## Requests -/

namespace Cursor

theorem fits_length_le {pattern : List (Char → Bool)} {text : Text}
    (h : fits pattern text = true) : pattern.length ≤ text.length := by
  induction pattern generalizing text with
  | nil => exact Nat.zero_le _
  | cons p pattern ih =>
    cases text with
    | nil => cases h
    | cons a text =>
      rw [fits, Bool.and_eq_true] at h
      exact Nat.succ_le_succ (ih h.2)

/-- The cursor has not left its source. -/
def Inside (c : Cursor) : Prop := c.position ≤ c.source.length

/-- The result of a request to a cursor: where it leaves the cursor, and where it fails. -/
structure Leaves (c : Cursor) {α : Type} (result : Except Failure α × Cursor) : Prop where
  source_eq : result.2.source = c.source
  position_le : result.2.position ≤ c.source.length
  index_eq : ∀ f, result.1 = .error f →
    f.index = result.2.position + if f.fault = .leadingZero then 1 else 0
  index_le : ∀ f, result.1 = .error f → f.index ≤ c.source.length

variable {c : Cursor}

theorem Inside.position_add (h : c.Inside) : c.position + c.ahead.length = c.source.length := by
  have hle : c.position ≤ c.source.length := h
  rw [ahead_eq, List.length_drop]
  omega

theorem offset_eq (fault : Fault) : fault.offset = if fault = .leadingZero then 1 else 0 := by
  cases fault <;> rfl

theorem Leaves.of_source_eq {α : Type} {next : Cursor} {result : Except Failure α × Cursor}
    (hsource : next.source = c.source) (h : next.Leaves result) : c.Leaves result := by
  refine ⟨h.source_eq.trans hsource, ?_, h.index_eq, ?_⟩
  · rw [← hsource]
    exact h.position_le
  · rw [← hsource]
    exact h.index_le

/-- A failure after `n` characters, at the next of them or so much further on as the fault
says. -/
theorem Inside.leaves_error {α : Type} (h : c.Inside) {n : Nat} {fault : Fault}
    (hreach : n + fault.offset ≤ c.ahead.length) :
    c.Leaves ((.error ((c.take n).failure fault), c.take n) : Except Failure α × Cursor) := by
  have hlength := h.position_add
  refine ⟨rfl, ?_, ?_, ?_⟩
  · rw [position_take]
    omega
  · rintro f ⟨⟩
    rw [← offset_eq]
    rfl
  · rintro f ⟨⟩
    simp only [failure, position_take]
    omega

/-- A success after `n` characters. -/
theorem Inside.leaves_ok {α : Type} {a : α} {next : Cursor} (h : c.Inside) {n : Nat}
    (hn : n ≤ c.ahead.length) (hsource : next.source = c.source)
    (hposition : next.position = c.position + n) :
    c.Leaves ((.ok a, next) : Except Failure α × Cursor) := by
  have hlength := h.position_add
  refine ⟨hsource, ?_, nofun, nofun⟩
  show next.position ≤ c.source.length
  omega

/-- A recogniser that points into the text ahead. -/
theorem Inside.leaves_recognise (h : c.Inside) {r : Recogniser Kind}
    (hreach : (r c.ahead).reach ≤ c.ahead.length) : c.Leaves (c.recognise r) := by
  unfold recognise
  rcases hread : r c.ahead with ⟨taken, fault | kind⟩
  · rw [hread] at hreach
    exact h.leaves_error hreach
  · rw [hread] at hreach
    refine h.leaves_ok (n := taken) hreach rfl ?_
    simp only [emit, position_skip, position_take]

theorem Inside.leaves_escape (h : c.Inside) : c.Leaves c.escape := by
  have hreach := Recogniser.reach_escape_le c.ahead
  unfold escape
  rcases hread : Recogniser.escape c.ahead with ⟨taken, fault | ⟨⟩⟩
  · rw [hread] at hreach
    exact h.leaves_error hreach
  · rw [hread] at hreach
    exact h.leaves_ok hreach rfl (c.position_take taken)

theorem Inside.leaves_rule (h : c.Inside) (rule : Rule) : c.Leaves (c.recognise rule.recogniser) :=
  h.leaves_recognise (Recogniser.reach_rule_le rule c.ahead)

/-- The fault of a recogniser is that of its reading. -/
theorem verdict_of_recognise_error {r : Recogniser Kind} {f : Failure} {next : Cursor}
    (h : c.recognise r = (.error f, next)) : (r c.ahead).verdict = .error f.fault := by
  unfold recognise at h
  rcases hread : r c.ahead with ⟨taken, fault | kind⟩
  · rw [hread] at h
    cases h
    rfl
  · rw [hread] at h
    cases h

/-- The recognisers of tokens never miss the start of an escape. -/
theorem fault_ne_escapeStart {rule : Rule} {f : Failure}
    (h : (c.recognise rule.recogniser).1 = .error f) : f.fault ≠ .escapeStart := by
  intro hfault
  have hverdict := verdict_of_recognise_error (Prod.ext h rfl)
  rw [hfault] at hverdict
  by_cases hstart : rule ≠ .token ∨ c.ahead ≠ []
  · exact (Recogniser.sound_rule rule hstart).ne_escapeStart hverdict
  · simp only [ne_eq, not_or, Classical.not_not] at hstart
    obtain ⟨rfl, hahead⟩ := hstart
    rw [hahead] at hverdict
    cases hverdict

/-- A run that reads on stays inside its source, and fails as a recogniser of tokens does. -/
theorem Inside.leaves_lexOnto (h : c.Inside) (read : List Token) :
    c.Leaves (c.lexOnto read) ∧ ∀ f, (c.lexOnto read).1 = .error f → f.fault ≠ .escapeStart := by
  fun_induction Cursor.lexOnto read c with
  | case1 read c hahead =>
    refine ⟨h.leaves_ok (Nat.zero_le _) rfl rfl, fun f hf => ?_⟩
    cases hf
  | case2 read c a rest hahead hwhite ih =>
    have hlength := h.position_add
    have hnext : c.advance.skip.Inside := by
      show c.advance.skip.position ≤ c.source.length
      rw [position_skip, advance, position_take, ← hlength, hahead, List.length_cons]
      omega
    have hsource : c.advance.skip.source = c.source := rfl
    obtain ⟨hleaves, hfault⟩ := ih hnext
    exact ⟨hleaves.of_source_eq hsource, hfault⟩
  | case3 read c a rest hahead hwhite t next htoken ih =>
    have htaken := h.leaves_rule .token
    have hsame : c.recognise Rule.token.recogniser = (.ok t, next) := htoken
    rw [hsame] at htaken
    have hsource : next.source = c.source := htaken.source_eq
    have hnext : next.Inside := by
      show next.position ≤ next.source.length
      rw [hsource]
      exact htaken.position_le
    obtain ⟨hleaves, hfault⟩ := ih hnext
    exact ⟨hleaves.of_source_eq hsource, hfault⟩
  | case4 read c a rest hahead hwhite f next htoken =>
    have htaken := h.leaves_rule .token
    have hsame : c.recognise Rule.token.recogniser = (.error f, next) := htoken
    rw [hsame] at htaken
    refine ⟨⟨htaken.source_eq, htaken.position_le, ?_, ?_⟩, ?_⟩
    · rintro g ⟨⟩
      exact htaken.index_eq f rfl
    · rintro g ⟨⟩
      exact htaken.index_le f rfl
    · rintro g ⟨⟩ hfault
      exact fault_ne_escapeStart (congrArg Prod.fst hsame) hfault

end Cursor

/-- What is safe about one request to a cursor. -/
structure Cursor.Safe (c : Cursor) (op : Operation) : Prop where
  /-- The cursor stays in its source. -/
  source_eq : (c.perform op).2.source = c.source
  position_le : (c.perform op).2.position ≤ c.source.length
  /-- The answer is not that a character is absent. -/
  present : ∀ fault, (c.perform op).1 ≠ .absent fault
  /-- Nor is one looked up on the way that is absent, as long as every index of the source can
  be looked up at all. -/
  lookups : c.source.length ≤ 2 ^ 63 → Procedure.carryOut c op = some (c.perform op)
  /-- A failure is placed where it leaves the cursor, a leading zero one further on. -/
  index_eq : ∀ f, (c.perform op).1 = .failed f →
    f.index = (c.perform op).2.position + if f.fault = .leadingZero then 1 else 0
  index_le : ∀ f, (c.perform op).1 = .failed f → f.index ≤ c.source.length
  /-- So it has a place in the source, and can be shown there. -/
  shown : ∀ f, (c.perform op).1 = .failed f → ∀ name : Text,
    (∃ l, Location.ofIndex name c.source f.index = .ok l) ∧
      ∃ text, Diagnostic.render name c.source f.complaint = .ok text
  /-- A token is missing only at the end of the source, and there it is. -/
  noToken_iff : op = .recognise .token →
    ((∃ f, (c.perform op).1 = .failed f ∧ f.fault = .noToken) ↔ c.position = c.source.length)
  /-- A backslash is missing only where an escape was asked for. -/
  escapeStart : ∀ f, (c.perform op).1 = .failed f → f.fault = .escapeStart → op = .escape

namespace Cursor

variable {c : Cursor} {op : Operation}

/-- A failure inside a source can be shown. -/
theorem exists_shown {source : Text} {f : Failure} (h : f.index ≤ source.length) (name : Text) :
    (∃ l, Location.ofIndex name source f.index = .ok l) ∧
      ∃ text, Diagnostic.render name source f.complaint = .ok text := by
  have hplace := Location.ofIndex_natCast h name
  exact ⟨⟨_, hplace⟩, ⟨_, Diagnostic.render_of_ofIndex hplace⟩⟩

theorem failed_of_ofExcept {α : Type} {g : α → Answer} (hg : ∀ a f, g a ≠ .failed f)
    {result : Except Failure α} {f : Failure} (h : Answer.ofExcept g result = .failed f) :
    result = .error f := by
  cases result with
  | ok a => exact absurd h (hg a f)
  | error e =>
    cases h
    rfl

theorem absent_ne_ofExcept {α : Type} {g : α → Answer} {fault : IndexFault}
    (hg : ∀ a, g a ≠ .absent fault) (result : Except Failure α) :
    Answer.ofExcept g result ≠ .absent fault := by
  cases result with
  | ok a => exact hg a
  | error e => nofun

/-- A token is missing at the end of the source and nowhere else. -/
theorem Inside.noToken_iff (h : c.Inside) :
    (∃ f, (c.recognise Rule.token.recogniser).1 = .error f ∧ f.fault = .noToken) ↔
      c.position = c.source.length := by
  have hlength := h.position_add
  constructor
  · rintro ⟨f, hf, hfault⟩
    have hverdict := verdict_of_recognise_error (Prod.ext hf rfl)
    rw [hfault] at hverdict
    by_cases hahead : c.ahead = []
    · rw [hahead, List.length_nil] at hlength
      omega
    · exact absurd hverdict (Recogniser.sound_rule .token (.inr hahead)).ne_noToken
  · intro hend
    have hahead : c.ahead = [] := List.length_eq_zero_iff.mp (by omega)
    refine ⟨c.failure .noToken, ?_, rfl⟩
    unfold recognise
    rw [hahead]
    rfl

/-- A request whose result leaves the cursor inside its source is safe. -/
theorem Inside.safe_of_leaves {α : Type} (hop : op.isGuarded = true) {g : α → Answer}
    {result : Except Failure α × Cursor}
    (hperform : c.perform op = (Answer.ofExcept g result.1, result.2))
    (hg : (∀ a f, g a ≠ .failed f) ∧ ∀ a fault, g a ≠ .absent fault) (h : c.Leaves result)
    (htoken : op = .recognise .token →
      ((∃ f, result.1 = .error f ∧ f.fault = .noToken) ↔ c.position = c.source.length))
    (hescape : ∀ f, result.1 = .error f → f.fault = .escapeStart → op = .escape) : c.Safe op := by
  have hfailed : ∀ f, (c.perform op).1 = .failed f ↔ result.1 = .error f := by
    intro f
    rw [hperform]
    refine ⟨failed_of_ofExcept hg.1, fun hresult => ?_⟩
    show Answer.ofExcept g result.1 = _
    rw [hresult]
    rfl
  constructor
  case source_eq => rw [hperform]; exact h.source_eq
  case position_le => rw [hperform]; exact h.position_le
  case present =>
    intro fault
    rw [hperform]
    exact absent_ne_ofExcept (hg.2 · fault) result.1
  case lookups => exact fun hword => Procedure.carryOut_eq hword hop
  case index_eq =>
    intro f hf
    rw [hperform]
    exact h.index_eq f ((hfailed f).mp hf)
  case index_le => exact fun f hf => h.index_le f ((hfailed f).mp hf)
  case shown => exact fun f hf name => exists_shown (h.index_le f ((hfailed f).mp hf)) name
  case noToken_iff =>
    intro hrule
    rw [← htoken hrule]
    simp only [hfailed]
  case escapeStart => exact fun f hf => hescape f ((hfailed f).mp hf)

/-- A request that cannot fail and takes only what is ahead is safe. -/
theorem Inside.safe_of_ok {α : Type} (hc : c.Inside) (hop : op.isGuarded = true) {g : α → Answer}
    {a : α} {next : Cursor} (hperform : c.perform op = (g a, next))
    (hg : (∀ a f, g a ≠ .failed f) ∧ ∀ a fault, g a ≠ .absent fault)
    (hrule : op ≠ .recognise .token) {n : Nat} (hn : n ≤ c.ahead.length)
    (hsource : next.source = c.source) (hposition : next.position = c.position + n) :
    c.Safe op := by
  have hleaves : c.Leaves ((.ok a, next) : Except Failure α × Cursor) :=
    hc.leaves_ok hn hsource hposition
  refine safe_of_leaves hop ?_ hg hleaves (fun h => absurd h hrule) nofun
  exact hperform

/-- **One request is safe**, whatever is pending. -/
theorem Inside.safe (h : c.Inside) (hop : op.isGuarded = true) : c.Safe op := by
  have hposition : c.skip.position = c.position + 0 := c.position_skip
  cases op with
  | get _ | advance => cases hop
  | has offset =>
    exact h.safe_of_ok hop (g := .flag) rfl ⟨by simp, by simp⟩ (by simp) (Nat.zero_le _) rfl rfl
  | skip =>
    exact h.safe_of_ok hop (g := fun _ : Unit => .done) (a := ()) rfl ⟨by simp, by simp⟩ (by simp)
      (Nat.zero_le _) rfl hposition
  | emit kind =>
    exact h.safe_of_ok hop (g := .token) rfl ⟨by simp, by simp⟩ (by simp) (Nat.zero_le _) rfl hposition
  | peek pattern =>
    exact h.safe_of_ok hop (g := .flag) rfl ⟨by simp, by simp⟩ (by simp) (Nat.zero_le _) rfl rfl
  | accept pattern =>
    cases hpeek : c.peek pattern with
    | true =>
      have haccept : c.perform (.accept pattern) = (.flag true, c.take pattern.length) := by
        simp only [perform, accept, hpeek, if_true]
        rfl
      exact h.safe_of_ok hop haccept ⟨by simp, by simp⟩ (by simp) (fits_length_le hpeek) rfl
        (c.position_take _)
    | false =>
      have haccept : c.perform (.accept pattern) = (.flag false, c) := by
        simp only [perform, accept, hpeek, Bool.false_eq_true, if_false]
        rfl
      exact h.safe_of_ok hop haccept ⟨by simp, by simp⟩ (by simp) (Nat.zero_le _) rfl rfl
  | recognise rule =>
    refine safe_of_leaves hop (g := .token) rfl ⟨by simp, by simp⟩ (h.leaves_rule rule) ?_ ?_
    · rintro ⟨⟩
      exact h.noToken_iff
    · intro f hf hfault
      exact absurd hfault (fault_ne_escapeStart hf)
  | escape =>
    exact safe_of_leaves hop (g := fun _ => .done) rfl ⟨by simp, by simp⟩ h.leaves_escape (by simp)
      fun _ _ _ => rfl
  | lex =>
    obtain ⟨hleaves, hfault⟩ := h.leaves_lexOnto []
    exact safe_of_leaves hop (g := .tokens) rfl ⟨by simp, by simp⟩ hleaves (by simp)
      fun f hf hstart => absurd hstart (hfault f hf)

/-! ## Sequences of requests -/

/-- The cursor that a sequence of requests leaves. -/
def left (c : Cursor) (ops : List Operation) : Cursor := ops.foldl (fun c op => (c.perform op).2) c

/-- What a request is answered in a sequence depends on the cursor that those before it left. -/
theorem getElem?_performAll (c : Cursor) (before : List Operation) (op : Operation)
    (later : List Operation) :
    (c.performAll (before ++ op :: later))[before.length]? = some ((c.left before).perform op) := by
  induction before generalizing c with
  | nil => rfl
  | cons first before ih => exact ih (c.perform first).2

/-- Safe requests keep the cursor inside its source. -/
theorem Inside.left (h : c.Inside) {ops : List Operation}
    (hops : ∀ op ∈ ops, op.isGuarded = true) :
    (c.left ops).Inside ∧ (c.left ops).source = c.source := by
  induction ops generalizing c with
  | nil => exact ⟨h, rfl⟩
  | cons op ops ih =>
    obtain ⟨hop, hops⟩ := List.forall_mem_cons.mp hops
    have hsafe := h.safe hop
    have hnext : (c.perform op).2.Inside := by
      show (c.perform op).2.position ≤ (c.perform op).2.source.length
      rw [hsafe.source_eq]
      exact hsafe.position_le
    obtain ⟨hinside, hsource⟩ := ih hnext hops
    exact ⟨hinside, hsource.trans hsafe.source_eq⟩

end Cursor

/-- **Requests are safe in any order.**  In any sequence of requests to one cursor that mind the
end of the source, failures included, the cursor stands inside its source before each of them,
and each of them is safe. -/
theorem performAll_safe (source : Text) {ops : List Operation}
    (hops : ∀ op ∈ ops, op.isGuarded = true) :
    ∀ before op later, ops = before ++ op :: later →
      let c := (Cursor.ofSource source).left before
      ((Cursor.ofSource source).performAll ops)[before.length]? = some (c.perform op) ∧
        c.source = source ∧ c.position ≤ source.length ∧ c.Safe op := by
  rintro before op later rfl
  obtain ⟨hbefore, hlater⟩ := List.forall_mem_append.mp hops
  have hstart : (Cursor.ofSource source).Inside := Nat.zero_le _
  obtain ⟨hinside, hsource⟩ := hstart.left hbefore
  have hposition : ((Cursor.ofSource source).left before).position ≤
      ((Cursor.ofSource source).left before).source.length := hinside
  rw [hsource] at hposition
  exact ⟨Cursor.getElem?_performAll _ before op later, hsource, hposition,
    hinside.safe (hlater op (List.mem_cons_self ..))⟩

/-- A number with a needless zero fails beyond the cursor that it leaves, and what it took is
still pending when a character literal is asked for there. -/
theorem performAll_safe_pendingSign :
    let c := (Cursor.ofSource ['-', '0', '7']).left [.recognise .number]
    (∀ op ∈ [Operation.recognise .number, .recognise .character], op.isGuarded = true) ∧
      (c.position = 1 ∧ c.pending = ['-']) ∧
        c.perform (.recognise .character) =
          (.failed ⟨.characterUnclosed, 2, []⟩, (Cursor.ofSource ['-', '0', '7']).take 2) ∧
            c.Safe (.recognise .character) := by
  have hops : ∀ op ∈ [Operation.recognise .number, .recognise .character],
      op.isGuarded = true := by
    rintro op (_ | ⟨_, _ | ⟨_, ⟨⟩⟩⟩) <;> rfl
  obtain ⟨-, -, -, hsafe⟩ := performAll_safe ['-', '0', '7'] hops [.recognise .number]
    (.recognise .character) [] rfl
  exact ⟨hops, ⟨rfl, rfl⟩, rfl, hsafe⟩

end Lexis
