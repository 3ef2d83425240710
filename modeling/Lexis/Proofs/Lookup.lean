/-
# Reading by lookups

From any cursor whatever, the procedures of `Lexis.Proofs.Procedure` do what the recognisers do, so
they neither look up a character that is not there nor go on for ever.  There is one lemma for
each recogniser (`Procedure.reads_number` and its like), and one for all requests that mind the
end of the source (`Procedure.carryOut_eq`).
-/

import Lexis.Proofs.Procedure
import Lexis.Proofs.Reading

namespace Lexis

/-! ## Recognisers -/

/-- What a recogniser takes can be taken in two parts. -/
theorem Cursor.recognise_after {c : Cursor} {n : Nat} {r r' : Recogniser Kind}
    (h : r c.ahead = (r' (c.take n).ahead).after n) : c.recognise r = (c.take n).recognise r' := by
  simp only [recognise, h, Reading.after, take_take]

/-- What may come first is taken if it does. -/
theorem Cursor.recognise_optionally (c : Cursor) (q : Char → Bool) (r : Recogniser Kind) :
    c.recognise (Recogniser.optionally q r) = (c.accept [q]).2.recognise r := by
  rw [Procedure.accept_singleton]
  rcases hahead : c.ahead with _ | ⟨a, rest⟩
  · simp only [recognise, hahead, Recogniser.optionally, List.head?_nil, Option.any_none,
      Bool.false_eq_true, if_false]
  · rw [List.head?_cons, Option.any_some]
    cases hq : q a with
    | true =>
      refine recognise_after ?_
      rw [c.ahead_take, hahead, Recogniser.optionally, if_pos hq, List.drop_one, List.tail_cons]
    | false =>
      simp only [recognise, hahead, Recogniser.optionally, hq, Bool.false_eq_true, if_false]

namespace Procedure

/-- From any cursor the procedure does what the recogniser does. -/
def Reads (p : Procedure Token) (r : Recogniser Kind) : Prop :=
  ∀ c : Cursor, c.Addressable → exec p c = some (c.recognise r)

theorem any_exactly_of_ne {a : Char} {text : Text} (h : text.head? ≠ some a) :
    text.head?.any (CharClass.exactly [a]).accepts = false := by
  refine (Option.any_eq_false ..).mpr fun b hb => ?_
  rw [CharClass.accepts_exactly]
  exact beq_false_of_ne fun heq => h (heq ▸ hb)

theorem reads_optionally {p : Procedure Token} {r : Recogniser Kind} (h : Reads p r)
    (q : Char → Bool) :
    Reads (do let _ ← accept [q]; p) (Recogniser.optionally q r) := by
  intro c hc
  have hnext : (c.accept [q]).2.Addressable := by
    unfold Cursor.accept
    split <;> exact hc
  rw [exec_bind_ok (exec_accept hc [q]), Cursor.recognise_optionally]
  exact h _ hnext

theorem reads_run (q : Char → Bool) (kind : Kind) :
    Reads (do acceptAll q; emit kind) (Recogniser.run q kind) := by
  intro c hc
  rw [exec_bind_ok (exec_acceptAll hc q)]
  rfl

theorem reads_identifier : Reads identifier Recogniser.identifier :=
  reads_optionally (reads_run _ _) _

theorem reads_fraction : Reads fraction Recogniser.fraction := by
  intro c hc
  rw [fraction, exec_bind_ok (exec_peek hc _), Cursor.recognise, Recogniser.fraction, Cursor.peek]
  rcases hahead : c.ahead with _ | ⟨a, rest⟩
  · rfl
  · rw [Cursor.fits, Cursor.fits, Bool.and_true]
    cases ha : CharClass.digit.accepts a with
    | true =>
      rw [if_pos rfl, exec_bind_ok (exec_acceptAll hc _), hahead, List.takeWhile_cons_of_pos ha]
      rfl
    | false =>
      rw [List.takeWhile_cons_of_neg (by rw [ha]; exact Bool.false_ne_true)]
      rfl

theorem reads_afterWhole : Reads afterWhole (Recogniser.numberFrom 0) := by
  intro c hc
  rw [afterWhole, exec_bind_ok (exec_accept hc _), accept_singleton]
  by_cases hpoint : c.ahead.head? = some '.'
  · obtain ⟨rest, hahead⟩ := List.head?_eq_some_iff.mp hpoint
    have hnext : (c.take 1).ahead = rest := by
      rw [c.ahead_take, hahead, List.drop_one, List.tail_cons]
    have hafter : Recogniser.numberFrom 0 c.ahead =
        (Recogniser.fraction (c.take 1).ahead).after 1 := by
      rw [hahead, hnext, Recogniser.numberFrom]
    rw [Cursor.recognise_after hafter, ← reads_fraction (c.take 1) hc, hpoint]
    rfl
  · have hnone : c.ahead.head?.any CharClass.point.accepts = false := any_exactly_of_ne hpoint
    have hinteger : Recogniser.numberFrom 0 c.ahead = ⟨0, .ok .integer⟩ := by
      rw [Recogniser.numberFrom]
      exact fun rest hrest => hpoint (hrest ▸ rfl)
    rw [hnone, Cursor.recognise, hinteger]
    rfl

theorem reads_unsigned : Reads unsigned Recogniser.unsigned := by
  intro c hc
  have hneedless : c.peek [CharClass.zero.accepts, CharClass.digit.accepts] =
      Recogniser.startsWithNeedlessZero c.ahead := by
    rw [Cursor.peek]
    rcases c.ahead with _ | ⟨a, _ | ⟨b, rest⟩⟩
    · rfl
    · simp [Cursor.fits, Recogniser.startsWithNeedlessZero]
    · simp [Cursor.fits, Recogniser.startsWithNeedlessZero]
  rw [unsigned, exec_bind_ok (exec_peek hc _), hneedless]
  cases hzero : Recogniser.startsWithNeedlessZero c.ahead with
  | true =>
    rw [if_pos rfl, Cursor.recognise, Recogniser.unsigned, if_pos hzero]
    rfl
  | false =>
    rw [if_neg Bool.false_ne_true, exec_bind_ok (exec_acceptAll hc _)]
    have hafter : Recogniser.unsigned c.ahead = (Recogniser.numberFrom 0
        (c.take (c.ahead.takeWhile CharClass.digit.accepts).length).ahead).after
          (c.ahead.takeWhile CharClass.digit.accepts).length := by
      rw [Recogniser.unsigned, hzero, if_neg Bool.false_ne_true, Recogniser.numberFrom_after,
        Nat.zero_add, c.ahead_take]
    rw [Cursor.recognise_after hafter]
    exact reads_afterWhole _ hc

theorem reads_number : Reads number Recogniser.number := reads_optionally reads_unsigned _

theorem exec_escape (hc : c.Addressable) : exec escape c = some c.escape := by
  rw [escape, exec_bind_ok (exec_accept hc _), accept_singleton, Cursor.escape]
  by_cases hbackslash : c.ahead.head? = some '\\'
  · obtain ⟨rest, hahead⟩ := List.head?_eq_some_iff.mp hbackslash
    have hnext : (c.take 1).ahead = rest := by
      rw [c.ahead_take, hahead, List.drop_one, List.tail_cons]
    have htake : (if (some '\\').any CharClass.backslash.accepts then (true, c.take 1)
        else (false, c)) = (true, c.take 1) := rfl
    rw [hbackslash, htake, if_pos rfl, exec_bind_ok (exec_accept (c := c.take 1) hc _),
      accept_singleton, hnext, hahead]
    rcases rest with _ | ⟨target, rest⟩
    · rfl
    · rw [Recogniser.escape, List.head?_cons, Option.any_some, Cursor.take_take]
      cases CharClass.escapeTarget.accepts target with
      | true => rfl
      | false => rfl
  · have hnone : c.ahead.head?.any CharClass.backslash.accepts = false :=
      any_exactly_of_ne hbackslash
    have hstart : Recogniser.escape c.ahead = ⟨0, .error .escapeStart⟩ := by
      rw [Recogniser.escape]
      · exact fun target rest hahead => hbackslash (by rw [hahead]; rfl)
      · exact fun hahead => hbackslash (by rw [hahead]; rfl)
    rw [hnone, hstart]
    rfl

theorem reads_closingQuote : Reads closingQuote Recogniser.closingQuote := by
  intro c hc
  rw [closingQuote, exec_bind_ok (exec_accept hc _), accept_singleton, Cursor.recognise]
  by_cases hquote : c.ahead.head? = some '\''
  · obtain ⟨rest, hahead⟩ := List.head?_eq_some_iff.mp hquote
    rw [hahead]
    rfl
  · have hnone : c.ahead.head?.any CharClass.singleQuote.accepts = false := any_exactly_of_ne hquote
    rw [hnone, Recogniser.closingQuote_of_ne hquote]
    rfl

/-- An escape and what comes after it. -/
theorem exec_escape_bind {p : Procedure Token} {r : Recogniser Kind} (h : Reads p r)
    (hc : c.Addressable) :
    exec (do escape; p) c = some (c.recognise (Recogniser.followedBy Recogniser.escape r)) := by
  have hescape := exec_escape hc
  simp only [Cursor.escape] at hescape
  rcases hread : Recogniser.escape c.ahead with ⟨taken, fault | ⟨⟨⟩⟩⟩
  · rw [hread] at hescape
    rw [exec_bind_error hescape]
    simp only [Cursor.recognise, Recogniser.followedBy, hread]
  · rw [hread] at hescape
    have hafter : Recogniser.followedBy Recogniser.escape r c.ahead =
        (r (c.take taken).ahead).after taken := by
      simp only [Recogniser.followedBy, hread, c.ahead_take]
    rw [exec_bind_ok hescape, Cursor.recognise_after hafter]
    exact h (c.take taken) hc

theorem reads_afterSingleQuote : Reads afterSingleQuote Recogniser.afterSingleQuote := by
  intro c hc
  have hbody : exec characterBody c = if c.peek [CharClass.backslash.accepts] then exec escape c
      else if c.ahead.head?.any CharClass.characterBody.accepts then some (.ok (), c.take 1)
      else some (.error (c.failure .characterBody), c) := by
    rw [characterBody, exec_bind_ok (exec_peek hc _)]
    split
    · rfl
    · rw [exec_bind_ok (exec_accept hc _), accept_singleton]
      split <;> rfl
  rcases hahead : c.ahead with _ | ⟨a, rest⟩
  · rw [Cursor.peek, hahead] at hbody
    rw [afterSingleQuote, exec_bind_error hbody, Cursor.recognise, hahead]
    rfl
  have hnext : (c.take 1).ahead = rest := by
    rw [c.ahead_take, hahead, List.drop_one, List.tail_cons]
  rw [Cursor.peek, hahead, Cursor.fits, Cursor.fits, Bool.and_true, List.head?_cons,
    Option.any_some] at hbody
  cases hbackslash : CharClass.backslash.accepts a with
  | true =>
    have hread : Recogniser.afterSingleQuote c.ahead =
        Recogniser.followedBy Recogniser.escape Recogniser.closingQuote c.ahead := by
      rw [hahead, Recogniser.afterSingleQuote, if_pos hbackslash]
    rw [hbackslash, if_pos rfl] at hbody
    rw [afterSingleQuote, exec_bind_congr hbody, exec_escape_bind reads_closingQuote hc,
      Cursor.recognise, Cursor.recognise, hread]
  | false =>
    rw [hbackslash, if_neg Bool.false_ne_true] at hbody
    cases hplain : CharClass.characterBody.accepts a with
    | true =>
      have hafter : Recogniser.afterSingleQuote c.ahead =
          (Recogniser.closingQuote (c.take 1).ahead).after 1 := by
        rw [hahead, hnext, Recogniser.afterSingleQuote, hbackslash, hplain,
          if_neg Bool.false_ne_true, if_pos rfl]
      rw [hplain, if_pos rfl] at hbody
      rw [afterSingleQuote, exec_bind_ok hbody, Cursor.recognise_after hafter]
      exact reads_closingQuote (c.take 1) hc
    | false =>
      have hread : Recogniser.afterSingleQuote c.ahead = ⟨0, .error .characterBody⟩ := by
        rw [hahead, Recogniser.afterSingleQuote, hbackslash, hplain, if_neg Bool.false_ne_true,
          if_neg Bool.false_ne_true]
      rw [hplain, if_neg Bool.false_ne_true] at hbody
      rw [afterSingleQuote, exec_bind_error hbody, Cursor.recognise, hread]
      rfl

theorem reads_character : Reads character Recogniser.character :=
  reads_optionally reads_afterSingleQuote _

theorem exec_has_zero (c : Cursor) : exec (has 0) c = some (.ok (!c.ahead.isEmpty), c) := by
  rw [← c.has_zero]
  rfl

theorem exec_stringItem (hc : c.Addressable) :
    exec stringItem c =
      if c.ahead = [] then some (.error (c.failure .stringUnclosed), c)
      else if c.peek [CharClass.backslash.accepts] then exec escape c
      else if c.ahead.head?.any CharClass.stringBody.accepts then some (.ok (), c.take 1)
      else some (.error (c.failure .stringBody), c) := by
  rw [stringItem, exec_bind_ok (exec_has_zero c)]
  by_cases hend : c.ahead = []
  · rw [if_pos hend, hend]
    rfl
  · rw [List.isEmpty_eq_false_iff.mpr hend, Bool.not_false, if_pos rfl, if_neg hend,
      exec_bind_ok (exec_peek hc _)]
    split
    · rfl
    · rw [exec_bind_ok (exec_accept hc _), accept_singleton]
      split <;> rfl

/-- Where the closing quote is not ahead, the procedure reads one more item. -/
theorem exec_stringBody (hc : c.Addressable) (hquote : c.ahead.head? ≠ some '"') :
    exec stringBody c = exec (do stringItem; stringBody) c := by
  have hpeek : c.peek [CharClass.doubleQuote.accepts] = false := by
    have hnone : c.ahead.head?.any CharClass.doubleQuote.accepts = false := any_exactly_of_ne hquote
    rw [← peek_singleton] at hnone
    exact hnone
  conv => lhs; rw [stringBody, exec_bind_ok (exec_peek hc _), hpeek, if_neg Bool.false_ne_true]

/-- The procedure passes the body of a string literal. -/
theorem exec_stringBody_append {body rest : Text} (hbody : IsStringBody body)
    (hc : c.Addressable) (hahead : c.ahead = body ++ rest) :
    exec stringBody c = exec stringBody (c.take body.length) := by
  induction hbody generalizing c with
  | nil => rfl
  | @plain a body h _ ih =>
    have hnext : (c.take 1).ahead = body ++ rest := by
      rw [c.ahead_take, hahead, List.cons_append, List.drop_one, List.tail_cons]
    have hquote : c.ahead.head? ≠ some '"' := by
      rw [hahead]
      rintro ⟨⟩
      exact h (by decide)
    have hplain : CharClass.stringBody.accepts a = true := CharClass.accepts_noneOf.mpr h
    have hitem : exec stringItem c = some (.ok (), c.take 1) := by
      have hbackslash : CharClass.backslash.accepts a = false :=
        (CharClass.accepts_exactly '\\' a).trans
          (beq_false_of_ne (List.ne_and_not_mem_of_not_mem_cons h).1)
      rw [exec_stringItem hc, peek_singleton, hahead, List.cons_append,
        if_neg (List.cons_ne_nil _ _), List.head?_cons, Option.any_some, Option.any_some,
        hbackslash, hplain, if_neg Bool.false_ne_true, if_pos rfl]
    rw [exec_stringBody hc hquote, exec_bind_ok hitem, ih (c := c.take 1) hc hnext,
      Cursor.take_take, List.length_cons, Nat.add_comm]
  | @escape target body h _ ih =>
    have hnext : (c.take 2).ahead = body ++ rest := by
      rw [c.ahead_take, hahead]
      rfl
    have hquote : c.ahead.head? ≠ some '"' := by
      rw [hahead]
      rintro ⟨⟩
    have hitem : exec stringItem c = some (.ok (), c.take 2) := by
      have hbackslash : CharClass.backslash.accepts '\\' = true := rfl
      rw [exec_stringItem hc, peek_singleton, hahead, List.cons_append,
        if_neg (List.cons_ne_nil _ _), List.head?_cons, Option.any_some, hbackslash, if_pos rfl,
        exec_escape hc, Cursor.escape, hahead, List.cons_append, List.cons_append,
        Recogniser.escape_target h]
    rw [exec_stringBody hc hquote, exec_bind_ok hitem, ih (c := c.take 2) hc hnext,
      Cursor.take_take, List.length_cons, List.length_cons, Nat.add_comm 2]

/-- Where an item fails, so does the literal. -/
theorem exec_afterDoubleQuote_of_error (hc : c.Addressable) (hquote : c.ahead.head? ≠ some '"')
    {f : Failure} (hitem : exec stringItem c = some (.error f, next)) :
    exec afterDoubleQuote c = some (.error f, next) := by
  have hbody : exec stringBody c = some (.error f, next) := by
    rw [exec_stringBody hc hquote, exec_bind_error hitem]
  rw [afterDoubleQuote, exec_bind_error hbody]

/-- Where the body of a string literal ends, procedure and recogniser agree. -/
theorem exec_afterDoubleQuote_of_ends (hc : c.Addressable) {rest : Text} (hahead : c.ahead = rest)
    (hends : EndsStringBody rest) :
    exec afterDoubleQuote c = some (c.recognise (Recogniser.stringFrom 0)) := by
  have hitem := exec_stringItem hc
  rw [peek_singleton, hahead] at hitem
  rw [Cursor.recognise, hahead]
  cases hends with
  | input =>
    rw [if_pos rfl] at hitem
    exact exec_afterDoubleQuote_of_error hc (by rw [hahead]; rintro ⟨⟩) hitem
  | quote =>
    have hbody : exec stringBody c = some (.ok (), c) := by
      rw [stringBody, exec_bind_ok (exec_peek hc _), peek_singleton, hahead]
      rfl
    rw [afterDoubleQuote, exec_bind_ok hbody, exec_bind_ok (exec_accept hc _), accept_singleton,
      hahead]
    rfl
  | @lineBreak a rest ha =>
    have hbreak : exec stringItem c = some (.error (c.failure .stringBody), c) := by
      rw [hitem]
      rcases ha with rfl | rfl <;> rfl
    have hquote : c.ahead.head? ≠ some '"' := by
      rw [hahead]
      rcases ha with rfl | rfl <;> rintro ⟨⟩
    rw [exec_afterDoubleQuote_of_error hc hquote hbreak, Recogniser.stringFrom_lineBreak ha]
    rfl
  | escape hrest =>
    have hescape : exec stringItem c =
        some (.error ((c.take 1).failure .escapeTarget), c.take 1) := by
      have hbackslash : CharClass.backslash.accepts '\\' = true := rfl
      rw [hitem, if_neg (List.cons_ne_nil _ _), List.head?_cons, Option.any_some, hbackslash,
        if_pos rfl, exec_escape hc, Cursor.escape, hahead, Recogniser.escape_badTarget hrest]
    rw [exec_afterDoubleQuote_of_error hc (by rw [hahead]; rintro ⟨⟩) hescape,
      Recogniser.stringFrom_badEscape hrest]

theorem reads_afterDoubleQuote : Reads afterDoubleQuote (Recogniser.stringFrom 0) := by
  intro c hc
  obtain ⟨body, rest, hahead, hbody, hends⟩ := exists_stringBody c.ahead
  have hpass := exec_stringBody_append hbody hc hahead
  have hnext : (c.take body.length).ahead = rest := by
    rw [c.ahead_take, hahead, List.drop_left]
  have hafter : Recogniser.stringFrom 0 c.ahead =
      (Recogniser.stringFrom 0 (c.take body.length).ahead).after body.length := by
    rw [hnext, hahead, Recogniser.stringFrom_append hbody, Nat.zero_add,
      Recogniser.stringFrom_after]
  rw [Cursor.recognise_after hafter, afterDoubleQuote, exec_bind_congr hpass]
  exact exec_afterDoubleQuote_of_ends (c := c.take body.length) hc hnext hends

theorem reads_string : Reads string Recogniser.string := reads_optionally reads_afterDoubleQuote _

theorem peek_pair (a b : Char) (c : Cursor) :
    c.peek [(CharClass.exactly [a]).accepts, (CharClass.exactly [b]).accepts] =
      [a, b].isPrefixOf c.ahead := by
  rw [Cursor.peek]
  rcases c.ahead with _ | ⟨x, _ | ⟨y, rest⟩⟩
  · rfl
  · simp only [Cursor.fits, Bool.and_false, List.isPrefixOf]
  · simp only [Cursor.fits, List.isPrefixOf, CharClass.accepts_exactly, Bool.and_true, BEq.comm]

/-- A pair that is ahead is taken, and otherwise at most one character. -/
theorem exec_operatorOf (hc : c.Addressable) (pairs : List (Char × Char)) :
    exec (operatorOf pairs) c = exec (emit .operator)
      (c.take (if pairs.any fun pair => [pair.1, pair.2].isPrefixOf c.ahead then 2
        else min 1 c.ahead.length)) := by
  induction pairs with
  | nil =>
    rw [operatorOf, exec_bind_ok (exec_accept hc _), accept_singleton]
    rcases hahead : c.ahead with _ | ⟨a, rest⟩
    · rfl
    · have hone : min 1 (a :: rest).length = 1 := by
        rw [List.length_cons]
        omega
      rw [List.any_nil, if_neg Bool.false_ne_true, hone]
      rfl
  | cons pair pairs ih =>
    rw [operatorOf, exec_bind_ok (exec_accept hc _), Cursor.accept, peek_pair]
    cases hpair : [pair.1, pair.2].isPrefixOf c.ahead with
    | true => rw [List.any_cons, hpair, Bool.true_or]; rfl
    | false => rw [List.any_cons, hpair, Bool.false_or, ← ih]; rfl

theorem reads_operator : Reads operator Recogniser.operator := by
  intro c hc
  have hread : Recogniser.operator c.ahead =
      ⟨if Recogniser.pairs.any fun pair => [pair.1, pair.2].isPrefixOf c.ahead then 2
        else min 1 c.ahead.length, .ok .operator⟩ := by
    rcases c.ahead with _ | ⟨a, _ | ⟨b, rest⟩⟩
    · rfl
    · simp only [List.isPrefixOf, Bool.and_false]
      rfl
    · have hpair : (Recogniser.pairs.any fun pair => [pair.1, pair.2].isPrefixOf (a :: b :: rest)) =
          Recogniser.pairs.contains (a, b) := by
        simp only [List.isPrefixOf, Bool.and_true, List.contains_eq_any_beq]
        refine congrArg Recogniser.pairs.any (funext fun pair => ?_)
        rw [BEq.comm, BEq.comm (a := pair.2)]
        rfl
      have hone : min 1 (a :: b :: rest).length = 1 := by
        simp only [List.length_cons]
        omega
      rw [Recogniser.operator, hpair, hone]
      split <;> rfl
  rw [operator, exec_operatorOf hc, Cursor.recognise, hread]
  rfl

theorem exec_peek_pos (hc : c.Addressable) {q : Char → Bool} (hq : c.ahead.head?.any q = true)
    (p p' : Procedure Token) : exec (do if ← peek [q] then p else p') c = exec p c := by
  rw [exec_bind_ok (exec_peek hc _), peek_singleton, hq, if_pos rfl]

theorem exec_peek_neg (hc : c.Addressable) {q : Char → Bool} (hq : c.ahead.head?.any q = false)
    (p p' : Procedure Token) : exec (do if ← peek [q] then p else p') c = exec p' c := by
  rw [exec_bind_ok (exec_peek hc _), peek_singleton, hq, if_neg Bool.false_ne_true]

theorem reads_token : Reads token Recogniser.token := by
  intro c hc
  rcases hahead : c.ahead with _ | ⟨a, rest⟩
  · have hnone : ∀ q : Char → Bool, c.ahead.head?.any q = false := fun q => by rw [hahead]; rfl
    rw [token, exec_peek_neg hc (hnone _), exec_peek_neg hc (hnone _), exec_peek_neg hc (hnone _),
      exec_peek_neg hc (hnone _), exec_peek_neg hc (hnone _), Cursor.recognise, hahead]
    rfl
  have hhead : ∀ q : Char → Bool, c.ahead.head?.any q = q a := fun q => by rw [hahead]; rfl
  have hstart : c.recognise Recogniser.token = c.recognise (Recogniser.startingWith a) := by
    simp only [Cursor.recognise, hahead, Recogniser.token]
  rw [token, hstart, Recogniser.startingWith]
  cases hidentifier : CharClass.identifierStart.accepts a with
  | true =>
    rw [exec_peek_pos hc ((hhead _).trans hidentifier)]
    exact reads_identifier c hc
  | false =>
  rw [exec_peek_neg hc ((hhead _).trans hidentifier)]
  cases hnumber : CharClass.numberStart.accepts a with
  | true =>
    rw [exec_peek_pos hc ((hhead _).trans hnumber)]
    exact reads_number c hc
  | false =>
  rw [exec_peek_neg hc ((hhead _).trans hnumber)]
  cases hsingle : CharClass.singleQuote.accepts a with
  | true =>
    rw [exec_peek_pos hc ((hhead _).trans hsingle)]
    exact reads_character c hc
  | false =>
  rw [exec_peek_neg hc ((hhead _).trans hsingle)]
  cases hdouble : CharClass.doubleQuote.accepts a with
  | true =>
    rw [exec_peek_pos hc ((hhead _).trans hdouble)]
    exact reads_string c hc
  | false =>
    rw [exec_peek_neg hc ((hhead _).trans hdouble), exec_peek_pos hc (hhead _)]
    exact reads_operator c hc

/-! ## Requests -/

theorem exec_tryCatch_ok {α : Type} {next : Cursor} {p : Procedure α} {a : α}
    (h : exec p c = some (.ok a, next)) (handler : Failure → Procedure α) :
    exec (tryCatch p handler) c = some (.ok a, next) := by
  show ((p c).bind _ : Option _) = _
  rw [show p c = some (.ok a, next) from h]
  rfl

theorem exec_tryCatch_error {α : Type} {next : Cursor} {p : Procedure α} {f : Failure}
    (h : exec p c = some (.error f, next)) (handler : Failure → Procedure α) :
    exec (tryCatch p handler) c = exec (handler f) next := by
  show ((p c).bind _ : Option _) = _
  rw [show p c = some (.error f, next) from h]
  rfl

theorem source_recognise (c : Cursor) (r : Recogniser Kind) :
    (c.recognise r).2.source = c.source := by
  rw [Cursor.recognise]
  split <;> rfl

theorem exec_lexOnto (read : List Token) (hc : c.Addressable) :
    exec (lexOnto read) c = some (c.lexOnto read) := by
  fun_induction Cursor.lexOnto read c with
  | case1 read c hahead =>
    rw [lexOnto, exec_bind_ok (exec_has_zero c), hahead]
    rfl
  | case2 read c next rest hahead hwhite ih =>
    have haccept : c.accept [CharClass.whitespace.accepts] = (true, c.take 1) := by
      rw [accept_singleton, hahead, List.head?_cons, Option.any_some, hwhite, if_pos rfl]
    have hskip : exec skip (c.take 1) = some (.ok (), c.advance.skip) := rfl
    rw [lexOnto, exec_bind_ok (exec_has_zero c), hahead, List.isEmpty_cons,
      Bool.not_false, if_pos rfl, exec_bind_ok (exec_accept hc _), haccept, if_pos rfl,
      exec_bind_ok hskip]
    exact ih hc
  | case3 read c next rest hahead hwhite t c' htoken ih =>
    have haccept : c.accept [CharClass.whitespace.accepts] = (false, c) := by
      rw [accept_singleton, hahead, List.head?_cons, Option.any_some, if_neg hwhite]
    have hread : exec token c = some (.ok t, c') := (reads_token c hc).trans (congrArg some htoken)
    rw [lexOnto, exec_bind_ok (exec_has_zero c), hahead, List.isEmpty_cons,
      Bool.not_false, if_pos rfl, exec_bind_ok (exec_accept hc _), haccept,
      if_neg Bool.false_ne_true, exec_bind_ok (exec_tryCatch_ok hread _)]
    refine ih ?_
    have hsource : c'.source = c.source := by
      rw [← source_recognise c Recogniser.token, ← Cursor.token, htoken]
    rwa [Cursor.Addressable, hsource]
  | case4 read c next rest hahead hwhite failure c' htoken =>
    have haccept : c.accept [CharClass.whitespace.accepts] = (false, c) := by
      rw [accept_singleton, hahead, List.head?_cons, Option.any_some, if_neg hwhite]
    have hread : exec token c = some (.error failure, c') :=
      (reads_token c hc).trans (congrArg some htoken)
    have hthrow : exec (tryCatch token fun f => throw { f with tokens := read.reverse }) c =
        some (.error { failure with tokens := read.reverse }, c') := exec_tryCatch_error hread _
    rw [lexOnto, exec_bind_ok (exec_has_zero c), hahead, List.isEmpty_cons,
      Bool.not_false, if_pos rfl, exec_bind_ok (exec_accept hc _), haccept,
      if_neg Bool.false_ne_true, exec_bind_error hthrow]

end Procedure

/-- Whether a request minds the end of the source: all do but a step by hand and a lookup by
hand. -/
def Operation.isGuarded : Operation → Bool
  | .get _ | .advance => false
  | _ => true

namespace Procedure

/-- Carries out one request by looking characters up. -/
def carryOut (c : Cursor) : Operation → Option (Answer × Cursor)
  | .has offset => answered .flag (has offset)
  | .get offset => answered .char (look offset)
  | .advance => answered (fun _ => .done) advance
  | .skip => answered (fun _ => .done) skip
  | .emit kind => answered .token (emit kind)
  | .peek pattern => answered .flag (peek pattern)
  | .accept pattern => answered .flag (accept pattern)
  | .recognise .token => answered .token token
  | .recognise .identifier => answered .token identifier
  | .recognise .number => answered .token number
  | .recognise .character => answered .token character
  | .recognise .string => answered .token string
  | .recognise .operator => answered .token operator
  | .escape => answered (fun _ => .done) escape
  | .lex => answered .tokens (lexOnto [])
where
  answered {α : Type} (f : α → Answer) (p : Procedure α) : Option (Answer × Cursor) :=
    (exec p c).map fun result => (.ofExcept f result.1, result.2)

/-- **No request looks up a character that is not there.**  From any cursor, after whatever
came before, reading by lookups comes to the same answer and the same cursor. -/
theorem carryOut_eq (hc : c.Addressable) {op : Operation} (hop : op.isGuarded = true) :
    carryOut c op = some (c.perform op) := by
  cases op with
  | get _ | advance => cases hop
  | has _ | skip | emit _ => rfl
  | peek pattern => rw [carryOut, carryOut.answered, exec_peek hc]; rfl
  | accept pattern => rw [carryOut, carryOut.answered, exec_accept hc]; rfl
  | recognise rule =>
    cases rule with
    | token => rw [carryOut, carryOut.answered, reads_token c hc]; rfl
    | identifier => rw [carryOut, carryOut.answered, reads_identifier c hc]; rfl
    | number => rw [carryOut, carryOut.answered, reads_number c hc]; rfl
    | character => rw [carryOut, carryOut.answered, reads_character c hc]; rfl
    | string => rw [carryOut, carryOut.answered, reads_string c hc]; rfl
    | operator => rw [carryOut, carryOut.answered, reads_operator c hc]; rfl
  | escape => rw [carryOut, carryOut.answered, exec_escape hc]; rfl
  | lex => rw [carryOut, carryOut.answered, exec_lexOnto [] hc]; rfl

end Procedure
end Lexis
