/-
# Environment and options

Options come before the environment, and the environment before what holds by itself.  A
variable says what it says trimmed and in lower case; a value that is not known says nothing:

| variable | known values | not looked at with |
| --- | --- | --- |
| format | `Settings.formats` | `--format`, `--json` |
| locations | `Settings.switches` | `--locations` |
| verbose | `Settings.switches` | `--verbose` |

So a run does not tell environments apart that differ only in blanks around a value, in the case
of its letters, in values that are not known, or in a variable that is not looked at
(`Command.run_alike`).
-/

import Lexis.Proofs.NamedFile
import Mathlib.Logic.Relation

namespace Lexis

/-! ## Blanks and letter case -/

namespace Text

/-- No letter of ASCII is blank, nor is what stands between the cases. -/
theorem isBlank_eq_false {c : Char} (h : 65 ≤ c.toNat) (h' : c.toNat ≤ 122) :
    isBlank c = false := by
  simp only [isBlank, blankRanges, List.any_cons, List.any_nil, Bool.or_false,
    Bool.or_eq_false_iff, Bool.and_eq_false_iff, decide_eq_false_iff_not]
  omega

/-- Whether a character is blank does not depend on its case. -/
theorem isBlank_toLower (c : Char) : isBlank c.toLower = isBlank c := by
  by_cases h : c.val ≥ 'A'.val ∧ c.val ≤ 'Z'.val
  · have hlower : 65 ≤ c.toNat := UInt32.le_iff_toNat_le.mp h.1
    have hupper : c.toNat ≤ 90 := UInt32.le_iff_toNat_le.mp h.2
    have hmoved : c.toLower.toNat = c.toNat + 32 := by
      have hsum : c.toLower.toNat = (c.toNat + 32) % 2 ^ 32 :=
        (congrArg Char.toNat (dif_pos h)).trans (UInt32.toNat_add _ _)
      omega
    rw [isBlank_eq_false (c := c) hlower (by omega),
      isBlank_eq_false (c := c.toLower) (by omega) (by omega)]
  · have hsame : c.toLower = c := dif_neg h
    rw [hsame]

/-- Trimming and lowering may change places. -/
theorem trim_lower (t : Text) : trim (lower t) = lower (trim t) := by
  have hblank : isBlank ∘ Char.toLower = isBlank := funext isBlank_toLower
  simp only [trim, lower, List.dropWhile_map, hblank, ← List.map_reverse]

/-- Blanks around a text are trimmed. -/
theorem trim_append {front back : Text} (hfront : front.all isBlank = true)
    (hback : back.all isBlank = true) (t : Text) : trim (front ++ t ++ back) = trim t := by
  have hreverse : ∀ c ∈ back.reverse, isBlank c = true := fun c hc =>
    List.all_eq_true.mp hback c (List.mem_reverse.mp hc)
  rw [trim, trim, List.append_assoc, List.dropWhile_append_of_pos (List.all_eq_true.mp hfront),
    List.dropWhile_append]
  split
  case isTrue h =>
    have hnone : back.dropWhile isBlank = [] := by
      have hall : (back ++ []).dropWhile isBlank = [].dropWhile isBlank :=
        List.dropWhile_append_of_pos (List.all_eq_true.mp hback)
      rwa [List.append_nil] at hall
    rw [hnone, List.isEmpty_iff.mp h]
  case isFalse => rw [List.reverse_append, List.dropWhile_append_of_pos hreverse]

end Text

/-! ## Values that say the same -/

namespace Settings

/-- The values known for the form of a listing. -/
def formats : List Text := ["text".toList, "json".toList]

/-- The values known for a switch. -/
def switches : List Text := yes ++ no

/-- A change to a variable of which some values are known: blanks are put around its value,
letters of it are written in the other case, or it is unset while its value is not known. -/
inductive Rewords (known : List Text) : Option Text → Option Text → Prop where
  | pad {front value back : Text} (hfront : front.all Text.isBlank = true)
      (hback : back.all Text.isBlank = true) :
      Rewords known (some value) (some (front ++ value ++ back))
  | letters {value value' : Text} (h : Text.lower value = Text.lower value') :
      Rewords known (some value) (some value')
  | unknown {value : Text} (h : Text.lower (Text.trim value) ∉ known) :
      Rewords known (some value) none

/-- Two values of a variable lead from one to the other by such changes and their reverse,
unless an option is given that is looked at in its place. -/
def Alike (known : List Text) (given : Bool) (v v' : Option Text) : Prop :=
  given = true ∨ Relation.EqvGen (Rewords known) v v'

/-- A question about values that is answered by their trimmed lower case, and only for known
values, has one answer for all values that say the same. -/
theorem bind_eq_of_eqvGen {α : Type} {known : List Text} {read : Text → Option α}
    (hnormal : ∀ {value value'}, normal value = normal value' → read value = read value')
    (hunknown : ∀ {value}, normal value ∉ known → read value = none) {v v' : Option Text}
    (h : Relation.EqvGen (Rewords known) v v') : v.bind read = v'.bind read := by
  induction h with
  | rel v v' hrewords =>
    cases hrewords with
    | @pad front value back hfront hback =>
      have hsame : normal value = normal (front ++ value ++ back) := by
        rw [normal, normal, Text.trim_append hfront hback]
      exact hnormal hsame
    | @letters value value' hletters =>
      have hsame : normal value = normal value' := by
        rw [normal, normal, ← Text.trim_lower, ← Text.trim_lower, hletters]
      exact hnormal hsame
    | unknown hvalue => exact hunknown hvalue
  | refl v => rfl
  | symm v v' _ ih => exact ih.symm
  | trans v v' v'' _ _ ih ih' => exact ih.trans ih'

theorem format?_of_unknown {value : Text} (h : normal value ∉ formats) : format? value = none := by
  simp only [formats, List.mem_cons, List.not_mem_nil, or_false, not_or] at h
  refine List.find?_eq_none.mpr fun format _ hformat => ?_
  have hname := eq_of_beq hformat
  cases format with
  | text => exact h.1 hname.symm
  | json => exact h.2 hname.symm

theorem flag?_of_unknown {value : Text} (h : normal value ∉ switches) : flag? value = none := by
  rw [switches, List.mem_append, not_or] at h
  rw [flag?, if_neg (fun hyes => h.1 (List.contains_iff_mem.mp hyes)),
    if_neg (fun hno => h.2 (List.contains_iff_mem.mp hno))]

theorem bind_format?_eq {v v' : Option Text} (h : Relation.EqvGen (Rewords formats) v v') :
    v.bind format? = v'.bind format? :=
  bind_eq_of_eqvGen (fun hsame => by rw [format?, format?, hsame]) format?_of_unknown h

theorem bind_flag?_eq {v v' : Option Text} (h : Relation.EqvGen (Rewords switches) v v') :
    v.bind flag? = v'.bind flag? :=
  bind_eq_of_eqvGen (fun hsame => by rw [flag?, flag?, hsame]) flag?_of_unknown h

end Settings

/-! ## Environments that a run does not tell apart -/

/-- The environments say the same in every variable that is looked at with these arguments. -/
structure Environment.Alike (a : Arguments) (e e' : Environment) : Prop where
  format : Settings.Alike Settings.formats (a.format.isSome || a.json) e.format e'.format
  locations : Settings.Alike Settings.switches a.locations e.locations e'.locations
  verbose : Settings.Alike Settings.switches a.verbose e.verbose e'.verbose

namespace Command

/-- A sound command line asks for what its arguments say. -/
theorem check_given {files : Text → FileEntry} {a : Arguments} {i : Invocation}
    (h : check files a = .ok i) :
    readFormat a.format = .ok i.format ∧ readOperand files a.operands.head? = .ok i.input ∧
      i.json = a.json ∧ i.locations = a.locations ∧ i.verbose = a.verbose := by
  unfold check at h
  cases hformat : readFormat a.format with
  | error fault =>
    rw [hformat] at h
    cases h
  | ok format =>
    cases hinput : readOperand files a.operands.head? with
    | error fault =>
      rw [hformat, hinput] at h
      cases h
    | ok input =>
      rw [hformat, hinput] at h
      cases htail : a.operands.tail with
      | cons extra more =>
        rw [htail] at h
        cases h
      | nil =>
        rw [htail] at h
        cases h
        exact ⟨rfl, rfl, rfl, rfl, rfl⟩

/-- The form that is asked for is the one named, letter case ignored. -/
theorem name_of_readFormat {value : Text} {format : Option Format}
    (h : readFormat (some value) = .ok format) :
    ∃ found, format = some found ∧ found.name = value.map Text.foldCase := by
  simp only [readFormat] at h
  split at h
  case h_1 found hfound =>
    cases h
    have hname := List.find?_some hfound
    exact ⟨found, rfl, eq_of_beq hname⟩
  case h_2 => cases h

/-- With these arguments the settings are the same. -/
theorem settings_alike {files : Text → FileEntry} {a : Arguments} {i : Invocation}
    (hcheck : check files a = .ok i) {e e' : Environment} (h : Environment.Alike a e e') :
    i.settings e = i.settings e' := by
  obtain ⟨hformat, -, hjson, hlocations, hverbose⟩ := check_given hcheck
  rw [Invocation.settings, Invocation.settings, Settings.mk.injEq]
  refine ⟨?_, ?_, ?_⟩
  · rcases h.format with hgiven | hsame
    · cases hasked : a.json with
      | true => rw [hjson, hasked, if_pos rfl, if_pos rfl]
      | false =>
        rw [hasked, Bool.or_false] at hgiven
        obtain ⟨value, hvalue⟩ := Option.isSome_iff_exists.mp hgiven
        rw [hvalue] at hformat
        obtain ⟨found, hfound, -⟩ := name_of_readFormat hformat
        rw [hfound, Option.getD_some, Option.getD_some]
    · simp only [Settings.ofEnvironment, Settings.bind_format?_eq hsame]
  · rcases h.locations with hgiven | hsame
    · rw [hlocations, hgiven, Bool.true_or, Bool.true_or]
    · simp only [Settings.ofEnvironment, Settings.bind_flag?_eq hsame]
  · rcases h.verbose with hgiven | hsame
    · rw [hverbose, hgiven, Bool.true_or, Bool.true_or]
    · simp only [Settings.ofEnvironment, Settings.bind_flag?_eq hsame]

/-- Nor does anything else of a run depend on the difference. -/
theorem run_eq_of_alike {words : List Text} {a : Arguments} (hread : Arguments.read words = .ok a)
    {e e' : Environment} (h : Environment.Alike a e e') (files : Text → FileEntry)
    (stdin : List UInt8) : run words e files stdin = run words e' files stdin := by
  rcases Option.eq_none_or_eq_some a.notice with hnotice | ⟨asked, hnotice⟩
  case inr => rw [run_of_notice hread hnotice, run_of_notice hread hnotice]
  case inl =>
    cases hcheck : check files a with
    | error fault =>
      have hprepare : prepare files words = .error (refuse fault) := by
        unfold prepare
        rw [hread]
        simp only [hnotice, hcheck]
        rfl
      unfold run
      rw [hprepare]
    | ok i =>
      have hprepare := prepare_of_check hread hnotice hcheck
      rw [run_eq_runBytes hprepare, run_eq_runBytes hprepare, settings_alike hcheck h]

/-- Command lines with `--json` that differ in the value of `--format` come to the same. -/
theorem run_eq_of_json {words words' : List Text} {a : Arguments} {value : Option Text}
    (hjson : a.json = true) (hread : Arguments.read words = .ok a)
    (hread' : Arguments.read words' = .ok { a with format := value }) {files : Text → FileEntry}
    (haccepts : Accepts files a) (haccepts' : Accepts files { a with format := value })
    (e : Environment) (stdin : List UInt8) :
    run words' e files stdin = run words e files stdin := by
  rcases Option.eq_none_or_eq_some a.notice with hnotice | ⟨asked, hnotice⟩
  case inr => rw [run_of_notice hread' hnotice, run_of_notice hread hnotice]
  case inl =>
    obtain ⟨i, hcheck⟩ := haccepts.exists_check hnotice
    obtain ⟨i', hcheck'⟩ := haccepts'.exists_check hnotice
    obtain ⟨-, hinput, hjson₁, hlocations, hverbose⟩ := check_given hcheck
    obtain ⟨-, hinput', hjson₂, hlocations', hverbose'⟩ := check_given hcheck'
    have hsame : i'.input = i.input := Except.ok.inj (hinput'.symm.trans hinput)
    have hsettings : i'.settings e = i.settings e := by
      rw [Invocation.settings, Invocation.settings, hjson₁, hjson₂, hlocations, hlocations',
        hverbose, hverbose', if_pos hjson, if_pos hjson]
    rw [run_eq_runBytes (prepare_of_check hread' hnotice hcheck'),
      run_eq_runBytes (prepare_of_check hread hnotice hcheck), hsame, hsettings]

/-- The form in which a run lists. -/
structure Effective (a : Arguments) (format : Format) : Prop where
  name_eq : format.name = "text".toList ∨ format.name = "json".toList
  ofJson : a.json = true → format = .json
  ofValue : ∀ value, a.json = false → a.format = some value →
    format.name = value.map Text.foldCase

theorem effective_settings {files : Text → FileEntry} {a : Arguments} {i : Invocation}
    (hcheck : check files a = .ok i) (e : Environment) : Effective a (i.settings e).format := by
  obtain ⟨hformat, -, hjson, -, -⟩ := check_given hcheck
  constructor
  case name_eq =>
    cases (i.settings e).format with
    | text => exact .inl rfl
    | json => exact .inr rfl
  case ofJson =>
    intro hasked
    rw [Invocation.settings, hjson, if_pos hasked]
  case ofValue =>
    intro value hasked hvalue
    rw [hvalue] at hformat
    obtain ⟨found, hfound, hname⟩ := name_of_readFormat hformat
    simp only [Invocation.settings, hjson, hasked, hfound, Bool.false_eq_true, if_false,
      Option.getD_some, hname]

/-- **Options come before the environment.**  Two runs on the same words, files and standard
input have the same outcome if their environments differ only in what is not looked at, or in how
a value is written, or in values that are not known.  The form of the listing is one of the two;
with `--json` it is that form, and the outcome does not depend on any value of `--format`. -/
theorem run_alike {words : List Text} {a : Arguments} (hread : Arguments.read words = .ok a)
    {e e' : Environment} (h : Environment.Alike a e e') (files : Text → FileEntry)
    (stdin : List UInt8) :
    run words e files stdin = run words e' files stdin ∧
      (∀ i, check files a = .ok i → Effective a (i.settings e).format) ∧
        (a.json = true → ∀ words' value, Arguments.read words' = .ok { a with format := value } →
          Accepts files a → Accepts files { a with format := value } →
            run words' e files stdin = run words e files stdin) :=
  ⟨run_eq_of_alike hread h files stdin, fun _ hcheck => effective_settings hcheck e,
    fun hjson _ _ hread' haccepts haccepts' =>
      run_eq_of_json hjson hread hread' haccepts haccepts' e stdin⟩

/-- The form from an option that another is stronger than, a switch written in two ways, and one
that is unset or not known. -/
theorem run_alike_trimmed :
    let words := ["-f".toList, "Text".toList, "--json".toList]
    let a : Arguments := { format := some "Text".toList, json := true }
    let e : Environment := ⟨some "text".toList, some " Yes\t".toList, some "maybe".toList⟩
    let e' : Environment := ⟨none, some "YES".toList, none⟩
    (Arguments.read words = .ok a ∧ Environment.Alike a e e') ∧ ∀ files stdin,
      run words e files stdin = run words e' files stdin ∧
        run ["--json".toList] e files stdin = run words e files stdin := by
  intro words a e e'
  have hread : Arguments.read words = .ok a := rfl
  have hcase : Settings.Rewords Settings.switches (some "YES".toList) (some "Yes".toList) :=
    .letters (by decide)
  have hpad : Settings.Rewords Settings.switches (some "Yes".toList)
      (some ([' '] ++ "Yes".toList ++ ['\t'])) := .pad rfl rfl
  have halike : Environment.Alike a e e' := by
    refine ⟨.inl rfl, .inr ?_, .inr (.rel _ _ (.unknown (by decide)))⟩
    exact .symm _ _ (.trans _ _ _ (.rel _ _ hcase) (.rel _ _ hpad))
  refine ⟨⟨hread, halike⟩, fun files stdin => ?_⟩
  obtain ⟨hsame, -, hjson⟩ := run_alike hread halike files stdin
  have hplain : Arguments.read ["--json".toList] = .ok { a with format := none } := rfl
  exact ⟨hsame, hjson rfl _ none hplain (.inr ⟨_, rfl⟩) (.inr ⟨_, rfl⟩)⟩

end Command
end Lexis
