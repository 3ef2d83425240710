/-
# The file that is named

A command line that names a file has that file listed, whatever the standard input holds, as if
the words that name no file had been given and the file put on the standard input.  This takes a
name whose normal form is neither `-` nor that of the standard input; a file of such a name is
never read (`run_standardName`).
-/

import Lexis.Proofs.Outcome

namespace Lexis

/-! ## Options without operands -/

namespace Arguments

/-- Switches leave the operands. -/
theorem operands_turnOn (switches : List Switch) (a : Arguments) (ops : List Text) :
    (switches.foldl turnOn a).operands = a.operands ∧
      switches.foldl turnOn { a with operands := ops } =
        { switches.foldl turnOn a with operands := ops } := by
  induction switches generalizing a with
  | nil => exact ⟨rfl, rfl⟩
  | cons switch switches ih =>
    obtain ⟨hoperands, hfold⟩ := ih (turnOn a switch)
    cases switch <;> exact ⟨hoperands, hfold⟩

/-- The words that lead from `a` to `b` divide into operands and others, and the others say the
same of the options, on top of whatever operands came before. -/
def Divides (a b : Arguments) (words : List Text) : Prop :=
  ∃ options more, options.Sublist words ∧ words.Perm (options ++ more) ∧
    b.operands = a.operands ++ more ∧
      ∀ ops, readOnto { a with operands := ops } options = .ok { b with operands := ops }

/-- Words in front that only turn options. -/
theorem Divides.append {a a' b : Arguments} {words : List Text} (h : Divides a' b words)
    (front : List Text) (hoperands : a'.operands = a.operands)
    (hread : ∀ ops options, readOnto { a with operands := ops } (front ++ options) =
      readOnto { a' with operands := ops } options) : Divides a b (front ++ words) := by
  obtain ⟨options, more, hsub, hperm, hmore, hrest⟩ := h
  refine ⟨front ++ options, more, hsub.append_left front, ?_, ?_, fun ops => ?_⟩
  · rw [List.append_assoc]
    exact hperm.append_left front
  · rw [hmore, hoperands]
  · rw [hread, hrest]

/-- **The operands may be left out.** -/
theorem divides_of_readOnto {a b : Arguments} {words : List Text} (h : readOnto a words = .ok b) :
    Divides a b words := by
  fun_induction readOnto a words with
  | case1 a =>
    cases h
    exact ⟨[], [], .refl _, .refl _, (List.append_nil _).symm, fun _ => rfl⟩
  | case2 a word words hword ih =>
    -- the operand is left out, which the words after it do not notice: `hread` is for any operands
    obtain ⟨options, more, hsub, hperm, hoperands, hread⟩ := ih h
    refine ⟨options, word :: more, hsub.cons _, ?_, ?_, hread⟩
    · exact (hperm.cons word).trans List.perm_middle.symm
    · rw [hoperands, List.append_assoc, List.singleton_append]
  | case3 a word words hword =>
    -- the end of the options is itself no operand and stays, with nothing after it
    cases h
    refine ⟨[word], words, ?_, .refl _, rfl, fun ops => ?_⟩
    · exact List.singleton_sublist.mpr (List.mem_cons_self ..)
    · rw [readOnto, hword]
      simp only [List.append_nil]
  | case4 a word words switches hword ih =>
    refine (ih h).append [word] (operands_turnOn switches a []).1 fun ops options => ?_
    rw [List.singleton_append, readOnto, hword]
    simp only [(operands_turnOn switches a ops).2]
  | case5 a word words switches value hword ih =>
    refine (ih h).append [word] (operands_turnOn switches a []).1 fun ops options => ?_
    rw [List.singleton_append, readOnto, hword]
    simp only [(operands_turnOn switches a ops).2]
  | case6 => cases h
  | case7 a word switches option hword value words ih =>
    refine (ih h).append [word, value] (operands_turnOn switches a []).1 fun ops options => ?_
    rw [List.cons_append, List.singleton_append, readOnto, hword]
    simp only [(operands_turnOn switches a ops).2]
  | case8 => cases h

end Arguments

namespace Command

/-! ## Accepted command lines -/

/-- Whether a command line asks for a notice, or for a run that it can have. -/
def Accepts (files : Text → FileEntry) (a : Arguments) : Prop :=
  a.notice.isSome = true ∨ ∃ i, check files a = .ok i

theorem Accepts.exists_check {files : Text → FileEntry} {a : Arguments} (h : Accepts files a)
    (hnotice : a.notice = none) : ∃ i, check files a = .ok i := by
  rcases h with hsome | hcheck
  · rw [hnotice] at hsome
    cases hsome
  · exact hcheck

/-- The input for a file that is there: the file, unless its name stands for the standard
input. -/
theorem readOperand_file {files : Text → FileEntry} {word : Text} {bytes : List UInt8}
    (hfile : files word = .file bytes) :
    readOperand files (some word) =
      .ok (if Path.normal word ∈ [['-'], standardName] then .standard
        else .file (Path.normal word) bytes) := by
  unfold readOperand
  split
  · rename_i heq
    cases heq
  · rename_i heq
    cases heq
    rfl
  · rename_i heq
    cases heq
    rw [hfile]
    simp only [List.mem_cons, List.not_mem_nil, or_false]
    split <;> rfl

/-- Without its operand a command line asks for the same run on the standard input. -/
theorem check_operand {files : Text → FileEntry} {a : Arguments} {i : Invocation} {word : Text}
    {input : Input} (h : check files a = .ok i) (hword : a.operands.head? = some word)
    (hinput : readOperand files (some word) = .ok input) :
    i.input = input ∧
      ∀ files', check files' { a with operands := [] } = .ok { i with input := .standard } := by
  unfold check at h
  rw [hword, hinput] at h
  cases hformat : readFormat a.format with
  | error fault =>
    rw [hformat] at h
    cases h
  | ok format =>
    rw [hformat] at h
    cases htail : a.operands.tail with
    | cons extra more =>
      rw [htail] at h
      cases h
    | nil =>
      rw [htail] at h
      cases h
      refine ⟨rfl, fun files' => ?_⟩
      unfold check
      rw [hformat]
      rfl

theorem run_of_notice {words : List Text} {a : Arguments} {asked : Notice}
    (hread : Arguments.read words = .ok a) (hnotice : a.notice = some asked)
    (environment : Environment) (files : Text → FileEntry) (stdin : List UInt8) :
    run words environment files stdin =
      { status := .success, stdout := say (notice asked) } := by
  unfold run prepare
  rw [hread]
  simp only [hnotice]

theorem prepare_of_check {words : List Text} {a : Arguments} {files : Text → FileEntry}
    {i : Invocation} (hread : Arguments.read words = .ok a) (hnotice : a.notice = none)
    (hcheck : check files a = .ok i) : prepare files words = .ok i := by
  unfold prepare
  rw [hread]
  simp only [hnotice, hcheck]
  rfl

/-! ## Named files -/

/-- **A named file is what is listed.**  The outcome does not depend on the standard input.  The
command line can be given without the file, and then code and standard output are the same if
the file stands on the standard input, and whatever files there are. -/
theorem run_namedFile {words : List Text} {a : Arguments} {files : Text → FileEntry}
    {word : Text} {bytes : List UInt8} (hread : Arguments.read words = .ok a)
    (haccepts : Accepts files a) (hword : a.operands.head? = some word)
    (hfile : files word = .file bytes) (hname : Path.normal word ∉ [['-'], standardName])
    (environment : Environment) :
    (∀ stdin stdin', run words environment files stdin = run words environment files stdin') ∧
      (∃ options, options.Sublist words ∧ words.Perm (options ++ a.operands) ∧
        Arguments.read options = .ok { a with operands := [] }) ∧
        ∀ options, Arguments.read options = .ok { a with operands := [] } → ∀ stdin files',
          let named := run words environment files stdin
          let piped := run options environment files' bytes
          piped.status.code = named.status.code ∧ piped.stdout = named.stdout := by
  have hoptions : ∃ options, options.Sublist words ∧ words.Perm (options ++ a.operands) ∧
      Arguments.read options = .ok { a with operands := [] } := by
    obtain ⟨options, more, hsub, hperm, hoperands, hrest⟩ := Arguments.divides_of_readOnto hread
    rw [List.nil_append] at hoperands
    exact ⟨options, hsub, hoperands ▸ hperm, hrest []⟩
  rcases Option.eq_none_or_eq_some a.notice with hnotice | ⟨asked, hnotice⟩
  case inr =>
    have hnamed := run_of_notice hread hnotice environment files
    refine ⟨fun stdin stdin' => (hnamed stdin).trans (hnamed stdin').symm, hoptions, ?_⟩
    intro options hrest stdin files' named piped
    have hpiped : piped = named :=
      (run_of_notice hrest hnotice environment files' bytes).trans (hnamed stdin).symm
    rw [hpiped]
    exact ⟨rfl, rfl⟩
  case inl =>
    obtain ⟨i, hcheck⟩ := haccepts.exists_check hnotice
    have hoperand := readOperand_file hfile
    rw [if_neg hname] at hoperand
    obtain ⟨hinput, hstandard⟩ := check_operand hcheck hword hoperand
    have hnamed : ∀ stdin, run words environment files stdin =
        runBytes (i.settings environment) (Path.normal word) bytes := by
      intro stdin
      rw [run_eq_runBytes (prepare_of_check hread hnotice hcheck), hinput]
      rfl
    refine ⟨fun stdin stdin' => (hnamed stdin).trans (hnamed stdin').symm, hoptions, ?_⟩
    intro options hrest stdin files' named piped
    have hpiped : piped = runBytes (i.settings environment) standardName bytes :=
      run_eq_runBytes (prepare_of_check hrest hnotice (hstandard files')) environment bytes
    have hreports := runBytes_reports (i.settings environment) (Path.normal word) bytes
    have hreports' := runBytes_reports (i.settings environment) standardName bytes
    have hsame : named = runBytes (i.settings environment) (Path.normal word) bytes := hnamed stdin
    rw [hpiped, hsame]
    exact ⟨hreports'.code_eq hreports, hreports'.stdout_eq hreports rfl rfl⟩

/-- The file `./f` before an option, and the standard input that would do in its place. -/
theorem run_namedFile_dot :
    let files : Text → FileEntry := fun word =>
      if word = "./f".toList then .file [0x30] else .missing
    let a : Arguments := { json := true, operands := ["./f".toList] }
    let words := ["./f".toList, "--json".toList]
    (Arguments.read words = .ok a ∧ Accepts files a ∧ a.operands.head? = some "./f".toList ∧
      files "./f".toList = .file [0x30] ∧ Path.normal "./f".toList ∉ [['-'], standardName]) ∧
        (∀ stdin, run words {} files stdin = run words {} files []) ∧
          (run ["--json".toList] {} files [0x30]).stdout = (run words {} files []).stdout := by
  intro files a words
  have hread : Arguments.read words = .ok a := rfl
  have haccepts : Accepts files a := .inr ⟨_, rfl⟩
  have hword : a.operands.head? = some "./f".toList := rfl
  have hfile : files "./f".toList = .file [0x30] := rfl
  have hname : Path.normal "./f".toList ∉ [['-'], standardName] := by decide
  obtain ⟨hsame, -, hpiped⟩ := run_namedFile hread haccepts hword hfile hname {}
  exact ⟨⟨hread, haccepts, hword, hfile, hname⟩, fun stdin => hsame stdin [],
    (hpiped ["--json".toList] rfl [] files).2⟩

/-- A file whose name stands for the standard input is never read: the run is that of the
options alone. -/
theorem run_standardName {words options : List Text} {a : Arguments} {files : Text → FileEntry}
    {word : Text} {bytes : List UInt8} (hread : Arguments.read words = .ok a)
    (haccepts : Accepts files a) (hword : a.operands.head? = some word)
    (hfile : files word = .file bytes) (hname : Path.normal word ∈ [['-'], standardName])
    (hoptions : Arguments.read options = .ok { a with operands := [] })
    (environment : Environment) (files' : Text → FileEntry) (stdin : List UInt8) :
    run words environment files stdin = run options environment files' stdin := by
  rcases Option.eq_none_or_eq_some a.notice with hnotice | ⟨asked, hnotice⟩
  case inr =>
    rw [run_of_notice hread hnotice, run_of_notice hoptions hnotice]
  case inl =>
    obtain ⟨i, hcheck⟩ := haccepts.exists_check hnotice
    have hoperand := readOperand_file hfile
    rw [if_pos hname] at hoperand
    obtain ⟨hinput, hstandard⟩ := check_operand hcheck hword hoperand
    rw [run_eq_runBytes (prepare_of_check hread hnotice hcheck),
      run_eq_runBytes (prepare_of_check hoptions hnotice (hstandard files')), hinput]
    rfl

/-- A file that has the name shown for the standard input.  It is there, but what is listed
depends on the standard input. -/
theorem run_namedFile_standardName :
    let files : Text → FileEntry := fun _ => .file [0x30]
    let a : Arguments := { operands := [standardName] }
    (Arguments.read [standardName] = .ok a ∧ Accepts files a ∧ standardName ≠ ['-']) ∧
      (run [standardName] {} files [0x30]).status.code = 0 ∧
        (run [standardName] {} files [0x30, 0x2E]).status.code = 1 := by
  intro files a
  have hprepare : prepare files [standardName] = .ok ⟨none, false, false, false, .standard⟩ := rfl
  have hbreak : Breaks .trailingPoint 2 (['0'] ++ ['.']) := .trailingPoint (.unsigned .zero) rfl
  have hzero := runBytes_reports {} standardName [0x30]
  have hpoint := runBytes_reports {} standardName [0x30, 0x2E]
  refine ⟨⟨rfl, .inr ⟨_, rfl⟩, by decide⟩, ?_, ?_⟩
  · rw [run_eq_runBytes hprepare]
    have hscan : Scan 0 ['0'] [⟨.integer, ['0'], 0⟩] [] := .literal (.integer (.unsigned .zero)) rfl
    exact (hzero.listed ['0'] _ (by decide) (lex_eq_ok_of_scan hscan)).1
  · rw [run_eq_runBytes hprepare]
    exact (hpoint.failed ['0', '.'] _ (by decide) (lex_eq_error_of_scan .done hbreak)).1

end Command
end Lexis
