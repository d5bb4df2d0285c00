import TickEconomy.Proofs.SectionMarks
import TickEconomy.Proofs.WrittenFiles

/-!
# Updating a manual again

The program that puts a grammar into the manual may be run again and again. A run that succeeds has
written the manual with the grammar of the source in it (`updateRun_eq`); any other run has written
nothing (`files_updateRun_eq_nil`). What was written is read back as it was: the two texts were read
with every line end as a line feed, and the section adds no carriage return
(`not_mem_of_injectGrammar?`).

The manual holds the end mark. Where the grammar does not, the two are different files, so a second
run reads the same grammar and the updated manual, and writes what is there already
(`updatedDirectory_again`). A grammar with the end mark would close its own section too early, and
what is left of it would stay behind the section at every further run. `last_grammar_stands` says
both of the texts and of the files that the last grammar replaces the one before and nothing else.
-/

set_option autoImplicit false
set_option relaxedAutoImplicit false

namespace TickEconomy.Manual

/-! ### Carriage returns -/

theorem not_mem_grammarSection {grammar : List Char} (h : '\r' ∉ grammar) :
    '\r' ∉ grammarSection grammar := by
  have hbegin : '\r' ∉ sectionBeginMark := by decide
  have hopening : '\r' ∉ "\n\n```ebnf\n".toList := by decide
  have hclosing : '\r' ∉ "\n```\n\n".toList := by decide
  have hend : '\r' ∉ sectionEndMark := by decide
  unfold grammarSection
  simp only [List.mem_append, not_or]
  exact ⟨⟨⟨⟨hbegin, hopening⟩, fun hmem ↦ h ((Text.stripEnd_isPrefix grammar).subset hmem)⟩,
    hclosing⟩, hend⟩

theorem not_mem_of_injectGrammar? {manual grammar updated : List Char} (hmanual : '\r' ∉ manual)
    (hgrammar : '\r' ∉ grammar) (h : injectGrammar? manual grammar = some updated) :
    '\r' ∉ updated := by
  obtain ⟨before, inside, after, hsection, rfl⟩ := exists_hasSection_of_injectGrammar? h
  rw [← hsection.begins.text_eq] at hmanual
  simp only [List.mem_append, not_or] at hmanual ⊢
  exact ⟨⟨hmanual.1.1, not_mem_grammarSection hgrammar⟩, hmanual.2.2⟩

/-! ### Runs -/

section Runs

variable {contents : FileContents} {paths : GrammarPaths}

/-- A run that does not succeed writes nothing. -/
theorem files_updateRun_eq_nil (h : (updateRun contents paths).ending ≠ .exit 0) :
    (updateRun contents paths).files = [] := by
  unfold updateRun at h ⊢
  split
  · rfl
  · split
    · rfl
    · split
      · rfl
      · next hgrammar _ _ hmanual _ _ hupdated =>
        exact absurd (by simp only [hgrammar, hmanual, hupdated]) h

/-- A run that succeeds has read both files. -/
theorem exists_injectGrammar?_of_updateRun (h : (updateRun contents paths).ending = .exit 0) :
    ∃ grammar manual updated, contents paths.source = some grammar ∧
      contents paths.target = some manual ∧
      injectGrammar? (textOf manual) (textOf grammar) = some updated := by
  unfold updateRun at h
  split at h
  · cases h
  · next grammar hgrammar =>
    split at h
    · cases h
    · next manual hmanual =>
      split at h
      · cases h
      · next updated hupdated => exact ⟨grammar, manual, updated, hgrammar, hmanual, hupdated⟩

/-- A run whose manual takes the grammar writes the manual with it. -/
theorem updateRun_eq {grammar manual : ByteArray} {updated : List Char}
    (hgrammar : contents paths.source = some grammar)
    (hmanual : contents paths.target = some manual)
    (h : injectGrammar? (textOf manual) (textOf grammar) = some updated) :
    updateRun contents paths =
      { ending := .exit 0
        output := s!"[update_docs] Updated {paths.target}\n"
        files := [(paths.target, String.ofList updated)] } := by
  simp only [updateRun, hgrammar, hmanual, h]

end Runs

/-! ### Updated directories -/

/-- The directory after the grammar of the source is put into the manual. -/
def updatedDirectory (directory : Directory) (paths : GrammarPaths) : Directory :=
  directory.afterRun (updateRun directory.contents paths)

section Directory

variable {directory : Directory} {paths : GrammarPaths}

/-- A run that does not succeed leaves the directory as it is. -/
theorem updatedDirectory_of_ending_ne
    (h : (updateRun directory.contents paths).ending ≠ .exit 0) :
    updatedDirectory directory paths = directory := by
  rw [updatedDirectory, Directory.afterRun, files_updateRun_eq_nil h]
  rfl

theorem updatedDirectory_eq_write {grammar manual : ByteArray} {updated : List Char}
    (hgrammar : directory.contents paths.source = some grammar)
    (hmanual : directory.contents paths.target = some manual)
    (h : injectGrammar? (textOf manual) (textOf grammar) = some updated) :
    updatedDirectory directory paths =
      directory.write paths.target (String.ofList updated).toUTF8 := by
  rw [updatedDirectory, updateRun_eq hgrammar hmanual h]
  rfl

/-- Once a grammar without the end mark is in the manual, another run succeeds and leaves the
directory as it is. -/
theorem updatedDirectory_again (h : (updateRun directory.contents paths).ending = .exit 0)
    (hmark : ∀ grammar ∈ directory.contents paths.source, ¬ sectionEndMark <:+: textOf grammar) :
    (updateRun (updatedDirectory directory paths).contents paths).ending = .exit 0 ∧
      updatedDirectory (updatedDirectory directory paths) paths =
        updatedDirectory directory paths := by
  obtain ⟨grammar, manual, updated, hgrammar, hmanual, hupdated⟩ :=
    exists_injectGrammar?_of_updateRun h
  have hreached := updatedDirectory_eq_write hgrammar hmanual hupdated
  rcases Directory.write_eq_self_or_contents_write (Option.isSome_of_eq_some hmanual)
    (String.ofList updated).toUTF8 with hsame | hcontents
  · rw [hreached.trans hsame]
    exact ⟨h, hreached.trans hsame⟩
  rw [← hreached] at hcontents
  -- The manual holds the end mark, so it is not the file that holds the grammar.
  have hplaces : directory.locate? paths.source ≠ directory.locate? paths.target := by
    intro hplaces
    have hfile : grammar = manual := by
      rw [Directory.contents, hplaces, ← Directory.contents, hmanual] at hgrammar
      exact (Option.some.inj hgrammar).symm
    refine hmark grammar hgrammar ?_
    rw [hfile]
    exact sectionEndMark_infix hupdated
  have hsource : (updatedDirectory directory paths).contents paths.source = some grammar := by
    rw [hcontents, if_neg hplaces, hgrammar]
  have htarget : (updatedDirectory directory paths).contents paths.target =
      some (String.ofList updated).toUTF8 := by
    rw [hcontents, if_pos rfl]
  have hread : textOf (String.ofList updated).toUTF8 = updated :=
    textOf_toUTF8 (not_mem_of_injectGrammar? (Text.not_mem_unifyLineEnds _)
      (Text.not_mem_unifyLineEnds _) hupdated)
  have hagain : injectGrammar? (textOf (String.ofList updated).toUTF8) (textOf grammar) =
      some updated := by
    rw [hread, injectGrammar?_injectGrammar? (hmark grammar hgrammar) hupdated, hupdated]
  refine ⟨?_, ?_⟩
  · rw [updateRun_eq hsource htarget hagain]
  · rw [updatedDirectory_eq_write hsource htarget hagain, Directory.write_eq_self htarget]

end Directory

/-! ### The last grammar stands -/

/-- Putting a grammar into a manual replaces the grammar that was put in before and nothing else. A
manual takes a grammar unless there is no begin mark with an end mark behind it; then what stands
before the first begin mark and behind the first end mark after it stays as it is, and as long as
the grammar does not hold the end mark, another one put in later gives what it gives in the manual
as it was. So a second run of the program leaves all files as the first left them, and a run that
does not succeed leaves them as they were. -/
theorem last_grammar_stands :
    (∀ manual first second : List Char,
      (injectGrammar? manual first = none ↔
        ¬ ∃ before inside after,
          manual = before ++ sectionBeginMark ++ inside ++ sectionEndMark ++ after) ∧
      ∀ updated, injectGrammar? manual first = some updated →
        (∃ before inside after, HasSection manual before inside after ∧
          updated = before ++ (sectionBeginMark ++ "\n\n```ebnf\n".toList ++
            Text.stripEnd first ++ "\n```\n\n".toList ++ sectionEndMark) ++ after) ∧
        (¬ sectionEndMark <:+: first →
          injectGrammar? updated second = injectGrammar? manual second)) ∧
    ∀ (directory : Directory) (paths : GrammarPaths),
      ((updateRun directory.contents paths).ending ≠ .exit 0 →
        updatedDirectory directory paths = directory) ∧
      ((updateRun directory.contents paths).ending = .exit 0 →
        (∀ grammar ∈ directory.contents paths.source, ¬ sectionEndMark <:+: textOf grammar) →
        (updateRun (updatedDirectory directory paths).contents paths).ending = .exit 0 ∧
        updatedDirectory (updatedDirectory directory paths) paths =
          updatedDirectory directory paths) := by
  refine ⟨fun manual first second ↦ ⟨injectGrammar?_eq_none_iff, fun updated hupdated ↦ ?_⟩,
    fun directory paths ↦ ⟨updatedDirectory_of_ending_ne, updatedDirectory_again⟩⟩
  exact ⟨exists_hasSection_of_injectGrammar? hupdated,
    fun hmark ↦ injectGrammar?_injectGrammar? hmark hupdated second⟩

/-- A path that is a plain name stands for a file in the directory itself. -/
theorem locate?_eq_singleton (directory : Directory) {name : String}
    (habsolute : Path.isAbsolute name = false) (hparts : Path.parts name = [name])
    (hname : name ∉ ["", ".", ".."]) : directory.locate? name = some [name] := by
  simp only [List.mem_cons, List.not_mem_nil, or_false, not_or] at hname
  obtain ⟨hempty, hpoint, hpoints⟩ := hname
  simp [Directory.locate?, Directory.follow?, Directory.stepInto?, Path.lastPart, habsolute, hparts,
    hempty, hpoint, hpoints]

/-- A directory with a grammar and a manual. -/
def twoFiles (grammar manual : ByteArray) : Directory :=
  { files := ⟨[(["g"], grammar), (["m"], manual)]⟩ }

theorem contents_twoFiles (grammar manual : ByteArray) :
    (twoFiles grammar manual).contents "g" = some grammar ∧
      (twoFiles grammar manual).contents "m" = some manual := by
  -- Neither character is a slash, and nothing follows it.
  have hparts : Path.parts "g" = ["g"] ∧ Path.parts "m" = ["m"] := by
    constructor <;>
    · rw [Path.parts, String.splitOn, if_neg (by decide), String.splitOnAux, if_neg (by decide),
        if_neg (by decide), String.splitOnAux, if_pos (by decide)]
      decide
  have hgrammar := locate?_eq_singleton (twoFiles grammar manual) rfl hparts.1 (by decide)
  have hmanual := locate?_eq_singleton (twoFiles grammar manual) rfl hparts.2 (by decide)
  rw [Directory.contents, Directory.contents, hgrammar, hmanual]
  exact ⟨rfl, rfl⟩

/-- A grammar is put into a manual with an old one, and put in again. -/
theorem last_grammar_stands_in_two_files :
    let manual := "Rules\n".toList ++ sectionBeginMark ++ "old".toList ++ sectionEndMark
    let grammar := "rule = word\n".toList
    let updated := "Rules\n".toList ++ grammarSection grammar
    let directory := twoFiles (String.ofList grammar).toUTF8 (String.ofList manual).toUTF8
    let paths : GrammarPaths := { source := "g", target := "m" }
    injectGrammar? manual grammar = some updated ∧ ¬ sectionEndMark <:+: grammar ∧
      (∀ second, injectGrammar? updated second = injectGrammar? manual second) ∧
      updatedDirectory (updatedDirectory directory paths) paths =
        updatedDirectory directory paths := by
  intro manual grammar updated directory paths
  have hupdated : injectGrammar? manual grammar = some updated := by decide +kernel
  have hmark : ¬ sectionEndMark <:+: grammar := by decide +kernel
  have hgrammar : textOf (String.ofList grammar).toUTF8 = grammar :=
    textOf_toUTF8 (by decide +kernel)
  have hmanual : textOf (String.ofList manual).toUTF8 = manual :=
    textOf_toUTF8 (by decide +kernel)
  obtain ⟨hsource, htarget⟩ :
      directory.contents paths.source = _ ∧ directory.contents paths.target = _ :=
    contents_twoFiles _ _
  have hending : (updateRun directory.contents paths).ending = .exit 0 := by
    rw [updateRun_eq hsource htarget (by rw [hgrammar, hmanual, hupdated])]
  refine ⟨hupdated, hmark, fun second ↦ ?_, ?_⟩
  · exact ((last_grammar_stands.1 manual grammar second).2 updated hupdated).2 hmark
  · refine ((last_grammar_stands.2 directory paths).2 hending fun bytes hbytes ↦ ?_).2
    rw [hsource] at hbytes
    obtain rfl := Option.some.inj hbytes
    rwa [hgrammar]

end TickEconomy.Manual
