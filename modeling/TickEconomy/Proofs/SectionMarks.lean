import TickEconomy.Manual
import TickEconomy.Proofs.MarkSearch
import TickEconomy.Proofs.WrittenWords

/-!
# The section of a manual

Which part of a manual a grammar replaces is told without the search: it begins with the first begin
mark and ends with the first end mark behind that (`HasSection`). A manual has such a section as
soon as an end mark stands anywhere behind a begin mark (`exists_hasSection`), and otherwise it
takes no grammar (`injectGrammar?_eq_none_iff`, `exists_hasSection_of_injectGrammar?`).

A grammar may hold anything, the begin mark included. As long as it does not hold the end mark, the
section that was put in is found again, and nothing else of the manual is
(`HasSection.of_grammarSection`): no begin mark comes to stand before it, not even in part, and in
it line ends part the grammar from the end mark. So of the grammars that are put in one after the
other only the last is seen (`injectGrammar?_injectGrammar?`).
-/

set_option autoImplicit false
set_option relaxedAutoImplicit false

namespace TickEconomy.Manual

/-! ### Manuals with a section -/

/-- The text before the first begin mark of the manual, what stands between it and the first end
mark behind it, and the text behind that. -/
structure HasSection (manual before inside after : List Char) : Prop where
  begins : IsFirstPlace sectionBeginMark manual before (inside ++ sectionEndMark ++ after)
  ends : IsFirstPlace sectionEndMark (inside ++ sectionEndMark ++ after) inside after

/-- What stands between the marks of the section with a grammar. -/
def sectionInside (grammar : List Char) : List Char :=
  "\n\n```ebnf\n".toList ++ Text.stripEnd grammar ++ "\n```\n\n".toList

theorem grammarSection_eq (grammar : List Char) :
    grammarSection grammar = sectionBeginMark ++ (sectionInside grammar ++ sectionEndMark) := by
  unfold grammarSection sectionInside
  simp only [List.append_assoc]

section Manual

variable {manual before inside after grammar updated : List Char}

/-- A manual has a section when an end mark stands somewhere behind a begin mark. -/
theorem exists_hasSection (h : manual =
    before ++ sectionBeginMark ++ inside ++ sectionEndMark ++ after) :
    ∃ before inside after, HasSection manual before inside after := by
  have hbegins : cutAround? sectionBeginMark manual ≠ none := by
    rw [Ne, cutAround?_eq_none_iff, not_not, h, List.append_assoc, List.append_assoc]
    exact List.infix_append _ _ _
  obtain ⟨⟨first, rest⟩, hcut⟩ := Option.ne_none_iff_exists'.1 hbegins
  have hfirst := cutAround?_eq_some_iff.1 hcut
  -- The end mark is behind the first begin mark too.
  have hends : cutAround? sectionEndMark rest ≠ none := by
    have hplace : before ++ sectionBeginMark ++ (inside ++ sectionEndMark ++ after) = manual := by
      rw [h]
      simp only [List.append_assoc]
    rw [Ne, cutAround?_eq_none_iff, not_not]
    exact (List.infix_append _ _ _).trans (hfirst.isSuffix hplace).isInfix
  obtain ⟨⟨between, behind⟩, hcutEnd⟩ := Option.ne_none_iff_exists'.1 hends
  have hsecond := cutAround?_eq_some_iff.1 hcutEnd
  obtain rfl := hsecond.text_eq
  exact ⟨first, between, behind, hfirst, hsecond⟩

/-- The section of a manual is replaced. -/
theorem HasSection.injectGrammar?_eq_some (h : HasSection manual before inside after)
    (grammar : List Char) :
    injectGrammar? manual grammar = some (before ++ grammarSection grammar ++ after) := by
  rw [injectGrammar?, cutAround?_eq_some_iff.2 h.begins]
  simp only [cutAround?_eq_some_iff.2 h.ends, Option.map_some]

/-- A manual without a section takes no grammar. -/
theorem injectGrammar?_eq_none_iff : injectGrammar? manual grammar = none ↔
    ¬ ∃ before inside after,
      manual = before ++ sectionBeginMark ++ inside ++ sectionEndMark ++ after := by
  constructor
  · rintro hnone ⟨before, inside, after, hmanual⟩
    obtain ⟨_, _, _, hsection⟩ := exists_hasSection hmanual
    rw [hsection.injectGrammar?_eq_some] at hnone
    cases hnone
  · intro hmarks
    rw [injectGrammar?]
    split
    · rfl
    · next before rest hbegins =>
      refine Option.map_eq_none_iff.2 (cutAround?_eq_none_iff.2 ?_)
      rintro ⟨inside, after, rfl⟩
      refine hmarks ⟨before, inside, after, ?_⟩
      rw [← (cutAround?_eq_some_iff.1 hbegins).text_eq]
      simp only [List.append_assoc]

/-- A manual that takes a grammar has a section, which is replaced. -/
theorem exists_hasSection_of_injectGrammar? (h : injectGrammar? manual grammar = some updated) :
    ∃ before inside after, HasSection manual before inside after ∧
      updated = before ++ grammarSection grammar ++ after := by
  have hmarks : ∃ before inside after,
      manual = before ++ sectionBeginMark ++ inside ++ sectionEndMark ++ after := by
    by_contra hnone
    rw [injectGrammar?_eq_none_iff.2 hnone] at h
    cases h
  obtain ⟨_, _, _, hmanual⟩ := hmarks
  obtain ⟨before, inside, after, hsection⟩ := exists_hasSection hmanual
  rw [hsection.injectGrammar?_eq_some] at h
  exact ⟨before, inside, after, hsection, (Option.some.inj h).symm⟩

/-- A manual that takes a grammar holds the end mark. -/
theorem sectionEndMark_infix (h : injectGrammar? manual grammar = some updated) :
    sectionEndMark <:+: manual := by
  obtain ⟨before, inside, after, hsection, -⟩ := exists_hasSection_of_injectGrammar? h
  rw [← hsection.begins.text_eq]
  exact List.infix_append_of_infix_right (List.infix_append inside sectionEndMark after)

/-- The section with a grammar that does not hold the end mark ends with its first end mark: the
line ends around the grammar part it from the mark, which has none. -/
theorem isFirstPlace_sectionEndMark (hgrammar : ¬ sectionEndMark <:+: grammar)
    (after : List Char) :
    IsFirstPlace sectionEndMark (sectionInside grammar ++ sectionEndMark ++ after)
      (sectionInside grammar) after := by
  have hparting : '\n' ∉ sectionEndMark := by decide
  have hopening : "\n\n```ebnf\n".toList = "\n\n```ebnf".toList ++ ['\n'] := by decide
  have hclosing : "\n```\n\n".toList = '\n' :: "```\n\n".toList := by decide
  have hsplit : sectionInside grammar ++ sectionEndMark.dropLast =
      "\n\n```ebnf".toList ++ '\n' :: (Text.stripEnd grammar ++
        '\n' :: ("```\n\n".toList ++ sectionEndMark.dropLast)) := by
    unfold sectionInside
    simp only [hopening, hclosing, List.append_assoc, List.cons_append, List.nil_append]
  rw [isFirstPlace_iff (by decide), hsplit, infix_append_cons_iff hparting,
    infix_append_cons_iff hparting, not_or, not_or]
  exact ⟨by decide +kernel,
    fun hinside ↦ hgrammar (hinside.trans (Text.stripEnd_isPrefix grammar).isInfix),
    by decide +kernel⟩

/-- A manual in which a grammar without the end mark is put has its section where it was. -/
theorem HasSection.of_grammarSection (h : HasSection manual before inside after)
    (hgrammar : ¬ sectionEndMark <:+: grammar) :
    HasSection (before ++ grammarSection grammar ++ after) before (sectionInside grammar)
      after where
  begins := by
    have hmark : sectionBeginMark ≠ [] := by decide
    have hfirst := h.begins
    rw [← hfirst.text_eq, isFirstPlace_iff hmark] at hfirst
    have hplace : IsFirstPlace sectionBeginMark _ before
        (sectionInside grammar ++ sectionEndMark ++ after) := (isFirstPlace_iff hmark).2 hfirst
    rw [grammarSection_eq]
    simpa only [List.append_assoc] using hplace
  ends := isFirstPlace_sectionEndMark hgrammar after

/-- A grammar without the end mark leaves no trace when another one is put into the manual. -/
theorem injectGrammar?_injectGrammar? (hgrammar : ¬ sectionEndMark <:+: grammar)
    (h : injectGrammar? manual grammar = some updated) (other : List Char) :
    injectGrammar? updated other = injectGrammar? manual other := by
  obtain ⟨before, inside, after, hsection, rfl⟩ := exists_hasSection_of_injectGrammar? h
  rw [(hsection.of_grammarSection hgrammar).injectGrammar?_eq_some,
    hsection.injectGrammar?_eq_some]

end Manual

end TickEconomy.Manual
