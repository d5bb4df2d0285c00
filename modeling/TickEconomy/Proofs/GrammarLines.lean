import TickEconomy.Proofs.ExtractedGrammar

/-!
# The lines of a grammar

A grammar goes up to the first line behind its begin mark that begins, blanks aside, with the end
mark. To this there is one exception: the line directly behind the begin mark is taken into the
grammar whatever it begins with. The lines of a text are what its line ends part.

An end mark at the beginning of a text stands in its first line that is not blank
(`BeginsWithEndMark.cases`, `BeginsWithEndMark.exists_line`). So when no line end of a text is
followed, blanks aside, by the end mark (`HasNoFurtherEnd`), only its first line can begin with the
mark, and it does when the text does (`HasNoFurtherEnd.exists_line_iff`). This holds of what stands
before the line of the end mark, and it outlasts stripping, which neither brings a mark to the
beginning of a text nor takes one away (`beginsWithEndMark_strip_iff`). Hence a line of the grammar
begins with the end mark just when the line directly behind the begin mark does
(`extraction_stops_at_endMark`). There are such texts: an end mark may follow the begin mark at once
(`extraction_passes_endMark`).
-/

set_option autoImplicit false
set_option relaxedAutoImplicit false

namespace TickEconomy.Manual

/-! ### The lines of a text -/

section Lines

variable {text first line : List Char} {later : List (List Char)}

/-- A text is its only line, or its first line, a line end and a text that the further lines are
those of. -/
theorem splitOn_cases (h : text.splitOn '\n' = first :: later) :
    text = first ∧ later = [] ∨
      ∃ rest, text = first ++ '\n' :: rest ∧ rest.splitOn '\n' = later := by
  by_cases hfeed : '\n' ∈ text
  · obtain ⟨line, rest, rfl, hline⟩ := List.eq_append_cons_of_mem hfeed
    rw [List.splitOn_append_cons_self_of_not_mem hline] at h
    obtain ⟨rfl, rfl⟩ := List.cons.inj h
    exact Or.inr ⟨rest, rfl, rfl⟩
  · rw [List.splitOn_eq_singleton hfeed] at h
    obtain ⟨rfl, rfl⟩ := List.cons.inj h
    exact Or.inl ⟨rfl, rfl⟩

/-- The first line of a text stands at its beginning. -/
theorem exists_eq_append_of_splitOn (h : text.splitOn '\n' = first :: later) :
    ∃ rest, text = first ++ rest := by
  obtain ⟨rfl, -⟩ | ⟨rest, rfl, -⟩ := splitOn_cases h
  · exact ⟨[], (List.append_nil _).symm⟩
  · exact ⟨'\n' :: rest, rfl⟩

/-- Every further line of a text stands behind a line end. -/
theorem exists_eq_of_mem_splitOn (h : text.splitOn '\n' = first :: later) (hline : line ∈ later) :
    ∃ earlier behind, text = earlier ++ '\n' :: (line ++ behind) := by
  induction later generalizing text first with
  | nil => cases hline
  | cons second others ih =>
    obtain ⟨-, hnone⟩ | ⟨rest, rfl, hrest⟩ := splitOn_cases h
    · cases hnone
    rcases List.mem_cons.1 hline with rfl | hothers
    · obtain ⟨behind, rfl⟩ := exists_eq_append_of_splitOn hrest
      exact ⟨first, behind, rfl⟩
    · obtain ⟨earlier, behind, rfl⟩ := ih hrest hothers
      exact ⟨first ++ '\n' :: earlier, behind, by rw [List.append_assoc, List.cons_append]⟩

end Lines

/-! ### Lines that begin with the end mark -/

instance (text : List Char) : Decidable (BeginsWithEndMark text) :=
  decidable_of_iff _ beginsWithEndMark_iff.symm

section EndMark

variable {text front : List Char}

/-- Whether a text begins with the end mark does not depend on the blanks around it. -/
theorem beginsWithEndMark_strip_iff :
    BeginsWithEndMark (Text.strip text) ↔ BeginsWithEndMark text := by
  have hstart : Text.stripStart (Text.strip text) = Text.strip text :=
    Text.stripStart_eq_self fun _ ↦ Text.not_blank_of_mem_head?_strip
  rw [beginsWithEndMark_iff, beginsWithEndMark_iff, hstart, Text.strip]
  constructor
  · exact fun h ↦ h.trans (Text.stripEnd_isPrefix _)
  · rintro ⟨after, hafter⟩
    have hlast : ∀ character ∈ grammarEndMark.getLast?, Text.isBlank character = false :=
      fun character hcharacter ↦ by
        obtain rfl : 'D' = character := Option.some.inj hcharacter
        decide
    rw [← hafter, Text.stripEnd_append hlast]
    exact List.prefix_append _ _

/-- A text of blanks does not begin with the end mark. -/
theorem not_beginsWithEndMark_of_blanks (h : ∀ blank ∈ text, Text.isBlank blank = true) :
    ¬ BeginsWithEndMark text := by
  rintro ⟨blanks, after, rfl, -⟩
  have hletter : 'D' ∈ blanks ++ grammarEndMark ++ after :=
    List.mem_append_left _ (List.mem_append_right _ (by decide))
  exact absurd (h 'D' hletter) (by decide)

/-- An end mark at the beginning of a text stands before a line end, or only blanks do and it
stands behind. -/
theorem BeginsWithEndMark.cases (h : BeginsWithEndMark (front ++ '\n' :: text)) :
    BeginsWithEndMark front ∨
      (∀ blank ∈ front ++ ['\n'], Text.isBlank blank = true) ∧ BeginsWithEndMark text := by
  by_cases hfront : ∀ blank ∈ front, Text.isBlank blank = true
  · have hblanks : ∀ blank ∈ front ++ ['\n'], Text.isBlank blank = true :=
      List.forall_mem_append.2 ⟨hfront, List.forall_mem_singleton.2 (by decide)⟩
    rw [beginsWithEndMark_iff, List.append_cons, Text.stripStart,
      List.dropWhile_append_of_pos hblanks, ← Text.stripStart] at h
    exact Or.inr ⟨hblanks, beginsWithEndMark_iff.2 h⟩
  · exact Or.inl (h.of_append hfront)

/-- The end mark at the beginning of a text is in one of its lines. What stands above that line, a
line end before it included, is blank. -/
theorem BeginsWithEndMark.exists_line (h : BeginsWithEndMark text) :
    ∃ blanks line behind, (∀ blank ∈ blanks, Text.isBlank blank = true) ∧
      BeginsWithEndMark line ∧
      ∀ front, (front ++ '\n' :: text).splitOn '\n' =
        (front ++ blanks).splitOn '\n' ++ line :: behind := by
  -- By induction on the lines: a first line without the mark is blank and the mark comes behind it.
  generalize hlines : text.splitOn '\n' = lines
  induction lines generalizing text with
  | nil => exact absurd hlines (List.splitOn_ne_nil '\n' text)
  | cons first later ih =>
    by_cases hfirst : BeginsWithEndMark first
    · refine ⟨[], first, later, by simp, hfirst, fun front ↦ ?_⟩
      rw [List.splitOn_append_cons_self, hlines, List.append_nil]
    · obtain ⟨rfl, -⟩ | ⟨rest, rfl, hrest⟩ := splitOn_cases hlines
      · exact absurd h hfirst
      obtain ⟨hfeed, hmark⟩ := h.cases.resolve_left hfirst
      obtain ⟨blanks, line, behind, hblanks, hline, hsplit⟩ := ih hmark hrest
      refine ⟨'\n' :: first ++ blanks, line, behind, ?_, hline, fun front ↦ ?_⟩
      · simp only [List.forall_mem_append, List.forall_mem_cons] at hfeed ⊢
        exact ⟨⟨by decide, hfeed.1⟩, hblanks⟩
      · simpa using hsplit (front ++ '\n' :: first)

end EndMark

/-! ### Texts without a further end -/

namespace HasNoFurtherEnd

variable {text first line blanks : List Char} {later : List (List Char)}

/-- Blanks behind a text bring no further line with the end mark. -/
theorem append_blanks (h : HasNoFurtherEnd text)
    (hblanks : ∀ blank ∈ blanks, Text.isBlank blank = true) :
    HasNoFurtherEnd (text ++ blanks) := by
  intro earlier later htext hlater
  -- Behind a line end among the blanks there are only blanks. Behind one of the text itself the
  -- blanks are stripped off.
  rcases List.append_eq_append_iff.1 htext with ⟨more, -, rfl⟩ | ⟨more, rfl, hmore⟩
  · refine not_beginsWithEndMark_of_blanks (fun blank hblank ↦ hblanks blank ?_) hlater
    exact List.mem_append_right _ (List.mem_cons_of_mem _ hblank)
  rcases List.cons_eq_append_iff.1 hmore with ⟨rfl, rfl⟩ | ⟨rest, rfl, rfl⟩
  · exact not_beginsWithEndMark_of_blanks
      (fun blank hblank ↦ hblanks blank (List.mem_cons_of_mem _ hblank)) hlater
  · refine h earlier rest rfl ?_
    rwa [← beginsWithEndMark_strip_iff, Text.strip_append_blanks hblanks,
      beginsWithEndMark_strip_iff] at hlater

/-- No line but the first begins with the end mark. -/
theorem not_beginsWithEndMark (h : HasNoFurtherEnd text)
    (hlines : text.splitOn '\n' = first :: later) (hline : line ∈ later) :
    ¬ BeginsWithEndMark line := by
  obtain ⟨earlier, behind, htext⟩ := exists_eq_of_mem_splitOn hlines hline
  exact fun hbegins ↦ h earlier _ htext (hbegins.append behind)

/-- The first line begins with the end mark just when the text does. -/
theorem first_iff (h : HasNoFurtherEnd text) (hlines : text.splitOn '\n' = first :: later) :
    BeginsWithEndMark first ↔ BeginsWithEndMark text := by
  obtain ⟨rfl, -⟩ | ⟨rest, rfl, -⟩ := splitOn_cases hlines
  · rfl
  · exact ⟨fun hfirst ↦ hfirst.append _,
      fun htext ↦ htext.cases.resolve_right fun hrest ↦ h first rest rfl hrest.2⟩

/-- Some line begins with the end mark just when the text does. -/
theorem exists_line_iff (h : HasNoFurtherEnd text) :
    (∃ line ∈ text.splitOn '\n', BeginsWithEndMark line) ↔ BeginsWithEndMark text := by
  obtain ⟨first, later, hlines⟩ := List.exists_cons_of_ne_nil (List.splitOn_ne_nil '\n' text)
  rw [hlines, List.exists_mem_cons_iff, ← h.first_iff hlines, or_iff_left]
  rintro ⟨line, hline, hbegins⟩
  exact h.not_beginsWithEndMark hlines hline hbegins

end HasNoFurtherEnd

/-! ### Grammars -/

section Grammar

variable {text grammar : List Char}

/-- A stripped text with a line end behind it has a line that begins with the end mark just when the
text begins with it. -/
theorem HasNoFurtherEnd.exists_line_concat_iff (h : HasNoFurtherEnd text) :
    (∃ line ∈ (Text.strip text ++ ['\n']).splitOn '\n', BeginsWithEndMark line) ↔
      BeginsWithEndMark text := by
  have hlast : ¬ BeginsWithEndMark [] := by decide
  rw [List.splitOn_append_cons_self, List.splitOn_nil]
  simp only [List.mem_append, List.mem_singleton, or_and_right, exists_or, exists_eq_left, hlast,
    or_false]
  rw [h.strip.exists_line_iff, beginsWithEndMark_strip_iff]

/-- The grammar is made of the line directly behind the first begin mark and of those after it up to
the first that begins, blanks aside, with the end mark. None of its lines begins with the end mark
just when the line directly behind the begin mark does not. -/
theorem extraction_stops_at_endMark (h : extractGrammar? text = some grammar) :
    ∃ before rest first passed ending behind,
      IsFirstPlace grammarBeginMark text before rest ∧
      rest.splitOn '\n' = first :: (passed ++ ending :: behind) ∧
      (∀ line ∈ passed, ¬ BeginsWithEndMark line) ∧ BeginsWithEndMark ending ∧
      grammar = Text.strip (['\n'].intercalate (first :: passed)) ++ ['\n'] ∧
      ((∀ line ∈ grammar.splitOn '\n', ¬ BeginsWithEndMark line) ↔ ¬ BeginsWithEndMark first) := by
  obtain ⟨before, rest, raw, after, hbegin, hend, rfl⟩ := extractGrammar?_eq_some_iff.1 h
  obtain ⟨blanks, ending, behind, hblanks, hending, hsplit⟩ := hend.begins.exists_line
  obtain ⟨first, passed, hlines⟩ :=
    List.exists_cons_of_ne_nil (List.splitOn_ne_nil '\n' (raw ++ blanks))
  have hfree : HasNoFurtherEnd (raw ++ blanks) := hend.hasNoFurtherEnd.append_blanks hblanks
  have hstrip : Text.strip (raw ++ blanks) = Text.strip raw :=
    Text.strip_append_blanks hblanks raw
  refine ⟨before, rest, first, passed, ending, behind, hbegin, ?_,
    fun line ↦ hfree.not_beginsWithEndMark hlines, hending, ?_, ?_⟩
  · rw [hend.text_eq, hsplit, hlines, List.cons_append]
  · rw [← hlines, List.intercalate_splitOn, hstrip]
  · rw [← hstrip, hfree.first_iff hlines, ← hfree.exists_line_concat_iff]
    simp only [not_exists, not_and]

/-- A grammar ends before the first of two lines with the end mark, and the blank line above it adds
nothing. -/
theorem extraction_stops_at_endMark_of_rule :
    extractGrammar? "DSL_GRAMMAR_BEGIN\n rule\n \n DSL_GRAMMAR_END\nx\nDSL_GRAMMAR_END".toList =
        some "rule\n".toList ∧
      ∀ line ∈ "rule\n".toList.splitOn '\n', ¬ BeginsWithEndMark line := by
  have hgrammar : extractGrammar?
      "DSL_GRAMMAR_BEGIN\n rule\n \n DSL_GRAMMAR_END\nx\nDSL_GRAMMAR_END".toList =
        some "rule\n".toList := by decide +kernel
  obtain ⟨before, rest, first, _, _, _, hbegin, hlines, -, -, -, hiff⟩ :=
    extraction_stops_at_endMark hgrammar
  have hcut : cutAround? grammarBeginMark
      "DSL_GRAMMAR_BEGIN\n rule\n \n DSL_GRAMMAR_END\nx\nDSL_GRAMMAR_END".toList =
        some ([], " rule\n \n DSL_GRAMMAR_END\nx\nDSL_GRAMMAR_END".toList) := by decide +kernel
  obtain ⟨-, rfl⟩ :=
    Prod.mk.inj (Option.some.inj (hcut.symm.trans (cutAround?_eq_some_iff.2 hbegin)))
  have hfirst : first = " rule".toList := by
    have hhead := congrArg List.head? hlines
    exact (Option.some.inj hhead).symm
  refine ⟨hgrammar, hiff.2 ?_⟩
  rw [hfirst]
  decide

/-- It is not so that no line of a grammar begins with the end mark: directly behind the begin mark
an end mark is passed over. -/
theorem extraction_passes_endMark :
    ¬ ∀ text grammar, extractGrammar? text = some grammar →
      ∀ line ∈ grammar.splitOn '\n', ¬ BeginsWithEndMark line := by
  intro hstops
  have hgrammar : extractGrammar?
      "DSL_GRAMMAR_BEGIN\nDSL_GRAMMAR_END\nx = 1\nDSL_GRAMMAR_END\n".toList =
        some "DSL_GRAMMAR_END\nx = 1\n".toList := by decide +kernel
  exact hstops _ _ hgrammar "DSL_GRAMMAR_END".toList (by decide +kernel) (by decide)

end Grammar

end TickEconomy.Manual
