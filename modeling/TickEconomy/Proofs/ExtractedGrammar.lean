import TickEconomy.Manual
import TickEconomy.Proofs.LineWords
import TickEconomy.Proofs.MarkSearch

/-!
# The extracted grammar

An end mark counts where it begins a line, blanks aside (`BeginsWithEndMark`). The line right behind
the begin mark is not looked at, so a grammar ends with the first such line behind that one
(`IsFirstEnd`, `beforeEndMark?_eq_some_iff`), and a text without such a line gives none
(`extractGrammar?_eq_none_iff`).

No further line before that one begins with the end mark, since it would have ended the grammar
(`IsFirstEnd.hasNoFurtherEnd`). The blanks around a grammar are dropped, which brings none either
(`HasNoFurtherEnd.strip`); and because what is left ends without a blank, none comes about when the
end mark is put on a line behind it (`isFirstEnd_wrapped`). So a grammar that is put between the
marks is found again as it is (`extraction_undoes_wrapping`).
-/

set_option autoImplicit false
set_option relaxedAutoImplicit false

namespace TickEconomy.Manual

/-! ### Texts that begin with the end mark -/

/-- The text begins, blanks aside, with the end mark of a grammar. -/
def BeginsWithEndMark (text : List Char) : Prop :=
  ∃ blanks after, text = blanks ++ grammarEndMark ++ after ∧
    ∀ blank ∈ blanks, Text.isBlank blank = true

section EndMark

variable {text front : List Char}

theorem beginsWithEndMark_iff :
    BeginsWithEndMark text ↔ grammarEndMark <+: Text.stripStart text := by
  constructor
  · rintro ⟨blanks, after, rfl, hblanks⟩
    have hmark : Text.stripStart (grammarEndMark ++ after) = grammarEndMark ++ after :=
      Text.stripStart_eq_self fun character hcharacter ↦ by
        obtain rfl : 'D' = character := Option.some.inj hcharacter
        decide
    rw [List.append_assoc, Text.stripStart, List.dropWhile_append_of_pos hblanks,
      ← Text.stripStart, hmark]
    exact List.prefix_append _ _
  · rintro ⟨after, hafter⟩
    refine ⟨text.takeWhile Text.isBlank, after, ?_, fun blank ↦ List.mem_takeWhile_imp⟩
    rw [List.append_assoc, hafter, Text.stripStart, List.takeWhile_append_dropWhile]

theorem BeginsWithEndMark.append (h : BeginsWithEndMark text) (more : List Char) :
    BeginsWithEndMark (text ++ more) := by
  obtain ⟨blanks, after, rfl, hblanks⟩ := h
  exact ⟨blanks, after ++ more, by simp only [List.append_assoc], hblanks⟩

/-- The end mark has no line end, so it does not reach beyond one. -/
theorem BeginsWithEndMark.of_append (h : BeginsWithEndMark (front ++ '\n' :: text))
    (hfront : ¬ ∀ character ∈ front, Text.isBlank character = true) :
    BeginsWithEndMark front := by
  rw [beginsWithEndMark_iff] at h ⊢
  have hstripped : (front.dropWhile Text.isBlank).isEmpty = false := by
    rwa [Bool.eq_false_iff, Ne, List.isEmpty_iff, List.dropWhile_eq_nil_iff]
  rw [Text.stripStart, List.dropWhile_append, hstripped, if_neg Bool.false_ne_true] at h
  exact (prefix_append_cons_iff (by decide)).1 h

end EndMark

/-! ### The line of the end mark -/

/-- The line end between the two parts of the text is the first one that only blanks separate from
the end mark. -/
structure IsFirstEnd (text before after : List Char) : Prop where
  text_eq : text = before ++ '\n' :: after
  begins : BeginsWithEndMark after
  length_le : ∀ earlier later, text = earlier ++ '\n' :: later → BeginsWithEndMark later →
    before.length ≤ earlier.length

/-- No line end of the text is followed, blanks aside, by the end mark. -/
def HasNoFurtherEnd (text : List Char) : Prop :=
  ∀ earlier later, text = earlier ++ '\n' :: later → ¬ BeginsWithEndMark later

section Search

variable {text before : List Char}

theorem beforeEndMark?_cons_of_begins {rest : List Char} (h : BeginsWithEndMark rest) :
    beforeEndMark? ('\n' :: rest) = some [] := by
  have hmark := List.isPrefixOf_iff_prefix.2 (beginsWithEndMark_iff.1 h)
  rw [beforeEndMark?, hmark]
  rfl

theorem beforeEndMark?_cons_of_not {character : Char} {rest : List Char}
    (h : ¬ (character = '\n' ∧ BeginsWithEndMark rest)) :
    beforeEndMark? (character :: rest) =
      (beforeEndMark? rest).map fun before ↦ character :: before := by
  rw [beginsWithEndMark_iff, ← List.isPrefixOf_iff_prefix, ← decide_eq_true_eq (p := _ = '\n'),
    ← Bool.and_eq_true] at h
  rw [beforeEndMark?, if_neg h]

/-- Nothing is found when no line end is followed, blanks aside, by the end mark. -/
theorem beforeEndMark?_eq_none_iff : beforeEndMark? text = none ↔ HasNoFurtherEnd text := by
  induction text with
  | nil => simp [beforeEndMark?, HasNoFurtherEnd]
  | cons character rest ih =>
    by_cases hfirst : character = '\n' ∧ BeginsWithEndMark rest
    · obtain ⟨rfl, hbegins⟩ := hfirst
      rw [beforeEndMark?_cons_of_begins hbegins]
      simp only [reduceCtorEq, false_iff, HasNoFurtherEnd, not_forall, not_not]
      exact ⟨[], rest, rfl, hbegins⟩
    · rw [beforeEndMark?_cons_of_not hfirst, Option.map_eq_none_iff, ih]
      constructor
      · intro hnone earlier later htext hlater
        rcases List.cons_eq_append_iff.1 htext with ⟨rfl, hline⟩ | ⟨more, rfl, hrest⟩
        · obtain ⟨rfl, rfl⟩ := List.cons.inj hline
          exact hfirst ⟨rfl, hlater⟩
        · exact hnone more later hrest hlater
      · intro hnone earlier later htext
        exact hnone (character :: earlier) later (by rw [htext, List.cons_append])

/-- What is found stands before the first line end that only blanks separate from the end mark. -/
theorem beforeEndMark?_eq_some_iff :
    beforeEndMark? text = some before ↔ ∃ after, IsFirstEnd text before after := by
  induction text generalizing before with
  | nil =>
    simp only [beforeEndMark?, reduceCtorEq, false_iff, not_exists]
    exact fun after h ↦ absurd h.text_eq.symm (by simp)
  | cons character rest ih =>
    by_cases hfirst : character = '\n' ∧ BeginsWithEndMark rest
    · obtain ⟨rfl, hbegins⟩ := hfirst
      rw [beforeEndMark?_cons_of_begins hbegins, Option.some.injEq]
      constructor
      · rintro rfl
        exact ⟨rest, rfl, hbegins, fun _ _ _ _ ↦ Nat.zero_le _⟩
      · rintro ⟨after, h⟩
        exact (List.length_eq_zero_iff.1 (Nat.le_zero.1 (h.length_le [] rest rfl hbegins))).symm
    · rw [beforeEndMark?_cons_of_not hfirst, Option.map_eq_some_iff]
      constructor
      · rintro ⟨between, hbetween, rfl⟩
        obtain ⟨after, hend⟩ := ih.1 hbetween
        refine ⟨after, by rw [hend.text_eq, List.cons_append], hend.begins, ?_⟩
        intro earlier later htext hlater
        rcases List.cons_eq_append_iff.1 htext with ⟨rfl, hline⟩ | ⟨more, rfl, hrest⟩
        · obtain ⟨rfl, rfl⟩ := List.cons.inj hline
          exact absurd ⟨rfl, hlater⟩ hfirst
        · exact Nat.succ_le_succ (hend.length_le more later hrest hlater)
      · rintro ⟨after, hend⟩
        rcases List.cons_eq_append_iff.1 hend.text_eq with ⟨rfl, hline⟩ | ⟨between, rfl, hrest⟩
        · obtain ⟨rfl, rfl⟩ := List.cons.inj hline
          exact absurd ⟨rfl, hend.begins⟩ hfirst
        · refine ⟨between, ih.2 ⟨after, hrest, hend.begins, ?_⟩, rfl⟩
          intro earlier later htext hlater
          exact Nat.le_of_succ_le_succ (hend.length_le (character :: earlier) later
            (by rw [htext, List.cons_append]) hlater)

end Search

/-! ### Grammars between their marks -/

section Wrapped

variable {text body raw after grammar : List Char}

/-- A grammar is the text between the first begin mark and the first line of an end mark behind it,
without the blanks around it and with a line end. -/
theorem extractGrammar?_eq_some_iff : extractGrammar? text = some grammar ↔
    ∃ before rest raw after, IsFirstPlace grammarBeginMark text before rest ∧
      IsFirstEnd rest raw after ∧ Text.strip raw ++ ['\n'] = grammar := by
  rw [extractGrammar?]
  constructor
  · intro h
    split at h
    · cases h
    · next before rest hcut =>
      obtain ⟨raw, hraw, hgrammar⟩ := Option.map_eq_some_iff.1 h
      obtain ⟨after, hend⟩ := beforeEndMark?_eq_some_iff.1 hraw
      exact ⟨before, rest, raw, after, cutAround?_eq_some_iff.1 hcut, hend, hgrammar⟩
  · rintro ⟨before, rest, raw, after, hbegin, hend, rfl⟩
    rw [cutAround?_eq_some_iff.2 hbegin]
    simp only [beforeEndMark?_eq_some_iff.2 ⟨after, hend⟩, Option.map_some]

/-- A text gives no grammar when no begin mark in it is followed by the line of an end mark. -/
theorem extractGrammar?_eq_none_iff : extractGrammar? text = none ↔
    ¬ ∃ before between after,
      text = before ++ grammarBeginMark ++ (between ++ '\n' :: after) ∧
        BeginsWithEndMark after := by
  rw [extractGrammar?]
  constructor
  · rintro h ⟨before, between, after, htext, hafter⟩
    split at h
    · next hcut =>
      refine cutAround?_eq_none_iff.1 hcut ?_
      rw [htext]
      exact List.infix_append _ _ _
    · next first rest hcut =>
      rw [Option.map_eq_none_iff, beforeEndMark?_eq_none_iff] at h
      -- The end mark is behind the first begin mark too.
      obtain ⟨front, hfront⟩ := (cutAround?_eq_some_iff.1 hcut).isSuffix htext.symm
      exact h (front ++ between) after (by rw [← hfront, List.append_assoc]) hafter
  · intro h
    split
    · rfl
    · next before rest hcut =>
      refine Option.map_eq_none_iff.2 (beforeEndMark?_eq_none_iff.2 ?_)
      rintro between after rfl hafter
      exact h ⟨before, between, after, (cutAround?_eq_some_iff.1 hcut).text_eq.symm, hafter⟩

/-- The text before the first end has none. -/
theorem IsFirstEnd.hasNoFurtherEnd (h : IsFirstEnd text raw after) : HasNoFurtherEnd raw := by
  intro earlier later hraw hlater
  have htext : text = earlier ++ '\n' :: (later ++ '\n' :: after) := by
    rw [h.text_eq, hraw, List.append_assoc, List.cons_append]
  have hle := h.length_le _ _ htext (hlater.append _)
  rw [hraw, List.length_append, List.length_cons] at hle
  omega

/-- Stripping a text brings no further line with the end mark. -/
theorem HasNoFurtherEnd.strip (h : HasNoFurtherEnd text) :
    HasNoFurtherEnd (Text.strip text) := by
  intro earlier later hstrip hlater
  obtain ⟨front, back, htext⟩ := Text.strip_isInfix text
  refine h (front ++ earlier) (later ++ back) ?_ (hlater.append back)
  rw [← htext, hstrip]
  simp only [List.append_assoc, List.cons_append]

/-- A text that ends without a blank and has no further line with the end mark ends where the end
mark is put behind it. -/
theorem isFirstEnd_wrapped (hlast : ∀ character ∈ body.getLast?, Text.isBlank character = false)
    (hlines : HasNoFurtherEnd body) :
    IsFirstEnd (body ++ '\n' :: grammarEndMark) body grammarEndMark where
  text_eq := rfl
  begins := ⟨[], [], by simp, by simp⟩
  length_le := by
    intro earlier later htext hlater
    rcases List.append_eq_append_iff.1 htext with ⟨more, rfl, -⟩ | ⟨more, rfl, hmore⟩
    · simp
    rcases List.cons_eq_append_iff.1 hmore with ⟨rfl, -⟩ | ⟨rest, rfl, rfl⟩
    · simp
    -- An earlier line with the end mark would be a line of the text, as the text does not end in
    -- blanks.
    refine absurd (hlater.of_append fun hrest ↦ ?_) (hlines earlier rest rfl)
    have hblank : ∀ character ∈ '\n' :: rest, Text.isBlank character = true :=
      List.forall_mem_cons.2 ⟨by decide, hrest⟩
    obtain ⟨last, hmem⟩ : ∃ last, last ∈ ('\n' :: rest).getLast? :=
      ⟨_, List.getLast?_eq_some_getLast (List.cons_ne_nil _ _)⟩
    have hend : last ∈ (earlier ++ '\n' :: rest).getLast? := by
      rw [List.getLast?_append, Option.mem_def.1 hmem]
      rfl
    exact absurd (hblank last (List.mem_of_getLast? hmem)) (Bool.eq_false_iff.1 (hlast last hend))

/-- A grammar is found again between its marks. -/
theorem extractGrammar?_extracted (h : extractGrammar? text = some grammar) :
    extractGrammar? (grammarBeginMark ++ grammar ++ grammarEndMark) = some grammar := by
  obtain ⟨before, rest, raw, after, -, hend, rfl⟩ := extractGrammar?_eq_some_iff.1 h
  have hagain : IsFirstEnd (Text.strip raw ++ '\n' :: grammarEndMark) (Text.strip raw)
      grammarEndMark :=
    isFirstEnd_wrapped (fun _ ↦ Text.not_blank_of_mem_getLast?_strip) hend.hasNoFurtherEnd.strip
  refine extractGrammar?_eq_some_iff.2 ⟨[], _, Text.strip raw, grammarEndMark, ?_, hagain, ?_⟩
  · simpa only [List.append_assoc, List.cons_append, List.nil_append] using
      isFirstPlace_nil grammarBeginMark (Text.strip raw ++ '\n' :: grammarEndMark)
  · rw [Text.strip_strip]

end Wrapped

/-- Extraction undoes wrapping: a grammar is found again between its marks. It ends its last line,
and apart from that line end it has no blanks around it. A text gives none just when no begin mark
in it is followed by a line end that only blanks separate from an end mark. -/
theorem extraction_undoes_wrapping (text : List Char) :
    (∀ grammar, extractGrammar? text = some grammar →
      extractGrammar? ("DSL_GRAMMAR_BEGIN\n".toList ++ grammar ++ "DSL_GRAMMAR_END".toList) =
        some grammar ∧
      ∃ body, grammar = body ++ ['\n'] ∧
        (∀ character ∈ body.head?, Text.isBlank character = false) ∧
        ∀ character ∈ body.getLast?, Text.isBlank character = false) ∧
    (extractGrammar? text = none ↔
      ¬ ∃ before between blanks after,
        text = before ++ "DSL_GRAMMAR_BEGIN\n".toList ++
          (between ++ '\n' :: (blanks ++ "DSL_GRAMMAR_END".toList ++ after)) ∧
        ∀ blank ∈ blanks, Text.isBlank blank = true) := by
  refine ⟨fun grammar hgrammar ↦ ⟨extractGrammar?_extracted hgrammar, ?_⟩, ?_⟩
  · obtain ⟨_, _, raw, _, -, -, rfl⟩ := extractGrammar?_eq_some_iff.1 hgrammar
    exact ⟨Text.strip raw, rfl, fun _ ↦ Text.not_blank_of_mem_head?_strip,
      fun _ ↦ Text.not_blank_of_mem_getLast?_strip⟩
  · rw [extractGrammar?_eq_none_iff, not_iff_not]
    constructor
    · rintro ⟨before, between, _, htext, blanks, after, rfl, hblanks⟩
      exact ⟨before, between, blanks, after, htext, hblanks⟩
    · rintro ⟨before, between, blanks, after, htext, hblanks⟩
      exact ⟨before, between, _, htext, blanks, after, rfl, hblanks⟩

/-- A grammar with blank lines around it is found again without them. -/
theorem extraction_undoes_wrapping_of_rule :
    extractGrammar? "DSL_GRAMMAR_BEGIN\n\n rule\n \n  DSL_GRAMMAR_END".toList =
        some "rule\n".toList ∧
      extractGrammar? ("DSL_GRAMMAR_BEGIN\n".toList ++ "rule\n".toList ++
        "DSL_GRAMMAR_END".toList) = some "rule\n".toList := by
  have hgrammar : extractGrammar? "DSL_GRAMMAR_BEGIN\n\n rule\n \n  DSL_GRAMMAR_END".toList =
      some "rule\n".toList := by decide +kernel
  exact ⟨hgrammar, ((extraction_undoes_wrapping _).1 _ hgrammar).1⟩

end TickEconomy.Manual
