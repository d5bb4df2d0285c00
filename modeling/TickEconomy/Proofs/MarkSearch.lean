import Mathlib.Data.List.Infix
import TickEconomy.Manual

/-!
# The first place of a mark

A search for a mark finds its first place. What it gives is told without the search: the mark stands
between the two parts of the text, and it stands at no earlier place (`IsFirstPlace`,
`cutAround?_eq_some_iff`); nothing is found just when the mark stands nowhere
(`cutAround?_eq_none_iff`). The search is that of the library (`cutAround?_eq_dropInfix?`), so its
theory is at hand.

Whether a place of the mark is the first depends on the text before it and on the mark alone
(`isFirstPlace_iff`). A place that begins before and reaches into the mark has to be ruled out too,
which is why the mark without its last character stands in the criterion. Where a character that is
not in the mark parts a text, the mark can only stand on one of its sides
(`infix_append_cons_iff`).
-/

set_option autoImplicit false
set_option relaxedAutoImplicit false

namespace TickEconomy.Manual

/-! ### The search and that of the library -/

theorem dropPrefix?_of_isPrefixOf {mark text : List Char} (h : mark.isPrefixOf text = true) :
    text.dropPrefix? mark = some (text.drop mark.length) := by
  obtain ⟨later, rfl⟩ := List.isPrefixOf_iff_prefix.1 h
  rw [List.drop_left]
  exact List.dropPrefix?_eq_some_iff.2 ⟨mark, rfl, beq_self_eq_true mark⟩

theorem dropInfix?_go_eq (mark text passed : List Char) :
    List.dropInfix?.go mark text passed =
      (cutAround? mark text).map fun parts ↦ (passed.reverse ++ parts.1, parts.2) := by
  induction text generalizing passed with
  | nil =>
    rw [List.dropInfix?.go, cutAround?]
    split <;> simp
  | cons character rest ih =>
    rw [List.dropInfix?.go.eq_def, cutAround?]
    dsimp only
    split_ifs with hstart
    · rw [dropPrefix?_of_isPrefixOf hstart]
      simp
    · have hnone : (character :: rest).dropPrefix? mark = none := by
        refine Option.eq_none_iff_forall_not_mem.2 fun later hlater ↦ hstart ?_
        obtain ⟨same, htext, hsame⟩ := List.dropPrefix?_eq_some_iff.1 hlater
        rw [htext, eq_of_beq hsame]
        exact List.isPrefixOf_iff_prefix.2 (List.prefix_append _ _)
      rw [hnone]
      simp [ih, Function.comp_def]

/-- The search for a mark is that of the library. -/
theorem cutAround?_eq_dropInfix? (mark text : List Char) :
    cutAround? mark text = text.dropInfix? mark := by
  rw [List.dropInfix?, dropInfix?_go_eq]
  simp

/-! ### First places -/

/-- The mark stands in the text between the two parts, and at no earlier place. -/
structure IsFirstPlace (mark text before after : List Char) : Prop where
  text_eq : before ++ mark ++ after = text
  length_le : ∀ earlier later, earlier ++ mark ++ later = text → before.length ≤ earlier.length

section Search

variable {mark text before after : List Char}

/-- A text is cut around the first place of the mark. -/
theorem cutAround?_eq_some_iff :
    cutAround? mark text = some (before, after) ↔ IsFirstPlace mark text before after := by
  rw [cutAround?_eq_dropInfix?, List.dropInfix?_eq_some_iff]
  constructor
  · rintro ⟨⟨same, htext, hsame⟩, hfirst⟩
    obtain rfl := eq_of_beq hsame
    exact ⟨htext.symm, fun earlier later hplace ↦
      hfirst earlier same later hplace.symm (beq_self_eq_true same)⟩
  · rintro ⟨rfl, hfirst⟩
    refine ⟨⟨mark, rfl, beq_self_eq_true mark⟩, fun earlier same later hplace hsame ↦ ?_⟩
    obtain rfl := eq_of_beq hsame
    exact hfirst earlier later hplace.symm

/-- What stands behind any place of the mark stands behind the first one too. -/
theorem IsFirstPlace.isSuffix (h : IsFirstPlace mark text before after)
    {earlier later : List Char} (hplace : earlier ++ mark ++ later = text) : later <:+ after := by
  have hlength := congrArg List.length (h.text_eq.trans hplace.symm)
  have hle := h.length_le earlier later hplace
  refine List.suffix_of_suffix_length_le ⟨earlier ++ mark, hplace⟩ ⟨before ++ mark, h.text_eq⟩ ?_
  simp only [List.length_append] at hlength
  omega

/-- A text that begins with the mark has its first place there. -/
theorem isFirstPlace_nil (mark after : List Char) : IsFirstPlace mark (mark ++ after) [] after where
  text_eq := by rw [List.nil_append]
  length_le _ _ _ := Nat.zero_le _

/-- A text in which the mark stands is cut, and no other is. -/
theorem cutAround?_eq_none_iff : cutAround? mark text = none ↔ ¬ mark <:+: text := by
  induction text with
  | nil => simp [cutAround?]
  | cons character rest ih =>
    rw [cutAround?, List.infix_cons_iff, not_or, ← ih, ← List.isPrefixOf_iff_prefix]
    split_ifs with hstart <;> simp [hstart]

/-- Whether a place of the mark is the first one depends only on what stands before it. -/
theorem isFirstPlace_iff (hmark : mark ≠ []) :
    IsFirstPlace mark (before ++ mark ++ after) before after ↔
      ¬ mark <:+: before ++ mark.dropLast := by
  have hlength : mark.dropLast.length < mark.length := by
    rw [List.length_dropLast]
    exact Nat.sub_lt (List.length_pos_iff.2 hmark) Nat.one_pos
  have hstart : before ++ mark.dropLast <+: before ++ mark ++ after := by
    rw [List.append_assoc, List.prefix_append_right_inj]
    exact (List.dropLast_prefix mark).trans (List.prefix_append _ _)
  constructor
  · rintro hfirst ⟨earlier, more, hplace⟩
    obtain ⟨later, hlater⟩ := hstart
    have hle := hfirst.length_le earlier (more ++ later) (by rw [← hlater, ← hplace]; simp)
    have hsum := congrArg List.length hplace
    simp only [List.length_append] at hsum
    omega
  · intro hnone
    refine ⟨rfl, fun earlier later hplace ↦ not_lt.1 fun hlt ↦ hnone ?_⟩
    -- An earlier place would end before the last character of the mark.
    have hearlier : earlier ++ mark <+: before ++ mark.dropLast := by
      refine List.prefix_of_prefix_length_le ⟨later, hplace⟩ hstart ?_
      simp only [List.length_append, List.length_dropLast]
      omega
    exact (List.suffix_append earlier mark).isInfix.trans hearlier.isInfix

/-- A mark at the beginning of a text does not reach beyond a character that is not in it. -/
theorem prefix_append_cons_iff {parting : Char} (hparting : parting ∉ mark)
    {first second : List Char} : mark <+: first ++ parting :: second ↔ mark <+: first := by
  induction first generalizing mark with
  | nil =>
    cases mark with
    | nil => simp
    | cons character rest =>
      have hcharacter : character ≠ parting := (List.ne_of_not_mem_cons hparting).symm
      simp [List.cons_prefix_cons, hcharacter]
  | cons next first ih =>
    cases mark with
    | nil => simp
    | cons character rest =>
      rw [List.cons_append, List.cons_prefix_cons, List.cons_prefix_cons,
        ih (List.not_mem_of_not_mem_cons hparting)]

/-- A mark stands in two texts with a character between them that is not in the mark just when it
stands in one of them. -/
theorem infix_append_cons_iff {parting : Char} (hparting : parting ∉ mark)
    {first second : List Char} :
    mark <:+: first ++ parting :: second ↔ mark <:+: first ∨ mark <:+: second := by
  induction first with
  | nil =>
    have hbegin : mark <+: [] ++ parting :: second ↔ mark <+: [] := prefix_append_cons_iff hparting
    rw [List.nil_append] at hbegin ⊢
    rw [List.infix_cons_iff, hbegin, List.prefix_nil, List.infix_nil]
  | cons next first ih =>
    rw [List.cons_append, List.infix_cons_iff, List.infix_cons_iff, ih, ← List.cons_append,
      prefix_append_cons_iff hparting, or_assoc]

end Search

end TickEconomy.Manual
