import TickEconomy.Proofs.WrittenWords

/-!
# The words of a line

The words of a text are told by one equation: at a blank they part into the words before it and the
words behind it (`Text.words_append_blank`). So blanks around a text do not count for its words
(`Text.words_strip`), and the words of a stripped text that is not empty are its first one and those
of what follows it (`Text.words_strip_eq_cons`).
-/

set_option autoImplicit false
set_option relaxedAutoImplicit false

namespace TickEconomy.Text

/-! ### Blanks part words -/

theorem pieces_ne_nil (text : List Char) : pieces text ≠ [] := by
  cases text with
  | nil => exact List.cons_ne_nil _ _
  | cons character rest =>
    unfold pieces
    split_ifs
    · exact List.cons_ne_nil _ _
    · split <;> exact List.cons_ne_nil _ _

/-- A blank parts the pieces of a text. -/
theorem pieces_append_blank {blank : Char} (hblank : isBlank blank = true) (text rest : List Char) :
    pieces (text ++ blank :: rest) = pieces text ++ pieces rest := by
  induction text with
  | nil => simp [pieces, hblank]
  | cons character text ih =>
    rw [List.cons_append, pieces, pieces, ih]
    split_ifs
    · rfl
    · obtain ⟨piece, later, hpieces⟩ := List.exists_cons_of_ne_nil (pieces_ne_nil text)
      rw [hpieces]
      rfl

/-- A blank parts the words of a text. -/
theorem words_append_blank {blank : Char} (hblank : isBlank blank = true) (text rest : List Char) :
    words (text ++ blank :: rest) = words text ++ words rest := by
  rw [words, pieces_append_blank hblank, List.filter_append, words, words]

theorem words_cons_blank {blank : Char} (hblank : isBlank blank = true) (rest : List Char) :
    words (blank :: rest) = words rest :=
  words_append_blank hblank [] rest

/-- A text of blanks has no words. -/
theorem words_eq_nil {blanks : List Char} (h : ∀ blank ∈ blanks, isBlank blank = true) :
    words blanks = [] := by
  induction blanks with
  | nil => rfl
  | cons blank later ih =>
    obtain ⟨hblank, hlater⟩ := List.forall_mem_cons.1 h
    rw [words_cons_blank hblank, ih hlater]

/-- Blanks behind a text do not count for its words. -/
theorem words_append_blanks {blanks : List Char} (h : ∀ blank ∈ blanks, isBlank blank = true)
    (text : List Char) : words (text ++ blanks) = words text := by
  cases blanks with
  | nil => rw [List.append_nil]
  | cons blank later =>
    obtain ⟨hblank, hlater⟩ := List.forall_mem_cons.1 h
    rw [words_append_blank hblank, words_eq_nil hlater, List.append_nil]

/-! ### Words of stripped texts -/

theorem words_stripStart (text : List Char) : words (stripStart text) = words text := by
  induction text with
  | nil => rfl
  | cons character rest ih =>
    rw [stripStart, List.dropWhile_cons]
    split_ifs with hblank
    · rw [words_cons_blank hblank, ← ih, stripStart]
    · rfl

theorem words_stripEnd (text : List Char) : words (stripEnd text) = words text := by
  have hparted : stripEnd text ++ (text.reverse.takeWhile isBlank).reverse = text := by
    rw [stripEnd, ← List.reverse_append, List.takeWhile_append_dropWhile, List.reverse_reverse]
  have hblanks : ∀ blank ∈ (text.reverse.takeWhile isBlank).reverse, isBlank blank = true :=
    fun blank hblank ↦ List.mem_takeWhile_imp (List.mem_reverse.1 hblank)
  calc words (stripEnd text) = words (stripEnd text ++ (text.reverse.takeWhile isBlank).reverse) :=
        (words_append_blanks hblanks _).symm
    _ = words text := by rw [hparted]

/-- Blanks around a text do not count for its words. -/
theorem words_strip (text : List Char) : words (strip text) = words text := by
  rw [strip, words_stripEnd, words_stripStart]

/-- A stripped text begins without a blank. -/
theorem not_blank_of_mem_head?_strip {text : List Char} {character : Char}
    (h : character ∈ (strip text).head?) : isBlank character = false := by
  have hstart := List.head?_dropWhile_not isBlank text
  obtain ⟨rest, hrest⟩ := stripEnd_isPrefix (stripStart text)
  have hfirst : (stripStart text).head? = some character := by
    rw [← hrest, List.head?_append, ← strip, Option.mem_def.1 h, Option.some_or]
  rw [stripStart] at hfirst
  rwa [hfirst] at hstart

/-- Blanks behind a text are stripped. -/
theorem strip_append_blanks {blanks : List Char} (h : ∀ blank ∈ blanks, isBlank blank = true)
    (text : List Char) : strip (text ++ blanks) = strip text := by
  have hend (front : List Char) : stripEnd (front ++ blanks) = stripEnd front := by
    rw [stripEnd, List.reverse_append, List.dropWhile_append_of_pos, ← stripEnd]
    exact fun blank hblank ↦ h blank (List.mem_reverse.1 hblank)
  rw [strip, strip, stripStart, List.dropWhile_append]
  split_ifs with hempty
  · have hblanks : blanks.dropWhile isBlank = [] := List.dropWhile_eq_nil_iff.2 h
    rw [hblanks, stripStart, List.isEmpty_iff.1 hempty]
  · rw [hend, stripStart]

/-- A text that ends without a blank is kept when what stands behind it is stripped at its end. -/
theorem stripEnd_append {front : List Char}
    (hfront : ∀ character ∈ front.getLast?, isBlank character = false) (text : List Char) :
    stripEnd (front ++ text) = front ++ stripEnd text := by
  rw [stripEnd, List.reverse_append, List.dropWhile_append]
  split_ifs with hempty
  · rw [← stripEnd, stripEnd_eq_self hfront, stripEnd, List.isEmpty_iff.1 hempty,
      List.reverse_nil, List.append_nil]
  · rw [List.reverse_append, List.reverse_reverse, stripEnd]

/-- A text is stripped around a part of it. -/
theorem strip_isInfix (text : List Char) : strip text <:+: text :=
  (stripEnd_isPrefix _).isInfix.trans (List.dropWhile_suffix _).isInfix

/-- A stripped text is stripped. -/
theorem strip_strip (text : List Char) : strip (strip text) = strip text := by
  have hstart : stripStart (strip text) = strip text :=
    stripStart_eq_self fun _ ↦ not_blank_of_mem_head?_strip
  calc strip (strip text) = stripEnd (strip text) := by rw [strip, hstart]
    _ = strip text := stripEnd_eq_self fun _ ↦ not_blank_of_mem_getLast?_strip

theorem strip_afterFirstWord (text : List Char) :
    strip (afterFirstWord text) = afterFirstWord text :=
  strip_strip _

/-- A word before a blank, or at the end, is the first of the words. -/
theorem words_word_append {word rest : List Char} (hword : IsWord word)
    (hrest : ∀ character ∈ rest.head?, isBlank character = true) :
    words (word ++ rest) = word :: words rest := by
  cases rest with
  | nil => rw [List.append_nil, hword.words_eq_singleton]; rfl
  | cons blank later =>
    have hblank := hrest blank rfl
    rw [words_append_blank hblank, hword.words_eq_singleton, words_cons_blank hblank]
    rfl

/-- The words of a text that is not blank are the first one of its stripped form and those of what
follows it there. -/
theorem words_strip_eq_cons {text : List Char} (h : strip text ≠ []) :
    words text = firstWord (strip text) :: words (afterFirstWord (strip text)) := by
  obtain ⟨first, rest, hcons⟩ := List.exists_cons_of_ne_nil h
  have hfirst : isBlank first = false := not_blank_of_mem_head?_strip (by rw [hcons]; rfl)
  have hword : IsWord (firstWord (strip text)) := by
    refine ⟨?_, fun character hcharacter ↦ ?_⟩
    · simp [firstWord, hcons, hfirst]
    · simpa using List.mem_takeWhile_imp hcharacter
  have hrest : ∀ character ∈ ((strip text).dropWhile fun character ↦ !isBlank character).head?,
      isBlank character = true := by
    intro character hcharacter
    have hstop := List.head?_dropWhile_not (fun character ↦ !isBlank character) (strip text)
    rw [Option.mem_def.1 hcharacter] at hstop
    simpa using hstop
  calc words text = words (strip text) := (words_strip text).symm
    _ = words (firstWord (strip text) ++
        (strip text).dropWhile fun character ↦ !isBlank character) := by
      rw [firstWord, List.takeWhile_append_dropWhile]
    _ = firstWord (strip text) :: words (afterFirstWord (strip text)) := by
      rw [words_word_append hword hrest, afterFirstWord, words_strip]

/-- A text has no words when there is nothing in it but blanks. -/
theorem words_eq_nil_iff (text : List Char) : words text = [] ↔ strip text = [] := by
  constructor
  · intro h
    by_contra hne
    rw [words_strip_eq_cons hne] at h
    exact List.cons_ne_nil _ _ h
  · intro h
    rw [← words_strip, h]
    rfl

end TickEconomy.Text
