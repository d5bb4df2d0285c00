import Mathlib.Data.List.TakeWhile
import TickEconomy.Resource
import TickEconomy.Text.Numeral

/-!
# Writing words, lines and numerals

A word is a text that is not empty and has no blanks (`Text.IsWord`). A line of words, written with
a space between one word and the next (`Text.writeWords`), is read back as these words
(`Text.words_writeWords`). Nothing is lost either when a word stands before a text that begins and
ends without a blank: the line begins with the word (`Text.firstWord_append`), and the text is what
follows it (`Text.afterFirstWord_append`).

Lines that have no line ends of a file, each with a line feed behind it, are cut into these lines
again (`Text.cutLines_writeLines`).

A numeral is a word (`Text.isWord_writeInteger`), and within the limit on its digits it is read back
as the number it was written for (`Text.readInteger?_writeInteger`).
-/

set_option autoImplicit false
set_option relaxedAutoImplicit false

namespace TickEconomy.Text

/-! ### Words -/

/-- The text is not empty and has no blanks. -/
structure IsWord (text : List Char) : Prop where
  ne_nil : text ≠ []
  not_blank : ∀ character ∈ text, isBlank character = false

instance (text : List Char) : Decidable (IsWord text) :=
  decidable_of_iff ((!text.isEmpty && text.all fun character ↦ !isBlank character) = true) (by
    rw [Bool.and_eq_true, List.all_eq_true]
    constructor
    · rintro ⟨hne, hblank⟩
      exact ⟨by simpa using hne, by simpa using hblank⟩
    · intro h
      exact ⟨by simpa using h.ne_nil, by simpa using h.not_blank⟩)

/-- The words with a space between one and the next. -/
def writeWords (words : List (List Char)) : List Char :=
  [' '].intercalate words

theorem writeWords_singleton (word : List Char) : writeWords [word] = word :=
  List.intercalate_singleton

theorem writeWords_cons_cons (word next : List Char) (later : List (List Char)) :
    writeWords (word :: next :: later) = word ++ ' ' :: writeWords (next :: later) := by
  rw [writeWords, List.intercalate_cons_cons, List.append_assoc]
  rfl

/-! ### Stripping -/

theorem isBlank_space : isBlank ' ' = true := by decide

/-- A text that begins without a blank does not change when blanks before it are dropped. -/
theorem stripStart_eq_self {text : List Char}
    (h : ∀ character ∈ text.head?, isBlank character = false) : stripStart text = text := by
  cases text with
  | nil => rfl
  | cons character rest => simp [stripStart, h character rfl]

/-- A text that ends without a blank does not change when blanks behind it are dropped. -/
theorem stripEnd_eq_self {text : List Char}
    (h : ∀ character ∈ text.getLast?, isBlank character = false) : stripEnd text = text := by
  have hstart : stripStart text.reverse = text.reverse :=
    stripStart_eq_self (by rwa [List.head?_reverse])
  exact (congrArg List.reverse hstart).trans text.reverse_reverse

/-- Only characters at the end of a text are stripped there. -/
theorem stripEnd_isPrefix (text : List Char) : stripEnd text <+: text := by
  rw [← List.reverse_suffix, stripEnd, List.reverse_reverse]
  exact List.dropWhile_suffix _

/-- A stripped text ends without a blank. -/
theorem not_blank_of_mem_getLast?_strip {text : List Char} {character : Char}
    (h : character ∈ (strip text).getLast?) : isBlank character = false := by
  rw [strip, stripEnd, List.getLast?_reverse] at h
  have hfirst := List.head?_dropWhile_not isBlank (stripStart text).reverse
  rwa [Option.mem_def.1 h] at hfirst

namespace IsWord

variable {word text : List Char}

theorem not_blank_of_mem_head? (h : IsWord word) {character : Char}
    (hcharacter : character ∈ word.head?) : isBlank character = false :=
  h.not_blank character (List.mem_of_mem_head? hcharacter)

/-- A word is stripped. -/
theorem strip_eq_self (h : IsWord word) : strip word = word := by
  rw [strip, stripStart_eq_self fun character ↦ h.not_blank_of_mem_head?]
  exact stripEnd_eq_self fun character hcharacter ↦
    h.not_blank character (List.mem_of_getLast? hcharacter)

/-- A word before a stripped text is stripped with it. -/
theorem strip_append (h : IsWord word) (htext : strip text = text) (hne : text ≠ []) :
    strip (word ++ ' ' :: text) = word ++ ' ' :: text := by
  have hfirst : (word ++ ' ' :: text).head? = word.head? := by
    obtain ⟨first, rest, hcons⟩ := List.exists_cons_of_ne_nil h.ne_nil
    rw [hcons]
    rfl
  have hlast : (word ++ ' ' :: text).getLast? = text.getLast? := by
    rw [List.getLast?_append, List.getLast?_cons_of_ne_nil hne, List.getLast?_eq_some_getLast hne]
    rfl
  rw [strip, stripStart_eq_self (by rw [hfirst]; exact fun character ↦ h.not_blank_of_mem_head?)]
  refine stripEnd_eq_self fun character hcharacter ↦ ?_
  rw [hlast, ← htext] at hcharacter
  exact not_blank_of_mem_getLast?_strip hcharacter

/-- The first word of a word is the word. -/
theorem firstWord_eq_self (h : IsWord word) : firstWord word = word := by
  refine List.takeWhile_eq_self_iff.2 ?_
  exact fun character hcharacter ↦ by simp [h.not_blank character hcharacter]

/-- Nothing follows a word that stands alone. -/
theorem afterFirstWord_eq_nil (h : IsWord word) : afterFirstWord word = [] := by
  have hdrop : (word.dropWhile fun character ↦ !isBlank character) = [] :=
    List.dropWhile_eq_nil_iff.2 fun character hcharacter ↦ by
      simp [h.not_blank character hcharacter]
  rw [afterFirstWord, hdrop]
  rfl

/-- The first word of a text is the word that it begins with. -/
theorem firstWord_append (h : IsWord word) (text : List Char) :
    firstWord (word ++ ' ' :: text) = word := by
  rw [firstWord, List.takeWhile_append_of_pos fun character hcharacter ↦ by
    simp [h.not_blank character hcharacter]]
  simp [isBlank_space]

/-- What follows the first word of a text is the text behind it. -/
theorem afterFirstWord_append (h : IsWord word) (htext : strip text = text) :
    afterFirstWord (word ++ ' ' :: text) = text := by
  have hdrop : ((word ++ ' ' :: text).dropWhile fun character ↦ !isBlank character) =
      ' ' :: text := by
    rw [List.dropWhile_append_of_pos fun character hcharacter ↦ by
      simp [h.not_blank character hcharacter]]
    simp [isBlank_space]
  have hstart : stripStart (' ' :: text) = stripStart text := by simp [stripStart, isBlank_space]
  rw [afterFirstWord, hdrop, strip, hstart]
  exact htext

/-- A word before a text goes before the first piece of the text. -/
theorem pieces_append (h : IsWord word) {piece : List Char} {later : List (List Char)}
    (htext : pieces text = piece :: later) : pieces (word ++ text) = (word ++ piece) :: later := by
  have hblank := h.not_blank
  clear h
  induction word with
  | nil => exact htext
  | cons character rest ih =>
    obtain ⟨hcharacter, hrest⟩ := List.forall_mem_cons.1 hblank
    rw [List.cons_append, pieces, ih hrest]
    simp [hcharacter]

/-- The words of a word are the word alone. -/
theorem words_eq_singleton (h : IsWord word) : words word = [word] := by
  have hempty : pieces [] = [[]] := rfl
  have hpieces : pieces word = [word] := by
    simpa using h.pieces_append hempty
  simp [words, hpieces, h.ne_nil]

/-- The words of a text are the word that it begins with and those of the text behind it. -/
theorem words_append (h : IsWord word) (text : List Char) :
    words (word ++ ' ' :: text) = word :: words text := by
  have hspace : pieces (' ' :: text) = [] :: pieces text := by simp [pieces, isBlank_space]
  rw [words, h.pieces_append hspace, List.append_nil, words]
  simp [h.ne_nil]

end IsWord

/-! ### Lines of words -/

/-- A line that begins with a word is not empty. -/
theorem writeWords_ne_nil {word : List Char} (hword : IsWord word) (later : List (List Char)) :
    writeWords (word :: later) ≠ [] := by
  cases later with
  | nil => rw [writeWords_singleton]; exact hword.ne_nil
  | cons next later => rw [writeWords_cons_cons]; simp

/-- A line of words is stripped. -/
theorem strip_writeWords {words : List (List Char)} (hwords : ∀ word ∈ words, IsWord word) :
    strip (writeWords words) = writeWords words := by
  induction words with
  | nil => rfl
  | cons word later ih =>
    obtain ⟨hword, hlater⟩ := List.forall_mem_cons.1 hwords
    cases later with
    | nil => rw [writeWords_singleton, hword.strip_eq_self]
    | cons next later =>
      rw [writeWords_cons_cons]
      exact hword.strip_append (ih hlater)
        (writeWords_ne_nil (hlater next List.mem_cons_self) later)

/-- A line of words is read back as these words. -/
theorem words_writeWords {lineWords : List (List Char)} (hwords : ∀ word ∈ lineWords, IsWord word) :
    words (writeWords lineWords) = lineWords := by
  induction lineWords with
  | nil => rfl
  | cons word later ih =>
    obtain ⟨hword, hlater⟩ := List.forall_mem_cons.1 hwords
    cases later with
    | nil => rw [writeWords_singleton, hword.words_eq_singleton]
    | cons next later => rw [writeWords_cons_cons, hword.words_append, ih hlater]

/-! ### Lines of a file -/

/-- The lines, each with a line feed behind it. -/
def writeLines (lines : List (List Char)) : List Char :=
  lines.flatMap fun line ↦ line ++ ['\n']

/-- Behind a character that is no carriage return before a line feed, lines are cut as the character
says. -/
theorem cutLines_cons {endsLine : Char → Bool} {character : Char} {rest : List Char}
    (h : ∀ later, character = '\r' → rest ≠ '\n' :: later) :
    cutLines endsLine (character :: rest) =
      if endsLine character then [] :: cutLines endsLine rest
      else
        match cutLines endsLine rest with
        | [] => [[character]]
        | line :: later => (character :: line) :: later :=
  cutLines.eq_3 endsLine character rest h

/-- A line feed ends a line that has no line ends. -/
theorem cutLines_append_lineFeed {line : List Char} (h : line.any endsFileLine = false)
    (rest : List Char) :
    cutLines endsFileLine (line ++ '\n' :: rest) = line :: cutLines endsFileLine rest := by
  induction line with
  | nil =>
    rw [List.nil_append, cutLines_cons fun _ hreturn ↦ absurd hreturn (by decide)]
    rfl
  | cons character later ih =>
    rw [List.any_cons, Bool.or_eq_false_iff] at h
    obtain ⟨hcharacter, hlater⟩ := h
    have hreturn : character ≠ '\r' := by
      rintro rfl
      exact absurd hcharacter (by decide)
    rw [List.cons_append, cutLines_cons fun _ hsame ↦ absurd hsame hreturn, ih hlater, hcharacter]
    rfl

/-- Lines without line ends are cut again as they were written. -/
theorem cutLines_writeLines {lines : List (List Char)}
    (h : ∀ line ∈ lines, line.any endsFileLine = false) :
    cutLines endsFileLine (writeLines lines) = lines := by
  induction lines with
  | nil => rfl
  | cons line later ih =>
    obtain ⟨hline, hlater⟩ := List.forall_mem_cons.1 h
    have hwritten : writeLines (line :: later) = line ++ '\n' :: writeLines later := by
      simp [writeLines]
    rw [hwritten, cutLines_append_lineFeed hline, ih hlater]

/-- A word has no line ends. -/
theorem IsWord.any_endsFileLine {word : List Char} (h : IsWord word) :
    word.any endsFileLine = false := by
  rw [List.any_eq_false]
  intro character hmem hends
  have hblank := h.not_blank character hmem
  rcases Bool.or_eq_true_iff.1 hends with hfeed | hreturn
  · rw [eq_of_beq hfeed] at hblank
    exact absurd hblank (by decide)
  · rw [eq_of_beq hreturn] at hblank
    exact absurd hblank (by decide)

/-! ### Numerals -/

/-- The digits of a numeral are decimal digits of ASCII. -/
theorem isDigit_of_mem_writeNatural (number : Nat) {character : Char}
    (h : character ∈ writeNatural number) : character.isDigit = true :=
  Nat.isDigit_of_mem_toDigits (by decide) (by decide) h

/-- A decimal digit of ASCII has its value. -/
theorem digitValue?_of_isDigit {character : Char} (h : character.isDigit = true) :
    digitValue? character = some (character.toNat - '0'.toNat) := by
  obtain ⟨hlow, hhigh⟩ := Char.isDigit_iff_toNat.1 h
  have hzero : digitZeros.find? (fun start ↦ start ≤ character.toNat &&
      character.toNat < start + 10) = some '0'.toNat := by
    refine List.find?_cons_of_pos ?_
    simp only [Char.reduceToNat] at hlow hhigh
    simp
    omega
  rw [digitValue?, hzero]
  rfl

/-- Digits of ASCII are read as their values. -/
theorem readDigits?_of_isDigit {text : List Char} (hne : text ≠ [])
    (h : ∀ character ∈ text, character.isDigit = true) :
    readDigits? text = some (text.map fun character ↦ character.toNat - '0'.toNat) := by
  induction text with
  | nil => exact absurd rfl hne
  | cons character rest ih =>
    obtain ⟨hcharacter, hrest⟩ := List.forall_mem_cons.1 h
    have hvalue := digitValue?_of_isDigit hcharacter
    cases rest with
    | nil => simp [readDigits?, hvalue]
    | cons next later =>
      have hnext : next ≠ '_' := by
        rintro rfl
        exact absurd (hrest '_' List.mem_cons_self) (by decide)
      simp [readDigits?, hvalue, ih (by simp) hrest]

/-- What is written for a natural number is read back, within the limit on digits. -/
theorem readNatural?_writeNatural {number : Nat}
    (h : (writeNatural number).length ≤ numeralDigitLimit) :
    readNatural? (writeNatural number) = some number := by
  have hdigits := readDigits?_of_isDigit Nat.toDigits_ne_nil
    fun character hcharacter ↦ isDigit_of_mem_writeNatural number hcharacter
  have hvalue : ofDigitValues ((Nat.toDigits 10 number).map fun character ↦
      character.toNat - '0'.toNat) = number := by
    rw [ofDigitValues, List.foldl_map]
    exact Nat.ofDigitChars_toDigits (by decide) (by decide)
  rw [readNatural?, writeNatural, hdigits]
  dsimp only
  rw [List.length_map, hvalue]
  exact if_pos h

/-- What is written for an integer is read back, within the limit on digits. -/
theorem readInteger?_writeInteger {number : Int}
    (h : (writeNatural number.natAbs).length ≤ numeralDigitLimit) :
    readInteger? (writeInteger number) = some number := by
  have hnatural := readNatural?_writeNatural h
  cases number with
  | ofNat number =>
    obtain ⟨first, rest, hcons⟩ :=
      List.exists_cons_of_ne_nil (Nat.toDigits_ne_nil (n := number) (b := 10))
    have hfirst : first.isDigit = true :=
      isDigit_of_mem_writeNatural number (by rw [writeNatural, hcons]; simp)
    have hminus : first ≠ '-' := by
      rintro rfl
      exact absurd hfirst (by decide)
    have hplus : first ≠ '+' := by
      rintro rfl
      exact absurd hfirst (by decide)
    have hread : readNatural? (first :: rest) = some number := by
      rw [← hcons]
      exact hnatural
    rw [writeInteger, writeNatural, hcons]
    simp [readInteger?, hminus, hplus, hread]
  | negSucc number =>
    have hread : readNatural? (writeNatural (number + 1)) = some (number + 1) := hnatural
    rw [writeInteger, readInteger?, hread]
    rfl

/-- A numeral is a word. -/
theorem isWord_writeInteger (number : Int) : IsWord (writeInteger number) := by
  have hdigits : ∀ natural : Nat, ∀ character ∈ writeNatural natural,
      isBlank character = false := by
    intro natural character hcharacter
    have hdigit := isDigit_of_mem_writeNatural natural hcharacter
    obtain ⟨hlow, hhigh⟩ := Char.isDigit_iff_toNat.1 hdigit
    simp only [Char.reduceToNat] at hlow hhigh
    simp [isBlank, inRanges, blankRanges]
    omega
  cases number with
  | ofNat number => exact ⟨Nat.toDigits_ne_nil, hdigits number⟩
  | negSucc number =>
    exact ⟨by simp [writeInteger], List.forall_mem_cons.2 ⟨by decide, hdigits (number + 1)⟩⟩

end TickEconomy.Text
