/-!
# Lines of a text and their words

A text is cut into lines behind each line end. `cutLines` takes the class of characters that end a
line; a carriage return directly before a line feed ends one line together with it, and a line end
at the end of the text begins no further line. Two classes are in use: a text held in memory is cut
at every line boundary of Unicode (`endsTextLine`), a file at line feeds and carriage returns only
(`endsFileLine`). `unifyLineEnds` writes every line end of a file as a line feed. Of a file that is
read only in part, the lines are known whose end is read (`endedLines`). A carriage return at the
end of that part tells nothing yet, as a line feed may follow it.

A line is read by its blanks: the blanks around it do not count (`strip`), and what stands between
blanks are its words (`words`). The blank characters are those of Unicode's bidirectional classes
WS, B and S or of category Zs, twenty-nine in all, among them the no-break spaces, the separators
U+001C to U+001F and the line separators, but not the zero-width space. Each of the twenty-nine is
in `blankRanges`. `firstWord` and `afterFirstWord` cut a text behind its first word.
-/

set_option autoImplicit false
set_option relaxedAutoImplicit false

namespace TickEconomy.Text

/-! ### Classes of characters -/

/-- The code point of the character lies in one of the inclusive ranges. -/
def inRanges (ranges : List (Nat × Nat)) (character : Char) : Bool :=
  ranges.any fun range ↦ range.1 ≤ character.toNat && character.toNat ≤ range.2

/-! ### Cutting a text into lines -/

/-- The lines of a text, without the characters that end them. -/
def cutLines (endsLine : Char → Bool) : List Char → List (List Char)
  | [] => []
  | '\r' :: '\n' :: rest => [] :: cutLines endsLine rest
  | character :: rest =>
    if endsLine character then [] :: cutLines endsLine rest
    else
      match cutLines endsLine rest with
      | [] => [[character]]
      | line :: later => (character :: line) :: later

/-- The character ends a line of a file. -/
def endsFileLine (character : Char) : Bool :=
  character == '\n' || character == '\r'

/-- The character ends a line of a text held in memory: a line feed, vertical tab, form feed or
carriage return, one of the separators U+001C to U+001E, the next-line control, or a line or
paragraph separator. -/
def endsTextLine (character : Char) : Bool :=
  let code := character.toNat
  (0x0a ≤ code && code ≤ 0x0d) || (0x1c ≤ code && code ≤ 0x1e) || code == 0x85 ||
    code == 0x2028 || code == 0x2029

/-- The text without a carriage return at its end. -/
def dropFinalReturn (text : List Char) : List Char :=
  if text.getLast? = some '\r' then text.dropLast else text

/-- The lines whose end is in the part of a file that is read. -/
def endedLines (part : List Char) : List (List Char) :=
  cutLines endsFileLine
    ((dropFinalReturn part).reverse.dropWhile fun character ↦ !endsFileLine character).reverse

/-- The text with a line feed in place of every line end of a file. -/
def unifyLineEnds : List Char → List Char
  | [] => []
  | '\r' :: '\n' :: rest => '\n' :: unifyLineEnds rest
  | '\r' :: rest => '\n' :: unifyLineEnds rest
  | character :: rest => character :: unifyLineEnds rest

/-! ### Blanks and words -/

/-- The code points of the blank characters. -/
def blankRanges : List (Nat × Nat) :=
  [(0x09, 0x0d), (0x1c, 0x20), (0x85, 0x85), (0xa0, 0xa0), (0x1680, 0x1680), (0x2000, 0x200a),
    (0x2028, 0x2029), (0x202f, 0x202f), (0x205f, 0x205f), (0x3000, 0x3000)]

/-- The character separates words. -/
def isBlank (character : Char) : Bool :=
  inRanges blankRanges character

/-- The text without the blanks it begins with. -/
def stripStart (text : List Char) : List Char :=
  text.dropWhile isBlank

/-- The text without the blanks it ends with. -/
def stripEnd (text : List Char) : List Char :=
  (text.reverse.dropWhile isBlank).reverse

/-- The text without the blanks around it. -/
def strip (text : List Char) : List Char :=
  stripEnd (stripStart text)

/-- The pieces between the blanks, one more than there are blanks, the empty ones included. -/
def pieces : List Char → List (List Char)
  | [] => [[]]
  | character :: rest =>
    if isBlank character then [] :: pieces rest
    else
      match pieces rest with
      | [] => [[character]]
      | piece :: later => (character :: piece) :: later

/-- The words of a text: its longest runs of characters that are not blank. -/
def words (text : List Char) : List (List Char) :=
  (pieces text).filter fun piece ↦ !piece.isEmpty

/-- The characters before the first blank. -/
def firstWord (text : List Char) : List Char :=
  text.takeWhile fun character ↦ !isBlank character

/-- What follows the first word, without the blanks around it. -/
def afterFirstWord (text : List Char) : List Char :=
  strip (text.dropWhile fun character ↦ !isBlank character)

end TickEconomy.Text
