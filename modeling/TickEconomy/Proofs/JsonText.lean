import Mathlib.Data.List.Forall2
import TickEconomy.Proofs.Sequence
import TickEconomy.Proofs.WrittenWords
import TickEconomy.Snapshot

/-!
# Reading JSON texts

A JSON text stands for a value (`Json`). Here it is read by the grammar of JSON, whoever may have
written it (`Json.read?`): blanks may stand around every part of it, a string may hold any escapes,
a number may have a fraction and an exponent, and objects and arrays may hold values of any kind.
A string is a sequence of codes of sixteen bits. A character beyond the first 65536 has two of them,
which may be written one by one, and a code that is only half of a character is refused
(`Json.decode?`).

Nothing of what was written is lost. What is written for a string is read back, whatever characters
it has (`Json.readString?_jsonString`), and so are the digits of an integer, whatever its size
(`Json.denotes_writeInteger`). A text denotes a value if reading it gives the value and stops behind
it, whatever follows that is no part of a number (`Json.Denotes`). Where texts that denote values
were written as a whole (`Json.IsWrittenAs`), so was the object with these members, and it denotes
the values in their order (`Json.isWrittenAs_jsonObject`).
-/

set_option autoImplicit false
set_option relaxedAutoImplicit false

namespace TickEconomy

/-! ### Values -/

/-- A number as JSON texts give it: a whole number times a power of ten. -/
structure JsonNumber where
  /-- The whole number, with the digits of the fraction. -/
  significand : Int
  /-- The power of ten. -/
  exponent : Int
  deriving DecidableEq, Repr

/-- What a JSON text stands for. -/
inductive Json
  | null
  | boolean (value : Bool)
  | number (value : JsonNumber)
  | string (text : String)
  | array (elements : List Json)
  | object (members : List (String × Json))

namespace Json

/-- An integer as a JSON value. -/
def integer (value : Int) : Json :=
  number { significand := value, exponent := 0 }

/-! ### Blanks -/

/-- The character may stand between the parts of a text. -/
def isBlank (character : Char) : Bool :=
  character == ' ' || character == '\t' || character == '\n' || character == '\r'

/-- The text without the blanks before it. -/
def skipBlanks (text : List Char) : List Char :=
  text.dropWhile isBlank

/-! ### Strings -/

/-- The codes of sixteen bits of a character: its own code, or those of its two surrogates. -/
def codes (character : Char) : List Nat :=
  let code := character.toNat
  if code < 0x10000 then [code]
  else [0xd800 + (code - 0x10000) / 0x400, 0xdc00 + (code - 0x10000) % 0x400]

/-- The code is the first half of a character. -/
def isFirstHalf (code : Nat) : Bool :=
  0xd800 ≤ code && code < 0xdc00

/-- The code is the second half of a character. -/
def isSecondHalf (code : Nat) : Bool :=
  0xdc00 ≤ code && code < 0xe000

/-- The characters that have the codes, unless a half stands by itself. -/
def decode? : List Nat → Option (List Char)
  | [] => some []
  | code :: later =>
    if isFirstHalf code then
      match later with
      | [] => none
      | second :: rest =>
        if isSecondHalf second then
          let character := Char.ofNat (0x10000 + (code - 0xd800) * 0x400 + (second - 0xdc00))
          (decode? rest).map fun characters ↦ character :: characters
        else none
    else if isSecondHalf code then none
    else (decode? later).map fun characters ↦ Char.ofNat code :: characters

/-- The value of a hexadecimal digit. -/
def hexadecimalValue? (digit : Char) : Option Nat :=
  if '0' ≤ digit ∧ digit ≤ '9' then some (digit.toNat - '0'.toNat)
  else if 'a' ≤ digit ∧ digit ≤ 'f' then some (digit.toNat - 'a'.toNat + 10)
  else if 'A' ≤ digit ∧ digit ≤ 'F' then some (digit.toNat - 'A'.toNat + 10)
  else none

/-- The number that hexadecimal digits stand for. -/
def readHexadecimal? (digits : List Char) : Option Nat :=
  (digits.mapM hexadecimalValue?).map fun values ↦
    values.foldl (fun number value ↦ 16 * number + value) 0

/-- The character that a letter stands for behind a backslash. -/
def escaped? (letter : Char) : Option Char :=
  if letter = '"' ∨ letter = '\\' ∨ letter = '/' then some letter
  else if letter = 'b' then some '\x08'
  else if letter = 't' then some '\t'
  else if letter = 'n' then some '\n'
  else if letter = 'f' then some '\x0c'
  else if letter = 'r' then some '\r'
  else none

/-- The codes of a string up to its closing quotation mark, and the text behind it. -/
def readCodes? : List Char → Option (List Nat × List Char)
  | [] => none
  | '"' :: rest => some ([], rest)
  | '\\' :: 'u' :: first :: second :: third :: fourth :: rest => do
    let code ← readHexadecimal? [first, second, third, fourth]
    let (later, behind) ← readCodes? rest
    return (code :: later, behind)
  | '\\' :: letter :: rest => do
    let character ← escaped? letter
    let (later, behind) ← readCodes? rest
    return (codes character ++ later, behind)
  | character :: rest =>
    if character.toNat < 0x20 then none
    else do
      let (later, behind) ← readCodes? rest
      return (codes character ++ later, behind)

/-- The string that ends with the next quotation mark, and the text behind it. -/
def readString? (text : List Char) : Option (String × List Char) := do
  let (read, behind) ← readCodes? text
  let characters ← decode? read
  return (String.ofList characters, behind)

/-! ### Numbers -/

/-- The digits that the text begins with, at least one, and the text behind them. -/
def readDigits? (text : List Char) : Option (List Char × List Char) :=
  let digits := text.takeWhile Char.isDigit
  if digits.isEmpty then none else some (digits, text.dropWhile Char.isDigit)

/-- The digits before the fraction, and the text behind them. A zero is followed by no digit. -/
def readWhole? (text : List Char) : Option (List Char × List Char) :=
  match readDigits? text with
  | some ('0' :: _ :: _, _) => none
  | read => read

/-- The digits of the fraction, if there is one, and the text behind it. -/
def readFraction? : List Char → Option (List Char × List Char)
  | '.' :: rest => readDigits? rest
  | text => some ([], text)

/-- The sign of an exponent, and the text behind it. -/
def readSign : List Char → Int × List Char
  | '-' :: rest => (-1, rest)
  | '+' :: rest => (1, rest)
  | text => (1, text)

/-- The exponent, which is zero if there is none, and the text behind it. -/
def readExponent? : List Char → Option (Int × List Char)
  | [] => some (0, [])
  | letter :: rest =>
    if letter = 'e' ∨ letter = 'E' then
      let (sign, digits) := readSign rest
      (readDigits? digits).map fun read ↦ (sign * Nat.ofDigitChars 10 read.1 0, read.2)
    else some (0, letter :: rest)

/-- The number without a sign that the text begins with, and the text behind it. -/
def readMagnitude? (text : List Char) : Option (JsonNumber × List Char) := do
  let (whole, afterWhole) ← readWhole? text
  let (fraction, afterFraction) ← readFraction? afterWhole
  let (exponent, behind) ← readExponent? afterFraction
  let number : JsonNumber :=
    { significand := Nat.ofDigitChars 10 (whole ++ fraction) 0
      exponent := exponent - fraction.length }
  return (number, behind)

/-- The number that the text begins with, and the text behind it. -/
def readNumber? : List Char → Option (JsonNumber × List Char)
  | '-' :: rest =>
    (readMagnitude? rest).map fun read ↦
      ({ read.1 with significand := -read.1.significand }, read.2)
  | text => readMagnitude? text

/-! ### Objects, arrays and values -/

section Items

variable {Item : Type} (readItem? : List Char → Option (Item × List Char)) (close : Char)

/-- Up to the given number of items with commas between them, and the text behind the character that
closes them. -/
def readItems? : Nat → List Char → Option (List Item × List Char)
  | 0, _ => none
  | limit + 1, text => do
    let (item, afterItem) ← readItem? text
    match skipBlanks afterItem with
    | [] => none
    | next :: rest =>
      if next = close then return ([item], rest)
      else if next = ',' then
        let (later, behind) ← readItems? limit rest
        return (item :: later, behind)
      else none

/-- The items up to the character that closes them, and the text behind it. Every item takes up one
character at least, so as many as there are characters are enough. -/
def readSequence? (text : List Char) : Option (List Item × List Char) :=
  match skipBlanks text with
  | [] => none
  | next :: rest =>
    if next = close then some ([], rest) else readItems? readItem? close text.length text

end Items

/-- A member of an object, and the text behind it. -/
def readMember? (readItem? : List Char → Option (Json × List Char)) (text : List Char) :
    Option ((String × Json) × List Char) :=
  match skipBlanks text with
  | '"' :: rest => do
    let (name, afterName) ← readString? rest
    match skipBlanks afterName with
    | ':' :: afterColon =>
      let (value, behind) ← readItem? afterColon
      return ((name, value), behind)
    | _ => none
  | _ => none

/-- The value that the text begins with, of a nesting up to the given depth, and the text behind
it. -/
def readValue? : Nat → List Char → Option (Json × List Char)
  | 0, _ => none
  | depth + 1, text =>
    match skipBlanks text with
    | 'n' :: 'u' :: 'l' :: 'l' :: rest => some (null, rest)
    | 't' :: 'r' :: 'u' :: 'e' :: rest => some (boolean true, rest)
    | 'f' :: 'a' :: 'l' :: 's' :: 'e' :: rest => some (boolean false, rest)
    | '"' :: rest => (readString? rest).map fun read ↦ (string read.1, read.2)
    | '[' :: rest =>
      (readSequence? (readValue? depth) ']' rest).map fun read ↦ (array read.1, read.2)
    | '{' :: rest =>
      (readSequence? (readMember? (readValue? depth)) '}' rest).map fun read ↦
        (object read.1, read.2)
    | rest => (readNumber? rest).map fun read ↦ (number read.1, read.2)

/-- The value of a whole text. No value is nested deeper than its text is long. -/
def read? (text : List Char) : Option Json := do
  let (value, behind) ← readValue? text.length text
  if (skipBlanks behind).isEmpty then return value else none

/-- Blanks, arrays, fractions, exponents and the halves of a character are read. -/
example :
    read? " [1.50e3, \x7b\"a\\u00df\\ud83d\\ude00\": [ true ]\x7d,-0 ]\n".toList =
      some (array [number { significand := 150, exponent := 1 },
        object [("aß😀", array [boolean true])], integer 0]) := by
  cbv

/-! ### Strings that were written -/

/-- The last digit of a numeral with zeros before it, and the digits before that. -/
theorem leftpad_toDigits_succ {base : Nat} (hbase : 1 < base) (number : Nat) {width : Nat}
    (hwidth : 0 < width) :
    (Nat.toDigits base number).leftpad (width + 1) '0' =
      (Nat.toDigits base (number / base)).leftpad width '0' ++ [(number % base).digitChar] := by
  rw [Nat.toDigits_eq_if hbase]
  split
  · next hnumber =>
    obtain ⟨zeros, rfl⟩ := Nat.exists_eq_succ_of_ne_zero hwidth.ne'
    rw [Nat.div_eq_of_lt hnumber, Nat.mod_eq_of_lt hnumber, Nat.toDigits_zero]
    simp [List.leftpad, List.replicate_succ']
  · simp [List.leftpad]

theorem hexadecimalValue?_digitChar {value : Nat} (h : value < 16) :
    hexadecimalValue? value.digitChar = some value := by
  revert value
  decide

/-- Four hexadecimal digits are read back. -/
theorem readHexadecimal?_writeHexadecimal {code : Nat} (h : code < 0x10000) :
    ∃ first second third fourth, Text.writeHexadecimal 4 code = [first, second, third, fourth] ∧
      readHexadecimal? [first, second, third, fourth] = some code := by
  refine ⟨(code / 16 / 16 / 16).digitChar, (code / 16 / 16 % 16).digitChar,
    (code / 16 % 16).digitChar, (code % 16).digitChar, ?_, ?_⟩
  · rw [Text.writeHexadecimal, leftpad_toDigits_succ (by decide) _ (by decide),
      leftpad_toDigits_succ (by decide) _ (by decide),
      leftpad_toDigits_succ (by decide) _ (by decide), Nat.toDigits_of_lt_base (by omega)]
    rfl
  · have hvalue : ∀ value, value < 16 → hexadecimalValue? value.digitChar = some value :=
      fun _ ↦ hexadecimalValue?_digitChar
    have hvalues : [(code / 16 / 16 / 16).digitChar, (code / 16 / 16 % 16).digitChar,
        (code / 16 % 16).digitChar, (code % 16).digitChar].mapM hexadecimalValue? =
          some [code / 16 / 16 / 16, code / 16 / 16 % 16, code / 16 % 16, code % 16] := by
      simp [hvalue _ (show code / 16 / 16 / 16 < 16 by omega), hvalue _ (Nat.mod_lt _ _)]
    rw [readHexadecimal?, hvalues]
    simp only [Option.map_some, List.foldl_cons, List.foldl_nil, Option.some.injEq]
    omega

section Codes

variable {letter character : Char}

theorem readCodes?_plain (hquote : character ≠ '"') (hbackslash : character ≠ '\\')
    (hcode : 0x20 ≤ character.toNat) (rest : List Char) :
    readCodes? (character :: rest) =
      (readCodes? rest).map fun read ↦ (codes character ++ read.1, read.2) := by
  have hlow : ¬ character.toNat < 0x20 := Nat.not_lt.2 hcode
  cases h : readCodes? rest <;> simp [readCodes?, hbackslash, hlow, h]

theorem readCodes?_escaped (hletter : letter ≠ 'u') (h : escaped? letter = some character)
    (rest : List Char) :
    readCodes? ('\\' :: letter :: rest) =
      (readCodes? rest).map fun read ↦ (codes character ++ read.1, read.2) := by
  cases hrest : readCodes? rest <;> simp [readCodes?, hletter, h, hrest]

theorem readCodes?_jsonUnit {code : Nat} (hcode : code < 0x10000) (rest : List Char) :
    readCodes? (jsonUnit code ++ rest) =
      (readCodes? rest).map fun read ↦ (code :: read.1, read.2) := by
  obtain ⟨first, second, third, fourth, hdigits, hread⟩ := readHexadecimal?_writeHexadecimal hcode
  rw [jsonUnit, hdigits]
  cases h : readCodes? rest <;> simp [readCodes?, hread, h]

end Codes

/-- The codes that are written for a character are read back, and then what follows. -/
theorem readCodes?_jsonCharacter (character : Char) (rest : List Char) :
    readCodes? (jsonCharacter character ++ rest) =
      (readCodes? rest).map fun read ↦ (codes character ++ read.1, read.2) := by
  have hcharacter : ∀ code, character.toNat = code → character = Char.ofNat code := by
    rintro code rfl
    exact (Char.ofNat_toNat character).symm
  have hvalid : character.toNat < 0xd800 ∨ 0xdfff < character.toNat ∧ character.toNat < 0x110000 :=
    character.valid
  simp only [jsonCharacter]
  split_ifs with hescaped hbackspace htab hline hpage hreturn hplain hunit
  · refine readCodes?_escaped ?_ ?_ rest
    · rintro rfl
      exact absurd hescaped (by decide)
    · rcases Bool.or_eq_true_iff.1 hescaped with hquote | hbackslash
      · rw [of_decide_eq_true hquote]
        rfl
      · rw [of_decide_eq_true hbackslash]
        rfl
  · rw [hcharacter _ hbackspace]
    exact readCodes?_escaped (by decide) rfl rest
  · rw [hcharacter _ htab]
    exact readCodes?_escaped (by decide) rfl rest
  · rw [hcharacter _ hline]
    exact readCodes?_escaped (by decide) rfl rest
  · rw [hcharacter _ hpage]
    exact readCodes?_escaped (by decide) rfl rest
  · rw [hcharacter _ hreturn]
    exact readCodes?_escaped (by decide) rfl rest
  · simp only [Bool.or_eq_true, decide_eq_true_eq, not_or] at hescaped
    obtain ⟨hlow, -⟩ := Bool.and_eq_true_iff.1 hplain
    exact readCodes?_plain hescaped.1 hescaped.2 (of_decide_eq_true hlow) rest
  · rw [readCodes?_jsonUnit hunit, codes, if_pos hunit]
    rfl
  · rw [List.append_assoc, readCodes?_jsonUnit (by omega), readCodes?_jsonUnit (by omega), codes,
      if_neg hunit, Option.map_map]
    rfl

/-- A character is what its codes stand for. -/
theorem decode?_codes (character : Char) (later : List Nat) :
    decode? (codes character ++ later) =
      (decode? later).map fun characters ↦ character :: characters := by
  have hvalid : character.toNat < 0xd800 ∨ 0xdfff < character.toNat ∧ character.toNat < 0x110000 :=
    character.valid
  have hcharacter := Char.ofNat_toNat character
  simp only [codes]
  split_ifs with hcode
  · have hfirst : isFirstHalf character.toNat = false := by
      simp only [isFirstHalf, Bool.and_eq_false_iff, decide_eq_false_iff_not]
      omega
    have hsecond : isSecondHalf character.toNat = false := by
      simp only [isSecondHalf, Bool.and_eq_false_iff, decide_eq_false_iff_not]
      omega
    rw [List.singleton_append, decode?.eq_def]
    simp only [hfirst, hsecond, hcharacter, Bool.false_eq_true, if_false]
  · have hfirst : isFirstHalf (0xd800 + (character.toNat - 0x10000) / 0x400) = true := by
      simp only [isFirstHalf, Bool.and_eq_true, decide_eq_true_eq]
      omega
    have hsecond : isSecondHalf (0xdc00 + (character.toNat - 0x10000) % 0x400) = true := by
      simp only [isSecondHalf, Bool.and_eq_true, decide_eq_true_eq]
      omega
    have hjoined : 0x10000 + (0xd800 + (character.toNat - 0x10000) / 0x400 - 0xd800) * 0x400 +
        (0xdc00 + (character.toNat - 0x10000) % 0x400 - 0xdc00) = character.toNat := by
      omega
    simp only [List.cons_append, List.nil_append, decode?, hfirst, hsecond, hjoined, hcharacter]
    rfl

/-- What is written for a string is read back, behind its opening quotation mark. -/
theorem readString?_jsonString (text : String) (rest : List Char) :
    readString? (text.toList.flatMap jsonCharacter ++ '"' :: rest) = some (text, rest) := by
  have hcodes : ∀ characters : List Char,
      readCodes? (characters.flatMap jsonCharacter ++ '"' :: rest) =
        some (characters.flatMap codes, rest) := by
    intro characters
    induction characters with
    | nil => rfl
    | cons character later ih =>
      rw [List.flatMap_cons, List.append_assoc, readCodes?_jsonCharacter, ih]
      rfl
  have hdecoded : ∀ characters : List Char,
      decode? (characters.flatMap codes) = some characters := by
    intro characters
    induction characters with
    | nil => rfl
    | cons character later ih => rw [List.flatMap_cons, decode?_codes, ih, Option.map_some]
  rw [readString?, hcodes]
  simp [hdecoded]

/-! ### Numbers that were written -/

/-- No number goes on with the text: it does not begin with a digit, a point or an exponent. -/
def EndsNumber : List Char → Prop
  | [] => True
  | next :: _ => next.isDigit = false ∧ next ≠ '.' ∧ next ≠ 'e' ∧ next ≠ 'E'

section Numbers

variable {rest : List Char}

/-- Only the numeral of zero begins with a zero. -/
theorem head?_toDigits {number : Nat} (h : 0 < number) :
    (Nat.toDigits 10 number).head? ≠ some '0' := by
  induction number using Nat.strong_induction_on with
  | _ number ih =>
    rw [Nat.toDigits_eq_if (by decide)]
    split
    · next hsmall =>
      have hdigit : ∀ digit < 10, 0 < digit → [digit.digitChar].head? ≠ some '0' := by decide
      exact hdigit number hsmall h
    · next hlarge =>
      rw [List.head?_append_of_ne_nil _ Nat.toDigits_ne_nil]
      exact ih (number / 10) (by omega) (by omega)

theorem readDigits?_toDigits (number : Nat) (hrest : EndsNumber rest) :
    readDigits? (Nat.toDigits 10 number ++ rest) = some (Nat.toDigits 10 number, rest) := by
  have hdigits : ∀ character ∈ Nat.toDigits 10 number, character.isDigit = true :=
    fun _ ↦ Nat.isDigit_of_mem_toDigits (by decide) (by decide)
  have htake : rest.takeWhile Char.isDigit = [] := by
    cases rest with
    | nil => rfl
    | cons next later => exact List.takeWhile_cons_of_neg (by simp [hrest.1])
  have hdrop : rest.dropWhile Char.isDigit = rest := by
    cases rest with
    | nil => rfl
    | cons next later => exact List.dropWhile_cons_of_neg (by simp [hrest.1])
  simp only [readDigits?]
  rw [List.takeWhile_append_of_pos hdigits, List.dropWhile_append_of_pos hdigits, htake, hdrop,
    List.append_nil, if_neg]
  exact fun hempty ↦ Nat.toDigits_ne_nil (List.isEmpty_iff.1 hempty)

theorem readWhole?_toDigits (number : Nat) (hrest : EndsNumber rest) :
    readWhole? (Nat.toDigits 10 number ++ rest) = some (Nat.toDigits 10 number, rest) := by
  rw [readWhole?, readDigits?_toDigits number hrest]
  rcases Nat.eq_zero_or_pos number with rfl | hpositive
  · rfl
  · have hhead := head?_toDigits hpositive
    split
    · next hzero =>
      rw [(Prod.mk.inj (Option.some.inj hzero)).1] at hhead
      exact absurd rfl hhead
    · rfl

theorem readFraction?_of_endsNumber (hrest : EndsNumber rest) :
    readFraction? rest = some ([], rest) := by
  cases rest with
  | nil => rfl
  | cons next later => simp [readFraction?, hrest.2.1]

theorem readExponent?_of_endsNumber (hrest : EndsNumber rest) :
    readExponent? rest = some (0, rest) := by
  cases rest with
  | nil => rfl
  | cons next later => simp [readExponent?, hrest.2.2.1, hrest.2.2.2]

theorem readMagnitude?_writeNatural (number : Nat) (hrest : EndsNumber rest) :
    readMagnitude? (Text.writeNatural number ++ rest) =
      some ({ significand := number, exponent := 0 }, rest) := by
  rw [readMagnitude?, Text.writeNatural, readWhole?_toDigits number hrest]
  simp [readFraction?_of_endsNumber hrest, readExponent?_of_endsNumber hrest]

/-- What is written for an integer is read back. -/
theorem readNumber?_writeInteger (number : Int) (hrest : EndsNumber rest) :
    readNumber? (Text.writeInteger number ++ rest) =
      some ({ significand := number, exponent := 0 }, rest) := by
  cases number with
  | ofNat number =>
    have hmagnitude := readMagnitude?_writeNatural number hrest
    rw [Text.writeInteger]
    unfold readNumber?
    split
    · next later htext =>
      -- No natural number is written with a sign.
      have hne : Text.writeNatural number ≠ [] := Nat.toDigits_ne_nil
      have hsign : (Text.writeNatural number ++ rest).head? = some '-' := congrArg List.head? htext
      rw [List.head?_append_of_ne_nil _ hne] at hsign
      have hdigit := Text.isDigit_of_mem_writeNatural number (List.mem_of_head? hsign)
      exact absurd hdigit (by decide)
    · exact hmagnitude
  | negSucc number =>
    rw [Text.writeInteger, List.cons_append, readNumber?, readMagnitude?_writeNatural _ hrest]
    rfl

end Numbers

/-! ### Values that were written -/

/-- Reading the text gives the value and stops behind it, whatever follows that is no part of a
number, if values of the given depth or more are read. -/
def Denotes (depth : Nat) (text : List Char) (value : Json) : Prop :=
  ∀ deeper, depth ≤ deeper → ∀ rest, EndsNumber rest →
    readValue? deeper (text ++ rest) = some (value, rest)

theorem Denotes.mono {depth deeper : Nat} {text : List Char} {value : Json}
    (h : Denotes depth text value) (hdepth : depth ≤ deeper) : Denotes deeper text value :=
  fun deepest hdeepest ↦ h deepest (hdepth.trans hdeepest)

section Blanks

variable {text : List Char}

theorem skipBlanks_of_isBlank {blanks : List Char}
    (h : ∀ character ∈ blanks, isBlank character = true) :
    skipBlanks (blanks ++ text) = skipBlanks text :=
  List.dropWhile_append_of_pos h

theorem skipBlanks_cons {first : Char} (h : isBlank first = false) :
    skipBlanks (first :: text) = first :: text :=
  List.dropWhile_cons_of_neg (by simp [h])

/-- A line end before a member is blank. -/
theorem isBlank_of_mem_jsonLineEnd {indentation : Nat} {character : Char}
    (h : character ∈ jsonLineEnd indentation) : isBlank character = true := by
  rcases List.mem_cons.1 h with rfl | hblank
  · rfl
  · rw [List.eq_of_mem_replicate hblank]
    rfl

/-- Blanks before a value are passed over. -/
theorem readValue?_of_skipBlanks {other : List Char} (h : skipBlanks text = skipBlanks other)
    (depth : Nat) : readValue? depth text = readValue? depth other := by
  cases depth with
  | zero => rfl
  | succ depth => rw [readValue?, readValue?, h]

end Blanks

/-- The numeral of an integer begins with a digit or a sign. -/
theorem exists_writeInteger_eq_cons (value : Int) : ∃ first later,
    Text.writeInteger value = first :: later ∧ (first = '-' ∨ first.isDigit = true) := by
  cases value with
  | ofNat number =>
    have hne : Text.writeNatural number ≠ [] := Nat.toDigits_ne_nil
    obtain ⟨first, later, htext⟩ := List.exists_cons_of_ne_nil hne
    have hmem : first ∈ Text.writeNatural number := htext ▸ List.mem_cons_self
    exact ⟨first, later, htext, .inr (Text.isDigit_of_mem_writeNatural number hmem)⟩
  | negSucc number => exact ⟨'-', _, rfl, .inl rfl⟩

/-- What is written for an integer denotes it. -/
theorem denotes_writeInteger (value : Int) :
    Denotes 1 (Text.writeInteger value) (integer value) := by
  intro deeper hdeeper rest hrest
  obtain ⟨depth, rfl⟩ := Nat.exists_eq_succ_of_ne_zero (Nat.one_le_iff_ne_zero.1 hdeeper)
  have hread := readNumber?_writeInteger value hrest
  obtain ⟨first, later, htext, hfirst⟩ := exists_writeInteger_eq_cons value
  have hne : ∀ other : Char, (other != '-' && !other.isDigit) = true → first ≠ other := by
    rintro other hother rfl
    rcases hfirst with rfl | hdigit
    · exact absurd hother (by decide)
    · simp [hdigit] at hother
  have hblank : isBlank first = false := by
    simp [isBlank, hne ' ' rfl, hne '\t' rfl, hne '\n' rfl, hne '\r' rfl]
  rw [htext, List.cons_append] at hread ⊢
  rw [readValue?, skipBlanks_cons hblank]
  split
  · next h => exact absurd (List.cons.inj h).1 (hne 'n' rfl)
  · next h => exact absurd (List.cons.inj h).1 (hne 't' rfl)
  · next h => exact absurd (List.cons.inj h).1 (hne 'f' rfl)
  · next h => exact absurd (List.cons.inj h).1 (hne '"' rfl)
  · next h => exact absurd (List.cons.inj h).1 (hne '[' rfl)
  · next h => exact absurd (List.cons.inj h).1 (hne '{' rfl)
  · rw [hread]
    rfl

/-! ### Objects that were written -/

/-- The text was written as a whole, and it denotes the value. -/
structure IsWrittenAs (depth : Nat) (value : Json) (writing : Writing) : Prop where
  isWhole : writing.isWhole = true
  denotes : Denotes depth writing.text.toList value

theorem IsWrittenAs.mono {depth deeper : Nat} {value : Json} {writing : Writing}
    (h : IsWrittenAs depth value writing) (hdepth : depth ≤ deeper) :
    IsWrittenAs deeper value writing :=
  ⟨h.isWhole, h.denotes.mono hdepth⟩

/-- An integer with few enough digits is written. -/
theorem isWrittenAs_jsonInteger {value : Int} (h : Text.FitsNumeral value) :
    IsWrittenAs 1 (integer value) (jsonInteger value) := by
  refine ⟨(isWhole_jsonInteger_iff value).2 h, ?_⟩
  rw [jsonInteger, Text.numeral?, if_pos h, Writing.part, Text.numeral, String.toList_ofList]
  exact denotes_writeInteger value

section Objects

variable {depth : Nat} {members : List (String × Writing)} {values : List (String × Json)}

/-- A member whose value is written with a text that denotes it is read back. -/
theorem readMember?_of_denotes {text : List Char} {value : Json} (h : Denotes depth text value)
    (indentation : Nat) (name : String) {rest : List Char} (hrest : EndsNumber rest) :
    readMember? (readValue? depth)
        (jsonLineEnd indentation ++ jsonString name ++ [':', ' '] ++ text ++ rest) =
      some ((name, value), rest) := by
  have htext : jsonLineEnd indentation ++ jsonString name ++ [':', ' '] ++ text ++ rest =
      jsonLineEnd indentation ++
        '"' :: (name.toList.flatMap jsonCharacter ++ '"' :: ':' :: ' ' :: (text ++ rest)) := by
    simp [jsonString]
  have hvalue : readValue? depth (' ' :: (text ++ rest)) = some (value, rest) :=
    (readValue?_of_skipBlanks
      (show skipBlanks (' ' :: (text ++ rest)) = skipBlanks (text ++ rest) from rfl) depth).trans
      (h depth le_rfl rest hrest)
  rw [htext, readMember?, skipBlanks_of_isBlank fun _ ↦ isBlank_of_mem_jsonLineEnd,
    skipBlanks_cons (by decide)]
  simp only [readString?_jsonString, Option.bind_eq_bind, Option.bind_some,
    skipBlanks_cons (show isBlank ':' = false by decide), hvalue]
  rfl

/-- The text of a single member. -/
theorem toList_jsonMembers_singleton (indentation : Nat) (name : String) (value : Writing) :
    (jsonMembers indentation [(name, value)]).text.toList =
      jsonLineEnd indentation ++ jsonString name ++ [':', ' '] ++ value.text.toList := by
  have hhead : (jsonMemberHead indentation name).isWhole = true := rfl
  rw [jsonMembers, Writing.text_append hhead, jsonMemberHead, Writing.part, String.toList_append,
    String.toList_ofList]

/-- The text of a member that was written, with the further members behind it. -/
theorem toList_jsonMembers_cons {value : Writing} (hvalue : value.isWhole = true)
    (indentation : Nat) (name : String) (next : String × Writing)
    (further : List (String × Writing)) :
    (jsonMembers indentation ((name, value) :: next :: further)).text.toList =
      jsonLineEnd indentation ++ jsonString name ++ [':', ' '] ++ value.text.toList ++
        ',' :: (jsonMembers indentation (next :: further)).text.toList := by
  have hhead : (jsonMemberHead indentation name).isWhole = true := rfl
  rw [jsonMembers, Writing.text_append, Writing.text_append, Writing.text_append hhead,
    jsonMemberHead, Writing.part, Writing.part]
  · simp
  · simp [hhead, hvalue]
  · simp [hhead, hvalue]
  · exact List.cons_ne_nil next further

/-- Members whose values were written with texts that denote them are read back. -/
theorem readItems?_jsonMembers
    (h : List.Forall₂ (fun written read ↦ read.1 = written.1 ∧ IsWrittenAs depth read.2 written.2)
      members values)
    (hne : members ≠ []) (indentation closing : Nat) (rest : List Char) (limit : Nat)
    (hlimit : members.length ≤ limit) :
    readItems? (readMember? (readValue? depth)) '}' limit
        ((jsonMembers indentation members).text.toList ++ (jsonLineEnd closing ++ '}' :: rest)) =
      some (values, rest) := by
  induction h generalizing limit with
  | nil => exact absurd rfl hne
  | @cons member value later laterValues hmember hlater ih =>
    obtain ⟨name, writing⟩ := member
    obtain ⟨readName, value⟩ := value
    obtain ⟨hname, hwritten⟩ := hmember
    obtain rfl : name = readName := hname.symm
    obtain ⟨limit, rfl⟩ : ∃ fewer, limit = fewer + 1 :=
      Nat.exists_eq_succ_of_ne_zero (by rw [List.length_cons] at hlimit; omega)
    cases hlater with
    | nil =>
      have hclosing : skipBlanks (jsonLineEnd closing ++ '}' :: rest) = '}' :: rest := by
        rw [skipBlanks_of_isBlank fun _ ↦ isBlank_of_mem_jsonLineEnd, skipBlanks_cons (by decide)]
      have hends : EndsNumber (jsonLineEnd closing ++ '}' :: rest) := by
        exact ⟨by decide, by decide, by decide, by decide⟩
      rw [readItems?, toList_jsonMembers_singleton,
        readMember?_of_denotes hwritten.denotes indentation name hends]
      simp [hclosing]
    | @cons next nextValue further furtherValues hnext hfurther =>
      have hrest := ih (List.cons_ne_nil _ _) limit (Nat.le_of_succ_le_succ hlimit)
      have hends : EndsNumber (',' :: ((jsonMembers indentation (next :: further)).text.toList ++
          (jsonLineEnd closing ++ '}' :: rest))) := by
        exact ⟨by decide, by decide, by decide, by decide⟩
      rw [readItems?, toList_jsonMembers_cons hwritten.isWhole, List.append_assoc,
        List.cons_append, readMember?_of_denotes hwritten.denotes indentation name hends]
      simp [skipBlanks_cons (show isBlank ',' = false by decide), hrest]

/-- Written members take up one character each at least. -/
theorem length_le_length_jsonMembers {members : List (String × Writing)}
    (h : ∀ member ∈ members, member.2.isWhole = true) (indentation : Nat) :
    members.length ≤ (jsonMembers indentation members).text.toList.length := by
  induction members with
  | nil => exact Nat.zero_le _
  | cons member later ih =>
    obtain ⟨hmember, hlater⟩ := List.forall_mem_cons.1 h
    cases later with
    | nil =>
      rw [toList_jsonMembers_singleton]
      simp [jsonLineEnd]
    | cons next further =>
      have hlength := ih hlater
      rw [toList_jsonMembers_cons hmember]
      simp only [List.length_append, List.length_cons] at hlength ⊢
      omega

/-- The text of an object with members that were written. -/
theorem toList_jsonObject (h : ∀ member ∈ members, member.2.isWhole = true) (hne : members ≠ [])
    (indentation : Nat) :
    (jsonObject indentation members).text.toList =
      '{' :: ((jsonMembers (indentation + 2) members).text.toList ++
        (jsonLineEnd indentation ++ ['}'])) := by
  have hmembers : (jsonMembers (indentation + 2) members).isWhole = true := by simpa using h
  rw [jsonObject, if_neg (by simpa using hne), Writing.text_append, Writing.text_append rfl,
    Writing.part, Writing.part]
  · simp
  · rw [Writing.isWhole_append, hmembers]
    rfl

/-- An object is longer than it has members that were written. -/
theorem length_lt_length_jsonObject (h : ∀ member ∈ members, member.2.isWhole = true)
    (indentation : Nat) :
    members.length < (jsonObject indentation members).text.toList.length := by
  by_cases hne : members = []
  · subst hne
    rw [jsonObject, List.isEmpty_nil, if_pos rfl]
    decide
  · have hlength := length_le_length_jsonMembers h (indentation + 2)
    rw [toList_jsonObject h hne, List.length_cons, List.length_append]
    omega

/-- Written members begin with a name, behind blanks. -/
theorem skipBlanks_jsonMembers (h : ∀ member ∈ members, member.2.isWhole = true)
    (hne : members ≠ []) (indentation : Nat) (rest : List Char) :
    ∃ later, skipBlanks ((jsonMembers indentation members).text.toList ++ rest) =
      '"' :: later := by
  have hname : ∃ later, (jsonMembers indentation members).text.toList =
      jsonLineEnd indentation ++ '"' :: later := by
    cases members with
    | nil => exact absurd rfl hne
    | cons member later =>
      obtain ⟨name, value⟩ := member
      obtain ⟨hmember, -⟩ := List.forall_mem_cons.1 h
      cases later with
      | nil => simp [toList_jsonMembers_singleton, jsonString]
      | cons next further => simp [toList_jsonMembers_cons hmember, jsonString]
  obtain ⟨later, hname⟩ := hname
  rw [hname, List.append_assoc, skipBlanks_of_isBlank fun _ ↦ isBlank_of_mem_jsonLineEnd]
  exact ⟨_, skipBlanks_cons (by decide)⟩

/-- An object is written as the values that its members are written as. -/
theorem isWrittenAs_jsonObject
    (h : List.Forall₂ (fun written read ↦ read.1 = written.1 ∧ IsWrittenAs depth read.2 written.2)
      members values) (indentation : Nat) :
    IsWrittenAs (depth + 1) (object values) (jsonObject indentation members) := by
  have hwhole : ∀ member ∈ members, member.2.isWhole = true := by
    intro member hmember
    obtain ⟨value, -, -, hwritten⟩ := exists_of_forall₂_of_mem h.flip hmember
    exact hwritten.isWhole
  refine ⟨by simpa using hwhole, fun deeper hdeeper rest _ ↦ ?_⟩
  obtain ⟨deep, rfl⟩ : ∃ deep, deeper = deep + 1 := Nat.exists_eq_succ_of_ne_zero (by omega)
  have hdeep : List.Forall₂
      (fun written read ↦ read.1 = written.1 ∧ IsWrittenAs deep read.2 written.2)
      members values :=
    h.imp fun _ _ hmember ↦ ⟨hmember.1, hmember.2.mono (Nat.le_of_succ_le_succ hdeeper)⟩
  by_cases hne : members = []
  · subst hne
    obtain rfl := List.forall₂_nil_left_iff.1 hdeep
    rw [jsonObject, List.isEmpty_nil, if_pos rfl, readValue?]
    rfl
  · have hlength := length_le_length_jsonMembers hwhole (indentation + 2)
    obtain ⟨later, hbegin⟩ := skipBlanks_jsonMembers hwhole hne (indentation + 2)
      (jsonLineEnd indentation ++ '}' :: rest)
    have hitems := readItems?_jsonMembers hdeep hne (indentation + 2) indentation rest
      ((jsonMembers (indentation + 2) members).text.toList ++
        (jsonLineEnd indentation ++ '}' :: rest)).length
      (by rw [List.length_append]; omega)
    have htext : (jsonObject indentation members).text.toList ++ rest =
        '{' :: ((jsonMembers (indentation + 2) members).text.toList ++
          (jsonLineEnd indentation ++ '}' :: rest)) := by
      rw [toList_jsonObject hwhole hne]
      simp
    rw [htext, readValue?, skipBlanks_cons (by decide)]
    simp only [readSequence?, hbegin, hitems]
    rfl

end Objects

/-- A text that denotes a value is read as this value. -/
theorem read?_of_denotes {depth : Nat} {text : List Char} {value : Json}
    (h : Denotes depth text value) (hdepth : depth ≤ text.length) : read? text = some value := by
  have hread := h text.length hdepth [] trivial
  rw [List.append_nil] at hread
  rw [read?, hread]
  rfl

end Json

end TickEconomy
