/-!
# Reading UTF-8

The bytes of a file are read as UTF-8 in one of two ways. `decodeUtf8?` refuses bytes that are not
well formed. `decodeUtf8Leniently` reads every byte string: in place of each longest run of bytes
that begins a character and does not finish it, and of each byte that can begin none, stands the
replacement character. It reads byte by byte, with the unfinished character (`Unfinished`) as its
state, so it is a recursion on the bytes.

A file is read in portions. A portion with a byte that fits nowhere behind the bytes before it gives
no characters, and those behind it are not read (`decodePortions`).
-/

set_option autoImplicit false
set_option relaxedAutoImplicit false

namespace TickEconomy.Text

/-- The text that well-formed bytes stand for. -/
def decodeUtf8? (bytes : ByteArray) : Option String :=
  String.fromUTF8? bytes

/-- The bytes of a text stand for the text. -/
theorem decodeUtf8?_toUTF8 (text : String) : decodeUtf8? text.toUTF8 = some text :=
  dif_pos text.isValidUTF8

/-! ### Lenient reading -/

/-- A character of which the first bytes are read. -/
structure Unfinished where
  /-- The code point, as far as the bytes read so far determine it. -/
  code : Nat
  /-- How many bytes follow the next one. -/
  bytesAfterNext : Nat
  /-- The least next byte that continues the character. -/
  leastNext : Nat := 0x80
  /-- The greatest next byte that continues the character. -/
  greatestNext : Nat := 0xbf

/-- What stands for bytes that are not well formed. -/
def replacementCharacter : Char :=
  '\ufffd'

/-- What a byte that begins a character gives at once, and the character it leaves unfinished. The
bounds on the second byte keep out overlong forms, surrogates and code points that do not exist. -/
def beginCharacter (byte : Nat) : List Char × Option Unfinished :=
  if byte < 0x80 then ([Char.ofNat byte], none)
  else if byte < 0xc2 then ([replacementCharacter], none)
  else if byte < 0xe0 then ([], some { code := byte - 0xc0, bytesAfterNext := 0 })
  else if byte = 0xe0 then ([], some { code := 0, bytesAfterNext := 1, leastNext := 0xa0 })
  else if byte = 0xed then ([], some { code := 0xd, bytesAfterNext := 1, greatestNext := 0x9f })
  else if byte < 0xf0 then ([], some { code := byte - 0xe0, bytesAfterNext := 1 })
  else if byte = 0xf0 then ([], some { code := 0, bytesAfterNext := 2, leastNext := 0x90 })
  else if byte < 0xf4 then ([], some { code := byte - 0xf0, bytesAfterNext := 2 })
  else if byte = 0xf4 then ([], some { code := 4, bytesAfterNext := 2, greatestNext := 0x8f })
  else ([replacementCharacter], none)

/-- What the next byte gives, and the character that is unfinished behind it. -/
def readByte (unfinished : Option Unfinished) (byte : Nat) : List Char × Option Unfinished :=
  match unfinished with
  | none => beginCharacter byte
  | some begun =>
    if begun.leastNext ≤ byte ∧ byte ≤ begun.greatestNext then
      let code := begun.code * 0x40 + (byte - 0x80)
      match begun.bytesAfterNext with
      | 0 => ([Char.ofNat code], none)
      | later + 1 => ([], some { code := code, bytesAfterNext := later })
    else
      let (characters, next) := beginCharacter byte
      (replacementCharacter :: characters, next)

/-- The characters of the bytes behind an unfinished character. -/
def decodeBytes (unfinished : Option Unfinished) : List UInt8 → List Char
  | [] => if unfinished.isSome then [replacementCharacter] else []
  | byte :: rest =>
    let (characters, next) := readByte unfinished byte.toNat
    characters ++ decodeBytes next rest

/-- The text of any bytes, with replacement characters for what is not well formed. -/
def decodeUtf8Leniently (bytes : ByteArray) : List Char :=
  decodeBytes none bytes.toList

/-! ### Reading in portions -/

/-- The byte can follow an unfinished character, or begin one where there is none. -/
def fitsBehind (unfinished : Option Unfinished) (byte : Nat) : Bool :=
  match unfinished with
  | none => decide (byte < 0x80) || (decide (0xc2 ≤ byte) && decide (byte < 0xf5))
  | some begun => decide (begun.leastNext ≤ byte) && decide (byte ≤ begun.greatestNext)

/-- The first two bytes of a surrogate. No byte can follow them. -/
def halfSurrogate : Unfinished :=
  { code := 0x360, bytesAfterNext := 0, leastNext := 0x100, greatestNext := 0xff }

/-- The byte brings an unfinished character to the first two bytes of a surrogate. -/
def opensSurrogate (unfinished : Option Unfinished) (byte : Nat) : Bool :=
  match unfinished with
  | none => false
  | some begun =>
    decide (begun.code = 0xd ∧ begun.bytesAfterNext = 1 ∧ 0xa0 ≤ byte ∧ byte ≤ 0xbf)

/-- What the next byte gives and what it leaves unfinished, unless it fits nowhere. A surrogate is
refused at its third byte. -/
def readFittingByte? (unfinished : Option Unfinished) (byte : Nat) :
    Option (List Char × Option Unfinished) :=
  if fitsBehind unfinished byte then some (readByte unfinished byte)
  else if opensSurrogate unfinished byte then some ([], some halfSurrogate)
  else none

/-- The characters of a portion and the character that it leaves unfinished, unless one of its bytes
fits nowhere. -/
def decodePortion? (unfinished : Option Unfinished) :
    List UInt8 → Option (List Char × Option Unfinished)
  | [] => some ([], unfinished)
  | byte :: rest =>
    match readFittingByte? unfinished byte.toNat with
    | none => none
    | some (characters, next) =>
      (decodePortion? next rest).map fun (later, left) ↦ (characters ++ later, left)

/-- The characters of the portions before the first one with a byte that fits nowhere. -/
def decodePortions (unfinished : Option Unfinished) : List (List UInt8) → List Char
  | [] => []
  | portion :: rest =>
    match decodePortion? unfinished portion with
    | none => []
    | some (characters, left) => characters ++ decodePortions left rest

end TickEconomy.Text
