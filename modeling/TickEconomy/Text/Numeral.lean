import TickEconomy.Text.Line

/-!
# Whole numbers in decimal

A number is read from an optional sign and decimal digits of any script, with single underscores
allowed between digits (`readInteger?`). It is written in ASCII digits without leading zeros, with
`-` before a negative number (`writeInteger`). The digits of a script are ten consecutive code
points, so a table of zeros determines the value of every digit (`digitValue?`).

A numeral has at most `numeralDigitLimit` digits, whether it is read or written. One with more
digits is refused by `readInteger?`, and a number that would need more has none (`numeral?`).
Sentences of messages and of the log are the exception, as they show any number (`numeral`).
-/

set_option autoImplicit false
set_option relaxedAutoImplicit false

namespace TickEconomy.Text

/-! ### Digits -/

/-- The code points of the digits zero of all scripts. -/
def digitZeros : List Nat :=
  [0x30, 0x660, 0x6f0, 0x7c0, 0x966, 0x9e6, 0xa66, 0xae6, 0xb66, 0xbe6, 0xc66, 0xce6, 0xd66,
    0xde6, 0xe50, 0xed0, 0xf20, 0x1040, 0x1090, 0x17e0, 0x1810, 0x1946, 0x19d0, 0x1a80, 0x1a90,
    0x1b50, 0x1bb0, 0x1c40, 0x1c50, 0xa620, 0xa8d0, 0xa900, 0xa9d0, 0xa9f0, 0xaa50, 0xabf0,
    0xff10, 0x104a0, 0x10d30, 0x11066, 0x110f0, 0x11136, 0x111d0, 0x112f0, 0x11450, 0x114d0,
    0x11650, 0x116c0, 0x11730, 0x118e0, 0x11950, 0x11c50, 0x11d50, 0x11da0, 0x16a60, 0x16ac0,
    0x16b50, 0x1d7ce, 0x1d7d8, 0x1d7e2, 0x1d7ec, 0x1d7f6, 0x1e140, 0x1e2f0, 0x1e950, 0x1fbf0]

/-- The value of a decimal digit. -/
def digitValue? (character : Char) : Option Nat :=
  (digitZeros.find? fun start ↦ start ≤ character.toNat && character.toNat < start + 10).map
    fun start ↦ character.toNat - start

/-- The values of the digits of a text that holds digits with single underscores between them, at
least one digit. -/
def readDigits? : List Char → Option (List Nat)
  | [] => none
  | character :: rest =>
    match digitValue? character, rest with
    | none, _ => none
    | some value, [] => some [value]
    | some value, '_' :: later => (readDigits? later).map fun values ↦ value :: values
    | some value, next :: later =>
      (readDigits? (next :: later)).map fun values ↦ value :: values

/-- The number whose decimal digits have these values, the leading digit first. -/
def ofDigitValues (values : List Nat) : Nat :=
  values.foldl (fun number value ↦ 10 * number + value) 0

/-! ### Reading -/

/-- The greatest number of digits that a numeral may have. -/
def numeralDigitLimit : Nat :=
  4300

/-- The number that digits without a sign stand for. -/
def readNatural? (text : List Char) : Option Nat :=
  match readDigits? text with
  | none => none
  | some values =>
    if values.length ≤ numeralDigitLimit then some (ofDigitValues values) else none

/-- The number that a numeral with an optional sign stands for. -/
def readInteger? : List Char → Option Int
  | '-' :: digits => (readNatural? digits).map fun number ↦ -(number : Int)
  | '+' :: digits => (readNatural? digits).map fun number ↦ (number : Int)
  | digits => (readNatural? digits).map fun number ↦ (number : Int)

/-! ### Writing -/

/-- The decimal digits of a natural number. -/
def writeNatural (number : Nat) : List Char :=
  Nat.toDigits 10 number

/-- The decimal numeral of an integer. -/
def writeInteger : Int → List Char
  | .ofNat number => writeNatural number
  | .negSucc number => '-' :: writeNatural (number + 1)

/-- The hexadecimal digits of a number, with zeros before them up to the given width. -/
def writeHexadecimal (width number : Nat) : List Char :=
  (Nat.toDigits 16 number).leftpad width '0'

/-- The decimal numeral of an integer, as a string for use in a sentence. -/
def numeral (number : Int) : String :=
  String.ofList (writeInteger number)

/-- The number has no more digits than a numeral may have. -/
def FitsNumeral (number : Int) : Prop :=
  (writeNatural number.natAbs).length ≤ numeralDigitLimit

theorem fitsNumeral_iff (number : Int) :
    FitsNumeral number ↔ number.natAbs < Nat.pow 10 numeralDigitLimit := by
  -- The limit is any number at first, so that the power is not computed here.
  have hdigits : ∀ limit : Nat, 0 < limit →
      ((writeNatural number.natAbs).length ≤ limit ↔ number.natAbs < Nat.pow 10 limit) :=
    fun limit hlimit ↦ Nat.length_toDigits_le_iff (by decide) hlimit
  exact hdigits numeralDigitLimit (by decide)

-- Numbers are compared with the least one that has too many digits, so that no digits need be
-- written to decide. The power itself is only for the kernel to compute.
@[irreducible]
instance (number : Int) : Decidable (FitsNumeral number) :=
  decidable_of_iff _ (fitsNumeral_iff number).symm

/-- The decimal numeral of an integer, unless it has too many digits. -/
def numeral? (number : Int) : Option String :=
  if FitsNumeral number then some (numeral number) else none

theorem isSome_numeral?_iff (number : Int) :
    (numeral? number).isSome = true ↔ FitsNumeral number := by
  unfold numeral?
  split <;> simp [*]

end TickEconomy.Text
