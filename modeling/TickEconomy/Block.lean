import TickEconomy.ParseError

/-!
# Blocks of a source text

Resource, rule and scenario texts have one form: blocks of lines, each opened by a line with a kind
and a name and closed by the line `end`, with directives between them. Blanks around a line do not
count, and empty lines and lines that begin with `#` are passed over; the lines that remain are the
statements of the text (`Statement.ofLines`).

`Reading.ofStatements` collects the statements into blocks. A text may be faulty: a line closes a
block where none is open, goes on behind the word `end`, or is missing. The reading then holds the
blocks before the fault and the fault itself, so that a fault inside one of these blocks can be
reported first (`Reading.finish`).

What directives of rule and scenario texts have in common are their arguments: a whole number
(`Directive.integer`), a count, which must not be negative (`Directive.count`), or the name of a
resource of the catalog (`Directive.resource`). An argument that is none of it is an error in the
line of the directive.
-/

set_option autoImplicit false
set_option relaxedAutoImplicit false

namespace TickEconomy

/-- One line inside a block. -/
structure Directive where
  /-- The first word of the line. -/
  name : String
  /-- What follows the first word. -/
  argumentText : String
  /-- The words that follow the first word. -/
  arguments : List String
  /-- The number of the line. -/
  line : Nat
  deriving DecidableEq, Repr

/-- The directive as a message shows it. -/
def Directive.text (directive : Directive) : String :=
  s!"{directive.name} {directive.argumentText}"

/-- The directives between an opening and a closing line. -/
structure Block where
  /-- The first word of the opening line. -/
  kind : String
  /-- What follows the first word of the opening line. -/
  name : String
  /-- The number of the opening line. -/
  line : Nat
  /-- The lines of the block, the first one first. -/
  directives : List Directive
  deriving DecidableEq, Repr

/-! ### Statements -/

/-- A line that is neither empty nor a comment. -/
structure Statement where
  /-- The number of the line. -/
  line : Nat
  /-- The first word. -/
  word : String
  /-- What follows the first word, without the blanks around it. -/
  rest : List Char
  deriving DecidableEq, Repr

namespace Statement

/-- The statement of a line, unless it is empty or a comment. -/
def ofLine? (number : Nat) (line : List Char) : Option Statement :=
  match Text.strip line with
  | [] => none
  | '#' :: _ => none
  | text =>
    some
      { line := number
        word := String.ofList (Text.firstWord text)
        rest := Text.afterFirstWord text }

/-- The statements of the lines, which are numbered from the given number on. -/
def ofLinesFrom (number : Nat) : List (List Char) → List Statement
  | [] => []
  | line :: later =>
    match ofLine? number line with
    | none => ofLinesFrom (number + 1) later
    | some statement => statement :: ofLinesFrom (number + 1) later

/-- The statements of the lines of a text. -/
def ofLines (lines : List (List Char)) : List Statement :=
  ofLinesFrom 1 lines

/-- The statement closes a block. -/
def isEnd (statement : Statement) : Bool :=
  statement.word == "end"

/-- The block that the statement opens, without directives as yet. -/
def opened (statement : Statement) : Block :=
  { kind := statement.word
    name := String.ofList statement.rest
    line := statement.line
    directives := [] }

/-- The directive that the statement is inside a block. -/
def directive (statement : Statement) : Directive :=
  { name := statement.word
    argumentText := String.ofList statement.rest
    arguments := (Text.words statement.rest).map String.ofList
    line := statement.line }

end Statement

/-! ### Readings -/

/-- The blocks of a text, up to its first fault. -/
structure Reading where
  /-- The blocks that are closed before the fault, the first one first. -/
  blocks : List Block
  /-- The fault, if there is one. -/
  fault : Option ParseError
  deriving DecidableEq, Repr

namespace Reading

/-- The reading with a block before its blocks. -/
def prepend (block : Block) (reading : Reading) : Reading :=
  { reading with blocks := block :: reading.blocks }

/-- No blocks but a fault. -/
def faulty (line : Nat) (cause : ParseError.Cause) : Reading :=
  { blocks := [], fault := some { line := line, cause := cause } }

/-- The blocks of the statements behind a block that is open or behind none. -/
def ofStatementsFrom : Option Block → List Statement → Reading
  | none, [] => { blocks := [], fault := none }
  | some block, [] => faulty block.line (.unterminatedBlock block.kind block.name)
  | none, statement :: later =>
    if statement.isEnd then faulty statement.line .endWithoutBlock
    else ofStatementsFrom (some statement.opened) later
  | some block, statement :: later =>
    if statement.isEnd then
      if statement.rest.isEmpty then prepend block (ofStatementsFrom none later)
      else faulty statement.line (.textAfterEnd (String.ofList statement.rest))
    else
      ofStatementsFrom
        (some { block with directives := block.directives ++ [statement.directive] }) later

/-- The blocks of the lines of a text. -/
def ofLines (lines : List (List Char)) : Reading :=
  ofStatementsFrom none (Statement.ofLines lines)

/-- A result of all the blocks stands only if the text has no fault. -/
def finish {Result : Type} (reading : Reading) (result : Result) : Except ParseError Result :=
  match reading.fault with
  | some error => .error error
  | none => .ok result

/-- What a reading finishes with is the result given, and the text has no fault. -/
theorem finish_eq_ok_iff {Result : Type} {reading : Reading} {result finished : Result} :
    reading.finish result = .ok finished ↔ reading.fault = none ∧ result = finished := by
  unfold finish
  cases reading.fault with
  | some error => simp
  | none => simp

end Reading

/-! ### Arguments of directives -/

namespace Directive

/-- The error in the line of the directive. -/
def error (directive : Directive) (cause : ParseError.Cause) : ParseError :=
  { line := directive.line, cause := cause }

/-- The whole number that an argument stands for. The error says what the number is for. -/
def integer (directive : Directive) (what argument : String) : Except ParseError Int :=
  match Text.readInteger? argument.toList with
  | some number => .ok number
  | none => .error (directive.error (.numberInvalid what argument))

/-- The count that an argument stands for. The error says what the count is for. -/
def count (directive : Directive) (what argument : String) : Except ParseError Nat := do
  match ← directive.integer what argument with
  | .ofNat number => .ok number
  | .negSucc _ => .error (directive.error (.numberNegative what argument))

/-- The resource that an argument names. -/
def resource (directive : Directive) (catalog : Catalog) (argument : String) :
    Except ParseError Resource :=
  match catalog.find? argument with
  | some resource => .ok resource
  | none => .error (directive.error (.resourceUnknown (Name.fold argument)))

end Directive

end TickEconomy
