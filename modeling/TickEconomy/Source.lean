import TickEconomy.ParseError
import TickEconomy.Text.Line
import TickEconomy.Text.Utf8

/-!
# Sources of a text

A source text comes as one string, as a list of lines, or as the bytes of a file. Each form gives
the lines to be read (`Source.read`). A list of lines is taken as it is, whatever the lines hold.

The bytes of a file must be well-formed UTF-8. A file is read in portions of `filePortion` bytes,
and lines are dealt with as soon as their end is read. So the lines before the portion with a byte
that fits nowhere count, or all ended lines if only the last character is not finished, and an error
in them comes before the one about the bytes (`SourceText.settle`). Errors that show only at the end
of the text do not, as that end is never reached.
-/

set_option autoImplicit false
set_option relaxedAutoImplicit false

namespace TickEconomy

/-- The form in which a source text is given. -/
inductive Source
  /-- The whole text. -/
  | text (content : String)
  /-- The lines of the text. -/
  | lines (content : List String)
  /-- The bytes of a file that holds the text. -/
  | file (content : ByteArray)

/-- The lines that can be read of a source. -/
structure SourceText where
  /-- The lines, the first one first. -/
  lines : List (List Char)
  /-- The lines are the whole text; otherwise the bytes behind them are not UTF-8. -/
  isWhole : Bool
  deriving DecidableEq, Repr

/-- Why a source has no result. -/
inductive SourceError
  | refused (error : ParseError)
  /-- The bytes of the file are not UTF-8. -/
  | undecodable
  deriving DecidableEq, Repr

/-! ### Files -/

/-- The number of bytes that are read of a file at a time. -/
def filePortion : Nat :=
  8192

/-- The portions in which the bytes of a file are read. -/
def portions : List UInt8 → List (List UInt8)
  | [] => []
  | byte :: rest =>
    (byte :: rest).take filePortion :: portions ((byte :: rest).drop filePortion)
termination_by bytes => bytes.length
decreasing_by
  rw [List.length_drop, List.length_cons, filePortion]
  omega

/-- The lines that can be read of a file that is not UTF-8. -/
def linesBeforeDamage (bytes : List UInt8) : List (List Char) :=
  Text.endedLines (Text.decodePortions none (portions bytes))

/-! ### Reading -/

/-- The lines of a source, as far as they can be read. -/
def Source.read : Source → SourceText
  | .text content =>
    { lines := Text.cutLines Text.endsTextLine content.toList, isWhole := true }
  | .lines content => { lines := content.map String.toList, isWhole := true }
  | .file content =>
    match Text.decodeUtf8? content with
    | some decoded => { lines := Text.cutLines Text.endsFileLine decoded.toList, isWhole := true }
    | none => { lines := linesBeforeDamage content.toList, isWhole := false }

namespace SourceText

/-- What a source comes to when its lines by themselves come to the given result. -/
def settle {Result : Type} (text : SourceText) :
    Except ParseError Result → Except SourceError Result
  | .ok result => if text.isWhole then .ok result else .error .undecodable
  | .error error =>
    if text.isWhole || !error.cause.awaitsEnd then .error (.refused error)
    else .error .undecodable

/-- What a source comes to. -/
def parse {Result : Type} (text : SourceText)
    (parseLines : List (List Char) → Except ParseError Result) : Except SourceError Result :=
  text.settle (parseLines text.lines)

end SourceText

end TickEconomy
