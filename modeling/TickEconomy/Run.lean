import TickEconomy.ParseError

/-!
# Runs of a program

A run of one of the programs is a value: how it ended, what it wrote to its two outputs, and the
files it wrote (`Run`). A program is a function from what the files hold to such a value, so that
reading and writing are left to the outermost layer. A run that did not end by itself tells the
cause, such as a file that is missing (`Breakdown`).

A path names a file by the folders on the way to it, with slashes between them. Empty parts and
parts that are a single point stand for the folder reached so far; two points stand for the folder
above. `Path.normal` is the shortest spelling of a path that keeps the latter, since where two
points lead depends on the folders that there are.
-/

set_option autoImplicit false
set_option relaxedAutoImplicit false

namespace TickEconomy

/-! ### Paths -/

namespace Path

/-- What stands between the slashes of a path. -/
def parts (path : String) : List String :=
  path.splitOn "/"

/-- What stands behind the last slash of a path. -/
def lastPart (path : String) : String :=
  ((parts path).getLast?).getD ""

/-- The path begins at the root of all folders. -/
def isAbsolute (path : String) : Bool :=
  path.toList.head? == some '/'

/-- The slashes that a path begins with, in its shortest spelling. Exactly two are kept. -/
def normalRoot (path : String) : String :=
  match path.toList with
  | '/' :: '/' :: '/' :: _ => "/"
  | '/' :: '/' :: _ => "//"
  | '/' :: _ => "/"
  | _ => ""

/-- The shortest spelling of a path. -/
def normal (path : String) : String :=
  let named := (parts path).filter fun part ↦ part ≠ "" ∧ part ≠ "."
  let spelled := normalRoot path ++ "/".intercalate named
  if spelled = "" then "." else spelled

end Path

/-! ### Runs -/

/-- Why a run did not end by itself. -/
inductive Breakdown
  /-- There is no file of the name. -/
  | fileMissing (path : String)
  /-- The file is not UTF-8. -/
  | fileUndecodable (path : String)
  /-- The resources form no catalog. -/
  | catalogRefused (clash : NameClash)
  /-- A number that was to be reported or saved has too many digits. -/
  | numberTooLong
  deriving DecidableEq, Repr

/-- How a run ended. -/
inductive Ending
  /-- The run ended by itself with a code, which is zero after success. -/
  | exit (code : Nat)
  | breakdown (cause : Breakdown)
  deriving DecidableEq, Repr

/-- What a run of a program left behind. -/
structure Run where
  /-- How the run ended. -/
  ending : Ending
  /-- What the run wrote to its standard output. -/
  output : String := ""
  /-- What the run wrote to its error output. -/
  errors : String := ""
  /-- The files that the run wrote, by path, in the order of writing. The folders on the way to a
  file are made where they are missing. -/
  files : List (String × String) := []
  deriving DecidableEq, Repr

/-- What the files hold, by path. -/
abbrev FileContents :=
  String → Option ByteArray

end TickEconomy
