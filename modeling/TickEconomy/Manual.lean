import TickEconomy.Run
import TickEconomy.Text.Line
import TickEconomy.Text.Utf8

/-!
# Keeping the manual up to date

A text may hold a grammar between two marks. The grammar begins on the line after the begin mark,
which must end its line, and goes on up to the first line that begins, blanks aside, with the end
mark (`beforeEndMark?`). At least one line stands between the two, though it may be blank.
`extractGrammar?` gives the grammar without the blanks around it and with one line end behind it.

A manual may mark the place for a grammar by two comments. `injectGrammar?` puts a section with the
grammar in the place of the first begin mark, the first end mark behind it and what stands between
them; the rest of the manual stays as it is. The section holds the two marks again, so that another
grammar can be put in later (`grammarSection`).

Two programs keep the grammar of the source texts in the manual up to date. One extracts the grammar
from a text that holds it and writes it to a file (`extractRun`); the other puts the grammar of a
file into the manual (`updateRun`). Both take the paths of the file to read first and of the file
to write as arguments, with defaults for those not given (`GrammarPaths`). They read any bytes, with
replacement characters for what is not UTF-8, and treat all line ends alike.
-/

set_option autoImplicit false
set_option relaxedAutoImplicit false

namespace TickEconomy.Manual

/-! ### Searching a text for a mark -/

/-- What stands before and after the first place of the mark in the text. -/
def cutAround? (mark : List Char) : List Char → Option (List Char × List Char)
  | [] => if mark.isEmpty then some ([], []) else none
  | character :: rest =>
    if mark.isPrefixOf (character :: rest) then
      some ([], (character :: rest).drop mark.length)
    else (cutAround? mark rest).map fun parts ↦ (character :: parts.1, parts.2)

/-! ### The grammar in a text -/

/-- The mark before a grammar, with the line end that must follow it. -/
def grammarBeginMark : List Char :=
  "DSL_GRAMMAR_BEGIN\n".toList

/-- The mark behind a grammar. -/
def grammarEndMark : List Char :=
  "DSL_GRAMMAR_END".toList

/-- What stands before the first line end that only blanks separate from the end mark. -/
def beforeEndMark? : List Char → Option (List Char)
  | [] => none
  | character :: rest =>
    if character = '\n' && grammarEndMark.isPrefixOf (Text.stripStart rest) then some []
    else (beforeEndMark? rest).map fun before ↦ character :: before

/-- The grammar that a text holds. -/
def extractGrammar? (text : List Char) : Option (List Char) :=
  match cutAround? grammarBeginMark text with
  | none => none
  | some (_, rest) => (beforeEndMark? rest).map fun grammar ↦ Text.strip grammar ++ ['\n']

/-! ### The grammar section of a manual -/

/-- The mark at the beginning of the section. -/
def sectionBeginMark : List Char :=
  "<!-- AUTO-GENERATED-GRAMMAR-BEGIN -->".toList

/-- The mark at the end of the section. -/
def sectionEndMark : List Char :=
  "<!-- AUTO-GENERATED-GRAMMAR-END -->".toList

/-- The section with a grammar, which stands without the blanks at its end. -/
def grammarSection (grammar : List Char) : List Char :=
  sectionBeginMark ++ "\n\n```ebnf\n".toList ++ Text.stripEnd grammar ++ "\n```\n\n".toList ++
    sectionEndMark

/-- The manual with the grammar in its section, if it has the marks of one. -/
def injectGrammar? (manual grammar : List Char) : Option (List Char) :=
  match cutAround? sectionBeginMark manual with
  | none => none
  | some (before, rest) =>
    (cutAround? sectionEndMark rest).map fun parts ↦ before ++ grammarSection grammar ++ parts.2

/-! ### Calls -/

/-- The path of the file that is read first and of the one that is written. -/
structure GrammarPaths where
  /-- The file that is read first. -/
  source : String
  /-- The file that is written. -/
  target : String
  deriving DecidableEq, Repr

/-- The paths that the arguments of a call give, the first of which is the path of the program. -/
def GrammarPaths.ofArguments (defaults : GrammarPaths) : List String → GrammarPaths
  | _ :: source :: target :: _ =>
    { source := Path.normal source, target := Path.normal target }
  | [_, source] => { defaults with source := Path.normal source }
  | _ => defaults

/-- The text that bytes stand for, with every line end as a line feed. -/
def textOf (bytes : ByteArray) : List Char :=
  Text.unifyLineEnds (Text.decodeUtf8Leniently bytes)

/-- The run that ends because a file is missing. -/
def missingRun (path : String) : Run :=
  { ending := .breakdown (.fileMissing path) }

/-! ### The two programs -/

/-- The run that extracts a grammar from the source to the target. -/
def extractRun (contents : FileContents) (paths : GrammarPaths) : Run :=
  match contents paths.source with
  | none => missingRun paths.source
  | some bytes =>
    match extractGrammar? (textOf bytes) with
    | none =>
      { ending := .exit 2
        errors := s!"[extract_dsl_grammar] ERROR: No grammar block found in {paths.source}\n" }
    | some grammar =>
      { ending := .exit 0
        output := s!"[extract_dsl_grammar] Wrote {paths.target}\n"
        files := [(paths.target, String.ofList grammar)] }

/-- The run that puts the grammar of the source into the manual, which is the target. -/
def updateRun (contents : FileContents) (paths : GrammarPaths) : Run :=
  match contents paths.source with
  | none =>
    { ending := .exit 2
      errors := s!"[update_docs] ERROR: Missing {paths.source}. " ++
        "Run extract_dsl_grammar.py first.\n" }
  | some grammar =>
    match contents paths.target with
    | none => missingRun paths.target
    | some manual =>
      match injectGrammar? (textOf manual) (textOf grammar) with
      | none =>
        { ending := .exit 3
          errors := s!"[update_docs] ERROR: Injection markers not found in {paths.target}\n" }
      | some updated =>
        { ending := .exit 0
          output := s!"[update_docs] Updated {paths.target}\n"
          files := [(paths.target, String.ofList updated)] }

end TickEconomy.Manual
