import TickEconomy.Round
import TickEconomy.Text.Quoted

/-!
# The journal

What happens while rules are evaluated is noted in a journal of events, the earliest first. Every
evaluation of a rule is an event (`Event.evaluated`); the others say why a rule did less than it
might have done. Most events show in the log as a sentence of a certain level (`Event.logLine?`).
-/

set_option autoImplicit false
set_option relaxedAutoImplicit false

namespace TickEconomy

/-- The sentence for a rule that cannot be evaluated. -/
def EvaluationError.message : EvaluationError → String
  | .poolsMissing rule role relation =>
    s!"rule {Text.quoted rule} failed: no {role.word} pool set for relation {Text.quoted relation}"
  | .comparisonUnknown rule code =>
    s!"rule {Text.quoted rule} failed: unknown operation {Text.numeral code}"

/-! ### Events -/

/-- Something that happens while rules are evaluated. -/
inductive Event
  /-- A rule, given by its handle, was due and was evaluated at a tick. -/
  | evaluated (handle : Nat) (tick : Int)
  /-- No one's pools could tell the number of rounds. -/
  | roundsUnknown (rule relation : String)
  /-- The number of rounds was taken from a pool. -/
  | roundsCounted (rule : String) (count : Int)
  /-- A round could not run. -/
  | blocked (rule : String) (shortfall : Shortfall)
  /-- A round was abandoned for want of an input. -/
  | abandoned (rule : String) (specifier : Specifier)
  /-- A fallback was tried. -/
  | fellBack (rule fallback : String)
  /-- The rules of a scope were broken off at a tick. -/
  | aborted (tick : Nat) (scope : String) (error : EvaluationError)
  deriving DecidableEq, Repr

/-- The event that an obstacle to a round is, unless the rules are broken off. -/
def Obstacle.events (rule : String) : Obstacle → List Event
  | .blocked shortfall => [.blocked rule shortfall]
  | .abandoned specifier => [.abandoned rule specifier]
  | .failed _ => []

/-! ### The log -/

/-- The weight of a sentence in the log. -/
inductive LogLevel
  | debug
  | info
  | warning
  | error
  deriving DecidableEq, Repr

/-- The word for a level. -/
def LogLevel.word : LogLevel → String
  | debug => "DEBUG"
  | info => "INFO"
  | warning => "WARNING"
  | error => "ERROR"

/-- A sentence in the log. -/
structure LogLine where
  /-- How much the sentence matters. -/
  level : LogLevel
  /-- The sentence. -/
  text : String
  deriving DecidableEq, Repr

/-- The sentence for a requirement of a rule that is not met. -/
def Shortfall.sentence (rule : String) (shortfall : Shortfall) : String :=
  let quantity := Text.numeral shortfall.quantity
  match shortfall.requirement with
  | .condition demand =>
    let wanted := Text.numeral demand.quantity
    let resource := demand.resource.singular
    s!"rule {Text.quoted rule}: cannot run for resource {resource}, {quantity} not " ++
      s!"{demand.comparison.sign} {wanted}"
  | .input specifier =>
    let wanted := Text.numeral specifier.quantity
    let resource := specifier.resource.singular
    s!"rule {Text.quoted rule}: not enough of resource {resource}, got {quantity} wanted {wanted}"

/-- How an event shows in the log, if it does. -/
def Event.logLine? : Event → Option LogLine
  | .evaluated _ _ => none
  | .roundsUnknown rule relation =>
    some
      { level := .debug
        text := s!"rule {Text.quoted rule} skipped: no repeat pool set for relation " ++
          Text.quoted relation }
  | .roundsCounted rule count =>
    some { level := .debug, text := s!"rule {Text.quoted rule} rounds: {Text.numeral count}" }
  | .blocked rule shortfall => some { level := .debug, text := shortfall.sentence rule }
  | .abandoned rule specifier =>
    some
      { level := .warning
        text := s!"rule {Text.quoted rule}: not enough {specifier.resource.singular} left in " ++
          s!"{specifier.relation} pools, round abandoned" }
  | .fellBack rule fallback =>
    some
      { level := .debug
        text := s!"rule {Text.quoted rule} failed, trying {Text.quoted fallback}" }
  | .aborted tick scope error =>
    some
      { level := .error
        text := s!"tick {Text.numeral tick}: {scope} rules aborted: {error.message}" }

/-- The sentences of a journal in the log. -/
def logLines (journal : List Event) : List LogLine :=
  journal.filterMap Event.logLine?

end TickEconomy
