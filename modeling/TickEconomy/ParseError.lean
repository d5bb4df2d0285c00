import TickEconomy.Resource
import TickEconomy.Text.Quoted

/-!
# Errors in source texts

A resource, rule or scenario text is refused with the line at fault and the cause
(`ParseError`). Each cause is a constructor of `ParseError.Cause` with the parts of the text that
it speaks of; `ParseError.message` is the sentence shown to the user. Two causes concern rules as a
whole and are found only when all blocks are read: a fallback that is no rule of the text, and
fallbacks that lead back to a rule already tried.
-/

set_option autoImplicit false
set_option relaxedAutoImplicit false

namespace TickEconomy

/-- The sentence for a resource that is refused because of its name. -/
def NameClash.message (clash : NameClash) : String :=
  s!"duplicate resource name {Text.quoted clash.name} ({clash.holder} and {clash.newcomer})"

/-- Why a source text is refused. -/
inductive ParseError.Cause
  /-- A line closes a block where none is open. -/
  | endWithoutBlock
  /-- The line that closes a block goes on with further text. -/
  | textAfterEnd (text : String)
  /-- The text ends inside a block. -/
  | unterminatedBlock (kind name : String)
  /-- A block of a resource text is not a resource. -/
  | resourceExpected
  | resourceNameMissing
  /-- No directive of this name belongs into the block. -/
  | directiveUnknown (name : String)
  /-- A directive that gives a name gives none. -/
  | directiveTextMissing (name : String)
  | resourceNameTaken (clash : NameClash)
  /-- A word stands where a number is expected. -/
  | numberInvalid (what text : String)
  /-- A count is negative. -/
  | numberNegative (what text : String)
  /-- No resource of the catalog has the name, given in lower case. -/
  | resourceUnknown (name : String)
  /-- A block of a rule text is not a rule. -/
  | ruleExpected
  | ruleNameMissing
  | ruleDuplicate (name : String)
  | specifierMalformed (text : String)
  | conditionMalformed (text : String)
  | comparisonUnknown (text : String)
  | periodMalformed (text : String)
  /-- A repetition has no argument or too many. -/
  | repetitionMalformed (text : String)
  /-- A repetition of two or three words does not name a source. -/
  | repetitionUnreadable (text : String)
  | fallbackMalformed (text : String)
  /-- The fallback of a rule is no rule of the text. -/
  | fallbackUnknown (rule target : String)
  /-- The fallbacks along the path end at a rule of the path. -/
  | fallbackCycle (rule : String) (path : List String)
  /-- A block of a scenario text is neither the world nor an agent. -/
  | scopeExpected
  | agentNameMissing
  | agentDuplicate (name : String)
  | settingMalformed (name text : String)
  | poolMalformed (text : String)
  | rulesMissing
  | ruleUnknown (name : String)
  | relationMalformed (text : String)
  | agentUnknown (name : String)
  deriving DecidableEq, Repr

/-- Why a source text is refused, and the line at fault. -/
structure ParseError where
  /-- The number of the line, the first line being 1. -/
  line : Nat
  /-- What is wrong there. -/
  cause : ParseError.Cause
  deriving DecidableEq, Repr

/-- The error shows only at the end of the text: until then the block may still be closed, or the
missing rule or agent may follow. -/
def ParseError.Cause.awaitsEnd : ParseError.Cause → Bool
  | .unterminatedBlock _ _ => true
  | .fallbackUnknown _ _ => true
  | .fallbackCycle _ _ => true
  | .agentUnknown _ => true
  | _ => false

/-- The sentence that says what is wrong in a line. -/
def ParseError.Cause.message (place : String) : ParseError.Cause → String
  | .endWithoutBlock => s!"unexpected 'end' at {place} (no open block)"
  | .textAfterEnd text => s!"unexpected text after 'end' at {place}: {text}"
  | .unterminatedBlock kind name =>
    s!"unterminated {kind} {Text.quoted name} starting at {place}"
  | .resourceExpected => s!"unexpected token at {place} (expecting a resource to be started)"
  | .resourceNameMissing => s!"missing resource name at {place}"
  | .directiveUnknown name => s!"unknown directive at {place}: {name}"
  | .directiveTextMissing name => s!"missing text for {name} at {place}"
  | .resourceNameTaken clash => s!"{clash.message} at {place}"
  | .numberInvalid what text => s!"invalid {what} at {place}: {Text.quoted text}"
  | .numberNegative what text => s!"invalid {what} at {place}: {Text.quoted text} is negative"
  | .resourceUnknown name => s!"unknown resource at {place}: {Text.quoted name}"
  | .ruleExpected => s!"unexpected token at {place} (expecting a rule to be started)"
  | .ruleNameMissing => s!"missing rule name at {place}"
  | .ruleDuplicate name => s!"duplicate rule at {place}: {Text.quoted name}"
  | .specifierMalformed text => s!"malformed resource specifier at {place}: {text}"
  | .conditionMalformed text => s!"malformed resource condition at {place}: {text}"
  | .comparisonUnknown text => s!"unknown operator at {place}: {text}"
  | .periodMalformed text => s!"malformed every directive at {place}: {text}"
  | .repetitionMalformed text => s!"malformed repeat directive at {place}: {text}"
  | .repetitionUnreadable text => s!"malformed repeat at {place}: {text}"
  | .fallbackMalformed text => s!"malformed onfail directive at {place}: {text}"
  | .fallbackUnknown rule target => s!"{rule}: unknown onfail rule: {Text.quoted target}"
  | .fallbackCycle rule path =>
    let chain := String.intercalate " -> " path
    s!"{rule}: onfail rules form a cycle: {chain}"
  | .scopeExpected => s!"unexpected token at {place} (expecting a world or agent block)"
  | .agentNameMissing => s!"missing agent name at {place}"
  | .agentDuplicate name => s!"duplicate agent at {place}: {Text.quoted name}"
  | .settingMalformed name text => s!"malformed {name} directive at {place}: {text}"
  | .poolMalformed text => s!"malformed pool directive at {place}: {text}"
  | .rulesMissing => s!"malformed rules directive at {place}: rules needs at least one name"
  | .ruleUnknown name => s!"unknown rule at {place}: {Text.quoted name}"
  | .relationMalformed text => s!"malformed relation directive at {place}: {text}"
  | .agentUnknown name => s!"unknown agent at {place}: {Text.quoted name}"

/-- The sentence shown to the user. -/
def ParseError.message (error : ParseError) : String :=
  let number := Text.numeral error.line
  error.cause.message s!"line {number}"

end TickEconomy
