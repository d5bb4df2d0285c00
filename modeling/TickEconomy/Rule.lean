import TickEconomy.Resource

/-!
# Rules

A rule turns resources into others. In one round it takes its inputs, adds its outputs and sets
what is to be set, provided that its conditions hold and its inputs are there. Every one of these
names a relation, which tells whose pools are meant, a resource and a quantity (`Specifier`,
`Condition`). When it is due, every so many ticks, a rule goes through one round and a number of
extra rounds, or through as many rounds as some pool holds units (`RuleBody.repeatFrom`).

A rule may have a fallback, a rule that is tried in its stead when its first round cannot run.
The fallback may have one in turn, so a rule is its own body with the bodies of its fallbacks in
the order in which they are tried (`Rule`). Rules are told apart by their handles;
`Rule.hasSameTerms` compares them by everything else.
-/

set_option autoImplicit false
set_option relaxedAutoImplicit false

namespace TickEconomy

/-! ### Comparisons -/

/-- How a condition compares the quantity in a pool with its own. -/
inductive Comparison
  | equal
  | greater
  | greaterOrEqual
  | less
  | lessOrEqual
  /-- A comparison that has no meaning, under a number of its own. -/
  | unknown (code : Int)
  deriving DecidableEq, Repr

namespace Comparison

/-- The number of a comparison. -/
def code : Comparison → Int
  | equal => 0
  | greater => 1
  | greaterOrEqual => 2
  | less => 3
  | lessOrEqual => 4
  | unknown code => code

/-- The comparison with a number. -/
def ofCode (code : Int) : Comparison :=
  if code = 0 then equal
  else if code = 1 then greater
  else if code = 2 then greaterOrEqual
  else if code = 3 then less
  else if code = 4 then lessOrEqual
  else unknown code

/-- The sign that a comparison is written with. -/
def sign : Comparison → String
  | equal => "="
  | greater => ">"
  | greaterOrEqual => ">="
  | less => "<"
  | lessOrEqual => "<="
  | unknown _ => "?"

/-- The comparison that a sign stands for, or the unknown one under the number -1. -/
def ofSign (sign : String) : Comparison :=
  if sign = "=" then equal
  else if sign = ">" then greater
  else if sign = "<" then less
  else if sign = ">=" then greaterOrEqual
  else if sign = "<=" then lessOrEqual
  else unknown (-1)

/-- Whether a quantity compares as it should with the wanted one; a comparison without a meaning
gives no answer. -/
def holds? (comparison : Comparison) (quantity wanted : Int) : Option Bool :=
  match comparison with
  | equal => some (quantity == wanted)
  | greater => some (decide (wanted < quantity))
  | greaterOrEqual => some (decide (wanted ≤ quantity))
  | less => some (decide (quantity < wanted))
  | lessOrEqual => some (decide (quantity ≤ wanted))
  | unknown _ => none

end Comparison

/-! ### The terms of a rule -/

/-- The relation of whoever runs a rule to itself. -/
def selfRelation : String :=
  "self"

/-- The relation of whoever runs a rule to the world. -/
def globalRelation : String :=
  "global"

/-- A quantity of a resource in the pools of a relation. -/
structure Specifier where
  /-- Whose pools are meant. -/
  relation : String
  /-- What is moved or compared. -/
  resource : Resource
  /-- How much of it. -/
  quantity : Int
  deriving DecidableEq, Repr

/-- A demand on the quantity in a pool. -/
structure Condition extends Specifier where
  /-- How the quantity in the pool compares with that of the specifier. -/
  comparison : Comparison
  deriving DecidableEq, Repr

/-- A resource in the pools of a relation. -/
structure PoolReference where
  /-- Whose pools are meant. -/
  relation : String
  /-- The resource that the pool holds. -/
  resource : Resource
  deriving DecidableEq, Repr

/-- A rule without its fallbacks. -/
structure RuleBody where
  /-- What tells the rule from every other one. -/
  handle : Nat
  /-- The name of the rule. -/
  name : String
  /-- The number of ticks from one evaluation to the next; a rule of period zero is evaluated only
  as a fallback. -/
  period : Int := 1
  /-- What must hold before a round. -/
  preconditions : List Condition := []
  /-- What a round takes. -/
  inputs : List Specifier := []
  /-- What a round adds. -/
  outputs : List Specifier := []
  /-- What a round sets. -/
  sets : List Specifier := []
  /-- The number of rounds after the first. -/
  extraRounds : Int := 0
  /-- The pool whose quantity is the number of rounds. -/
  repeatFrom : Option PoolReference := none
  deriving DecidableEq, Repr

/-- A rule with its fallbacks. -/
structure Rule extends RuleBody where
  /-- The rules tried in turn, each when the first round of the one before cannot run. -/
  fallbacks : List RuleBody := []
  deriving DecidableEq, Repr

namespace Rule

/-- The rule and its fallbacks, in the order in which they are tried. -/
def bodies (rule : Rule) : List RuleBody :=
  rule.toRuleBody :: rule.fallbacks

/-- The rule with the given bodies, the first being its own. -/
def ofBodies (body : RuleBody) (fallbacks : List RuleBody) : Rule :=
  { toRuleBody := body, fallbacks := fallbacks }

/-- The rule that is tried when the first round of this one cannot run. -/
def fallback? (rule : Rule) : Option Rule :=
  match rule.fallbacks with
  | [] => none
  | body :: later => some (ofBodies body later)

end Rule

/-! ### Comparing rules -/

/-- The two speak of the same quantity of the same resource in the pools of the same relation. -/
def Specifier.isSame (first second : Specifier) : Bool :=
  first.relation == second.relation && first.resource.isSame second.resource &&
    first.quantity == second.quantity

/-- The two make the same demand. -/
def Condition.isSame (first second : Condition) : Bool :=
  first.toSpecifier.isSame second.toSpecifier && first.comparison == second.comparison

/-- The two name the same resource in the pools of the same relation. -/
def PoolReference.isSame (first second : PoolReference) : Bool :=
  first.relation == second.relation && first.resource.isSame second.resource

/-- The two pools that numbers of rounds are taken from are the same, or there are none. -/
def PoolReference.isSameOrNone : Option PoolReference → Option PoolReference → Bool
  | none, none => true
  | some first, some second => first.isSame second
  | _, _ => false

/-- The two bodies agree in everything but the handle. -/
def RuleBody.hasSameTerms (first second : RuleBody) : Bool :=
  first.name == second.name && first.period == second.period &&
    first.preconditions.isEqv second.preconditions Condition.isSame &&
    first.inputs.isEqv second.inputs Specifier.isSame &&
    first.outputs.isEqv second.outputs Specifier.isSame &&
    first.sets.isEqv second.sets Specifier.isSame &&
    first.extraRounds == second.extraRounds &&
    PoolReference.isSameOrNone first.repeatFrom second.repeatFrom

/-- The two rules and their fallbacks agree in everything but the handles. -/
def Rule.hasSameTerms (first second : Rule) : Bool :=
  first.bodies.isEqv second.bodies RuleBody.hasSameTerms

end TickEconomy
