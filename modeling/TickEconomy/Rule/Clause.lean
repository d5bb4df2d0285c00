import TickEconomy.Block
import TickEconomy.Rule

/-!
# Clauses of rules

Each directive of a rule text is a clause of its rule: something that a round takes, adds, sets or
demands, the period, the number of rounds, or the fallback (`Clause.ofDirective`). Where a clause
names a pool, the relation may stand before the resource and is `self` otherwise, so that a clause
with a relation is one word longer than one without.
-/

set_option autoImplicit false
set_option relaxedAutoImplicit false

namespace TickEconomy

/-- What a directive says about its rule. -/
inductive Clause
  | input (specifier : Specifier)
  | output (specifier : Specifier)
  | set (specifier : Specifier)
  | condition (demand : Condition)
  | period (ticks : Nat)
  | extraRounds (count : Nat)
  | repeatFrom (pool : PoolReference)
  | fallback (target : String)
  deriving DecidableEq, Repr

namespace Clause

/-- The specifier of a relation, a resource and a quantity. -/
def specifierOf (catalog : Catalog) (directive : Directive) (relation resource quantity : String) :
    Except ParseError Specifier := do
  let found ← directive.resource catalog resource
  let number ← directive.integer "quantity" quantity
  return { relation := relation, resource := found, quantity := number }

/-- The specifier that the arguments of a directive form. -/
def readSpecifier (catalog : Catalog) (directive : Directive) : Except ParseError Specifier :=
  match directive.arguments with
  | [resource, quantity] => specifierOf catalog directive selfRelation resource quantity
  | [relation, resource, quantity] =>
    specifierOf catalog directive (Name.fold relation) resource quantity
  | _ => .error (directive.error (.specifierMalformed directive.text))

/-- The comparison that a sign stands for. -/
def comparisonOf (directive : Directive) (sign : String) : Except ParseError Comparison :=
  match Comparison.ofSign sign with
  | .unknown _ => .error (directive.error (.comparisonUnknown sign))
  | comparison => .ok comparison

/-- The condition of a relation, a resource, a sign and a quantity. -/
def conditionOf (catalog : Catalog) (directive : Directive)
    (relation resource sign quantity : String) : Except ParseError Condition := do
  let found ← directive.resource catalog resource
  let comparison ← comparisonOf directive sign
  let number ← directive.integer "quantity" quantity
  return { relation := relation, resource := found, quantity := number, comparison := comparison }

/-- The condition that the arguments of a directive form. -/
def readCondition (catalog : Catalog) (directive : Directive) : Except ParseError Condition :=
  match directive.arguments with
  | [resource, sign, quantity] =>
    conditionOf catalog directive selfRelation resource sign quantity
  | [relation, resource, sign, quantity] =>
    conditionOf catalog directive (Name.fold relation) resource sign quantity
  | _ => .error (directive.error (.conditionMalformed directive.text))

/-- The pool that a relation and a resource name as the source of a number of rounds, provided that
the word before them says so. -/
def repeatFromOf (catalog : Catalog) (directive : Directive) (word relation resource : String) :
    Except ParseError Clause :=
  if word = "using" then do
    let found ← directive.resource catalog resource
    return repeatFrom { relation := relation, resource := found }
  else .error (directive.error (.repetitionUnreadable directive.text))

/-- The number of rounds, or the pool it is taken from, that the arguments of a directive give. -/
def readRepetition (catalog : Catalog) (directive : Directive) : Except ParseError Clause :=
  match directive.arguments with
  | [count] => extraRounds <$> directive.count "repeat" count
  | [word, resource] => repeatFromOf catalog directive word selfRelation resource
  | [word, relation, resource] =>
    repeatFromOf catalog directive word (Name.fold relation) resource
  | _ => .error (directive.error (.repetitionMalformed directive.text))

/-- The clause that a directive of a rule text is. -/
def ofDirective (catalog : Catalog) (directive : Directive) : Except ParseError Clause :=
  match directive.name with
  | "in" => input <$> readSpecifier catalog directive
  | "out" => output <$> readSpecifier catalog directive
  | "set" => set <$> readSpecifier catalog directive
  | "if" => condition <$> readCondition catalog directive
  | "every" =>
    match directive.arguments with
    | [ticks] => period <$> directive.count "period" ticks
    | _ => .error (directive.error (.periodMalformed directive.text))
  | "repeat" => readRepetition catalog directive
  | "onfail" =>
    match directive.arguments with
    | [target] => .ok (fallback target)
    | _ => .error (directive.error (.fallbackMalformed directive.text))
  | name => .error (directive.error (.directiveUnknown name))

end Clause

end TickEconomy
