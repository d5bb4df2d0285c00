import TickEconomy.Ledger
import TickEconomy.Rule
import TickEconomy.Table

/-!
# Rounds

A rule speaks of pools by relation: its own (`self`), those of the world (`global`), those of some
agent. A context assigns owners to relations, and several relations may stand for one owner. A
relation that has no owner in the context is an error, which tells what the pools were needed for
(`Context.owner`).

A round of a rule either goes through as a whole or leaves every pool as it was. First the rule's
requirements are checked in order, its conditions and then its inputs, and the first that is not met
or cannot be decided stops the round (`RuleBody.shortfall?`). Then the owners of the pools for
outputs and sets are determined, the inputs are withdrawn one by one (`RuleBody.takeInputs`), and
when each of them was there the outputs are deposited and the sets assigned (`RuleBody.apply`).
Inputs are checked one at a time, so several of them may together ask more of a pool than it holds.
The round is then abandoned, and what was withdrawn is put back, the last withdrawal first.

`RuleBody.runRounds` goes through rounds until their number is reached or one does not go through.
-/

set_option autoImplicit false
set_option relaxedAutoImplicit false

namespace TickEconomy

/-! ### Contexts -/

/-- Whose pools each relation stands for. -/
abbrev Context :=
  Table String Owner

/-- What a rule needs the pools of a relation for. -/
inductive Role
  | precondition
  | input
  | output
  | set
  deriving DecidableEq, Repr

/-- The word for a role in messages. -/
def Role.word : Role → String
  | precondition => "precondition"
  | input => "input"
  | output => "output"
  | set => "set"

/-- Why a rule cannot be evaluated. -/
inductive EvaluationError
  /-- A relation stands for no one's pools. -/
  | poolsMissing (rule : String) (role : Role) (relation : String)
  /-- A condition compares in a way that has no meaning. -/
  | comparisonUnknown (rule : String) (code : Int)
  deriving DecidableEq, Repr

/-- The owner that a relation stands for, in the words of a rule that needs its pools. -/
def Context.owner (context : Context) (rule : String) (role : Role) (relation : String) :
    Except EvaluationError Owner :=
  match context.get? relation with
  | some owner => .ok owner
  | none => .error (.poolsMissing rule role relation)

/-! ### Requirements -/

/-- What must hold before a round. -/
inductive Requirement
  | condition (demand : Condition)
  | input (specifier : Specifier)
  deriving DecidableEq, Repr

/-- The conditions of the rule and then its inputs. -/
def RuleBody.requirements (rule : RuleBody) : List Requirement :=
  rule.preconditions.map .condition ++ rule.inputs.map .input

/-- Whether a requirement is met. -/
inductive Verdict
  | met
  /-- The pool holds a quantity that does not meet the requirement. -/
  | unmet (quantity : Int)
  | undecided (error : EvaluationError)
  deriving DecidableEq, Repr

/-- Whether the pools of a context meet a requirement of the rule. An input is met when its pool
holds as much; that an earlier input may draw on the same pool does not count. -/
def Requirement.verdict (rule : RuleBody) (context : Context) (ledger : Ledger) :
    Requirement → Verdict
  | .condition demand =>
    match context.owner rule.name .precondition demand.relation with
    | .error error => .undecided error
    | .ok owner =>
      let quantity := ledger.quantity owner demand.resource
      match demand.comparison.holds? quantity demand.quantity with
      | none => .undecided (.comparisonUnknown rule.name demand.comparison.code)
      | some true => .met
      | some false => .unmet quantity
  | .input specifier =>
    match context.owner rule.name .input specifier.relation with
    | .error error => .undecided error
    | .ok owner =>
      let quantity := ledger.quantity owner specifier.resource
      if quantity < specifier.quantity then .unmet quantity else .met

/-- A requirement that is not met. -/
structure Shortfall where
  /-- What should hold. -/
  requirement : Requirement
  /-- The quantity in the pool. -/
  quantity : Int
  deriving DecidableEq, Repr

/-- The first of the requirements that is not met, unless one before it cannot be decided. -/
def firstShortfall (rule : RuleBody) (context : Context) (ledger : Ledger) :
    List Requirement → Except EvaluationError (Option Shortfall)
  | [] => .ok none
  | requirement :: later =>
    match requirement.verdict rule context ledger with
    | .met => firstShortfall rule context ledger later
    | .unmet quantity => .ok (some { requirement := requirement, quantity := quantity })
    | .undecided error => .error error

/-- What keeps the rule from a round, if anything does. -/
def RuleBody.shortfall? (rule : RuleBody) (context : Context) (ledger : Ledger) :
    Except EvaluationError (Option Shortfall) :=
  firstShortfall rule context ledger rule.requirements

/-! ### Movements -/

/-- A specifier together with whose pools it means. -/
structure Movement where
  /-- Whose pool is concerned. -/
  owner : Owner
  /-- What is to be done to it. -/
  specifier : Specifier
  deriving DecidableEq, Repr

/-- The movements that the specifiers of the rule mean in a context. -/
def RuleBody.movements (rule : RuleBody) (context : Context) (role : Role)
    (specifiers : List Specifier) : Except EvaluationError (List Movement) :=
  specifiers.mapM fun specifier ↦ do
    let owner ← context.owner rule.name role specifier.relation
    return { owner := owner, specifier := specifier }

namespace Ledger

/-- The ledger after a movement is deposited, what does not fit being lost. -/
def depositMovement (ledger : Ledger) (movement : Movement) : Ledger :=
  (ledger.deposit movement.owner movement.specifier.resource movement.specifier.quantity).1

/-- The ledger after a movement is assigned, what does not fit being lost. -/
def assignMovement (ledger : Ledger) (movement : Movement) : Ledger :=
  (ledger.assign movement.owner movement.specifier.resource movement.specifier.quantity).1

/-- The ledger after a movement is put back. -/
def restockMovement (ledger : Ledger) (movement : Movement) : Ledger :=
  ledger.restock movement.owner movement.specifier.resource movement.specifier.quantity

end Ledger

/-! ### One round -/

/-- Why a round does not go through. -/
inductive Obstacle
  /-- A requirement is not met. -/
  | blocked (shortfall : Shortfall)
  /-- An input was no longer there when its turn came. -/
  | abandoned (specifier : Specifier)
  | failed (error : EvaluationError)
  deriving DecidableEq, Repr

namespace RuleBody

/-- The ledger after inputs of the rule are withdrawn one by one, and what stops the round if
anything does. An input that is refused some amount has those taken before it put back, of which the
latest comes first; an error puts nothing back. -/
def takeInputs (rule : RuleBody) (context : Context) (ledger : Ledger) (taken : List Movement) :
    List Specifier → Ledger × Option Obstacle
  | [] => (ledger, none)
  | specifier :: later =>
    match context.owner rule.name .input specifier.relation with
    | .error error => (ledger, some (.failed error))
    | .ok owner =>
      let withdrawal := ledger.withdraw owner specifier.resource specifier.quantity
      if 0 < withdrawal.2 then
        (taken.foldl Ledger.restockMovement withdrawal.1, some (.abandoned specifier))
      else
        rule.takeInputs context withdrawal.1 ({ owner := owner, specifier := specifier } :: taken)
          later

/-- The ledger after a round of the rule whose requirements are met, and why it does not go through
if it does not. -/
def apply (rule : RuleBody) (context : Context) (ledger : Ledger) : Ledger × Option Obstacle :=
  match rule.movements context .output rule.outputs with
  | .error error => (ledger, some (.failed error))
  | .ok outputs =>
    match rule.movements context .set rule.sets with
    | .error error => (ledger, some (.failed error))
    | .ok sets =>
      match rule.takeInputs context ledger [] rule.inputs with
      | (reached, some obstacle) => (reached, some obstacle)
      | (reduced, none) =>
        (sets.foldl Ledger.assignMovement (outputs.foldl Ledger.depositMovement reduced), none)

/-- The ledger after a round of the rule, and why it does not go through if it does not. -/
def round (rule : RuleBody) (context : Context) (ledger : Ledger) : Ledger × Option Obstacle :=
  match rule.shortfall? context ledger with
  | .error error => (ledger, some (.failed error))
  | .ok (some shortfall) => (ledger, some (.blocked shortfall))
  | .ok none => rule.apply context ledger

end RuleBody

/-! ### Several rounds -/

/-- What rounds of a rule left behind. -/
structure Rounds where
  /-- The ledger after the rounds. -/
  ledger : Ledger
  /-- The number of rounds that went through. -/
  completed : Nat
  /-- Why the next round did not go through, unless all did. -/
  obstacle : Option Obstacle
  deriving DecidableEq, Repr

/-- What up to the given number of rounds leaves behind, after others that went through. -/
def RuleBody.runRounds (rule : RuleBody) (context : Context) (ledger : Ledger) (completed : Nat) :
    Nat → Rounds
  | 0 => { ledger := ledger, completed := completed, obstacle := none }
  | remaining + 1 =>
    match rule.round context ledger with
    | (reached, none) => rule.runRounds context reached (completed + 1) remaining
    | (reached, some obstacle) =>
      { ledger := reached, completed := completed, obstacle := some obstacle }

namespace Rounds

/-- The first round could not run because a requirement was not met. -/
def isBlockedAtOnce (rounds : Rounds) : Bool :=
  match rounds.obstacle with
  | some (.blocked _) => rounds.completed == 0
  | _ => false

/-- The number of rounds that went through, unless the next one failed. -/
def outcome (rounds : Rounds) : Except EvaluationError Nat :=
  match rounds.obstacle with
  | some (.failed error) => .error error
  | _ => .ok rounds.completed

end Rounds

end TickEconomy
