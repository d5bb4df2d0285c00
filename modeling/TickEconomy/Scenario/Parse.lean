import TickEconomy.Block
import TickEconomy.Scenario

/-!
# Scenario texts

A scenario text has blocks of kind `world`, whose settings, pools and rules accumulate, and one
block of kind `agent` for each agent, under its name. A relation may name an agent that stands
later in the text, so relations are kept aside (`ScenarioDraft.pending`) and resolved when all
blocks are read; an error inside a block is therefore reported before one about a relation
(`Scenario.parse`).
-/

set_option autoImplicit false
set_option relaxedAutoImplicit false

namespace TickEconomy

/-- The capacity of a pool that is declared without a limit: the greatest number of a signed word of
64 bits. -/
def unlimitedCapacity : Int :=
  9223372036854775807

/-! ### Settings, pools and rules -/

/-- The settings with the one that a directive gives. -/
def Settings.read (settings : Settings) (directive : Directive) : Except ParseError Settings :=
  match directive.arguments with
  | [argument] => do
    let number ← directive.count directive.name argument
    if directive.name = "ticks" then return { settings with ticks := number }
    else if directive.name = "report_every" then return { settings with reportEvery := number }
    else return { settings with snapshotEvery := number }
  | _ =>
    .error (directive.error (.settingMalformed directive.name directive.argumentText))

/-- The capacity that an argument stands for. -/
def Directive.capacity (directive : Directive) (argument : String) : Except ParseError Int :=
  if Name.fold argument = "unlimited" then .ok unlimitedCapacity
  else (fun number : Nat ↦ (number : Int)) <$> directive.count "capacity" argument

/-- The pool of the owner that a directive describes. -/
def Directive.pool (directive : Directive) (catalog : Catalog) (owner : Owner) :
    Except ParseError Pool :=
  match directive.arguments with
  | [resource, capacity, quantity] => do
    let found ← directive.resource catalog resource
    let most ← directive.capacity capacity
    let held ← directive.integer "quantity" quantity
    return { owner := owner, resource := found, quantity := held, capacity := most }
  | _ => .error (directive.error (.poolMalformed directive.text))

/-- The rule that an argument names. Of several rules with the name it is the last one. -/
def Directive.rule (directive : Directive) (rules : List Rule) (argument : String) :
    Except ParseError Rule :=
  match rules.reverse.find? fun rule ↦ rule.name = argument with
  | some rule => .ok rule
  | none => .error (directive.error (.ruleUnknown argument))

/-- The rules that the arguments of a directive name. -/
def Directive.rules (directive : Directive) (rules : List Rule) : Except ParseError (List Rule) :=
  if directive.arguments.isEmpty then .error (directive.error .rulesMissing)
  else directive.arguments.mapM (directive.rule rules)

/-! ### Blocks -/

/-- A relation whose other agent is known by name only. -/
structure PendingRelation where
  /-- The name of the agent that declares the relation. -/
  agent : String
  /-- What the relation is called. -/
  relation : String
  /-- The name of the other agent. -/
  target : String
  /-- The number of the line that declares the relation. -/
  line : Nat
  deriving DecidableEq, Repr

/-- A scenario whose relations are not yet resolved. -/
structure ScenarioDraft where
  /-- The scenario without relations. -/
  scenario : Scenario := {}
  /-- The relations in the order in which they are declared. -/
  pending : List PendingRelation := []
  deriving DecidableEq, Repr

namespace ScenarioDraft

/-- The draft with what a directive says about the world. -/
def readWorld (catalog : Catalog) (rules : List Rule) (draft : ScenarioDraft)
    (directive : Directive) : Except ParseError ScenarioDraft :=
  match directive.name with
  | "ticks" | "report_every" | "snapshot_every" => do
    let settings ← draft.scenario.settings.read directive
    return { draft with scenario.settings := settings }
  | "pool" => do
    let pool ← directive.pool catalog .world
    return { draft with scenario.ledger := draft.scenario.ledger.setUp pool }
  | "rules" => do
    let named ← directive.rules rules
    return { draft with scenario.worldRules := draft.scenario.worldRules ++ named }
  | name => .error (directive.error (.directiveUnknown name))

/-- The agent and the draft with what a directive says about the agent. -/
def readAgent (catalog : Catalog) (rules : List Rule) (state : Agent × ScenarioDraft)
    (directive : Directive) : Except ParseError (Agent × ScenarioDraft) :=
  let (agent, draft) := state
  match directive.name with
  | "pool" => do
    let pool ← directive.pool catalog agent.owner
    return (agent, { draft with scenario.ledger := draft.scenario.ledger.setUp pool })
  | "rules" => do
    let named ← directive.rules rules
    return (agent.appendRules named, draft)
  | "relation" =>
    match directive.arguments with
    | [relation, target] =>
      let declared : PendingRelation :=
        { agent := agent.name
          relation := Name.fold relation
          target := target
          line := directive.line }
      .ok (agent, { draft with pending := draft.pending ++ [declared] })
    | _ => .error (directive.error (.relationMalformed directive.argumentText))
  | name => .error (directive.error (.directiveUnknown name))

/-- The draft with the agent that a block describes. -/
def addAgent (catalog : Catalog) (rules : List Rule) (draft : ScenarioDraft) (block : Block) :
    Except ParseError ScenarioDraft :=
  if block.name = "" then
    .error { line := block.line, cause := .agentNameMissing }
  else if block.name ∈ draft.scenario.agents.map Agent.name then
    .error { line := block.line, cause := .agentDuplicate block.name }
  else do
    let (agent, extended) ←
      block.directives.foldlM (readAgent catalog rules) ({ name := block.name }, draft)
    return { extended with scenario.agents := extended.scenario.agents ++ [agent] }

/-- The draft with what a block describes. -/
def addBlock (catalog : Catalog) (rules : List Rule) (draft : ScenarioDraft) (block : Block) :
    Except ParseError ScenarioDraft :=
  if block.kind = "world" then block.directives.foldlM (readWorld catalog rules) draft
  else if block.kind = "agent" then addAgent catalog rules draft block
  else .error { line := block.line, cause := .scopeExpected }

/-! ### Relations -/

/-- The scenario with a relation resolved. -/
def resolve (scenario : Scenario) (pending : PendingRelation) : Except ParseError Scenario :=
  match scenario.agent? pending.target with
  | some other =>
    .ok (scenario.changeAgent pending.agent fun agent ↦ agent.relate pending.relation other.name)
  | none => .error { line := pending.line, cause := .agentUnknown pending.target }

/-- The scenario with all relations resolved. -/
def resolveAll (draft : ScenarioDraft) : Except ParseError Scenario :=
  draft.pending.foldlM resolve draft.scenario

end ScenarioDraft

/-- The scenario that the lines of a text describe, with the given resources and rules. -/
def Scenario.parse (catalog : Catalog) (rules : List Rule) (lines : List (List Char)) :
    Except ParseError Scenario := do
  let reading := Reading.ofLines lines
  let draft ← reading.blocks.foldlM (ScenarioDraft.addBlock catalog rules) {}
  let complete ← reading.finish draft
  complete.resolveAll

end TickEconomy
