import TickEconomy.Round

/-!
# Agents and scenarios

An agent is a person, a building or a town: something that holds pools and runs rules. It is known
by its name, under which the ledger keeps its pools. Its relations name other agents, whose pools
its rules may use; each relation has one agent, and relations keep the order in which they were
first declared. In the context of an agent's rules a declared relation comes before the agent's own
pools and those of the world, also when it is called `self` or `global` (`Agent.context`).

A scenario is what a simulation starts from: the settings of a run, the rules of the world, the
agents with their rules and relations, and the pools of all of them. A host may also build one step
by step, by putting agents in and changing them (`Scenario.putAgent`, `Scenario.changeAgent`).
-/

set_option autoImplicit false
set_option relaxedAutoImplicit false

namespace TickEconomy

/-! ### Agents -/

/-- Something that holds pools and runs rules. -/
structure Agent where
  /-- What the agent is known by. -/
  name : String
  /-- What the agent does at every tick, in order. -/
  rules : List Rule := []
  /-- The names of the agents that it is related to. -/
  relations : Table String String := {}
  deriving DecidableEq, Repr

/-- The context of the world's rules: its own pools, under two relations. -/
def Context.ofWorld : Context :=
  (({} : Context).put selfRelation .world).put globalRelation .world

/-- The context with the relations declared to agents, which come before those that it has. -/
def Context.relate (context : Context) (relations : Table String String) : Context :=
  relations.entries.foldl (fun reached entry ↦ reached.put entry.1 (.agent entry.2)) context

namespace Agent

/-- The owner that the ledger keeps the agent's pools under. -/
def owner (agent : Agent) : Owner :=
  .agent agent.name

/-- The context of the agent's rules, with or without the pools of the world. -/
def context (agent : Agent) (withWorld : Bool) : Context :=
  let own := ({} : Context).put selfRelation agent.owner
  let surrounded := if withWorld then own.put globalRelation .world else own
  Context.relate surrounded agent.relations

/-- The agent with further rules after its own. -/
def appendRules (agent : Agent) (rules : List Rule) : Agent :=
  { agent with rules := agent.rules ++ rules }

/-- The agent with further rules before its own. -/
def prependRules (agent : Agent) (rules : List Rule) : Agent :=
  { agent with rules := rules ++ agent.rules }

/-- The agent with a relation to another one. -/
def relate (agent : Agent) (relation other : String) : Agent :=
  { agent with relations := agent.relations.put relation other }

end Agent

/-! ### Scenarios -/

/-- How long a run lasts and how often it reports. A number of zero ticks means never. -/
structure Settings where
  /-- The number of ticks of a run. -/
  ticks : Nat := 100
  /-- The number of ticks from one report to the next. -/
  reportEvery : Nat := 10
  /-- The number of ticks from one snapshot to the next. -/
  snapshotEvery : Nat := 0
  deriving DecidableEq, Repr

/-- What a simulation starts from. -/
structure Scenario where
  /-- How long a run lasts and how often it reports. -/
  settings : Settings := {}
  /-- What the world does at every tick, in order. -/
  worldRules : List Rule := []
  /-- The agents in the order of their turns. -/
  agents : List Agent := []
  /-- The pools of the world and of the agents. -/
  ledger : Ledger := {}
  deriving DecidableEq, Repr

namespace Scenario

/-- The agent of the name. -/
def agent? (scenario : Scenario) (name : String) : Option Agent :=
  scenario.agents.find? fun agent ↦ agent.name = name

/-- The scenario with a change made to the agent of the name. -/
def changeAgent (scenario : Scenario) (name : String) (made : Agent → Agent) : Scenario :=
  { scenario with
    agents := scenario.agents.map fun agent ↦ if agent.name = name then made agent else agent }

/-- The scenario with a new agent that has nothing as yet: in the place of the agent of that name if
there is one, at the end otherwise. -/
def putAgent (scenario : Scenario) (name : String) : Scenario :=
  let emptied : Ledger :=
    { pools := scenario.ledger.pools.filter fun pool ↦ pool.owner ≠ .agent name }
  match scenario.agent? name with
  | some _ => { scenario.changeAgent name fun _ ↦ { name := name } with ledger := emptied }
  | none =>
    { scenario with agents := scenario.agents ++ [{ name := name }], ledger := emptied }

end Scenario

end TickEconomy
