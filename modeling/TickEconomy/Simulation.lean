import TickEconomy.Batch
import TickEconomy.Scenario

/-!
# Simulations

A simulation goes through ticks. At each tick the world and then every agent in order runs a batch
of its rules, each on the pools that the one before left behind (`Simulation.step`). Each of them
has a schedule of its own, so a rule that several run is due for each at its own time. What a tick
left behind tells turn by turn what the batches did (`Tick`). A batch that breaks off is noted and
counted, and the others go on.
-/

set_option autoImplicit false
set_option relaxedAutoImplicit false

namespace TickEconomy

/-- A scenario in progress. -/
structure Simulation extends Scenario where
  /-- The number of ticks gone through. -/
  tick : Nat := 0
  /-- When the world and each agent last evaluated their rules. -/
  schedules : Table Owner Schedule := {}
  deriving DecidableEq, Repr

/-- What one turn at a tick consists of. -/
structure Scope where
  /-- Whose turn it is. -/
  owner : Owner
  /-- What it is called in messages. -/
  name : String
  /-- The rules to be run. -/
  rules : List Rule
  /-- Whose pools the relations in the rules stand for. -/
  context : Context

/-- The turn of an agent. -/
def Agent.scope (agent : Agent) : Scope :=
  { owner := agent.owner
    name := agent.name
    rules := agent.rules
    context := agent.context true }

/-- A turn at a tick and the batch that was run in it. -/
structure Turn where
  /-- Whose turn it was. -/
  scope : Scope
  /-- What its rules left behind. -/
  batch : Batch

/-- What the journal says about a turn at a tick. -/
def Turn.journal (tick : Nat) (turn : Turn) : List Event :=
  match turn.batch.error with
  | none => turn.batch.journal
  | some error => turn.batch.journal ++ [.aborted tick turn.scope.name error]

/-- What a tick left behind. -/
structure Tick where
  /-- The simulation after the tick. -/
  simulation : Simulation
  /-- The turns of the world and of the agents, in order. -/
  turns : List Turn

namespace Tick

/-- The number of batches that were broken off. -/
def failures (tick : Tick) : Nat :=
  tick.turns.countP fun turn ↦ turn.batch.error.isSome

/-- What happened at the tick, the earliest first. -/
def journal (tick : Tick) : List Event :=
  tick.turns.flatMap (Turn.journal tick.simulation.tick)

end Tick

namespace Simulation

/-- The simulation of a scenario before the first tick. -/
def ofScenario (scenario : Scenario) : Simulation :=
  { toScenario := scenario }

/-- The turn of the world. -/
def worldScope (simulation : Simulation) : Scope :=
  { owner := .world
    name := "world"
    rules := simulation.worldRules
    context := Context.ofWorld }

/-- The turns at a tick, in order. -/
def scopes (simulation : Simulation) : List Scope :=
  simulation.worldScope :: simulation.agents.map Agent.scope

/-- The schedule that an owner's rules run by. -/
def scheduleOf (simulation : Simulation) (owner : Owner) : Schedule :=
  (simulation.schedules.get? owner).getD {}

/-- The batch of one turn. -/
def batch (simulation : Simulation) (scope : Scope) : Batch :=
  runBatch scope.context simulation.tick (simulation.scheduleOf scope.owner) simulation.ledger
    scope.rules

/-- The simulation after the batch of one turn. -/
def afterBatch (simulation : Simulation) (scope : Scope) (batch : Batch) : Simulation :=
  { simulation with
    ledger := batch.ledger
    schedules := simulation.schedules.put scope.owner batch.schedule }

/-- What the given turns leave behind. -/
def runScopes (simulation : Simulation) : List Scope → Tick
  | [] => { simulation := simulation, turns := [] }
  | scope :: later =>
    let batch := simulation.batch scope
    let rest := (simulation.afterBatch scope batch).runScopes later
    { rest with turns := { scope := scope, batch := batch } :: rest.turns }

/-- What the next tick leaves behind. -/
def step (simulation : Simulation) : Tick :=
  let begun := { simulation with tick := simulation.tick + 1 }
  begun.runScopes begun.scopes

end Simulation

end TickEconomy
