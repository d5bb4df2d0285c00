import TickEconomy.Simulation
import TickEconomy.Text.Numeral

/-!
# Reports

A text for a reader outside is written part by part. A part that shows a number with too many digits
cannot be written; the text then breaks off before this part, and what was written of it stays
(`Writing`).

A report shows the state of a simulation in lines: the tick and the number of agents, and then what
the world and each agent hold, each resource by its key with its quantity, in the order in which the
pools were set up (`Simulation.report`). Each line is put together before it is written, so a report
breaks off behind a whole line, and it does so just when one of its numbers has too many digits
(`Simulation.isWhole_report_iff`).
-/

set_option autoImplicit false
set_option relaxedAutoImplicit false

namespace TickEconomy

/-! ### Writing part by part -/

/-- What was written of a text. -/
structure Writing where
  /-- The parts that were written. -/
  text : String := ""
  /-- All parts of the text were written. -/
  isWhole : Bool := true
  deriving DecidableEq, Repr

namespace Writing

/-- A text in a single part, unless this part cannot be written. -/
def part : Option String → Writing
  | some text => { text := text }
  | none => { isWhole := false }

/-- The second text behind the first one. Nothing is written behind a text that breaks off. -/
def followedBy (first second : Writing) : Writing :=
  if first.isWhole then { text := first.text ++ second.text, isWhole := second.isWhole }
  else first

instance : Append Writing :=
  ⟨followedBy⟩

/-- The texts one behind the other. -/
def join (writings : List Writing) : Writing :=
  writings.foldr (· ++ ·) {}

@[simp]
theorem isWhole_part (text? : Option String) : (part text?).isWhole = text?.isSome := by
  cases text? <;> rfl

@[simp]
theorem isWhole_append (first second : Writing) :
    (first ++ second).isWhole = (first.isWhole && second.isWhole) := by
  change (followedBy first second).isWhole = _
  unfold followedBy
  cases hfirst : first.isWhole <;> simp [hfirst]

theorem text_append {first second : Writing} (h : first.isWhole = true) :
    (first ++ second).text = first.text ++ second.text := by
  change (followedBy first second).text = _
  rw [followedBy, if_pos h]

/-- Texts one behind the other are written if and only if each of them is. -/
theorem isWhole_join (writings : List Writing) :
    (join writings).isWhole = writings.all isWhole := by
  induction writings with
  | nil => rfl
  | cons writing later ih => simp only [join, List.foldr_cons, isWhole_append, List.all_cons, ← ih]

end Writing

/-! ### Reports -/

/-- What an owner holds: the quantities of the resources, filed under their keys. -/
def Ledger.holdings (ledger : Ledger) (owner : Owner) : List (String × Int) :=
  let quantities := (ledger.poolsOf owner).map fun pool ↦ (pool.resource.key, pool.quantity)
  (Table.ofEntries quantities).entries

/-- A holding in a report. -/
def holdingText? (holding : String × Int) : Option String :=
  (Text.numeral? holding.2).map fun quantity ↦ s!"{holding.1}={quantity}"

/-- The line of a report for what someone holds. -/
def holdingsLine? (name : String) (holdings : List (String × Int)) : Option String := do
  let texts ← holdings.mapM holdingText?
  let items := if texts.isEmpty then "-" else " ".intercalate texts
  return s!"  {name}: {items}\n"

theorem isSome_holdingsLine?_iff (name : String) (holdings : List (String × Int)) :
    (holdingsLine? name holdings).isSome = true ↔
      ∀ holding ∈ holdings, Text.FitsNumeral holding.2 := by
  have hitems : (holdings.mapM holdingText?).isSome = true ↔
      ∀ holding ∈ holdings, Text.FitsNumeral holding.2 := by
    induction holdings with
    | nil => simp
    | cons holding later ih =>
      rw [List.forall_mem_cons, ← Text.isSome_numeral?_iff, ← ih, List.mapM_cons, holdingText?]
      cases Text.numeral? holding.2 <;> cases later.mapM holdingText? <;> simp
  rw [← hitems, holdingsLine?]
  cases holdings.mapM holdingText? <;> simp

namespace Simulation

/-- What each agent holds, by name. -/
def agentHoldings (simulation : Simulation) : List (String × List (String × Int)) :=
  simulation.agents.map fun agent ↦ (agent.name, simulation.ledger.holdings agent.owner)

/-- The line that a report begins with. -/
def reportHeading? (simulation : Simulation) : Option String := do
  let tick ← Text.numeral? simulation.tick
  let agents ← Text.numeral? simulation.agents.length
  return s!"Tick {tick} agents={agents}\n"

/-- The report of the simulation. -/
def report (simulation : Simulation) : Writing :=
  let world := holdingsLine? "world" (simulation.ledger.holdings .world)
  let agents := simulation.agentHoldings.map fun agent ↦ holdingsLine? agent.1 agent.2
  .join ((simulation.reportHeading? :: world :: agents).map .part)

/-! ### The numbers in a report -/

/-- The quantities that the world and the agents hold. -/
def quantities (simulation : Simulation) : List Int :=
  let agents := simulation.agentHoldings.flatMap fun agent ↦ agent.2
  (simulation.ledger.holdings .world ++ agents).map Prod.snd

/-- The numbers that a report shows. -/
def reportedNumbers (simulation : Simulation) : List Int :=
  simulation.tick :: simulation.agents.length :: simulation.quantities

theorem isSome_reportHeading?_iff (simulation : Simulation) :
    simulation.reportHeading?.isSome = true ↔
      Text.FitsNumeral simulation.tick ∧ Text.FitsNumeral simulation.agents.length := by
  rw [reportHeading?, ← Text.isSome_numeral?_iff, ← Text.isSome_numeral?_iff]
  cases Text.numeral? simulation.tick <;> cases Text.numeral? simulation.agents.length <;> simp

/-- A report breaks off if and only if a number that it shows has too many digits. -/
theorem isWhole_report_iff (simulation : Simulation) :
    simulation.report.isWhole = true ↔
      ∀ number ∈ simulation.reportedNumbers, Text.FitsNumeral number := by
  rw [report, Writing.isWhole_join, List.all_map, List.all_eq_true]
  simp only [Function.comp_apply, Writing.isWhole_part, List.forall_mem_cons, List.forall_mem_map,
    isSome_reportHeading?_iff, isSome_holdingsLine?_iff, reportedNumbers, quantities,
    List.map_append, List.forall_mem_append, List.forall_mem_flatMap, and_assoc]

end Simulation

end TickEconomy
