import TickEconomy.Resource.Parse
import TickEconomy.Rule.Parse
import TickEconomy.Run
import TickEconomy.Scenario.Parse
import TickEconomy.Snapshot
import TickEconomy.Source

/-!
# The command line

The simulator is called with the paths of a resource, a rule and a scenario file
(`Request.ofArguments`). It reads the three in this order and stops at the first error in them;
otherwise it simulates the scenario for its number of ticks, reports and writes snapshots as often
as the settings say, and closes with a report (`CommandLine.run`). Log lines go to the error output,
those of the lowest level only when they are asked for.

The ticks, reports and snapshots are steps of a run (`CommandLine.Steps`). A number with too many
digits breaks the run off in the middle of a report or a snapshot; what was written up to there
stays.

Some things that depend on where a program runs are left out. Rules may fall back along chains of
any length, outputs and files can always be written, and a path that is to be read names a file or
nothing. A log line may show any number.
-/

set_option autoImplicit false
set_option relaxedAutoImplicit false

namespace TickEconomy

/-! ### Arguments -/

/-- What the arguments of a call ask for. -/
inductive Request
  | help
  /-- There are not three paths. -/
  | unclear
  | simulate (verbose : Bool) (resources rules scenario : String)
  deriving DecidableEq, Repr

namespace Request

/-- The argument asks for help. -/
def asksHelp (argument : String) : Bool :=
  argument == "-h" || argument == "--help"

/-- The argument asks for log lines of all levels. -/
def asksDetail (argument : String) : Bool :=
  argument == "-v" || argument == "--verbose"

/-- What the arguments behind the name of the program ask for. -/
def ofArguments (arguments : List String) : Request :=
  if arguments.any asksHelp then help
  else
    match arguments.filter fun argument ↦ !asksDetail argument with
    | [resources, rules, scenario] =>
      simulate (arguments.any asksDetail) resources rules scenario
    | _ => unclear

/-- The paths of the files that are read for a request. -/
def paths : Request → List String
  | simulate _ resources rules scenario => [resources, rules, scenario]
  | _ => []

end Request

namespace CommandLine

/-- The name of the simulator in its log, and in calls that do not give it one. -/
def simulatorName : String :=
  "rulesim"

/-- The name of the program in a call, which is the last part of a path. -/
def programName : List String → String
  | [] => simulatorName
  | path :: _ => Path.lastPart path

/-- How the program is to be called. -/
def usage (program : String) : String :=
  s!"Usage: {program} <resources> <rules> <scenario> [-v]\n"

/-! ### Loading -/

/-- Why the files cannot be simulated. -/
inductive Obstruction
  /-- One of the texts has an error. -/
  | refused (error : ParseError)
  | breakdown (cause : Breakdown)

/-- The resources, rules and scenario of the three files. -/
structure Loaded where
  /-- The resources that the texts speak of. -/
  catalog : Catalog
  /-- The rules that the scenario may name. -/
  rules : List Rule
  /-- What the simulation starts from. -/
  scenario : Scenario

/-- What a file parses to. -/
def parseFile {Result : Type} (contents : FileContents) (path : String)
    (parseLines : List (List Char) → Except ParseError Result) : Except Obstruction Result :=
  match contents path with
  | none => .error (.breakdown (.fileMissing path))
  | some bytes =>
    match (Source.file bytes).read.parse parseLines with
    | .ok result => .ok result
    | .error (.refused error) => .error (.refused error)
    | .error .undecodable => .error (.breakdown (.fileUndecodable path))

/-- What the three files describe. Handles are numbered from the given one on. -/
def load (firstHandle : Nat) (contents : FileContents)
    (resourcePath rulePath scenarioPath : String) : Except Obstruction Loaded := do
  let resources ← parseFile contents resourcePath (Resource.parse firstHandle)
  match Catalog.ofList resources with
  | .error clash => throw (.breakdown (.catalogRefused clash))
  | .ok catalog =>
    let rules ←
      parseFile contents rulePath (Rule.parse catalog (firstHandle + resources.length))
    let scenario ← parseFile contents scenarioPath (Scenario.parse catalog rules)
    return { catalog := catalog, rules := rules, scenario := scenario }

/-! ### The log -/

/-- A log line as the error output shows it, or nothing for details that are not asked for. -/
def logText (verbose : Bool) (line : LogLine) : String :=
  if line.level = .debug ∧ verbose = false then ""
  else s!"{simulatorName} - {line.level.word} - {line.text}\n"

/-- The log line for what was loaded. -/
def loadedLine (loaded : Loaded) : LogLine :=
  let resources := Text.numeral loaded.catalog.resources.length
  let rules := Text.numeral loaded.rules.length
  let agents := Text.numeral loaded.scenario.agents.length
  { level := .info, text := s!"loaded {resources} resources, {rules} rules, {agents} agents" }

/-! ### Simulating -/

/-- How far a run has come. -/
structure Progress where
  /-- The simulation after the ticks so far. -/
  simulation : Simulation
  /-- What was reported so far. -/
  output : String := ""
  /-- The log lines so far. -/
  log : List LogLine
  /-- The snapshots so far, by file name. -/
  files : List (String × String) := []

/-- Steps of a run. When one of them breaks the run off, the progress remains as it was reached. -/
abbrev Steps (Result : Type) :=
  EStateM Breakdown Progress Result

/-- Something that happens every so many ticks happens at the tick. -/
def fallsOn (every tick : Nat) : Bool :=
  decide (0 < every) && tick % every == 0

/-- Goes on only if the text was written as a whole. -/
def finish (writing : Writing) : Steps Unit :=
  unless writing.isWhole do throw .numberTooLong

/-- Goes through a further tick. -/
def step : Steps Unit :=
  modify fun progress ↦
    let tick := progress.simulation.step
    { progress with
      simulation := tick.simulation
      log := progress.log ++ logLines tick.journal }

/-- Reports the state that the run has reached. -/
def report : Steps Unit := do
  let report := (← get).simulation.report
  modify fun progress ↦ { progress with output := progress.output ++ report.text }
  finish report

/-- Saves the state that the run has reached, in a file of its own. The name of the file shows the
tick, so there is no file if the tick has too many digits. -/
def save : Steps Unit := do
  let reached := (← get).simulation
  unless Text.FitsNumeral reached.tick do throw .numberTooLong
  let name := Simulation.snapshotName reached.tick
  let snapshot := reached.snapshot.text
  modify fun progress ↦ { progress with files := progress.files ++ [(name, snapshot.text)] }
  finish snapshot

/-- Goes through a further tick, and reports and saves the state if its turn has come. -/
def advance : Steps Unit := do
  step
  let reached := (← get).simulation
  if fallsOn reached.settings.reportEvery reached.tick then report
  if fallsOn reached.settings.snapshotEvery reached.tick then save

/-- Goes through a number of further ticks. -/
def advanceBy : Nat → Steps Unit
  | 0 => return ()
  | ticks + 1 => do
    advance
    advanceBy ticks

/-- Goes through all ticks of a run, and closes with a report. -/
def goThrough (ticks : Nat) : Steps Unit := do
  advanceBy ticks
  report

/-- The progress before the first tick. -/
def Progress.start (loaded : Loaded) : Progress :=
  { simulation := Simulation.ofScenario loaded.scenario, log := [loadedLine loaded] }

/-- What the progress leaves behind when the run ends with it. -/
def Progress.leave (progress : Progress) (verbose : Bool) (ending : Ending) : Run :=
  { ending := ending
    output := progress.output
    errors := String.join (progress.log.map (logText verbose))
    files := progress.files }

/-- The run that simulates what was loaded. -/
def simulate (verbose : Bool) (loaded : Loaded) : Run :=
  match goThrough loaded.scenario.settings.ticks (Progress.start loaded) with
  | .ok _ reached => reached.leave verbose (.exit 0)
  | .error cause reached => reached.leave verbose (.breakdown cause)

/-- The run of the program on the given arguments, the first of which is its path. -/
def run (firstHandle : Nat) (contents : FileContents) (arguments : List String) : Run :=
  let program := programName arguments
  match Request.ofArguments arguments.tail with
  | .help => { ending := .exit 0, output := usage program }
  | .unclear => { ending := .exit 2, errors := usage program }
  | .simulate verbose resources rules scenario =>
    match load firstHandle contents resources rules scenario with
    | .error (.refused error) => { ending := .exit 1, errors := s!"Error: {error.message}\n" }
    | .error (.breakdown cause) => { ending := .breakdown cause }
    | .ok loaded => simulate verbose loaded

end CommandLine

end TickEconomy
