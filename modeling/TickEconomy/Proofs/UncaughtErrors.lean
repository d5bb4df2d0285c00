import TickEconomy.Proofs.CommandLineRun

/-!
# Nothing raised in a run is left uncaught

Several steps of a run look something up that might not be there: the sign of a comparison that is
to be shown, the schedule of an agent whose turn it is, the pools of a relation. What such a step
raises ends the run unless something catches it. `Raising.run` is the run of the program with every
such step in its place, together with the two things that catch: a turn catches that a rule cannot
be evaluated, and the program catches errors in the texts. What was changed before something was
raised stays changed.

Step for step this comes to what the run without these steps comes to (`Raising.run_eq`). So nothing
is left uncaught but what is wrong with a file as such, and a number with too many digits that was
to be shown. When the files are there and are UTF-8, and the numbers have few enough digits, every
run ends by itself (`CommandLine.run_raises_nothing`).
-/

set_option autoImplicit false
set_option relaxedAutoImplicit false

namespace TickEconomy

/-! ### Raising -/

/-- Something that is raised and is no error in a text. -/
inductive Raised
  | evaluation (error : EvaluationError)
  /-- A comparison that has no sign was to be shown. -/
  | signMissing (comparison : Comparison)
  /-- It was the turn of an agent that has no schedule. -/
  | scheduleMissing (agent : String)
  /-- A tick was to be divided by zero. -/
  | zeroDivision
  | breakdown (cause : Breakdown)
  deriving DecidableEq

/-- Steps on a state. When something is raised, the state remains as it was reached. -/
abbrev Raising (State Result : Type) :=
  EStateM Raised State Result

namespace Raising

variable {State Part Result : Type}

/-- What steps come to, with the state they lead to changed. -/
def mapState (change : Part → State) :
    EStateM.Result Raised Part Result → EStateM.Result Raised State Result
  | .ok result reached => .ok result (change reached)
  | .error raised reached => .error raised (change reached)

/-- Steps on a part of the state. -/
def within (look : State → Part) (put : State → Part → State) (steps : Raising Part Result) :
    Raising State Result := fun state ↦
  mapState (put state) (steps (look state))

/-- What is done at the end is done whatever comes of the steps before it. -/
theorem finally_modify (steps : Raising State Result) (change : State → State) (state : State) :
    (tryFinally steps (modify change) : Raising State Result) state =
      mapState change (steps state) := by
  cases h : steps state <;>
    simp only [tryFinally, tryFinally', Functor.map, EStateM.map, h] <;> rfl

/-! ### Rounds -/

/-- Looks up the sign of a comparison. -/
def sign : Comparison → Raising State String
  | .unknown code => throw (.signMissing (.unknown code))
  | comparison => return comparison.sign

/-- Looks up what the sentence about a shortfall shows. -/
def sentence (shortfall : Shortfall) : Raising State Unit := do
  match shortfall.requirement with
  | .condition demand => let _ ← sign demand.comparison
  | .input _ => return ()

/-- The first of the requirements that is not met. -/
def firstShortfall (rule : RuleBody) (context : Context) :
    List Requirement → Raising Ledger (Option Shortfall)
  | [] => return none
  | requirement :: later => do
    match requirement.verdict rule context (← get) with
    | .met => firstShortfall rule context later
    | .unmet quantity =>
      let shortfall : Shortfall := { requirement := requirement, quantity := quantity }
      sentence shortfall
      return some shortfall
    | .undecided error => throw (.evaluation error)

/-- A round whose requirements are met, with what stops it if anything does. -/
def apply (rule : RuleBody) (context : Context) : Raising Ledger (Option Obstacle) := fun ledger ↦
  match rule.apply context ledger with
  | (reached, some (.failed error)) => .error (.evaluation error) reached
  | (reached, obstacle) => .ok obstacle reached

/-- Up to the given number of rounds, after others that went through. -/
def runRounds (rule : RuleBody) (context : Context) (completed : Nat) :
    Nat → Raising Ledger Rounds
  | 0 => return { ledger := ← get, completed := completed, obstacle := none }
  | remaining + 1 => do
    match ← firstShortfall rule context rule.requirements with
    | some shortfall =>
      return { ledger := ← get, completed := completed, obstacle := some (.blocked shortfall) }
    | none =>
      match ← apply rule context with
      | some obstacle =>
        return { ledger := ← get, completed := completed, obstacle := some obstacle }
      | none => runRounds rule context (completed + 1) remaining

/-- The rounds that the rule makes. -/
def evaluate (rule : RuleBody) (context : Context) : Raising Ledger Rounds := do
  runRounds rule context 0 ((rule.roundCount? context (← get)).getD 0).toNat

/-- A comparison that gives an answer has a sign. -/
theorem sign_eq_ok {comparison : Comparison} {quantity wanted : Int} {answer : Bool}
    (h : comparison.holds? quantity wanted = some answer) (state : State) :
    sign comparison state = .ok comparison.sign state := by
  cases comparison with
  | unknown code => cases h
  | _ => rfl

/-- What the sentence about an unmet requirement shows is there. -/
theorem sentence_eq_ok {rule : RuleBody} {context : Context} {ledger : Ledger}
    {requirement : Requirement} {quantity : Int}
    (h : requirement.verdict rule context ledger = .unmet quantity) (state : State) :
    sentence { requirement := requirement, quantity := quantity } state = .ok () state := by
  cases requirement with
  | input specifier => rfl
  | condition demand =>
    simp only [Requirement.verdict] at h
    split at h
    · cases h
    · split at h
      · cases h
      · cases h
      · next hholds => exact steps_bind_of_ok (sign_eq_ok hholds state)

theorem firstShortfall_eq (rule : RuleBody) (context : Context) (ledger : Ledger)
    (requirements : List Requirement) :
    firstShortfall rule context requirements ledger =
      match TickEconomy.firstShortfall rule context ledger requirements with
      | .ok shortfall => .ok shortfall ledger
      | .error error => .error (.evaluation error) ledger := by
  induction requirements with
  | nil => rfl
  | cons requirement later ih =>
    rw [firstShortfall, TickEconomy.firstShortfall, steps_get_bind]
    cases hverdict : requirement.verdict rule context ledger with
    | met => exact ih
    | unmet quantity => exact steps_bind_of_ok (sentence_eq_ok hverdict ledger)
    | undecided error => rfl

/-- What rounds come to: an error in them is raised. -/
def ofRounds (rounds : Rounds) : EStateM.Result Raised Ledger Rounds :=
  match rounds.outcome with
  | .ok _ => .ok rounds rounds.ledger
  | .error error => .error (.evaluation error) rounds.ledger

theorem runRounds_eq (rule : RuleBody) (context : Context) (ledger : Ledger)
    (completed remaining : Nat) :
    runRounds rule context completed remaining ledger =
      ofRounds (rule.runRounds context ledger completed remaining) := by
  induction remaining generalizing ledger completed with
  | zero => rfl
  | succ remaining ih =>
    have hfirst := firstShortfall_eq rule context ledger rule.requirements
    rw [runRounds, RuleBody.runRounds, RuleBody.round, RuleBody.shortfall?]
    cases hshortfall : TickEconomy.firstShortfall rule context ledger rule.requirements with
    | error error =>
      rw [hshortfall] at hfirst
      exact steps_bind_of_error hfirst
    | ok shortfall? =>
      rw [hshortfall] at hfirst
      refine (steps_bind_of_ok hfirst).trans ?_
      cases shortfall? with
      | some shortfall => rfl
      | none =>
        have happly : apply rule context ledger =
          match rule.apply context ledger with
          | (reached, some (.failed error)) => .error (.evaluation error) reached
          | (reached, obstacle) => .ok obstacle reached := rfl
        cases hround : rule.apply context ledger with
        | mk reached obstacle? =>
          rw [hround] at happly
          cases obstacle? with
          | none => exact (steps_bind_of_ok happly).trans (ih reached (completed + 1))
          | some obstacle =>
            cases obstacle with
            | failed error => exact steps_bind_of_error happly
            | blocked shortfall => exact steps_bind_of_ok happly
            | abandoned specifier => exact steps_bind_of_ok happly

theorem evaluate_eq (rule : RuleBody) (context : Context) (ledger : Ledger) :
    evaluate rule context ledger = ofRounds (rule.evaluate context ledger) :=
  runRounds_eq rule context ledger 0 _

/-! ### Attempts and batches -/

/-- What the rules of a turn work on. -/
structure TurnState where
  /-- The pools of all owners. -/
  ledger : Ledger
  /-- When the rules of the turn were last evaluated. -/
  schedule : Schedule
  /-- What happened so far, the earliest first. -/
  journal : List Event

/-- Notes events in the journal. -/
def note (events : List Event) : Raising TurnState Unit :=
  modify fun state ↦ { state with journal := state.journal ++ events }

/-- Evaluates the rule, its fallbacks aside. -/
def evaluateOnce (rule : RuleBody) (context : Context) (tick : Int) : Raising TurnState Rounds := do
  note (.evaluated rule.handle tick :: rule.roundCountEvents context (← get).ledger)
  let rounds ← within TurnState.ledger (fun state ledger ↦ { state with ledger := ledger })
    (evaluate rule context)
  note ((rounds.obstacle.map (Obstacle.events rule.name)).getD [])
  return rounds

/-- Goes through the steps if the rule is due, and remembers the tick whatever comes of them. -/
def whenDue (rule : RuleBody) (tick : Int) (steps : Raising TurnState Nat) :
    Raising TurnState Nat := do
  if (← get).schedule.isDue rule tick then
    try steps
    finally modify fun state ↦ { state with schedule := state.schedule.record rule.handle tick }
  else return 0

/-- Attempts a rule with the given fallbacks. -/
def attempt (context : Context) (tick : Int) : RuleBody → List RuleBody → Raising TurnState Nat
  | rule, [] =>
    whenDue rule tick do return (← evaluateOnce rule context tick).completed
  | rule, fallback :: later =>
    whenDue rule tick do
      let rounds ← evaluateOnce rule context tick
      if rounds.isBlockedAtOnce then
        note [.fellBack rule.name fallback.name]
        attempt context tick fallback later
      else return rounds.completed

/-- Attempts the rules in order. -/
def runRules (context : Context) (tick : Int) : List Rule → Raising TurnState Unit
  | [] => return ()
  | rule :: later => do
    if rule.period = 0 then runRules context tick later
    else
      let _ ← attempt context tick rule.toRuleBody rule.fallbacks
      runRules context tick later

/-- What an attempt comes to: the error that it ends in is raised. -/
def ofAttempt (journal : List Event) (attempt : Attempt) : EStateM.Result Raised TurnState Nat :=
  let reached : TurnState :=
    { ledger := attempt.ledger
      schedule := attempt.schedule
      journal := journal ++ attempt.journal }
  match attempt.outcome with
  | .ok completed => .ok completed reached
  | .error error => .error (.evaluation error) reached

/-- What a batch comes to: the error that breaks it off is raised. -/
def ofBatch (journal : List Event) (batch : Batch) : EStateM.Result Raised TurnState Unit :=
  let reached : TurnState :=
    { ledger := batch.ledger, schedule := batch.schedule, journal := journal ++ batch.journal }
  match batch.error with
  | none => .ok () reached
  | some error => .error (.evaluation error) reached

theorem note_eq (events : List Event) (state : TurnState) :
    note events state = .ok () { state with journal := state.journal ++ events } :=
  rfl

theorem note_bind (events : List Event) (next : Unit → Raising TurnState Result)
    (state : TurnState) :
    (note events >>= next) state =
      next () { state with journal := state.journal ++ events } :=
  rfl

theorem completed_of_outcome_eq_ok {rounds : Rounds} {completed : Nat}
    (h : rounds.outcome = .ok completed) : rounds.completed = completed := by
  unfold Rounds.outcome at h
  split at h
  · cases h
  · exact Except.ok.inj h

theorem obstacle_of_outcome_eq_error {rounds : Rounds} {error : EvaluationError}
    (h : rounds.outcome = .error error) : rounds.obstacle = some (.failed error) := by
  unfold Rounds.outcome at h
  split at h
  · next hobstacle => rw [hobstacle, Except.error.inj h]
  · cases h

section Evaluation

variable {rule : RuleBody} {context : Context} {state : TurnState}

/-- The state after an evaluation of the rule, its fallbacks aside. -/
def TurnState.evaluated (state : TurnState) (rule : RuleBody) (context : Context) (tick : Int) :
    TurnState :=
  let rounds := rule.evaluate context state.ledger
  { ledger := rounds.ledger
    schedule := state.schedule
    journal := state.journal ++ rule.evaluationJournal context tick state.ledger rounds }

theorem evaluateOnce_eq_ok {completed : Nat}
    (h : (rule.evaluate context state.ledger).outcome = .ok completed) (tick : Int) :
    evaluateOnce rule context tick state =
      .ok (rule.evaluate context state.ledger) (state.evaluated rule context tick) := by
  have hrounds := evaluate_eq rule context state.ledger
  rw [ofRounds, h] at hrounds
  rw [evaluateOnce, steps_get_bind, note_bind]
  simp only [bind, EStateM.bind, within, hrounds, mapState, note_eq, TurnState.evaluated,
    RuleBody.evaluationJournal, List.append_assoc, List.cons_append]
  rfl

theorem evaluateOnce_eq_error {error : EvaluationError}
    (h : (rule.evaluate context state.ledger).outcome = .error error) (tick : Int) :
    evaluateOnce rule context tick state =
      .error (.evaluation error) (state.evaluated rule context tick) := by
  have hrounds := evaluate_eq rule context state.ledger
  rw [ofRounds, h] at hrounds
  rw [evaluateOnce, steps_get_bind, note_bind]
  simp only [bind, EStateM.bind, within, hrounds, mapState, TurnState.evaluated,
    RuleBody.evaluationJournal, obstacle_of_outcome_eq_error h, Option.map_some, Option.getD_some,
    Obstacle.events, List.append_nil]

end Evaluation

/-- Steps that are gone through only when the rule is due. -/
theorem whenDue_eq (rule : RuleBody) (tick : Int) (steps : Raising TurnState Nat)
    (state : TurnState) :
    whenDue rule tick steps state =
      if state.schedule.isDue rule tick then
        mapState
          (fun reached ↦ { reached with schedule := reached.schedule.record rule.handle tick })
          (steps state)
      else .ok 0 state := by
  rw [whenDue, steps_get_bind]
  split
  · exact finally_modify steps _ state
  · rfl

theorem attempt_eq (context : Context) (tick : Int) (rule : RuleBody) (fallbacks : List RuleBody)
    (state : TurnState) :
    attempt context tick rule fallbacks state =
      ofAttempt state.journal
        (attemptInTurn context tick state.schedule state.ledger rule fallbacks) := by
  induction fallbacks generalizing rule state with
  | nil =>
    rw [attempt, attemptInTurn, whenDue_eq]
    split
    · rw [ofAttempt, RuleBody.attemptOfRounds]
      cases houtcome : (rule.evaluate context state.ledger).outcome with
      | ok completed =>
        rw [steps_bind_of_ok (evaluateOnce_eq_ok houtcome tick),
          completed_of_outcome_eq_ok houtcome]
        rfl
      | error error =>
        rw [steps_bind_of_error (evaluateOnce_eq_error houtcome tick)]
        rfl
    · rw [ofAttempt, Attempt.idle, List.append_nil]
  | cons fallback later ih =>
    rw [attempt, attemptInTurn, whenDue_eq]
    split
    · cases houtcome : (rule.evaluate context state.ledger).outcome with
      | ok completed =>
        rw [steps_bind_of_ok (evaluateOnce_eq_ok houtcome tick)]
        simp only
        split
        · rw [note_bind, ih]
          simp only [ofAttempt, RuleBody.attemptOfFallback, TurnState.evaluated, List.append_assoc,
            List.cons_append, List.nil_append]
          cases (attemptInTurn context tick state.schedule
            (rule.evaluate context state.ledger).ledger fallback later).outcome <;> rfl
        · rw [completed_of_outcome_eq_ok houtcome, ofAttempt, RuleBody.attemptOfRounds, houtcome]
          rfl
      | error error =>
        have hblocked : (rule.evaluate context state.ledger).isBlockedAtOnce = false := by
          rw [Rounds.isBlockedAtOnce, obstacle_of_outcome_eq_error houtcome]
        rw [steps_bind_of_error (evaluateOnce_eq_error houtcome tick)]
        simp only [hblocked]
        rw [ofAttempt, RuleBody.attemptOfRounds, houtcome]
        rfl
    · rw [ofAttempt, Attempt.idle, List.append_nil]

theorem runRules_eq (context : Context) (tick : Int) (rules : List Rule) (state : TurnState) :
    runRules context tick rules state =
      ofBatch state.journal (runBatch context tick state.schedule state.ledger rules) := by
  induction rules generalizing state with
  | nil =>
    rw [runRules, runBatch, ofBatch, List.append_nil]
    rfl
  | cons rule later ih =>
    have hattempt := attempt_eq context tick rule.toRuleBody rule.fallbacks state
    rw [runRules, runBatch]
    split
    · exact ih state
    · simp only [Rule.attempt]
      rw [ofAttempt] at hattempt
      cases houtcome : (attemptInTurn context tick state.schedule state.ledger rule.toRuleBody
        rule.fallbacks).outcome with
      | ok completed =>
        rw [houtcome] at hattempt
        rw [steps_bind_of_ok hattempt, ih]
        simp only [ofBatch, List.append_assoc]
      | error error =>
        rw [houtcome] at hattempt
        exact steps_bind_of_error hattempt

end Raising

/-! ### Turns and ticks -/

/-- The journal of turns begins with that of the first. -/
theorem Simulation.journal_runScopes_cons (simulation : Simulation) (scope : Scope)
    (later : List Scope) :
    (simulation.runScopes (scope :: later)).journal =
      Turn.journal simulation.tick { scope := scope, batch := simulation.batch scope } ++
        ((simulation.afterBatch scope (simulation.batch scope)).runScopes later).journal := by
  rw [Tick.journal, tick_runScopes, Tick.journal, tick_runScopes]
  rfl

namespace Raising

variable {State : Type}

/-- What the turns of a tick work on. -/
structure TickState where
  /-- The simulation so far. -/
  simulation : Simulation
  /-- What happened at the tick so far, the earliest first. -/
  journal : List Event

namespace TickState

/-- What the rules of an owner work on. -/
def turnOf (owner : Owner) (state : TickState) : TurnState :=
  { ledger := state.simulation.ledger
    schedule := state.simulation.scheduleOf owner
    journal := state.journal }

/-- The state after the rules of an owner have worked. -/
def withTurn (owner : Owner) (state : TickState) (turn : TurnState) : TickState :=
  { simulation :=
      { state.simulation with
        ledger := turn.ledger
        schedules := state.simulation.schedules.put owner turn.schedule }
    journal := turn.journal }

end TickState

/-- Looks up the schedule of an owner; the world always has one. -/
def schedule (scheduled : List String) : Owner → Raising TickState Unit
  | .world => return ()
  | .agent name => if name ∈ scheduled then return () else throw (.scheduleMissing name)

/-- Runs the rules of a turn and tells whether all of them could be evaluated. Nothing else that is
raised is caught. -/
def takeTurn (scheduled : List String) (scope : Scope) : Raising TickState Bool := do
  schedule scheduled scope.owner
  let tick := (← get).simulation.tick
  try
    within (TickState.turnOf scope.owner) (TickState.withTurn scope.owner)
      (runRules scope.context tick scope.rules)
    return true
  catch raised =>
    match raised with
    | .evaluation error =>
      modify fun state ↦
        { state with journal := state.journal ++ [.aborted tick scope.name error] }
      return false
    | other => throw other

/-- Takes the turns in order and tells how many of them were broken off. -/
def takeTurns (scheduled : List String) : List Scope → Raising TickState Nat
  | [] => return 0
  | scope :: later => do
    let completed ← takeTurn scheduled scope
    let failures ← takeTurns scheduled later
    return if completed then failures else failures + 1

/-- Goes through the next tick and tells how many turns were broken off at it. -/
def step (scheduled : List String) : Raising TickState Nat := do
  modify fun state ↦
    { state with simulation := { state.simulation with tick := state.simulation.tick + 1 } }
  takeTurns scheduled (← get).simulation.scopes

/-- The agents among the owners have schedules. -/
def Scheduled (scheduled : List String) (scopes : List Scope) : Prop :=
  ∀ scope ∈ scopes, ∀ name, scope.owner = .agent name → name ∈ scheduled

theorem takeTurn_eq {scheduled : List String} {scope : Scope}
    (h : ∀ name, scope.owner = .agent name → name ∈ scheduled) (state : TickState) :
    let batch := state.simulation.batch scope
    takeTurn scheduled scope state =
      .ok batch.error.isNone
        { simulation := state.simulation.afterBatch scope batch
          journal := state.journal ++
            Turn.journal state.simulation.tick { scope := scope, batch := batch } } := by
  intro batch
  have hschedule : schedule scheduled scope.owner state = .ok () state := by
    cases howner : scope.owner with
    | world => rfl
    | agent name => rw [schedule, if_pos (h name howner)]; rfl
  have hrules : within (TickState.turnOf scope.owner) (TickState.withTurn scope.owner)
      (runRules scope.context state.simulation.tick scope.rules) state =
        mapState (state.withTurn scope.owner) (ofBatch state.journal batch) :=
    congrArg _ (runRules_eq scope.context state.simulation.tick scope.rules
      (state.turnOf scope.owner))
  rw [takeTurn, steps_bind_of_ok hschedule, steps_get_bind]
  simp only [tryCatch, tryCatchThe, MonadExceptOf.tryCatch, EStateM.tryCatch, bind, EStateM.bind,
    hrules, Turn.journal, ofBatch]
  cases batch.error with
  | none => rfl
  | some error =>
    simp only [mapState, TickState.withTurn, Simulation.afterBatch, ← List.append_assoc]
    rfl

theorem takeTurns_eq {scheduled : List String} {scopes : List Scope}
    (h : Scheduled scheduled scopes) (state : TickState) :
    let tick := state.simulation.runScopes scopes
    takeTurns scheduled scopes state =
      .ok tick.failures
        { simulation := tick.simulation, journal := state.journal ++ tick.journal } := by
  induction scopes generalizing state with
  | nil =>
    simp only [Simulation.runScopes, Tick.journal, List.flatMap_nil, List.append_nil]
    rfl
  | cons scope later ih =>
    have hturn := takeTurn_eq (h scope List.mem_cons_self) state
    have hlater := ih fun other hother ↦ h other (List.mem_cons_of_mem scope hother)
    rw [takeTurns, steps_bind_of_ok hturn, steps_bind_of_ok (hlater _)]
    simp only [Simulation.failures_runScopes_cons, Simulation.simulation_runScopes_cons,
      Simulation.journal_runScopes_cons, List.append_assoc]
    cases (state.simulation.batch scope).error <;> rfl

/-- A tick raises nothing when all agents have schedules. -/
theorem step_eq {scheduled : List String} {simulation : Simulation}
    (h : Scheduled scheduled simulation.scopes) (journal : List Event) :
    step scheduled { simulation := simulation, journal := journal } =
      .ok simulation.step.failures
        { simulation := simulation.step.simulation
          journal := journal ++ simulation.step.journal } := by
  let begun : Simulation := { simulation with tick := simulation.tick + 1 }
  have hbegun : Scheduled scheduled begun.scopes := h
  exact takeTurns_eq hbegun { simulation := begun, journal := journal }

/-! ### Runs -/

open CommandLine

/-- Divides a tick and tells the remainder. -/
def remainder (tick every : Nat) : Raising State Nat :=
  if every = 0 then throw .zeroDivision else return tick % every

/-- Tells whether something that happens every so many ticks happens at the tick. -/
def fallsOn (every tick : Nat) : Raising State Bool := do
  if 0 < every then return (← remainder tick every) == 0 else return false

/-- What steps of a run come to: what breaks the run off is raised. -/
def ofResult : EStateM.Result Breakdown Progress Unit → EStateM.Result Raised Progress Unit
  | .ok _ reached => .ok () reached
  | .error cause reached => .error (.breakdown cause) reached

/-- Steps of a run. What breaks the run off is raised. -/
def ofSteps (steps : Steps Unit) : Raising Progress Unit := fun progress ↦
  ofResult (steps progress)

/-- Reports the state if it is to be reported. -/
def report : Raising Progress Unit := do
  let reached := (← get).simulation
  if ← fallsOn reached.settings.reportEvery reached.tick then ofSteps CommandLine.report

/-- Saves the state if it is to be saved. -/
def save : Raising Progress Unit := do
  let reached := (← get).simulation
  if ← fallsOn reached.settings.snapshotEvery reached.tick then ofSteps CommandLine.save

/-- Goes through a further tick, with what is reported and saved at it. -/
def advance (scheduled : List String) : Raising Progress Unit := do
  let _ ← within (fun progress : Progress ↦ { simulation := progress.simulation, journal := [] })
    (fun progress state ↦
      { progress with
        simulation := state.simulation
        log := progress.log ++ logLines state.journal })
    (step scheduled)
  report
  save

/-- Goes through a number of further ticks. -/
def advanceBy (scheduled : List String) : Nat → Raising Progress Unit
  | 0 => return ()
  | ticks + 1 => do
    advance scheduled
    advanceBy scheduled ticks

/-- Goes through all ticks of a run, and closes with a report. -/
def goThrough (scheduled : List String) (ticks : Nat) : Raising Progress Unit := do
  advanceBy scheduled ticks
  ofSteps CommandLine.report

/-- The run that simulates what was loaded. The agents of the scenario get schedules before the
first tick. -/
def simulate (verbose : Bool) (loaded : Loaded) : Except Raised Run :=
  let scheduled := loaded.scenario.agents.map Agent.name
  match goThrough scheduled loaded.scenario.settings.ticks (Progress.start loaded) with
  | .ok _ reached => .ok (reached.leave verbose (.exit 0))
  | .error raised _ => .error raised

/-- The run of the program on the given arguments, or what is raised in it and not caught. -/
def run (firstHandle : Nat) (contents : FileContents) (arguments : List String) :
    Except Raised Run :=
  let program := programName arguments
  match Request.ofArguments arguments.tail with
  | .help => .ok { ending := .exit 0, output := usage program }
  | .unclear => .ok { ending := .exit 2, errors := usage program }
  | .simulate verbose resources rules scenario =>
    match load firstHandle contents resources rules scenario with
    | .error (.refused error) => .ok { ending := .exit 1, errors := s!"Error: {error.message}\n" }
    | .error (.breakdown cause) => .error (.breakdown cause)
    | .ok loaded => simulate verbose loaded

theorem fallsOn_eq (every tick : Nat) (state : State) :
    fallsOn every tick state = .ok (CommandLine.fallsOn every tick) state := by
  rw [fallsOn, CommandLine.fallsOn]
  split
  · next hevery =>
    have hremainder : remainder tick every state = .ok (tick % every) state := by
      rw [remainder, if_neg hevery.ne']
      rfl
    rw [steps_bind_of_ok hremainder, decide_eq_true hevery, Bool.true_and]
    rfl
  · next hevery =>
    rw [decide_eq_false hevery, Bool.false_and]
    rfl

/-- Steps that come to what steps of a run come to, one behind the other. -/
theorem bind_eq_ofSteps {first : Raising Progress Unit} {second : Unit → Raising Progress Unit}
    {plainFirst : Steps Unit} {plainSecond : Unit → Steps Unit} {progress : Progress}
    (hfirst : first progress = ofSteps plainFirst progress)
    (hsecond : ∀ reached, plainFirst progress = .ok () reached →
      second () reached = ofSteps (plainSecond ()) reached) :
    (first >>= second) progress = ofSteps (plainFirst >>= plainSecond) progress := by
  rw [ofSteps] at hfirst ⊢
  cases hplain : plainFirst progress with
  | ok result reached =>
    rw [hplain] at hfirst
    rw [steps_bind_of_ok hfirst, steps_bind_of_ok hplain, hsecond reached hplain]
    rfl
  | error cause broken =>
    rw [hplain] at hfirst
    rw [steps_bind_of_error hfirst, steps_bind_of_error hplain]
    rfl

theorem report_eq (progress : Progress) :
    report progress =
      ofSteps
        (if CommandLine.fallsOn progress.simulation.settings.reportEvery progress.simulation.tick
          then CommandLine.report else pure ()) progress := by
  rw [report, steps_get_bind, steps_bind_of_ok (fallsOn_eq _ _ progress)]
  split <;> rfl

theorem save_eq (progress : Progress) :
    save progress =
      ofSteps
        (if CommandLine.fallsOn progress.simulation.settings.snapshotEvery progress.simulation.tick
          then CommandLine.save else pure ()) progress := by
  rw [save, steps_get_bind, steps_bind_of_ok (fallsOn_eq _ _ progress)]
  split <;> rfl

/-- A further tick, with what is reported and saved at it, raises nothing but what breaks the run
off. -/
theorem advance_eq {scheduled : List String} {progress : Progress}
    (h : Scheduled scheduled progress.simulation.scopes) :
    advance scheduled progress = ofSteps CommandLine.advance progress := by
  have hstep : within
      (fun progress : Progress ↦ ({ simulation := progress.simulation, journal := [] } : TickState))
      (fun progress state ↦
        { progress with
          simulation := state.simulation
          log := progress.log ++ logLines state.journal })
      (step scheduled) progress = .ok progress.simulation.step.failures progress.stepped := by
    rw [within, step_eq h []]
    rfl
  rw [advance, steps_bind_of_ok hstep, ofSteps, CommandLine.advance_eq]
  refine bind_eq_ofSteps (report_eq progress.stepped) fun reached hreached ↦ ?_
  rw [save_eq, simulation_of_report hreached]

theorem advanceBy_eq {scheduled : List String} {progress : Progress}
    (h : Scheduled scheduled progress.simulation.scopes) (ticks : Nat) :
    advanceBy scheduled ticks progress = ofSteps (CommandLine.advanceBy ticks) progress := by
  induction ticks generalizing progress with
  | zero => rfl
  | succ ticks ih =>
    refine bind_eq_ofSteps (advance_eq h) fun reached hreached ↦ ih ?_
    have hscopes : reached.simulation.scopes = progress.simulation.scopes := by
      rw [simulation_of_advance hreached]
      exact Simulation.scopes_runScopes _ _
    exact hscopes ▸ h

/-- Simulating what was loaded raises nothing that is not caught but what breaks the run off. -/
theorem simulate_eq (verbose : Bool) (loaded : Loaded) :
    simulate verbose loaded =
      match (CommandLine.simulate verbose loaded).ending with
      | .exit _ => .ok (CommandLine.simulate verbose loaded)
      | .breakdown cause => .error (.breakdown cause) := by
  have hscheduled : Scheduled (loaded.scenario.agents.map Agent.name)
      (Progress.start loaded).simulation.scopes := by
    intro scope hscope name hname
    rcases List.mem_cons.1 hscope with rfl | hscope
    · cases hname
    · obtain ⟨agent, hagent, rfl⟩ := List.mem_map.1 hscope
      exact List.mem_map.2 ⟨agent, hagent, Owner.agent.inj hname⟩
  have hsteps : goThrough (loaded.scenario.agents.map Agent.name) loaded.scenario.settings.ticks
      (Progress.start loaded) =
        ofSteps (CommandLine.goThrough loaded.scenario.settings.ticks) (Progress.start loaded) :=
    bind_eq_ofSteps (advanceBy_eq hscheduled _) fun _ _ ↦ rfl
  rw [simulate, hsteps, ofSteps, CommandLine.simulate]
  cases CommandLine.goThrough loaded.scenario.settings.ticks (Progress.start loaded) <;> rfl

/-- What is raised in a run and not caught is what the files break it down with. -/
theorem run_eq (firstHandle : Nat) (contents : FileContents) (arguments : List String) :
    run firstHandle contents arguments =
      match (CommandLine.run firstHandle contents arguments).ending with
      | .exit _ => .ok (CommandLine.run firstHandle contents arguments)
      | .breakdown cause => .error (.breakdown cause) := by
  rw [run, CommandLine.run]
  cases Request.ofArguments arguments.tail with
  | help => rfl
  | unclear => rfl
  | simulate verbose resources rules scenario =>
    cases hload : load firstHandle contents resources rules scenario with
    | error obstruction => cases obstruction <;> simp only [hload]
    | ok loaded =>
      simp only [hload]
      exact simulate_eq verbose loaded

end Raising

/-- Three paths without asking for help are a request to simulate. -/
theorem Request.ofArguments_eq_simulate {arguments : List String}
    {resourcePath rulePath scenarioPath : String}
    (hhelp : ∀ argument ∈ arguments, asksHelp argument = false)
    (hpaths : (arguments.filter fun argument ↦ !asksDetail argument) =
      [resourcePath, rulePath, scenarioPath]) :
    ofArguments arguments =
      .simulate (arguments.any asksDetail) resourcePath rulePath scenarioPath := by
  have hasked : arguments.any asksHelp = false := by
    rw [List.any_eq_false]
    exact fun argument hargument ↦ Bool.eq_false_iff.1 (hhelp argument hargument)
  simp only [ofArguments, hasked, hpaths]
  rfl

namespace CommandLine

/-- The call is to simulate what was loaded from its files. -/
def Simulates (firstHandle : Nat) (contents : FileContents) (arguments : List String)
    (loaded : Loaded) : Prop :=
  ∃ verbose resources rules scenario,
    Request.ofArguments arguments.tail = .simulate verbose resources rules scenario ∧
      load firstHandle contents resources rules scenario = .ok loaded

/-- A call that names three files is to simulate what their texts describe. -/
theorem simulates_iff {firstHandle : Nat} {contents : FileContents} {arguments : List String}
    {verbose : Bool} {resourcePath rulePath scenarioPath : String}
    {resourceLines ruleLines scenarioLines : List (List Char)}
    (hrequest : Request.ofArguments arguments.tail =
      .simulate verbose resourcePath rulePath scenarioPath)
    (hresource : FileHolds contents resourcePath resourceLines)
    (hrule : FileHolds contents rulePath ruleLines)
    (hscenario : FileHolds contents scenarioPath scenarioLines) (loaded : Loaded) :
    Simulates firstHandle contents arguments loaded ↔
      ofTexts firstHandle resourceLines ruleLines scenarioLines = .ok loaded := by
  have hload := load_of_fileHolds firstHandle hresource hrule hscenario
  constructor
  · rintro ⟨_, _, _, _, hsame, hloaded⟩
    cases hrequest.symm.trans hsame
    rw [hload] at hloaded
    cases hloading : ofTexts firstHandle resourceLines ruleLines scenarioLines with
    | error error =>
      rw [hloading] at hloaded
      cases hloaded
    | ok other =>
      rw [hloading] at hloaded
      exact congrArg _ (Except.ok.inj hloaded)
  · intro hloading
    refine ⟨verbose, resourcePath, rulePath, scenarioPath, hrequest, ?_⟩
    rw [hload, hloading]
    rfl

/-- A run whose files are there and are UTF-8 ends by itself if the numbers that it shows have few
enough digits. -/
theorem exists_ending_eq_exit {firstHandle : Nat} {contents : FileContents}
    {arguments : List String}
    (hfiles : ∀ path ∈ (Request.ofArguments arguments.tail).paths,
      ∃ lines, FileHolds contents path lines)
    (hshowable : ∀ loaded, Simulates firstHandle contents arguments loaded →
      IsShowable loaded.scenario) :
    ∃ code ∈ [0, 1, 2], (run firstHandle contents arguments).ending = .exit code := by
  cases hrequest : Request.ofArguments arguments.tail with
  | help => exact ⟨0, by decide, by simp only [run, hrequest]⟩
  | unclear => exact ⟨2, by decide, by simp only [run, hrequest]⟩
  | simulate verbose resourcePath rulePath scenarioPath =>
    rw [hrequest] at hfiles
    obtain ⟨resourceLines, hresource⟩ := hfiles resourcePath (by simp [Request.paths])
    obtain ⟨ruleLines, hrule⟩ := hfiles rulePath (by simp [Request.paths])
    obtain ⟨scenarioLines, hscenario⟩ := hfiles scenarioPath (by simp [Request.paths])
    cases hloading : ofTexts firstHandle resourceLines ruleLines scenarioLines with
    | error error =>
      exact ⟨1, by decide, congrArg Run.ending
        (run_of_refused hrequest hresource hrule hscenario hloading)⟩
    | ok loaded =>
      have hloaded := hshowable loaded
        ((simulates_iff hrequest hresource hrule hscenario loaded).2 hloading)
      refine ⟨0, by decide, ?_⟩
      rw [run_of_accepted hrequest hresource hrule hscenario hloading]
      exact (simulate_of_isShowable verbose hloaded).1

/-- A run ends by itself and raises nothing that is not caught if the files that it is called with
are there and are UTF-8, and if the numbers that it shows have few enough digits. Called with three
paths and without asking for help, it fails if and only if one of the three texts is refused. It
then shows the first error and leaves nothing else behind. -/
theorem run_raises_nothing (firstHandle : Nat) {contents : FileContents} (arguments : List String)
    (hfiles : ∀ path ∈ (Request.ofArguments arguments.tail).paths,
      ∃ lines, FileHolds contents path lines)
    (hshowable : ∀ loaded, Simulates firstHandle contents arguments loaded →
      IsShowable loaded.scenario) :
    let left := run firstHandle contents arguments
    Raising.run firstHandle contents arguments = .ok left ∧
      (∃ code ∈ [0, 1, 2], left.ending = .exit code) ∧
      ∀ resourcePath rulePath scenarioPath : String,
        (∀ argument ∈ arguments.tail, Request.asksHelp argument = false) →
          (arguments.tail.filter fun argument ↦ !Request.asksDetail argument) =
              [resourcePath, rulePath, scenarioPath] →
            ∀ resourceLines ruleLines scenarioLines : List (List Char),
              FileHolds contents resourcePath resourceLines →
                FileHolds contents rulePath ruleLines →
                  FileHolds contents scenarioPath scenarioLines →
                    let loading := ofTexts firstHandle resourceLines ruleLines scenarioLines
                    (left.ending = .exit 1 ↔ ∃ error, loading = .error error) ∧
                      (left.ending = .exit 0 ↔ ∃ loaded, loading = .ok loaded) ∧
                      ∀ error, loading = .error error →
                        left =
                          { ending := .exit 1
                            output := ""
                            errors := s!"Error: {error.message}\n"
                            files := [] } := by
  intro left
  have hcode : ∃ code ∈ [0, 1, 2], left.ending = .exit code :=
    exists_ending_eq_exit hfiles hshowable
  refine ⟨?_, hcode, fun resourcePath rulePath scenarioPath hhelp hpaths resourceLines ruleLines
    scenarioLines hresource hrule hscenario ↦ ?_⟩
  · obtain ⟨code, -, hending⟩ := hcode
    rw [Raising.run_eq, hending]
  · have hrequest := Request.ofArguments_eq_simulate hhelp hpaths
    intro loading
    cases hloading : loading with
    | error error =>
      have hleft : left = _ := run_of_refused hrequest hresource hrule hscenario hloading
      simp [hleft]
    | ok loaded =>
      have hleft : left = simulate _ loaded :=
        run_of_accepted hrequest hresource hrule hscenario hloading
      have hloaded := hshowable loaded
        ((simulates_iff hrequest hresource hrule hscenario loaded).2 hloading)
      have hending : left.ending = .exit 0 := by
        rw [hleft]
        exact (simulate_of_isShowable _ hloaded).1
      simp [hending]

/-- A run in which a condition is not met and a relation stands for no one, and one in which the
text of the rules is refused. -/
theorem run_raises_nothing_quarry :
    let resourceText := "resource stone\nend\n"
    let ruleText := "rule cut\nif stone > 2\nend\nrule sell\nin market stone 1\nend\n"
    let scenarioText := "world\nticks 1\npool stone 9 1\nrules cut sell\nend\n"
    let contents : FileContents := fun path ↦
      if path = "a" then some resourceText.toUTF8
      else if path = "b" then some ruleText.toUTF8
      else if path = "c" then some scenarioText.toUTF8 else none
    let left := run 0 contents ["rulesim", "a", "b", "c", "-v"]
    let refused := run 0 contents ["rulesim", "a", "c", "c"]
    Raising.run 0 contents ["rulesim", "a", "b", "c", "-v"] = .ok left ∧
      left.ending = .exit 0 ∧
      left.errors = "rulesim - INFO - loaded 1 resources, 2 rules, 0 agents\n" ++
        "rulesim - DEBUG - rule 'cut': cannot run for resource stone, 1 not > 2\n" ++
        "rulesim - ERROR - tick 1: world rules aborted: " ++
        "rule 'sell' failed: no input pool set for relation 'market'\n" ∧
      refused =
        { ending := .exit 1
          output := ""
          errors := "Error: unexpected token at line 1 (expecting a rule to be started)\n"
          files := [] } := by
  intro resourceText ruleText scenarioText contents left refused
  have hresource : FileHolds contents "a" _ := fileHolds_of_eq rfl
  have hrule : FileHolds contents "b" _ := fileHolds_of_eq rfl
  have hscenario : FileHolds contents "c" _ := fileHolds_of_eq rfl
  have hfiles : ∀ path ∈ ["a", "b", "c"], ∃ lines, FileHolds contents path lines := by
    simp only [List.forall_mem_cons]
    exact ⟨⟨_, hresource⟩, ⟨_, hrule⟩, ⟨_, hscenario⟩, nofun⟩
  have hsame : ∀ path ∈ ["a", "c", "c"], ∃ lines, FileHolds contents path lines := by
    simp only [List.forall_mem_cons]
    exact ⟨⟨_, hresource⟩, ⟨_, hscenario⟩, ⟨_, hscenario⟩, nofun⟩
  let stone : Resource := { handle := 0, key := "stone", singular := "stone", plural := "stone" }
  let demand : Condition :=
    { relation := "self", resource := stone, quantity := 2, comparison := .greater }
  let cut : Rule :=
    Rule.ofBodies { handle := 1, name := "cut", preconditions := [demand] } []
  let sell : Rule := Rule.ofBodies
    { handle := 2, name := "sell"
      inputs := [{ relation := "market", resource := stone, quantity := 1 }] } []
  let loaded : Loaded :=
    { catalog := { resources := [stone] }
      rules := [cut, sell]
      scenario :=
        { settings := { ticks := 1 }
          worldRules := [cut, sell]
          ledger :=
            { pools := [{ owner := .world, resource := stone, capacity := 9, quantity := 1 }] } } }
  have hresources : Resource.parse 0
      (Text.cutLines Text.endsFileLine resourceText.toList) = .ok [stone] := by
    decide +kernel
  have hloading : ofTexts 0 (Text.cutLines Text.endsFileLine resourceText.toList)
      (Text.cutLines Text.endsFileLine ruleText.toList)
      (Text.cutLines Text.endsFileLine scenarioText.toList) = .ok loaded :=
    ofTexts_eq_ok hresources (by decide +kernel) (by decide +kernel)
  have hfaulty : Rule.parse { resources := [stone] } (0 + [stone].length)
      (Text.cutLines Text.endsFileLine scenarioText.toList) =
        .error { cause := .ruleExpected, line := 1 } := by
    decide +kernel
  have hfailing : ofTexts 0 (Text.cutLines Text.endsFileLine resourceText.toList)
      (Text.cutLines Text.endsFileLine scenarioText.toList)
      (Text.cutLines Text.endsFileLine scenarioText.toList) =
        .error { cause := .ruleExpected, line := 1 } := by
    simp only [ofTexts, bind, Except.bind, hresources, hfaulty]
  have hreported : ∀ tick ∈ List.range' 1 1,
      ∀ number ∈ ((Simulation.ofScenario loaded.scenario).after tick).reportedNumbers,
        Text.FitsNumeral number := by
    decide +kernel
  have hloadedShowable : IsShowable loaded.scenario :=
    ⟨fun tick htick ↦ ⟨fun _ _ ↦ hreported tick htick, fun hevery ↦ absurd hevery (by decide)⟩,
      hreported 1 (by decide)⟩
  have hshowable : ∀ other, Simulates 0 contents ["rulesim", "a", "b", "c", "-v"] other →
      IsShowable other.scenario := by
    intro other hother
    have hsame := (simulates_iff rfl hresource hrule hscenario other).1 hother
    cases hloading.symm.trans hsame
    exact hloadedShowable
  have hnone : ∀ other, Simulates 0 contents ["rulesim", "a", "c", "c"] other →
      IsShowable other.scenario := by
    intro other hother
    have hsame := (simulates_iff rfl hresource hscenario hscenario other).1 hother
    cases hfailing.symm.trans hsame
  obtain ⟨hraised, -, hleft⟩ :=
    run_raises_nothing 0 ["rulesim", "a", "b", "c", "-v"] hfiles hshowable
  obtain ⟨-, -, hrefused⟩ := run_raises_nothing 0 ["rulesim", "a", "c", "c"] hsame hnone
  have hending := hleft "a" "b" "c" (by decide) (by decide) _ _ _ hresource hrule hscenario
  have hsimulated : left = simulate true loaded :=
    run_of_accepted (by decide) hresource hrule hscenario hloading
  refine ⟨hraised, hending.2.1.2 ⟨loaded, hloading⟩, ?_, ?_⟩
  · rw [hsimulated]
    decide +kernel
  · have hshown := (hrefused "a" "c" "c" (by decide) (by decide) _ _ _ hresource hscenario
      hscenario).2.2 _ hfailing
    refine hshown.trans ?_
    decide

end CommandLine

end TickEconomy
