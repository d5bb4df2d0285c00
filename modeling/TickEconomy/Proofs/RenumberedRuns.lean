import TickEconomy.Proofs.Evaluation
import TickEconomy.Proofs.Renumbering
import TickEconomy.Snapshot

/-!
# Simulations under other handles

A simulation goes on alike whatever the handles are, as long as different ones stay different. What
a rule requires is met or not, its movements concern the same pools, and it is due at the same
ticks; so a renumbered simulation leaves behind, at every tick, what the original one does,
renumbered (`Simulation.step_renumbered`, `Simulation.after_renumbered`). This holds step by step:
of a round, of the attempt at a rule, of a batch and of the turns of a tick.

Handles are not told. The number of batches that broke off, the log, the report and the snapshot
are therefore the same (`Tick.failures_renumbered`, `Tick.logLines_renumbered`,
`Simulation.report_renumbered`, `Simulation.snapshot_renumbered`).
-/

set_option autoImplicit false
set_option relaxedAutoImplicit false

namespace TickEconomy

variable {numbering : Renumbering}

/-! ### Requirements -/

variable (numbering) in
/-- The requirement on the renumbered resource. -/
def Requirement.renumbered : Requirement → Requirement
  | .condition demand => .condition (demand.renumbered numbering)
  | .input specifier => .input (specifier.renumbered numbering)

variable (numbering) in
/-- The shortfall of the renumbered requirement. -/
def Shortfall.renumbered (shortfall : Shortfall) : Shortfall :=
  { shortfall with requirement := shortfall.requirement.renumbered numbering }

theorem RuleBody.requirements_renumbered (rule : RuleBody) :
    (rule.renumbered numbering).requirements =
      rule.requirements.map (Requirement.renumbered numbering) := by
  simp only [requirements, renumbered, List.map_append, List.map_map]
  rfl

section Round

variable (hresource : Function.Injective numbering.resource) (rule : RuleBody) (context : Context)

include hresource

/-- A requirement is met, unmet or undecided whatever the handles are. -/
theorem Requirement.verdict_renumbered (ledger : Ledger) (requirement : Requirement) :
    (requirement.renumbered numbering).verdict (rule.renumbered numbering) context
        (ledger.renumbered numbering) =
      requirement.verdict rule context ledger := by
  cases requirement with
  | condition demand =>
    simp only [renumbered, verdict, Condition.renumbered, RuleBody.name_renumbered,
      Ledger.quantity_renumbered hresource]
  | input specifier =>
    simp only [renumbered, verdict, Specifier.renumbered, RuleBody.name_renumbered,
      Ledger.quantity_renumbered hresource]

theorem firstShortfall_renumbered (ledger : Ledger) (requirements : List Requirement) :
    firstShortfall (rule.renumbered numbering) context (ledger.renumbered numbering)
        (requirements.map (Requirement.renumbered numbering)) =
      Option.map (Shortfall.renumbered numbering) <$>
        firstShortfall rule context ledger requirements := by
  induction requirements with
  | nil => rfl
  | cons requirement later ih =>
    rw [List.map_cons, firstShortfall, firstShortfall,
      Requirement.verdict_renumbered hresource rule context ledger requirement]
    cases requirement.verdict rule context ledger with
    | met => exact ih
    | unmet quantity => rfl
    | undecided error => rfl

/-! ### One round -/

omit hresource

variable (numbering) in
/-- The movement of the renumbered resource. -/
def Movement.renumbered (movement : Movement) : Movement :=
  { movement with specifier := movement.specifier.renumbered numbering }

variable (numbering) in
/-- The obstacle that the renumbered requirement or input is. -/
def Obstacle.renumbered : Obstacle → Obstacle
  | .blocked shortfall => .blocked (shortfall.renumbered numbering)
  | .abandoned specifier => .abandoned (specifier.renumbered numbering)
  | .failed error => .failed error

variable (numbering) in
/-- What a round leaves behind, renumbered. -/
def Obstacle.renumberedResult : Ledger × Option Obstacle → Ledger × Option Obstacle :=
  Prod.map (Ledger.renumbered numbering) (Option.map (Obstacle.renumbered numbering))

theorem RuleBody.movements_renumbered (role : Role) (specifiers : List Specifier) :
    (rule.renumbered numbering).movements context role
        (specifiers.map (Specifier.renumbered numbering)) =
      List.map (Movement.renumbered numbering) <$> rule.movements context role specifiers := by
  rw [movements, movements, List.mapM_map]
  refine mapM_map_value (Movement.renumbered numbering) (fun specifier ↦ ?_) specifiers
  show (do let owner ← context.owner rule.name role specifier.relation; _) = _
  cases context.owner rule.name role specifier.relation <;> rfl

/-- Movements that are each made in the renumbered ledger as in the original one lead to the
renumbered ledger. -/
theorem Ledger.foldl_renumbered {move : Ledger → Movement → Ledger}
    (hmove : ∀ ledger movement, move (ledger.renumbered numbering) (movement.renumbered numbering) =
      (move ledger movement).renumbered numbering) (ledger : Ledger) (movements : List Movement) :
    (movements.map (Movement.renumbered numbering)).foldl move (ledger.renumbered numbering) =
      (movements.foldl move ledger).renumbered numbering := by
  rw [List.foldl_map]
  exact List.foldl_hom _ fun reached movement ↦ hmove reached movement

include hresource

theorem Ledger.depositMovement_renumbered (ledger : Ledger) (movement : Movement) :
    (ledger.renumbered numbering).depositMovement (movement.renumbered numbering) =
      (ledger.depositMovement movement).renumbered numbering := by
  rw [depositMovement, deposit_fst, depositMovement, deposit_fst]
  exact adjust_renumbered hresource ledger movement.owner movement.specifier.resource fun _ ↦ rfl

theorem Ledger.assignMovement_renumbered (ledger : Ledger) (movement : Movement) :
    (ledger.renumbered numbering).assignMovement (movement.renumbered numbering) =
      (ledger.assignMovement movement).renumbered numbering := by
  rw [assignMovement, assign_fst, assignMovement, assign_fst]
  exact adjust_renumbered hresource ledger movement.owner movement.specifier.resource fun _ ↦ rfl

theorem Ledger.restockMovement_renumbered (ledger : Ledger) (movement : Movement) :
    (ledger.renumbered numbering).restockMovement (movement.renumbered numbering) =
      (ledger.restockMovement movement).renumbered numbering :=
  restock_renumbered hresource ledger movement.owner movement.specifier.resource
    movement.specifier.quantity

namespace RuleBody

/-- The inputs are withdrawn up to the same one. -/
theorem takeInputs_renumbered (ledger : Ledger) (taken : List Movement)
    (inputs : List Specifier) :
    (rule.renumbered numbering).takeInputs context (ledger.renumbered numbering)
        (taken.map (Movement.renumbered numbering)) (inputs.map (Specifier.renumbered numbering)) =
      Obstacle.renumberedResult numbering (rule.takeInputs context ledger taken inputs) := by
  induction inputs generalizing ledger taken with
  | nil => rfl
  | cons specifier later ih =>
    have hrelation : (specifier.renumbered numbering).relation = specifier.relation := rfl
    rw [List.map_cons, takeInputs, takeInputs, name_renumbered, hrelation]
    cases context.owner rule.name .input specifier.relation with
    | error error => rfl
    | ok owner =>
      have hwithdraw : (ledger.renumbered numbering).withdraw owner
          (specifier.renumbered numbering).resource (specifier.renumbered numbering).quantity =
            ((ledger.withdraw owner specifier.resource specifier.quantity).1.renumbered numbering,
              (ledger.withdraw owner specifier.resource specifier.quantity).2) :=
        Ledger.withdraw_renumbered hresource ledger owner specifier.resource specifier.quantity
      simp only [hwithdraw]
      by_cases hrefused : 0 < (ledger.withdraw owner specifier.resource specifier.quantity).2
      · simp only [hrefused, if_true,
          Ledger.foldl_renumbered (Ledger.restockMovement_renumbered hresource)]
        rfl
      · simp only [hrefused, if_false]
        exact ih _ ({ owner := owner, specifier := specifier } :: taken)

theorem apply_renumbered (ledger : Ledger) :
    (rule.renumbered numbering).apply context (ledger.renumbered numbering) =
      Obstacle.renumberedResult numbering (rule.apply context ledger) := by
  have houtputs : (rule.renumbered numbering).movements context .output
      (rule.renumbered numbering).outputs =
        List.map (Movement.renumbered numbering) <$> rule.movements context .output rule.outputs :=
    movements_renumbered rule context .output rule.outputs
  have hsets : (rule.renumbered numbering).movements context .set
      (rule.renumbered numbering).sets =
        List.map (Movement.renumbered numbering) <$> rule.movements context .set rule.sets :=
    movements_renumbered rule context .set rule.sets
  have hinputs : (rule.renumbered numbering).takeInputs context (ledger.renumbered numbering) []
      (rule.renumbered numbering).inputs =
        Obstacle.renumberedResult numbering (rule.takeInputs context ledger [] rule.inputs) :=
    takeInputs_renumbered hresource rule context ledger [] rule.inputs
  rw [apply, apply, houtputs, hsets, hinputs]
  cases rule.movements context .output rule.outputs with
  | error error => rfl
  | ok outputs =>
    cases rule.movements context .set rule.sets with
    | error error => rfl
    | ok sets =>
      obtain ⟨reached, _ | obstacle⟩ := rule.takeInputs context ledger [] rule.inputs
      · have hdeposited :=
          Ledger.foldl_renumbered (Ledger.depositMovement_renumbered hresource) reached outputs
        have hassigned := Ledger.foldl_renumbered (Ledger.assignMovement_renumbered hresource)
          (outputs.foldl Ledger.depositMovement reached) sets
        rw [← hdeposited] at hassigned
        exact Prod.ext hassigned rfl
      · rfl

theorem shortfall?_renumbered (ledger : Ledger) :
    (rule.renumbered numbering).shortfall? context (ledger.renumbered numbering) =
      Option.map (Shortfall.renumbered numbering) <$> rule.shortfall? context ledger := by
  rw [shortfall?, requirements_renumbered, firstShortfall_renumbered hresource]
  rfl

/-- A round goes through, or meets the same obstacle. -/
theorem round_renumbered (ledger : Ledger) :
    (rule.renumbered numbering).round context (ledger.renumbered numbering) =
      Obstacle.renumberedResult numbering (rule.round context ledger) := by
  rw [round, round, shortfall?_renumbered hresource]
  cases rule.shortfall? context ledger with
  | error error => rfl
  | ok found =>
    cases found with
    | none => exact apply_renumbered hresource rule context ledger
    | some shortfall => rfl

end RuleBody

/-! ### Rounds -/

omit hresource

variable (numbering) in
/-- As many rounds, with the renumbered ledger and obstacle. -/
def Rounds.renumbered (rounds : Rounds) : Rounds :=
  { rounds with
    ledger := rounds.ledger.renumbered numbering
    obstacle := rounds.obstacle.map (Obstacle.renumbered numbering) }

theorem Rounds.isBlockedAtOnce_renumbered (rounds : Rounds) :
    (rounds.renumbered numbering).isBlockedAtOnce = rounds.isBlockedAtOnce := by
  obtain ⟨ledger, completed, obstacle⟩ := rounds
  rcases obstacle with _ | ⟨_ | _ | _⟩ <;> rfl

theorem Rounds.outcome_renumbered (rounds : Rounds) :
    (rounds.renumbered numbering).outcome = rounds.outcome := by
  obtain ⟨ledger, completed, obstacle⟩ := rounds
  rcases obstacle with _ | ⟨_ | _ | _⟩ <;> rfl

include hresource

namespace RuleBody

/-- As many rounds go through. -/
theorem runRounds_renumbered (ledger : Ledger) (completed remaining : Nat) :
    (rule.renumbered numbering).runRounds context (ledger.renumbered numbering) completed
        remaining =
      (rule.runRounds context ledger completed remaining).renumbered numbering := by
  induction remaining generalizing ledger completed with
  | zero => rfl
  | succ remaining ih =>
    rw [runRounds, runRounds, round_renumbered hresource]
    obtain ⟨reached, _ | obstacle⟩ := rule.round context ledger
    · exact ih reached (completed + 1)
    · rfl

theorem roundCount?_renumbered (ledger : Ledger) :
    (rule.renumbered numbering).roundCount? context (ledger.renumbered numbering) =
      rule.roundCount? context ledger := by
  rw [roundCount?, roundCount?, repeatFrom_renumbered]
  cases rule.repeatFrom with
  | none => rfl
  | some pool =>
    simp only [Option.map_some, PoolReference.renumbered, Ledger.quantity_renumbered hresource]

theorem roundCountEvents_renumbered (ledger : Ledger) :
    (rule.renumbered numbering).roundCountEvents context (ledger.renumbered numbering) =
      rule.roundCountEvents context ledger := by
  rw [roundCountEvents, roundCountEvents, repeatFrom_renumbered,
    roundCount?_renumbered hresource]
  cases rule.repeatFrom <;> rfl

theorem evaluate_renumbered (ledger : Ledger) :
    (rule.renumbered numbering).evaluate context (ledger.renumbered numbering) =
      (rule.evaluate context ledger).renumbered numbering := by
  rw [evaluate, evaluate, roundCount?_renumbered hresource, runRounds_renumbered hresource]

end RuleBody

end Round

/-! ### The journal -/

variable (numbering) in
/-- The event that happens to the renumbered rule and resources. -/
def Event.renumbered : Event → Event
  | .evaluated handle tick => .evaluated (numbering.rule handle) tick
  | .blocked rule shortfall => .blocked rule (shortfall.renumbered numbering)
  | .abandoned rule specifier => .abandoned rule (specifier.renumbered numbering)
  | event => event

/-- The log tells names and quantities, but no handles. -/
theorem Event.logLine?_renumbered (event : Event) :
    (event.renumbered numbering).logLine? = event.logLine? := by
  cases event with
  | blocked rule shortfall =>
    obtain ⟨_ | _, quantity⟩ := shortfall <;> rfl
  | _ => rfl

theorem logLines_renumbered (journal : List Event) :
    logLines (journal.map (Event.renumbered numbering)) = logLines journal := by
  simp only [logLines, List.filterMap_map, Function.comp_def, Event.logLine?_renumbered]

theorem Obstacle.events_renumbered (rule : String) (obstacle : Obstacle) :
    (obstacle.renumbered numbering).events rule =
      (obstacle.events rule).map (Event.renumbered numbering) := by
  cases obstacle <;> rfl

theorem RuleBody.map_renumbered_roundCountEvents (rule : RuleBody) (context : Context)
    (ledger : Ledger) : (rule.roundCountEvents context ledger).map (Event.renumbered numbering) =
      rule.roundCountEvents context ledger := by
  unfold roundCountEvents
  split
  · rfl
  · split <;> rfl

/-! ### Attempts -/

variable (numbering) in
/-- The attempt with the renumbered ledger, schedule and journal, and the same outcome. -/
def Attempt.renumbered (attempt : Attempt) : Attempt :=
  { attempt with
    ledger := attempt.ledger.renumbered numbering
    schedule := attempt.schedule.renumbered numbering
    journal := attempt.journal.map (Event.renumbered numbering) }

section Attempts

variable (hnumbering : numbering.IsInjective) (context : Context) (tick : Int)

include hnumbering

namespace RuleBody

theorem evaluationJournal_renumbered (rule : RuleBody) (ledger : Ledger) (rounds : Rounds) :
    (rule.renumbered numbering).evaluationJournal context tick (ledger.renumbered numbering)
        (rounds.renumbered numbering) =
      (rule.evaluationJournal context tick ledger rounds).map (Event.renumbered numbering) := by
  have hobstacle : (rounds.renumbered numbering).obstacle =
      rounds.obstacle.map (Obstacle.renumbered numbering) := rfl
  rw [evaluationJournal, evaluationJournal, roundCountEvents_renumbered hnumbering.resource,
    List.map_cons, List.map_append, map_renumbered_roundCountEvents, hobstacle]
  cases rounds.obstacle with
  | none => rfl
  | some obstacle =>
    simp only [Option.map_some, Option.getD_some, ← Obstacle.events_renumbered]
    rfl

theorem attemptOfRounds_renumbered (rule : RuleBody) (schedule : Schedule) (ledger : Ledger)
    (rounds : Rounds) :
    (rule.renumbered numbering).attemptOfRounds context tick (schedule.renumbered numbering)
        (ledger.renumbered numbering) (rounds.renumbered numbering) =
      (rule.attemptOfRounds context tick schedule ledger rounds).renumbered numbering := by
  have hrecord : (schedule.renumbered numbering).record (rule.renumbered numbering).handle tick =
      (schedule.record rule.handle tick).renumbered numbering :=
    schedule.record_renumbered hnumbering.rule rule.handle tick
  rw [attemptOfRounds, evaluationJournal_renumbered hnumbering, hrecord, rounds.outcome_renumbered]
  rfl

theorem attemptOfFallback_renumbered (rule : RuleBody) (ledger : Ledger) (rounds : Rounds)
    (fallback : RuleBody) (attempt : Attempt) :
    (rule.renumbered numbering).attemptOfFallback context tick (ledger.renumbered numbering)
        (rounds.renumbered numbering) (fallback.renumbered numbering)
        (attempt.renumbered numbering) =
      (rule.attemptOfFallback context tick ledger rounds fallback attempt).renumbered
        numbering := by
  have hrecord : (attempt.renumbered numbering).schedule.record
      (rule.renumbered numbering).handle tick =
        (attempt.schedule.record rule.handle tick).renumbered numbering :=
    attempt.schedule.record_renumbered hnumbering.rule rule.handle tick
  rw [attemptOfFallback, evaluationJournal_renumbered hnumbering, hrecord]
  simp only [Attempt.renumbered, attemptOfFallback, List.map_append, List.map_cons]
  rfl

end RuleBody

/-- The same fallbacks are tried, with the same outcome. -/
theorem attemptInTurn_renumbered (schedule : Schedule) (ledger : Ledger) (rule : RuleBody)
    (fallbacks : List RuleBody) :
    attemptInTurn context tick (schedule.renumbered numbering) (ledger.renumbered numbering)
        (rule.renumbered numbering) (fallbacks.map (RuleBody.renumbered numbering)) =
      (attemptInTurn context tick schedule ledger rule fallbacks).renumbered numbering := by
  induction fallbacks generalizing ledger rule with
  | nil =>
    rw [List.map_nil, attemptInTurn, attemptInTurn, schedule.isDue_renumbered hnumbering.rule,
      rule.evaluate_renumbered hnumbering.resource]
    by_cases hdue : schedule.isDue rule tick
    · simp only [hdue, if_true]
      exact rule.attemptOfRounds_renumbered hnumbering context tick schedule ledger _
    · simp only [hdue]
      rfl
  | cons fallback later ih =>
    rw [List.map_cons, attemptInTurn, attemptInTurn, schedule.isDue_renumbered hnumbering.rule,
      RuleBody.evaluate_renumbered hnumbering.resource]
    by_cases hdue : schedule.isDue rule tick
    · simp only [hdue, if_true, Rounds.isBlockedAtOnce_renumbered]
      by_cases hblocked : (rule.evaluate context ledger).isBlockedAtOnce
      · simp only [hblocked, if_true]
        rw [← RuleBody.attemptOfFallback_renumbered hnumbering, ← ih]
        rfl
      · simp only [hblocked]
        exact RuleBody.attemptOfRounds_renumbered hnumbering context tick rule schedule ledger _
    · simp only [hdue]
      rfl

/-! ### Batches -/

omit hnumbering

variable (numbering) in
/-- The batch with the renumbered ledger, schedule and journal, and the same error. -/
def Batch.renumbered (batch : Batch) : Batch :=
  { batch with
    ledger := batch.ledger.renumbered numbering
    schedule := batch.schedule.renumbered numbering
    journal := batch.journal.map (Event.renumbered numbering) }

include hnumbering

/-- A batch runs the same rules, and breaks off with the same error if it does. -/
theorem runBatch_renumbered (schedule : Schedule) (ledger : Ledger) (rules : List Rule) :
    runBatch context tick (schedule.renumbered numbering) (ledger.renumbered numbering)
        (rules.map (Rule.renumbered numbering)) =
      (runBatch context tick schedule ledger rules).renumbered numbering := by
  induction rules generalizing schedule ledger with
  | nil => rfl
  | cons rule later ih =>
    have hperiod : (rule.renumbered numbering).period = rule.period := rfl
    have hattempt : (rule.renumbered numbering).attempt context tick (schedule.renumbered numbering)
        (ledger.renumbered numbering) =
          (rule.attempt context tick schedule ledger).renumbered numbering :=
      attemptInTurn_renumbered hnumbering context tick schedule ledger rule.toRuleBody
        rule.fallbacks
    rw [List.map_cons, runBatch, runBatch, hperiod, hattempt]
    by_cases hpassed : rule.period = 0
    · simp only [hpassed, if_true, ih]
    · simp only [hpassed, if_false]
      obtain ⟨reached, remembered, outcome, journal⟩ := rule.attempt context tick schedule ledger
      cases outcome with
      | error error => rfl
      | ok completed =>
        simp only [Attempt.renumbered, ih, Batch.renumbered, List.map_append]

end Attempts

/-! ### Simulations -/

variable (numbering) in
/-- The scope with its rules renumbered. -/
def Scope.renumbered (scope : Scope) : Scope :=
  { scope with rules := scope.rules.map (Rule.renumbered numbering) }

variable (numbering) in
/-- The renumbered batch of the renumbered scope. -/
def Turn.renumbered (turn : Turn) : Turn where
  scope := turn.scope.renumbered numbering
  batch := turn.batch.renumbered numbering

variable (numbering) in
/-- The simulation with its scenario and its schedules renumbered, at the same tick. -/
def Simulation.renumbered (simulation : Simulation) : Simulation :=
  { simulation with
    toScenario := simulation.toScenario.renumbered numbering
    schedules := simulation.schedules.map id (Schedule.renumbered numbering) }

variable (numbering) in
/-- The tick with its simulation and its turns renumbered. -/
def Tick.renumbered (tick : Tick) : Tick where
  simulation := tick.simulation.renumbered numbering
  turns := tick.turns.map (Turn.renumbered numbering)

namespace Simulation

@[simp]
theorem ledger_renumbered (simulation : Simulation) :
    (simulation.renumbered numbering).ledger = simulation.ledger.renumbered numbering :=
  rfl

@[simp]
theorem agents_renumbered (simulation : Simulation) :
    (simulation.renumbered numbering).agents =
      simulation.agents.map (Agent.renumbered numbering) :=
  rfl

theorem scopes_renumbered (simulation : Simulation) :
    (simulation.renumbered numbering).scopes =
      simulation.scopes.map (Scope.renumbered numbering) := by
  simp only [scopes, List.map_cons, List.map_map]
  exact congrArg _ List.map_map

theorem scheduleOf_renumbered (simulation : Simulation) (owner : Owner) :
    (simulation.renumbered numbering).scheduleOf owner =
      (simulation.scheduleOf owner).renumbered numbering := by
  have hfound : (simulation.renumbered numbering).schedules.get? owner =
      (simulation.schedules.get? owner).map (Schedule.renumbered numbering) :=
    Table.get?_map Function.injective_id _ simulation.schedules owner
  rw [scheduleOf, scheduleOf, hfound]
  cases simulation.schedules.get? owner <;> rfl

theorem afterBatch_renumbered (simulation : Simulation) (scope : Scope) (batch : Batch) :
    (simulation.renumbered numbering).afterBatch (scope.renumbered numbering)
        (batch.renumbered numbering) =
      (simulation.afterBatch scope batch).renumbered numbering := by
  have hschedules : (simulation.renumbered numbering).schedules.put scope.owner
      (batch.schedule.renumbered numbering) =
        (simulation.schedules.put scope.owner batch.schedule).map id
          (Schedule.renumbered numbering) :=
    Table.put_map Function.injective_id _ simulation.schedules scope.owner batch.schedule
  exact congrArg (fun schedules ↦
    { simulation.renumbered numbering with
      ledger := batch.ledger.renumbered numbering
      schedules := schedules }) hschedules

section Steps

variable (hnumbering : numbering.IsInjective)

include hnumbering

theorem batch_renumbered (simulation : Simulation) (scope : Scope) :
    (simulation.renumbered numbering).batch (scope.renumbered numbering) =
      (simulation.batch scope).renumbered numbering := by
  rw [batch, batch, ← runBatch_renumbered hnumbering, ← scheduleOf_renumbered]
  rfl

/-- The turns of a tick are the renumbered ones. -/
theorem runScopes_renumbered (simulation : Simulation) (scopes : List Scope) :
    (simulation.renumbered numbering).runScopes (scopes.map (Scope.renumbered numbering)) =
      (simulation.runScopes scopes).renumbered numbering := by
  induction scopes generalizing simulation with
  | nil => rfl
  | cons scope later ih =>
    rw [List.map_cons, runScopes, batch_renumbered hnumbering, afterBatch_renumbered, ih]
    rfl

/-- The next tick leaves behind what it does under the original handles, renumbered. -/
theorem step_renumbered (simulation : Simulation) :
    (simulation.renumbered numbering).step = simulation.step.renumbered numbering := by
  let begun : Simulation := { simulation with tick := simulation.tick + 1 }
  show (begun.renumbered numbering).runScopes (begun.renumbered numbering).scopes =
    (begun.runScopes begun.scopes).renumbered numbering
  rw [scopes_renumbered, runScopes_renumbered hnumbering]

/-- So does any number of ticks. -/
theorem after_renumbered (simulation : Simulation) (ticks : Nat) :
    (simulation.renumbered numbering).after ticks =
      (simulation.after ticks).renumbered numbering := by
  induction ticks with
  | zero => rfl
  | succ ticks ih =>
    rw [after, ih, step_renumbered hnumbering]
    rfl

end Steps

end Simulation

/-! ### What is told of a simulation -/

theorem Tick.failures_renumbered (tick : Tick) :
    (tick.renumbered numbering).failures = tick.failures := by
  rw [failures, renumbered, List.countP_map]
  rfl

theorem Turn.journal_renumbered (tick : Nat) (turn : Turn) :
    (turn.renumbered numbering).journal tick =
      (turn.journal tick).map (Event.renumbered numbering) := by
  obtain ⟨scope, ledger, schedule, error, journal⟩ := turn
  cases error with
  | none => rfl
  | some error =>
    simp [Turn.journal, renumbered, Batch.renumbered, Scope.renumbered, Event.renumbered]

theorem Tick.logLines_renumbered (tick : Tick) :
    logLines (tick.renumbered numbering).journal = logLines tick.journal := by
  have hjournal : (tick.renumbered numbering).journal =
      tick.journal.map (Event.renumbered numbering) := by
    simp only [journal, renumbered, List.flatMap_map, List.map_flatMap, Turn.journal_renumbered]
    rfl
  rw [hjournal, TickEconomy.logLines_renumbered]

theorem Ledger.holdings_renumbered (ledger : Ledger) (owner : Owner) :
    (ledger.renumbered numbering).holdings owner = ledger.holdings owner := by
  simp only [holdings, poolsOf, renumbered, List.filter_map, List.map_map]
  rfl

namespace Simulation

theorem agentHoldings_renumbered (simulation : Simulation) :
    (simulation.renumbered numbering).agentHoldings = simulation.agentHoldings := by
  simp only [agentHoldings, ledger_renumbered, agents_renumbered, Ledger.holdings_renumbered,
    List.map_map]
  rfl

/-- A report tells keys and quantities, but no handles. -/
theorem report_renumbered (simulation : Simulation) :
    (simulation.renumbered numbering).report = simulation.report := by
  rw [report, report, reportHeading?, reportHeading?, agentHoldings_renumbered, ledger_renumbered,
    Ledger.holdings_renumbered, agents_renumbered, List.length_map]
  rfl

/-- So does a snapshot. -/
theorem snapshot_renumbered (simulation : Simulation) :
    (simulation.renumbered numbering).snapshot = simulation.snapshot := by
  rw [snapshot, snapshot, agentHoldings_renumbered, ledger_renumbered,
    Ledger.holdings_renumbered]
  rfl

end Simulation

end TickEconomy
