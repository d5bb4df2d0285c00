import TickEconomy.Journal
import TickEconomy.Table

/-!
# Schedules, attempts and batches

A schedule remembers at which tick each rule was last evaluated. A rule is due when it was never
evaluated or when at least its period has passed since (`Schedule.isDue`). The ticks need not
increase from one evaluation to the next.

To attempt a rule at a tick is to evaluate it if it is due and to leave everything alone if it is
not. An evaluation fixes the number of rounds (`RuleBody.roundCount?`) and goes through them. When
the first round cannot run because a requirement is not met, the fallback is attempted in its
stead, which may not be due or may fall back in turn (`attemptInTurn`). Whatever the outcome, the
schedule then holds the tick for every rule that was evaluated.

A batch attempts the rules of a list in order, each with the pools and the schedule that the one
before left behind (`runBatch`). Rules of period zero are passed over. The first rule that cannot be
evaluated breaks the batch off (`Batch.error`); what the rules before it did, and the rounds that
went through before the error, stay.
-/

set_option autoImplicit false
set_option relaxedAutoImplicit false

namespace TickEconomy

/-! ### Schedules -/

/-- The tick at which each rule was last evaluated. -/
structure Schedule where
  /-- The ticks by the handles of the rules. -/
  lastRuns : Table Nat Int := {}
  deriving DecidableEq, Repr

namespace Schedule

/-- The tick at which the rule with the handle was last evaluated. -/
def lastRun? (schedule : Schedule) (handle : Nat) : Option Int :=
  schedule.lastRuns.get? handle

/-- The rule may be evaluated at the tick. -/
def isDue (schedule : Schedule) (rule : RuleBody) (tick : Int) : Bool :=
  match schedule.lastRun? rule.handle with
  | none => true
  | some last => decide (last + rule.period ≤ tick)

/-- The schedule after the rule with the handle is evaluated at the tick. -/
def record (schedule : Schedule) (handle : Nat) (tick : Int) : Schedule :=
  { lastRuns := schedule.lastRuns.put handle tick }

/-- An evaluation is remembered for its own rule and for no other. -/
@[simp]
theorem lastRun?_record (schedule : Schedule) (handle other : Nat) (tick : Int) :
    (schedule.record handle tick).lastRun? other =
      if handle = other then some tick else schedule.lastRun? other :=
  Table.get?_put schedule.lastRuns handle other tick

end Schedule

/-! ### What an attempt leaves behind -/

/-- What an attempt at a rule left behind. -/
structure Attempt where
  /-- The pools. -/
  ledger : Ledger
  /-- When the rules were last evaluated. -/
  schedule : Schedule
  /-- The number of rounds that went through, or why the rule could not be evaluated. -/
  outcome : Except EvaluationError Nat
  /-- What happened, the earliest first. -/
  journal : List Event

/-- The attempt that finds its rule not due. -/
def Attempt.idle (schedule : Schedule) (ledger : Ledger) : Attempt :=
  { ledger := ledger, schedule := schedule, outcome := .ok 0, journal := [] }

namespace RuleBody

/-! ### The number of rounds -/

/-- The number of rounds that the rule would make, or none if the pools that tell it are missing. -/
def roundCount? (rule : RuleBody) (context : Context) (ledger : Ledger) : Option Int :=
  match rule.repeatFrom with
  | none => some (rule.extraRounds + 1)
  | some pool =>
    (context.get? pool.relation).map fun owner ↦ ledger.quantity owner pool.resource

/-- What the journal says about the number of rounds. -/
def roundCountEvents (rule : RuleBody) (context : Context) (ledger : Ledger) : List Event :=
  match rule.repeatFrom with
  | none => []
  | some pool =>
    match rule.roundCount? context ledger with
    | none => [.roundsUnknown rule.name pool.relation]
    | some count => [.roundsCounted rule.name count]

/-- The rounds of the rule. A number of rounds that is unknown or negative counts as none. -/
def evaluate (rule : RuleBody) (context : Context) (ledger : Ledger) : Rounds :=
  rule.runRounds context ledger 0 ((rule.roundCount? context ledger).getD 0).toNat

/-! ### Attempts -/

/-- What the journal says about an evaluation of the rule by itself. -/
def evaluationJournal (rule : RuleBody) (context : Context) (tick : Int) (ledger : Ledger)
    (rounds : Rounds) : List Event :=
  .evaluated rule.handle tick ::
    (rule.roundCountEvents context ledger ++
      (rounds.obstacle.map (Obstacle.events rule.name)).getD [])

/-- The attempt at the rule that its rounds make up, its fallbacks aside. -/
def attemptOfRounds (rule : RuleBody) (context : Context) (tick : Int) (schedule : Schedule)
    (ledger : Ledger) (rounds : Rounds) : Attempt :=
  { ledger := rounds.ledger
    schedule := schedule.record rule.handle tick
    outcome := rounds.outcome
    journal := rule.evaluationJournal context tick ledger rounds }

/-- The attempt at the rule when another one is attempted in its stead. -/
def attemptOfFallback (rule : RuleBody) (context : Context) (tick : Int) (ledger : Ledger)
    (rounds : Rounds) (fallback : RuleBody) (attempt : Attempt) : Attempt :=
  { ledger := attempt.ledger
    schedule := attempt.schedule.record rule.handle tick
    outcome := attempt.outcome
    journal := rule.evaluationJournal context tick ledger rounds ++
      .fellBack rule.name fallback.name :: attempt.journal }

end RuleBody

/-- The attempt at a rule with the given fallbacks. -/
def attemptInTurn (context : Context) (tick : Int) (schedule : Schedule) (ledger : Ledger) :
    RuleBody → List RuleBody → Attempt
  | rule, [] =>
    if schedule.isDue rule tick then
      rule.attemptOfRounds context tick schedule ledger (rule.evaluate context ledger)
    else Attempt.idle schedule ledger
  | rule, fallback :: later =>
    if schedule.isDue rule tick then
      let rounds := rule.evaluate context ledger
      if rounds.isBlockedAtOnce then
        rule.attemptOfFallback context tick ledger rounds fallback
          (attemptInTurn context tick schedule rounds.ledger fallback later)
      else rule.attemptOfRounds context tick schedule ledger rounds
    else Attempt.idle schedule ledger

/-- The attempt at a rule, with its fallbacks in reserve. -/
def Rule.attempt (rule : Rule) (context : Context) (tick : Int) (schedule : Schedule)
    (ledger : Ledger) : Attempt :=
  attemptInTurn context tick schedule ledger rule.toRuleBody rule.fallbacks

/-! ### Batches -/

/-- What a batch left behind. -/
structure Batch where
  /-- The pools. -/
  ledger : Ledger
  /-- When the rules were last evaluated. -/
  schedule : Schedule
  /-- Why the batch was broken off, if it was. -/
  error : Option EvaluationError
  /-- What happened, the earliest first. -/
  journal : List Event

/-- The batch of the rules at a tick. -/
def runBatch (context : Context) (tick : Int) (schedule : Schedule) (ledger : Ledger) :
    List Rule → Batch
  | [] => { ledger := ledger, schedule := schedule, error := none, journal := [] }
  | rule :: later =>
    if rule.period = 0 then runBatch context tick schedule ledger later
    else
      let attempt := rule.attempt context tick schedule ledger
      match attempt.outcome with
      | .error error =>
        { ledger := attempt.ledger
          schedule := attempt.schedule
          error := some error
          journal := attempt.journal }
      | .ok _ =>
        let batch := runBatch context tick attempt.schedule attempt.ledger later
        { batch with journal := attempt.journal ++ batch.journal }

end TickEconomy
