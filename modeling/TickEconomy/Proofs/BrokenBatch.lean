import TickEconomy.Proofs.DelegationChain
import TickEconomy.Proofs.FailingRequirements

/-!
# What a batch that is broken off leaves behind

The rounds of an evaluation that meets an obstacle are a number of rounds that went through, each
from where the one before ended, and the next one changes nothing (`RuleBody.RunsThrough`,
`RuleBody.runsThrough_of_obstacle`). If the obstacle is an error their number is zero: whether the
relations of a rule have owners and its comparisons have a meaning does not depend on what the pools
hold, so an error shows at the first round (`RuleBody.round_ne_failed`).

A batch that is broken off (`BrokenOffAt`) keeps what the rules before the one at fault did. That
rule, or the fallback that its chain led to, raises the error and is the last that is evaluated. The
schedule remembers the rules that were evaluated and no others, also those that only fell back
(`Schedule.Remembers`, `remembers_runBatch`).

A tick goes on after a batch that is broken off. `Simulation.step_contains_errors` says for every
simulation what the turns of a tick are, what each of them starts from and what a broken one leaves
behind.
-/

set_option autoImplicit false
set_option relaxedAutoImplicit false

namespace TickEconomy

/-! ### Rounds before an obstacle -/

/-- The given number of rounds of the rule go through, one after the other, and lead from the first
ledger to the last one. -/
inductive RuleBody.RunsThrough (rule : RuleBody) (context : Context) :
    Nat → Ledger → Ledger → Prop
  | none (ledger : Ledger) : rule.RunsThrough context 0 ledger ledger
  | round {count : Nat} {first middle last : Ledger}
      (through : rule.round context first = (middle, Option.none))
      (later : rule.RunsThrough context count middle last) :
      rule.RunsThrough context (count + 1) first last

namespace RuleBody

variable {rule : RuleBody} {context : Context}

/-- Rounds come to a number of rounds that go through. It is the number wanted, unless the next one
meets an obstacle, which changes nothing. -/
theorem runsThrough_runRounds (rule : RuleBody) (context : Context) (ledger : Ledger)
    (completed remaining : Nat) :
    let rounds := rule.runRounds context ledger completed remaining
    ∃ count, count ≤ remaining ∧ rounds.completed = completed + count ∧
      rule.RunsThrough context count ledger rounds.ledger ∧
      (rounds.obstacle = none → count = remaining) ∧
      ∀ obstacle, rounds.obstacle = some obstacle →
        rule.round context rounds.ledger = (rounds.ledger, some obstacle) := by
  induction remaining generalizing ledger completed with
  | zero =>
    refine ⟨0, Nat.le_refl 0, rfl, .none ledger, fun _ ↦ rfl, ?_⟩
    intro obstacle hobstacle
    cases hobstacle
  | succ remaining ih =>
    rw [runRounds]
    cases hround : rule.round context ledger with
    | mk reached stopped =>
      cases stopped with
      | none =>
        obtain ⟨count, hcount, hcompleted, hthrough, hall, hstop⟩ := ih reached (completed + 1)
        refine ⟨count + 1, Nat.succ_le_succ hcount, ?_, .round hround hthrough,
          fun h ↦ congrArg Nat.succ (hall h), hstop⟩
        exact hcompleted.trans (Nat.add_right_comm completed 1 count)
      | some obstacle =>
        have hsame := ledger_of_round_eq_some hround
        subst hsame
        refine ⟨0, Nat.zero_le _, rfl, .none reached, fun h ↦ absurd h (Option.some_ne_none _), ?_⟩
        intro found hfound
        obtain rfl := Option.some.inj hfound
        exact hround

/-- Rounds that meet an obstacle come to a number of rounds that go through; the next one meets the
obstacle and changes nothing. -/
theorem runsThrough_of_obstacle {ledger : Ledger} {completed remaining : Nat}
    {obstacle : Obstacle}
    (h : (rule.runRounds context ledger completed remaining).obstacle = some obstacle) :
    ∃ count, rule.RunsThrough context count ledger
        (rule.runRounds context ledger completed remaining).ledger ∧
      rule.round context (rule.runRounds context ledger completed remaining).ledger =
        ((rule.runRounds context ledger completed remaining).ledger, some obstacle) := by
  obtain ⟨count, -, -, hthrough, -, hstop⟩ :=
    rule.runsThrough_runRounds context ledger completed remaining
  exact ⟨count, hthrough, hstop obstacle h⟩

/-! ### Errors show at the first round -/

/-- Before a round that goes through, every requirement is met and all outputs and sets have
owners. -/
theorem resolved_of_round {first middle : Ledger}
    (h : rule.round context first = (middle, none)) :
    (∀ requirement ∈ rule.requirements, requirement.verdict rule context first = .met) ∧
      (∃ outputs, rule.movements context .output rule.outputs = .ok outputs) ∧
      ∃ sets, rule.movements context .set rule.sets = .ok sets := by
  cases hshortfall : rule.shortfall? context first with
  | error missing => simp [round, hshortfall] at h
  | ok shortfall =>
    cases shortfall with
    | some shortfall => simp [round, hshortfall] at h
    | none =>
      have hmet := (firstShortfall_eq_none_iff rule context first rule.requirements).1 hshortfall
      simp only [round, hshortfall, apply] at h
      cases houtputs : rule.movements context .output rule.outputs with
      | error missing => simp [houtputs] at h
      | ok outputs =>
        cases hsets : rule.movements context .set rule.sets with
        | error missing => simp [houtputs, hsets] at h
        | ok sets => exact ⟨hmet, ⟨outputs, rfl⟩, ⟨sets, rfl⟩⟩

/-- A rule of which one round goes through cannot fail at another, whatever the pools hold then. -/
theorem round_ne_failed {first middle : Ledger} (h : rule.round context first = (middle, none))
    (ledger : Ledger) (error : EvaluationError) :
    (rule.round context ledger).2 ≠ some (.failed error) := by
  obtain ⟨hmet, ⟨outputs, houtputs⟩, sets, hsets⟩ := resolved_of_round h
  intro hfailed
  cases hnow : rule.shortfall? context ledger with
  | error missing =>
    -- Whether a requirement fails hard does not depend on the pools, and before, none did.
    obtain ⟨requirement, hreached, hhard⟩ := shortfall?_eq_error_iff.1 hnow
    cases (hhard.verdict_eq first).symm.trans (hmet requirement hreached.mem)
  | ok shortfall =>
    cases shortfall with
    | some shortfall => simp [round, hnow] at hfailed
    | none =>
      simp only [round, hnow, apply, houtputs, hsets] at hfailed
      obtain ⟨specifier, -, htake⟩ | ⟨inputs, -, htake⟩ :=
        rule.takeInputs_cases (inputs_met hnow) (Ledger.OverdrawnNoFurther.refl ledger) []
      · simp [htake] at hfailed
      · simp [htake] at hfailed

/-- Rounds that end in an error are none. -/
theorem ledger_eq_of_failed {ledger reached : Ledger} {count : Nat} {error : EvaluationError}
    (hthrough : rule.RunsThrough context count ledger reached)
    (hfailed : rule.round context reached = (reached, some (.failed error))) :
    count = 0 ∧ reached = ledger := by
  cases hthrough with
  | none => exact ⟨rfl, rfl⟩
  | round hfirst _ =>
    have hnone := round_ne_failed hfirst reached error
    rw [hfailed] at hnone
    exact absurd rfl hnone

end RuleBody

/-! ### What a journal says of evaluations -/

/-- The handle of the rule that was evaluated, if the event is an evaluation. -/
def Event.evaluatedHandle? : Event → Option Nat
  | .evaluated handle _ => some handle
  | _ => none

/-- The handles of the rules that were evaluated, the earliest evaluation first. -/
def evaluatedHandles (journal : List Event) : List Nat :=
  journal.filterMap Event.evaluatedHandle?

@[simp]
theorem evaluatedHandles_append (first second : List Event) :
    evaluatedHandles (first ++ second) = evaluatedHandles first ++ evaluatedHandles second :=
  List.filterMap_append

/-- By itself an evaluation is noted once, for its own rule. -/
@[simp]
theorem evaluatedHandles_evaluationJournal (rule : RuleBody) (context : Context) (tick : Int)
    (ledger : Ledger) (rounds : Rounds) :
    evaluatedHandles (rule.evaluationJournal context tick ledger rounds) = [rule.handle] := by
  have hother : ∀ event : Event, (∀ handle tick, event ≠ .evaluated handle tick) →
      event.evaluatedHandle? = none := by
    intro event hevent
    cases event with
    | evaluated handle tick => exact absurd rfl (hevent handle tick)
    | _ => rfl
  exact rule.filterMap_evaluationJournal hother context tick ledger rounds

/-- A schedule remembers the tick for the rules that a journal has evaluations of, and of all other
rules what was remembered before. -/
def Schedule.Remembers (schedule before : Schedule) (tick : Int) (journal : List Event) : Prop :=
  ∀ handle, schedule.lastRun? handle =
    if handle ∈ evaluatedHandles journal then some tick else before.lastRun? handle

theorem Schedule.Remembers.refl (schedule : Schedule) (tick : Int) :
    schedule.Remembers schedule tick [] :=
  fun _ ↦ rfl

/-- What two journals one after the other have evaluations of is remembered in the end. -/
theorem Schedule.Remembers.trans {first middle last : Schedule} {tick : Int}
    {earlier later : List Event} (hearlier : middle.Remembers first tick earlier)
    (hlater : last.Remembers middle tick later) : last.Remembers first tick (earlier ++ later) := by
  intro handle
  rw [hlater handle, hearlier handle, evaluatedHandles_append]
  by_cases hmem : handle ∈ evaluatedHandles later <;> simp [hmem]

/-! ### Attempts that end in an error -/

section Attempts

variable {context : Context} {tick : Int} {schedule : Schedule} {ledger : Ledger}

/-- A rule that falls back is evaluated before its fallback. -/
theorem evaluatedHandles_attemptOfFallback (rule : RuleBody) (rounds : Rounds)
    (fallback : RuleBody) (attempt : Attempt) :
    evaluatedHandles
        (rule.attemptOfFallback context tick ledger rounds fallback attempt).journal =
      rule.handle :: evaluatedHandles attempt.journal := by
  rw [RuleBody.attemptOfFallback, evaluatedHandles_append, evaluatedHandles_evaluationJournal]
  rfl

theorem remembers_attemptOfRounds (rule : RuleBody) (rounds : Rounds) :
    (rule.attemptOfRounds context tick schedule ledger rounds).schedule.Remembers schedule tick
      (rule.attemptOfRounds context tick schedule ledger rounds).journal := by
  intro handle
  have hhandles : evaluatedHandles
      (rule.attemptOfRounds context tick schedule ledger rounds).journal = [rule.handle] :=
    evaluatedHandles_evaluationJournal rule context tick ledger rounds
  rw [hhandles, RuleBody.attemptOfRounds, Schedule.lastRun?_record]
  simp only [List.mem_singleton, eq_comm]

theorem remembers_attemptOfFallback (rule : RuleBody) (rounds : Rounds) (fallback : RuleBody)
    {attempt : Attempt} (h : attempt.schedule.Remembers schedule tick attempt.journal) :
    (rule.attemptOfFallback context tick ledger rounds fallback attempt).schedule.Remembers
      schedule tick
        (rule.attemptOfFallback context tick ledger rounds fallback attempt).journal := by
  intro handle
  rw [evaluatedHandles_attemptOfFallback, RuleBody.attemptOfFallback, Schedule.lastRun?_record,
    h handle]
  by_cases hhandle : rule.handle = handle
  · simp [hhandle]
  · have hother : ¬ handle = rule.handle := fun e ↦ hhandle e.symm
    simp [hhandle, hother]

/-- After an attempt the rules that were evaluated are remembered and no others. -/
theorem remembers_attemptInTurn (context : Context) (tick : Int) (schedule : Schedule)
    (ledger : Ledger) (body : RuleBody) (fallbacks : List RuleBody) :
    (attemptInTurn context tick schedule ledger body fallbacks).schedule.Remembers schedule tick
      (attemptInTurn context tick schedule ledger body fallbacks).journal := by
  induction fallbacks generalizing body ledger with
  | nil =>
    rw [attemptInTurn]
    split_ifs with hdue
    · exact remembers_attemptOfRounds body _
    · exact Schedule.Remembers.refl schedule tick
  | cons fallback later ih =>
    simp only [attemptInTurn]
    split_ifs with hdue hblocked
    · exact remembers_attemptOfFallback body _ fallback (ih _ _)
    · exact remembers_attemptOfRounds body _
    · exact Schedule.Remembers.refl schedule tick

/-- An evaluation that ends in an error comes to rounds that go through, of which the next one
raises the error. -/
theorem RuleBody.runsThrough_of_evaluate_eq_error {rule : RuleBody} {error : EvaluationError}
    (h : (rule.evaluate context ledger).outcome = .error error) :
    ∃ count, rule.RunsThrough context count ledger (rule.evaluate context ledger).ledger ∧
      rule.round context (rule.evaluate context ledger).ledger =
        ((rule.evaluate context ledger).ledger, some (.failed error)) := by
  refine runsThrough_of_obstacle ?_
  unfold Rounds.outcome at h
  split at h
  · next found hfound =>
    cases h
    exact hfound
  · cases h

/-- Along a chain an error is raised by the first link that does not delegate. -/
theorem attemptInTurn_eq_error {body : RuleBody} {fallbacks : List RuleBody}
    {error : EvaluationError}
    (h : (attemptInTurn context tick schedule ledger body fallbacks).outcome = .error error) :
    ∃ delegating stop beyond count,
      Rule.chainOf body fallbacks = delegating ++ stop :: beyond ∧
      (∀ link ∈ delegating, link.Delegates context tick schedule ledger) ∧
      stop.RunsThrough context count ledger
        (attemptInTurn context tick schedule ledger body fallbacks).ledger ∧
      stop.round context (attemptInTurn context tick schedule ledger body fallbacks).ledger =
        ((attemptInTurn context tick schedule ledger body fallbacks).ledger,
          some (.failed error)) ∧
      evaluatedHandles (attemptInTurn context tick schedule ledger body fallbacks).journal =
        (delegating ++ [stop]).map fun link ↦ link.handle := by
  induction fallbacks generalizing body with
  | nil =>
    rw [attemptInTurn] at h ⊢
    split_ifs at h ⊢ with hdue
    · obtain ⟨count, hthrough, hfailed⟩ := RuleBody.runsThrough_of_evaluate_eq_error h
      refine ⟨[], Rule.ofBodies body [], [], count, rfl, by simp, hthrough, hfailed, ?_⟩
      exact evaluatedHandles_evaluationJournal body context tick ledger _
    · cases h
  | cons fallback later ih =>
    by_cases hdelegates : (Rule.ofBodies body (fallback :: later)).Delegates context tick schedule
        ledger
    · rw [Rule.attempt_of_delegates hdelegates] at h ⊢
      obtain ⟨delegating, stop, beyond, count, hchain, hlinks, hthrough, hfailed, hevaluated⟩ :=
        ih h
      refine ⟨Rule.ofBodies body (fallback :: later) :: delegating, stop, beyond, count, ?_, ?_,
        hthrough, hfailed, ?_⟩
      · rw [Rule.chainOf, hchain, List.cons_append]
      · exact List.forall_mem_cons.2 ⟨hdelegates, hlinks⟩
      · rw [evaluatedHandles_attemptOfFallback, hevaluated]
        rfl
    · rw [Rule.delegates_ofBodies_cons_iff] at hdelegates
      simp only [attemptInTurn] at h ⊢
      split_ifs at h ⊢ with hdue hblocked
      · exact absurd ⟨hdue, hblocked⟩ hdelegates
      · obtain ⟨count, hthrough, hfailed⟩ := RuleBody.runsThrough_of_evaluate_eq_error h
        refine ⟨[], Rule.ofBodies body (fallback :: later), Rule.chainOf fallback later, count, rfl,
          by simp, hthrough, hfailed, ?_⟩
        exact evaluatedHandles_evaluationJournal body context tick ledger _
      · cases h

/-! ### Batches that are broken off -/

/-- After a batch the rules that were evaluated are remembered and no others. -/
theorem remembers_runBatch (context : Context) (tick : Int) (schedule : Schedule)
    (ledger : Ledger) (rules : List Rule) :
    (runBatch context tick schedule ledger rules).schedule.Remembers schedule tick
      (runBatch context tick schedule ledger rules).journal := by
  induction rules generalizing schedule ledger with
  | nil => exact Schedule.Remembers.refl schedule tick
  | cons rule later ih =>
    have hattempt := remembers_attemptInTurn context tick schedule ledger rule.toRuleBody
      rule.fallbacks
    simp only [runBatch]
    split_ifs with hperiod
    · exact ih schedule ledger
    · split
      · exact hattempt
      · exact hattempt.trans (ih _ _)

/-- A batch that is broken off ends with the attempt at one of its rules, in the state that the
batch of the rules before it left behind. -/
theorem exists_attempt_of_runBatch_error {rules : List Rule} {error : EvaluationError}
    (h : (runBatch context tick schedule ledger rules).error = some error) :
    ∃ earlier rule later, rules = earlier ++ rule :: later ∧
      let before := runBatch context tick schedule ledger earlier
      let attempt := rule.attempt context tick before.schedule before.ledger
      before.error = none ∧ rule.period ≠ 0 ∧ attempt.outcome = .error error ∧
        runBatch context tick schedule ledger rules =
          { ledger := attempt.ledger
            schedule := attempt.schedule
            error := some error
            journal := before.journal ++ attempt.journal } := by
  induction rules generalizing schedule ledger with
  | nil => simp [runBatch] at h
  | cons rule later ih =>
    simp only [runBatch] at h ⊢
    split_ifs at h ⊢ with hperiod
    · obtain ⟨earlier, stop, rest, hrules, hbefore⟩ := ih h
      refine ⟨rule :: earlier, stop, rest, by rw [hrules, List.cons_append], ?_⟩
      simpa only [runBatch, if_pos hperiod] using hbefore
    · cases houtcome : (rule.attempt context tick schedule ledger).outcome with
      | error found =>
        simp only [houtcome] at h ⊢
        cases h
        exact ⟨[], rule, later, rfl, rfl, hperiod, houtcome, rfl⟩
      | ok count =>
        simp only [houtcome] at h ⊢
        obtain ⟨earlier, stop, rest, hrules, hbefore⟩ := ih h
        obtain ⟨hnone, hscheduled, hraised, hbatch⟩ := hbefore
        refine ⟨rule :: earlier, stop, rest, by rw [hrules, List.cons_append], ?_⟩
        simp only [runBatch, if_neg hperiod, houtcome]
        exact ⟨hnone, hscheduled, hraised, by rw [hbatch, List.append_assoc]⟩

/-- The batch is broken off by an error at the rule behind the earlier ones. What the earlier rules
did is kept in full. Of the rule itself there are the rounds that went through before the error,
which are none, as an error shows at the first round. -/
structure BrokenOffAt (context : Context) (tick : Int) (schedule : Schedule) (ledger : Ledger)
    (earlier : List Rule) (rule : Rule) (error : EvaluationError) (batch : Batch) : Prop where
  scheduled : rule.period ≠ 0
  completes : (runBatch context tick schedule ledger earlier).error = none
  raises : ∃ delegating stop beyond count,
    let before := runBatch context tick schedule ledger earlier
    rule.chain = delegating ++ stop :: beyond ∧
      (∀ link ∈ delegating, link.Delegates context tick before.schedule before.ledger) ∧
      stop.RunsThrough context count before.ledger batch.ledger ∧
      stop.round context batch.ledger = (batch.ledger, some (.failed error)) ∧
      evaluatedHandles batch.journal =
        evaluatedHandles before.journal ++ (delegating ++ [stop]).map fun link ↦ link.handle
  ledger_eq : batch.ledger = (runBatch context tick schedule ledger earlier).ledger
  remembers : batch.schedule.Remembers schedule tick batch.journal

/-- A batch with an error is broken off at one of its rules. -/
theorem exists_brokenOffAt {rules : List Rule} {error : EvaluationError}
    (h : (runBatch context tick schedule ledger rules).error = some error) :
    ∃ earlier rule later, rules = earlier ++ rule :: later ∧
      BrokenOffAt context tick schedule ledger earlier rule error
        (runBatch context tick schedule ledger rules) := by
  obtain ⟨earlier, rule, later, hrules, hnone, hscheduled, houtcome, hbatch⟩ :=
    exists_attempt_of_runBatch_error h
  have hremembers := remembers_runBatch context tick schedule ledger rules
  obtain ⟨delegating, stop, beyond, count, hchain, hlinks, hthrough, hfailed, hevaluated⟩ :=
    attemptInTurn_eq_error houtcome
  refine ⟨earlier, rule, later, hrules, hscheduled, hnone, ?_, ?_, hremembers⟩
  · rw [hbatch]
    refine ⟨delegating, stop, beyond, count, hchain, hlinks, hthrough, hfailed, ?_⟩
    rw [evaluatedHandles_append]
    exact congrArg (evaluatedHandles _ ++ ·) hevaluated
  · rw [hbatch]
    exact (RuleBody.ledger_eq_of_failed hthrough hfailed).2

end Attempts

/-! ### Turns -/

namespace Simulation

/-- The simulation after turns with their batches. -/
def afterTurns (simulation : Simulation) (turns : List Turn) : Simulation :=
  turns.foldl (fun reached turn ↦ reached.afterBatch turn.scope turn.batch) simulation

theorem turns_runScopes (simulation : Simulation) (scopes : List Scope) :
    (simulation.runScopes scopes).turns.map Turn.scope = scopes ∧
      (simulation.runScopes scopes).simulation =
        simulation.afterTurns (simulation.runScopes scopes).turns := by
  induction scopes generalizing simulation with
  | nil => exact ⟨rfl, rfl⟩
  | cons scope later ih =>
    obtain ⟨hscopes, hsimulation⟩ := ih (simulation.afterBatch scope (simulation.batch scope))
    simp only [runScopes, List.map_cons, hscopes]
    exact ⟨trivial, hsimulation⟩

/-- Every turn runs the batch of its scope on what the turns before it left behind. -/
theorem batch_of_runScopes {simulation : Simulation} {scopes : List Scope}
    {earlier later : List Turn} {turn : Turn}
    (h : (simulation.runScopes scopes).turns = earlier ++ turn :: later) :
    turn.batch = (simulation.afterTurns earlier).batch turn.scope := by
  induction scopes generalizing simulation earlier with
  | nil => simp [runScopes] at h
  | cons scope rest ih =>
    simp only [runScopes] at h
    cases earlier with
    | nil =>
      obtain ⟨rfl, -⟩ := List.cons.inj h
      rfl
    | cons first earlier =>
      obtain ⟨rfl, hrest⟩ := List.cons.inj h
      have hbatch := ih hrest
      exact hbatch

theorem tick_afterTurns (simulation : Simulation) (turns : List Turn) :
    (simulation.afterTurns turns).tick = simulation.tick := by
  induction turns generalizing simulation with
  | nil => rfl
  | cons turn later ih => exact ih _

/-- Errors are contained in the batches that raise them. Whatever breaks off, a tick advances the
clock by one and gives one turn to the world and then to every agent in order, each on the pools and
schedules that the turns before it left behind, and it counts the turns that were broken off. A
batch that is broken off keeps what its rules before the one at fault did, and no part of a round
more. The rules evaluated in it, of which the one that raised the error is the last, are remembered
at this tick, and of all others what was remembered before. -/
theorem step_contains_errors (simulation : Simulation) :
    let begun := { simulation with tick := simulation.tick + 1 }
    let turns := simulation.step.turns
    simulation.step.simulation.tick = simulation.tick + 1 ∧
      turns.map Turn.scope = simulation.worldScope :: simulation.agents.map Agent.scope ∧
      simulation.step.simulation = begun.afterTurns turns ∧
      simulation.step.failures = (turns.filter fun turn ↦ turn.batch.error.isSome).length ∧
      ∀ earlier turn later, turns = earlier ++ turn :: later →
        let reached := begun.afterTurns earlier
        turn.batch = runBatch turn.scope.context (simulation.tick + 1)
            (reached.scheduleOf turn.scope.owner) reached.ledger turn.scope.rules ∧
          ∀ error, turn.batch.error = some error →
            ∃ passed rule rest, turn.scope.rules = passed ++ rule :: rest ∧
              BrokenOffAt turn.scope.context (simulation.tick + 1)
                (reached.scheduleOf turn.scope.owner) reached.ledger passed rule error
                turn.batch := by
  intro begun turns
  obtain ⟨hscopes, hsimulation⟩ := begun.turns_runScopes begun.scopes
  refine ⟨?_, hscopes, hsimulation, List.countP_eq_length_filter, ?_⟩
  · rw [step, hsimulation, tick_afterTurns]
  · intro earlier turn later hturns
    have hbatch : turn.batch = runBatch turn.scope.context (simulation.tick + 1)
        ((begun.afterTurns earlier).scheduleOf turn.scope.owner) (begun.afterTurns earlier).ledger
        turn.scope.rules := by
      rw [batch_of_runScopes hturns, batch, tick_afterTurns]
      rfl
    refine ⟨hbatch, ?_⟩
    intro error herror
    rw [hbatch] at herror
    rw [hbatch]
    exact exists_brokenOffAt herror

/-- The world sows before its mill, which is out of grain and falls back to a market that is nowhere
to be found. Its last rule is not evaluated, and the agent behind it has its turn. -/
theorem step_contains_errors_market :
    let grain : Resource := { handle := 1, key := "grain", singular := "grain", plural := "grain" }
    let part (relation : String) (quantity : Int) : Specifier :=
      { relation := relation, resource := grain, quantity := quantity }
    let sow : Rule := { handle := 2, name := "sow", outputs := [part "self" 3] }
    let trade : RuleBody := { handle := 3, name := "trade", outputs := [part "market" 1] }
    let mill : Rule :=
      { handle := 4, name := "mill", inputs := [part "self" 9], fallbacks := [trade] }
    let pool (owner : Owner) (quantity : Int) : Pool :=
      { owner := owner, resource := grain, quantity := quantity, capacity := 9 }
    let miller : Agent := { name := "miller", rules := [sow] }
    let simulation : Simulation :=
      { worldRules := [sow, mill, sow]
        agents := [miller]
        ledger := { pools := [pool .world 1, pool miller.owner 0] } }
    simulation.step.failures = 1 ∧
      simulation.step.simulation.ledger.pools = [pool .world 4, pool miller.owner 3] ∧
      ∃ turn ∈ simulation.step.turns, ∃ error, ∃ passed rule rest,
        turn.scope.rules = passed ++ rule :: rest ∧
          BrokenOffAt turn.scope.context 1 {} simulation.ledger passed rule error turn.batch := by
  intro grain part sow trade mill pool miller simulation
  obtain ⟨-, -, -, -, hturns⟩ := step_contains_errors simulation
  refine ⟨by decide, by decide, ?_⟩
  have hsplit : simulation.step.turns = [] ++
      simulation.step.turns.head (List.cons_ne_nil _ _) :: simulation.step.turns.tail := rfl
  have hworld := (hturns [] _ _ hsplit).2 (.poolsMissing "trade" .output "market") (by decide)
  exact ⟨_, List.mem_cons_self, _, hworld⟩

end Simulation

end TickEconomy
