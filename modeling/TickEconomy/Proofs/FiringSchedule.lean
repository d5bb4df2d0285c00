import TickEconomy.Proofs.EvaluationThrottle
import TickEconomy.Proofs.PoolBounds

/-!
# A rule that is scheduled is evaluated every period

Unlike a rule that is attempted at any tick a host likes, a rule in the list of a scope is attempted
at every tick. As long as no batch of the scope is broken off, it is evaluated at the first tick and
from then on whenever its period has passed, to the tick (`Simulation.evaluations_on_schedule`).

Two things are behind this. In a batch that is not broken off the rule is evaluated once if it is
due and not at all otherwise, however often it is listed, since its period is at least one tick and
no other rule leads to it (`Rule.evaluations_runBatch_of_due`). And the tick of its latest
evaluation is one behind a multiple of the period and less than a period back (`OnSchedule`), from
which it follows when it is due next (`OnSchedule.isDue_iff`). Every owner has one turn at a tick
and a schedule of its own, so nothing that others do matters
(`Simulation.exists_turn_of_runScopes`).
-/

set_option autoImplicit false
set_option relaxedAutoImplicit false

namespace TickEconomy

/-! ### One rule in a batch -/

/-- In the list the handle of the rule belongs to its own body only, and no other rule leads to
it. -/
structure Rule.StandsAlone (rule : Rule) (rules : List Rule) : Prop where
  nodup : ∀ other ∈ rules, (other.bodies.map RuleBody.handle).Nodup
  own : ∀ other ∈ rules, other.handle = rule.handle → other.toRuleBody = rule.toRuleBody
  fallback : ∀ other ∈ rules, ∀ body ∈ other.fallbacks, body.handle ≠ rule.handle

/-- Among rules with distinct handles a rule stands alone if it is no fallback of any of them. -/
theorem Rule.standsAlone_of_distinctHandles {known rules : List Rule} {rule : Rule}
    (hknown : DistinctHandles known) (hrules : ∀ other ∈ rules, other ∈ known)
    (hrule : rule ∈ rules) (hfallback : ∀ other ∈ rules, rule.toRuleBody ∉ other.fallbacks) :
    rule.StandsAlone rules := by
  have hbodies : ∀ other ∈ rules, ∀ body ∈ other.bodies, body ∈ known.flatMap Rule.bodies :=
    fun other hother body hbody ↦ List.mem_flatMap_of_mem (hrules other hother) hbody
  have hown : ∀ other ∈ rules, other.toRuleBody ∈ known.flatMap Rule.bodies :=
    fun other hother ↦ hbodies other hother _ List.mem_cons_self
  refine ⟨fun other hother ↦ hknown.nodup other (hrules other hother), ?_, ?_⟩
  · intro other hother hhandle
    exact hknown.body_eq _ (hown other hother) _ (hown rule hrule) hhandle
  · intro other hother body hbody hhandle
    have hmem := hbodies other hother body (List.mem_cons_of_mem _ hbody)
    have hsame := hknown.body_eq _ hmem _ (hown rule hrule) hhandle
    exact hfallback other hother (hsame ▸ hbody)

theorem Rule.StandsAlone.tail {rule other : Rule} {later : List Rule}
    (h : rule.StandsAlone (other :: later)) : rule.StandsAlone later where
  nodup := (List.forall_mem_cons.1 h.nodup).2
  own := (List.forall_mem_cons.1 h.own).2
  fallback := (List.forall_mem_cons.1 h.fallback).2

/-- Whether a rule is due depends on what is remembered of it. -/
theorem Schedule.isDue_congr {first second : Schedule} {body : RuleBody}
    (h : second.lastRun? body.handle = first.lastRun? body.handle) (tick : Int) :
    second.isDue body tick = first.isDue body tick := by
  rw [isDue, isDue, h]

namespace Rule

variable {rule other : Rule} {rules : List Rule} {context : Context} {tick : Int}
  {schedule : Schedule}

/-- A due rule is evaluated once when it is attempted. -/
theorem evaluations_attempt_of_due (context : Context) (ledger : Ledger)
    (hnodup : (rule.bodies.map RuleBody.handle).Nodup)
    (hdue : schedule.isDue rule.toRuleBody tick = true) :
    evaluations rule.handle (rule.attempt context tick schedule ledger).journal = [tick] ∧
      (rule.attempt context tick schedule ledger).schedule.lastRun? rule.handle = some tick := by
  have hevaluated := (rule.evaluated_mem_attempt_iff context tick schedule ledger).2 hdue
  have htick : tick ∈ evaluations rule.handle (rule.attempt context tick schedule ledger).journal :=
    List.mem_filterMap.2 ⟨_, hevaluated, if_pos rfl⟩
  obtain ⟨hnone, -⟩ | ⟨body, -, -, -, hone⟩ :=
    tracks_attemptInTurn context tick schedule ledger rule.handle hnodup
  · rw [attempt, hnone] at htick
    cases htick
  · exact hone

/-- An attempt at a rule that neither is the given one nor leads to it does not evaluate it. -/
theorem evaluations_attempt_of_ne {handle : Nat} (ledger : Ledger)
    (hnodup : (other.bodies.map RuleBody.handle).Nodup)
    (hne : ∀ body ∈ other.bodies, body.handle ≠ handle) :
    evaluations handle (other.attempt context tick schedule ledger).journal = [] ∧
      (other.attempt context tick schedule ledger).schedule.lastRun? handle =
        schedule.lastRun? handle := by
  obtain hnone | ⟨body, hbody, hhandle, -⟩ :=
    tracks_attemptInTurn context tick schedule ledger handle hnodup
  · exact hnone
  · exact absurd hhandle (hne body hbody)

/-- An attempt at any rule of the list evaluates a rule that stands alone only if it is an attempt
at this rule and the rule is due. -/
theorem evaluations_attempt (h : rule.StandsAlone (other :: rules)) (context : Context)
    (tick : Int) (schedule : Schedule) (ledger : Ledger) :
    let attempt := other.attempt context tick schedule ledger
    if other.handle = rule.handle ∧ schedule.isDue rule.toRuleBody tick = true then
      evaluations rule.handle attempt.journal = [tick] ∧
        attempt.schedule.lastRun? rule.handle = some tick
    else
      evaluations rule.handle attempt.journal = [] ∧
        attempt.schedule.lastRun? rule.handle = schedule.lastRun? rule.handle := by
  intro attempt
  have hnodup := h.nodup other List.mem_cons_self
  split_ifs with hcase
  · obtain ⟨hhandle, hdue⟩ := hcase
    rw [← h.own other List.mem_cons_self hhandle] at hdue
    have hevaluated := evaluations_attempt_of_due context ledger hnodup hdue
    rwa [hhandle] at hevaluated
  · by_cases hhandle : other.handle = rule.handle
    · have hdue : schedule.isDue other.toRuleBody tick = false := by
        rw [h.own other List.mem_cons_self hhandle]
        exact Bool.eq_false_iff.2 fun hdue ↦ hcase ⟨hhandle, hdue⟩
      have hidle := attempt_of_not_due hdue context ledger
      exact ⟨congrArg (fun reached : Attempt ↦ evaluations rule.handle reached.journal) hidle,
        congrArg (fun reached : Attempt ↦ reached.schedule.lastRun? rule.handle) hidle⟩
    · refine evaluations_attempt_of_ne ledger hnodup fun body hbody ↦ ?_
      rcases List.mem_cons.1 hbody with rfl | hfallback
      · exact hhandle
      · exact h.fallback other List.mem_cons_self body hfallback

/-- A rule that is not due is not evaluated in a batch. -/
theorem evaluations_runBatch_of_not_due (h : rule.StandsAlone rules) (context : Context)
    (ledger : Ledger) (hdue : schedule.isDue rule.toRuleBody tick = false) :
    evaluations rule.handle (runBatch context tick schedule ledger rules).journal = [] ∧
      (runBatch context tick schedule ledger rules).schedule.lastRun? rule.handle =
        schedule.lastRun? rule.handle := by
  induction rules generalizing schedule ledger with
  | nil => exact ⟨rfl, rfl⟩
  | cons other later ih =>
    have hattempt := evaluations_attempt h context tick schedule ledger
    have hno : ¬ (other.handle = rule.handle ∧ schedule.isDue rule.toRuleBody tick = true) :=
      fun hcase ↦ Bool.eq_false_iff.1 hdue hcase.2
    rw [if_neg hno] at hattempt
    obtain ⟨hnone, hlast⟩ := hattempt
    simp only [runBatch]
    split_ifs with hperiod
    · exact ih h.tail ledger hdue
    · split
      · exact ⟨hnone, hlast⟩
      · have hlater := ih h.tail (other.attempt context tick schedule ledger).ledger
          ((Schedule.isDue_congr hlast tick).trans hdue)
        rw [evaluations_append, hnone, hlater.1]
        exact ⟨rfl, hlater.2.trans hlast⟩

/-- A listed rule that is due is evaluated once in a batch that is not broken off. -/
theorem evaluations_runBatch_of_due {ledger : Ledger} (h : rule.StandsAlone rules)
    (hperiod : 0 < rule.period)
    (hlisted : ∃ other ∈ rules, other.handle = rule.handle)
    (hcomplete : (runBatch context tick schedule ledger rules).error = none)
    (hdue : schedule.isDue rule.toRuleBody tick = true) :
    evaluations rule.handle (runBatch context tick schedule ledger rules).journal = [tick] ∧
      (runBatch context tick schedule ledger rules).schedule.lastRun? rule.handle = some tick := by
  induction rules generalizing schedule ledger with
  | nil =>
    obtain ⟨other, hother, -⟩ := hlisted
    cases hother
  | cons other later ih =>
    have hattempt := evaluations_attempt h context tick schedule ledger
    by_cases hhandle : other.handle = rule.handle
    · -- The rule itself is attempted, and with its period it is not due again at this tick.
      have hscheduled : other.period ≠ 0 := by
        rw [h.own other List.mem_cons_self hhandle]
        exact hperiod.ne'
      rw [if_pos ⟨hhandle, hdue⟩] at hattempt
      obtain ⟨hone, hlast⟩ := hattempt
      have hnot : (other.attempt context tick schedule ledger).schedule.isDue rule.toRuleBody
          tick = false := by
        rw [Schedule.isDue, hlast]
        exact decide_eq_false (by omega)
      have hlater := evaluations_runBatch_of_not_due h.tail context
        (other.attempt context tick schedule ledger).ledger hnot
      simp only [runBatch, if_neg hscheduled] at hcomplete ⊢
      cases houtcome : (other.attempt context tick schedule ledger).outcome with
      | error error => simp [houtcome] at hcomplete
      | ok count =>
        rw [evaluations_append, hone, hlater.1]
        exact ⟨rfl, hlater.2.trans hlast⟩
    · have hlater : ∃ next ∈ later, next.handle = rule.handle := by
        obtain ⟨next, hnext, hsame⟩ := hlisted
        rcases List.mem_cons.1 hnext with rfl | hmem
        · exact absurd hsame hhandle
        · exact ⟨next, hmem, hsame⟩
      rw [if_neg fun hcase ↦ hhandle hcase.1] at hattempt
      obtain ⟨hnone, hlast⟩ := hattempt
      simp only [runBatch] at hcomplete ⊢
      split_ifs at hcomplete ⊢ with hskipped
      · exact ih h.tail hlater hcomplete hdue
      · cases houtcome : (other.attempt context tick schedule ledger).outcome with
        | error error => simp [houtcome] at hcomplete
        | ok count =>
          simp only [houtcome] at hcomplete
          rw [evaluations_append, hnone]
          exact ih h.tail hlater hcomplete ((Schedule.isDue_congr hlast tick).trans hdue)

end Rule

/-! ### From one tick to the next -/

/-- After a number of ticks the tick of the latest evaluation is one behind a multiple of the period
and less than a period back; before the first tick there is none. -/
def OnSchedule (period : Int) : Nat → Option Int → Prop
  | 0, last => last = none
  | passed + 1, last =>
    ∃ tick, last = some tick ∧ period ∣ tick - 1 ∧ tick ≤ (passed + 1 : Nat) ∧
      (passed + 1 : Nat) < tick + period

namespace OnSchedule

variable {period : Int} {passed : Nat}

/-- A rule is due at the next tick when a multiple of its period has passed. -/
theorem isDue_iff {schedule : Schedule} {body : RuleBody}
    (h : OnSchedule body.period passed (schedule.lastRun? body.handle)) :
    schedule.isDue body (passed + 1 : Nat) = true ↔ body.period ∣ (passed : Int) := by
  cases passed with
  | zero =>
    have hnone : schedule.lastRun? body.handle = none := h
    simp [Schedule.isDue, hnone]
  | succ passed =>
    obtain ⟨last, hlast, hmultiple, hbehind, hback⟩ := h
    rw [Schedule.isDue, hlast]
    simp only [decide_eq_true_eq]
    constructor
    · intro hdue
      have hpassed : ((passed + 1 : Nat) : Int) = last - 1 + body.period := by
        push_cast at hdue hback ⊢
        omega
      rw [hpassed]
      exact Int.dvd_add hmultiple (Int.dvd_refl _)
    · intro hpassed
      -- What has passed since the latest evaluation is a positive multiple of the period.
      have hsince : body.period ∣ (passed + 1 : Nat) - (last - 1) :=
        Int.dvd_sub hpassed hmultiple
      have hleast := Int.le_of_dvd (by omega) hsince
      push_cast at hleast ⊢
      omega

/-- The schedule is kept to by an evaluation at every tick at which the rule is due. -/
theorem next {last : Option Int} (h : OnSchedule period passed last) (hperiod : 0 < period) :
    OnSchedule period (passed + 1)
      (if period ∣ (passed : Int) then some ((passed + 1 : Nat) : Int) else last) := by
  split_ifs with hmultiple
  · refine ⟨_, rfl, ?_, le_rfl, by omega⟩
    have hpassed : ((passed + 1 : Nat) : Int) - 1 = passed := by omega
    rwa [hpassed]
  · cases passed with
    | zero => exact absurd (Int.dvd_zero period) hmultiple
    | succ passed =>
      obtain ⟨tick, hlast, hbefore, hbehind, hback⟩ := h
      refine ⟨tick, hlast, hbefore, by omega, ?_⟩
      by_contra hlate
      have hpassed : ((passed + 1 : Nat) : Int) = tick - 1 + period := by
        push_cast at hback hlate ⊢
        omega
      exact hmultiple (hpassed ▸ Int.dvd_add hbefore (Int.dvd_refl period))

end OnSchedule

/-! ### Turns of one owner -/

/-- The turns that the owner had at the tick. -/
def Tick.turnsOf (tick : Tick) (owner : Owner) : List Turn :=
  tick.turns.filter fun turn ↦ turn.scope.owner = owner

/-- The evaluations of the rule with the handle in the turns of the owner at the tick. -/
def Tick.evaluationsBy (tick : Tick) (owner : Owner) (handle : Nat) : List Int :=
  (tick.turnsOf owner).flatMap fun turn ↦ evaluations handle turn.batch.journal

namespace Simulation

/-- Turns of others are no turns of the owner and leave its schedule as it is. -/
theorem turnsOf_runScopes_of_ne {scopes : List Scope} {owner : Owner}
    (h : ∀ scope ∈ scopes, scope.owner ≠ owner) (simulation : Simulation) :
    (simulation.runScopes scopes).turnsOf owner = [] ∧
      (simulation.runScopes scopes).simulation.scheduleOf owner = simulation.scheduleOf owner := by
  induction scopes generalizing simulation with
  | nil => exact ⟨rfl, rfl⟩
  | cons scope later ih =>
    obtain ⟨hne, hlater⟩ := List.forall_mem_cons.1 h
    obtain ⟨hturns, hschedule⟩ := ih hlater (simulation.afterBatch scope (simulation.batch scope))
    rw [scheduleOf_afterBatch, if_neg hne] at hschedule
    refine ⟨?_, by rw [simulation_runScopes_cons, hschedule]⟩
    rw [Tick.turnsOf, runScopes, List.filter_cons_of_neg (by simpa using hne)]
    exact hturns

/-- Among turns of distinct owners each owner has one, which starts from the schedule that the owner
had before, and what the batch leaves of it is the schedule of the owner afterwards. -/
theorem exists_turn_of_runScopes {scopes : List Scope} {scope : Scope} (hscope : scope ∈ scopes)
    (hdistinct : (scopes.map Scope.owner).Nodup) (simulation : Simulation) :
    ∃ ledger,
      let batch := runBatch scope.context simulation.tick (simulation.scheduleOf scope.owner) ledger
        scope.rules
      (simulation.runScopes scopes).turnsOf scope.owner = [{ scope := scope, batch := batch }] ∧
        (simulation.runScopes scopes).simulation.scheduleOf scope.owner = batch.schedule := by
  induction scopes generalizing simulation with
  | nil => cases hscope
  | cons first later ih =>
    rw [List.map_cons, List.nodup_cons] at hdistinct
    obtain ⟨hfresh, hlater⟩ := hdistinct
    rcases List.mem_cons.1 hscope with rfl | hmem
    · have hothers : ∀ other ∈ later, other.owner ≠ scope.owner := fun other hother hsame ↦
        hfresh (List.mem_map.2 ⟨other, hother, hsame⟩)
      obtain ⟨hturns, hschedule⟩ := turnsOf_runScopes_of_ne hothers
        (simulation.afterBatch scope (simulation.batch scope))
      rw [scheduleOf_afterBatch, if_pos rfl] at hschedule
      refine ⟨simulation.ledger, ?_, by rw [simulation_runScopes_cons, hschedule]; rfl⟩
      rw [Tick.turnsOf, runScopes, List.filter_cons_of_pos (by simp)]
      exact congrArg (_ :: ·) hturns
    · have hne : first.owner ≠ scope.owner := fun hsame ↦
        hfresh (List.mem_map.2 ⟨scope, hmem, hsame.symm⟩)
      obtain ⟨ledger, hturns, hschedule⟩ := ih hmem hlater
        (simulation.afterBatch first (simulation.batch first))
      rw [scheduleOf_afterBatch, if_neg hne, tick_afterBatch] at hturns hschedule
      refine ⟨ledger, ?_, by rw [simulation_runScopes_cons, hschedule]⟩
      rw [Tick.turnsOf, runScopes, List.filter_cons_of_neg (by simpa using hne)]
      exact hturns

theorem tick_runScopes (simulation : Simulation) (scopes : List Scope) :
    (simulation.runScopes scopes).simulation.tick = simulation.tick := by
  induction scopes generalizing simulation with
  | nil => rfl
  | cons scope later ih => exact ih _

/-- The simulation of a scenario has gone through as many ticks as it was taken through. -/
theorem tick_after_ofScenario (scenario : Scenario) (ticks : Nat) :
    ((ofScenario scenario).after ticks).tick = ticks := by
  induction ticks with
  | zero => rfl
  | succ ticks ih =>
    rw [after, step, tick_runScopes]
    exact congrArg (· + 1) ih

/-- The turns at a tick of a scenario text belong to distinct owners. -/
theorem nodup_owners_of_parse {catalog : Catalog} {rules : List Rule} {lines : List (List Char)}
    {scenario : Scenario} (h : Scenario.parse catalog rules lines = .ok scenario) :
    ((ofScenario scenario).scopes.map Scope.owner).Nodup := by
  have hnames := Scenario.nodup_names_of_parse h
  have howners : (ofScenario scenario).scopes.map Scope.owner =
      .world :: (scenario.agents.map Agent.name).map Owner.agent := by
    rw [scopes, List.map_cons, List.map_map, List.map_map]
    rfl
  rw [howners, List.nodup_cons]
  refine ⟨by simp, hnames.map fun first second hsame ↦ Owner.agent.inj hsame⟩

/-- At a tick at which no batch of the scope is broken off, a listed rule that stands alone is
evaluated once by the scope if a multiple of its period has passed, and not at all otherwise. -/
theorem evaluationsBy_step {simulation : Simulation} {scope : Scope} {rule : Rule} {passed : Nat}
    (hdistinct : (simulation.scopes.map Scope.owner).Nodup) (hscope : scope ∈ simulation.scopes)
    (htick : simulation.tick = passed) (hrule : rule ∈ scope.rules)
    (halone : rule.StandsAlone scope.rules) (hperiod : 0 < rule.period)
    (hcomplete : ∀ turn ∈ simulation.step.turnsOf scope.owner, turn.batch.error = none)
    (h : OnSchedule rule.period passed ((simulation.scheduleOf scope.owner).lastRun? rule.handle)) :
    (simulation.step.evaluationsBy scope.owner rule.handle =
        if rule.period ∣ (passed : Int) then [((passed + 1 : Nat) : Int)] else []) ∧
      OnSchedule rule.period (passed + 1)
        ((simulation.step.simulation.scheduleOf scope.owner).lastRun? rule.handle) := by
  subst htick
  have hnext := h.next hperiod
  have hdueIff := h.isDue_iff
  obtain ⟨ledger, hturns, hschedule⟩ := exists_turn_of_runScopes hscope hdistinct
    { simulation with tick := simulation.tick + 1 }
  have hturnsOf : simulation.step.turnsOf scope.owner = [_] := hturns
  have hscheduleOf : simulation.step.simulation.scheduleOf scope.owner = _ := hschedule
  have herror := hcomplete _ (hturnsOf ▸ List.mem_singleton_self _)
  rw [Tick.evaluationsBy, hturnsOf, hscheduleOf, List.flatMap_singleton]
  by_cases hdue : rule.period ∣ (simulation.tick : Int)
  · rw [if_pos hdue] at hnext ⊢
    obtain ⟨hone, hlast⟩ := Rule.evaluations_runBatch_of_due halone hperiod
      ⟨rule, hrule, rfl⟩ herror (hdueIff.2 hdue)
    exact ⟨hone, hlast ▸ hnext⟩
  · rw [if_neg hdue] at hnext ⊢
    obtain ⟨hnone, hlast⟩ := Rule.evaluations_runBatch_of_not_due halone _ _
      (Bool.eq_false_iff.2 fun hnow ↦ hdue (hdueIff.1 hnow))
    exact ⟨hnone, hlast ▸ hnext⟩

/-- In the simulation of a rule text and a scenario text, as long as no batch of a scope is broken
off, a rule of its list whose period is at least one tick and which is no fallback in the list is
evaluated by the scope at the first tick and after every multiple of its period, once each, and at
no other tick. It does not matter how often it is listed and by whom else, what the pools hold, what
its evaluations come to and what the other scopes do. -/
theorem evaluations_on_schedule {catalog : Catalog} {firstHandle : Nat}
    {ruleLines scenarioLines : List (List Char)} {rules : List Rule} {scenario : Scenario}
    (hrules : Rule.parse catalog firstHandle ruleLines = .ok rules)
    (hscenario : Scenario.parse catalog rules scenarioLines = .ok scenario)
    {scope : Scope} (hscope : scope ∈ (ofScenario scenario).scopes)
    {rule : Rule} (hrule : rule ∈ scope.rules) (hperiod : 1 ≤ rule.period)
    (hfallback : ∀ other ∈ scope.rules, rule.toRuleBody ∉ other.fallbacks) {ticks : Nat}
    (hcomplete : ∀ passed < ticks, ∀ turn ∈
      ((ofScenario scenario).after passed).step.turnsOf scope.owner, turn.batch.error = none) :
    ∀ passed < ticks,
      ((ofScenario scenario).after passed).step.evaluationsBy scope.owner rule.handle =
        if rule.period ∣ (passed : Int) then [((passed + 1 : Nat) : Int)] else [] := by
  have halone : rule.StandsAlone scope.rules :=
    Rule.standsAlone_of_distinctHandles (Rule.distinctHandles_of_parse hrules)
      (mem_rules_of_wellSetUp (Scenario.wellSetUp_of_parse hscenario) scope hscope) hrule hfallback
  have hdistinct := nodup_owners_of_parse hscenario
  have hstep {passed : Nat} (hpassed : passed < ticks)
      (h : OnSchedule rule.period passed
        ((((ofScenario scenario).after passed).scheduleOf scope.owner).lastRun? rule.handle)) :=
    evaluationsBy_step (by rwa [scopes_after]) (by rwa [scopes_after])
      (tick_after_ofScenario scenario passed) hrule halone (by omega) (hcomplete passed hpassed) h
  have hon : ∀ passed ≤ ticks, OnSchedule rule.period passed
      ((((ofScenario scenario).after passed).scheduleOf scope.owner).lastRun? rule.handle) := by
    intro passed
    induction passed with
    | zero => exact fun _ ↦ rfl
    | succ passed ih => exact fun hpassed ↦ (hstep hpassed (ih (Nat.le_of_lt hpassed))).2
  exact fun passed hpassed ↦ (hstep hpassed (hon passed (Nat.le_of_lt hpassed))).1

/-- The world lists a rule of period 2 twice and an agent lists it as well. It is always short of
grain and falls back, and still each of them evaluates it at the ticks 1, 3 and 5. -/
theorem evaluations_on_schedule_sow :
    let grain : Resource := { handle := 1, key := "grain", singular := "grain", plural := "grain" }
    let part (quantity : Int) : Specifier :=
      { relation := "self", resource := grain, quantity := quantity }
    let glean : RuleBody := { handle := 3, name := "glean", outputs := [part 1] }
    let sow : Rule :=
      { handle := 2, name := "sow", period := 2, inputs := [part 9], fallbacks := [glean] }
    let catalog : Catalog := { resources := [grain] }
    let rules : List Rule := [sow, Rule.ofBodies glean []]
    let farmer : Agent := { name := "farmer", rules := [sow] }
    let scenario : Scenario :=
      { worldRules := [sow, sow]
        agents := [farmer]
        ledger := { pools := [{ owner := .world, resource := grain, quantity := 3,
                                capacity := 6 }] } }
    let ruleLines : List (List Char) := ["rule sow", "every 2", "in grain 9", "onfail glean", "end",
      "rule glean", "out grain 1", "end"].map String.toList
    let scenarioLines : List (List Char) := ["world", "pool grain 6 3", "rules sow sow", "end",
      "agent farmer", "rules sow", "end"].map String.toList
    Rule.parse catalog 2 ruleLines = .ok rules ∧
      Scenario.parse catalog rules scenarioLines = .ok scenario ∧
      ∀ scope ∈ (ofScenario scenario).scopes,
        sow ∈ scope.rules ∧ (∀ other ∈ scope.rules, sow.toRuleBody ∉ other.fallbacks) ∧
          (∀ passed < 5, ∀ turn ∈ ((ofScenario scenario).after passed).step.turnsOf scope.owner,
            turn.batch.error = none) ∧
          ∀ passed < 5, ((ofScenario scenario).after passed).step.evaluationsBy scope.owner 2 =
            if 2 ∣ (passed : Int) then [((passed + 1 : Nat) : Int)] else [] := by
  intro grain part glean sow catalog rules farmer scenario ruleLines scenarioLines
  have hrules : Rule.parse catalog 2 ruleLines = .ok rules := by decide +kernel
  have hscenario : Scenario.parse catalog rules scenarioLines = .ok scenario := by decide +kernel
  have hlisted : ∀ scope ∈ (ofScenario scenario).scopes, sow ∈ scope.rules := by decide
  have hfallback : ∀ scope ∈ (ofScenario scenario).scopes, ∀ other ∈ scope.rules,
      sow.toRuleBody ∉ other.fallbacks := by decide
  have hcomplete : ∀ scope ∈ (ofScenario scenario).scopes, ∀ passed < 5,
      ∀ turn ∈ ((ofScenario scenario).after passed).step.turnsOf scope.owner,
        turn.batch.error = none := by decide +kernel
  refine ⟨hrules, hscenario, fun scope hscope ↦ ⟨hlisted scope hscope, hfallback scope hscope,
    hcomplete scope hscope, ?_⟩⟩
  exact evaluations_on_schedule hrules hscenario hscope (hlisted scope hscope) (by decide)
    (hfallback scope hscope) (hcomplete scope hscope)

end Simulation

end TickEconomy
