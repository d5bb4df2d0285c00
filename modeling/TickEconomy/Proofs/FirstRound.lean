import TickEconomy.Proofs.RoundCount

/-!
# What the first round decides

The first round of a rule can fall through in two ways that are no errors: a requirement is not met,
or the inputs are there one by one but not together, and the round is abandoned. A rule that has
rounds to make, makes none of them and raises no error has met one of the two
(`Rule.first_round_of_no_rounds`).

Only the first way leads to the fallback. Then the fallback is attempted in the state in which the
rule was, and is remembered if it was due. When the first round is abandoned, the attempt ends
there: nothing changes but that the rule is remembered, and a fallback that was due stays untried
(`Rule.fallback_attempted_unless_abandoned`). So it is not true of every first round that fails that
the fallback is tried (`Rule.fallback_left_out_of_abandoned_round`).
-/

set_option autoImplicit false
set_option relaxedAutoImplicit false

namespace TickEconomy

/-- A round is blocked just by what keeps the rule from it. -/
theorem RuleBody.round_eq_blocked_iff (rule : RuleBody) (context : Context) (ledger : Ledger)
    (shortfall : Shortfall) :
    rule.round context ledger = (ledger, some (.blocked shortfall)) ↔
      rule.shortfall? context ledger = .ok (some shortfall) := by
  refine ⟨fun h ↦ ?_, round_of_shortfall⟩
  cases hshortfall : rule.shortfall? context ledger with
  | error error => simp [round, hshortfall] at h
  | ok found =>
    cases found with
    | some found =>
      rw [round_of_shortfall hshortfall] at h
      simpa using h
    | none =>
      simp only [round, hshortfall] at h
      obtain ⟨error, happly⟩ | ⟨input, -, happly⟩ | ⟨inputs, outputs, sets, -, -, -, happly⟩ :=
        apply_cases hshortfall
      · simp [happly] at h
      · simp [happly] at h
      · simp [happly] at h

namespace Rule

/-- A rule and its fallback have different handles when no handle comes twice in the chain. -/
theorem handle_ne_of_fallback? {rule fallback : Rule}
    (hfallback : rule.fallback? = some fallback)
    (hhandles : (rule.bodies.map RuleBody.handle).Nodup) : rule.handle ≠ fallback.handle := by
  obtain ⟨body, fallbacks⟩ := rule
  cases fallbacks with
  | nil => simp [fallback?] at hfallback
  | cons next later =>
    obtain rfl := Option.some.inj hfallback
    intro hsame
    exact (List.nodup_cons.1 hhandles).1 (List.mem_map.2 ⟨next, List.mem_cons_self, hsame.symm⟩)

section Attempts

variable {rule fallback : Rule} {context : Context} {tick : Int} {schedule : Schedule}
  {ledger : Ledger}

/-- A rule that delegates attempts its fallback in its own state. -/
theorem attempt_eq_attemptOfFallback (hfallback : rule.fallback? = some fallback)
    (h : rule.Delegates context tick schedule ledger) :
    rule.attempt context tick schedule ledger =
      rule.attemptOfFallback context tick ledger (rule.evaluate context ledger)
        fallback.toRuleBody (fallback.attempt context tick schedule ledger) := by
  obtain ⟨body, fallbacks⟩ := rule
  cases fallbacks with
  | nil => simp [fallback?] at hfallback
  | cons next later =>
    obtain rfl := Option.some.inj hfallback
    exact attempt_of_delegates h

/-- A first round that falls through without being blocked ends the attempt: there is no round to
count, and no fallback comes in. -/
theorem attempt_of_round_eq_some (hdue : schedule.isDue rule.toRuleBody tick = true)
    (hplanned : 0 < rule.plannedRounds context ledger) {obstacle : Obstacle}
    (hround : rule.round context ledger = (ledger, some obstacle))
    (hnotBlocked : ∀ shortfall, obstacle ≠ .blocked shortfall) :
    rule.attempt context tick schedule ledger =
      rule.attemptOfRounds context tick schedule ledger
        { ledger := ledger, completed := 0, obstacle := some obstacle } := by
  have hstays : ¬ rule.Delegates context tick schedule ledger := by
    intro h
    obtain ⟨shortfall, hshort⟩ := h.short
    have hblocked := hround.symm.trans (RuleBody.round_of_shortfall hshort)
    exact hnotBlocked shortfall (Option.some.inj (Prod.mk.inj hblocked).2)
  rw [attempt_of_not_delegates hdue hstays, RuleBody.evaluate_of_round_eq_some hplanned hround]

/-- Of a rule with rounds to make, none of which goes through or raises an error, the first round is
blocked or abandoned. -/
theorem first_round_of_no_rounds (hdue : schedule.isDue rule.toRuleBody tick = true)
    (hplanned : 0 < rule.plannedRounds context ledger) {count : Nat}
    (hreturns : (rule.attempt context tick schedule ledger).outcome = .ok count)
    (hnone : (rule.evaluate context ledger).completed = 0) :
    (∃ shortfall, rule.round context ledger = (ledger, some (.blocked shortfall))) ∨
      ∃ input, rule.round context ledger = (ledger, some (.abandoned input)) := by
  cases hround : rule.round context ledger with
  | mk reached stopped =>
    cases stopped with
    | none =>
      have hsome := RuleBody.completed_pos_of_round_eq_none hplanned hround
      omega
    | some obstacle =>
      obtain rfl := RuleBody.ledger_of_round_eq_some hround
      cases obstacle with
      | blocked shortfall => exact Or.inl ⟨shortfall, rfl⟩
      | abandoned input => exact Or.inr ⟨input, rfl⟩
      | failed error =>
        -- The error would be the outcome of the attempt.
        rw [attempt_of_round_eq_some hdue hplanned hround (by simp)] at hreturns
        cases hreturns

end Attempts

/-- A rule with a fallback is attempted when it is due and has rounds to make, raises no error and
completes no round of its own. If its first round was blocked, the fallback is attempted in its
stead, and is remembered at this tick if it was due. Otherwise the first round was abandoned, and
then no pool changes, no round is made, and what is remembered of the fallback is what was
before. -/
theorem fallback_attempted_unless_abandoned {rule fallback : Rule}
    (hfallback : rule.fallback? = some fallback)
    (hhandles : (rule.bodies.map RuleBody.handle).Nodup) {context : Context} {tick : Int}
    {schedule : Schedule} {ledger : Ledger} (hdue : schedule.isDue rule.toRuleBody tick = true)
    (hplanned : 0 < rule.plannedRounds context ledger) {count : Nat}
    (hreturns : (rule.attempt context tick schedule ledger).outcome = .ok count)
    (hnone : (rule.evaluate context ledger).completed = 0) :
    let attempt := rule.attempt context tick schedule ledger
    let instead := fallback.attempt context tick schedule ledger
    ((∃ shortfall, rule.round context ledger = (ledger, some (.blocked shortfall))) ∧
        attempt.ledger = instead.ledger ∧ attempt.outcome = instead.outcome ∧
        (schedule.isDue fallback.toRuleBody tick = true →
          attempt.schedule.lastRun? fallback.handle = some tick)) ∨
      ((∃ input, rule.round context ledger = (ledger, some (.abandoned input))) ∧
        attempt.ledger = ledger ∧ attempt.outcome = .ok 0 ∧
        attempt.schedule.lastRun? fallback.handle = schedule.lastRun? fallback.handle) := by
  intro attempt instead
  obtain ⟨shortfall, hblocked⟩ | ⟨input, habandoned⟩ :=
    first_round_of_no_rounds hdue hplanned hreturns hnone
  · refine Or.inl ⟨⟨shortfall, hblocked⟩, ?_⟩
    have hdelegates : rule.Delegates context tick schedule ledger :=
      { due := hdue
        rounds := (rule.toRuleBody.plannedRounds_pos_iff context ledger).1 hplanned
        short := ⟨shortfall, (rule.toRuleBody.round_eq_blocked_iff _ _ _).1 hblocked⟩
        hasFallback := by simp [hfallback] }
    have hattempt : attempt = _ := attempt_eq_attemptOfFallback hfallback hdelegates
    rw [hattempt]
    refine ⟨rfl, rfl, fun hfallbackDue ↦ ?_⟩
    simp only [RuleBody.attemptOfFallback, Schedule.lastRun?_record,
      lastRun?_attempt_of_due hfallbackDue, ite_self]
  · refine Or.inr ⟨⟨input, habandoned⟩, ?_⟩
    have hattempt : attempt = _ := attempt_of_round_eq_some hdue hplanned habandoned (by simp)
    rw [hattempt]
    -- The fallback stands behind the rule in its chain, so it has another handle.
    have hother : rule.handle ≠ fallback.handle := handle_ne_of_fallback? hfallback hhandles
    exact ⟨rfl, rfl, by simp [RuleBody.attemptOfRounds, hother]⟩

/-- A mill asks twice for 3 units of grain. With 4 units the first round is abandoned, and nothing
is sown in its stead. With none it is blocked, and the fallback sows. -/
theorem fallback_attempted_unless_abandoned_mill :
    let grain : Resource := { handle := 1, key := "grain", singular := "grain", plural := "grain" }
    let part (quantity : Int) : Specifier :=
      { relation := "self", resource := grain, quantity := quantity }
    let sow : Rule := { handle := 3, name := "sow", outputs := [part 1] }
    let mill : Rule :=
      { handle := 2, name := "mill", inputs := [part 3, part 3], fallbacks := [sow.toRuleBody] }
    let context : Context := { entries := [("self", .world)] }
    let pools (quantity : Int) : Ledger :=
      { pools := [{ owner := .world, resource := grain, quantity := quantity, capacity := 9 }] }
    mill.fallback? = some sow ∧ (mill.bodies.map RuleBody.handle).Nodup ∧
      Schedule.isDue {} sow.toRuleBody 5 = true ∧
      (mill.evaluate context (pools 4)).completed = 0 ∧
      (mill.attempt context 5 {} (pools 4)).schedule.lastRun? sow.handle = none ∧
      (mill.evaluate context (pools 0)).completed = 0 ∧
      (mill.attempt context 5 {} (pools 0)).schedule.lastRun? sow.handle = some 5 := by
  intro grain part sow mill context pools
  have hfallback : mill.fallback? = some sow := rfl
  have hhandles : (mill.bodies.map RuleBody.handle).Nodup := by decide
  have hdue : Schedule.isDue {} mill.toRuleBody 5 = true := rfl
  have habandoned : (mill.attempt context 5 {} (pools 4)).outcome = .ok 0 := rfl
  have hblocked : (mill.attempt context 5 {} (pools 0)).outcome = .ok 1 := rfl
  refine ⟨hfallback, hhandles, rfl, rfl, ?_, rfl, ?_⟩
  · obtain ⟨⟨shortfall, hround⟩, -⟩ | ⟨-, -, -, hlast⟩ :=
      fallback_attempted_unless_abandoned hfallback hhandles hdue (by decide) habandoned rfl
    · have hfirst : mill.round context (pools 4) = (pools 4, some (.abandoned (part 3))) := rfl
      simp [hfirst] at hround
    · exact hlast
  · obtain ⟨-, -, -, hlast⟩ | ⟨-, -, houtcome, -⟩ :=
      fallback_attempted_unless_abandoned hfallback hhandles hdue (by decide) hblocked rfl
    · exact hlast rfl
    · exact absurd houtcome (by simp [hblocked])

/-- It is not so that the fallback is tried whenever a rule with rounds to make completes none of
them: a first round that is abandoned leaves out a fallback that is due. -/
theorem fallback_left_out_of_abandoned_round :
    ¬ ∀ (rule fallback : Rule) (context : Context) (tick : Int) (schedule : Schedule)
        (ledger : Ledger) (count : Nat), rule.fallback? = some fallback →
      (rule.bodies.map RuleBody.handle).Nodup → schedule.isDue rule.toRuleBody tick = true →
      0 < rule.plannedRounds context ledger →
      (rule.attempt context tick schedule ledger).outcome = .ok count →
      (rule.evaluate context ledger).completed = 0 →
      schedule.isDue fallback.toRuleBody tick = true →
      (rule.attempt context tick schedule ledger).schedule.lastRun? fallback.handle =
        some tick := by
  intro htried
  let wood : Resource := { handle := 1, key := "wood", singular := "wood", plural := "wood" }
  let part (quantity : Int) : Specifier :=
    { relation := "self", resource := wood, quantity := quantity }
  let gather : RuleBody := { handle := 3, name := "gather", period := 5, outputs := [part 1] }
  let build : Rule :=
    { handle := 2, name := "build", inputs := [part 3, part 3], fallbacks := [gather] }
  let context : Context := { entries := [("self", .world)] }
  let ledger : Ledger :=
    { pools := [{ owner := .world, resource := wood, quantity := 4, capacity := 10 }] }
  have hgather := htried build (ofBodies gather []) context 1 {} ledger 0 rfl (by decide) rfl
    (by decide) rfl rfl rfl
  exact absurd hgather (by decide)

end Rule

end TickEconomy
