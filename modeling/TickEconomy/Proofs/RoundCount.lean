import TickEconomy.Proofs.BrokenBatch

/-!
# How many rounds an evaluation makes

An evaluation reads off the pools, as it finds them, how many rounds it sets out to make
(`RuleBody.plannedRounds`). The rounds may feed or use up the very pool that the number was read
from, which alters nothing of it. They go through one after the other until the number is reached or
one of them does not go through, and the one that does not leaves the pools as they are
(`RuleBody.evaluate_runsThrough`).

A rule that is attempted when it is due, and does not delegate, is evaluated by itself
(`Rule.attempt_of_not_delegates`). What such an attempt leaves behind are whole rounds, no more than
planned and fewer only if the next one could not run, was abandoned or failed
(`Rule.attempt_makes_whole_rounds`).
-/

set_option autoImplicit false
set_option relaxedAutoImplicit false

namespace TickEconomy

/-! ### The planned number -/

namespace RuleBody

/-- The number of rounds that the rule sets out to make: what the pool to repeat from holds, which
is nothing where its relation has no owner or the owner no such pool, and without such a pool one
round and the extra ones. -/
def plannedRounds (rule : RuleBody) (context : Context) (ledger : Ledger) : Int :=
  match rule.repeatFrom with
  | none => rule.extraRounds + 1
  | some source =>
    match context.get? source.relation with
    | none => 0
    | some owner => ledger.quantity owner source.resource

variable (rule : RuleBody) (context : Context) (ledger : Ledger)

theorem getD_roundCount? :
    (rule.roundCount? context ledger).getD 0 = rule.plannedRounds context ledger := by
  unfold roundCount? plannedRounds
  cases rule.repeatFrom with
  | none => rfl
  | some source =>
    simp only
    cases context.get? source.relation <;> rfl

/-- A rule plans some round just when its number of rounds is known and positive. -/
theorem plannedRounds_pos_iff :
    0 < rule.plannedRounds context ledger ↔
      ∃ count, rule.roundCount? context ledger = some count ∧ 0 < count := by
  rw [← getD_roundCount?]
  cases rule.roundCount? context ledger <;> simp

/-- The rounds of an evaluation go through one after the other. They are as many as planned, unless
the next one meets an obstacle. -/
theorem evaluate_runsThrough :
    let rounds := rule.evaluate context ledger
    (rounds.completed : Int) ≤ max 0 (rule.plannedRounds context ledger) ∧
      rule.RunsThrough context rounds.completed ledger rounds.ledger ∧
      (rounds.obstacle = none →
        (rounds.completed : Int) = max 0 (rule.plannedRounds context ledger)) ∧
      ∀ obstacle, rounds.obstacle = some obstacle →
        rule.round context rounds.ledger = (rounds.ledger, some obstacle) := by
  intro rounds
  obtain ⟨count, hcount, hcompleted, hthrough, hall, hstop⟩ := rule.runsThrough_runRounds context
    ledger 0 ((rule.roundCount? context ledger).getD 0).toNat
  have hplanned := rule.getD_roundCount? context ledger
  obtain rfl : rounds.completed = count := hcompleted.trans (Nat.zero_add count)
  refine ⟨by omega, hthrough, fun hnone ↦ ?_, hstop⟩
  have hreached : rounds.completed = _ := hall hnone
  omega

variable {rule context ledger}

/-- An evaluation with rounds to make begins with a round. -/
theorem evaluate_of_plannedRounds_pos (h : 0 < rule.plannedRounds context ledger) :
    ∃ remaining, rule.evaluate context ledger =
      rule.runRounds context ledger 0 (remaining + 1) := by
  obtain ⟨remaining, hremaining⟩ := Nat.exists_eq_succ_of_ne_zero
    (n := (rule.plannedRounds context ledger).toNat) (by omega)
  exact ⟨remaining, by rw [evaluate, getD_roundCount?, hremaining]⟩

/-- An evaluation whose first round meets an obstacle ends there. -/
theorem evaluate_of_round_eq_some (hplanned : 0 < rule.plannedRounds context ledger)
    {obstacle : Obstacle} (hround : rule.round context ledger = (ledger, some obstacle)) :
    rule.evaluate context ledger =
      { ledger := ledger, completed := 0, obstacle := some obstacle } := by
  obtain ⟨remaining, hevaluate⟩ := evaluate_of_plannedRounds_pos hplanned
  rw [hevaluate, runRounds, hround]

/-- An evaluation whose first round goes through completes a round. -/
theorem completed_pos_of_round_eq_none (hplanned : 0 < rule.plannedRounds context ledger)
    {reached : Ledger} (hround : rule.round context ledger = (reached, none)) :
    0 < (rule.evaluate context ledger).completed := by
  obtain ⟨remaining, hevaluate⟩ := evaluate_of_plannedRounds_pos hplanned
  rw [hevaluate, runRounds, hround]
  exact rule.completed_le_runRounds context reached 1 remaining

end RuleBody

/-! ### Attempts at a rule by itself -/

section Attempts

variable {context : Context} {tick : Int} {schedule : Schedule} {ledger : Ledger}

/-- A rule that is due and does not delegate is evaluated by itself. -/
theorem Rule.attempt_of_not_delegates {rule : Rule}
    (hdue : schedule.isDue rule.toRuleBody tick = true)
    (hstays : ¬ rule.Delegates context tick schedule ledger) :
    rule.attempt context tick schedule ledger =
      rule.attemptOfRounds context tick schedule ledger (rule.evaluate context ledger) := by
  obtain ⟨body, fallbacks⟩ := rule
  cases fallbacks with
  | nil => simp only [attempt, attemptInTurn, hdue, if_true]
  | cons fallback later =>
    have hblocked : ¬ (body.evaluate context ledger).isBlockedAtOnce = true := fun h ↦
      hstays ((delegates_ofBodies_cons_iff body fallback later).2 ⟨hdue, h⟩)
    simp only [attempt, attemptInTurn, hdue, hblocked, if_true, if_false, Bool.false_eq_true]

/-- An attempt at a rule that is due and does not delegate makes whole rounds, one after the other,
and no more than were planned on the pools as they were before. It makes fewer only if the next one
could not run, was abandoned or failed, and each of these leaves the pools as the rounds before left
them. The outcome is their number unless the next one failed. -/
theorem Rule.attempt_makes_whole_rounds {rule : Rule}
    (hdue : schedule.isDue rule.toRuleBody tick = true)
    (hstays : ¬ rule.Delegates context tick schedule ledger) :
    let attempt := rule.attempt context tick schedule ledger
    let planned := rule.plannedRounds context ledger
    ∃ count : Nat, (count : Int) ≤ max 0 planned ∧
      rule.RunsThrough context count ledger attempt.ledger ∧
      (((count : Int) = max 0 planned ∧ attempt.outcome = .ok count) ∨
        (∃ shortfall, rule.round context attempt.ledger =
          (attempt.ledger, some (.blocked shortfall)) ∧ attempt.outcome = .ok count) ∨
        (∃ input, rule.round context attempt.ledger =
          (attempt.ledger, some (.abandoned input)) ∧ attempt.outcome = .ok count) ∨
        ∃ error, rule.round context attempt.ledger =
          (attempt.ledger, some (.failed error)) ∧ attempt.outcome = .error error) := by
  intro attempt planned
  obtain ⟨hcount, hthrough, hall, hstop⟩ := rule.toRuleBody.evaluate_runsThrough context ledger
  have hattempt : attempt = _ := rule.attempt_of_not_delegates hdue hstays
  rw [hattempt]
  simp only [RuleBody.attemptOfRounds, Rounds.outcome]
  refine ⟨(rule.evaluate context ledger).completed, hcount, hthrough, ?_⟩
  cases hobstacle : (rule.evaluate context ledger).obstacle with
  | none => exact Or.inl ⟨hall hobstacle, rfl⟩
  | some obstacle =>
    have hnext := hstop obstacle hobstacle
    cases obstacle with
    | blocked shortfall => exact Or.inr (Or.inl ⟨shortfall, hnext, rfl⟩)
    | abandoned input => exact Or.inr (Or.inr (Or.inl ⟨input, hnext, rfl⟩))
    | failed error => exact Or.inr (Or.inr (Or.inr ⟨error, hnext, rfl⟩))

/-- A mill plans as many rounds as there are units of grain, which are 5, and uses up 2 units in
each of them. The third round cannot run. -/
theorem Rule.attempt_makes_whole_rounds_mill :
    let grain : Resource := { handle := 1, key := "grain", singular := "grain", plural := "grain" }
    let mill : Rule :=
      { handle := 2, name := "mill"
        inputs := [{ relation := "self", resource := grain, quantity := 2 }]
        repeatFrom := some { relation := "self", resource := grain } }
    let context : Context := { entries := [("self", .world)] }
    let pools (quantity : Int) : Ledger :=
      { pools := [{ owner := .world, resource := grain, quantity := quantity, capacity := 9 }] }
    Schedule.isDue {} mill.toRuleBody 1 = true ∧ ¬ mill.Delegates context 1 {} (pools 5) ∧
      mill.plannedRounds context (pools 5) = 5 ∧
      (mill.attempt context 1 {} (pools 5)).outcome = .ok 2 ∧
      ∃ count : Nat, (count : Int) ≤ 5 ∧ mill.RunsThrough context count (pools 5) (pools 1) := by
  intro grain mill context pools
  have hdue : Schedule.isDue {} mill.toRuleBody 1 = true := rfl
  have hstays : ¬ mill.Delegates context 1 {} (pools 5) := fun h ↦ h.hasFallback rfl
  obtain ⟨count, hcount, hthrough, -⟩ := attempt_makes_whole_rounds hdue hstays
  exact ⟨hdue, hstays, rfl, rfl, count, hcount, hthrough⟩

end Attempts

end TickEconomy
