import TickEconomy.Proofs.BrokenBatch
import TickEconomy.Proofs.EvaluationThrottle

/-!
# Running a tick again does nothing

After a batch that was not broken off, the schedule holds back every rule of its list that has a
period: the rule was evaluated, and less than its period has passed since
(`Schedule.HoldsBack`, `holdsBack_of_runBatch`). A rule that was due when its turn came was
evaluated at the tick, and one that was not due was held back already. What happens between its turn
and the end of the batch cannot undo this, since all that is written into the schedule is the tick
itself (`Schedule.HoldsBack.of_remembers`). It does not matter whether the rule comes twice in the
list or is a fallback of another rule.

A batch of rules that are held back leaves everything alone, the fallbacks included
(`runBatch_of_holdsBack`). So the same list can be run again, at the same tick or an earlier one,
with any pools and in any context, and nothing happens (`runBatch_again`).
-/

set_option autoImplicit false
set_option relaxedAutoImplicit false

namespace TickEconomy

/-! ### Rules that are held back -/

namespace Schedule

/-- The rule was evaluated, and at the tick less than its period has passed since. -/
def HoldsBack (schedule : Schedule) (rule : RuleBody) (tick : Int) : Prop :=
  ∃ last, schedule.lastRun? rule.handle = some last ∧ tick < last + rule.period

variable {schedule : Schedule} {rule : RuleBody} {tick : Int}

/-- The rules that are not due are those that are held back. -/
theorem isDue_eq_false_iff : schedule.isDue rule tick = false ↔ schedule.HoldsBack rule tick := by
  unfold isDue HoldsBack
  cases schedule.lastRun? rule.handle <;> simp

namespace HoldsBack

/-- What is held back at a tick is held back at every earlier one. -/
theorem mono (h : schedule.HoldsBack rule tick) {earlier : Int} (hearlier : earlier ≤ tick) :
    schedule.HoldsBack rule earlier := by
  obtain ⟨last, hlast, hpassed⟩ := h
  exact ⟨last, hlast, Int.lt_of_le_of_lt hearlier hpassed⟩

/-- A rule with a period stays held back through evaluations at the tick, also through its own. -/
theorem of_remembers {before : Schedule} (h : before.HoldsBack rule tick)
    (hperiod : 0 < rule.period) {journal : List Event}
    (hremembers : schedule.Remembers before tick journal) : schedule.HoldsBack rule tick := by
  obtain ⟨last, hlast, hpassed⟩ := h
  have hnow := hremembers rule.handle
  split_ifs at hnow with hevaluated
  · exact ⟨tick, hnow, Int.lt_add_of_pos_right tick hperiod⟩
  · exact ⟨last, hnow.trans hlast, hpassed⟩

end HoldsBack

end Schedule

/-! ### After attempts and batches -/

section Runs

variable {context : Context} {tick : Int} {schedule : Schedule} {ledger : Ledger}

/-- After an attempt at a rule with a period the rule is held back, whether it was due or not. -/
theorem Rule.holdsBack_attempt {rule : Rule} (hperiod : 0 < rule.period) (context : Context)
    (tick : Int) (schedule : Schedule) (ledger : Ledger) :
    (rule.attempt context tick schedule ledger).schedule.HoldsBack rule.toRuleBody tick := by
  cases hdue : schedule.isDue rule.toRuleBody tick with
  | true => exact ⟨tick, lastRun?_attempt_of_due hdue, Int.lt_add_of_pos_right tick hperiod⟩
  | false =>
    rw [attempt_of_not_due hdue]
    exact Schedule.isDue_eq_false_iff.1 hdue

/-- After a batch that was not broken off, every rule of its list with a period is held back. -/
theorem holdsBack_of_runBatch {rules : List Rule} (hperiods : ∀ rule ∈ rules, 0 ≤ rule.period)
    (hcompleted : (runBatch context tick schedule ledger rules).error = none) :
    ∀ rule ∈ rules, rule.period ≠ 0 →
      (runBatch context tick schedule ledger rules).schedule.HoldsBack rule.toRuleBody tick := by
  induction rules generalizing schedule ledger with
  | nil => simp
  | cons first later ih =>
    obtain ⟨hfirst, hlater⟩ := List.forall_mem_cons.1 hperiods
    by_cases hskipped : first.period = 0
    · simp only [runBatch, if_pos hskipped] at hcompleted ⊢
      exact List.forall_mem_cons.2
        ⟨fun hperiod ↦ absurd hskipped hperiod, ih hlater hcompleted⟩
    · have hperiod : 0 < first.period := by omega
      have hheld := Rule.holdsBack_attempt hperiod context tick schedule ledger
      simp only [runBatch, if_neg hskipped] at hcompleted ⊢
      cases houtcome : (first.attempt context tick schedule ledger).outcome with
      | error error => simp [houtcome] at hcompleted
      | ok count =>
        simp only [houtcome] at hcompleted ⊢
        -- The rules behind the first one may evaluate it again, as a fallback or by itself.
        exact List.forall_mem_cons.2
          ⟨fun _ ↦ hheld.of_remembers hperiod (remembers_runBatch _ _ _ _ _), ih hlater hcompleted⟩

/-- A batch whose rules with a period are all held back leaves everything alone. -/
theorem runBatch_of_holdsBack {rules : List Rule}
    (h : ∀ rule ∈ rules, rule.period ≠ 0 → schedule.HoldsBack rule.toRuleBody tick) :
    runBatch context tick schedule ledger rules =
      { ledger := ledger, schedule := schedule, error := none, journal := [] } := by
  induction rules with
  | nil => rfl
  | cons rule later ih =>
    obtain ⟨hrule, hlater⟩ := List.forall_mem_cons.1 h
    by_cases hskipped : rule.period = 0
    · rw [runBatch, if_pos hskipped, ih hlater]
    · have hattempt := Rule.attempt_of_not_due (Schedule.isDue_eq_false_iff.2 (hrule hskipped))
        context ledger
      simp only [runBatch, if_neg hskipped, hattempt, Attempt.idle, ih hlater, List.nil_append]

/-- When a batch of rules whose periods are not negative was not broken off, a further batch of them
at the same tick or an earlier one changes no pool and nothing of what is remembered, evaluates no
rule and no fallback, and is not broken off, whatever the pools and the context have become. -/
theorem runBatch_again {rules : List Rule} (hperiods : ∀ rule ∈ rules, 0 ≤ rule.period)
    {context : Context} {tick : Int} {schedule : Schedule} {ledger : Ledger}
    (hcompleted : (runBatch context tick schedule ledger rules).error = none) {again : Int}
    (hagain : again ≤ tick) (elsewhere : Context) (pools : Ledger) :
    let after := (runBatch context tick schedule ledger rules).schedule
    runBatch elsewhere again after pools rules =
      { ledger := pools, schedule := after, error := none, journal := [] } := by
  intro after
  refine runBatch_of_holdsBack fun rule hrule hperiod ↦ ?_
  exact (holdsBack_of_runBatch hperiods hcompleted rule hrule hperiod).mono hagain

/-- At tick 4 a mill without grain falls back to gathering, which has no period and is always due.
The mill comes a second time in the list and is not due then. At tick 3 there is more grain and
another context, but nothing is evaluated. -/
theorem runBatch_again_mill :
    let grain : Resource := { handle := 1, key := "grain", singular := "grain", plural := "grain" }
    let part (quantity : Int) : Specifier :=
      { relation := "self", resource := grain, quantity := quantity }
    let gather : Rule := { handle := 3, name := "gather", period := 0, outputs := [part 1] }
    let mill : Rule :=
      { handle := 2, name := "mill", inputs := [part 2], fallbacks := [gather.toRuleBody] }
    let rules : List Rule := [mill, gather, mill]
    let context : Context := { entries := [("self", .world)] }
    let pools (quantity : Int) : Ledger :=
      { pools := [{ owner := .world, resource := grain, quantity := quantity, capacity := 9 }] }
    let batch := runBatch context 4 {} (pools 0) rules
    (∀ rule ∈ rules, 0 ≤ rule.period) ∧ batch.error = none ∧ batch.ledger = pools 1 ∧
      (runBatch {} 3 batch.schedule (pools 7) rules).ledger = pools 7 ∧
      (runBatch {} 3 batch.schedule (pools 7) rules).schedule = batch.schedule ∧
      (runBatch {} 3 batch.schedule (pools 7) rules).error = none := by
  intro grain part gather mill rules context pools batch
  have hperiods : ∀ rule ∈ rules, 0 ≤ rule.period := by decide
  have hcompleted : batch.error = none := rfl
  have hagain : runBatch {} 3 batch.schedule (pools 7) rules =
      { ledger := pools 7, schedule := batch.schedule, error := none, journal := [] } :=
    runBatch_again hperiods hcompleted (by decide) {} (pools 7)
  exact ⟨hperiods, hcompleted, rfl, by rw [hagain], by rw [hagain], by rw [hagain]⟩

end Runs

end TickEconomy
