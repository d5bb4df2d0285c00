import TickEconomy.Proofs.RoundAtomicity
import TickEconomy.Simulation

/-!
# What evaluations keep

A rule falls back at its first round or not at all: `Rounds.isBlockedAtOnce_evaluate_iff` says when
in terms of the number of rounds and of the requirements, and no pool has changed by then
(`RuleBody.ledger_of_isBlockedAtOnce`). In the journal an evaluation by itself is noted once, before
anything else (`RuleBody.filterMap_evaluationJournal`).

Pools change in three ways only, by the withdrawals, deposits and assignments of rounds, since an
abandoned round leaves them as they were. A property of the pools that each of these keeps
(`RuleBody.MovesKeep`) is therefore kept by rounds, attempts, batches and ticks, also by those that
are broken off (`RuleBody.MovesKeep.round`, `Rule.ledger_attempt_of_movesKeep`,
`ledger_runBatch_of_movesKeep`, `Simulation.ledger_after_of_movesKeep`). A tick changes nothing of
whose turns there are (`Simulation.scopes_after`).
-/

set_option autoImplicit false
set_option relaxedAutoImplicit false

namespace TickEconomy

/-! ### Being blocked at once -/

/-- Rounds only add to the number of those that went through. -/
theorem RuleBody.completed_le_runRounds (rule : RuleBody) (context : Context) (ledger : Ledger)
    (completed remaining : Nat) :
    completed ≤ (rule.runRounds context ledger completed remaining).completed := by
  induction remaining generalizing ledger completed with
  | zero => exact Nat.le_refl completed
  | succ remaining ih =>
    unfold runRounds
    split
    · exact Nat.le_trans (Nat.le_succ completed) (ih _ _)
    · exact Nat.le_refl completed

/-- Rounds that are blocked later than at the first round are not blocked at once. -/
theorem Rounds.isBlockedAtOnce_of_completed {rounds : Rounds} (h : 0 < rounds.completed) :
    rounds.isBlockedAtOnce = false := by
  unfold isBlockedAtOnce
  split
  · simp only [beq_eq_false_iff_ne]
    omega
  · rfl

namespace RuleBody

variable {rule : RuleBody} {context : Context} {ledger : Ledger}

/-- The first round of a rule with a requirement that is not met is also its last. -/
theorem runRounds_of_shortfall {shortfall : Shortfall} (completed remaining : Nat)
    (h : rule.shortfall? context ledger = .ok (some shortfall)) :
    rule.runRounds context ledger completed (remaining + 1) =
      { ledger := ledger, completed := completed, obstacle := some (.blocked shortfall) } := by
  rw [runRounds, round_of_shortfall h]

/-- Rounds are blocked at once only by a requirement that is not met. -/
theorem shortfall_of_isBlockedAtOnce {remaining : Nat}
    (h : (rule.runRounds context ledger 0 (remaining + 1)).isBlockedAtOnce = true) :
    ∃ shortfall, rule.shortfall? context ledger = .ok (some shortfall) := by
  cases hshortfall : rule.shortfall? context ledger with
  | error error => simp [runRounds, round, hshortfall, Rounds.isBlockedAtOnce] at h
  | ok shortfall =>
    cases shortfall with
    | some shortfall => exact ⟨shortfall, rfl⟩
    | none =>
      simp only [runRounds, round, hshortfall] at h
      obtain ⟨error, happly⟩ | ⟨specifier, -, happly⟩ | ⟨inputs, outputs, sets, -, -, -, happly⟩ :=
        apply_cases hshortfall
      · simp [happly, Rounds.isBlockedAtOnce] at h
      · simp [happly, Rounds.isBlockedAtOnce] at h
      · simp only [happly] at h
        rw [Rounds.isBlockedAtOnce_of_completed
          (Nat.lt_of_lt_of_le Nat.one_pos (completed_le_runRounds ..))] at h
        cases h

/-- An evaluation is blocked at once when there is a round to make and a requirement is not met. -/
theorem isBlockedAtOnce_evaluate_iff (rule : RuleBody) (context : Context) (ledger : Ledger) :
    (rule.evaluate context ledger).isBlockedAtOnce = true ↔
      (∃ count, rule.roundCount? context ledger = some count ∧ 0 < count) ∧
        ∃ shortfall, rule.shortfall? context ledger = .ok (some shortfall) := by
  unfold evaluate
  cases hcount : rule.roundCount? context ledger with
  | none => simp [runRounds, Rounds.isBlockedAtOnce]
  | some count =>
    simp only [Option.getD_some, Option.some.injEq, exists_eq_left']
    cases hrounds : count.toNat with
    | zero =>
      have hnone : ¬ 0 < count := by omega
      simp [runRounds, Rounds.isBlockedAtOnce, hnone]
    | succ remaining =>
      have hsome : 0 < count := by omega
      simp only [hsome, true_and]
      constructor
      · exact shortfall_of_isBlockedAtOnce
      · rintro ⟨shortfall, hshortfall⟩
        rw [runRounds_of_shortfall _ _ hshortfall]
        rfl

/-- An evaluation that is blocked at once leaves every pool as it was. -/
theorem ledger_of_isBlockedAtOnce
    (h : (rule.evaluate context ledger).isBlockedAtOnce = true) :
    (rule.evaluate context ledger).ledger = ledger := by
  obtain ⟨⟨count, hcount, hpositive⟩, shortfall, hshortfall⟩ :=
    (isBlockedAtOnce_evaluate_iff rule context ledger).1 h
  obtain ⟨remaining, hremaining⟩ : ∃ remaining, count.toNat = remaining + 1 :=
    ⟨count.toNat - 1, by omega⟩
  rw [evaluate, hcount, Option.getD_some, hremaining, runRounds_of_shortfall _ _ hshortfall]

end RuleBody

/-! ### What the journal notes -/

/-- What is taken from a journal for its evaluations only is taken once from the journal of an
evaluation by itself, for the rule that it is an evaluation of. -/
theorem RuleBody.filterMap_evaluationJournal {Note : Type} {note : Event → Option Note}
    (hnote : ∀ event, (∀ handle tick, event ≠ .evaluated handle tick) → note event = none)
    (rule : RuleBody) (context : Context) (tick : Int) (ledger : Ledger) (rounds : Rounds) :
    (rule.evaluationJournal context tick ledger rounds).filterMap note =
      (note (.evaluated rule.handle tick)).toList := by
  have hcount : (rule.roundCountEvents context ledger).filterMap note = [] := by
    refine List.filterMap_eq_nil_iff.2 fun event hevent ↦ hnote event ?_
    rintro handle tick rfl
    unfold roundCountEvents at hevent
    split at hevent
    · cases hevent
    · split at hevent <;> simp at hevent
  have hobstacle :
      ((rounds.obstacle.map (Obstacle.events rule.name)).getD []).filterMap note = [] := by
    refine List.filterMap_eq_nil_iff.2 fun event hevent ↦ hnote event ?_
    rintro handle tick rfl
    cases hfound : rounds.obstacle with
    | none => simp [hfound] at hevent
    | some obstacle => cases obstacle <;> simp [hfound, Obstacle.events] at hevent
  rw [evaluationJournal, List.filterMap_cons, List.filterMap_append, hcount, hobstacle,
    List.append_nil]
  cases note (.evaluated rule.handle tick) <;> rfl

/-! ### What rounds keep -/

/-- Every withdrawal, deposit and assignment that the rule may make in the context keeps a property
of the pools. -/
structure RuleBody.MovesKeep (rule : RuleBody) (context : Context) (holds : Ledger → Prop) :
    Prop where
  withdraw : ∀ specifier ∈ rule.inputs, ∀ owner, context.get? specifier.relation = some owner →
    ∀ ledger, holds ledger →
      holds (ledger.withdraw owner specifier.resource specifier.quantity).1
  deposit : ∀ specifier ∈ rule.outputs, ∀ owner, context.get? specifier.relation = some owner →
    ∀ ledger, holds ledger → holds (ledger.deposit owner specifier.resource specifier.quantity).1
  assign : ∀ specifier ∈ rule.sets, ∀ owner, context.get? specifier.relation = some owner →
    ∀ ledger, holds ledger → holds (ledger.assign owner specifier.resource specifier.quantity).1

namespace RuleBody

variable {rule : RuleBody} {context : Context} {holds : Ledger → Prop}

/-- What every withdrawal keeps is kept by withdrawals none of which is refused. -/
theorem takeInputs_keeps {inputs : List Specifier}
    (hwithdraw : ∀ specifier ∈ inputs, ∀ owner,
      context.get? specifier.relation = some owner → ∀ ledger, holds ledger →
        holds (ledger.withdraw owner specifier.resource specifier.quantity).1)
    {ledger reached : Ledger} {taken : List Movement} (hledger : holds ledger)
    (h : rule.takeInputs context ledger taken inputs = (reached, none)) : holds reached := by
  induction inputs generalizing ledger taken with
  | nil =>
    simp only [takeInputs, Prod.mk.injEq, and_true] at h
    exact h ▸ hledger
  | cons specifier later ih =>
    simp only [takeInputs] at h
    cases howner : context.owner rule.name .input specifier.relation with
    | error error => simp [howner] at h
    | ok owner =>
      simp only [howner] at h
      split at h
      · simp at h
      · have hheld := hwithdraw specifier List.mem_cons_self owner
          ((Context.owner_eq_ok_iff _ _ _ _ _).1 howner) ledger hledger
        exact ih (fun other hother ↦ hwithdraw other (List.mem_cons_of_mem _ hother)) hheld h

/-- What every single movement keeps is kept by movements one after the other. -/
theorem foldl_keeps {specifiers : List Specifier} {movements : List Movement}
    (hresolves : context.Resolves specifiers movements) {move : Ledger → Movement → Ledger}
    (hmove : ∀ movement : Movement, movement.specifier ∈ specifiers →
      context.get? movement.specifier.relation = some movement.owner → ∀ ledger, holds ledger →
        holds (move ledger movement))
    {ledger : Ledger} (hledger : holds ledger) : holds (movements.foldl move ledger) := by
  induction hresolves generalizing ledger with
  | nil => exact hledger
  | @cons specifier movement later rest hmeans _ ih =>
    obtain ⟨howner, hspecifier⟩ := hmeans
    subst hspecifier
    exact ih (fun other hother ↦ hmove other (List.mem_cons_of_mem _ hother))
      (hmove movement List.mem_cons_self howner ledger hledger)

namespace MovesKeep

/-- What the movements of a rule keep is kept by a round that goes through. -/
theorem apply (h : rule.MovesKeep context holds) {ledger reached : Ledger} (hledger : holds ledger)
    (happly : rule.apply context ledger = (reached, none)) : holds reached := by
  unfold RuleBody.apply at happly
  cases houtputs : rule.movements context .output rule.outputs with
  | error error => simp [houtputs] at happly
  | ok outputs =>
    cases hsets : rule.movements context .set rule.sets with
    | error error => simp [houtputs, hsets] at happly
    | ok sets =>
      cases htake : rule.takeInputs context ledger [] rule.inputs with
      | mk reduced obstacle =>
        cases obstacle with
        | some obstacle => simp [houtputs, hsets, htake] at happly
        | none =>
          simp only [houtputs, hsets, htake, Prod.mk.injEq, and_true] at happly
          have hreduced := takeInputs_keeps h.withdraw hledger htake
          have hdeposited := foldl_keeps (resolves_of_movements houtputs)
            (fun movement hmem howner ↦ h.deposit _ hmem _ howner) hreduced
          have hassigned := foldl_keeps (resolves_of_movements hsets)
            (fun movement hmem howner ↦ h.assign _ hmem _ howner) hdeposited
          exact happly ▸ hassigned

/-- What the movements of a rule keep is kept by a round. -/
theorem round (h : rule.MovesKeep context holds) {ledger : Ledger} (hledger : holds ledger) :
    holds (rule.round context ledger).1 := by
  unfold RuleBody.round
  cases hshortfall : rule.shortfall? context ledger with
  | error error => exact hledger
  | ok shortfall =>
    cases shortfall with
    | some shortfall => exact hledger
    | none =>
      obtain ⟨error, happly⟩ | ⟨specifier, -, happly⟩ | ⟨inputs, outputs, sets, -, -, -, happly⟩ :=
        apply_cases hshortfall
      · simpa only [happly] using hledger
      · simpa only [happly] using hledger
      · simpa only [happly] using h.apply hledger happly

theorem runRounds (h : rule.MovesKeep context holds) {ledger : Ledger} (hledger : holds ledger)
    (completed remaining : Nat) :
    holds (rule.runRounds context ledger completed remaining).ledger := by
  induction remaining generalizing ledger completed with
  | zero => exact hledger
  | succ remaining ih =>
    have hround := h.round hledger
    unfold RuleBody.runRounds
    split
    · next reached heq =>
      rw [heq] at hround
      exact ih hround _
    · next reached obstacle heq =>
      rw [heq] at hround
      exact hround

theorem evaluate (h : rule.MovesKeep context holds) {ledger : Ledger} (hledger : holds ledger) :
    holds (rule.evaluate context ledger).ledger :=
  h.runRounds hledger _ _

end MovesKeep

end RuleBody

/-! ### What attempts, batches and ticks keep -/

section Runs

variable {holds : Ledger → Prop}

theorem ledger_attemptInTurn_of_movesKeep {context : Context} (tick : Int) (schedule : Schedule)
    (rule : RuleBody) (fallbacks : List RuleBody)
    (hkeep : ∀ body ∈ rule :: fallbacks, body.MovesKeep context holds) {ledger : Ledger}
    (hledger : holds ledger) :
    holds (attemptInTurn context tick schedule ledger rule fallbacks).ledger := by
  induction fallbacks generalizing rule ledger with
  | nil =>
    rw [attemptInTurn]
    split_ifs with hdue
    · exact (hkeep rule List.mem_cons_self).evaluate hledger
    · exact hledger
  | cons fallback later ih =>
    have hrounds := (hkeep rule List.mem_cons_self).evaluate hledger
    simp only [attemptInTurn]
    split_ifs with hdue hblocked
    · exact ih fallback (fun body hbody ↦ hkeep body (List.mem_cons_of_mem _ hbody)) hrounds
    · exact hrounds
    · exact hledger

/-- What the movements of a rule and of its fallbacks keep is kept by an attempt at the rule. -/
theorem Rule.ledger_attempt_of_movesKeep {rule : Rule} {context : Context} (tick : Int)
    (schedule : Schedule) (hkeep : ∀ body ∈ rule.bodies, body.MovesKeep context holds)
    {ledger : Ledger} (hledger : holds ledger) :
    holds (rule.attempt context tick schedule ledger).ledger :=
  ledger_attemptInTurn_of_movesKeep tick schedule _ _ hkeep hledger

/-- What the movements of all rules and fallbacks keep is kept by their batch. -/
theorem ledger_runBatch_of_movesKeep {context : Context} (tick : Int) (schedule : Schedule)
    {rules : List Rule}
    (hkeep : ∀ rule ∈ rules, ∀ body ∈ rule.bodies, body.MovesKeep context holds)
    {ledger : Ledger} (hledger : holds ledger) :
    holds (runBatch context tick schedule ledger rules).ledger := by
  induction rules generalizing schedule ledger with
  | nil => exact hledger
  | cons rule later ih =>
    have hattempt := rule.ledger_attempt_of_movesKeep tick schedule
      (hkeep rule List.mem_cons_self) hledger
    have hlater := fun other hother ↦ hkeep other (List.mem_cons_of_mem rule hother)
    simp only [runBatch]
    split_ifs with hperiod
    · exact ih schedule hlater hledger
    · split
      · exact hattempt
      · exact ih _ hlater hattempt

namespace Simulation

theorem tick_afterBatch (simulation : Simulation) (scope : Scope) (batch : Batch) :
    (simulation.afterBatch scope batch).tick = simulation.tick :=
  rfl

theorem ledger_afterBatch (simulation : Simulation) (scope : Scope) (batch : Batch) :
    (simulation.afterBatch scope batch).ledger = batch.ledger :=
  rfl

/-- After a batch the schedule of its owner is the one that the batch left behind, and those of all
others are as before. -/
theorem scheduleOf_afterBatch (simulation : Simulation) (scope : Scope) (batch : Batch)
    (owner : Owner) :
    (simulation.afterBatch scope batch).scheduleOf owner =
      if scope.owner = owner then batch.schedule else simulation.scheduleOf owner := by
  simp only [scheduleOf, afterBatch, Table.get?_put]
  split_ifs with howner <;> rfl

theorem simulation_runScopes_cons (simulation : Simulation) (scope : Scope) (later : List Scope) :
    (simulation.runScopes (scope :: later)).simulation =
      ((simulation.afterBatch scope (simulation.batch scope)).runScopes later).simulation := by
  rw [runScopes]

theorem failures_runScopes_cons (simulation : Simulation) (scope : Scope) (later : List Scope) :
    (simulation.runScopes (scope :: later)).failures =
      ((simulation.afterBatch scope (simulation.batch scope)).runScopes later).failures +
        if (simulation.batch scope).error.isSome then 1 else 0 := by
  rw [runScopes]
  exact List.countP_cons

/-- What the movements of the rules of all turns keep is kept by the turns. -/
theorem ledger_runScopes_of_movesKeep {scopes : List Scope}
    (hkeep : ∀ scope ∈ scopes, ∀ rule ∈ scope.rules, ∀ body ∈ rule.bodies,
      body.MovesKeep scope.context holds)
    {simulation : Simulation} (hledger : holds simulation.ledger) :
    holds (simulation.runScopes scopes).simulation.ledger := by
  induction scopes generalizing simulation with
  | nil => exact hledger
  | cons scope later ih =>
    refine ih (fun other hother ↦ hkeep other (List.mem_cons_of_mem scope hother)) ?_
    exact ledger_runBatch_of_movesKeep _ _ (hkeep scope List.mem_cons_self) hledger

/-- The simulation after a number of ticks. -/
def after (simulation : Simulation) : Nat → Simulation
  | 0 => simulation
  | ticks + 1 => (simulation.after ticks).step.simulation

theorem after_add (simulation : Simulation) (first second : Nat) :
    simulation.after (first + second) = (simulation.after first).after second := by
  induction second with
  | zero => rfl
  | succ second ih => rw [Nat.add_succ, after, ih, after]

theorem scopes_runScopes (simulation : Simulation) (scopes : List Scope) :
    (simulation.runScopes scopes).simulation.scopes = simulation.scopes := by
  induction scopes generalizing simulation with
  | nil => rfl
  | cons scope later ih => exact ih _

/-- Ticks change nothing of whose turns there are, of their rules and of their contexts. -/
theorem scopes_after (simulation : Simulation) (ticks : Nat) :
    (simulation.after ticks).scopes = simulation.scopes := by
  induction ticks with
  | zero => rfl
  | succ ticks ih => exact (scopes_runScopes _ _).trans ih

/-- What the movements of the rules of all turns keep is kept by any number of ticks. -/
theorem ledger_after_of_movesKeep {simulation : Simulation}
    (hkeep : ∀ scope ∈ simulation.scopes, ∀ rule ∈ scope.rules, ∀ body ∈ rule.bodies,
      body.MovesKeep scope.context holds)
    (hledger : holds simulation.ledger) (ticks : Nat) :
    holds (simulation.after ticks).ledger := by
  induction ticks with
  | zero => exact hledger
  | succ ticks ih =>
    have hscopes := simulation.scopes_after ticks
    refine ledger_runScopes_of_movesKeep (fun scope hscope ↦ hkeep scope ?_) ih
    exact hscopes ▸ hscope

end Simulation

end Runs

end TickEconomy
