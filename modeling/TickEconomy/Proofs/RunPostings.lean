import TickEconomy.Proofs.Postings
import TickEconomy.Proofs.RoundCount

/-!
# The postings of a run

What a simulation does to the pools can be told as the postings that it makes. A round that goes
through withdraws the inputs, deposits the outputs and assigns the sets of its rule
(`RuleBody.roundPostings`). A round that does not go through makes none, also where inputs were
withdrawn and put back. An evaluation makes those of a round as many times as rounds went through
(`RuleBody.postings`), and from there on postings follow the course of attempts, batches and ticks.

That these are all the changes there are, in their order, is told by `Ledger.LeadsTo`: the postings
made in turn lead from the ledger before to the ledger after. So it is of a round
(`RuleBody.leadsTo_round`), and from one level to the next up to any number of ticks
(`Simulation.leadsTo_after`).
-/

set_option autoImplicit false
set_option relaxedAutoImplicit false

namespace TickEconomy

/-! ### Postings of rounds and evaluations -/

/-- The postings that specifiers mean in a context, where a relation without an owner means none. -/
def Context.postings (context : Context) (made : Option Resource → Int → Transaction)
    (specifiers : List Specifier) : List Posting :=
  specifiers.filterMap fun specifier ↦ (context.get? specifier.relation).map fun owner ↦
    { owner := owner, transaction := made specifier.resource specifier.quantity }

namespace RuleBody

/-- The postings of a round that goes through. -/
def roundPostings (rule : RuleBody) (context : Context) : List Posting :=
  context.postings .withdraw rule.inputs ++
    (context.postings .deposit rule.outputs ++ context.postings .assign rule.sets)

/-- The postings of an evaluation. -/
def postings (rule : RuleBody) (context : Context) (ledger : Ledger) : List Posting :=
  (List.replicate (rule.evaluate context ledger).completed (rule.roundPostings context)).flatten

end RuleBody

/-! ### Postings of attempts, batches and ticks -/

/-- The postings of an attempt at a rule with the given fallbacks. -/
def postingsInTurn (context : Context) (tick : Int) (schedule : Schedule) (ledger : Ledger) :
    RuleBody → List RuleBody → List Posting
  | rule, [] => if schedule.isDue rule tick then rule.postings context ledger else []
  | rule, fallback :: later =>
    if schedule.isDue rule tick then
      if (rule.evaluate context ledger).isBlockedAtOnce then
        postingsInTurn context tick schedule (rule.evaluate context ledger).ledger fallback later
      else rule.postings context ledger
    else []

/-- The postings of an attempt at the rule. -/
def Rule.postings (rule : Rule) (context : Context) (tick : Int) (schedule : Schedule)
    (ledger : Ledger) : List Posting :=
  postingsInTurn context tick schedule ledger rule.toRuleBody rule.fallbacks

/-- The postings of a batch, which end with those of the rule that breaks it off. -/
def batchPostings (context : Context) (tick : Int) (schedule : Schedule) (ledger : Ledger) :
    List Rule → List Posting
  | [] => []
  | rule :: later =>
    if rule.period = 0 then batchPostings context tick schedule ledger later
    else
      let attempt := rule.attempt context tick schedule ledger
      rule.postings context tick schedule ledger ++
        match attempt.outcome with
        | .error _ => []
        | .ok _ => batchPostings context tick attempt.schedule attempt.ledger later

namespace Simulation

/-- The postings of the batch of one turn. -/
def turnPostings (simulation : Simulation) (scope : Scope) : List Posting :=
  batchPostings scope.context simulation.tick (simulation.scheduleOf scope.owner) simulation.ledger
    scope.rules

/-- The postings of the given turns. -/
def scopesPostings (simulation : Simulation) : List Scope → List Posting
  | [] => []
  | scope :: later =>
    simulation.turnPostings scope ++
      (simulation.afterBatch scope (simulation.batch scope)).scopesPostings later

/-- The postings of the next tick. -/
def stepPostings (simulation : Simulation) : List Posting :=
  let begun := { simulation with tick := simulation.tick + 1 }
  begun.scopesPostings begun.scopes

/-- The postings of the next ticks. -/
def postings (simulation : Simulation) : Nat → List Posting
  | 0 => []
  | ticks + 1 => simulation.postings ticks ++ (simulation.after ticks).stepPostings

end Simulation

/-! ### From one ledger to another -/

/-- The postings, each of which is made, lead from the one ledger to the other. -/
structure Ledger.LeadsTo (made : Posting → Prop) (ledger : Ledger) (postings : List Posting)
    (reached : Ledger) : Prop where
  made : ∀ posting ∈ postings, made posting
  postAll : ledger.postAll postings = reached

namespace Ledger.LeadsTo

variable {made : Posting → Prop} {first middle last : Ledger}

theorem nil (ledger : Ledger) : ledger.LeadsTo made [] ledger :=
  ⟨by simp, rfl⟩

theorem append {earlier later : List Posting} (hfirst : first.LeadsTo made earlier middle)
    (hlast : middle.LeadsTo made later last) : first.LeadsTo made (earlier ++ later) last :=
  ⟨List.forall_mem_append.2 ⟨hfirst.made, hlast.made⟩, by
    rw [Ledger.postAll_append, hfirst.postAll, hlast.postAll]⟩

end Ledger.LeadsTo

/-! ### Rounds lead on -/

namespace RuleBody

variable {rule : RuleBody} {context : Context} {ledger reached : Ledger} {made : Posting → Prop}

/-- Inputs that are all taken are withdrawn one by one. -/
theorem postAll_inputs {inputs : List Specifier} {taken : List Movement}
    (h : rule.takeInputs context ledger taken inputs = (reached, none)) :
    ledger.postAll (context.postings .withdraw inputs) = reached := by
  induction inputs generalizing ledger taken with
  | nil => exact (Prod.mk.inj h).1
  | cons specifier later ih =>
    simp only [takeInputs] at h
    cases howner : context.owner rule.name .input specifier.relation with
    | error error => simp [howner] at h
    | ok owner =>
      simp only [howner] at h
      split at h
      · simp at h
      · have hfound := (Context.owner_eq_ok_iff _ _ _ _ _).1 howner
        rw [Context.postings, List.filterMap_cons, hfound]
        exact ih h

/-- Movements are made one by one when each of them is made by a posting. -/
theorem postAll_movements {transaction : Option Resource → Int → Transaction}
    {move : Ledger → Movement → Ledger}
    (hmove : ∀ ledger (movement : Movement), ledger.post
      ⟨movement.owner, transaction movement.specifier.resource movement.specifier.quantity⟩ =
        move ledger movement)
    {specifiers : List Specifier} {movements : List Movement}
    (hresolves : context.Resolves specifiers movements) (ledger : Ledger) :
    ledger.postAll (context.postings transaction specifiers) = movements.foldl move ledger := by
  induction hresolves generalizing ledger with
  | nil => rfl
  | @cons specifier movement later rest hmeans _ ih =>
    obtain ⟨howner, rfl⟩ := hmeans
    rw [Context.postings, List.filterMap_cons, howner, Option.map_some, List.foldl_cons, ← ih,
      ← hmove]
    rfl

/-- A round that goes through leads on by its postings. -/
theorem leadsTo_round (hmade : ∀ posting ∈ rule.roundPostings context, made posting)
    (h : rule.round context ledger = (reached, none)) :
    ledger.LeadsTo made (rule.roundPostings context) reached := by
  refine ⟨hmade, ?_⟩
  have happly : rule.apply context ledger = (reached, none) := by
    unfold round at h
    split at h
    · simp at h
    · simp at h
    · exact h
  unfold apply at happly
  cases houtputs : rule.movements context .output rule.outputs with
  | error error => simp [houtputs] at happly
  | ok outputs =>
    cases hsets : rule.movements context .set rule.sets with
    | error error => simp [houtputs, hsets] at happly
    | ok sets =>
      cases htake : rule.takeInputs context ledger [] rule.inputs with
      | mk reduced obstacle =>
        cases obstacle with
        | some obstacle => simp [houtputs, hsets, htake] at happly
        | none =>
          simp only [houtputs, hsets, htake, Prod.mk.injEq, and_true] at happly
          have hdeposits (start : Ledger) : start.postAll (context.postings .deposit rule.outputs) =
              outputs.foldl Ledger.depositMovement start :=
            postAll_movements (fun _ _ ↦ rfl) (resolves_of_movements houtputs) start
          have hassignments (start : Ledger) : start.postAll (context.postings .assign rule.sets) =
              sets.foldl Ledger.assignMovement start :=
            postAll_movements (fun _ _ ↦ rfl) (resolves_of_movements hsets) start
          rw [roundPostings, Ledger.postAll_append, Ledger.postAll_append, postAll_inputs htake,
            hdeposits, hassignments]
          exact happly

/-- Rounds that go through one after the other lead on by the postings of one, time and again. -/
theorem leadsTo_of_runsThrough (hmade : ∀ posting ∈ rule.roundPostings context, made posting)
    {count : Nat} (h : rule.RunsThrough context count ledger reached) :
    ledger.LeadsTo made (List.replicate count (rule.roundPostings context)).flatten reached := by
  induction h with
  | none ledger => exact Ledger.LeadsTo.nil ledger
  | round through _ ih =>
    rw [List.replicate_succ, List.flatten_cons]
    exact (leadsTo_round hmade through).append ih

theorem leadsTo_evaluate (hmade : ∀ posting ∈ rule.roundPostings context, made posting)
    (ledger : Ledger) : ledger.LeadsTo made (rule.postings context ledger)
      (rule.evaluate context ledger).ledger :=
  leadsTo_of_runsThrough hmade (rule.evaluate_runsThrough context ledger).2.1

end RuleBody

/-! ### Attempts, batches and ticks lead on -/

section Runs

variable {made : Posting → Prop}

theorem leadsTo_attemptInTurn {context : Context} (tick : Int) (schedule : Schedule)
    (rule : RuleBody) (fallbacks : List RuleBody)
    (hmade : ∀ body ∈ rule :: fallbacks, ∀ posting ∈ body.roundPostings context, made posting)
    (ledger : Ledger) :
    ledger.LeadsTo made (postingsInTurn context tick schedule ledger rule fallbacks)
      (attemptInTurn context tick schedule ledger rule fallbacks).ledger := by
  induction fallbacks generalizing rule ledger with
  | nil =>
    rw [attemptInTurn, postingsInTurn]
    split_ifs with hdue
    · exact RuleBody.leadsTo_evaluate (hmade rule List.mem_cons_self) ledger
    · exact Ledger.LeadsTo.nil ledger
  | cons fallback later ih =>
    simp only [attemptInTurn, postingsInTurn]
    split_ifs with hdue hblocked
    · have hlater := ih fallback (fun body hbody ↦ hmade body (List.mem_cons_of_mem _ hbody)) ledger
      -- Blocked rounds have made no postings, and changed nothing.
      rw [RuleBody.ledger_of_isBlockedAtOnce hblocked]
      exact hlater
    · exact RuleBody.leadsTo_evaluate (hmade rule List.mem_cons_self) ledger
    · exact Ledger.LeadsTo.nil ledger

/-- An attempt at a rule leads on by its postings. -/
theorem Rule.leadsTo_attempt {rule : Rule} {context : Context} (tick : Int) (schedule : Schedule)
    (hmade : ∀ body ∈ rule.bodies, ∀ posting ∈ body.roundPostings context, made posting)
    (ledger : Ledger) :
    ledger.LeadsTo made (rule.postings context tick schedule ledger)
      (rule.attempt context tick schedule ledger).ledger :=
  leadsTo_attemptInTurn tick schedule _ _ hmade ledger

/-- A batch leads on by its postings, also if it is broken off. -/
theorem leadsTo_runBatch {context : Context} (tick : Int) (schedule : Schedule) {rules : List Rule}
    (hmade : ∀ rule ∈ rules, ∀ body ∈ rule.bodies, ∀ posting ∈ body.roundPostings context,
      made posting) (ledger : Ledger) :
    ledger.LeadsTo made (batchPostings context tick schedule ledger rules)
      (runBatch context tick schedule ledger rules).ledger := by
  induction rules generalizing schedule ledger with
  | nil => exact Ledger.LeadsTo.nil ledger
  | cons rule later ih =>
    have hattempt := rule.leadsTo_attempt tick schedule (hmade rule List.mem_cons_self) ledger
    have hlater := fun other hother ↦ hmade other (List.mem_cons_of_mem rule hother)
    simp only [runBatch, batchPostings]
    split_ifs with hperiod
    · exact ih schedule hlater ledger
    · cases (rule.attempt context tick schedule ledger).outcome with
      | error error => simpa only [List.append_nil] using hattempt
      | ok count => exact hattempt.append (ih _ hlater _)

namespace Simulation

theorem leadsTo_runScopes {scopes : List Scope}
    (hmade : ∀ scope ∈ scopes, ∀ rule ∈ scope.rules, ∀ body ∈ rule.bodies,
      ∀ posting ∈ body.roundPostings scope.context, made posting) (simulation : Simulation) :
    simulation.ledger.LeadsTo made (simulation.scopesPostings scopes)
      (simulation.runScopes scopes).simulation.ledger := by
  induction scopes generalizing simulation with
  | nil => exact Ledger.LeadsTo.nil _
  | cons scope later ih =>
    rw [scopesPostings, simulation_runScopes_cons]
    have hturn := leadsTo_runBatch simulation.tick (simulation.scheduleOf scope.owner)
      (hmade scope List.mem_cons_self) simulation.ledger
    have hrest := ih (fun other hother ↦ hmade other (List.mem_cons_of_mem scope hother))
      (simulation.afterBatch scope (simulation.batch scope))
    exact hturn.append hrest

theorem leadsTo_step {simulation : Simulation}
    (hmade : ∀ scope ∈ simulation.scopes, ∀ rule ∈ scope.rules, ∀ body ∈ rule.bodies,
      ∀ posting ∈ body.roundPostings scope.context, made posting) :
    simulation.ledger.LeadsTo made simulation.stepPostings simulation.step.simulation.ledger :=
  leadsTo_runScopes hmade { simulation with tick := simulation.tick + 1 }

/-- Ticks lead from ledger to ledger by their postings, each of which is one of a round of a rule,
or of a fallback, in some turn. -/
theorem leadsTo_after {simulation : Simulation}
    (hmade : ∀ scope ∈ simulation.scopes, ∀ rule ∈ scope.rules, ∀ body ∈ rule.bodies,
      ∀ posting ∈ body.roundPostings scope.context, made posting) (ticks : Nat) :
    simulation.ledger.LeadsTo made (simulation.postings ticks)
      (simulation.after ticks).ledger := by
  induction ticks with
  | zero => exact Ledger.LeadsTo.nil _
  | succ ticks ih =>
    refine ih.append (leadsTo_step ?_)
    rwa [simulation.scopes_after ticks]

end Simulation

end Runs

end TickEconomy
