import TickEconomy.Proofs.AbandonedRounds
import TickEconomy.Proofs.RoundCount

/-!
# What a production rule makes of its stocks

A production rule asks positive amounts of distinct pools, on no condition, and gives nothing back
to them (`RuleBody.IsProduction`). Its round goes through just when each input is covered by what
its pool holds (`round_eq_none_of_covered`, `exists_blocked_of_uncovered`), and takes that amount
from each of them (`held_of_round`). A pool that receives one output and no set gets that output as
far as it fits (`pool?_output_of_round`).

Both are carried from one round to many by induction on the rounds that went through. An input pool
holds less by the amount times the number of rounds (`held_of_runsThrough`). Of a pool that receives
one output the sum is cut off at the capacity in every round, which comes to the same as cutting it
off once at the end (`pool?_output_of_runsThrough`), as the sum never falls.

So the number of rounds is the least of the planned number and of the quotients of the stocks by the
amounts asked for (`Context.coveredRounds`), or none if that is negative, and what the pools hold in
the end is told by that number alone (`Rule.attempt_production`).
-/

set_option autoImplicit false
set_option relaxedAutoImplicit false

namespace TickEconomy

/-- In the range from zero on only the capacity cuts a quantity off. -/
theorem fitting_eq_min {capacity quantity : Int} (h : 0 ≤ quantity) :
    fitting capacity quantity = min capacity quantity := by
  unfold fitting
  split_ifs <;> omega

/-! ### Movements of one pool -/

namespace Context

variable {context : Context}

theorem meansSamePool_self (specifier : Specifier) :
    context.meansSamePool specifier specifier = true := by
  simp [meansSamePool, Resource.isSame]

theorem meansSamePool_comm (first second : Specifier) :
    context.meansSamePool first second = context.meansSamePool second first := by
  simp only [meansSamePool, Resource.isSame, BEq.comm]

/-- An adjustment of the pool that one specifier means shows in the pool that another one means just
when the two are the same. -/
theorem pool?_adjust {specifier wanted : Specifier} {owner other : Owner}
    (howner : context.get? specifier.relation = some owner)
    (hother : context.get? wanted.relation = some other) (ledger : Ledger)
    (quantity : Pool → Int) :
    (ledger.adjust owner specifier.resource quantity).pool? other wanted.resource =
      (ledger.pool? other wanted.resource).map fun pool ↦
        if context.meansSamePool specifier wanted then { pool with quantity := quantity pool }
        else pool := by
  rw [Ledger.pool?_adjust]
  cases hfound : ledger.pool? other wanted.resource with
  | none => rfl
  | some pool =>
    have hsame : pool.isOf owner specifier.resource = context.meansSamePool specifier wanted := by
      rw [meansSamePool_comm, meansSamePool, howner, hother,
        Pool.isOf_congr (Ledger.isOf_of_pool? hfound), Bool.and_comm]
      rfl
    simp only [Option.map_some, hsame]

variable {specifiers before behind : List Specifier} {movements : List Movement}
  {wanted specifier : Specifier} {owner : Owner}

/-- Movements of other pools leave a pool alone. -/
theorem pool?_moveEach_of_apart (hresolves : context.Resolves specifiers movements)
    (howner : context.get? wanted.relation = some owner)
    (hapart : ∀ other ∈ specifiers, context.meansSamePool other wanted = false)
    (ledger : Ledger) (quantity : Int → Pool → Int) :
    (ledger.moveEach movements quantity).pool? owner wanted.resource =
      ledger.pool? owner wanted.resource := by
  induction hresolves generalizing ledger with
  | nil => rfl
  | @cons first movement later rest hmeans _ ih =>
    obtain ⟨hfirst, rfl⟩ := hmeans
    obtain ⟨hnot, hlater⟩ := List.forall_mem_cons.1 hapart
    rw [Ledger.moveEach, List.foldl_cons]
    refine (ih hlater _).trans ?_
    simp [pool?_adjust hfirst howner, hnot]

/-- Of movements of which a single one concerns a pool, the pool shows that one. -/
theorem pool?_moveEach_of_single
    (hresolves : context.Resolves (before ++ specifier :: behind) movements)
    (howner : context.get? specifier.relation = some owner)
    (hapart : ∀ other ∈ before ++ behind, context.meansSamePool other specifier = false)
    (ledger : Ledger) (quantity : Int → Pool → Int) :
    (ledger.moveEach movements quantity).pool? owner specifier.resource =
      (ledger.pool? owner specifier.resource).map fun pool ↦
        { pool with quantity := quantity specifier.quantity pool } := by
  induction before generalizing movements ledger with
  | nil =>
    cases hresolves with
    | @cons _ movement _ rest hmeans hrest =>
      obtain ⟨hfirst, rfl⟩ := hmeans
      rw [Ledger.moveEach, List.foldl_cons]
      refine (pool?_moveEach_of_apart hrest howner hapart _ _).trans ?_
      simp [pool?_adjust hfirst howner, meansSamePool_self]
  | cons first before ih =>
    cases hresolves with
    | @cons _ movement _ rest hmeans hrest =>
      obtain ⟨hfirst, rfl⟩ := hmeans
      obtain ⟨hnot, hlater⟩ := List.forall_mem_cons.1 hapart
      rw [Ledger.moveEach, List.foldl_cons]
      refine (ih hrest hlater _).trans ?_
      simp [pool?_adjust hfirst howner, hnot]

end Context

/-! ### The closed form -/

/-- The least of the planned number of rounds and of the quotients, rounded down, of what the pools
of the inputs hold by what a round asks of them. -/
def Context.coveredRounds (context : Context) (ledger : Ledger) (planned : Int)
    (inputs : List Specifier) : Int :=
  inputs.foldr (fun input least ↦ min (context.held ledger input / input.quantity) least) planned

theorem Context.le_coveredRounds_iff {context : Context} {ledger : Ledger} {planned count : Int}
    {inputs : List Specifier} :
    count ≤ context.coveredRounds ledger planned inputs ↔
      count ≤ planned ∧ ∀ input ∈ inputs, count ≤ context.held ledger input / input.quantity := by
  induction inputs with
  | nil => simp [coveredRounds]
  | cons input later ih =>
    have hfold : context.coveredRounds ledger planned (input :: later) =
        min (context.held ledger input / input.quantity)
          (context.coveredRounds ledger planned later) := rfl
    rw [hfold, Int.le_min, ih, List.forall_mem_cons]
    exact and_left_comm

theorem Context.coveredRounds_le_planned (context : Context) (ledger : Ledger) (planned : Int)
    (inputs : List Specifier) : context.coveredRounds ledger planned inputs ≤ planned :=
  (le_coveredRounds_iff.1 (Int.le_refl _)).1

theorem Context.coveredRounds_le_quotient (context : Context) (ledger : Ledger) (planned : Int)
    {inputs : List Specifier} {input : Specifier} (hinput : input ∈ inputs) :
    context.coveredRounds ledger planned inputs ≤ context.held ledger input / input.quantity :=
  (le_coveredRounds_iff.1 (Int.le_refl _)).2 input hinput

namespace RuleBody

/-- The rule sets no conditions, all its relations have owners, and it asks positive amounts of
distinct pools, to which it gives nothing back. -/
structure IsProduction (rule : RuleBody) (context : Context) : Prop where
  unconditional : rule.preconditions = []
  resolved : ∀ specifier ∈ rule.inputs ++ rule.outputs ++ rule.sets,
    context.get? specifier.relation ≠ none
  positive : ∀ input ∈ rule.inputs, 0 < input.quantity
  apart : rule.inputs.Pairwise fun first second ↦ context.meansSamePool first second = false
  oneWay : ∀ input ∈ rule.inputs, ∀ specifier ∈ rule.outputs ++ rule.sets,
    context.meansSamePool specifier input = false

/-- The output is the only one that its pool receives, and the pool is not set. -/
def IsSoleOutput (rule : RuleBody) (context : Context) (output : Specifier) : Prop :=
  ∃ before behind, rule.outputs = before ++ output :: behind ∧
    ∀ other ∈ before ++ behind ++ rule.sets, context.meansSamePool other output = false

namespace IsProduction

variable {rule : RuleBody} {context : Context} {ledger reached : Ledger} {input output : Specifier}
  {owner : Owner}

/-! ### One round -/

theorem exists_owner (h : rule.IsProduction context) (hinput : input ∈ rule.inputs) :
    ∃ owner, context.get? input.relation = some owner :=
  Option.ne_none_iff_exists'.1 (h.resolved input (by simp [hinput]))

/-- A production rule requires nothing but its inputs. -/
theorem exists_input (h : rule.IsProduction context) {requirement : Requirement}
    (hrequirement : requirement ∈ rule.requirements) :
    ∃ input ∈ rule.inputs, requirement = .input input := by
  simp only [requirements, h.unconditional, List.map_nil, List.nil_append, List.mem_map]
    at hrequirement
  obtain ⟨input, hinput, rfl⟩ := hrequirement
  exact ⟨input, hinput, rfl⟩

/-- A round goes through when each input is covered by what its pool holds. -/
theorem round_eq_none_of_covered (h : rule.IsProduction context)
    (hcovered : ∀ input ∈ rule.inputs, input.quantity ≤ context.held ledger input) :
    (rule.round context ledger).2 = none := by
  have hmet : rule.shortfall? context ledger = .ok none := by
    refine (firstShortfall_eq_none_iff _ _ _ _).2 fun requirement hrequirement ↦ ?_
    obtain ⟨input, hinput, rfl⟩ := h.exists_input hrequirement
    obtain ⟨owner, howner⟩ := h.exists_owner hinput
    have hheld := hcovered input hinput
    rw [Context.held_eq howner] at hheld
    exact (Requirement.verdict_input_eq_met_iff _ _ _ _).2 ⟨owner, howner, hheld⟩
  have hobstacle := obstacle_apply hmet
    (fun output houtput ↦ h.resolved output (by simp [houtput]))
    (fun set hset ↦ h.resolved set (by simp [hset]))
  rw [round, hmet]
  dsimp only
  rw [hobstacle, Option.map_eq_none_iff, Context.firstUncovered?_eq_none_iff]
  intro before input behind hinputs _
  -- The inputs before this one ask nothing of its pool.
  have hapart := h.apart
  rw [hinputs] at hapart
  have hasked : context.askedOf before input ≤ 0 := by
    refine Context.askedOf_nonpos fun other hother hsame ↦ ?_
    rw [(List.pairwise_append.1 hapart).2.2 other hother input List.mem_cons_self] at hsame
    cases hsame
  have hheld := hcovered input (by simp [hinputs])
  rw [List.nil_append]
  omega

/-- A round is blocked when some input is not covered. -/
theorem exists_blocked_of_uncovered (h : rule.IsProduction context) (hinput : input ∈ rule.inputs)
    (hshort : context.held ledger input < input.quantity) :
    ∃ shortfall, rule.round context ledger = (ledger, some (.blocked shortfall)) := by
  cases hshortfall : rule.shortfall? context ledger with
  | error error =>
    obtain ⟨requirement, hreached, hhard⟩ := shortfall?_eq_error_iff.1 hshortfall
    obtain ⟨other, hother, rfl⟩ := h.exists_input hreached.mem
    obtain ⟨owner, howner⟩ := h.exists_owner hother
    cases hhard with
    | input _ hnone => cases hnone.symm.trans howner
  | ok shortfall =>
    cases shortfall with
    | some shortfall => exact ⟨shortfall, round_of_shortfall hshortfall⟩
    | none =>
      obtain ⟨owner, howner, hheld⟩ := inputs_met hshortfall input hinput
      rw [Context.held_eq howner] at hshort
      omega

/-- Before a round that goes through every input is covered. -/
theorem covered_of_round (h : rule.IsProduction context)
    (hround : rule.round context ledger = (reached, none)) (hinput : input ∈ rule.inputs) :
    input.quantity ≤ context.held ledger input := by
  by_contra hshort
  obtain ⟨shortfall, hblocked⟩ := h.exists_blocked_of_uncovered hinput (Int.not_le.1 hshort)
  simp [hblocked] at hround

/-- A round that meets an obstacle is blocked, and some input is not covered. -/
theorem exists_uncovered_of_round (h : rule.IsProduction context) {obstacle : Obstacle}
    (hround : rule.round context ledger = (reached, some obstacle)) :
    (∃ shortfall, obstacle = .blocked shortfall) ∧
      ∃ input ∈ rule.inputs, context.held ledger input < input.quantity := by
  by_cases hcovered : ∀ input ∈ rule.inputs, input.quantity ≤ context.held ledger input
  · have hthrough := h.round_eq_none_of_covered hcovered
    simp [hround] at hthrough
  · obtain ⟨input, hinput, hshort⟩ : ∃ input ∈ rule.inputs,
        context.held ledger input < input.quantity := by
      simpa using hcovered
    obtain ⟨shortfall, hblocked⟩ := h.exists_blocked_of_uncovered hinput hshort
    have hobstacle := (Prod.mk.inj (hround.symm.trans hblocked)).2
    exact ⟨⟨shortfall, Option.some.inj hobstacle⟩, input, hinput, hshort⟩

/-- A round that goes through takes its amount from the pool of each input. -/
theorem held_of_round (h : rule.IsProduction context)
    (hround : rule.round context ledger = (reached, none)) (hinput : input ∈ rule.inputs) :
    context.held reached input = context.held ledger input - input.quantity := by
  obtain ⟨owner, howner⟩ := h.exists_owner hinput
  have hcovered := h.covered_of_round hround hinput
  have hpositive := h.positive input hinput
  obtain ⟨before, behind, hinputs⟩ := List.append_of_mem hinput
  have hapart : ∀ other ∈ before ++ behind, context.meansSamePool other input = false := by
    have hpairs := h.apart
    rw [hinputs, List.pairwise_append, List.pairwise_cons] at hpairs
    obtain ⟨-, ⟨hbehind, -⟩, hbefore⟩ := hpairs
    intro other hother
    rcases List.mem_append.1 hother with hmem | hmem
    · exact hbefore other hmem input List.mem_cons_self
    · rw [Context.meansSamePool_comm]
      exact hbehind other hmem
  have honeWay := h.oneWay input hinput
  obtain ⟨obstacle, hstopped⟩ | ⟨inputs, outputs, sets, hresolves, houtputs, hsets, hthrough⟩ :=
    rule.round_cases context ledger
  · simp [hstopped] at hround
  · obtain rfl := (Prod.mk.inj (hround.symm.trans hthrough)).1
    rw [hinputs] at hresolves
    rw [Context.held_eq howner] at hcovered ⊢
    rw [Context.held_eq howner]
    simp only [Ledger.quantity] at hcovered ⊢
    rw [Context.pool?_moveEach_of_apart hsets howner fun set hset ↦
        honeWay set (List.mem_append_right _ hset),
      Context.pool?_moveEach_of_apart houtputs howner fun output houtput ↦
        honeWay output (List.mem_append_left _ houtput),
      Context.pool?_moveEach_of_single hresolves howner hapart]
    -- A pool that covers a positive amount is there.
    cases hpool : ledger.pool? owner input.resource with
    | none =>
      simp only [hpool, Pool.quantityIn] at hcovered
      omega
    | some pool => rfl

/-- A round that goes through adds to a pool its one output as far as it fits. -/
theorem pool?_output_of_round (h : rule.IsProduction context)
    (hround : rule.round context ledger = (reached, none))
    (hsole : rule.IsSoleOutput context output)
    (howner : context.get? output.relation = some owner) :
    reached.pool? owner output.resource = (ledger.pool? owner output.resource).map fun pool ↦
      { pool with quantity := fitting pool.capacity (pool.quantity + output.quantity) } := by
  obtain ⟨before, behind, hsplit, hapart⟩ := hsole
  obtain ⟨obstacle, hstopped⟩ | ⟨inputs, outputs, sets, hinputs, houtputs, hsets, hthrough⟩ :=
    rule.round_cases context ledger
  · simp [hstopped] at hround
  · obtain rfl := (Prod.mk.inj (hround.symm.trans hthrough)).1
    have houtput : output ∈ rule.outputs := by simp [hsplit]
    rw [hsplit] at houtputs
    rw [Context.pool?_moveEach_of_apart hsets howner fun set hset ↦
        hapart set (List.mem_append_right _ hset),
      Context.pool?_moveEach_of_single houtputs howner fun other hother ↦
        hapart other (List.mem_append_left _ hother),
      Context.pool?_moveEach_of_apart hinputs howner]
    intro input hinput
    rw [Context.meansSamePool_comm]
    exact h.oneWay input hinput output (List.mem_append_left _ houtput)

/-! ### Many rounds -/

variable {count : Nat} {first last : Ledger}

/-- After a number of rounds the pool of an input holds less by as many times its amount. -/
theorem held_of_runsThrough (h : rule.IsProduction context)
    (hthrough : rule.RunsThrough context count first last) (hinput : input ∈ rule.inputs) :
    context.held last input = context.held first input - count * input.quantity := by
  induction hthrough with
  | none ledger => simp
  | round hround _ ih =>
    rw [ih, h.held_of_round hround hinput, Int.natCast_succ, Int.add_mul, Int.one_mul]
    omega

/-- Before rounds that go through, all of which there is one at least, the pool of an input holds
what they take together. -/
theorem covered_of_runsThrough (h : rule.IsProduction context)
    (hthrough : rule.RunsThrough context count first last) (hcount : 0 < count)
    (hinput : input ∈ rule.inputs) : count * input.quantity ≤ context.held first input := by
  induction hthrough with
  | none ledger => omega
  | @round later first middle last hround _ ih =>
    have hcovered := h.covered_of_round hround hinput
    have hheld := h.held_of_round hround hinput
    rw [Int.natCast_succ, Int.add_mul, Int.one_mul]
    rcases Nat.eq_zero_or_pos later with rfl | hlater
    · simpa using hcovered
    · have hrest := ih hlater
      omega

/-- After a number of rounds a pool with one output holds that output as many times on top of what
it held, cut off at the capacity once. -/
theorem pool?_output_of_runsThrough (h : rule.IsProduction context)
    (hsole : rule.IsSoleOutput context output) (howner : context.get? output.relation = some owner)
    (hamount : 0 ≤ output.quantity) (hthrough : rule.RunsThrough context count first last)
    {pool : Pool} (hpool : first.pool? owner output.resource = some pool)
    (hnonneg : 0 ≤ pool.quantity) (hfits : pool.quantity ≤ pool.capacity) :
    last.pool? owner output.resource =
      some { pool with
        quantity := min pool.capacity (pool.quantity + count * output.quantity) } := by
  induction hthrough generalizing pool with
  | none ledger =>
    rw [Int.natCast_zero, Int.zero_mul, Int.add_zero, Int.min_eq_right hfits]
    exact hpool
  | @round later first middle last hround _ ih =>
    have hmiddle := h.pool?_output_of_round hround hsole howner
    rw [hpool, Option.map_some, fitting_eq_min (Int.add_nonneg hnonneg hamount)] at hmiddle
    have hrest := ih hmiddle (by dsimp only; omega) (by dsimp only; omega)
    have hmore : 0 ≤ (later : Int) * output.quantity :=
      Int.mul_nonneg (Int.natCast_nonneg later) hamount
    have hcut : min pool.capacity
          (min pool.capacity (pool.quantity + output.quantity) + later * output.quantity) =
        min pool.capacity (pool.quantity + (later + 1 : Nat) * output.quantity) := by
      rw [Int.natCast_succ, Int.add_mul, Int.one_mul]
      omega
    rw [hrest, ← hcut]

/-- When the next of the rounds that were made does not go through, no more of them are covered. -/
theorem coveredRounds_le_of_round (h : rule.IsProduction context)
    (hthrough : rule.RunsThrough context count first last) {obstacle : Obstacle}
    (hround : rule.round context last = (reached, some obstacle)) (planned : Int) :
    context.coveredRounds first planned rule.inputs ≤ count := by
  obtain ⟨-, input, hinput, hshort⟩ := h.exists_uncovered_of_round hround
  have hquotient := context.coveredRounds_le_quotient first planned hinput
  have hnext : context.held first input / input.quantity < count + 1 := by
    refine (Int.ediv_lt_iff_lt_mul (h.positive input hinput)).2 ?_
    rw [h.held_of_runsThrough hthrough hinput] at hshort
    rw [Int.add_mul, Int.one_mul]
    omega
  omega

/-- An evaluation completes as many rounds as are planned and covered, and its outcome is their
number. -/
theorem completed_evaluate (h : rule.IsProduction context) (ledger : Ledger) :
    ((rule.evaluate context ledger).completed : Int) =
        max 0 (context.coveredRounds ledger (rule.plannedRounds context ledger) rule.inputs) ∧
      (rule.evaluate context ledger).outcome = .ok (rule.evaluate context ledger).completed := by
  obtain ⟨hcount, hthrough, hall, hstop⟩ := rule.evaluate_runsThrough context ledger
  have hplanned := context.coveredRounds_le_planned ledger (rule.plannedRounds context ledger)
    rule.inputs
  have hatMost : 0 < (rule.evaluate context ledger).completed →
      ((rule.evaluate context ledger).completed : Int) ≤
        context.coveredRounds ledger (rule.plannedRounds context ledger) rule.inputs := by
    refine fun hpositive ↦ Context.le_coveredRounds_iff.2 ⟨by omega, fun input hinput ↦ ?_⟩
    exact (Int.le_ediv_iff_mul_le (h.positive input hinput)).2
      (h.covered_of_runsThrough hthrough hpositive hinput)
  cases hobstacle : (rule.evaluate context ledger).obstacle with
  | none =>
    have hdone := hall hobstacle
    exact ⟨by omega, by rw [Rounds.outcome, hobstacle]⟩
  | some obstacle =>
    have hround := hstop obstacle hobstacle
    have hatLeast := h.coveredRounds_le_of_round hthrough hround (rule.plannedRounds context ledger)
    obtain ⟨⟨shortfall, rfl⟩, -⟩ := h.exists_uncovered_of_round hround
    exact ⟨by omega, by rw [Rounds.outcome, hobstacle]⟩

end IsProduction

end RuleBody

/-- An attempt at a production rule that is due and has no fallback makes as many rounds as are
planned and covered by what the pools of its inputs hold, or none, and its outcome is their number.
The pool of each input then holds less by as many times its amount. A pool that holds what is in its
range, and receives one output of an amount that is not negative and no set, then holds that amount
as many times on top, as far as its capacity goes. -/
theorem Rule.attempt_production {rule : Rule} {context : Context}
    (hrule : rule.IsProduction context) (hfallback : rule.fallback? = none) {tick : Int}
    {schedule : Schedule} (hdue : schedule.isDue rule.toRuleBody tick = true) (ledger : Ledger) :
    let attempt := rule.attempt context tick schedule ledger
    ∃ count : Nat, (count : Int) =
        max 0 (context.coveredRounds ledger (rule.plannedRounds context ledger) rule.inputs) ∧
      attempt.outcome = .ok count ∧
      (∀ input ∈ rule.inputs, context.held attempt.ledger input =
        context.held ledger input - count * input.quantity) ∧
      ∀ (output : Specifier) (owner : Owner) (pool : Pool), rule.IsSoleOutput context output →
        context.get? output.relation = some owner → 0 ≤ output.quantity →
        ledger.pool? owner output.resource = some pool → 0 ≤ pool.quantity →
        pool.quantity ≤ pool.capacity →
        attempt.ledger.pool? owner output.resource =
          some { pool with
            quantity := min pool.capacity (pool.quantity + count * output.quantity) } := by
  intro attempt
  have hstays : ¬ rule.Delegates context tick schedule ledger := fun h ↦ h.hasFallback hfallback
  have hattempt : attempt = _ := rule.attempt_of_not_delegates hdue hstays
  obtain ⟨hcount, houtcome⟩ := hrule.completed_evaluate ledger
  obtain ⟨-, hthrough, -⟩ := rule.toRuleBody.evaluate_runsThrough context ledger
  rw [hattempt]
  refine ⟨(rule.evaluate context ledger).completed, hcount, houtcome, ?_, ?_⟩
  · exact fun input hinput ↦ hrule.held_of_runsThrough hthrough hinput
  · intro output owner pool hsole howner hamount hpool hnonneg hfits
    exact hrule.pool?_output_of_runsThrough hsole howner hamount hthrough hpool hnonneg hfits

/-- A smelter plans as many rounds as there are units of ore. These are 7, enough for 2 rounds of 3.
The coal, under another relation to the same owner, would be enough for 4. Of the bronze 5 units
fit. -/
theorem Rule.attempt_production_smelter :
    let resource (handle : Nat) (name : String) : Resource :=
      { handle := handle, key := name, singular := name, plural := name }
    let part (relation : String) (resource : Resource) (quantity : Int) : Specifier :=
      { relation := relation, resource := resource, quantity := quantity }
    let ore := resource 1 "ore"
    let coal := resource 2 "coal"
    let bronze := resource 3 "bronze"
    let smelter : Rule :=
      { handle := 4, name := "smelt"
        inputs := [part "self" ore 3, part "town" coal 2]
        outputs := [part "self" bronze 4]
        repeatFrom := some { relation := "town", resource := ore } }
    let context : Context := { entries := [("self", .world), ("town", .world)] }
    let pool (resource : Resource) (quantity capacity : Int) : Pool :=
      { owner := .world, resource := resource, quantity := quantity, capacity := capacity }
    let ledger : Ledger := { pools := [pool ore 7 9, pool coal 9 9, pool bronze 1 6] }
    let attempt := smelter.attempt context 1 {} ledger
    smelter.IsProduction context ∧ smelter.IsSoleOutput context (part "self" bronze 4) ∧
      context.coveredRounds ledger 7 smelter.inputs = 2 ∧ attempt.outcome = .ok 2 ∧
      context.held attempt.ledger (part "self" ore 3) = 7 - 2 * 3 ∧
      attempt.ledger.pool? .world bronze = some (pool bronze (min 6 (1 + 2 * 4)) 6) := by
  intro resource part ore coal bronze smelter context pool ledger attempt
  have hrule : smelter.IsProduction context :=
    { unconditional := rfl
      resolved := by decide
      positive := by decide
      apart := by decide
      oneWay := by decide }
  have hsole : smelter.IsSoleOutput context (part "self" bronze 4) := ⟨[], [], rfl, by decide⟩
  have hdue : Schedule.isDue {} smelter.toRuleBody 1 = true := rfl
  obtain ⟨count, hcount, houtcome, hheld, hpools⟩ := attempt_production hrule rfl hdue ledger
  obtain rfl : count = 2 := Int.ofNat.inj hcount
  refine ⟨hrule, hsole, rfl, houtcome, hheld (part "self" ore 3) List.mem_cons_self, ?_⟩
  exact hpools (part "self" bronze 4) .world (pool bronze 1 6) hsole rfl (by decide) rfl (by decide)
    (by decide)

end TickEconomy
