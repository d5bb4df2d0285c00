import TickEconomy.Proofs.Evaluation

/-!
# A rule that falls back does what its fallback would do

Rules with fallbacks form a chain: the rule itself, its fallback, the fallback of that, and so on
(`Rule.chain`). A link of the chain delegates when it is due, has a round to make, finds a
requirement that is not met and has a fallback (`Rule.Delegates`). Nothing has changed when it turns
to the fallback: the pools are as they were, and the schedule is written only after the fallback was
attempted. So an attempt at the first rule comes down to an attempt, in the same state, at the first
link that does not delegate (`Rule.attempt_eq_attempt_of_stop`). The two differ only in that the
links before it are remembered as evaluated. The links behind it are not reached.

The proof goes along the chain. One link is dealt with by `Rule.attempt_of_delegates` or by
`Rule.lastRun?_attempt_of_not_delegates`.
-/

set_option autoImplicit false
set_option relaxedAutoImplicit false

namespace TickEconomy.Rule

/-! ### Chains -/

/-- The rule of a body and its fallbacks, then the rule of the first fallback and those behind it,
and so on. -/
def chainOf : RuleBody → List RuleBody → List Rule
  | body, [] => [ofBodies body []]
  | body, fallback :: later => ofBodies body (fallback :: later) :: chainOf fallback later

/-- The rule, its fallback, the fallback of that, and so on. -/
def chain (rule : Rule) : List Rule :=
  chainOf rule.toRuleBody rule.fallbacks

/-- The chain of a rule is the rule and then the chain of its fallback, if it has one. -/
theorem chain_eq_cons (rule : Rule) :
    rule.chain = rule :: (rule.fallback?.map chain).getD [] := by
  obtain ⟨body, fallbacks⟩ := rule
  cases fallbacks <;> rfl

/-- The bodies of the links are those of the rule. -/
theorem map_toRuleBody_chainOf (body : RuleBody) (fallbacks : List RuleBody) :
    (chainOf body fallbacks).map toRuleBody = body :: fallbacks := by
  induction fallbacks generalizing body with
  | nil => rfl
  | cons fallback later ih => rw [chainOf, List.map_cons, ih, ofBodies]

theorem map_handle_chain (rule : Rule) :
    rule.chain.map (fun link ↦ link.handle) = rule.bodies.map RuleBody.handle := by
  rw [bodies, ← map_toRuleBody_chainOf, List.map_map]
  rfl

/-! ### Delegating -/

section Delegation

variable {context : Context} {tick : Int} {schedule : Schedule} {ledger : Ledger}

/-- The rule turns to its fallback: it is due, has a round to make, finds a requirement that is not
met, and has a fallback. -/
structure Delegates (rule : Rule) (context : Context) (tick : Int) (schedule : Schedule)
    (ledger : Ledger) : Prop where
  due : schedule.isDue rule.toRuleBody tick = true
  rounds : ∃ count, rule.roundCount? context ledger = some count ∧ 0 < count
  short : ∃ shortfall, rule.shortfall? context ledger = .ok (some shortfall)
  hasFallback : rule.fallback? ≠ none

/-- A rule with a fallback delegates when it is due and its evaluation is blocked at once. -/
theorem delegates_ofBodies_cons_iff (body fallback : RuleBody) (later : List RuleBody) :
    (ofBodies body (fallback :: later)).Delegates context tick schedule ledger ↔
      schedule.isDue body tick = true ∧
        (body.evaluate context ledger).isBlockedAtOnce = true := by
  rw [RuleBody.isBlockedAtOnce_evaluate_iff]
  constructor
  · intro h
    exact ⟨h.due, h.rounds, h.short⟩
  · rintro ⟨hdue, hrounds, hshort⟩
    exact ⟨hdue, hrounds, hshort, by simp [fallback?, ofBodies]⟩

/-- A rule that delegates attempts its fallback in the state in which it was attempted itself, and
is remembered as evaluated afterwards. -/
theorem attempt_of_delegates {body fallback : RuleBody} {later : List RuleBody}
    (h : (ofBodies body (fallback :: later)).Delegates context tick schedule ledger) :
    attemptInTurn context tick schedule ledger body (fallback :: later) =
      body.attemptOfFallback context tick ledger (body.evaluate context ledger) fallback
        (attemptInTurn context tick schedule ledger fallback later) := by
  obtain ⟨hdue, hblocked⟩ := (delegates_ofBodies_cons_iff body fallback later).1 h
  simp only [attemptInTurn, hdue, hblocked, if_true]
  rw [RuleBody.ledger_of_isBlockedAtOnce hblocked]

/-- An attempt at a rule that is due is remembered, whatever it comes to. -/
theorem lastRun?_attempt_of_due {rule : Rule}
    (hdue : schedule.isDue rule.toRuleBody tick = true) :
    (rule.attempt context tick schedule ledger).schedule.lastRun? rule.handle = some tick := by
  obtain ⟨body, fallbacks⟩ := rule
  cases fallbacks with
  | nil => simp [attempt, attemptInTurn, hdue, RuleBody.attemptOfRounds]
  | cons fallback later =>
    simp only [attempt, attemptInTurn, hdue, if_true]
    split_ifs with hblocked
    · simp [RuleBody.attemptOfFallback]
    · simp [RuleBody.attemptOfRounds]

/-- An attempt at a rule that does not delegate is remembered for no other rule. -/
theorem lastRun?_attempt_of_not_delegates {body : RuleBody} {fallbacks : List RuleBody}
    (h : ¬ (ofBodies body fallbacks).Delegates context tick schedule ledger) {handle : Nat}
    (hhandle : body.handle ≠ handle) :
    (attemptInTurn context tick schedule ledger body fallbacks).schedule.lastRun? handle =
      schedule.lastRun? handle := by
  cases fallbacks with
  | nil =>
    rw [attemptInTurn]
    split_ifs with hdue
    · simp [RuleBody.attemptOfRounds, hhandle]
    · rfl
  | cons fallback later =>
    rw [delegates_ofBodies_cons_iff] at h
    simp only [attemptInTurn]
    split_ifs with hdue hblocked
    · exact absurd ⟨hdue, hblocked⟩ h
    · simp [RuleBody.attemptOfRounds, hhandle]
    · rfl

/-- Along the chain of a body and its fallbacks the links up to the first that does not delegate add
nothing to an attempt but that they are remembered. -/
theorem attemptInTurn_eq_attempt_of_stop (context : Context) (tick : Int) (schedule : Schedule)
    (ledger : Ledger) (body : RuleBody) (fallbacks : List RuleBody) :
    ∃ delegating stop beyond, chainOf body fallbacks = delegating ++ stop :: beyond ∧
      (∀ link ∈ delegating, link.Delegates context tick schedule ledger) ∧
      ¬ stop.Delegates context tick schedule ledger ∧
      (attemptInTurn context tick schedule ledger body fallbacks).outcome =
        (stop.attempt context tick schedule ledger).outcome ∧
      (attemptInTurn context tick schedule ledger body fallbacks).ledger =
        (stop.attempt context tick schedule ledger).ledger ∧
      ∀ handle, (attemptInTurn context tick schedule ledger body fallbacks).schedule.lastRun?
          handle =
        if handle ∈ delegating.map (fun link ↦ link.handle) then some tick
        else (stop.attempt context tick schedule ledger).schedule.lastRun? handle := by
  induction fallbacks generalizing body with
  | nil =>
    refine ⟨[], ofBodies body [], [], rfl, by simp, fun h ↦ h.hasFallback rfl, rfl, rfl, ?_⟩
    intro handle
    simp [attempt, ofBodies]
  | cons fallback later ih =>
    by_cases h : (ofBodies body (fallback :: later)).Delegates context tick schedule ledger
    · obtain ⟨delegating, stop, beyond, hchain, hdelegating, hstop, houtcome, hledger, hlast⟩ :=
        ih fallback
      refine ⟨ofBodies body (fallback :: later) :: delegating, stop, beyond, ?_, ?_, hstop, ?_, ?_,
        ?_⟩
      · rw [chainOf, hchain, List.cons_append]
      · exact List.forall_mem_cons.2 ⟨h, hdelegating⟩
      · rw [attempt_of_delegates h]
        exact houtcome
      · rw [attempt_of_delegates h]
        exact hledger
      · intro handle
        rw [attempt_of_delegates h]
        by_cases hhandle : body.handle = handle
        · simp [RuleBody.attemptOfFallback, ofBodies, hhandle]
        · have hother : ¬ handle = body.handle := fun e ↦ hhandle e.symm
          simp [RuleBody.attemptOfFallback, ofBodies, hhandle, hother, hlast]
    · refine ⟨[], ofBodies body (fallback :: later), chainOf fallback later, rfl, by simp, h, rfl,
        rfl, ?_⟩
      intro handle
      simp [attempt, ofBodies]

end Delegation

/-- An attempt at a rule whose chain carries distinct handles comes down to the attempt, in the same
state, at the first link that does not delegate. Both have the same number of rounds or the same
error for an outcome and leave the same pools. Of all rules the same evaluations are remembered,
save that the links before it were evaluated at this tick. Those links change no pool, and those
behind it are remembered as before. -/
theorem attempt_eq_attempt_of_stop (rule : Rule)
    (hhandles : (rule.bodies.map RuleBody.handle).Nodup) (context : Context) (tick : Int)
    (schedule : Schedule) (ledger : Ledger) :
    ∃ delegating stop beyond, rule.chain = delegating ++ stop :: beyond ∧
      (∀ link ∈ delegating, link.Delegates context tick schedule ledger) ∧
      ¬ stop.Delegates context tick schedule ledger ∧
      (rule.attempt context tick schedule ledger).outcome =
        (stop.attempt context tick schedule ledger).outcome ∧
      (rule.attempt context tick schedule ledger).ledger =
        (stop.attempt context tick schedule ledger).ledger ∧
      (∀ handle, (rule.attempt context tick schedule ledger).schedule.lastRun? handle =
        if handle ∈ delegating.map (fun link ↦ link.handle) then some tick
        else (stop.attempt context tick schedule ledger).schedule.lastRun? handle) ∧
      (∀ link ∈ delegating, (link.evaluate context ledger).ledger = ledger) ∧
      ∀ link ∈ beyond, (rule.attempt context tick schedule ledger).schedule.lastRun? link.handle =
        schedule.lastRun? link.handle := by
  obtain ⟨delegating, stop, beyond, hchain, hdelegating, hstop, houtcome, hledger, hlast⟩ :=
    attemptInTurn_eq_attempt_of_stop context tick schedule ledger rule.toRuleBody rule.fallbacks
  refine ⟨delegating, stop, beyond, hchain, hdelegating, hstop, houtcome, hledger, hlast, ?_, ?_⟩
  · intro link hlink
    have hdelegates := hdelegating link hlink
    exact RuleBody.ledger_of_isBlockedAtOnce
      ((RuleBody.isBlockedAtOnce_evaluate_iff _ _ _).2 ⟨hdelegates.rounds, hdelegates.short⟩)
  · intro link hlink
    -- A link behind the stop shares its handle neither with the stop nor with one before it.
    rw [← map_handle_chain, chain, hchain, List.map_append, List.map_cons,
      List.nodup_append] at hhandles
    obtain ⟨-, hbehind, hapart⟩ := hhandles
    have hmem := List.mem_map_of_mem (f := fun link : Rule ↦ link.handle) hlink
    have hdelegated : link.handle ∉ delegating.map fun link ↦ link.handle :=
      fun h ↦ hapart _ h _ (List.mem_cons_of_mem _ hmem) rfl
    have hne : stop.handle ≠ link.handle := fun e ↦ (List.nodup_cons.1 hbehind).1 (e ▸ hmem)
    exact ((hlast link.handle).trans (if_neg hdelegated)).trans
      (lastRun?_attempt_of_not_delegates hstop hne)

/-- Without grain neither milling nor sowing can run, and gathering does so in their stead. -/
theorem attempt_eq_attempt_of_stop_mill :
    let grain : Resource := { handle := 1, key := "grain", singular := "grain", plural := "grain" }
    let part (quantity : Int) : Specifier :=
      { relation := "self", resource := grain, quantity := quantity }
    let sow : RuleBody := { handle := 3, name := "sow", inputs := [part 1] }
    let gather : RuleBody := { handle := 4, name := "gather", outputs := [part 3] }
    let mill : Rule :=
      { handle := 2, name := "mill", inputs := [part 2], fallbacks := [sow, gather] }
    let context : Context := { entries := [("self", .world)] }
    let pools (quantity : Int) : Ledger :=
      { pools := [{ owner := .world, resource := grain, quantity := quantity, capacity := 9 }] }
    (mill.bodies.map RuleBody.handle).Nodup ∧
      ∃ stop ∈ mill.chain, ¬ stop.Delegates context 5 {} (pools 0) ∧
        (stop.attempt context 5 {} (pools 0)).outcome = .ok 1 ∧
        (stop.attempt context 5 {} (pools 0)).ledger = pools 3 := by
  intro grain part sow gather mill context pools
  have hhandles : (mill.bodies.map RuleBody.handle).Nodup := by decide
  obtain ⟨delegating, stop, beyond, hchain, -, hstop, houtcome, hledger, -⟩ :=
    attempt_eq_attempt_of_stop mill hhandles context 5 {} (pools 0)
  refine ⟨hhandles, stop, ?_, hstop, houtcome.symm.trans rfl, hledger.symm.trans rfl⟩
  rw [hchain]
  exact List.mem_append_right _ List.mem_cons_self

end TickEconomy.Rule
