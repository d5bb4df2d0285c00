import TickEconomy.Proofs.PoolBounds
import TickEconomy.Proofs.Production
import TickEconomy.Proofs.RunPostings

/-!
# Pools without a limit

A pool that a scenario text declares without a limit gets the greatest number of a signed word of 64
bits for its capacity. Quantities are not bound to any word, and a deposit or an assignment is
settled in such a pool as in any other. So nothing is lost as long as the sum, or the amount
assigned, is at most that number, and all of the rest is lost beyond it
(`Simulation.unlimited_pools_settle`). A pool without a limit is full all the same
(`Simulation.unlimited_pool_overflows`).
-/

set_option autoImplicit false
set_option relaxedAutoImplicit false

namespace TickEconomy

/-- Rounds only move quantities. -/
theorem RuleBody.capacity?_of_mem_roundPostings {rule : RuleBody} {context : Context}
    {posting : Posting} (h : posting ∈ rule.roundPostings context) :
    posting.transaction.capacity? = none := by
  simp only [roundPostings, Context.postings, List.mem_append, List.mem_filterMap,
    Option.map_eq_some_iff] at h
  obtain ⟨_, -, _, -, rfl⟩ | ⟨_, -, _, -, rfl⟩ | ⟨_, -, _, -, rfl⟩ := h <;> rfl

namespace Ledger

variable {start ledger : Ledger}

/-- A ledger is still reached after a posting that gives no capacity to a pool. -/
theorem Reaches.post {taking : Prop} (h : start.Reaches taking ledger) {posting : Posting}
    (hmovement : posting.transaction.capacity? = none)
    (htaking : taking → posting.transaction.isWithdrawal = true →
      0 ≤ posting.transaction.amount) : start.Reaches taking (ledger.post posting) := by
  obtain ⟨owner, transaction⟩ := posting
  cases transaction with
  | setUp | limit => cases hmovement
  | deposit resource amount =>
    cases resource with
    | none => exact h
    | some resource => exact h.deposit owner resource amount
  | assign resource amount =>
    cases resource with
    | none => exact h
    | some resource => exact h.assign owner resource amount
  | withdraw resource amount =>
    cases resource with
    | none => exact h
    | some resource => exact h.withdraw owner resource fun htakes ↦ htaking htakes rfl

/-- A ledger is still reached after postings of which none gives a capacity to a pool. -/
theorem Reaches.postAll (h : start.Reaches False ledger) {postings : List Posting}
    (hmovements : ∀ posting ∈ postings, posting.transaction.capacity? = none) :
    start.Reaches False (ledger.postAll postings) := by
  induction postings generalizing ledger with
  | nil => exact h
  | cons posting later ih =>
    obtain ⟨hposting, hlater⟩ := List.forall_mem_cons.1 hmovements
    exact ih (h.post hposting nofun) hlater

/-- In a ledger that is reached there is still each pool of the first one, with another quantity. -/
theorem Reaches.exists_quantity (h : start.Reaches False ledger) {pool : Pool}
    (hpool : pool ∈ start.pools) (hquantity : 0 ≤ pool.quantity) :
    ∃ held, 0 ≤ held ∧
      ledger.pool? pool.owner pool.resource = some { pool with quantity := held } := by
  obtain ⟨⟨owner, resource, held, capacity⟩, hmem, hbecome⟩ :=
    exists_of_forall₂_of_mem h.pools.flip hpool
  obtain ⟨rfl, rfl, rfl, hnonneg, -⟩ : pool.MayBecome False ⟨owner, resource, held, capacity⟩ :=
    hbecome
  exact ⟨held, hnonneg hquantity,
    h.wellSetUp.pool?_eq hmem ((Pool.isOf_iff _ _ _).2 ⟨rfl, rfl⟩)⟩

end Ledger

namespace Simulation

/-- The postings of a run of a scenario text are those of rounds of its rules and fallbacks, and
lead to the pools of the run. Before each of them a pool that was declared without a limit, and not
below zero, holds some quantity that is not below zero. A deposit of an amount that is not negative
leaves the sum there, and an assignment the amount, up to the greatest number of a signed word of
64 bits. -/
theorem unlimited_pools_settle {catalog : Catalog} {rules : List Rule} {lines : List (List Char)}
    {scenario : Scenario} (hscenario : Scenario.parse catalog rules lines = .ok scenario)
    {pool : Pool} (hpool : pool ∈ scenario.ledger.pools)
    (hunlimited : pool.capacity = unlimitedCapacity) (hquantity : 0 ≤ pool.quantity)
    (ticks : Nat) :
    let postings := (ofScenario scenario).postings ticks
    (∀ posting ∈ postings, ∃ scope ∈ (ofScenario scenario).scopes, ∃ rule ∈ scope.rules,
        ∃ body ∈ rule.bodies, posting ∈ body.roundPostings scope.context) ∧
      scenario.ledger.postAll postings = ((ofScenario scenario).after ticks).ledger ∧
      ∀ earlier posting later, postings = earlier ++ posting :: later →
        let before := scenario.ledger.postAll earlier
        let after := before.post posting
        ∃ held, 0 ≤ held ∧
          before.pool? pool.owner pool.resource = some { pool with quantity := held } ∧
          ∀ (resource : Resource) amount, resource.handle = pool.resource.handle → 0 ≤ amount →
            (posting = ⟨pool.owner, .deposit resource amount⟩ →
              after.pool? pool.owner pool.resource =
                some { pool with quantity := min (held + amount) unlimitedCapacity }) ∧
            (posting = ⟨pool.owner, .assign resource amount⟩ →
              after.pool? pool.owner pool.resource =
                some { pool with quantity := min amount unlimitedCapacity }) := by
  intro postings
  have hleads : (ofScenario scenario).ledger.LeadsTo
      (fun posting ↦ ∃ scope ∈ (ofScenario scenario).scopes, ∃ rule ∈ scope.rules,
        ∃ body ∈ rule.bodies, posting ∈ body.roundPostings scope.context)
      postings ((ofScenario scenario).after ticks).ledger := by
    refine leadsTo_after ?_ ticks
    intro scope hscope rule hrule body hbody posting hposting
    exact ⟨scope, hscope, rule, hrule, body, hbody, hposting⟩
  refine ⟨hleads.made, hleads.postAll, ?_⟩
  intro earlier posting later hsplit before after
  have hearlier : ∀ other ∈ earlier, other.transaction.capacity? = none := by
    intro other hother
    have hmem : other ∈ postings := hsplit ▸ List.mem_append_left _ hother
    obtain ⟨_, -, _, -, _, -, hround⟩ := hleads.made other hmem
    exact RuleBody.capacity?_of_mem_roundPostings hround
  have hreaches : scenario.ledger.Reaches False before :=
    (Ledger.Reaches.refl (Scenario.wellSetUp_of_parse hscenario).ledger).postAll hearlier
  obtain ⟨held, hheld, hbefore⟩ := hreaches.exists_quantity hpool hquantity
  refine ⟨held, hheld, hbefore, ?_⟩
  intro resource amount hhandle hamount
  have hlookup (reached : Ledger) :
      reached.pool? pool.owner resource = reached.pool? pool.owner pool.resource :=
    reached.pool?_congr pool.owner hhandle
  have hfound : before.pool? pool.owner resource = some { pool with quantity := held } :=
    (hlookup before).trans hbefore
  constructor
  · rintro rfl
    obtain ⟨reached, _, _, hperform, hreached, -, rfl⟩ := Ledger.perform_deposit hfound amount
    have hafter : after = reached := Ledger.post_of_perform hperform
    rw [hafter, ← hlookup, hreached, fitting_eq_min (Int.add_nonneg hheld hamount), min_comm,
      hunlimited]
  · rintro rfl
    obtain ⟨reached, _, _, hperform, hreached, -, rfl⟩ := Ledger.perform_assign hfound amount
    have hafter : after = reached := Ledger.post_of_perform hperform
    rw [hafter, ← hlookup, hreached, fitting_eq_min hamount, min_comm, hunlimited]

/-- At each tick 2 are added to a pool without a limit, which then is set to 7. -/
theorem unlimited_pools_settle_refill :
    let wood : Resource := { handle := 1, key := "wood", singular := "wood", plural := "wood" }
    let part (quantity : Int) : Specifier :=
      { relation := "self", resource := wood, quantity := quantity }
    let refill : Rule :=
      { handle := 2, name := "refill", outputs := [part 2], sets := [part 7] }
    let pool (quantity : Int) : Pool :=
      { owner := .world, resource := wood, quantity := quantity, capacity := unlimitedCapacity }
    let scenario : Scenario := { worldRules := [refill], ledger := { pools := [pool 4] } }
    let lines : List (List Char) :=
      ["world", "pool wood unlimited 4", "rules refill", "end"].map String.toList
    let added : Posting := ⟨.world, .deposit wood 2⟩
    let replaced : Posting := ⟨.world, .assign wood 7⟩
    Scenario.parse { resources := [wood] } [refill] lines = .ok scenario ∧
      (ofScenario scenario).postings 1 = [added, replaced] ∧
      (scenario.ledger.post added).pool? .world wood = some (pool 6) ∧
      ((scenario.ledger.post added).post replaced).pool? .world wood = some (pool 7) := by
  intro wood part refill pool scenario lines added replaced
  have hscenario : Scenario.parse { resources := [wood] } [refill] lines = .ok scenario := by
    decide +kernel
  have hpostings : (ofScenario scenario).postings 1 = [added, replaced] := by decide
  have hpool : pool 4 ∈ scenario.ledger.pools := List.mem_cons_self
  have hsettle := (unlimited_pools_settle hscenario hpool rfl (by decide) 1).2.2
  obtain ⟨held, -, hbefore, hadded⟩ := hsettle [] added [replaced] hpostings
  obtain rfl : 4 = held := congrArg Pool.quantity (Option.some.inj hbefore)
  obtain ⟨_, -, -, hreplaced⟩ := hsettle [added] replaced [] hpostings
  exact ⟨hscenario, hpostings, (hadded wood 2 rfl (by decide)).1 rfl,
    (hreplaced wood 7 rfl (by decide)).2 rfl⟩

/-- A pool without a limit that holds the greatest number of a signed word of 64 bits loses what is
deposited in it. -/
theorem unlimited_pool_overflows :
    let wood : Resource := { handle := 1, key := "wood", singular := "wood", plural := "wood" }
    let grow : Rule :=
      { handle := 2, name := "grow"
        outputs := [{ relation := "self", resource := wood, quantity := 1 }] }
    let pool : Pool :=
      { owner := .world, resource := wood, quantity := 9223372036854775807
        capacity := unlimitedCapacity }
    let scenario : Scenario := { worldRules := [grow], ledger := { pools := [pool] } }
    let ruleLines : List (List Char) := ["rule grow", "out wood 1", "end"].map String.toList
    let scenarioLines : List (List Char) :=
      ["world", "pool wood unlimited 9223372036854775807", "rules grow", "end"].map String.toList
    Rule.parse { resources := [wood] } 2 ruleLines = .ok [grow] ∧
      Scenario.parse { resources := [wood] } [grow] scenarioLines = .ok scenario ∧
      (ofScenario scenario).postings 1 = [⟨.world, .deposit wood 1⟩] ∧
      ((ofScenario scenario).after 1).ledger = scenario.ledger ∧
      ((ofScenario scenario).after 1).ledger.quantity .world wood ≠
        scenario.ledger.quantity .world wood + 1 := by
  decide +kernel

end Simulation

end TickEconomy
