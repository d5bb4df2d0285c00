import Mathlib.Order.Lattice
import TickEconomy.Proofs.Evaluation
import TickEconomy.Proofs.LinkedRules
import TickEconomy.Proofs.ScenarioText

/-!
# Bounds of pools

Deposits and assignments bring a pool into the range from zero to its capacity, withdrawals do not.
A withdrawal takes no more than there is, so it overdraws no pool, but where its amount is negative
it may fill a pool above any capacity. What rules may make of a pool is told by `Pool.MayBecome`:
its owner, its resource and its capacity stay, from zero up it does not fall below zero, and it does
not rise above its capacity or what it held, provided that no input of the rules is negative.

A withdrawal looks at one pool of an owner and a resource and changes all of them. That is the same
as long as no owner has two pools of one resource (`Ledger.WellSetUp.pool?_eq`). What movements of
rules make of such a ledger is told by `Ledger.Reaches`; each of them keeps to it
(`RuleBody.movesKeep_reaches`), and so does a simulation (`Simulation.reaches_after`). The ledger of
a scenario text is one of these, which gives the bounds of the pools in every simulation of a text,
from any tick to any later one (`Simulation.pools_bounded`).
-/

set_option autoImplicit false
set_option relaxedAutoImplicit false

namespace TickEconomy

/-! ### What may become of a pool -/

/-- What rules may make of a pool. The proposition says that no input of the rules is negative. -/
structure Pool.MayBecome (taking : Prop) (before after : Pool) : Prop where
  owner : after.owner = before.owner
  resource : after.resource = before.resource
  capacity : after.capacity = before.capacity
  nonneg : 0 ≤ before.quantity → 0 ≤ after.quantity
  le_max : taking → after.quantity ≤ max before.capacity before.quantity

namespace Pool.MayBecome

variable {taking : Prop}

theorem refl (pool : Pool) : pool.MayBecome taking pool :=
  ⟨rfl, rfl, rfl, id, fun _ ↦ le_max_right _ _⟩

theorem trans {first middle last : Pool} (hfirst : first.MayBecome taking middle)
    (hlast : middle.MayBecome taking last) : first.MayBecome taking last where
  owner := hlast.owner.trans hfirst.owner
  resource := hlast.resource.trans hfirst.resource
  capacity := hlast.capacity.trans hfirst.capacity
  nonneg h := hlast.nonneg (hfirst.nonneg h)
  le_max htaking := by
    have hmiddle := hfirst.le_max htaking
    have hreached := hlast.le_max htaking
    rw [hfirst.capacity] at hreached
    exact hreached.trans (max_le (le_max_left _ _) hmiddle)

/-- A pool may be brought into its range. -/
theorem fitting {pool : Pool} (hcapacity : 0 ≤ pool.capacity) (amount : Int) :
    pool.MayBecome taking { pool with quantity := fitting pool.capacity amount } := by
  have hrange : 0 ≤ TickEconomy.fitting pool.capacity amount ∧
      TickEconomy.fitting pool.capacity amount ≤ pool.capacity := by
    unfold TickEconomy.fitting
    split_ifs with habove hbelow <;> omega
  exact ⟨rfl, rfl, rfl, fun _ ↦ hrange.1, fun _ ↦ hrange.2.trans (le_max_left _ _)⟩

/-- An amount that a pool holds may be taken from it. -/
theorem take {pool : Pool} {amount : Int} (hamount : amount ≤ pool.quantity)
    (htaking : taking → 0 ≤ amount) :
    pool.MayBecome taking { pool with quantity := pool.quantity - amount } := by
  refine ⟨rfl, rfl, rfl, fun _ ↦ Int.sub_nonneg_of_le hamount, ?_⟩
  intro h
  have hless : pool.quantity - amount ≤ pool.quantity := Int.sub_le_self _ (htaking h)
  exact hless.trans (le_max_right _ _)

end Pool.MayBecome

/-! ### What may become of a ledger -/

namespace Ledger

/-- In a ledger that is well set up every pool of an owner and a resource is the one that is found
for them. -/
theorem WellSetUp.pool?_eq {ledger : Ledger} (h : ledger.WellSetUp) {owner : Owner}
    {resource : Resource} {pool : Pool} (hmem : pool ∈ ledger.pools)
    (hisOf : pool.isOf owner resource = true) : ledger.pool? owner resource = some pool := by
  cases hfound : ledger.pool? owner resource with
  | none => exact absurd hisOf (List.find?_eq_none.1 hfound pool hmem)
  | some found =>
    have hkey : found.key = pool.key :=
      ((Pool.isOf_iff_key_eq _ _ _).1 (isOf_of_pool? hfound)).trans
        ((Pool.isOf_iff_key_eq _ _ _).1 hisOf).symm
    rw [List.inj_on_of_nodup_map h.distinct (List.mem_of_find?_eq_some hfound) hmem hkey]

/-- Adjustments leave a ledger well set up. -/
theorem WellSetUp.adjust {ledger : Ledger} (h : ledger.WellSetUp) (owner : Owner)
    (resource : Resource) (quantity : Pool → Int) :
    (ledger.adjust owner resource quantity).WellSetUp :=
  h.change (fun _ _ ↦ rfl) fun pool hpool _ ↦ h.capacity_nonneg pool hpool

/-- A ledger that is well set up and holds what rules may have made, pool by pool and in the same
order, of those of the first one. -/
structure Reaches (taking : Prop) (start ledger : Ledger) : Prop where
  wellSetUp : ledger.WellSetUp
  pools : List.Forall₂ (Pool.MayBecome taking) start.pools ledger.pools

namespace Reaches

variable {taking : Prop} {start ledger : Ledger}

theorem refl (h : start.WellSetUp) : start.Reaches taking start :=
  ⟨h, List.forall₂_same.2 fun pool _ ↦ Pool.MayBecome.refl pool⟩

/-- A ledger is still reached after an adjustment to what the pools may become. -/
theorem adjust (h : start.Reaches taking ledger) {owner : Owner} {resource : Resource}
    {quantity : Pool → Int}
    (hquantity : ∀ pool ∈ ledger.pools, pool.isOf owner resource = true →
      pool.MayBecome taking { pool with quantity := quantity pool }) :
    start.Reaches taking (ledger.adjust owner resource quantity) := by
  refine ⟨h.wellSetUp.adjust owner resource quantity, ?_⟩
  refine forall₂_map_of_kept h.pools ?_
  intro pool hpool before hbefore
  split
  · next hisOf => exact hbefore.trans (hquantity pool hpool hisOf)
  · exact hbefore

theorem withdraw (h : start.Reaches taking ledger) (owner : Owner) (resource : Resource)
    {amount : Int} (htaking : taking → 0 ≤ amount) :
    start.Reaches taking (ledger.withdraw owner resource amount).1 := by
  by_cases hcovered : amount ≤ ledger.quantity owner resource
  · rw [(withdraw_of_le hcovered).1]
    refine h.adjust fun pool hpool hisOf ↦ Pool.MayBecome.take ?_ htaking
    rw [quantity, h.wellSetUp.pool?_eq hpool hisOf] at hcovered
    exact hcovered
  · rw [withdraw_of_lt (Int.not_le.mp hcovered)]
    exact h

theorem deposit (h : start.Reaches taking ledger) (owner : Owner) (resource : Resource)
    (amount : Int) : start.Reaches taking (ledger.deposit owner resource amount).1 := by
  rw [deposit_fst]
  exact h.adjust fun pool hpool _ ↦
    Pool.MayBecome.fitting (h.wellSetUp.capacity_nonneg pool hpool) _

theorem assign (h : start.Reaches taking ledger) (owner : Owner) (resource : Resource)
    (amount : Int) : start.Reaches taking (ledger.assign owner resource amount).1 := by
  rw [assign_fst]
  exact h.adjust fun pool hpool _ ↦
    Pool.MayBecome.fitting (h.wellSetUp.capacity_nonneg pool hpool) _

end Reaches

end Ledger

/-- The movements of a rule lead to ledgers that are reached. -/
theorem RuleBody.movesKeep_reaches {taking : Prop} {rule : RuleBody}
    (htaking : taking → ∀ input ∈ rule.inputs, 0 ≤ input.quantity) (context : Context)
    (start : Ledger) : rule.MovesKeep context (start.Reaches taking) where
  withdraw specifier hmem owner _ _ h :=
    h.withdraw owner specifier.resource fun htakes ↦ htaking htakes specifier hmem
  deposit _ _ owner _ _ h := h.deposit owner _ _
  assign _ _ owner _ _ h := h.assign owner _ _

/-! ### What may become of a simulation -/

namespace Simulation

/-- From pools that are well set up ticks lead to pools that are reached. -/
theorem reaches_after (taking : Prop) {simulation : Simulation}
    (hpools : simulation.ledger.WellSetUp)
    (htaking : taking → ∀ scope ∈ simulation.scopes, ∀ rule ∈ scope.rules,
      ∀ body ∈ rule.bodies, ∀ input ∈ body.inputs, 0 ≤ input.quantity) (ticks : Nat) :
    simulation.ledger.Reaches taking (simulation.after ticks).ledger := by
  refine ledger_after_of_movesKeep ?_ (Ledger.Reaches.refl hpools) ticks
  intro scope hscope rule hrule body hbody
  exact RuleBody.movesKeep_reaches
    (fun htakes ↦ htaking htakes scope hscope rule hrule body hbody) _ _

/-- The turns of a scenario run the rules that it is set up with. -/
theorem mem_rules_of_wellSetUp {scenario : Scenario} {rules : List Rule}
    (h : scenario.WellSetUp rules) : ∀ scope ∈ (ofScenario scenario).scopes,
      ∀ rule ∈ scope.rules, rule ∈ rules := by
  intro scope hscope
  rcases List.mem_cons.1 hscope with rfl | hagent
  · exact h.worldRules
  · obtain ⟨agent, hmem, rfl⟩ := List.mem_map.1 hagent
    exact h.agentRules agent hmem

/-- In the simulation of a rule text and a scenario text no tick changes the owner, the resource,
the capacity or the place of a pool, also where batches break off. From any tick on, a pool that is
not below zero never falls below zero, whatever the signs of the quantities in the rules. If no
input of the rules is negative, no pool rises above its capacity or what it held, whichever is more,
and one between zero and its capacity stays there. -/
theorem pools_bounded {catalog : Catalog} {firstHandle : Nat}
    {ruleLines scenarioLines : List (List Char)} {rules : List Rule} {scenario : Scenario}
    (hrules : Rule.parse catalog firstHandle ruleLines = .ok rules)
    (hscenario : Scenario.parse catalog rules scenarioLines = .ok scenario)
    (earlier later : Nat) :
    List.Forall₂
      (fun before after : Pool ↦
        after.owner = before.owner ∧ after.resource = before.resource ∧
          after.capacity = before.capacity ∧ (0 ≤ before.quantity → 0 ≤ after.quantity) ∧
          ((∀ rule ∈ rules, ∀ input ∈ rule.inputs, 0 ≤ input.quantity) →
            after.quantity ≤ max before.capacity before.quantity ∧
              (0 ≤ before.quantity → before.quantity ≤ before.capacity →
                0 ≤ after.quantity ∧ after.quantity ≤ after.capacity)))
      ((ofScenario scenario).after earlier).ledger.pools
      ((ofScenario scenario).after (earlier + later)).ledger.pools := by
  have hsetUp := Scenario.wellSetUp_of_parse hscenario
  have hbegun : ((ofScenario scenario).after earlier).ledger.WellSetUp :=
    (reaches_after False hsetUp.ledger (fun h ↦ h.elim) earlier).wellSetUp
  have hreaches := reaches_after
    (∀ rule ∈ rules, ∀ input ∈ rule.inputs, 0 ≤ input.quantity) hbegun ?_ later
  · rw [← after_add] at hreaches
    refine hreaches.pools.imp fun before after h ↦
      ⟨h.owner, h.resource, h.capacity, h.nonneg, fun htaking ↦ ⟨h.le_max htaking, ?_⟩⟩
    intro hnonneg hfits
    have hmost := h.le_max htaking
    rw [max_eq_left hfits, ← h.capacity] at hmost
    exact ⟨h.nonneg hnonneg, hmost⟩
  · intro htaking scope hscope rule hrule body hbody
    rw [scopes_after] at hscope
    obtain ⟨other, hother, rfl⟩ :=
      Rule.body_mem_of_parse hrules (mem_rules_of_wellSetUp hsetUp scope hscope rule hrule) hbody
    exact htaking other hother

/-- A world holds 9 of a resource above a capacity of 4; its rule mills 2 or, where it cannot,
sows 3. -/
theorem pools_bounded_mill :
    let grain : Resource := { handle := 1, key := "grain", singular := "grain", plural := "grain" }
    let part (quantity : Int) : Specifier :=
      { relation := "self", resource := grain, quantity := quantity }
    let sow : RuleBody := { handle := 3, name := "sow", outputs := [part 3] }
    let mill : Rule := { handle := 2, name := "mill", inputs := [part 2], fallbacks := [sow] }
    let pool (quantity : Int) : Pool :=
      { owner := .world, resource := grain, quantity := quantity, capacity := 4 }
    let catalog : Catalog := { resources := [grain] }
    let rules : List Rule := [mill, Rule.ofBodies sow []]
    let scenario : Scenario := { worldRules := [mill], ledger := { pools := [pool 9] } }
    let ruleLines : List (List Char) := ["rule mill", "in grain 2", "onfail sow", "end", "rule sow",
      "out grain 3", "end"].map String.toList
    let scenarioLines : List (List Char) :=
      ["world", "pool grain 4 9", "rules mill", "end"].map String.toList
    Rule.parse catalog 2 ruleLines = .ok rules ∧
      Scenario.parse catalog rules scenarioLines = .ok scenario ∧
      ∀ ticks, ∃ quantity, ((ofScenario scenario).after ticks).ledger.pools = [pool quantity] ∧
        0 ≤ quantity ∧ quantity ≤ 9 := by
  intro grain part sow mill pool catalog rules scenario ruleLines scenarioLines
  have hrules : Rule.parse catalog 2 ruleLines = .ok rules := by decide +kernel
  have hscenario : Scenario.parse catalog rules scenarioLines = .ok scenario := by decide
  refine ⟨hrules, hscenario, ?_⟩
  intro ticks
  obtain ⟨after, none, ⟨howner, hresource, hcapacity, hnonneg, hmost⟩, hnone, hpools⟩ :=
    List.forall₂_cons_left_iff.1 (pools_bounded hrules hscenario 0 ticks)
  have htaking : ∀ rule ∈ rules, ∀ input ∈ rule.inputs, 0 ≤ input.quantity := by decide
  rw [List.forall₂_nil_left_iff.1 hnone, Nat.zero_add] at hpools
  refine ⟨after.quantity, ?_, hnonneg (by decide), (hmost htaking).1⟩
  rw [hpools]
  cases after
  cases howner
  cases hresource
  cases hcapacity
  rfl

end Simulation

end TickEconomy
