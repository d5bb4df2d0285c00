import Mathlib.Data.List.Nodup
import TickEconomy.Ledger
import TickEconomy.Proofs.Sequence
import TickEconomy.Scenario.Parse

/-!
# The scenario of a text

A scenario text sets pools up one by one and names rules that are there already. So in its scenario
no owner has two pools of one resource and no capacity is negative (`Ledger.WellSetUp`), and the
world and the agents run rules of the list that the text was read with (`Scenario.WellSetUp`,
`Scenario.wellSetUp_of_parse`). Quantities may be anything: a text may put a pool above its capacity
or below zero. The agents of a scenario text have distinct names (`Scenario.nodup_names_of_parse`).
-/

set_option autoImplicit false
set_option relaxedAutoImplicit false

namespace TickEconomy

/-! ### Pools that are set up -/

/-- What tells the pool from all others: its owner and the handle of its resource. -/
def Pool.key (pool : Pool) : Owner × Nat :=
  (pool.owner, pool.resource.handle)

theorem Pool.isOf_iff_key_eq (pool : Pool) (owner : Owner) (resource : Resource) :
    pool.isOf owner resource = true ↔ pool.key = (owner, resource.handle) := by
  rw [Pool.isOf_iff, Pool.key, Prod.mk.injEq, and_comm]

/-- No owner has two pools of one resource, and no capacity is negative. -/
structure Ledger.WellSetUp (ledger : Ledger) : Prop where
  distinct : (ledger.pools.map Pool.key).Nodup
  capacity_nonneg : ∀ pool ∈ ledger.pools, 0 ≤ pool.capacity

namespace Ledger

theorem wellSetUp_empty : WellSetUp {} :=
  ⟨List.nodup_nil, by simp⟩

/-- A change that keeps the keys of the pools concerned keeps those of all pools. -/
theorem map_key_change (ledger : Ledger) {owner : Owner} {resource : Resource} {made : Pool → Pool}
    (hkey : ∀ pool : Pool, pool.isOf owner resource = true → (made pool).key = pool.key) :
    (ledger.change owner resource made).pools.map Pool.key = ledger.pools.map Pool.key := by
  rw [Ledger.change, List.map_map]
  refine List.map_congr_left fun pool _ ↦ ?_
  rw [Function.comp_apply]
  split
  · next hisOf => exact hkey pool hisOf
  · rfl

/-- A ledger stays well set up through a change that keeps the keys of the pools concerned and makes
no capacity negative. -/
theorem WellSetUp.change {ledger : Ledger} (h : ledger.WellSetUp) {owner : Owner}
    {resource : Resource} {made : Pool → Pool}
    (hkey : ∀ pool : Pool, pool.isOf owner resource = true → (made pool).key = pool.key)
    (hcapacity : ∀ pool ∈ ledger.pools, pool.isOf owner resource = true →
      0 ≤ (made pool).capacity) :
    (ledger.change owner resource made).WellSetUp := by
  constructor
  · rw [ledger.map_key_change hkey]
    exact h.distinct
  · intro pool hpool
    obtain ⟨present, hpresent, rfl⟩ := List.mem_map.1 hpool
    split
    · next hisOf => exact hcapacity present hpresent hisOf
    · exact h.capacity_nonneg present hpresent

/-- A ledger without the pool stays well set up when the pool is put behind all others, if its
capacity is not negative. -/
theorem WellSetUp.concat {ledger : Ledger} (h : ledger.WellSetUp) {pool : Pool}
    (habsent : ledger.pool? pool.owner pool.resource = none) (hcapacity : 0 ≤ pool.capacity) :
    WellSetUp { pools := ledger.pools ++ [pool] } := by
  constructor
  · rw [List.map_append, List.nodup_append]
    refine ⟨h.distinct, List.nodup_singleton _, ?_⟩
    intro key hkey new hnew heq
    obtain ⟨present, hpresent, rfl⟩ := List.mem_map.1 hkey
    rw [List.map_singleton, List.mem_singleton] at hnew
    refine List.find?_eq_none.1 habsent present hpresent ?_
    exact (Pool.isOf_iff_key_eq _ _ _).2 (heq.trans hnew)
  · intro other hother
    rcases List.mem_append.1 hother with hpresent | hnew
    · exact h.capacity_nonneg other hpresent
    · exact List.mem_singleton.1 hnew ▸ hcapacity

/-- A ledger stays well set up when a pool is set up whose capacity is not negative. -/
theorem WellSetUp.setUp {ledger : Ledger} (h : ledger.WellSetUp) {pool : Pool}
    (hcapacity : 0 ≤ pool.capacity) : (ledger.setUp pool).WellSetUp := by
  unfold Ledger.setUp
  split
  · -- The pool takes the place of one with the same key.
    exact h.change (fun _ hisOf ↦ ((Pool.isOf_iff_key_eq _ _ _).1 hisOf).symm) fun _ _ _ ↦ hcapacity
  · next habsent => exact h.concat habsent hcapacity

end Ledger

/-! ### Directives -/

namespace Directive

/-- No capacity of a text is negative. -/
theorem capacity_nonneg {directive : Directive} {argument : String} {capacity : Int}
    (h : directive.capacity argument = .ok capacity) : 0 ≤ capacity := by
  unfold Directive.capacity at h
  split_ifs at h with hunlimited
  · cases h
    decide
  · obtain ⟨number, -, hnumber⟩ := bind_eq_ok_iff.1 ((map_eq_pure_bind _ _).symm.trans h)
    cases hnumber
    exact Int.natCast_nonneg number

theorem pool_capacity_nonneg {directive : Directive} {catalog : Catalog} {owner : Owner}
    {pool : Pool} (h : directive.pool catalog owner = .ok pool) : 0 ≤ pool.capacity := by
  unfold Directive.pool at h
  split at h
  · obtain ⟨found, -, h⟩ := bind_eq_ok_iff.1 h
    obtain ⟨most, hmost, h⟩ := bind_eq_ok_iff.1 h
    obtain ⟨held, -, h⟩ := bind_eq_ok_iff.1 h
    cases h
    exact capacity_nonneg hmost
  · cases h

/-- The rules that a directive names are rules of the list. -/
theorem mem_of_mem_rules {directive : Directive} {rules named : List Rule}
    (h : directive.rules rules = .ok named) : ∀ rule ∈ named, rule ∈ rules := by
  unfold Directive.rules at h
  split_ifs at h with hnone
  intro rule hrule
  obtain ⟨argument, -, hargument⟩ :=
    exists_of_forall₂_of_mem (forall₂_of_mapM_eq_ok h) hrule
  unfold Directive.rule at hargument
  split at hargument
  · next hfound =>
    cases hargument
    exact List.mem_reverse.1 (List.mem_of_find?_eq_some hfound)
  · cases hargument

end Directive

/-! ### Scenarios -/

/-- The scenario runs rules of a list only, on pools that are well set up. -/
structure Scenario.WellSetUp (scenario : Scenario) (rules : List Rule) : Prop where
  worldRules : ∀ rule ∈ scenario.worldRules, rule ∈ rules
  agentRules : ∀ agent ∈ scenario.agents, ∀ rule ∈ agent.rules, rule ∈ rules
  ledger : scenario.ledger.WellSetUp

namespace ScenarioDraft

variable {catalog : Catalog} {rules : List Rule}

theorem wellSetUp_readSettings {draft next : ScenarioDraft} {directive : Directive}
    (hdraft : draft.scenario.WellSetUp rules)
    (h : (do
      let settings ← draft.scenario.settings.read directive
      return { draft with scenario.settings := settings }) = .ok next) :
    next.scenario.WellSetUp rules := by
  obtain ⟨settings, -, h⟩ := bind_eq_ok_iff.1 h
  cases h
  exact ⟨hdraft.worldRules, hdraft.agentRules, hdraft.ledger⟩

/-- A scenario stays well set up through a directive about the world. -/
theorem wellSetUp_readWorld {draft next : ScenarioDraft} {directive : Directive}
    (hdraft : draft.scenario.WellSetUp rules)
    (h : readWorld catalog rules draft directive = .ok next) : next.scenario.WellSetUp rules := by
  unfold readWorld at h
  split at h
  · exact wellSetUp_readSettings hdraft h
  · exact wellSetUp_readSettings hdraft h
  · exact wellSetUp_readSettings hdraft h
  · obtain ⟨pool, hpool, h⟩ := bind_eq_ok_iff.1 h
    cases h
    exact ⟨hdraft.worldRules, hdraft.agentRules,
      hdraft.ledger.setUp (Directive.pool_capacity_nonneg hpool)⟩
  · obtain ⟨named, hnamed, h⟩ := bind_eq_ok_iff.1 h
    cases h
    refine ⟨?_, hdraft.agentRules, hdraft.ledger⟩
    intro rule hrule
    rcases List.mem_append.1 hrule with hold | hnew
    · exact hdraft.worldRules rule hold
    · exact Directive.mem_of_mem_rules hnamed rule hnew
  · cases h

/-- A scenario stays well set up through a directive about an agent, and the agent keeps to the
rules of the list. -/
theorem wellSetUp_readAgent {state next : Agent × ScenarioDraft} {directive : Directive}
    (hstate : state.2.scenario.WellSetUp rules ∧ ∀ rule ∈ state.1.rules, rule ∈ rules)
    (h : readAgent catalog rules state directive = .ok next) :
    next.2.scenario.WellSetUp rules ∧ ∀ rule ∈ next.1.rules, rule ∈ rules := by
  obtain ⟨agent, draft⟩ := state
  obtain ⟨hdraft, hagent⟩ := hstate
  simp only [readAgent] at h
  split at h
  · obtain ⟨pool, hpool, h⟩ := bind_eq_ok_iff.1 h
    cases h
    exact ⟨⟨hdraft.worldRules, hdraft.agentRules,
      hdraft.ledger.setUp (Directive.pool_capacity_nonneg hpool)⟩, hagent⟩
  · obtain ⟨named, hnamed, h⟩ := bind_eq_ok_iff.1 h
    cases h
    refine ⟨hdraft, ?_⟩
    intro rule hrule
    rcases List.mem_append.1 hrule with hold | hnew
    · exact hagent rule hold
    · exact Directive.mem_of_mem_rules hnamed rule hnew
  · split at h
    · cases h
      exact ⟨⟨hdraft.worldRules, hdraft.agentRules, hdraft.ledger⟩, hagent⟩
    · cases h
  · cases h

/-- A scenario stays well set up through the block of an agent. -/
theorem wellSetUp_addAgent {draft next : ScenarioDraft} {block : Block}
    (hdraft : draft.scenario.WellSetUp rules) (h : addAgent catalog rules draft block = .ok next) :
    next.scenario.WellSetUp rules := by
  unfold addAgent at h
  split_ifs at h with hname hduplicate
  obtain ⟨⟨agent, extended⟩, hread, h⟩ := bind_eq_ok_iff.1 h
  cases h
  obtain ⟨hextended, hagent⟩ := of_foldlM_eq_ok
    (fun state : Agent × ScenarioDraft ↦
      state.2.scenario.WellSetUp rules ∧ ∀ rule ∈ state.1.rules, rule ∈ rules)
    (fun _ _ _ _ ↦ wellSetUp_readAgent) ⟨hdraft, by simp⟩ hread
  refine ⟨hextended.worldRules, ?_, hextended.ledger⟩
  intro other hother
  rcases List.mem_append.1 hother with hold | hnew
  · exact hextended.agentRules other hold
  · exact List.mem_singleton.1 hnew ▸ hagent

/-- A scenario stays well set up through a block. -/
theorem wellSetUp_addBlock {draft next : ScenarioDraft} {block : Block}
    (hdraft : draft.scenario.WellSetUp rules) (h : addBlock catalog rules draft block = .ok next) :
    next.scenario.WellSetUp rules := by
  unfold addBlock at h
  split_ifs at h with hworld hagent
  · exact of_foldlM_eq_ok (fun reached : ScenarioDraft ↦ reached.scenario.WellSetUp rules)
      (fun _ _ _ _ ↦ wellSetUp_readWorld) hdraft h
  · exact wellSetUp_addAgent hdraft h

/-- A scenario stays well set up when a relation is resolved. -/
theorem wellSetUp_resolve {scenario next : Scenario} {pending : PendingRelation}
    (hscenario : scenario.WellSetUp rules) (h : resolve scenario pending = .ok next) :
    next.WellSetUp rules := by
  unfold resolve at h
  split at h
  · cases h
    refine ⟨hscenario.worldRules, ?_, hscenario.ledger⟩
    intro agent hagent
    obtain ⟨present, hpresent, rfl⟩ := List.mem_map.1 hagent
    split
    · exact hscenario.agentRules present hpresent
    · exact hscenario.agentRules present hpresent
  · cases h

end ScenarioDraft

/-- The scenario of a text is well set up with the rules that the text was read with. -/
theorem Scenario.wellSetUp_of_parse {catalog : Catalog} {rules : List Rule}
    {lines : List (List Char)} {scenario : Scenario}
    (h : Scenario.parse catalog rules lines = .ok scenario) : scenario.WellSetUp rules := by
  obtain ⟨draft, hdraft, h⟩ := bind_eq_ok_iff.1 h
  obtain ⟨complete, hcomplete, h⟩ := bind_eq_ok_iff.1 h
  have hread := of_foldlM_eq_ok (fun reached : ScenarioDraft ↦ reached.scenario.WellSetUp rules)
    (fun _ _ _ _ ↦ ScenarioDraft.wellSetUp_addBlock)
    ⟨by simp, by simp, Ledger.wellSetUp_empty⟩ hdraft
  obtain ⟨-, rfl⟩ := Reading.finish_eq_ok_iff.1 hcomplete
  exact of_foldlM_eq_ok (fun reached : Scenario ↦ reached.WellSetUp rules)
    (fun _ _ _ _ ↦ ScenarioDraft.wellSetUp_resolve) hread h

/-! ### Names of agents -/

namespace ScenarioDraft

variable {catalog : Catalog} {rules : List Rule}

/-- A directive about the world leaves the agents as they are. -/
theorem agents_readWorld {draft next : ScenarioDraft} {directive : Directive}
    (h : readWorld catalog rules draft directive = .ok next) :
    next.scenario.agents = draft.scenario.agents := by
  unfold readWorld at h
  split at h
  all_goals first
    | cases h
    | obtain ⟨read, -, h⟩ := bind_eq_ok_iff.1 h
      cases h
      rfl

/-- A directive about an agent leaves the other agents as they are, and the agent its name. -/
theorem agents_readAgent {state next : Agent × ScenarioDraft} {directive : Directive}
    (h : readAgent catalog rules state directive = .ok next) :
    next.2.scenario.agents = state.2.scenario.agents ∧ next.1.name = state.1.name := by
  obtain ⟨agent, draft⟩ := state
  simp only [readAgent] at h
  split at h
  · obtain ⟨pool, -, h⟩ := bind_eq_ok_iff.1 h
    cases h
    exact ⟨rfl, rfl⟩
  · obtain ⟨named, -, h⟩ := bind_eq_ok_iff.1 h
    cases h
    exact ⟨rfl, rfl⟩
  · split at h
    · cases h
      exact ⟨rfl, rfl⟩
    · cases h
  · cases h

/-- Names of agents stay distinct through a block. -/
theorem nodup_names_addBlock {draft next : ScenarioDraft} {block : Block}
    (hdraft : (draft.scenario.agents.map Agent.name).Nodup)
    (h : addBlock catalog rules draft block = .ok next) :
    (next.scenario.agents.map Agent.name).Nodup := by
  unfold addBlock at h
  split_ifs at h with hworld hagent
  · have hagents := of_foldlM_eq_ok
      (fun reached : ScenarioDraft ↦ reached.scenario.agents = draft.scenario.agents)
      (fun _ _ _ _ hreached hread ↦ (agents_readWorld hread).trans hreached) rfl h
    exact hagents ▸ hdraft
  · unfold addAgent at h
    split_ifs at h with hname hduplicate
    obtain ⟨⟨agent, extended⟩, hread, h⟩ := bind_eq_ok_iff.1 h
    cases h
    obtain ⟨hagents, hsame⟩ := of_foldlM_eq_ok
      (fun state : Agent × ScenarioDraft ↦
        state.2.scenario.agents = draft.scenario.agents ∧ state.1.name = block.name)
      (fun _ _ _ _ hreached hnext ↦ ⟨(agents_readAgent hnext).1.trans hreached.1,
        (agents_readAgent hnext).2.trans hreached.2⟩) ⟨rfl, rfl⟩ hread
    rw [hagents, List.map_append, List.map_singleton, hsame, ← List.concat_eq_append]
    exact List.Nodup.concat hduplicate hdraft

/-- Resolving a relation leaves the names of all agents as they are. -/
theorem names_resolve {scenario next : Scenario} {pending : PendingRelation}
    (h : resolve scenario pending = .ok next) :
    next.agents.map Agent.name = scenario.agents.map Agent.name := by
  unfold resolve at h
  split at h
  · cases h
    rw [Scenario.changeAgent, List.map_map]
    refine List.map_congr_left fun agent _ ↦ ?_
    rw [Function.comp_apply]
    split <;> rfl
  · cases h

end ScenarioDraft

/-- The agents of a scenario text have distinct names. -/
theorem Scenario.nodup_names_of_parse {catalog : Catalog} {rules : List Rule}
    {lines : List (List Char)} {scenario : Scenario}
    (h : Scenario.parse catalog rules lines = .ok scenario) :
    (scenario.agents.map Agent.name).Nodup := by
  obtain ⟨draft, hdraft, h⟩ := bind_eq_ok_iff.1 h
  obtain ⟨complete, hcomplete, h⟩ := bind_eq_ok_iff.1 h
  have hread := of_foldlM_eq_ok
    (fun reached : ScenarioDraft ↦ (reached.scenario.agents.map Agent.name).Nodup)
    (fun _ _ _ _ ↦ ScenarioDraft.nodup_names_addBlock) (by simp) hdraft
  obtain ⟨-, rfl⟩ := Reading.finish_eq_ok_iff.1 hcomplete
  exact of_foldlM_eq_ok (fun reached : Scenario ↦ (reached.agents.map Agent.name).Nodup)
    (fun _ _ _ _ hreached hresolved ↦ ScenarioDraft.names_resolve hresolved ▸ hreached) hread h

end TickEconomy
