import Mathlib.Data.List.Perm.Basic
import TickEconomy.Proofs.ScenarioParts
import TickEconomy.Proofs.SnapshotText

/-!
# The order of the agents of a text

The blocks about agents may stand in any order in a scenario text, between those about the world
and before or behind the agents that their relations name. What the text says is told by its parts
(`Scenario.ofParts`), and two things in it are in order. The pools of an owner come from those that
are set up for it (`Ledger.poolsOf_foldl_setUp`); no two blocks are about one agent, so those of an
agent keep their order when its block moves (`AgentDescription.filter_ownPools_eq_of_perm`). The
relations of an agent are declared in its own block, and are resolved when all agents are known
(`ScenarioPart.FitTogether.agents_perm`).

What several blocks say about the world adds up in their order, so these keep theirs
(`ScenarioPart.flatMap_aboutWorld_eq`). `Scenario.parse_agents_any_order` says that nothing else of
the order matters for what is accepted. It says nothing of errors, since of several the first one
ends the reading.
-/

set_option autoImplicit false
set_option relaxedAutoImplicit false

namespace TickEconomy

/-! ### Pools of one owner -/

namespace Ledger

/-- A change that keeps owners is a change among the pools of each owner. -/
theorem poolsOf_change (ledger : Ledger) {owner : Owner} {resource : Resource} {made : Pool → Pool}
    (hmade : ∀ pool : Pool, pool.isOf owner resource = true → (made pool).owner = pool.owner)
    (other : Owner) :
    (ledger.change owner resource made).poolsOf other =
      (change { pools := ledger.poolsOf other } owner resource made).pools := by
  have howner : ∀ pool : Pool,
      (if pool.isOf owner resource then made pool else pool).owner = pool.owner := by
    intro pool
    split_ifs with hisOf
    · exact hmade pool hisOf
    · rfl
  simp only [poolsOf, change, List.filter_map, Function.comp_def, howner]

/-- Setting up a pool concerns the pools of its owner only. -/
theorem poolsOf_setUp_of_ne (ledger : Ledger) {pool : Pool} {owner : Owner}
    (h : pool.owner ≠ owner) : (ledger.setUp pool).poolsOf owner = ledger.poolsOf owner := by
  unfold setUp
  split
  · rw [ledger.poolsOf_change fun present hisOf ↦ ((Pool.isOf_iff _ _ _).1 hisOf).2.symm]
    refine (List.map_congr_left fun present hpresent ↦ if_neg fun hisOf ↦ h ?_).trans
      (List.map_id _)
    have howner := of_decide_eq_true (List.mem_filter.1 hpresent).2
    exact ((Pool.isOf_iff _ _ _).1 hisOf).2.symm.trans howner
  · simp [poolsOf, h]

/-- Among the pools of its owner a pool is set up as among all. -/
theorem poolsOf_setUp_self (ledger : Ledger) (pool : Pool) :
    (ledger.setUp pool).poolsOf pool.owner =
      (setUp { pools := ledger.poolsOf pool.owner } pool).pools := by
  have hfind : pool? { pools := ledger.poolsOf pool.owner } pool.owner pool.resource =
      ledger.pool? pool.owner pool.resource := by
    rw [pool?, poolsOf, List.find?_filter, pool?]
    refine congrArg (ledger.pools.find? ·) (funext fun present ↦ ?_)
    rw [Bool.eq_iff_iff, decide_eq_true_eq, decide_eq_true_eq, Pool.isOf_iff]
    exact ⟨And.right, fun h ↦ ⟨h.2, h⟩⟩
  unfold setUp
  rw [hfind]
  split
  · exact ledger.poolsOf_change (fun present hisOf ↦ ((Pool.isOf_iff _ _ _).1 hisOf).2.symm) _
  · simp [poolsOf]

/-- The pools of an owner come from the pools that are set up for it, in their order. -/
theorem poolsOf_foldl_setUp (pools : List Pool) (ledger : Ledger) (owner : Owner) :
    (pools.foldl setUp ledger).poolsOf owner =
      ((pools.filter fun pool ↦ pool.owner = owner).foldl setUp
        { pools := ledger.poolsOf owner }).pools := by
  induction pools generalizing ledger with
  | nil => rfl
  | cons pool later ih =>
    rw [List.foldl_cons, ih, List.filter_cons]
    split_ifs with howner
    · obtain rfl := of_decide_eq_true howner
      rw [poolsOf_setUp_self]
      rfl
    · rw [ledger.poolsOf_setUp_of_ne fun hsame ↦ howner (decide_eq_true hsame)]

end Ledger

/-! ### Relations -/

/-- An entry of a table with one set is that one or was there before. -/
theorem Table.mem_putEntry {Key Value : Type} [DecidableEq Key] {key : Key} {value : Value}
    {entries : List (Key × Value)} {entry : Key × Value}
    (h : entry ∈ putEntry key value entries) : entry ∈ entries ∨ entry = (key, value) := by
  induction entries with
  | nil => exact .inr (List.mem_singleton.1 h)
  | cons first rest ih =>
    rw [putEntry] at h
    split_ifs at h with hkey
    · rcases List.mem_cons.1 h with hentry | hrest
      · exact .inr hentry
      · exact .inl (List.mem_cons_of_mem _ hrest)
    · rcases List.mem_cons.1 h with rfl | hrest
      · exact .inl List.mem_cons_self
      · exact (ih hrest).imp_left (List.mem_cons_of_mem _)

namespace Agent

/-- The relations of an agent are those that it had and those that are declared under its name. -/
theorem mem_of_mem_declareAll {declarations : List (String × String × String)} {agent : Agent}
    {relation : String × String}
    (h : relation ∈ (agent.declareAll declarations).relations.entries) :
    relation ∈ agent.relations.entries ∨ (agent.name, relation) ∈ declarations := by
  induction declarations generalizing agent with
  | nil => exact .inl h
  | cons declaration later ih =>
    rcases ih h with hbefore | hlater
    · rw [declare] at hbefore
      split_ifs at hbefore with hname
      · rcases Table.mem_putEntry hbefore with hold | hnew
        · exact .inl hold
        · refine .inr (List.mem_cons.2 (.inl ?_))
          rw [hname, hnew]
      · exact .inl hbefore
    · refine .inr (List.mem_cons_of_mem _ ?_)
      rwa [show (agent.declare declaration).name = agent.name from
        agent.name_declareAll [declaration]] at hlater

end Agent

namespace AgentDescription

/-- The pools of an agent are its own and nobody else's. -/
theorem filter_ownPools (description : AgentDescription) (owner : Owner) :
    (description.ownPools.filter fun pool ↦ pool.owner = owner) =
      if Owner.agent description.name = owner then description.ownPools else [] := by
  simp only [ownPools, List.filter_map, Function.comp_def, PoolDescription.pool]
  split_ifs with hsame <;> simp [hsame]

/-- Whatever the order of agents with distinct names, an owner has the same pools. -/
theorem filter_ownPools_eq_of_perm {first second : List AgentDescription}
    (hperm : first.Perm second) (hnames : (first.map AgentDescription.name).Nodup) (owner : Owner) :
    ((first.flatMap ownPools).filter fun pool ↦ pool.owner = owner) =
      (second.flatMap ownPools).filter fun pool ↦ pool.owner = owner := by
  induction hperm with
  | nil => rfl
  | cons description _ ih =>
    rw [List.flatMap_cons, List.flatMap_cons, List.filter_append, List.filter_append,
      ih (List.nodup_cons.1 hnames).2]
  | swap first second later =>
    -- One of the two agents has no pools of the owner.
    have hne : second.name ≠ first.name := by
      intro hsame
      exact (List.nodup_cons.1 hnames).1 (List.mem_cons.2 (.inl hsame))
    simp only [List.flatMap_cons, List.filter_append, filter_ownPools]
    by_cases hfirst : Owner.agent first.name = owner
    · have hsecond : ¬ Owner.agent second.name = owner := fun hsecond ↦
        hne (Owner.agent.inj (hsecond.trans hfirst.symm))
      simp [hsecond]
    · simp [hfirst]
  | trans hfirst _ ihFirst ihSecond =>
    exact (ihFirst hnames).trans (ihSecond ((hfirst.map _).nodup_iff.1 hnames))

end AgentDescription

/-! ### Parts in another order -/

namespace ScenarioPart

variable {parts others : List ScenarioPart}

/-- Whether parts fit together does not depend on their order. -/
theorem FitTogether.of_perm (h : FitTogether parts) (hperm : parts.Perm others) :
    FitTogether others := by
  have hagents := hperm.flatMap_right agents
  have hnames := hagents.map AgentDescription.name
  refine ⟨hnames.nodup_iff.1 h.names, fun declaration hdeclaration ↦ ?_⟩
  have hsource := (hagents.flatMap_right AgentDescription.declarations).mem_iff.2 hdeclaration
  exact hnames.mem_iff.1 (h.targets declaration hsource)

/-- The agents of parts that fit together, each with its own relations. -/
theorem FitTogether.agents_eq (h : FitTogether parts) :
    (Scenario.ofParts parts).agents = (parts.flatMap agents).map fun description ↦
      description.unrelated.declareAll description.declarations :=
  List.map_congr_left fun _ hmem ↦ AgentDescription.declareAll_own h.names hmem

/-- The agents of parts in another order are the same agents in another order. -/
theorem FitTogether.agents_perm (h : FitTogether parts) (hperm : parts.Perm others) :
    (Scenario.ofParts others).agents.Perm (Scenario.ofParts parts).agents := by
  rw [h.agents_eq, (h.of_perm hperm).agents_eq]
  exact ((hperm.flatMap_right agents).map _).symm

/-- In whatever order parts say what agents have, an owner has the same pools. -/
theorem FitTogether.filter_pools_eq (h : FitTogether parts) (hperm : parts.Perm others)
    (hworld : parts.flatMap aboutWorld = others.flatMap aboutWorld) (owner : Owner) :
    ((others.flatMap pools).filter fun pool ↦ pool.owner = owner) =
      (parts.flatMap pools).filter fun pool ↦ pool.owner = owner := by
  rw [filter_pools, filter_pools, hworld, List.filter_append, List.filter_append,
    AgentDescription.filter_ownPools_eq_of_perm (hperm.flatMap_right agents) h.names]

/-- The pools of an owner do not depend on the order in which parts say what agents have. -/
theorem FitTogether.poolsOf_eq (h : FitTogether parts) (hperm : parts.Perm others)
    (hworld : parts.flatMap aboutWorld = others.flatMap aboutWorld) (owner : Owner) :
    (Scenario.ofParts others).ledger.poolsOf owner =
      (Scenario.ofParts parts).ledger.poolsOf owner := by
  rw [Scenario.ofParts, Scenario.ofParts, Ledger.poolsOf_foldl_setUp, Ledger.poolsOf_foldl_setUp,
    h.filter_pools_eq hperm hworld]

end ScenarioPart

/-! ### Blocks in another order -/

namespace ScenarioPart

variable {catalog : Catalog} {known : List Rule}

/-- A block is the same part wherever it stands. -/
theorem ofBlock?_unnumbered (block : Block) :
    ofBlock? catalog known block.unnumbered = ofBlock? catalog known block := by
  simp only [ofBlock?, Block.unnumbered, List.mapM_map]
  rfl

/-- Blocks are the same parts wherever they stand. -/
theorem filterMap_ofBlock?_unnumbered (blocks : List Block) :
    (blocks.map Block.unnumbered).filterMap (ofBlock? catalog known) =
      blocks.filterMap (ofBlock? catalog known) := by
  rw [List.filterMap_map]
  exact List.filterMap_congr fun block _ ↦ ofBlock?_unnumbered block

theorem aboutWorld_eq_nil {block : Block} {part : ScenarioPart}
    (h : ofBlock? catalog known block = some part) (hkind : block.kind ≠ "world") :
    part.aboutWorld = [] := by
  rw [ofBlock?, if_neg hkind] at h
  split_ifs at h
  obtain ⟨clauses, -, rfl⟩ := Option.map_eq_some_iff.1 h
  rfl

theorem map_name_agents {block : Block} {part : ScenarioPart}
    (h : ofBlock? catalog known block = some part) :
    part.agents.map AgentDescription.name = if block.kind = "agent" then [block.name] else [] := by
  unfold ofBlock? at h
  split_ifs at h with hworld hagent hname
  · obtain ⟨clauses, -, rfl⟩ := Option.map_eq_some_iff.1 h
    rw [hworld]
    rfl
  · obtain ⟨clauses, -, rfl⟩ := Option.map_eq_some_iff.1 h
    rw [if_pos hagent]
    rfl

/-- What blocks say about the world is said by those of kind `world`. -/
theorem flatMap_aboutWorld_eq (blocks : List Block) :
    (blocks.filterMap (ofBlock? catalog known)).flatMap aboutWorld =
      ((blocks.filter fun block ↦ block.kind = "world").filterMap
        (ofBlock? catalog known)).flatMap aboutWorld := by
  induction blocks with
  | nil => rfl
  | cons block later ih =>
    rw [List.filter_cons]
    split_ifs with hkind
    · cases hpart : ofBlock? catalog known block with
      | none => simpa only [List.filterMap_cons_none hpart] using ih
      | some part => simp only [List.filterMap_cons_some hpart, List.flatMap_cons, ih]
    · rw [← ih]
      cases hpart : ofBlock? catalog known block with
      | none => rw [List.filterMap_cons_none hpart]
      | some part =>
        have hnothing := aboutWorld_eq_nil hpart fun hworld ↦ hkind (decide_eq_true hworld)
        rw [List.filterMap_cons_some hpart, List.flatMap_cons, hnothing, List.nil_append]

/-- The agents that blocks are about have the names of the blocks of kind `agent`. -/
theorem names_agents_eq {blocks : List Block}
    (h : ∀ block ∈ blocks, (ofBlock? catalog known block).isSome) :
    ((blocks.filterMap (ofBlock? catalog known)).flatMap agents).map AgentDescription.name =
      (blocks.filter fun block ↦ block.kind = "agent").map Block.name := by
  induction blocks with
  | nil => rfl
  | cons block later ih =>
    obtain ⟨hblock, hlater⟩ := List.forall_mem_cons.1 h
    obtain ⟨part, hpart⟩ := Option.isSome_iff_exists.1 hblock
    rw [List.filterMap_cons_some hpart, List.flatMap_cons, List.map_append, map_name_agents hpart,
      ih hlater, List.filter_cons]
    by_cases hkind : block.kind = "agent" <;> simp [hkind]

end ScenarioPart

namespace Scenario

variable {catalog : Catalog} {known : List Rule} {lines : List (List Char)} {blocks : List Block}

/-- Every block is a part of a scenario, and the parts fit together. -/
structure AreBlocks (catalog : Catalog) (known : List Rule) (blocks : List Block) : Prop where
  readable : ∀ block ∈ blocks, (ScenarioPart.ofBlock? catalog known block).isSome
  fit : ScenarioPart.FitTogether (blocks.filterMap (ScenarioPart.ofBlock? catalog known))

/-- The scenario that blocks describe. -/
def ofBlocks (catalog : Catalog) (known : List Rule) (blocks : List Block) : Scenario :=
  ofParts (blocks.filterMap (ScenarioPart.ofBlock? catalog known))

/-- A text is read as its blocks describe, wherever these stand. -/
theorem parse_eq_ok_iff_of_blocks
    (hblocks : (Reading.ofLines lines).blocks.map Block.unnumbered = blocks.map Block.unnumbered)
    (hfault : (Reading.ofLines lines).fault = none) {scenario : Scenario} :
    parse catalog known lines = .ok scenario ↔
      AreBlocks catalog known blocks ∧ ofBlocks catalog known blocks = scenario := by
  have hunnumbered : ∀ items : List Block,
      (∀ block ∈ items, (ScenarioPart.ofBlock? catalog known block).isSome) ↔
        ∀ block ∈ items.map Block.unnumbered,
          (ScenarioPart.ofBlock? catalog known block).isSome := by
    intro items
    simp only [List.forall_mem_map, ScenarioPart.ofBlock?_unnumbered]
  have hreadable : (∀ block ∈ (Reading.ofLines lines).blocks,
      (ScenarioPart.ofBlock? catalog known block).isSome) ↔
      ∀ block ∈ blocks, (ScenarioPart.ofBlock? catalog known block).isSome := by
    rw [hunnumbered, hblocks, ← hunnumbered]
  have hparts : (Reading.ofLines lines).blocks.filterMap (ScenarioPart.ofBlock? catalog known) =
      blocks.filterMap (ScenarioPart.ofBlock? catalog known) := by
    rw [← ScenarioPart.filterMap_ofBlock?_unnumbered, hblocks,
      ScenarioPart.filterMap_ofBlock?_unnumbered]
  rw [parse_eq_ok_iff]
  simp only [hfault, true_and, mapM_eq_some_iff, hreadable, hparts]
  constructor
  · rintro ⟨_, ⟨hread, rfl⟩, hfit, hscenario⟩
    exact ⟨⟨hread, hfit⟩, hscenario⟩
  · rintro ⟨hblocks, hscenario⟩
    exact ⟨_, ⟨hblocks.readable, rfl⟩, hblocks.fit, hscenario⟩

/-- Whether blocks describe a scenario does not depend on their order. -/
theorem AreBlocks.of_perm {others : List Block} (h : AreBlocks catalog known blocks)
    (hperm : blocks.Perm others) : AreBlocks catalog known others :=
  ⟨fun block hblock ↦ h.readable block (hperm.mem_iff.2 hblock),
    h.fit.of_perm (hperm.filterMap _)⟩

/-- What a text refers to is there: relations are to agents of the scenario, the rules are known,
and pools hold resources of the catalog up to a capacity that is not negative. -/
structure RefersTo (catalog : Catalog) (known : List Rule) (scenario : Scenario) : Prop where
  relations : ∀ agent ∈ scenario.agents, ∀ relation ∈ agent.relations.entries,
    ∃ other ∈ scenario.agents, other.name = relation.2 ∧ scenario.agent? relation.2 = some other
  worldRules : ∀ rule ∈ scenario.worldRules, rule ∈ known
  agentRules : ∀ agent ∈ scenario.agents, ∀ rule ∈ agent.rules, rule ∈ known
  pools : ∀ pool ∈ scenario.ledger.pools,
    pool.resource ∈ catalog.resources ∧ 0 ≤ pool.capacity

theorem names_ofParts (parts : List ScenarioPart) :
    (ofParts parts).agents.map Agent.name =
      (parts.flatMap ScenarioPart.agents).map AgentDescription.name := by
  rw [ofParts, List.map_map]
  exact List.map_congr_left fun description _ ↦ Agent.name_declareAll _ _

/-- What a text refers to is there. -/
theorem refersTo_of_parse {scenario : Scenario} (h : parse catalog known lines = .ok scenario) :
    RefersTo catalog known scenario := by
  have hsetUp := wellSetUp_of_parse h
  refine ⟨?_, hsetUp.worldRules, hsetUp.agentRules, fun pool hpool ↦
    ⟨holdsOnly_of_parse h pool hpool, hsetUp.ledger.capacity_nonneg pool hpool⟩⟩
  obtain ⟨-, parts, -, hfit, rfl⟩ := parse_eq_ok_iff.1 h
  intro agent hagent relation hrelation
  obtain ⟨description, hdescription, rfl⟩ := List.mem_map.1 hagent
  refine exists_agent? ?_
  rw [names_ofParts]
  rcases Agent.mem_of_mem_declareAll hrelation with hold | hdeclared
  · cases hold
  · exact hfit.targets _ hdeclared

/-- Take parts of a scenario text that have no fault, such as blocks, and the same parts in another
order that keeps the blocks about the world in theirs. Both texts are accepted or neither is. Of two
that are accepted, the settings, the rules of the world and the pools of every owner are the same,
and so are the agents, each with its rules and relations in their orders; the agents stand in the
order of their blocks. And what the texts refer to is there: relations are to agents of the
scenario, the rules are known, and pools hold resources of the catalog up to a capacity that is not
negative. -/
theorem parse_agents_any_order (catalog : Catalog) (known : List Rule)
    (parts others : List (List (List Char)))
    (hparts : ∀ part ∈ parts, (Reading.ofLines part).fault = none) (hperm : parts.Perm others)
    (hworld :
      ((parts.flatMap fun part ↦ (Reading.ofLines part).blocks).filter fun block ↦
          block.kind = "world") =
        (others.flatMap fun part ↦ (Reading.ofLines part).blocks).filter fun block ↦
          block.kind = "world") :
    ((∃ scenario, parse catalog known parts.flatten = .ok scenario) ↔
      ∃ other, parse catalog known others.flatten = .ok other) ∧
    ∀ scenario other, parse catalog known parts.flatten = .ok scenario →
      parse catalog known others.flatten = .ok other →
        other.settings = scenario.settings ∧ other.worldRules = scenario.worldRules ∧
        (∀ owner, other.ledger.poolsOf owner = scenario.ledger.poolsOf owner) ∧
        other.agents.Perm scenario.agents ∧
        scenario.agents.map Agent.name =
          ((parts.flatMap fun part ↦ (Reading.ofLines part).blocks).filter fun block ↦
            block.kind = "agent").map Block.name ∧
        other.agents.map Agent.name =
          ((others.flatMap fun part ↦ (Reading.ofLines part).blocks).filter fun block ↦
            block.kind = "agent").map Block.name ∧
        RefersTo catalog known scenario ∧ RefersTo catalog known other := by
  obtain ⟨hfault, hblocks⟩ := Reading.unnumbered_ofLines_flatten hparts
  obtain ⟨hotherFault, hotherBlocks⟩ := Reading.unnumbered_ofLines_flatten
    fun part hpart ↦ hparts part (hperm.mem_iff.2 hpart)
  have hblocksPerm := hperm.flatMap_right fun part ↦ (Reading.ofLines part).blocks
  generalize (parts.flatMap fun part ↦ (Reading.ofLines part).blocks) = blocks at *
  generalize (others.flatMap fun part ↦ (Reading.ofLines part).blocks) = otherBlocks at *
  have hparse : ∀ scenario, parse catalog known parts.flatten = .ok scenario ↔
      AreBlocks catalog known blocks ∧ ofBlocks catalog known blocks = scenario :=
    fun _ ↦ parse_eq_ok_iff_of_blocks hblocks hfault
  have hotherParse : ∀ other, parse catalog known others.flatten = .ok other ↔
      AreBlocks catalog known otherBlocks ∧ ofBlocks catalog known otherBlocks = other :=
    fun _ ↦ parse_eq_ok_iff_of_blocks hotherBlocks hotherFault
  refine ⟨⟨?_, ?_⟩, fun scenario other hscenario hother ↦ ?_⟩
  · rintro ⟨_, hscenario⟩
    exact ⟨_, (hotherParse _).2 ⟨((hparse _).1 hscenario).1.of_perm hblocksPerm, rfl⟩⟩
  · rintro ⟨_, hother⟩
    exact ⟨_, (hparse _).2 ⟨((hotherParse _).1 hother).1.of_perm hblocksPerm.symm, rfl⟩⟩
  · have hrefers := refersTo_of_parse hscenario
    have hotherRefers := refersTo_of_parse hother
    obtain ⟨hread, rfl⟩ := (hparse _).1 hscenario
    obtain ⟨hotherRead, rfl⟩ := (hotherParse _).1 hother
    have hpartsPerm := hblocksPerm.filterMap (ScenarioPart.ofBlock? catalog known)
    have haboutWorld :
        (blocks.filterMap (ScenarioPart.ofBlock? catalog known)).flatMap
            ScenarioPart.aboutWorld =
          (otherBlocks.filterMap (ScenarioPart.ofBlock? catalog known)).flatMap
            ScenarioPart.aboutWorld := by
      rw [ScenarioPart.flatMap_aboutWorld_eq, hworld, ← ScenarioPart.flatMap_aboutWorld_eq]
    refine ⟨?_, ?_, hread.fit.poolsOf_eq hpartsPerm haboutWorld,
      hread.fit.agents_perm hpartsPerm, ?_, ?_, hrefers, hotherRefers⟩
    · exact congrArg (List.foldl ScopeClause.applyTo {}) haboutWorld.symm
    · exact congrArg (List.flatMap ScopeClause.named) haboutWorld.symm
    · exact (names_ofParts _).trans (ScenarioPart.names_agents_eq hread.readable)
    · exact (names_ofParts _).trans (ScenarioPart.names_agents_eq hotherRead.readable)

/-- The farm moves before the mill, which is related to it, and the blocks about the world close up
between the two. -/
theorem parse_agents_any_order_mill :
    let grain : Resource := { handle := 1, key := "grain", singular := "grain", plural := "grain" }
    let catalog : Catalog := { resources := [grain] }
    let known : List Rule := [{ handle := 2, name := "sow" }]
    let world : List (List Char) := ["world", "pool grain 9 3", "end"].map String.toList
    let mill : List (List Char) :=
      ["agent mill", "relation supplier farm", "pool grain 5 0", "end"].map String.toList
    let farm : List (List Char) := ["agent farm", "rules sow", "end"].map String.toList
    let more : List (List Char) := ["world", "rules sow", "end"].map String.toList
    let parts := [world, mill, farm, more]
    let others := [farm, world, more, mill]
    ∃ scenario other, parse catalog known parts.flatten = .ok scenario ∧
      parse catalog known others.flatten = .ok other ∧
      other.worldRules = scenario.worldRules ∧
      (∀ owner, other.ledger.poolsOf owner = scenario.ledger.poolsOf owner) ∧
      other.agents.Perm scenario.agents ∧ RefersTo catalog known other := by
  intro grain catalog known world mill farm more parts others
  have hparts : ∀ part ∈ parts, (Reading.ofLines part).fault = none := by decide +kernel
  have hperm : parts.Perm others := by decide +kernel
  have hworld :
      ((parts.flatMap fun part ↦ (Reading.ofLines part).blocks).filter fun block ↦
          block.kind = "world") =
        (others.flatMap fun part ↦ (Reading.ofLines part).blocks).filter fun block ↦
          block.kind = "world" := by decide +kernel
  have haccepted : (parse catalog known parts.flatten).toOption.isSome := by decide +kernel
  obtain ⟨scenario, hscenario⟩ := Option.isSome_iff_exists.1 haccepted
  have hread := toOption_eq_some_iff.1 hscenario
  obtain ⟨haccept, hsame⟩ :=
    parse_agents_any_order catalog known parts others hparts hperm hworld
  obtain ⟨other, hother⟩ := haccept.1 ⟨scenario, hread⟩
  obtain ⟨-, hrules, hpools, hagents, -, -, -, hrefers⟩ := hsame scenario other hread hother
  exact ⟨scenario, other, hread, hother, hrules, hpools, hagents, hrefers⟩

end Scenario

end TickEconomy
