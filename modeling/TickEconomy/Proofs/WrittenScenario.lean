import TickEconomy.Proofs.ScenarioText
import TickEconomy.Proofs.WrittenScopes

/-!
# Writing scenarios

A scenario is described by its settings, by what the world has and by what each agent has, with the
other agents of its relations by name (`ScenarioDescription`). It is written as blocks about the
world, which may stand anywhere and say together what the world has, and one block for each agent,
in the order of the agents. In a block the lines stand in any order that keeps pools, rules and
relations in theirs (`ScenarioDescription.IsWrittenAs`).

`Scenario.parse_restores` says that nothing of it is lost. A description that can be written has a
text, and each of its texts is read as a scenario with these settings, pools, rules and agents, in
their orders, in which every relation is to the agent in the list that has the name. Three things
are behind it. The text is read block by block as what its parts say
(`ScenarioDraft.exists_foldlM_addBlock`); pools are told apart by owner and resource, so each is set
up behind those before it (`Ledger.pools_foldl_setUp`); and the relations of an agent are resolved
in their order, whatever stands between them (`Agent.relations_declareAll`).
-/

set_option autoImplicit false
set_option relaxedAutoImplicit false

namespace TickEconomy

/-! ### Descriptions -/

/-- What the world or an agent has. -/
structure ScopeDescription where
  /-- The pools, in their order. -/
  pools : List PoolDescription := []
  /-- The rules, in their order. -/
  rules : List Rule := []
  deriving DecidableEq, Repr

/-- An agent with its pools, its rules and its relations, the other agents of these by name. -/
structure AgentDescription extends ScopeDescription where
  /-- The name of the agent. -/
  name : String
  /-- The relations with the names of the other agents, in their order. -/
  relations : List (String × String) := []
  deriving DecidableEq, Repr

/-- A scenario with the other agents of relations by name. -/
structure ScenarioDescription where
  /-- How long a run lasts and how often it reports. -/
  settings : Settings := {}
  /-- What the world has. -/
  world : ScopeDescription := {}
  /-- The agents, in their order. -/
  agents : List AgentDescription := []
  deriving DecidableEq, Repr

namespace AgentDescription

/-- The agent that clauses describe. -/
def ofClauses (name : String) (clauses : List ScopeClause) : AgentDescription where
  name := name
  pools := clauses.flatMap ScopeClause.pools
  rules := clauses.flatMap ScopeClause.named
  relations := clauses.flatMap ScopeClause.relations

/-- The agent described, without its relations. -/
def unrelated (description : AgentDescription) : Agent where
  name := description.name
  rules := description.rules

/-- The agent described. -/
def agent (description : AgentDescription) : Agent where
  name := description.name
  rules := description.rules
  relations := { entries := description.relations }

/-- The pools of the agent. -/
def ownPools (description : AgentDescription) : List Pool :=
  description.pools.map (PoolDescription.pool (.agent description.name))

/-- The relations of the agent, each with its name before it. -/
def declarations (description : AgentDescription) : List (String × String × String) :=
  description.relations.map (Prod.mk description.name)

end AgentDescription

/-- The pools of the world and then those of the agents, one agent after the other. -/
def ScenarioDescription.ledger (description : ScenarioDescription) : Ledger where
  pools := description.world.pools.map (PoolDescription.pool .world) ++
    description.agents.flatMap AgentDescription.ownPools

/-- The scenario is the one described. Its pools are given owner by owner, since the text may set up
pools of the world between those of agents. -/
structure ScenarioDescription.Describes (description : ScenarioDescription) (scenario : Scenario) :
    Prop where
  settings : scenario.settings = description.settings
  worldRules : scenario.worldRules = description.world.rules
  agents : scenario.agents = description.agents.map AgentDescription.agent
  pools : ∀ owner, scenario.ledger.poolsOf owner = description.ledger.poolsOf owner
  /-- The other agent of every relation is the one in the list that has the name. -/
  relations : ∀ agent ∈ scenario.agents, ∀ relation ∈ agent.relations.entries,
    ∃ other ∈ scenario.agents, other.name = relation.2 ∧
      scenario.agent? relation.2 = some other

/-! ### Texts of descriptions -/

/-- What a block says about the world or about an agent. -/
inductive ScenarioPart where
  | world (name : String) (clauses : List ScopeClause)
  | agent (name : String) (clauses : List ScopeClause)
  deriving DecidableEq, Repr

namespace ScenarioPart

/-- The clauses about the world. -/
@[simp]
def aboutWorld : ScenarioPart → List ScopeClause
  | .world _ clauses => clauses
  | .agent _ _ => []

/-- The agent that the part describes. -/
@[simp]
def agents : ScenarioPart → List AgentDescription
  | .world _ _ => []
  | .agent name clauses => [AgentDescription.ofClauses name clauses]

/-- The pools that the part describes. -/
@[simp]
def pools : ScenarioPart → List Pool
  | .world _ clauses => ScopeClause.poolsOf .world clauses
  | .agent name clauses => ScopeClause.poolsOf (.agent name) clauses

/-- The block is the part. A block about the world may have any name; it declares no relations, and
a block about an agent gives no settings. -/
inductive IsWrittenAs (catalog : Catalog) : ScenarioPart → BlockContent → Prop
  | world {name : String} {clauses : List ScopeClause} {directives : List (List String)}
      (hname : Name.trim name = name) (hrelations : ∀ clause ∈ clauses, clause.relations = [])
      (hdirectives : List.Forall₂ (ScopeClause.Spelling catalog) clauses directives) :
      IsWrittenAs catalog (.world name clauses) ⟨"world", name, directives⟩
  | agent {name : String} {clauses : List ScopeClause} {directives : List (List String)}
      (hnumbers : ∀ clause ∈ clauses, ∀ setting, clause.numbers setting = [])
      (hdirectives : List.Forall₂ (ScopeClause.Spelling catalog) clauses directives) :
      IsWrittenAs catalog (.agent name clauses) ⟨"agent", name, directives⟩

end ScenarioPart

namespace ScopeDescription

/-- What the world or an agent has can be written, with the known rules: its pools are of distinct
resources, and its rules are known and have names that are words. -/
structure IsWritable (catalog : Catalog) (known : List Rule) (description : ScopeDescription) :
    Prop where
  distinct : (description.pools.map fun pool ↦ pool.resource.handle).Nodup
  pools : ∀ pool ∈ description.pools, pool.IsWritable catalog
  known : ∀ rule ∈ description.rules, rule ∈ known
  rules : ∀ rule ∈ description.rules, Text.IsWord rule.name.toList

end ScopeDescription

namespace ScenarioDescription

/-- The parts say what the description has. Of the numbers that they give to a setting the last one
counts, and without one the setting has its default. -/
structure IsStatedBy (description : ScenarioDescription) (parts : List ScenarioPart) : Prop where
  settings : ∀ setting : Setting,
    ((parts.flatMap ScenarioPart.aboutWorld).flatMap (ScopeClause.numbers setting)).getLastD
      (setting.value {}) = setting.value description.settings
  pools : (parts.flatMap ScenarioPart.aboutWorld).flatMap ScopeClause.pools =
    description.world.pools
  rules : (parts.flatMap ScenarioPart.aboutWorld).flatMap ScopeClause.named =
    description.world.rules
  agents : parts.flatMap ScenarioPart.agents = description.agents

/-- The blocks are parts that say what the description has. -/
def IsWrittenAs (catalog : Catalog) (description : ScenarioDescription)
    (contents : List BlockContent) : Prop :=
  ∃ parts, description.IsStatedBy parts ∧
    List.Forall₂ (ScenarioPart.IsWrittenAs catalog) parts contents

/-- The description can be written, with the known rules: its agents have distinct names that can
stand on the line that opens a block, the relations of an agent are distinct words in lower case,
and what they are to are agents of the description whose names are words. -/
structure IsWritable (catalog : Catalog) (known : List Rule) (description : ScenarioDescription) :
    Prop where
  settings : ∀ setting : Setting, Text.FitsNumeral (setting.value description.settings)
  world : description.world.IsWritable catalog known
  names : (description.agents.map AgentDescription.name).Nodup
  name_ne : ∀ agent ∈ description.agents, agent.name ≠ ""
  trim_name : ∀ agent ∈ description.agents, Name.trim agent.name = agent.name
  scopes : ∀ agent ∈ description.agents, agent.toScopeDescription.IsWritable catalog known
  distinct : ∀ agent ∈ description.agents, (agent.relations.map Prod.fst).Nodup
  relations : ∀ agent ∈ description.agents, ∀ relation ∈ agent.relations,
    Text.IsWord relation.1.toList ∧ Name.fold relation.1 = relation.1
  targets : ∀ agent ∈ description.agents, ∀ relation ∈ agent.relations,
    Text.IsWord relation.2.toList ∧ relation.2 ∈ description.agents.map AgentDescription.name

end ScenarioDescription

/-! ### Reading blocks -/

namespace ScenarioPart

/-- The part can be read, with the known rules. -/
inductive Suits (known : List Rule) : ScenarioPart → Prop
  | world {name : String} {clauses : List ScopeClause}
      (hclauses : ∀ clause ∈ clauses, clause.SuitsWorld known) : Suits known (.world name clauses)
  | agent {name : String} {clauses : List ScopeClause} (hname : name ≠ "")
      (hclauses : ∀ clause ∈ clauses, clause.SuitsAgent known) : Suits known (.agent name clauses)

end ScenarioPart

namespace ScenarioDraft

variable {catalog : Catalog} {known : List Rule}

/-- The draft with what the parts say, where the relations are left to be resolved. -/
def sayParts (draft : ScenarioDraft) (parts : List ScenarioPart)
    (declared : List PendingRelation) : ScenarioDraft where
  scenario :=
    { settings := (parts.flatMap ScenarioPart.aboutWorld).foldl ScopeClause.applyTo
        draft.scenario.settings
      worldRules := draft.scenario.worldRules ++
        (parts.flatMap ScenarioPart.aboutWorld).flatMap ScopeClause.named
      agents := draft.scenario.agents ++
        (parts.flatMap ScenarioPart.agents).map AgentDescription.unrelated
      ledger := (parts.flatMap ScenarioPart.pools).foldl Ledger.setUp draft.scenario.ledger }
  pending := draft.pending ++ declared

theorem sayParts_cons (draft : ScenarioDraft) (part : ScenarioPart) (later : List ScenarioPart)
    (first declared : List PendingRelation) :
    draft.sayParts (part :: later) (first ++ declared) =
      (draft.sayParts [part] first).sayParts later declared := by
  simp [sayParts]

/-- A block that is a part is read as what the part says. -/
theorem exists_addBlock_eq_ok (hknown : (known.map fun rule ↦ rule.name).Nodup)
    {part : ScenarioPart} {block : Block} (h : part.IsWrittenAs catalog block.content)
    (hpart : part.Suits known) {draft : ScenarioDraft}
    (hnew : ∀ agent ∈ part.agents, agent.name ∉ draft.scenario.agents.map Agent.name) :
    ∃ declared : List PendingRelation,
      declared.map PendingRelation.declaration =
          part.agents.flatMap AgentDescription.declarations ∧
        addBlock catalog known draft block = .ok (draft.sayParts [part] declared) := by
  obtain ⟨kind, name, line, directives⟩ := block
  generalize hcontent : Block.content _ = content at h
  cases h with
  | @world name clauses _ hname hrelations hdirectives =>
    obtain ⟨rfl, rfl, rfl⟩ := BlockContent.mk.inj hcontent
    rw [List.forall₂_map_right_iff] at hdirectives
    cases hpart with
    | world hclauses =>
      have hdraft : draft.sayParts [.world name clauses] [] = draft.sayWorld clauses := by
        simp [sayParts, sayWorld]
      refine ⟨[], rfl, ?_⟩
      rw [hdraft]
      exact (if_pos rfl).trans (foldlM_readWorld hknown hdirectives hclauses draft)
  | @agent name clauses _ hnumbers hdirectives =>
    obtain ⟨rfl, rfl, rfl⟩ := BlockContent.mk.inj hcontent
    rw [List.forall₂_map_right_iff] at hdirectives
    cases hpart with
    | agent hne hclauses =>
      obtain ⟨declared, hdeclared, hread⟩ :=
        exists_foldlM_readAgent hknown hdirectives hclauses { name := name } draft
      have hfresh : name ∉ draft.scenario.agents.map Agent.name :=
        hnew _ List.mem_cons_self
      have hkind : ¬ "agent" = "world" := by decide
      refine ⟨declared, by rwa [ScenarioPart.agents, List.flatMap_singleton], ?_⟩
      rw [addBlock, if_neg hkind, if_pos rfl, addAgent, if_neg hne, if_neg hfresh]
      refine bind_eq_ok_iff.2 ⟨_, hread, ?_⟩
      simp [sayParts, sayAgent, AgentDescription.ofClauses, AgentDescription.unrelated,
        Agent.appendRules, Agent.owner, pure, Except.pure]

/-- Blocks that are parts about distinct agents are read as what the parts say. -/
theorem exists_foldlM_addBlock (hknown : (known.map fun rule ↦ rule.name).Nodup)
    {parts : List ScenarioPart} {blocks : List Block}
    (h : List.Forall₂ (fun part block ↦
      ScenarioPart.IsWrittenAs catalog part (Block.content block)) parts blocks)
    (hparts : ∀ part ∈ parts, part.Suits known) {draft : ScenarioDraft}
    (hnames : (draft.scenario.agents.map Agent.name ++
      (parts.flatMap ScenarioPart.agents).map AgentDescription.name).Nodup) :
    ∃ declared : List PendingRelation,
      declared.map PendingRelation.declaration =
          (parts.flatMap ScenarioPart.agents).flatMap AgentDescription.declarations ∧
        blocks.foldlM (addBlock catalog known) draft = .ok (draft.sayParts parts declared) := by
  induction h generalizing draft with
  | nil =>
    refine ⟨[], rfl, ?_⟩
    simp [sayParts, pure, Except.pure]
  | @cons part block parts blocks hwritten _ ih =>
    obtain ⟨hpart, hlater⟩ := List.forall_mem_cons.1 hparts
    rw [List.flatMap_cons, List.map_append, ← List.append_assoc] at hnames
    have hnew : ∀ agent ∈ part.agents, agent.name ∉ draft.scenario.agents.map Agent.name := by
      intro agent hagent hmem
      have hdisjoint := List.disjoint_of_nodup_append (List.nodup_append.1 hnames).1
      exact hdisjoint hmem (List.mem_map_of_mem hagent)
    obtain ⟨first, hfirst, hread⟩ := exists_addBlock_eq_ok hknown hwritten hpart hnew
    have hnames' : ((draft.sayParts [part] first).scenario.agents.map Agent.name ++
        (parts.flatMap ScenarioPart.agents).map AgentDescription.name).Nodup := by
      simpa [sayParts, AgentDescription.unrelated, Function.comp_def] using hnames
    obtain ⟨declared, hdeclared, hrest⟩ := ih hlater hnames'
    refine ⟨first ++ declared, ?_, ?_⟩
    · rw [List.map_append, hfirst, hdeclared, List.flatMap_cons, List.flatMap_append]
    · rw [List.foldlM_cons, hread, sayParts_cons]
      exact hrest

end ScenarioDraft

/-! ### Pools of a text -/

namespace Ledger

/-- Pools that no other pool can be taken for are set up one behind the other. -/
theorem pools_foldl_setUp {pools : List Pool} {ledger : Ledger}
    (h : ((ledger.pools ++ pools).map Pool.key).Nodup) :
    (pools.foldl setUp ledger).pools = ledger.pools ++ pools := by
  induction pools generalizing ledger with
  | nil => rw [List.foldl_nil, List.append_nil]
  | cons pool later ih =>
    have habsent : ledger.pool? pool.owner pool.resource = none := by
      refine List.find?_eq_none.2 fun present hpresent hisOf ↦ ?_
      rw [List.map_append, List.map_cons] at h
      have hkey : present.key = pool.key := (Pool.isOf_iff_key_eq _ _ _).1 hisOf
      exact List.disjoint_of_nodup_append h (List.mem_map_of_mem hpresent)
        (hkey ▸ List.mem_cons_self)
    have hsetUp : ledger.setUp pool = { pools := ledger.pools ++ [pool] } := by
      rw [setUp, habsent]
    have hmiddle : ledger.pools ++ pool :: later = (ledger.pools ++ [pool]) ++ later := by simp
    rw [List.foldl_cons, hsetUp, hmiddle]
    exact ih (hmiddle ▸ h)

end Ledger

namespace ScopeClause

theorem poolsOf_append (owner : Owner) (first second : List ScopeClause) :
    poolsOf owner (first ++ second) = poolsOf owner first ++ poolsOf owner second := by
  rw [poolsOf, List.flatMap_append, List.map_append]
  rfl

/-- Pools described as those of an owner are its pools and nobody else's. -/
theorem filter_poolsOf (owner other : Owner) (clauses : List ScopeClause) :
    ((poolsOf owner clauses).filter fun pool ↦ pool.owner = other) =
      if owner = other then poolsOf owner clauses else [] := by
  have howner : ∀ pool ∈ poolsOf owner clauses, pool.owner = owner := by
    intro pool hpool
    obtain ⟨description, -, rfl⟩ := List.mem_map.1 hpool
    rfl
  split_ifs with hsame
  · exact List.filter_eq_self.2 fun pool hpool ↦ decide_eq_true ((howner pool hpool).trans hsame)
  · refine List.filter_eq_nil_iff.2 fun pool hpool hother ↦ hsame ?_
    exact (howner pool hpool).symm.trans (of_decide_eq_true hother)

end ScopeClause

namespace ScenarioPart

/-- The pools that an owner has in a text are in their order. -/
theorem filter_pools (parts : List ScenarioPart) (owner : Owner) :
    ((parts.flatMap pools).filter fun pool ↦ pool.owner = owner) =
      (ScopeClause.poolsOf .world (parts.flatMap aboutWorld) ++
        (parts.flatMap agents).flatMap AgentDescription.ownPools).filter
          fun pool ↦ pool.owner = owner := by
  induction parts with
  | nil => rfl
  | cons part later ih =>
    rw [List.filter_append, ScopeClause.filter_poolsOf] at ih ⊢
    cases part with
    | world name clauses =>
      simp only [List.flatMap_cons, pools, aboutWorld, agents, List.nil_append,
        ScopeClause.poolsOf_append, List.filter_append, ScopeClause.filter_poolsOf, ih]
      split_ifs <;> simp
    | agent name clauses =>
      have hown : (AgentDescription.ofClauses name clauses).ownPools =
          ScopeClause.poolsOf (.agent name) clauses := rfl
      simp only [List.flatMap_cons, pools, aboutWorld, agents, List.nil_append,
        List.singleton_append, hown, List.filter_append, ScopeClause.filter_poolsOf, ih]
      by_cases hworld : Owner.world = owner
      · -- The agent has none of the pools of the world.
        have hagent : ¬ Owner.agent name = owner := fun hsame ↦ by cases hworld.trans hsame.symm
        rw [if_neg hagent, List.nil_append, List.nil_append]
      · rw [if_neg hworld, List.nil_append, List.nil_append]

/-- The pools of a text are those of the world and those of the agents. -/
theorem pools_perm (parts : List ScenarioPart) :
    (parts.flatMap pools).Perm (ScopeClause.poolsOf .world (parts.flatMap aboutWorld) ++
      (parts.flatMap agents).flatMap AgentDescription.ownPools) := by
  refine List.perm_iff_count.2 fun pool ↦ ?_
  -- A pool is among those of its owner as often as among all.
  have hfilter (items : List Pool) :
      List.count pool (items.filter fun other ↦ other.owner = pool.owner) = List.count pool items :=
    List.count_filter (by simp)
  rw [← hfilter, filter_pools, hfilter]

end ScenarioPart

/-! ### Relations of a text -/

namespace Agent

/-- The agent with a relation that is declared under its name. -/
def declare (agent : Agent) (declaration : String × String × String) : Agent :=
  if agent.name = declaration.1 then agent.relate declaration.2.1 declaration.2.2 else agent

/-- The agent with all relations that are declared under its name. -/
def declareAll (declarations : List (String × String × String)) (agent : Agent) : Agent :=
  declarations.foldl declare agent

theorem name_declareAll (declarations : List (String × String × String)) (agent : Agent) :
    (agent.declareAll declarations).name = agent.name := by
  induction declarations generalizing agent with
  | nil => rfl
  | cons declaration later ih =>
    refine (ih (agent.declare declaration)).trans ?_
    rw [declare]
    split <;> rfl

theorem declareAll_append (first second : List (String × String × String)) (agent : Agent) :
    agent.declareAll (first ++ second) = (agent.declareAll first).declareAll second :=
  List.foldl_append

/-- What is declared under other names does not matter to the agent. -/
theorem declareAll_of_ne {declarations : List (String × String × String)} {agent : Agent}
    (h : ∀ declaration ∈ declarations, agent.name ≠ declaration.1) :
    agent.declareAll declarations = agent := by
  induction declarations with
  | nil => rfl
  | cons declaration later ih =>
    obtain ⟨hne, hlater⟩ := List.forall_mem_cons.1 h
    rw [declareAll, List.foldl_cons, declare, if_neg hne]
    exact ih hlater

/-- Relations that are declared one after the other are entered one after the other. -/
theorem declareAll_own_name (relations : List (String × String)) (agent : Agent) :
    agent.declareAll (relations.map (Prod.mk agent.name)) =
      { agent with relations := agent.relations.putAll relations } := by
  induction relations generalizing agent with
  | nil => rfl
  | cons relation later ih =>
    rw [List.map_cons, declareAll, List.foldl_cons, declare, if_pos rfl]
    exact ih (agent.relate relation.1 relation.2)

/-- Relations under distinct names are declared one behind the other. -/
theorem relations_declareAll {relations : List (String × String)} (agent : Agent)
    (h : (agent.relations.keys ++ relations.map Prod.fst).Nodup) :
    agent.declareAll (relations.map (Prod.mk agent.name)) =
      { agent with relations := ⟨agent.relations.entries ++ relations⟩ } := by
  rw [declareAll_own_name, Table.putAll_of_nodup h]

end Agent

namespace AgentDescription

/-- What other agents declare does not matter to an agent. -/
theorem declareAll_others {others : List AgentDescription} {agent : Agent}
    (h : ∀ other ∈ others, agent.name ≠ other.name) :
    agent.declareAll (others.flatMap declarations) = agent := by
  refine Agent.declareAll_of_ne fun declaration hdeclaration ↦ ?_
  obtain ⟨other, hother, hdeclared⟩ := List.mem_flatMap.1 hdeclaration
  obtain ⟨relation, -, rfl⟩ := List.mem_map.1 hdeclared
  exact h other hother

/-- Of what agents with distinct names declare each one is concerned by its own declarations. -/
theorem declareAll_own {descriptions : List AgentDescription}
    (hnames : (descriptions.map AgentDescription.name).Nodup) {description : AgentDescription}
    (hmem : description ∈ descriptions) :
    description.unrelated.declareAll (descriptions.flatMap declarations) =
      description.unrelated.declareAll description.declarations := by
  obtain ⟨before, behind, rfl⟩ := List.append_of_mem hmem
  rw [List.map_append, List.map_cons] at hnames
  have hbefore : ∀ other ∈ before, description.name ≠ other.name := by
    intro other hother hsame
    exact List.disjoint_of_nodup_append hnames (List.mem_map_of_mem hother)
      (hsame ▸ List.mem_cons_self)
  have hbehind : ∀ other ∈ behind,
      (description.unrelated.declareAll description.declarations).name ≠ other.name := by
    intro other hother hsame
    have hfresh := (List.nodup_cons.1 (List.nodup_append.1 hnames).2.1).1
    have hname : description.name = other.name := by rwa [Agent.name_declareAll] at hsame
    exact hfresh (hname ▸ List.mem_map_of_mem hother)
  rw [List.flatMap_append, List.flatMap_cons, Agent.declareAll_append, declareAll_others hbefore,
    Agent.declareAll_append]
  exact declareAll_others hbehind

/-- Of what agents with distinct names declare each one gets its own relations. -/
theorem declareAll_declarations {descriptions : List AgentDescription}
    (hnames : (descriptions.map AgentDescription.name).Nodup) {description : AgentDescription}
    (hmem : description ∈ descriptions)
    (hdistinct : (description.relations.map Prod.fst).Nodup) :
    description.unrelated.declareAll (descriptions.flatMap declarations) = description.agent :=
  (declareAll_own hnames hmem).trans
    (Agent.relations_declareAll description.unrelated hdistinct)

end AgentDescription

/-- An agent of the name is found for every name of an agent. -/
theorem Scenario.exists_agent? {scenario : Scenario} {name : String}
    (h : name ∈ scenario.agents.map Agent.name) :
    ∃ agent ∈ scenario.agents, agent.name = name ∧ scenario.agent? name = some agent := by
  obtain ⟨other, hother, hname⟩ := List.mem_map.1 h
  have hfound : (scenario.agents.find? fun agent ↦ agent.name = name).isSome = true :=
    List.find?_isSome.2 ⟨other, hother, decide_eq_true hname⟩
  obtain ⟨agent, hagent⟩ := Option.isSome_iff_exists.1 hfound
  have hsame := List.find?_some hagent
  exact ⟨agent, List.mem_of_find?_eq_some hagent, of_decide_eq_true hsame, hagent⟩

namespace ScenarioDraft

/-- A relation to an agent of the scenario is resolved. -/
theorem resolve_eq_ok {scenario : Scenario} {pending : PendingRelation}
    (h : pending.target ∈ scenario.agents.map Agent.name) :
    resolve scenario pending = .ok { scenario with
      agents := scenario.agents.map (Agent.declareAll [pending.declaration]) } := by
  obtain ⟨other, -, hname, hother⟩ := Scenario.exists_agent? h
  rw [resolve, hother]
  simp only [hname]
  rfl

/-- Relations to agents of the scenario are all resolved. -/
theorem foldlM_resolve_eq_ok {declared : List PendingRelation} {scenario : Scenario}
    (h : ∀ pending ∈ declared, pending.target ∈ scenario.agents.map Agent.name) :
    declared.foldlM resolve scenario = .ok { scenario with
      agents := scenario.agents.map
        (Agent.declareAll (declared.map PendingRelation.declaration)) } := by
  induction declared generalizing scenario with
  | nil =>
    have hagents : scenario.agents.map (Agent.declareAll []) = scenario.agents := List.map_id _
    rw [List.foldlM_nil, List.map_nil, hagents]
    rfl
  | cons pending later ih =>
    obtain ⟨hpending, hlater⟩ := List.forall_mem_cons.1 h
    have hnames : (scenario.agents.map (Agent.declareAll [pending.declaration])).map Agent.name =
        scenario.agents.map Agent.name := by
      rw [List.map_map]
      exact List.map_congr_left fun agent _ ↦ agent.name_declareAll _
    rw [List.foldlM_cons, resolve_eq_ok hpending]
    refine (ih (hnames ▸ hlater)).trans ?_
    rw [List.map_map]
    rfl

end ScenarioDraft

/-! ### Texts of a description -/

namespace ScopeDescription

/-- Clauses that say what the world or an agent has, with a line for each rule. -/
def clauses (description : ScopeDescription) : List ScopeClause :=
  description.pools.map .pool ++ description.rules.map fun rule ↦ .rules [rule]

@[simp]
theorem flatMap_pools_clauses (description : ScopeDescription) :
    description.clauses.flatMap ScopeClause.pools = description.pools := by
  simp [clauses, List.flatMap_map]

@[simp]
theorem flatMap_named_clauses (description : ScopeDescription) :
    description.clauses.flatMap ScopeClause.named = description.rules := by
  simp [clauses, List.flatMap_map]

@[simp]
theorem flatMap_relations_clauses (description : ScopeDescription) :
    description.clauses.flatMap ScopeClause.relations = [] := by
  simp [clauses, List.flatMap_map]

@[simp]
theorem flatMap_numbers_clauses (description : ScopeDescription) (setting : Setting) :
    description.clauses.flatMap (ScopeClause.numbers setting) = [] := by
  simp [clauses, List.flatMap_map]

/-- What can be written of the world or an agent can be written clause by clause. -/
theorem isWritable_of_mem_clauses {catalog : Catalog} {known : List Rule}
    {description : ScopeDescription} (h : description.IsWritable catalog known) :
    ∀ clause ∈ description.clauses, clause.IsWritable catalog := by
  simp only [clauses, List.forall_mem_append, List.forall_mem_map]
  exact ⟨h.pools, fun rule hrule ↦ ⟨List.cons_ne_nil _ _,
    List.forall_mem_singleton.2 (h.rules rule hrule)⟩⟩

/-- Pools of distinct resources have distinct keys as pools of one owner. -/
theorem nodup_keys {description : ScopeDescription}
    (h : (description.pools.map fun pool ↦ pool.resource.handle).Nodup) (owner : Owner) :
    ((description.pools.map (PoolDescription.pool owner)).map Pool.key).Nodup := by
  have hkeys : (description.pools.map (PoolDescription.pool owner)).map Pool.key =
      (description.pools.map fun pool ↦ pool.resource.handle).map (Prod.mk owner) := by
    rw [List.map_map, List.map_map]
    rfl
  rw [hkeys]
  exact h.map fun first second hsame ↦ (Prod.mk.inj hsame).2

end ScopeDescription

namespace AgentDescription

/-- Clauses that say what the agent has. -/
def clauses (description : AgentDescription) : List ScopeClause :=
  description.toScopeDescription.clauses ++
    description.relations.map fun relation ↦ .relation relation.1 relation.2

theorem ofClauses_clauses (description : AgentDescription) :
    ofClauses description.name description.clauses = description := by
  have hnone : ∀ {Value : Type},
      description.relations.flatMap (fun _ ↦ ([] : List Value)) = [] := fun {Value} ↦
    List.flatMap_eq_nil_iff.2 fun _ _ ↦ rfl
  simp [ofClauses, clauses, List.flatMap_map, hnone]

theorem numbers_of_mem_clauses {description : AgentDescription} {clause : ScopeClause}
    (h : clause ∈ description.clauses) (setting : Setting) : clause.numbers setting = [] := by
  have hnone : description.clauses.flatMap (ScopeClause.numbers setting) = [] := by
    simp [clauses, List.flatMap_map]
  exact List.flatMap_eq_nil_iff.1 hnone clause h

end AgentDescription

/-- A block of spellings whose name can stand on the line that opens it is read as a block. -/
theorem ScenarioPart.isWritable_of_spellings {catalog : Catalog} {kind name : String}
    {clauses : List ScopeClause} {directives : List (List String)}
    (hkind : BlockContent.IsFirstWord kind ∧ kind ≠ "end") (hname : Name.trim name = name)
    (hdirectives : List.Forall₂ (ScopeClause.Spelling catalog) clauses directives) :
    BlockContent.IsWritable ⟨kind, name, directives⟩ where
  kind := hkind.1
  kind_ne := hkind.2
  name := hname
  directives := by
    intro words hwords
    obtain ⟨clause, -, hspelling⟩ := exists_of_forall₂_of_mem hdirectives hwords
    exact hspelling.isDirective

namespace ScenarioDescription

variable {catalog : Catalog} {known : List Rule} {description : ScenarioDescription}

/-- No two pools of a description that can be written have an owner and a resource in common. -/
theorem nodup_keys (h : description.IsWritable catalog known) :
    (description.ledger.pools.map Pool.key).Nodup := by
  have howner : ∀ agent : AgentDescription, ∀ key ∈ agent.ownPools.map Pool.key,
      key.1 = .agent agent.name := by
    intro agent key hkey
    obtain ⟨pool, hpool, rfl⟩ := List.mem_map.1 hkey
    obtain ⟨owned, -, rfl⟩ := List.mem_map.1 hpool
    rfl
  rw [ledger, List.map_append, List.map_flatMap]
  refine List.nodup_append'.2 ⟨ScopeDescription.nodup_keys h.world.distinct _,
    List.nodup_flatMap.2 ⟨fun agent hagent ↦ ?_, ?_⟩, ?_⟩
  · exact ScopeDescription.nodup_keys (h.scopes agent hagent).distinct _
  · refine (List.pairwise_map.1 h.names).imp fun {first second} hne key hfirst hsecond ↦ hne ?_
    exact Owner.agent.inj ((howner first key hfirst).symm.trans (howner second key hsecond))
  · intro key hworld hagents
    obtain ⟨pool, hpool, rfl⟩ := List.mem_map.1 hworld
    obtain ⟨owned, -, rfl⟩ := List.mem_map.1 hpool
    obtain ⟨agent, -, hagent⟩ := List.mem_flatMap.1 hagents
    cases howner agent _ hagent

/-- What a description that can be written is written as is read as blocks. -/
theorem isWritable_of_isWrittenAs (h : description.IsWritable catalog known)
    {parts : List ScenarioPart} (hstated : description.IsStatedBy parts)
    {contents : List BlockContent}
    (hcontents : List.Forall₂ (ScenarioPart.IsWrittenAs catalog) parts contents) :
    ∀ content ∈ contents, content.IsWritable := by
  intro content hcontent
  obtain ⟨part, hpart, hwritten⟩ := exists_of_forall₂_of_mem hcontents hcontent
  cases hwritten with
  | world hname hrelations hdirectives =>
    exact ScenarioPart.isWritable_of_spellings (by decide) hname hdirectives
  | @agent name clauses directives hnumbers hdirectives =>
    have hagent : AgentDescription.ofClauses name clauses ∈ description.agents := by
      rw [← hstated.agents]
      exact List.mem_flatMap_of_mem hpart List.mem_cons_self
    have hname : Name.trim name = name :=
      h.trim_name (AgentDescription.ofClauses name clauses) hagent
    exact ScenarioPart.isWritable_of_spellings (by decide) hname hdirectives

/-- The parts of a description that can be written can be read. -/
theorem suits_of_isStatedBy (h : description.IsWritable catalog known)
    {parts : List ScenarioPart} (hstated : description.IsStatedBy parts)
    {contents : List BlockContent}
    (hcontents : List.Forall₂ (ScenarioPart.IsWrittenAs catalog) parts contents) :
    ∀ part ∈ parts, part.Suits known := by
  intro part hpart
  obtain ⟨content, -, hwritten⟩ := exists_of_forall₂_of_mem hcontents.flip hpart
  cases hwritten with
  | @world name clauses directives hname hrelations hdirectives =>
    refine .world fun clause hclause ↦ ⟨hrelations clause hclause, fun rule hrule ↦ ?_⟩
    refine h.world.known rule ?_
    rw [← hstated.rules]
    exact List.mem_flatMap_of_mem (List.mem_flatMap_of_mem hpart hclause) hrule
  | @agent name clauses directives hnumbers hdirectives =>
    have hagent : AgentDescription.ofClauses name clauses ∈ description.agents := by
      rw [← hstated.agents]
      exact List.mem_flatMap_of_mem hpart List.mem_cons_self
    refine .agent (h.name_ne _ hagent) fun clause hclause ↦
      ⟨hnumbers clause hclause, fun rule hrule ↦ ?_⟩
    exact (h.scopes _ hagent).known rule (List.mem_flatMap_of_mem hclause hrule)

/-- What the parts say about pools are the pools described, owner by owner. -/
theorem poolsOf_of_isStatedBy (h : description.IsWritable catalog known)
    {parts : List ScenarioPart} (hstated : description.IsStatedBy parts) (owner : Owner) :
    ((parts.flatMap ScenarioPart.pools).foldl Ledger.setUp {}).poolsOf owner =
      description.ledger.poolsOf owner := by
  have hpools : ScopeClause.poolsOf .world (parts.flatMap ScenarioPart.aboutWorld) ++
      (parts.flatMap ScenarioPart.agents).flatMap AgentDescription.ownPools =
        description.ledger.pools := by
    rw [ScopeClause.poolsOf, hstated.pools, hstated.agents]
    rfl
  have hperm := ScenarioPart.pools_perm parts
  have hfilter := ScenarioPart.filter_pools parts owner
  rw [hpools] at hperm hfilter
  have hdistinct : ((parts.flatMap ScenarioPart.pools).map Pool.key).Nodup :=
    (hperm.map Pool.key).nodup_iff.2 (nodup_keys h)
  have hsetUp : ((parts.flatMap ScenarioPart.pools).foldl Ledger.setUp {}).pools =
      parts.flatMap ScenarioPart.pools := Ledger.pools_foldl_setUp hdistinct
  rw [Ledger.poolsOf, Ledger.poolsOf, hsetUp, hfilter]

/-- What the agents of a description that can be written declare makes them the agents described. -/
theorem map_declareAll_unrelated (h : description.IsWritable catalog known) :
    (description.agents.map AgentDescription.unrelated).map
        (Agent.declareAll (description.agents.flatMap AgentDescription.declarations)) =
      description.agents.map AgentDescription.agent := by
  rw [List.map_map]
  exact List.map_congr_left fun agent hagent ↦
    AgentDescription.declareAll_declarations h.names hagent (h.distinct agent hagent)

/-- What the agents of a description that can be written declare is about agents of it. -/
theorem target_mem_of_mem_declarations (h : description.IsWritable catalog known)
    {declaration : String × String × String}
    (hmem : declaration ∈ description.agents.flatMap AgentDescription.declarations) :
    declaration.2.2 ∈ description.agents.map AgentDescription.name := by
  obtain ⟨agent, hagent, hdeclaration⟩ := List.mem_flatMap.1 hmem
  obtain ⟨relation, hrelation, rfl⟩ := List.mem_map.1 hdeclaration
  exact (h.targets agent hagent relation hrelation).2

/-- In a scenario with the agents described every relation is to the agent in the list that has the
name. -/
theorem exists_agent?_of_relation (h : description.IsWritable catalog known) {scenario : Scenario}
    (hagents : scenario.agents = description.agents.map AgentDescription.agent) :
    ∀ agent ∈ scenario.agents, ∀ relation ∈ agent.relations.entries,
      ∃ other ∈ scenario.agents, other.name = relation.2 ∧
        scenario.agent? relation.2 = some other := by
  intro agent hagent relation hrelation
  rw [hagents] at hagent
  obtain ⟨described, hdescribed, rfl⟩ := List.mem_map.1 hagent
  refine Scenario.exists_agent? ?_
  rw [hagents, List.map_map]
  exact (h.targets described hdescribed relation hrelation).2

/-- What the parts say is, with all relations resolved, the scenario described. -/
theorem exists_resolveAll_eq_ok (h : description.IsWritable catalog known)
    {parts : List ScenarioPart} (hstated : description.IsStatedBy parts)
    {declared : List PendingRelation}
    (hdeclared : declared.map PendingRelation.declaration =
      (parts.flatMap ScenarioPart.agents).flatMap AgentDescription.declarations) :
    ∃ scenario, (({} : ScenarioDraft).sayParts parts declared).resolveAll = .ok scenario ∧
      description.Describes scenario := by
  rw [hstated.agents] at hdeclared
  have hdraft : (({} : ScenarioDraft).sayParts parts declared).scenario.agents =
      description.agents.map AgentDescription.unrelated := by
    rw [← hstated.agents]
    rfl
  have htargets : ∀ pending ∈ declared, pending.target ∈
      (({} : ScenarioDraft).sayParts parts declared).scenario.agents.map Agent.name := by
    intro pending hpending
    rw [hdraft, List.map_map]
    exact target_mem_of_mem_declarations h (hdeclared ▸ List.mem_map_of_mem hpending)
  have hresolve := ScenarioDraft.foldlM_resolve_eq_ok htargets
  rw [hdraft, hdeclared, map_declareAll_unrelated h] at hresolve
  have hsettings : (parts.flatMap ScenarioPart.aboutWorld).foldl ScopeClause.applyTo {} =
      description.settings := Setting.eq_of_value_eq fun setting ↦
    (ScopeClause.value_foldl_applyTo _ _ setting).trans (hstated.settings setting)
  exact ⟨_, hresolve, hsettings, hstated.rules, rfl, poolsOf_of_isStatedBy h hstated,
    exists_agent?_of_relation h rfl⟩

/-- Clauses that say what the world has and what the settings are. -/
def worldClauses (description : ScenarioDescription) : List ScopeClause :=
  ([.ticks, .reportEvery, .snapshotEvery].map fun setting ↦
      .setting setting (setting.value description.settings)) ++
    description.world.clauses

theorem relations_of_mem_worldClauses {clause : ScopeClause}
    (h : clause ∈ description.worldClauses) : clause.relations = [] := by
  have hnone : description.worldClauses.flatMap ScopeClause.relations = [] := by
    simp [worldClauses]
  exact List.flatMap_eq_nil_iff.1 hnone clause h

/-- Parts that say what the description has: one about the world, and one about each agent. -/
def parts (description : ScenarioDescription) : List ScenarioPart :=
  .world "" description.worldClauses ::
    description.agents.map fun agent ↦ .agent agent.name agent.clauses

theorem isStatedBy_parts (description : ScenarioDescription) :
    description.IsStatedBy description.parts := by
  have hworld : description.parts.flatMap ScenarioPart.aboutWorld = description.worldClauses := by
    simp [parts, List.flatMap_map]
  constructor
  · intro setting
    rw [hworld, worldClauses]
    cases setting <;> simp
  · rw [hworld]
    simp [worldClauses]
  · rw [hworld]
    simp [worldClauses]
  · simp [parts, List.flatMap_map, AgentDescription.ofClauses_clauses]

/-- A description that can be written has a text. -/
theorem exists_isWrittenAs (h : description.IsWritable catalog known) :
    ∃ contents, description.IsWrittenAs catalog contents := by
  have hworld : ∀ clause ∈ description.worldClauses, clause.IsWritable catalog := by
    simp only [worldClauses, List.forall_mem_append, List.forall_mem_map]
    exact ⟨fun setting _ ↦ h.settings setting,
      ScopeDescription.isWritable_of_mem_clauses h.world⟩
  have hagent : ∀ agent ∈ description.agents, ∀ clause ∈ agent.clauses,
      clause.IsWritable catalog := by
    intro agent hmem
    simp only [AgentDescription.clauses, List.forall_mem_append, List.forall_mem_map]
    exact ⟨ScopeDescription.isWritable_of_mem_clauses (h.scopes agent hmem),
      fun relation hrelation ↦ ⟨(h.relations agent hmem relation hrelation).1,
        (h.relations agent hmem relation hrelation).2,
        (h.targets agent hmem relation hrelation).1⟩⟩
  have hparts : ∀ part ∈ description.parts, ∃ content, part.IsWrittenAs catalog content := by
    refine List.forall_mem_cons.2 ⟨?_, List.forall_mem_map.2 fun agent hmem ↦ ?_⟩
    · obtain ⟨directives, hdirectives⟩ := exists_forall₂ fun clause hclause ↦
        ScopeClause.exists_spelling (hworld clause hclause)
      have hname : Name.trim "" = "" := by decide +kernel
      exact ⟨_, .world hname (fun clause ↦ relations_of_mem_worldClauses) hdirectives⟩
    · obtain ⟨directives, hdirectives⟩ := exists_forall₂ fun clause hclause ↦
        ScopeClause.exists_spelling (hagent agent hmem clause hclause)
      exact ⟨_, .agent (fun clause ↦ AgentDescription.numbers_of_mem_clauses) hdirectives⟩
  obtain ⟨contents, hcontents⟩ := exists_forall₂ hparts
  exact ⟨contents, description.parts, description.isStatedBy_parts, hcontents⟩

end ScenarioDescription

/-- The lines of blocks that are parts about distinct agents come to what the parts say, once its
relations are resolved. -/
theorem Scenario.exists_parse_eq_resolveAll {catalog : Catalog} {known : List Rule}
    (hknown : (known.map fun rule ↦ rule.name).Nodup) {parts : List ScenarioPart}
    {contents : List BlockContent} (hlines : ∀ content ∈ contents, content.IsWritable)
    (hcontents : List.Forall₂ (ScenarioPart.IsWrittenAs catalog) parts contents)
    (hparts : ∀ part ∈ parts, part.Suits known)
    (hnames : ((parts.flatMap ScenarioPart.agents).map AgentDescription.name).Nodup) :
    ∃ declared : List PendingRelation,
      declared.map PendingRelation.declaration =
          (parts.flatMap ScenarioPart.agents).flatMap AgentDescription.declarations ∧
        Scenario.parse catalog known (contents.flatMap BlockContent.lines) =
          (({} : ScenarioDraft).sayParts parts declared).resolveAll := by
  obtain ⟨blocks, hreading, rfl⟩ := Reading.exists_blocks_of_lines hlines
  rw [List.forall₂_map_right_iff] at hcontents
  have hfresh : (({} : ScenarioDraft).scenario.agents.map Agent.name ++
      (parts.flatMap ScenarioPart.agents).map AgentDescription.name).Nodup := hnames
  obtain ⟨declared, hdeclared, hread⟩ :=
    ScenarioDraft.exists_foldlM_addBlock hknown hcontents hparts hfresh
  refine ⟨declared, hdeclared, ?_⟩
  rw [Scenario.parse, hreading]
  exact congrArg (· >>= _) hread

/-- A description that can be written, with rules of a list that has distinct names, has a text.
Each of its texts is read as a scenario with the settings, the pools, the rules and the agents
described, each in their order, in which every relation is to the agent in the list that has the
name. -/
theorem Scenario.parse_restores (catalog : Catalog) (known : List Rule)
    (description : ScenarioDescription) (hknown : (known.map fun rule ↦ rule.name).Nodup)
    (hdescription : description.IsWritable catalog known) :
    (∃ contents, description.IsWrittenAs catalog contents) ∧
    ∀ contents, description.IsWrittenAs catalog contents →
      ∃ scenario, Scenario.parse catalog known (contents.flatMap BlockContent.lines) =
          .ok scenario ∧ description.Describes scenario := by
  refine ⟨ScenarioDescription.exists_isWrittenAs hdescription, ?_⟩
  rintro contents ⟨parts, hstated, hcontents⟩
  have hnames : ((parts.flatMap ScenarioPart.agents).map AgentDescription.name).Nodup := by
    rw [hstated.agents]
    exact hdescription.names
  obtain ⟨declared, hdeclared, hparse⟩ := Scenario.exists_parse_eq_resolveAll hknown
    (ScenarioDescription.isWritable_of_isWrittenAs hdescription hstated hcontents) hcontents
    (ScenarioDescription.suits_of_isStatedBy hdescription hstated hcontents) hnames
  obtain ⟨scenario, hresolved, hdescribes⟩ :=
    ScenarioDescription.exists_resolveAll_eq_ok hdescription hstated hdeclared
  exact ⟨scenario, hparse.trans hresolved, hdescribes⟩

/-- The mill names the farm, which comes after it, and itself; its rules are split over two lines,
its pool has no limit and begins below zero, and the pool of the world stands between the agents. -/
theorem Scenario.parse_restores_mill :
    let grain : Resource := { handle := 1, key := "grain", singular := "grain", plural := "grain" }
    let catalog : Catalog := { resources := [grain] }
    let sow : Rule := { handle := 2, name := "sow" }
    let reap : Rule := { handle := 3, name := "reap" }
    let known := [sow, reap]
    let mill : AgentDescription :=
      { name := "mill"
        pools := [{ resource := grain, capacity := none, quantity := -2 }]
        rules := [sow, reap, sow]
        relations := [("supplier", "farm"), ("self", "mill")] }
    let farm : AgentDescription :=
      { name := "farm", pools := [{ resource := grain, capacity := some 9, quantity := 12 }] }
    let description : ScenarioDescription :=
      { settings := { ticks := 5 }
        world := { pools := [{ resource := grain, capacity := some 0, quantity := 3 }]
                   rules := [reap] }
        agents := [mill, farm] }
    let contents : List BlockContent :=
      [⟨"world", "", [["ticks", Text.numeral 5], ["rules", "reap"]]⟩,
        ⟨"agent", "mill", [["relation", "Supplier", "farm"], ["rules", "sow", "reap"],
          ["pool", "GRAIN", "Unlimited", Text.numeral (-2)], ["rules", "sow"],
          ["relation", "self", "mill"]]⟩,
        ⟨"world", "at large", [["pool", "grain", Text.numeral 0, Text.numeral 3]]⟩,
        ⟨"agent", "farm", [["pool", "grain", Text.numeral 9, Text.numeral 12]]⟩]
    (known.map fun rule ↦ rule.name).Nodup ∧ description.IsWritable catalog known ∧
      description.IsWrittenAs catalog contents ∧
      contents.flatMap BlockContent.lines = ["world", "ticks 5", "rules reap", "end", "agent mill",
        "relation Supplier farm", "rules sow reap", "pool GRAIN Unlimited -2", "rules sow",
        "relation self mill", "end", "world at large", "pool grain 0 3", "end", "agent farm",
        "pool grain 9 12", "end"].map String.toList ∧
      ∃ scenario, Scenario.parse catalog known (contents.flatMap BlockContent.lines) =
          .ok scenario ∧ description.Describes scenario := by
  intro grain catalog sow reap known mill farm description contents
  have hknown : (known.map fun rule ↦ rule.name).Nodup := by decide
  have hfind : ∀ word ∈ ["grain", "GRAIN"],
      Text.IsWord word.toList ∧ catalog.find? word = some grain := by decide +kernel
  have hfold : Name.fold "Unlimited" = "unlimited" ∧ Name.fold "Supplier" = "supplier" ∧
      Name.fold "self" = "self" := by decide +kernel
  have hpool : ∀ (capacity : Option Nat) (quantity : Int),
      (∀ most ∈ capacity, Text.FitsNumeral most) → Text.FitsNumeral quantity →
        PoolDescription.IsWritable catalog ⟨grain, capacity, quantity⟩ :=
    fun capacity quantity hcapacity hquantity ↦
      ⟨⟨"grain", hfind "grain" (by decide)⟩, hcapacity, hquantity⟩
  have hdescription : description.IsWritable catalog known :=
    { settings := by
        intro setting
        cases setting <;> decide +kernel
      world :=
        ⟨by decide, by simpa [description] using hpool _ _ (by decide +kernel) (by decide +kernel),
          by decide, by decide⟩
      names := by decide
      name_ne := by decide
      trim_name := by decide +kernel
      scopes := by
        have hmill : mill.toScopeDescription.IsWritable catalog known :=
          ⟨by decide, by simpa [mill] using hpool _ _ (by decide +kernel) (by decide +kernel),
            by decide, by decide⟩
        have hfarm : farm.toScopeDescription.IsWritable catalog known :=
          ⟨by decide, by simpa [farm] using hpool _ _ (by decide +kernel) (by decide +kernel),
            by decide, by decide⟩
        simpa [description] using ⟨hmill, hfarm⟩
      distinct := by decide
      relations := by decide +kernel
      targets := by decide +kernel }
  have hwritten : description.IsWrittenAs catalog contents := by
    refine ⟨[.world "" [.setting .ticks 5, .rules [reap]],
      .agent "mill" [.relation "supplier" "farm", .rules [sow, reap],
        .pool ⟨grain, none, -2⟩, .rules [sow], .relation "self" "mill"],
      .world "at large" [.pool ⟨grain, some 0, 3⟩],
      .agent "farm" [.pool ⟨grain, some 9, 12⟩]], ⟨?_, rfl, rfl, rfl⟩, ?_⟩
    · intro setting
      cases setting <;> rfl
    · have hname : Name.trim "" = "" ∧ Name.trim "at large" = "at large" := by decide +kernel
      have hword : ∀ word ∈ ["Supplier", "farm", "self", "mill", "Unlimited"],
          Text.IsWord word.toList := by decide
      have hsow : Text.IsWord sow.name.toList := by decide
      have hreap : Text.IsWord reap.name.toList := by decide
      have hgrain := hfind "grain" (by decide)
      have hGrain := hfind "GRAIN" (by decide)
      refine .cons (.world hname.1 (by simp) ?_) (.cons (.agent (by simp) ?_)
        (.cons (.world hname.2 (by simp) ?_) (.cons (.agent (by simp) ?_) .nil)))
      · exact .cons (.setting (by decide +kernel))
          (.cons (.rules (by simp) (by simpa using hreap)) .nil)
      · exact .cons (.relation (hword _ (by simp)) hfold.2.1 (hword _ (by simp)))
          (.cons (.rules (by simp) (by simpa using ⟨hsow, hreap⟩))
          (.cons (.pool hGrain.1 hGrain.2 (.unlimited (hword _ (by simp)) hfold.1)
            (by decide +kernel))
          (.cons (.rules (by simp) (by simpa using hsow))
          (.cons (.relation (hword _ (by simp)) hfold.2.2 (hword _ (by simp))) .nil))))
      · exact .cons (.pool hgrain.1 hgrain.2 (.limited (by decide +kernel))
          (by decide +kernel)) .nil
      · exact .cons (.pool hgrain.1 hgrain.2 (.limited (by decide +kernel))
          (by decide +kernel)) .nil
  exact ⟨hknown, hdescription, hwritten, by decide +kernel,
    (Scenario.parse_restores catalog known description hknown hdescription).2 contents hwritten⟩

end TickEconomy
