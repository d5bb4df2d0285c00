import TickEconomy.Proofs.JoinedTexts
import TickEconomy.Proofs.WrittenScenario

/-!
# What a scenario text says

A scenario text is told by what its blocks say. A directive is a clause about the world or about an
agent, which depends on its words and on nothing else (`ScopeClause.ofWorld?`,
`ScopeClause.ofAgent?`), and a block is a part (`ScenarioPart.ofBlock?`). A text is accepted when
all its blocks are parts, no two of them about one agent, and every relation is to an agent that one
of them is about (`ScenarioPart.FitTogether`); its scenario is the one that the parts describe
(`Scenario.ofParts`). `Scenario.parse_eq_ok_iff` says this.

The text is read from draft to draft. Apart from the line numbers of relations, which are there for
errors only (`ScenarioDraft.unnumbered`), each step puts what a clause says into the draft before
it, whatever that is, so all steps together put in what all clauses say (`view_foldlM`). Whether an
agent is new does depend on the draft, and is what two parts may disagree in
(`ScenarioDraft.view_foldlM_addBlock_eq_some_iff`).
-/

set_option autoImplicit false
set_option relaxedAutoImplicit false

namespace TickEconomy

/-! ### What a directive says -/

/-- The count that a word stands for. -/
def Text.count? (word : String) : Option Nat :=
  (Text.readInteger? word.toList).bind Int.toNat?

/-- The capacity that a word stands for. -/
def PoolDescription.capacity? (word : String) : Option (Option Nat) :=
  if Name.fold word = "unlimited" then some none else (Text.count? word).map some

/-- The pool that the arguments of a directive describe. -/
def PoolDescription.ofArguments? (catalog : Catalog) : List String → Option PoolDescription
  | [resource, capacity, quantity] => do
    let found ← catalog.find? resource
    let most ← capacity? capacity
    let held ← Text.readInteger? quantity.toList
    return { resource := found, capacity := most, quantity := held }
  | _ => none

/-- The rules that the arguments of a directive name. -/
def Rule.ofArguments? (known : List Rule) (arguments : List String) : Option (List Rule) :=
  if arguments.isEmpty then none
  else arguments.mapM fun argument ↦ known.reverse.find? fun rule ↦ rule.name = argument

/-- The number that the arguments of a directive give to a setting. -/
def Setting.ofArguments? : List String → Option Nat
  | [argument] => Text.count? argument
  | _ => none

namespace ScopeClause

variable (catalog : Catalog) (known : List Rule)

/-- The clause that a directive about the world is. -/
def ofWorld? (directive : Directive) : Option ScopeClause :=
  match directive.name with
  | "ticks" => (Setting.ofArguments? directive.arguments).map (.setting .ticks)
  | "report_every" => (Setting.ofArguments? directive.arguments).map (.setting .reportEvery)
  | "snapshot_every" => (Setting.ofArguments? directive.arguments).map (.setting .snapshotEvery)
  | "pool" => (PoolDescription.ofArguments? catalog directive.arguments).map .pool
  | "rules" => (Rule.ofArguments? known directive.arguments).map .rules
  | _ => none

/-- The clause that a directive about an agent is. -/
def ofAgent? (directive : Directive) : Option ScopeClause :=
  match directive.name with
  | "pool" => (PoolDescription.ofArguments? catalog directive.arguments).map .pool
  | "rules" => (Rule.ofArguments? known directive.arguments).map .rules
  | "relation" =>
    match directive.arguments with
    | [word, target] => some (.relation (Name.fold word) target)
    | _ => none
  | _ => none

end ScopeClause

namespace Directive

variable (directive : Directive)

/-- The capacity that an argument stands for is told by its word. -/
theorem toOption_capacity (argument : String) (resource : Resource) (quantity : Int) :
    (directive.capacity argument).toOption =
      (PoolDescription.capacity? argument).map fun capacity ↦
        PoolDescription.most { resource, capacity, quantity } := by
  unfold capacity PoolDescription.capacity?
  split_ifs
  · rfl
  · rw [toOption_map, toOption_count, Option.map_map, Text.count?]
    rfl

/-- The pool that a directive describes is told by its arguments. -/
theorem toOption_pool (catalog : Catalog) (owner : Owner) :
    (directive.pool catalog owner).toOption =
      (PoolDescription.ofArguments? catalog directive.arguments).map
        (PoolDescription.pool owner) := by
  unfold pool
  generalize directive.arguments = arguments
  match arguments with
  | [] | [_] | [_, _] | _ :: _ :: _ :: _ :: _ => rfl
  | [resource, capacity, quantity] =>
    simp only [toOption_bind, toOption_resource, toOption_integer, PoolDescription.ofArguments?]
    cases catalog.find? resource with
    | none => rfl
    | some found =>
      cases hheld : Text.readInteger? quantity.toList with
      | none => cases PoolDescription.capacity? capacity <;> simp
      | some held =>
        rw [Option.bind_some, directive.toOption_capacity capacity found held]
        cases PoolDescription.capacity? capacity <;> rfl

/-- The rules that a directive names are told by its arguments. -/
theorem toOption_rules (known : List Rule) :
    (directive.rules known).toOption = Rule.ofArguments? known directive.arguments := by
  have hrule : ∀ argument, (directive.rule known argument).toOption =
      known.reverse.find? fun rule ↦ rule.name = argument := by
    intro argument
    unfold rule
    cases known.reverse.find? fun rule ↦ rule.name = argument <;> rfl
  unfold rules Rule.ofArguments?
  split_ifs
  · rfl
  · simp only [toOption_mapM, hrule]

/-- The number that a directive gives to a setting is told by its arguments. -/
theorem toOption_read_settings {setting : Setting} (hname : directive.name = setting.word)
    (settings : Settings) :
    (settings.read directive).toOption =
      (Setting.ofArguments? directive.arguments).map fun number ↦
        setting.assign settings number := by
  unfold Settings.read
  generalize directive.arguments = arguments
  match arguments with
  | [] | _ :: _ :: _ => rfl
  | [argument] =>
    rw [toOption_bind, toOption_count, ← Text.count?, Setting.ofArguments?]
    cases Text.count? argument with
    | none => rfl
    | some number =>
      rw [hname]
      cases setting <;> rfl

end Directive

namespace ScenarioDraft

variable {catalog : Catalog} {known : List Rule}

/-- A directive about the world is read as what its clause says. -/
theorem toOption_readWorld (draft : ScenarioDraft) (directive : Directive) :
    (readWorld catalog known draft directive).toOption =
      (ScopeClause.ofWorld? catalog known directive).map fun clause ↦ draft.sayWorld [clause] := by
  obtain ⟨name, argumentText, arguments, line⟩ := directive
  have hsetting : ∀ setting : Setting,
      (readWorld catalog known draft ⟨setting.word, argumentText, arguments, line⟩).toOption =
        ((Setting.ofArguments? arguments).map (ScopeClause.setting setting)).map fun clause ↦
          draft.sayWorld [clause] := by
    intro setting
    have hread := Directive.toOption_read_settings ⟨setting.word, argumentText, arguments, line⟩ rfl
      draft.scenario.settings
    have hword : readWorld catalog known draft ⟨setting.word, argumentText, arguments, line⟩ = (do
        let settings ←
          draft.scenario.settings.read ⟨setting.word, argumentText, arguments, line⟩
        return { draft with scenario.settings := settings }) := by
      cases setting <;> rfl
    rw [hword, toOption_bind, hread]
    cases Setting.ofArguments? arguments with
    | none => rfl
    | some number => simp [sayWorld, ScopeClause.poolsOf, Except.toOption, pure, Except.pure]
  unfold ScopeClause.ofWorld?
  dsimp only
  split
  · exact hsetting .ticks
  · exact hsetting .reportEvery
  · exact hsetting .snapshotEvery
  · have hread := Directive.toOption_pool ⟨"pool", argumentText, arguments, line⟩ catalog .world
    refine (toOption_bind _ _).trans ?_
    rw [hread]
    cases PoolDescription.ofArguments? catalog arguments with
    | none => rfl
    | some description => simp [sayWorld, ScopeClause.poolsOf, Except.toOption, pure, Except.pure]
  · have hread := Directive.toOption_rules ⟨"rules", argumentText, arguments, line⟩ known
    refine (toOption_bind _ _).trans ?_
    rw [hread]
    cases Rule.ofArguments? known arguments with
    | none => rfl
    | some named => simp [sayWorld, ScopeClause.poolsOf, Except.toOption, pure, Except.pure]
  · unfold readWorld
    dsimp only
    split <;> first | rfl | contradiction

theorem foldl_sayWorld (clauses : List ScopeClause) (draft : ScenarioDraft) :
    clauses.foldl (fun reached clause ↦ reached.sayWorld [clause]) draft =
      draft.sayWorld clauses := by
  induction clauses generalizing draft with
  | nil => simp [sayWorld, ScopeClause.poolsOf]
  | cons clause later ih =>
    rw [List.foldl_cons, ih]
    exact (draft.sayWorld_cons clause later).symm

/-- Directives about the world are read as what their clauses say. -/
theorem toOption_foldlM_readWorld (draft : ScenarioDraft) (directives : List Directive) :
    (directives.foldlM (readWorld catalog known) draft).toOption =
      (directives.mapM (ScopeClause.ofWorld? catalog known)).map draft.sayWorld := by
  have hstep : ∀ (reached : ScenarioDraft) (directive : Directive),
      (readWorld catalog known reached directive).toOption.map id =
        (ScopeClause.ofWorld? catalog known directive).map fun clause ↦
          reached.sayWorld [clause] := by
    intro reached directive
    rw [Option.map_id]
    exact toOption_readWorld reached directive
  have hread := view_foldlM id (fun reached clause ↦ reached.sayWorld [clause]) hstep directives
    draft
  rw [Option.map_id] at hread
  exact hread.trans (congrArg (Option.map · _) (funext fun clauses ↦ foldl_sayWorld clauses draft))

end ScenarioDraft

/-! ### What a block about an agent says -/

/-- The relation without the number of the line that declares it. -/
def PendingRelation.unnumbered (pending : PendingRelation) : PendingRelation :=
  { pending with line := 0 }

/-- The relation that a declaration leaves to be resolved. -/
def PendingRelation.ofDeclaration (declaration : String × String × String) : PendingRelation where
  agent := declaration.1
  relation := declaration.2.1
  target := declaration.2.2
  line := 0

/-- The draft without the numbers of lines. -/
def ScenarioDraft.unnumbered (draft : ScenarioDraft) : ScenarioDraft :=
  { draft with pending := draft.pending.map PendingRelation.unnumbered }

namespace ScenarioDraft

variable {catalog : Catalog} {known : List Rule}

/-- The draft and agent with what clauses say about the agent. -/
def sayOfAgent (state : Agent × ScenarioDraft) (clauses : List ScopeClause) :
    Agent × ScenarioDraft :=
  (state.1.appendRules (clauses.flatMap ScopeClause.named),
    state.2.sayAgent state.1.owner clauses
      ((clauses.flatMap ScopeClause.relations).map fun relation ↦
        .ofDeclaration (state.1.name, relation)))

theorem sayOfAgent_cons (state : Agent × ScenarioDraft) (clause : ScopeClause)
    (later : List ScopeClause) :
    sayOfAgent state (clause :: later) = sayOfAgent (sayOfAgent state [clause]) later := by
  simp [sayOfAgent, sayAgent, ScopeClause.poolsOf, Agent.appendRules, Agent.owner]

/-- A directive about an agent is read as what its clause says. -/
theorem toOption_readAgent (state : Agent × ScenarioDraft) (directive : Directive) :
    (readAgent catalog known state directive).toOption.map (Prod.map id unnumbered) =
      (ScopeClause.ofAgent? catalog known directive).map fun clause ↦
        sayOfAgent (Prod.map id unnumbered state) [clause] := by
  obtain ⟨agent, draft⟩ := state
  obtain ⟨name, argumentText, arguments, line⟩ := directive
  unfold ScopeClause.ofAgent?
  dsimp only
  split
  · have hread := Directive.toOption_pool ⟨"pool", argumentText, arguments, line⟩ catalog
      agent.owner
    refine (congrArg (Option.map _) (toOption_bind _ _)).trans ?_
    rw [hread]
    cases PoolDescription.ofArguments? catalog arguments with
    | none => rfl
    | some description =>
      simp [sayOfAgent, sayAgent, unnumbered, ScopeClause.poolsOf, Except.toOption, pure,
        Except.pure, Agent.appendRules]
  · have hread := Directive.toOption_rules ⟨"rules", argumentText, arguments, line⟩ known
    refine (congrArg (Option.map _) (toOption_bind _ _)).trans ?_
    rw [hread]
    cases Rule.ofArguments? known arguments with
    | none => rfl
    | some named =>
      simp [sayOfAgent, sayAgent, unnumbered, ScopeClause.poolsOf, Except.toOption, pure,
        Except.pure]
  · rcases arguments with _ | ⟨word, _ | ⟨target, _ | ⟨third, rest⟩⟩⟩
    · rfl
    · rfl
    · simp [readAgent, sayOfAgent, sayAgent, unnumbered, ScopeClause.poolsOf, Except.toOption,
        Agent.appendRules, PendingRelation.unnumbered, PendingRelation.ofDeclaration]
    · rfl
  · unfold readAgent
    dsimp only
    split <;> first | rfl | contradiction

theorem foldl_sayOfAgent (clauses : List ScopeClause) (state : Agent × ScenarioDraft) :
    clauses.foldl (fun reached clause ↦ sayOfAgent reached [clause]) state =
      sayOfAgent state clauses := by
  induction clauses generalizing state with
  | nil => simp [sayOfAgent, sayAgent, ScopeClause.poolsOf, Agent.appendRules]
  | cons clause later ih =>
    rw [List.foldl_cons, ih]
    exact (sayOfAgent_cons state clause later).symm

/-- Directives about an agent are read as what their clauses say. -/
theorem toOption_foldlM_readAgent (state : Agent × ScenarioDraft) (directives : List Directive) :
    (directives.foldlM (readAgent catalog known) state).toOption.map (Prod.map id unnumbered) =
      (directives.mapM (ScopeClause.ofAgent? catalog known)).map
        (sayOfAgent (Prod.map id unnumbered state)) := by
  have hstep : ∀ (reached : Agent × ScenarioDraft) (directive : Directive),
      (readAgent catalog known reached directive).toOption.map (Prod.map id unnumbered) =
        (ScopeClause.ofAgent? catalog known directive).map fun clause ↦
          sayOfAgent (Prod.map id unnumbered reached) [clause] := toOption_readAgent
  have hread := view_foldlM (Prod.map id unnumbered)
    (fun reached clause ↦ sayOfAgent reached [clause]) hstep directives state
  exact hread.trans (congrArg (Option.map · _) (funext fun clauses ↦ foldl_sayOfAgent clauses _))

end ScenarioDraft

/-! ### What a block says -/

/-- The part that a block is. -/
def ScenarioPart.ofBlock? (catalog : Catalog) (known : List Rule) (block : Block) :
    Option ScenarioPart :=
  if block.kind = "world" then
    (block.directives.mapM (ScopeClause.ofWorld? catalog known)).map (.world block.name)
  else if block.kind = "agent" then
    if block.name = "" then none
    else (block.directives.mapM (ScopeClause.ofAgent? catalog known)).map (.agent block.name)
  else none

/-- The relations that parts declare, left to be resolved. -/
def ScenarioPart.pending (parts : List ScenarioPart) : List PendingRelation :=
  ((parts.flatMap agents).flatMap AgentDescription.declarations).map .ofDeclaration

namespace ScenarioDraft

variable {catalog : Catalog} {known : List Rule}

/-- The draft with what the parts say, relations included. -/
def sayAll (draft : ScenarioDraft) (parts : List ScenarioPart) : ScenarioDraft :=
  draft.sayParts parts (ScenarioPart.pending parts)

theorem sayAll_cons (draft : ScenarioDraft) (part : ScenarioPart) (later : List ScenarioPart) :
    draft.sayAll (part :: later) = (draft.sayAll [part]).sayAll later := by
  have hpending : ScenarioPart.pending (part :: later) =
      ScenarioPart.pending [part] ++ ScenarioPart.pending later := by
    simp [ScenarioPart.pending]
  rw [sayAll, hpending, sayParts_cons]
  rfl

theorem sayAll_world (draft : ScenarioDraft) (name : String) (clauses : List ScopeClause) :
    draft.unnumbered.sayAll [.world name clauses] = (draft.sayWorld clauses).unnumbered := by
  simp [sayAll, sayParts, sayWorld, unnumbered, ScenarioPart.pending]

/-- The draft with the agent of a block behind its agents. -/
def withAgent (state : Agent × ScenarioDraft) : ScenarioDraft :=
  { state.2 with scenario.agents := state.2.scenario.agents ++ [state.1] }

theorem sayAll_agent (draft : ScenarioDraft) (name : String) (clauses : List ScopeClause) :
    draft.sayAll [.agent name clauses] =
      withAgent (sayOfAgent ({ name := name }, draft) clauses) := by
  simp [sayAll, sayParts, withAgent, sayOfAgent, sayAgent, ScenarioPart.pending,
    AgentDescription.ofClauses, AgentDescription.unrelated, AgentDescription.declarations,
    Agent.appendRules, Agent.owner]

/-- A block about a new agent is read as what its clauses say. -/
theorem toOption_addAgent {draft : ScenarioDraft} {block : Block} (hname : block.name ≠ "")
    (hnew : block.name ∉ draft.scenario.agents.map Agent.name) :
    (addAgent catalog known draft block).toOption.map unnumbered =
      (block.directives.mapM (ScopeClause.ofAgent? catalog known)).map fun clauses ↦
        draft.unnumbered.sayAll [.agent block.name clauses] := by
  have hread : (block.directives.foldlM (readAgent catalog known)
      ({ name := block.name }, draft)).toOption.map (Prod.map id unnumbered) =
      (block.directives.mapM (ScopeClause.ofAgent? catalog known)).map
        (sayOfAgent ({ name := block.name }, draft.unnumbered)) := toOption_foldlM_readAgent _ _
  have hadd : addAgent catalog known draft block = withAgent <$>
      block.directives.foldlM (readAgent catalog known) ({ name := block.name }, draft) := by
    rw [addAgent, if_neg hname, if_neg hnew, map_eq_pure_bind]
    rfl
  have hview : unnumbered ∘ withAgent = withAgent ∘ Prod.map id unnumbered := rfl
  rw [hadd, toOption_map, Option.map_map, hview, ← Option.map_map, hread, Option.map_map]
  exact congrArg (Option.map · _) (funext fun clauses ↦ (sayAll_agent _ _ _).symm)

/-- A block is read as what its part says, unless it is about an agent that there is already. -/
theorem view_addBlock_eq_some_iff {draft said : ScenarioDraft} {block : Block} :
    (addBlock catalog known draft block).toOption.map unnumbered = some said ↔
      ∃ part, ScenarioPart.ofBlock? catalog known block = some part ∧
        (∀ agent ∈ part.agents, agent.name ∉ draft.scenario.agents.map Agent.name) ∧
        draft.unnumbered.sayAll [part] = said := by
  unfold addBlock ScenarioPart.ofBlock?
  split_ifs with hworld hagent hname
  · rw [toOption_foldlM_readWorld, Option.map_map, Option.map_eq_some_iff]
    simp only [Option.map_eq_some_iff, Function.comp_apply, ← sayAll_world _ block.name]
    constructor
    · rintro ⟨clauses, hclauses, hsaid⟩
      exact ⟨_, ⟨clauses, hclauses, rfl⟩, by simp, hsaid⟩
    · rintro ⟨part, ⟨clauses, hclauses, rfl⟩, -, hsaid⟩
      exact ⟨clauses, hclauses, hsaid⟩
  · rw [addAgent, if_pos hname]
    simp [Except.toOption]
  · by_cases hnew : block.name ∈ draft.scenario.agents.map Agent.name
    · have hduplicate : (addAgent catalog known draft block).toOption = none := by
        rw [addAgent, if_neg hname, if_pos hnew]
        rfl
      rw [hduplicate]
      simp only [Option.map_none, reduceCtorEq, false_iff, not_exists, not_and,
        Option.map_eq_some_iff]
      rintro part ⟨clauses, -, rfl⟩ hfresh
      exact absurd hnew (hfresh _ List.mem_cons_self)
    · rw [toOption_addAgent hname hnew, Option.map_eq_some_iff]
      simp only [Option.map_eq_some_iff]
      constructor
      · rintro ⟨clauses, hclauses, hsaid⟩
        exact ⟨_, ⟨clauses, hclauses, rfl⟩, List.forall_mem_singleton.2 hnew, hsaid⟩
      · rintro ⟨part, ⟨clauses, hclauses, rfl⟩, -, hsaid⟩
        exact ⟨clauses, hclauses, hsaid⟩
  · simp [Except.toOption]

theorem names_sayAll (draft : ScenarioDraft) (parts : List ScenarioPart) :
    (draft.sayAll parts).scenario.agents.map Agent.name =
      draft.scenario.agents.map Agent.name ++
        (parts.flatMap ScenarioPart.agents).map AgentDescription.name := by
  simp [sayAll, sayParts, AgentDescription.unrelated, Function.comp_def]

/-- Blocks are read as what their parts say, unless two are about one agent. -/
theorem view_foldlM_addBlock_eq_some_iff {draft said : ScenarioDraft} {blocks : List Block}
    (hdraft : (draft.scenario.agents.map Agent.name).Nodup) :
    (blocks.foldlM (addBlock catalog known) draft).toOption.map unnumbered = some said ↔
      ∃ parts, blocks.mapM (ScenarioPart.ofBlock? catalog known) = some parts ∧
        (draft.scenario.agents.map Agent.name ++
          (parts.flatMap ScenarioPart.agents).map AgentDescription.name).Nodup ∧
        draft.unnumbered.sayAll parts = said := by
  induction blocks generalizing draft with
  | nil =>
    have hnothing : draft.unnumbered.sayAll [] = draft.unnumbered := by
      simp [sayAll, sayParts, ScenarioPart.pending]
    simp [Except.toOption, pure, Except.pure, hdraft, hnothing]
  | cons block later ih =>
    -- Of a draft a later block needs only the names of its agents, and these grow by those of the
    -- part, so that no name is lost when the numbers of lines are forgotten.
    have hnames : ∀ (next : ScenarioDraft) (part : ScenarioPart),
        draft.unnumbered.sayAll [part] = next.unnumbered →
          next.scenario.agents.map Agent.name = draft.scenario.agents.map Agent.name ++
            part.agents.map AgentDescription.name := by
      intro next part hsaid
      have hpart := names_sayAll draft.unnumbered [part]
      rwa [hsaid, List.flatMap_singleton] at hpart
    rw [List.foldlM_cons, toOption_bind, Option.map_bind, Option.bind_eq_some_iff]
    simp only [List.mapM_cons, Option.bind_eq_bind, Option.bind_eq_some_iff, Option.pure_def,
      Option.some.injEq]
    constructor
    · rintro ⟨next, hnext, hlater⟩
      obtain ⟨part, hpart, hnew, hsaid⟩ := view_addBlock_eq_some_iff.1
        (congrArg (Option.map unnumbered) hnext)
      have hnodup : (next.scenario.agents.map Agent.name).Nodup := by
        rw [hnames next part hsaid, List.nodup_append']
        refine ⟨hdraft, ?_, ?_⟩
        · cases part <;> simp
        · intro name hname hagent
          obtain ⟨agent, hmem, rfl⟩ := List.mem_map.1 hagent
          exact hnew agent hmem hname
      obtain ⟨parts, hparts, hdistinct, hall⟩ := (ih hnodup).1 hlater
      refine ⟨part :: parts, ⟨part, hpart, parts, hparts, rfl⟩, ?_, ?_⟩
      · rwa [hnames next part hsaid, List.append_assoc, ← List.map_append,
          ← List.flatMap_cons] at hdistinct
      · rw [sayAll_cons, hsaid, hall]
    · rintro ⟨_, ⟨part, hpart, parts, hparts, rfl⟩, hdistinct, hall⟩
      rw [List.flatMap_cons, List.map_append, ← List.append_assoc] at hdistinct
      have hnew : ∀ agent ∈ part.agents, agent.name ∉ draft.scenario.agents.map Agent.name :=
        fun agent hagent hmem ↦ List.disjoint_of_nodup_append (List.nodup_append.1 hdistinct).1
          hmem (List.mem_map_of_mem hagent)
      obtain ⟨next, hnext, hsaid⟩ := Option.map_eq_some_iff.1
        (view_addBlock_eq_some_iff.2 ⟨part, hpart, hnew, rfl⟩)
      have hnodup : (next.scenario.agents.map Agent.name).Nodup := by
        rw [hnames next part hsaid.symm]
        exact (List.nodup_append.1 hdistinct).1
      refine ⟨next, hnext, (ih hnodup).2 ⟨parts, hparts, ?_, ?_⟩⟩
      · rwa [hnames next part hsaid.symm]
      · rw [hsaid, ← sayAll_cons, hall]

/-- A relation that is resolved is to an agent of the scenario. -/
theorem target_mem_of_foldlM_resolve {declared : List PendingRelation}
    {scenario final : Scenario} (h : declared.foldlM resolve scenario = .ok final) :
    ∀ pending ∈ declared, pending.target ∈ scenario.agents.map Agent.name := by
  induction declared generalizing scenario with
  | nil => exact nofun
  | cons pending later ih =>
    rw [List.foldlM_cons] at h
    obtain ⟨next, hnext, hlater⟩ := bind_eq_ok_iff.1 h
    refine List.forall_mem_cons.2 ⟨?_, names_resolve hnext ▸ ih hlater⟩
    unfold resolve Scenario.agent? at hnext
    split at hnext
    · next other hother =>
      have hsame := List.find?_some hother
      have hname : other.name = pending.target := of_decide_eq_true hsame
      exact List.mem_map.2 ⟨other, List.mem_of_find?_eq_some hother, hname⟩
    · cases hnext

/-- Relations are resolved just when all of them are to agents of the scenario. -/
theorem foldlM_resolve_eq_ok_iff {declared : List PendingRelation} {scenario final : Scenario} :
    declared.foldlM resolve scenario = .ok final ↔
      (∀ pending ∈ declared, pending.target ∈ scenario.agents.map Agent.name) ∧
        { scenario with
          agents := scenario.agents.map
            (Agent.declareAll (declared.map PendingRelation.declaration)) } = final := by
  constructor
  · intro h
    have htargets := target_mem_of_foldlM_resolve h
    exact ⟨htargets, Except.ok.inj ((foldlM_resolve_eq_ok htargets).symm.trans h)⟩
  · rintro ⟨htargets, rfl⟩
    exact foldlM_resolve_eq_ok htargets

end ScenarioDraft

/-! ### What a text says -/

/-- No two parts are about one agent, and all relations are to agents that parts are about. -/
structure ScenarioPart.FitTogether (parts : List ScenarioPart) : Prop where
  names : ((parts.flatMap agents).map AgentDescription.name).Nodup
  targets : ∀ declaration ∈ (parts.flatMap agents).flatMap AgentDescription.declarations,
    declaration.2.2 ∈ (parts.flatMap agents).map AgentDescription.name

/-- The scenario that parts describe: the world as all of them say together, and the agents, each
with the relations that are declared under its name. -/
def Scenario.ofParts (parts : List ScenarioPart) : Scenario where
  settings := (parts.flatMap ScenarioPart.aboutWorld).foldl ScopeClause.applyTo {}
  worldRules := (parts.flatMap ScenarioPart.aboutWorld).flatMap ScopeClause.named
  agents := (parts.flatMap ScenarioPart.agents).map fun description ↦
    description.unrelated.declareAll
      ((parts.flatMap ScenarioPart.agents).flatMap AgentDescription.declarations)
  ledger := (parts.flatMap ScenarioPart.pools).foldl Ledger.setUp {}

/-- A draft that says what parts say is resolved to the scenario of the parts, if there are agents
for all relations. -/
theorem ScenarioDraft.resolveAll_eq_ok_iff {draft : ScenarioDraft} {parts : List ScenarioPart}
    (h : ({} : ScenarioDraft).sayAll parts = draft.unnumbered) {scenario : Scenario} :
    draft.resolveAll = .ok scenario ↔
      (∀ declaration ∈ (parts.flatMap ScenarioPart.agents).flatMap AgentDescription.declarations,
        declaration.2.2 ∈ (parts.flatMap ScenarioPart.agents).map AgentDescription.name) ∧
        Scenario.ofParts parts = scenario := by
  have hscenario : draft.scenario = (({} : ScenarioDraft).sayAll parts).scenario := by
    rw [h]
    rfl
  have hdeclared : draft.pending.map PendingRelation.declaration =
      (parts.flatMap ScenarioPart.agents).flatMap AgentDescription.declarations := by
    have hpending : draft.pending.map PendingRelation.unnumbered = ScenarioPart.pending parts :=
      (congrArg ScenarioDraft.pending h).symm.trans (List.nil_append _)
    calc draft.pending.map PendingRelation.declaration =
        (draft.pending.map PendingRelation.unnumbered).map PendingRelation.declaration := by
          rw [List.map_map]
          rfl
      _ = (parts.flatMap ScenarioPart.agents).flatMap AgentDescription.declarations := by
          rw [hpending, ScenarioPart.pending, List.map_map]
          exact List.map_id _
  have hnames : draft.scenario.agents.map Agent.name =
      (parts.flatMap ScenarioPart.agents).map AgentDescription.name := by
    rw [hscenario, names_sayAll]
    rfl
  have htargets : (∀ pending ∈ draft.pending,
      pending.target ∈ draft.scenario.agents.map Agent.name) ↔
      ∀ declaration ∈ draft.pending.map PendingRelation.declaration,
        declaration.2.2 ∈ (parts.flatMap ScenarioPart.agents).map AgentDescription.name := by
    rw [List.forall_mem_map, hnames]
    rfl
  rw [resolveAll, foldlM_resolve_eq_ok_iff, htargets, hdeclared, hscenario]
  refine and_congr_right fun _ ↦ iff_of_eq (congrArg (· = scenario) ?_)
  simp [sayAll, sayParts, Scenario.ofParts, Function.comp_def]

/-- A text is read as what the parts say that its blocks are, if all blocks are parts and these fit
together. -/
theorem Scenario.parse_eq_ok_iff {catalog : Catalog} {known : List Rule}
    {lines : List (List Char)} {scenario : Scenario} :
    parse catalog known lines = .ok scenario ↔
      (Reading.ofLines lines).fault = none ∧
        ∃ parts, (Reading.ofLines lines).blocks.mapM (ScenarioPart.ofBlock? catalog known) =
          some parts ∧ ScenarioPart.FitTogether parts ∧ ofParts parts = scenario := by
  have hnone : (({} : ScenarioDraft).scenario.agents.map Agent.name).Nodup := List.nodup_nil
  rw [parse, bind_eq_ok_iff]
  simp only [bind_eq_ok_iff, Reading.finish_eq_ok_iff]
  constructor
  · rintro ⟨draft, hdraft, _, ⟨hfault, rfl⟩, hresolved⟩
    have hview := congrArg (fun step ↦ step.toOption.map ScenarioDraft.unnumbered) hdraft
    obtain ⟨parts, hparts, hdistinct, hsaid⟩ :=
      (ScenarioDraft.view_foldlM_addBlock_eq_some_iff hnone).1 hview
    obtain ⟨htargets, hscenario⟩ := (ScenarioDraft.resolveAll_eq_ok_iff hsaid).1 hresolved
    exact ⟨hfault, parts, hparts, ⟨hdistinct, htargets⟩, hscenario⟩
  · rintro ⟨hfault, parts, hparts, hfit, hscenario⟩
    obtain ⟨draft, hdraft, hsaid⟩ := Option.map_eq_some_iff.1
      ((ScenarioDraft.view_foldlM_addBlock_eq_some_iff hnone).2
        ⟨parts, hparts, hfit.names, rfl⟩)
    exact ⟨draft, toOption_eq_some_iff.1 hdraft, draft, ⟨hfault, rfl⟩,
      (ScenarioDraft.resolveAll_eq_ok_iff hsaid.symm).2 ⟨hfit.targets, hscenario⟩⟩

end TickEconomy
