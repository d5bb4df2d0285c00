import TickEconomy.Proofs.BrokenBatch
import TickEconomy.Proofs.Footprint

/-!
# What the turn of an agent leaves alone

In the rules of an agent a relation means the pools of some owner: a declared relation those of the
other agent, also when it is called `self` or `global`, and otherwise these two the agent's own and
those of the world (`Agent.Means`). What the agent may change are the pools that inputs, outputs and
sets of its rules and of their fallbacks mean (`Agent.MayChange`), and what its own schedule holds
of these rules. `Agent.Frame` says of two simulations that nothing else differs.

The frame is kept by the batch of the agent whatever becomes of it (`Agent.frame_batch`): pools
change by the movements of rounds only, an abandoned round puts back what it took, and the schedule
remembers no more than the rules that were evaluated. `Simulation.step_frames_agent` says so of the
turn that the agent has at a tick.
-/

set_option autoImplicit false
set_option relaxedAutoImplicit false

namespace TickEconomy

/-! ### Whose pools an agent means -/

/-- In the rules of the agent the relation means the pools of the owner. -/
inductive Agent.Means (agent : Agent) : String → Owner → Prop
  /-- A declared relation means the pools of the other agent, whatever it is called. -/
  | declared {relation other : String} (h : (relation, other) ∈ agent.relations.entries) :
      agent.Means relation (.agent other)
  | own (h : selfRelation ∉ agent.relations.keys) : agent.Means selfRelation agent.owner
  | world (h : globalRelation ∉ agent.relations.keys) : agent.Means globalRelation .world

/-- A relation that has an owner among declared relations and what surrounds them is declared, or it
has the owner in the surroundings. -/
theorem Context.get?_relate {context : Context} {relations : Table String String}
    {relation : String} {owner : Owner}
    (h : (context.relate relations).get? relation = some owner) :
    (∃ other, (relation, other) ∈ relations.entries ∧ owner = .agent other) ∨
      relation ∉ relations.keys ∧ context.get? relation = some owner := by
  obtain ⟨entries⟩ := relations
  simp only [Context.relate, Table.keys] at h ⊢
  induction entries generalizing context with
  | nil => exact Or.inr ⟨List.not_mem_nil, h⟩
  | cons entry later ih =>
    obtain ⟨other, hother, howner⟩ | ⟨hlater, hput⟩ := ih h
    · exact Or.inl ⟨other, List.mem_cons_of_mem entry hother, howner⟩
    · rw [Table.get?_put] at hput
      split_ifs at hput with hentry
      · refine Or.inl ⟨entry.2, ?_, (Option.some.inj hput).symm⟩
        rw [← hentry]
        exact List.mem_cons_self
      · refine Or.inr ⟨?_, hput⟩
        rw [List.map_cons, List.mem_cons, not_or]
        exact ⟨fun hsame ↦ hentry hsame.symm, hlater⟩

/-- The context of an agent's rules gives a relation the owner that the agent means by it. -/
theorem Agent.means_of_get?_context {agent : Agent} {relation : String} {owner : Owner}
    (h : (agent.context true).get? relation = some owner) : agent.Means relation owner := by
  obtain ⟨other, hother, rfl⟩ | ⟨hundeclared, hown⟩ := Context.get?_relate h
  · exact .declared hother
  · rw [if_pos rfl, Table.get?_put, Table.get?_put] at hown
    split_ifs at hown with hglobal hself
    · obtain rfl := Option.some.inj hown
      subst hglobal
      exact .world hundeclared
    · obtain rfl := Option.some.inj hown
      subst hself
      exact .own hundeclared
    · cases hown

/-! ### The frame of an agent -/

/-- An input, an output or a set of a rule of the agent, or of a fallback of one, means the pool
with the key. -/
def Agent.MayChange (agent : Agent) (key : Owner × Nat) : Prop :=
  ∃ rule ∈ agent.rules, ∃ body ∈ rule.bodies,
    ∃ specifier ∈ body.inputs ++ body.outputs ++ body.sets,
      agent.Means specifier.relation key.1 ∧ specifier.resource.handle = key.2

/-- From one simulation to the other nothing changes but what the rules of the agent may change. The
pools are the same ones in the same order with the same capacities, and a pool holds another
quantity only if some rule moves it. The schedules of all others are the same, and that of the agent
differs only for its rules and their fallbacks. -/
structure Agent.Frame (agent : Agent) (before after : Simulation) : Prop where
  settings : after.settings = before.settings
  worldRules : after.worldRules = before.worldRules
  agents : after.agents = before.agents
  tick : after.tick = before.tick
  ledger : before.ledger.AgreeOn (fun key ↦ ¬ agent.MayChange key) after.ledger
  absent : ∀ owner resource, before.ledger.pool? owner resource = none →
    after.ledger.pool? owner resource = none
  schedules : ∀ owner, owner ≠ agent.owner →
    after.schedules.get? owner = before.schedules.get? owner
  lastRuns : ∀ handle, (∀ rule ∈ agent.rules, ∀ body ∈ rule.bodies, body.handle ≠ handle) →
    (after.scheduleOf agent.owner).lastRun? handle =
      (before.scheduleOf agent.owner).lastRun? handle

/-- What the rules of the agent write in their context is what the agent may change. -/
theorem Agent.mayChange_of_mem_writtenKeys {agent : Agent} {key : Owner × Nat}
    (h : key ∈ agent.scope.writtenKeys) : agent.MayChange key := by
  obtain ⟨rule, hrule, hbodies⟩ := List.mem_flatMap.1 h
  obtain ⟨body, hbody, hkeys⟩ := List.mem_flatMap.1 hbodies
  obtain ⟨specifier, hspecifier, hkey⟩ := List.mem_filterMap.1 hkeys
  obtain ⟨owner, howner, rfl⟩ := Option.map_eq_some_iff.1 hkey
  exact ⟨rule, hrule, body, hbody, specifier, hspecifier, means_of_get?_context howner, rfl⟩

/-- Of ledgers that agree, whatever on, one has no pool where the other has none. -/
theorem Ledger.AgreeOn.pool?_eq_none {keys : Owner × Nat → Prop} {first last : Ledger}
    (h : first.AgreeOn keys last) {owner : Owner} {resource : Resource}
    (habsent : first.pool? owner resource = none) : last.pool? owner resource = none := by
  refine List.find?_eq_none.2 fun pool hpool ↦ ?_
  obtain ⟨before, hbefore, hagree⟩ := exists_of_forall₂_of_mem h hpool
  rw [hagree.isOf_eq]
  exact List.find?_eq_none.1 habsent before hbefore

/-! ### Which rules are evaluated -/

/-- An attempt evaluates no rules but those of the chain. -/
theorem exists_body_of_evaluated_attemptInTurn {context : Context} {tick : Int}
    {schedule : Schedule} {ledger : Ledger} {body : RuleBody} {fallbacks : List RuleBody}
    {handle : Nat} (h : handle ∈ evaluatedHandles
      (attemptInTurn context tick schedule ledger body fallbacks).journal) :
    ∃ link ∈ body :: fallbacks, link.handle = handle := by
  have hown : handle ∈ [body.handle] → ∃ link ∈ body :: fallbacks, link.handle = handle :=
    fun hmem ↦ ⟨body, List.mem_cons_self, (List.mem_singleton.1 hmem).symm⟩
  induction fallbacks generalizing body ledger with
  | nil =>
    rw [attemptInTurn] at h
    split_ifs at h with hdue
    · rw [RuleBody.attemptOfRounds, evaluatedHandles_evaluationJournal] at h
      exact hown h
    · cases h
  | cons fallback later ih =>
    simp only [attemptInTurn] at h
    split_ifs at h with hdue hblocked
    · rw [evaluatedHandles_attemptOfFallback, List.mem_cons] at h
      rcases h with hbody | hfallback
      · exact hown (List.mem_singleton.2 hbody)
      · obtain ⟨link, hlink, hhandle⟩ := ih hfallback fun hmem ↦
          ⟨fallback, List.mem_cons_self, (List.mem_singleton.1 hmem).symm⟩
        exact ⟨link, List.mem_cons_of_mem body hlink, hhandle⟩
    · rw [RuleBody.attemptOfRounds, evaluatedHandles_evaluationJournal] at h
      exact hown h
    · cases h

/-- A batch evaluates no rules but those of the list and their fallbacks. -/
theorem exists_body_of_evaluated_runBatch {context : Context} {tick : Int} {schedule : Schedule}
    {ledger : Ledger} {rules : List Rule} {handle : Nat}
    (h : handle ∈ evaluatedHandles (runBatch context tick schedule ledger rules).journal) :
    ∃ rule ∈ rules, ∃ body ∈ rule.bodies, body.handle = handle := by
  induction rules generalizing schedule ledger with
  | nil => cases h
  | cons rule later ih =>
    have hother : (∃ other ∈ later, ∃ body ∈ other.bodies, body.handle = handle) →
        ∃ other ∈ rule :: later, ∃ body ∈ other.bodies, body.handle = handle :=
      fun ⟨other, hmem, hbody⟩ ↦ ⟨other, List.mem_cons_of_mem rule hmem, hbody⟩
    simp only [runBatch] at h
    split_ifs at h with hperiod
    · exact hother (ih h)
    · split at h
      · exact ⟨rule, List.mem_cons_self, exists_body_of_evaluated_attemptInTurn h⟩
      · rw [evaluatedHandles_append, List.mem_append] at h
        rcases h with hattempt | hbatch
        · exact ⟨rule, List.mem_cons_self, exists_body_of_evaluated_attemptInTurn hattempt⟩
        · exact hother (ih hbatch)

/-! ### Turns -/

/-- The batch of an agent keeps to the frame of the agent, whether it is broken off or not. -/
theorem Agent.frame_batch (agent : Agent) (simulation : Simulation) :
    agent.Frame simulation (simulation.afterBatch agent.scope (simulation.batch agent.scope)) := by
  have hagree : simulation.ledger.AgreeOn (fun key ↦ ¬ agent.MayChange key)
      (simulation.batch agent.scope).ledger :=
    (agent.scope.agreeOn_runBatch _ _ simulation.ledger).mono fun key hkey hwritten ↦
      hkey (mayChange_of_mem_writtenKeys hwritten)
  refine ⟨rfl, rfl, rfl, rfl, hagree, fun owner resource ↦ hagree.pool?_eq_none, ?_, ?_⟩
  · intro owner howner
    exact (Table.get?_put _ _ _ _).trans (if_neg fun hsame ↦ howner hsame.symm)
  · intro handle hhandle
    have hremembers := remembers_runBatch agent.scope.context simulation.tick
      (simulation.scheduleOf agent.owner) simulation.ledger agent.scope.rules handle
    have howner : agent.scope.owner = agent.owner := rfl
    rw [Simulation.scheduleOf_afterBatch, if_pos howner]
    refine hremembers.trans (if_neg fun hevaluated ↦ ?_)
    obtain ⟨rule, hrule, body, hbody, hsame⟩ := exists_body_of_evaluated_runBatch hevaluated
    exact hhandle rule hrule body hbody hsame

namespace Simulation

/-- Turns one after the other are the first of them and then the others. -/
theorem simulation_runScopes_append (simulation : Simulation) (earlier later : List Scope) :
    (simulation.runScopes (earlier ++ later)).simulation =
      ((simulation.runScopes earlier).simulation.runScopes later).simulation := by
  induction earlier generalizing simulation with
  | nil => rfl
  | cons scope earlier ih =>
    rw [List.cons_append, simulation_runScopes_cons, simulation_runScopes_cons, ih]

/-- At a tick every agent has its turn after the world and the agents before it, and what the turns
behind it start from differs only by what the rules of the agent may change. -/
theorem step_frames_agent (simulation : Simulation) {earlier later : List Agent} {agent : Agent}
    (hagents : simulation.agents = earlier ++ agent :: later) :
    let begun := { simulation with tick := simulation.tick + 1 }
    let before :=
      (begun.runScopes (simulation.worldScope :: earlier.map Agent.scope)).simulation
    let after := before.afterBatch agent.scope (before.batch agent.scope)
    simulation.step.simulation = (after.runScopes (later.map Agent.scope)).simulation ∧
      agent.Frame before after := by
  intro begun before after
  have hscopes : begun.scopes = (simulation.worldScope :: earlier.map Agent.scope) ++
      agent.scope :: later.map Agent.scope := by
    change simulation.worldScope :: simulation.agents.map Agent.scope = _
    rw [hagents, List.map_append, List.map_cons, List.cons_append]
  refine ⟨?_, agent.frame_batch before⟩
  rw [step, hscopes, simulation_runScopes_append, simulation_runScopes_cons]

/-- To the miller `self` is the barn, so what it stores leaves its own pool alone, and there is no
pool for the iron that it gives to the world. Its batch is broken off at a market that is nowhere to
be found. -/
theorem step_frames_agent_miller :
    let grain : Resource := { handle := 1, key := "grain", singular := "grain", plural := "grain" }
    let iron : Resource := { handle := 2, key := "iron", singular := "iron", plural := "iron" }
    let part (relation : String) (resource : Resource) (quantity : Int) : Specifier :=
      { relation := relation, resource := resource, quantity := quantity }
    let store : Rule :=
      { handle := 3, name := "store", outputs := [part "self" grain 3, part "global" iron 1] }
    let trade : Rule :=
      { handle := 4, name := "trade", inputs := [part "self" grain 1]
        outputs := [part "market" grain 1] }
    let miller : Agent :=
      { name := "miller", rules := [store, trade]
        relations := { entries := [("self", "barn")] } }
    let barn : Agent := { name := "barn", rules := [store] }
    let pool (owner : Owner) (quantity : Int) : Pool :=
      { owner := owner, resource := grain, quantity := quantity, capacity := 9 }
    let simulation : Simulation :=
      { agents := [barn, miller]
        ledger := { pools := [pool .world 5, pool miller.owner 7, pool barn.owner 0] } }
    let before := ({ simulation with tick := 1 }.runScopes
      [simulation.worldScope, barn.scope]).simulation
    simulation.agents = [barn] ++ miller :: [] ∧
      before.ledger.pools = [pool .world 5, pool miller.owner 7, pool barn.owner 3] ∧
      simulation.step.simulation.ledger.pools =
        [pool .world 5, pool miller.owner 7, pool barn.owner 6] ∧
      simulation.step.failures = 1 ∧
      miller.Frame before (before.afterBatch miller.scope (before.batch miller.scope)) := by
  intro grain iron part store trade miller barn pool simulation before
  have hagents : simulation.agents = [barn] ++ miller :: [] := rfl
  exact ⟨hagents, by decide, by decide, by decide, (simulation.step_frames_agent hagents).2⟩

end Simulation

end TickEconomy
