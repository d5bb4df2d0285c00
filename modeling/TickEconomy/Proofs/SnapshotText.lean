import TickEconomy.Proofs.DoubledQuantity
import TickEconomy.Proofs.FiringSchedule
import TickEconomy.Proofs.JsonText
import TickEconomy.Proofs.ResourceText

/-!
# Snapshots lose nothing

A snapshot that was written as a whole is JSON, and it is read back as the snapshot, entry by entry
and in order (`Snapshot.read?_text`). That holds for all names, also where two entries of one object
have the same name. Only a number with too many digits prevents it, and what is written then is no
JSON.

In the simulation of texts no two entries have the same name. A text sets up pools of resources of
the catalog only (`Scenario.holdsOnly_of_parse`), in which no two have one key, and an owner has one
pool of a resource at most. Ticks keep the owners, resources and places of all pools. So the entries
of a snapshot have distinct names, and nothing is lost either when they are filed by name
(`Simulation.read?_snapshot`).
-/

set_option autoImplicit false
set_option relaxedAutoImplicit false

namespace TickEconomy

/-! ### The text of a snapshot -/

/-- What an owner holds, as members of a JSON object. -/
def Json.holdings (holdings : List (String × Int)) : List (String × Json) :=
  holdings.map fun holding ↦ (holding.1, integer holding.2)

/-- What the text of a snapshot stands for. -/
def Snapshot.json (snapshot : Snapshot) : Json :=
  .object
    [("tick", .integer snapshot.tick), ("world", .object (Json.holdings snapshot.world)),
      ("agents", .object (snapshot.agents.map fun agent ↦
        (agent.1, .object (Json.holdings agent.2))))]

namespace Json

/-- What someone holds is written if the quantities have few enough digits. -/
theorem isWrittenAs_jsonHoldings {held : List (String × Int)}
    (h : ∀ holding ∈ held, Text.FitsNumeral holding.2) (indentation : Nat) :
    IsWrittenAs 2 (object (holdings held)) (jsonHoldings indentation held) := by
  refine isWrittenAs_jsonObject ?_ indentation
  simp only [holdings, List.forall₂_map_left_iff, List.forall₂_map_right_iff, List.forall₂_same,
    true_and]
  exact fun holding hholding ↦ isWrittenAs_jsonInteger (h holding hholding)

end Json

/-- A snapshot that was written as a whole is read back. -/
theorem Snapshot.read?_text {snapshot : Snapshot} (h : snapshot.text.isWhole = true) :
    Json.read? snapshot.text.text.toList = some snapshot.json := by
  obtain ⟨htick, hworld, hagents⟩ := forall_mem_numbers.1 (snapshot.isWhole_text_iff.1 h)
  have htickWritten := Json.isWrittenAs_jsonInteger htick
  have hworldWritten := Json.isWrittenAs_jsonHoldings hworld 2
  have hagentsWritten : Json.IsWrittenAs 3
      (.object (snapshot.agents.map fun agent ↦ (agent.1, .object (Json.holdings agent.2))))
      (jsonObject 2 (snapshot.agents.map fun agent ↦ (agent.1, jsonHoldings 4 agent.2))) := by
    refine Json.isWrittenAs_jsonObject ?_ 2
    simp only [List.forall₂_map_left_iff, List.forall₂_map_right_iff, List.forall₂_same, true_and]
    exact fun agent hagent ↦ Json.isWrittenAs_jsonHoldings (hagents agent hagent) 4
  have hwritten : Json.IsWrittenAs 4 snapshot.json snapshot.text :=
    Json.isWrittenAs_jsonObject (.cons ⟨rfl, htickWritten.mono (by decide)⟩
      (.cons ⟨rfl, hworldWritten.mono (by decide)⟩ (.cons ⟨rfl, hagentsWritten⟩ .nil))) 0
  have hvalues := (isWhole_jsonObject 0 _).symm.trans h
  exact Json.read?_of_denotes hwritten.denotes
    (Json.length_lt_length_jsonObject (List.all_eq_true.1 hvalues) 0)

/-! ### Pools of texts -/

/-- The resource that an argument names is in the catalog. -/
theorem Directive.mem_of_resource {directive : Directive} {catalog : Catalog} {argument : String}
    {resource : Resource} (h : directive.resource catalog argument = .ok resource) :
    resource ∈ catalog.resources := by
  unfold Directive.resource at h
  split at h
  · next hfind =>
    cases h
    rcases Option.or_eq_some_iff.1 hfind with hsingular | ⟨-, hkey⟩
    · exact List.mem_of_find?_eq_some hsingular
    · exact List.mem_of_find?_eq_some hkey
  · cases h

/-- The pool that a directive describes holds a resource of the catalog. -/
theorem Directive.mem_of_pool {directive : Directive} {catalog : Catalog} {owner : Owner}
    {pool : Pool} (h : directive.pool catalog owner = .ok pool) :
    pool.resource ∈ catalog.resources := by
  unfold Directive.pool at h
  split at h
  · obtain ⟨found, hfound, h⟩ := bind_eq_ok_iff.1 h
    obtain ⟨most, -, h⟩ := bind_eq_ok_iff.1 h
    obtain ⟨held, -, h⟩ := bind_eq_ok_iff.1 h
    cases h
    exact mem_of_resource hfound
  · cases h

/-- It holds of the ledger without pools, and it is kept when a pool that a directive describes is
set up. -/
structure KeptBySetUp (catalog : Catalog) (holds : Ledger → Prop) : Prop where
  empty : holds {}
  setUp : ∀ (directive : Directive) (owner : Owner) (ledger : Ledger) (pool : Pool),
    directive.pool catalog owner = .ok pool → holds ledger → holds (ledger.setUp pool)

namespace KeptBySetUp

open ScenarioDraft

variable {catalog : Catalog} {rules : List Rule} {holds : Ledger → Prop}

theorem readWorld (hkept : KeptBySetUp catalog holds) {draft next : ScenarioDraft}
    {directive : Directive} (hdraft : holds draft.scenario.ledger)
    (h : draft.readWorld catalog rules directive = .ok next) : holds next.scenario.ledger := by
  unfold ScenarioDraft.readWorld at h
  split at h
  case h_4 =>
    obtain ⟨pool, hpool, h⟩ := bind_eq_ok_iff.1 h
    cases h
    exact hkept.setUp directive _ _ pool hpool hdraft
  all_goals first
    | cases h
    | obtain ⟨read, -, h⟩ := bind_eq_ok_iff.1 h
      cases h
      exact hdraft

theorem readAgent (hkept : KeptBySetUp catalog holds) {state next : Agent × ScenarioDraft}
    {directive : Directive} (hstate : holds state.2.scenario.ledger)
    (h : ScenarioDraft.readAgent catalog rules state directive = .ok next) :
    holds next.2.scenario.ledger := by
  obtain ⟨agent, draft⟩ := state
  simp only [ScenarioDraft.readAgent] at h
  split at h
  · obtain ⟨pool, hpool, h⟩ := bind_eq_ok_iff.1 h
    cases h
    exact hkept.setUp directive _ _ pool hpool hstate
  · obtain ⟨named, -, h⟩ := bind_eq_ok_iff.1 h
    cases h
    exact hstate
  · split at h
    · cases h
      exact hstate
    · cases h
  · cases h

theorem addBlock (hkept : KeptBySetUp catalog holds) {draft next : ScenarioDraft} {block : Block}
    (hdraft : holds draft.scenario.ledger)
    (h : draft.addBlock catalog rules block = .ok next) : holds next.scenario.ledger := by
  unfold ScenarioDraft.addBlock at h
  split_ifs at h with hworld hagent
  · exact of_foldlM_eq_ok (fun reached : ScenarioDraft ↦ holds reached.scenario.ledger)
      (fun _ _ _ _ ↦ hkept.readWorld) hdraft h
  · unfold addAgent at h
    split_ifs at h with hname hduplicate
    obtain ⟨⟨agent, extended⟩, hread, h⟩ := bind_eq_ok_iff.1 h
    cases h
    exact of_foldlM_eq_ok (fun state : Agent × ScenarioDraft ↦ holds state.2.scenario.ledger)
      (fun _ _ _ _ ↦ hkept.readAgent) hdraft hread

end KeptBySetUp

theorem ScenarioDraft.ledger_resolve {scenario next : Scenario} {pending : PendingRelation}
    (h : resolve scenario pending = .ok next) : next.ledger = scenario.ledger := by
  unfold resolve at h
  split at h
  · cases h
    rfl
  · cases h

/-- What is kept when pools are set up holds of the ledger of every scenario text. -/
theorem KeptBySetUp.of_parse {catalog : Catalog} {rules : List Rule} {holds : Ledger → Prop}
    (hkept : KeptBySetUp catalog holds) {lines : List (List Char)} {scenario : Scenario}
    (h : Scenario.parse catalog rules lines = .ok scenario) : holds scenario.ledger := by
  obtain ⟨draft, hdraft, h⟩ := bind_eq_ok_iff.1 h
  obtain ⟨complete, hcomplete, h⟩ := bind_eq_ok_iff.1 h
  have hread := of_foldlM_eq_ok (fun reached : ScenarioDraft ↦ holds reached.scenario.ledger)
    (fun _ _ _ _ ↦ hkept.addBlock) hkept.empty hdraft
  obtain ⟨-, rfl⟩ := Reading.finish_eq_ok_iff.1 hcomplete
  exact of_foldlM_eq_ok (fun reached : Scenario ↦ holds reached.ledger)
    (fun _ _ _ _ hreached hnext ↦ ScenarioDraft.ledger_resolve hnext ▸ hreached) hread h

/-- Every pool holds a resource of the catalog. -/
def Ledger.HoldsOnly (catalog : Catalog) (ledger : Ledger) : Prop :=
  ∀ pool ∈ ledger.pools, pool.resource ∈ catalog.resources

/-- The pools of a scenario text hold resources of the catalog that the text was read with. -/
theorem Scenario.holdsOnly_of_parse {catalog : Catalog} {rules : List Rule}
    {lines : List (List Char)} {scenario : Scenario}
    (h : parse catalog rules lines = .ok scenario) : scenario.ledger.HoldsOnly catalog := by
  refine KeptBySetUp.of_parse ⟨by simp [Ledger.HoldsOnly], ?_⟩ h
  intro directive owner ledger pool hpool hledger other hother
  have hresource := Directive.mem_of_pool hpool
  unfold Ledger.setUp at hother
  split at hother
  · obtain ⟨present, hpresent, rfl⟩ := List.mem_map.1 hother
    split
    · exact hresource
    · exact hledger present hpresent
  · rcases List.mem_append.1 hother with hpresent | hnew
    · exact hledger other hpresent
    · exact List.mem_singleton.1 hnew ▸ hresource

/-! ### Keys of pools -/

/-- In an unambiguous catalog an owner's pools of its resources have distinct keys. -/
theorem Ledger.WellSetUp.nodup_keys {catalog : Catalog} {ledger : Ledger} (h : ledger.WellSetUp)
    (hcatalog : catalog.Unambiguous) (hholds : ledger.HoldsOnly catalog) (owner : Owner) :
    ((ledger.poolsOf owner).map fun pool ↦ pool.resource.key).Nodup := by
  have hpools : (ledger.poolsOf owner).Nodup := (List.Nodup.of_map _ h.distinct).filter _
  refine hpools.map_on fun first hfirst second hsecond hkey ↦ ?_
  obtain ⟨hfirst, hfirstOwner⟩ := List.mem_filter.1 hfirst
  obtain ⟨hsecond, hsecondOwner⟩ := List.mem_filter.1 hsecond
  have hshared : first.resource.SharesName second.resource :=
    ⟨_, first.resource.key_mem_foldedNames, hkey ▸ second.resource.key_mem_foldedNames⟩
  have hresource := hcatalog.names _ (hholds first hfirst) _ (hholds second hsecond) hshared
  refine List.inj_on_of_nodup_map h.distinct hfirst hsecond ?_
  rw [Pool.key, Pool.key, hresource, of_decide_eq_true hfirstOwner,
    of_decide_eq_true hsecondOwner]

/-- When the keys of the owner's pools are distinct, none of the pools is lost by filing them under
their keys. -/
theorem Ledger.holdings_of_nodup_keys {ledger : Ledger} {owner : Owner}
    (h : ((ledger.poolsOf owner).map fun pool ↦ pool.resource.key).Nodup) :
    ledger.holdings owner =
      (ledger.poolsOf owner).map fun pool ↦ (pool.resource.key, pool.quantity) := by
  have hkeys : (((ledger.poolsOf owner).map fun pool ↦
      (pool.resource.key, pool.quantity)).map Prod.fst).Nodup := by
    rw [List.map_map]
    exact h
  rw [holdings, Table.entries_ofEntries hkeys]

namespace Simulation

theorem agents_runScopes (simulation : Simulation) (scopes : List Scope) :
    (simulation.runScopes scopes).simulation.agents = simulation.agents := by
  induction scopes generalizing simulation with
  | nil => rfl
  | cons scope later ih => exact ih _

/-- Ticks change nothing about the agents but what they hold. -/
theorem agents_after (simulation : Simulation) (ticks : Nat) :
    (simulation.after ticks).agents = simulation.agents := by
  induction ticks with
  | zero => rfl
  | succ ticks ih => exact (agents_runScopes _ _).trans ih

/-- The pools of the simulation of a scenario text hold resources of the catalog at all ticks. -/
theorem holdsOnly_after {catalog : Catalog} {rules : List Rule} {lines : List (List Char)}
    {scenario : Scenario} (h : Scenario.parse catalog rules lines = .ok scenario) (ticks : Nat) :
    ((ofScenario scenario).after ticks).ledger.HoldsOnly catalog := by
  intro pool hpool
  have hsetUp : (ofScenario scenario).ledger.WellSetUp := (Scenario.wellSetUp_of_parse h).ledger
  have hreaches := reaches_after False hsetUp (fun h ↦ h.elim) ticks
  obtain ⟨before, hbefore, hbecome⟩ := exists_of_forall₂_of_mem hreaches.pools hpool
  rw [hbecome.resource]
  exact Scenario.holdsOnly_of_parse h before hbefore

/-- Take the simulation of a resource text and a scenario text after a number of ticks. If the tick
and all quantities have few enough digits, its snapshot is written as a whole, and the text is JSON.
It is read back as the tick, what the world holds and what each agent holds, pool by pool and agent
by agent in their order. In any case no two agents have one name, and no two pools of one owner have
one key. -/
theorem read?_snapshot {firstHandle : Nat} {resourceLines scenarioLines : List (List Char)}
    {resources : List Resource} {rules : List Rule} {scenario : Scenario}
    (hresources : Resource.parse firstHandle resourceLines = .ok resources)
    (hscenario : Scenario.parse { resources := resources } rules scenarioLines = .ok scenario)
    (ticks : Nat) :
    let reached := (ofScenario scenario).after ticks
    let written := reached.snapshot.text
    let held (owner : Owner) : List (String × Json) :=
      (reached.ledger.poolsOf owner).map fun pool ↦
        (pool.resource.key, Json.integer pool.quantity)
    ((∀ number ∈ reached.snapshot.numbers, Text.FitsNumeral number) →
        written.isWhole = true ∧
          Json.read? written.text.toList =
            some (.object
              [("tick", .integer ticks), ("world", .object (held .world)),
                ("agents", .object (reached.agents.map fun agent ↦
                  (agent.name, .object (held agent.owner))))])) ∧
      (reached.agents.map Agent.name).Nodup ∧
      ∀ owner, ((held owner).map Prod.fst).Nodup := by
  intro reached written held
  have hbegun : (ofScenario scenario).ledger.WellSetUp :=
    (Scenario.wellSetUp_of_parse hscenario).ledger
  have hsetUp : reached.ledger.WellSetUp :=
    (reaches_after False hbegun (fun h ↦ h.elim) ticks).wellSetUp
  have hnames : (reached.agents.map Agent.name).Nodup := by
    rw [agents_after]
    exact Scenario.nodup_names_of_parse hscenario
  have hkeys : ∀ owner, ((reached.ledger.poolsOf owner).map fun pool ↦ pool.resource.key).Nodup :=
    hsetUp.nodup_keys (Resource.unambiguous_of_parse hresources) (holdsOnly_after hscenario ticks)
  refine ⟨fun hfits ↦ ?_, hnames, fun owner ↦ ?_⟩
  · have htick : reached.tick = ticks := tick_after_ofScenario scenario ticks
    have hheld : ∀ owner, Json.holdings (reached.ledger.holdings owner) = held owner := by
      intro owner
      rw [Ledger.holdings_of_nodup_keys (hkeys owner), Json.holdings, List.map_map]
      rfl
    have hfiled : (reached.agentHoldings.map Prod.fst).Nodup := by
      rw [agentHoldings, List.map_map]
      exact hnames
    have hwhole : written.isWhole = true := reached.snapshot.isWhole_text_iff.2 hfits
    refine ⟨hwhole, ?_⟩
    rw [Snapshot.read?_text hwhole, Snapshot.json, snapshot, Table.entries_ofEntries hfiled,
      agentHoldings, List.map_map, htick, hheld]
    simp only [Function.comp_def, hheld]
  · rw [List.map_map]
    exact hkeys owner

/-- An agent whose name has a character beyond the first 65536 owes some of a resource whose key has
a quotation mark and a backslash. -/
theorem read?_snapshot_debt :
    let resourceLines : List (List Char) := ["resource gr\"a\\in", "end"].map String.toList
    let scenarioLines : List (List Char) :=
      ["agent 😀 mill", "pool gr\"a\\in 9 -4", "end"].map String.toList
    let grain : Resource :=
      { handle := 0, key := "gr\"a\\in", singular := "gr\"a\\in", plural := "gr\"a\\in" }
    let pool : Pool :=
      { owner := .agent "😀 mill", resource := grain, quantity := -4, capacity := 9 }
    let scenario : Scenario := { agents := [{ name := "😀 mill" }], ledger := { pools := [pool] } }
    Resource.parse 0 resourceLines = .ok [grain] ∧
      Scenario.parse { resources := [grain] } [] scenarioLines = .ok scenario ∧
      Json.read? ((ofScenario scenario).after 2).snapshot.text.text.toList =
        some (.object
          [("tick", .integer 2), ("world", .object []),
            ("agents", .object [("😀 mill", .object [("gr\"a\\in", .integer (-4))])])]) := by
  intro resourceLines scenarioLines grain pool scenario
  have hresources : Resource.parse 0 resourceLines = .ok [grain] := by decide +kernel
  have hscenario : Scenario.parse { resources := [grain] } [] scenarioLines = .ok scenario := by
    decide +kernel
  obtain ⟨hwritten, -, -⟩ := read?_snapshot hresources hscenario 2
  obtain ⟨-, hread⟩ := hwritten (by decide +kernel)
  have hagents : ((ofScenario scenario).after 2).agents = [{ name := "😀 mill" }] := by
    decide +kernel
  have hworld : ((ofScenario scenario).after 2).ledger.poolsOf .world = [] := by decide +kernel
  have hmill : ((ofScenario scenario).after 2).ledger.poolsOf (.agent "😀 mill") = [pool] := by
    decide +kernel
  refine ⟨hresources, hscenario, hread.trans ?_⟩
  simp only [hagents, hworld, List.map_cons, List.map_nil, Agent.owner, hmill]
  rfl

/-- The greatest quantity that a text can give is doubled at the first tick. The snapshot behind
this tick breaks off at the doubled quantity, and what is written of it is no JSON. -/
theorem snapshot_of_doubled_quantity_unreadable :
    let quantity := DoubledQuantity.greatest
    let resources := [DoubledQuantity.wood]
    let rules := DoubledQuantity.rules quantity
    let scenario := DoubledQuantity.scenario quantity
    Resource.parse 0 DoubledQuantity.resourceLines = .ok resources ∧
      Rule.parse { resources := resources } 1 (DoubledQuantity.ruleLines quantity) = .ok rules ∧
      Scenario.parse { resources := resources } rules (DoubledQuantity.scenarioLines quantity) =
        .ok scenario ∧
      Json.read? ((ofScenario scenario).after 1).snapshot.text.text.toList = none := by
  intro quantity resources rules scenario
  refine ⟨DoubledQuantity.parse_resources,
    DoubledQuantity.parse_rules DoubledQuantity.fitsNumeral_greatest,
    DoubledQuantity.parse_scenario DoubledQuantity.fitsNumeral_greatest, ?_⟩
  have hnone : (Json.read? ((ofScenario scenario).after 1).snapshot.text.text.toList).isNone := by
    decide +kernel
  exact Option.isNone_iff_eq_none.1 hnone

end Simulation

end TickEconomy
