import TickEconomy.Proofs.Dialect
import TickEconomy.Proofs.LinkedRules
import TickEconomy.Proofs.Renumbering

/-!
# Texts read under other handles

A text is read alike whatever the handles are. Directives speak of resources and rules by name, so
over a renumbered catalog every clause of a rule names the renumbered resources
(`Clause.ofDirective_renumbered`), and every block of a scenario the renumbered resources and rules
(`ScenarioDraft.addBlock_renumbered`). The handles that a text gives out itself are counted from the
first one on, so they are renumbered when the first handle is and those behind it follow in order.

It follows that the three kinds of texts are accepted or refused alike, with the same error, and
that what they describe is renumbered (`Resource.parse_renumbered`, `Rule.parse_renumbered`,
`Scenario.parse_renumbered`).
-/

set_option autoImplicit false
set_option relaxedAutoImplicit false

namespace TickEconomy

variable {numbering : Renumbering}

/-! ### Resource texts -/

namespace Resource

/-- A block declares the renumbered resource under the other handle. -/
theorem ofBlock_renumbered (handle : Nat) (block : Block) :
    ofBlock (numbering.resource handle) block =
      Resource.renumbered numbering <$> ofBlock handle block := by
  unfold ofBlock
  split_ifs
  · rfl
  · rfl
  · cases Wording.ofBlock block <;> rfl

theorem addBlock_renumbered (hresource : Function.Injective numbering.resource) {first second : Nat}
    (hcount : ∀ count, numbering.resource (first + count) = second + count) (catalog : Catalog)
    (block : Block) :
    addBlock second (catalog.renumbered numbering) block =
      Catalog.renumbered numbering <$> addBlock first catalog block := by
  have hhandle : second + (catalog.renumbered numbering).resources.length =
      numbering.resource (first + catalog.resources.length) := by
    rw [hcount, Catalog.renumbered, List.length_map]
  rw [addBlock, addBlock, hhandle, ofBlock_renumbered]
  cases ofBlock (first + catalog.resources.length) block with
  | error error => rfl
  | ok resource =>
    simp only [Functor.map, Except.map, bind, Except.bind,
      Catalog.add_renumbered hresource catalog resource]
    cases catalog.add resource <;> rfl

/-- A resource text comes to the renumbered resources, or to the same error. -/
theorem parse_renumbered (hresource : Function.Injective numbering.resource) {first second : Nat}
    (hcount : ∀ count, numbering.resource (first + count) = second + count)
    (lines : List (List Char)) :
    parse second lines = List.map (Resource.renumbered numbering) <$> parse first lines := by
  rw [parse_eq_dialect, parse_eq_dialect]
  exact Dialect.parse_map (Catalog.renumbered numbering) _ rfl
    (addBlock_renumbered hresource hcount) (fun _ ↦ rfl) lines

end Resource

/-! ### Clauses of rules -/

/-- A directive names the renumbered resource. -/
theorem Directive.resource_renumbered (directive : Directive) (catalog : Catalog)
    (argument : String) :
    directive.resource (catalog.renumbered numbering) argument =
      Resource.renumbered numbering <$> directive.resource catalog argument := by
  rw [resource, resource, Catalog.find?_renumbered]
  cases catalog.find? argument <;> rfl

variable (numbering) in
/-- The clause that names the renumbered resource, if it names one. -/
def Clause.renumbered : Clause → Clause
  | .input specifier => .input (specifier.renumbered numbering)
  | .output specifier => .output (specifier.renumbered numbering)
  | .set specifier => .set (specifier.renumbered numbering)
  | .condition demand => .condition (demand.renumbered numbering)
  | .repeatFrom pool => .repeatFrom (pool.renumbered numbering)
  | clause => clause

namespace Clause

variable (catalog : Catalog) (directive : Directive)

theorem specifierOf_renumbered (relation resource quantity : String) :
    specifierOf (catalog.renumbered numbering) directive relation resource quantity =
      Specifier.renumbered numbering <$>
        specifierOf catalog directive relation resource quantity := by
  rw [specifierOf, specifierOf, directive.resource_renumbered]
  cases directive.resource catalog resource with
  | error error => rfl
  | ok found => cases directive.integer "quantity" quantity <;> rfl

theorem readSpecifier_renumbered :
    readSpecifier (catalog.renumbered numbering) directive =
      Specifier.renumbered numbering <$> readSpecifier catalog directive := by
  unfold readSpecifier
  split
  · exact specifierOf_renumbered ..
  · exact specifierOf_renumbered ..
  · rfl

/-- The clause that is made of a specifier names the renumbered resource. -/
theorem map_readSpecifier_renumbered {made : Specifier → Clause}
    (hmade : ∀ specifier,
      (made specifier).renumbered numbering = made (specifier.renumbered numbering)) :
    made <$> readSpecifier (catalog.renumbered numbering) directive =
      Clause.renumbered numbering <$> made <$> readSpecifier catalog directive := by
  rw [readSpecifier_renumbered]
  cases readSpecifier catalog directive with
  | error error => rfl
  | ok specifier => exact congrArg Except.ok (hmade specifier).symm

theorem conditionOf_renumbered (relation resource sign quantity : String) :
    conditionOf (catalog.renumbered numbering) directive relation resource sign quantity =
      Condition.renumbered numbering <$>
        conditionOf catalog directive relation resource sign quantity := by
  rw [conditionOf, conditionOf, directive.resource_renumbered]
  cases directive.resource catalog resource with
  | error error => rfl
  | ok found =>
    cases comparisonOf directive sign with
    | error error => rfl
    | ok comparison => cases directive.integer "quantity" quantity <;> rfl

theorem readCondition_renumbered :
    readCondition (catalog.renumbered numbering) directive =
      Condition.renumbered numbering <$> readCondition catalog directive := by
  unfold readCondition
  split
  · exact conditionOf_renumbered ..
  · exact conditionOf_renumbered ..
  · rfl

theorem repeatFromOf_renumbered (word relation resource : String) :
    repeatFromOf (catalog.renumbered numbering) directive word relation resource =
      Clause.renumbered numbering <$>
        repeatFromOf catalog directive word relation resource := by
  unfold repeatFromOf
  by_cases hword : word = "using"
  · rw [if_pos hword, if_pos hword, directive.resource_renumbered]
    cases directive.resource catalog resource <;> rfl
  · rw [if_neg hword, if_neg hword]
    rfl

theorem readRepetition_renumbered :
    readRepetition (catalog.renumbered numbering) directive =
      Clause.renumbered numbering <$> readRepetition catalog directive := by
  unfold readRepetition
  split
  · next count _ => cases directive.count "repeat" count <;> rfl
  · exact repeatFromOf_renumbered ..
  · exact repeatFromOf_renumbered ..
  · rfl

/-- Over a renumbered catalog a directive is the same clause, of the renumbered resource. -/
theorem ofDirective_renumbered :
    ofDirective (catalog.renumbered numbering) directive =
      Clause.renumbered numbering <$> ofDirective catalog directive := by
  unfold ofDirective
  split
  · exact map_readSpecifier_renumbered catalog directive fun _ ↦ rfl
  · exact map_readSpecifier_renumbered catalog directive fun _ ↦ rfl
  · exact map_readSpecifier_renumbered catalog directive fun _ ↦ rfl
  · rw [readCondition_renumbered]
    cases readCondition catalog directive <;> rfl
  · split
    · next ticks _ => cases directive.count "period" ticks <;> rfl
    · rfl
  · exact readRepetition_renumbered ..
  · split <;> rfl
  · rfl

end Clause

/-! ### Rule texts -/

variable (numbering) in
/-- The draft of the renumbered body, with its fallback by name. -/
def Draft.renumbered (draft : Draft) : Draft :=
  { draft with body := draft.body.renumbered numbering }

namespace Draft

theorem add_renumbered (draft : Draft) (line : Nat) (clause : Clause) :
    (draft.renumbered numbering).add line (clause.renumbered numbering) =
      (draft.add line clause).renumbered numbering := by
  cases clause <;> simp [add, renumbered, Clause.renumbered, RuleBody.renumbered]

theorem ofBlock_renumbered (catalog : Catalog) (handle : Nat) (block : Block) :
    ofBlock (catalog.renumbered numbering) (numbering.rule handle) block =
      Draft.renumbered numbering <$> ofBlock catalog handle block := by
  refine foldlM_map_state (Draft.renumbered numbering) (fun draft directive ↦ ?_)
    block.directives { body := { handle := handle, name := block.name } }
  rw [read, read, Clause.ofDirective_renumbered]
  cases Clause.ofDirective catalog directive with
  | error error => rfl
  | ok clause => exact congrArg Except.ok (draft.add_renumbered directive.line clause)

theorem addBlock_renumbered {first second : Nat}
    (hcount : ∀ count, numbering.rule (first + count) = second + count) (catalog : Catalog)
    (drafts : List Draft) (block : Block) :
    addBlock (catalog.renumbered numbering) second (drafts.map (Draft.renumbered numbering)) block =
      List.map (Draft.renumbered numbering) <$> addBlock catalog first drafts block := by
  have hnames : ((drafts.map (Draft.renumbered numbering)).map fun draft ↦ draft.body.name) =
      drafts.map fun draft ↦ draft.body.name := List.map_map
  have hhandle : second + (drafts.map (Draft.renumbered numbering)).length =
      numbering.rule (first + drafts.length) := by
    rw [hcount, List.length_map]
  unfold addBlock
  rw [hnames, hhandle, ofBlock_renumbered]
  split_ifs
  · rfl
  · rfl
  · rfl
  · cases ofBlock catalog (first + drafts.length) block with
    | error error => rfl
    | ok draft => exact congrArg Except.ok (by simp)

theorem without_renumbered (drafts : List Draft) (name : String) :
    without (drafts.map (Draft.renumbered numbering)) name =
      (without drafts name).map (Draft.renumbered numbering) :=
  List.filter_map

/-- Fallbacks are followed by name, so the way along them is the same. -/
theorem followFallbacks_renumbered (drafts : List Draft) (path : List String) (draft : Draft) :
    followFallbacks (drafts.map (Draft.renumbered numbering)) path (draft.renumbered numbering) =
      List.map (RuleBody.renumbered numbering) <$> followFallbacks drafts path draft := by
  -- The drafts that may still be reached become fewer with every rule passed.
  induction hcount : drafts.length using Nat.strongRecOn generalizing drafts path draft with
  | ind count ih =>
    have hsame : (draft.renumbered numbering).reference = draft.reference := rfl
    have hname : (draft.renumbered numbering).body.name = draft.body.name := rfl
    cases hreference : draft.reference with
    | none =>
      rw [followFallbacks_of_none hreference, followFallbacks_of_none (hsame.trans hreference)]
      rfl
    | some reference =>
      have hfind : ((drafts.map (Draft.renumbered numbering)).find? fun other ↦
          other.body.name = reference.target) =
            (drafts.find? fun other ↦ other.body.name = reference.target).map
              (Draft.renumbered numbering) := List.find?_map
      cases hfound : drafts.find? fun other ↦ other.body.name = reference.target with
      | none =>
        rw [hfound] at hfind
        rw [followFallbacks_of_not_found hreference hfound,
          followFallbacks_of_not_found (hsame.trans hreference) hfind, hname]
        split_ifs <;> rfl
      | some next =>
        rw [hfound] at hfind
        have hfewer := length_without_lt (List.mem_of_find?_eq_some hfound)
        have hnext := ih _ (hcount ▸ hfewer) (without drafts next.body.name)
          (path ++ [draft.body.name]) next rfl
        rw [← without_renumbered] at hnext
        rw [followFallbacks_of_found hreference hfound,
          followFallbacks_of_found (hsame.trans hreference) hfind]
        refine (congrArg (((next.renumbered numbering).body :: ·) <$> ·) hnext).trans ?_
        cases followFallbacks (without drafts next.body.name) (path ++ [draft.body.name]) next <;>
          rfl

/-- The drafts become the renumbered rules, or fail with the same error. -/
theorem linkAll_renumbered (drafts : List Draft) :
    linkAll (drafts.map (Draft.renumbered numbering)) =
      List.map (Rule.renumbered numbering) <$> linkAll drafts := by
  rw [linkAll, linkAll, List.mapM_map]
  refine mapM_map_value (Rule.renumbered numbering) (fun draft ↦ ?_) drafts
  have hfollow : followFallbacks (without (drafts.map (Draft.renumbered numbering)) draft.body.name)
      [] (draft.renumbered numbering) = List.map (RuleBody.renumbered numbering) <$>
        followFallbacks (without drafts draft.body.name) [] draft := by
    rw [without_renumbered, followFallbacks_renumbered]
  refine (congrArg (Rule.ofBodies (draft.renumbered numbering).body <$> ·) hfollow).trans ?_
  rw [link]
  cases followFallbacks (without drafts draft.body.name) [] draft <;> rfl

end Draft

/-- A rule text comes to the renumbered rules, or to the same error. -/
theorem Rule.parse_renumbered {first second : Nat}
    (hcount : ∀ count, numbering.rule (first + count) = second + count) (catalog : Catalog)
    (lines : List (List Char)) :
    parse (catalog.renumbered numbering) second lines =
      List.map (Rule.renumbered numbering) <$> parse catalog first lines := by
  rw [parse_eq_dialect, parse_eq_dialect]
  exact Dialect.parse_map (List.map (Draft.renumbered numbering)) _ rfl
    (Draft.addBlock_renumbered hcount catalog) Draft.linkAll_renumbered lines

/-! ### Scenario texts -/

namespace Directive

theorem pool_renumbered (directive : Directive) (catalog : Catalog) (owner : Owner) :
    directive.pool (catalog.renumbered numbering) owner =
      Pool.renumbered numbering <$> directive.pool catalog owner := by
  unfold pool
  split
  · next resource capacity quantity _ =>
    rw [directive.resource_renumbered]
    cases directive.resource catalog resource with
    | error error => rfl
    | ok found =>
      cases directive.capacity capacity with
      | error error => rfl
      | ok most => cases directive.integer "quantity" quantity <;> rfl
  · rfl

/-- A directive names the renumbered rule. -/
theorem rule_renumbered (directive : Directive) (rules : List Rule) (argument : String) :
    directive.rule (rules.map (Rule.renumbered numbering)) argument =
      Rule.renumbered numbering <$> directive.rule rules argument := by
  have hfind : ((rules.reverse.map (Rule.renumbered numbering)).find? fun rule ↦
      rule.name = argument) =
        (rules.reverse.find? fun rule ↦ rule.name = argument).map (Rule.renumbered numbering) :=
    List.find?_map
  rw [rule, rule, ← List.map_reverse, hfind]
  cases rules.reverse.find? fun rule ↦ rule.name = argument <;> rfl

theorem rules_renumbered (directive : Directive) (rules : List Rule) :
    directive.rules (rules.map (Rule.renumbered numbering)) =
      List.map (Rule.renumbered numbering) <$> directive.rules rules := by
  unfold Directive.rules
  split_ifs
  · rfl
  · exact mapM_map_value _ (directive.rule_renumbered rules) directive.arguments

end Directive

variable (numbering) in
/-- The draft of the renumbered scenario, with its relations by name. -/
def ScenarioDraft.renumbered (draft : ScenarioDraft) : ScenarioDraft :=
  { draft with scenario := draft.scenario.renumbered numbering }

namespace ScenarioDraft

theorem readWorld_renumbered (hresource : Function.Injective numbering.resource)
    (catalog : Catalog) (rules : List Rule) (draft : ScenarioDraft) (directive : Directive) :
    readWorld (catalog.renumbered numbering) (rules.map (Rule.renumbered numbering))
        (draft.renumbered numbering) directive =
      ScenarioDraft.renumbered numbering <$> readWorld catalog rules draft directive := by
  have hsettings : (draft.renumbered numbering).scenario.settings = draft.scenario.settings := rfl
  unfold readWorld
  rw [hsettings]
  split
  · cases draft.scenario.settings.read directive <;> rfl
  · cases draft.scenario.settings.read directive <;> rfl
  · cases draft.scenario.settings.read directive <;> rfl
  · rw [directive.pool_renumbered]
    cases directive.pool catalog .world with
    | error error => rfl
    | ok pool =>
      have hledger := Ledger.setUp_renumbered hresource draft.scenario.ledger pool
      exact congrArg (fun ledger ↦ Except.ok
        { draft.renumbered numbering with scenario.ledger := ledger }) hledger
  · rw [directive.rules_renumbered]
    cases directive.rules rules with
    | error error => rfl
    | ok named =>
      exact congrArg (fun rules ↦ Except.ok
        { draft.renumbered numbering with scenario.worldRules := rules }) List.map_append.symm
  · rfl

theorem readAgent_renumbered (hresource : Function.Injective numbering.resource)
    (catalog : Catalog) (rules : List Rule) (state : Agent × ScenarioDraft)
    (directive : Directive) :
    readAgent (catalog.renumbered numbering) (rules.map (Rule.renumbered numbering))
        (Prod.map (Agent.renumbered numbering) (ScenarioDraft.renumbered numbering) state)
        directive =
      Prod.map (Agent.renumbered numbering) (ScenarioDraft.renumbered numbering) <$>
        readAgent catalog rules state directive := by
  obtain ⟨agent, draft⟩ := state
  have howner : (agent.renumbered numbering).owner = agent.owner := rfl
  unfold readAgent
  simp only [Prod.map_apply, howner]
  split
  · rw [directive.pool_renumbered]
    cases directive.pool catalog agent.owner with
    | error error => rfl
    | ok pool =>
      have hledger := Ledger.setUp_renumbered hresource draft.scenario.ledger pool
      exact congrArg (fun ledger ↦ Except.ok (agent.renumbered numbering,
        { draft.renumbered numbering with scenario.ledger := ledger })) hledger
  · rw [directive.rules_renumbered]
    cases directive.rules rules with
    | error error => rfl
    | ok named =>
      exact congrArg (fun rules ↦ Except.ok
        ({ agent with rules := rules }, draft.renumbered numbering)) List.map_append.symm
  · split <;> rfl
  · rfl

theorem addBlock_renumbered (hresource : Function.Injective numbering.resource)
    (catalog : Catalog) (rules : List Rule) (draft : ScenarioDraft) (block : Block) :
    addBlock (catalog.renumbered numbering) (rules.map (Rule.renumbered numbering))
        (draft.renumbered numbering) block =
      ScenarioDraft.renumbered numbering <$> addBlock catalog rules draft block := by
  have hnames : (draft.renumbered numbering).scenario.agents.map Agent.name =
      draft.scenario.agents.map Agent.name := List.map_map
  have hagent := foldlM_map_state
    (Prod.map (Agent.renumbered numbering) (ScenarioDraft.renumbered numbering))
    (readAgent_renumbered hresource catalog rules) block.directives ({ name := block.name }, draft)
  unfold addBlock addAgent
  rw [hnames]
  split_ifs
  · exact foldlM_map_state _ (readWorld_renumbered hresource catalog rules) block.directives draft
  · rfl
  · rfl
  · refine (congrArg (· >>= _) hagent).trans ?_
    cases block.directives.foldlM (readAgent catalog rules) ({ name := block.name }, draft) with
    | error error => rfl
    | ok reached =>
      have hagents : (reached.2.scenario.agents.map (Agent.renumbered numbering)) ++
          [reached.1.renumbered numbering] =
            (reached.2.scenario.agents ++ [reached.1]).map (Agent.renumbered numbering) := by
        simp
      exact congrArg (fun agents ↦ Except.ok
        { reached.2.renumbered numbering with scenario.agents := agents }) hagents
  · rfl

/-- A relation is resolved by names, so handles do not count. -/
theorem resolve_renumbered (scenario : Scenario) (pending : PendingRelation) :
    resolve (scenario.renumbered numbering) pending =
      Scenario.renumbered numbering <$> resolve scenario pending := by
  have hfind : (scenario.renumbered numbering).agent? pending.target =
      (scenario.agent? pending.target).map (Agent.renumbered numbering) := List.find?_map
  rw [resolve, resolve, hfind]
  cases scenario.agent? pending.target with
  | none => rfl
  | some other =>
    have hagents : ((scenario.renumbered numbering).changeAgent pending.agent fun agent ↦
        agent.relate pending.relation other.name).agents =
          (scenario.changeAgent pending.agent fun agent ↦
            agent.relate pending.relation other.name).agents.map (Agent.renumbered numbering) := by
      simp only [Scenario.changeAgent, Scenario.renumbered, List.map_map]
      refine List.map_congr_left fun agent _ ↦ ?_
      by_cases hname : agent.name = pending.agent
      · simp [Agent.renumbered, Agent.relate, hname]
      · simp [Agent.renumbered, hname]
    exact congrArg (fun agents ↦ Except.ok { scenario.renumbered numbering with agents := agents })
      hagents

theorem resolveAll_renumbered (draft : ScenarioDraft) :
    resolveAll (draft.renumbered numbering) =
      Scenario.renumbered numbering <$> resolveAll draft :=
  foldlM_map_state (Scenario.renumbered numbering) resolve_renumbered draft.pending draft.scenario

end ScenarioDraft

/-- A scenario text comes to the renumbered scenario, or to the same error. -/
theorem Scenario.parse_renumbered (hresource : Function.Injective numbering.resource)
    (catalog : Catalog) (rules : List Rule) (lines : List (List Char)) :
    parse (catalog.renumbered numbering) (rules.map (Rule.renumbered numbering)) lines =
      Scenario.renumbered numbering <$> parse catalog rules lines := by
  rw [parse_eq_dialect, parse_eq_dialect]
  exact Dialect.parse_map (ScenarioDraft.renumbered numbering) _ rfl
    (ScenarioDraft.addBlock_renumbered hresource catalog rules)
    ScenarioDraft.resolveAll_renumbered lines

end TickEconomy
