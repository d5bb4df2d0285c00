import Mathlib.Logic.Function.Basic
import TickEconomy.Batch
import TickEconomy.Resource
import TickEconomy.Scenario

/-!
# Renumbering

Resources and rules are told apart by their handles. A renumbering gives them other ones
(`Renumbering`), and everything that holds resources or rules can be renumbered, member by member:
catalogs, the terms of rules, ledgers, schedules, scenarios. Names, quantities and owners stay.

When different handles stay different, a renumbered catalog, ledger or schedule answers as the
original one does, and is changed as the original one is: what is the same resource before is the
same resource after (`Resource.isSame_renumbered`), so the same pool is found
(`Ledger.pool?_renumbered`) and the same last evaluation (`Schedule.lastRun?_renumbered`). Names of
resources are looked up whatever their handles are (`Catalog.find?_renumbered`).
-/

set_option autoImplicit false
set_option relaxedAutoImplicit false

namespace TickEconomy

/-- Other handles for resources and for rules. -/
structure Renumbering where
  /-- The handle of the resource that has the given one. -/
  resource : Nat → Nat
  /-- The handle of the rule that has the given one. -/
  rule : Nat → Nat

namespace Renumbering

/-- Different handles stay different. -/
structure IsInjective (numbering : Renumbering) : Prop where
  resource : Function.Injective numbering.resource
  rule : Function.Injective numbering.rule

/-- One renumbering behind another. -/
def after (second first : Renumbering) : Renumbering where
  resource := second.resource ∘ first.resource
  rule := second.rule ∘ first.rule

end Renumbering

/-! ### Tables -/

namespace Table

variable {Key Value OtherKey OtherValue : Type} [DecidableEq Key] [DecidableEq OtherKey]

/-- The table with other keys and other values in the place of its own. -/
def map (key : Key → OtherKey) (value : Value → OtherValue) (table : Table Key Value) :
    Table OtherKey OtherValue where
  entries := table.entries.map fun entry ↦ (key entry.1, value entry.2)

variable {key : Key → OtherKey}

/-- The other value is found under the other key. -/
theorem get?_map (hkey : Function.Injective key) (value : Value → OtherValue)
    (table : Table Key Value) (wanted : Key) :
    (table.map key value).get? (key wanted) = (table.get? wanted).map value := by
  simp only [get?, map, List.find?_map, Option.map_map, Function.comp_def, hkey.eq_iff]

/-- Setting the other value of the other key changes the entry that the value was set in. -/
theorem put_map (hkey : Function.Injective key) (value : Value → OtherValue)
    (table : Table Key Value) (wanted : Key) (entered : Value) :
    (table.map key value).put (key wanted) (value entered) =
      (table.put wanted entered).map key value := by
  obtain ⟨entries⟩ := table
  refine congrArg Table.mk ?_
  show putEntry (key wanted) (value entered)
      (entries.map fun entry ↦ (key entry.1, value entry.2)) =
    (putEntry wanted entered entries).map fun entry ↦ (key entry.1, value entry.2)
  induction entries with
  | nil => rfl
  | cons entry rest ih =>
    by_cases hentry : entry.1 = wanted
    · simp [putEntry, hentry]
    · simp only [List.map_cons, putEntry, hkey.eq_iff, hentry, if_false, ih]

end Table

/-! ### Resources and catalogs -/

variable (numbering : Renumbering)

/-- The resource under its other handle. -/
def Resource.renumbered (resource : Resource) : Resource :=
  { resource with handle := numbering.resource resource.handle }

/-- The catalog of the renumbered resources. -/
def Catalog.renumbered (catalog : Catalog) : Catalog where
  resources := catalog.resources.map (Resource.renumbered numbering)

variable {numbering}

/-- What is the same resource stays the same, and what is another one stays another one. -/
theorem Resource.isSame_renumbered (hresource : Function.Injective numbering.resource)
    (first second : Resource) :
    (first.renumbered numbering).isSame (second.renumbered numbering) = first.isSame second := by
  simp only [isSame, renumbered, beq_eq_decide, hresource.eq_iff]

namespace Catalog

theorem byFoldedName?_renumbered (catalog : Catalog) (folded : String) :
    (catalog.renumbered numbering).byFoldedName? folded =
      (catalog.byFoldedName? folded).map (Resource.renumbered numbering) := by
  have hsingular : (catalog.renumbered numbering).bySingular? folded =
      (catalog.bySingular? folded).map (Resource.renumbered numbering) := List.find?_map
  have hkey : (catalog.renumbered numbering).byKey? folded =
      (catalog.byKey? folded).map (Resource.renumbered numbering) := List.find?_map
  rw [byFoldedName?, hsingular, hkey, ← Option.map_or]
  rfl

/-- A name is looked up whatever the handles are. -/
theorem find?_renumbered (catalog : Catalog) (name : String) :
    (catalog.renumbered numbering).find? name =
      (catalog.find? name).map (Resource.renumbered numbering) :=
  catalog.byFoldedName?_renumbered _

theorem byHandle?_renumbered (hresource : Function.Injective numbering.resource)
    (catalog : Catalog) (handle : Nat) :
    (catalog.renumbered numbering).byHandle? (numbering.resource handle) =
      (catalog.byHandle? handle).map (Resource.renumbered numbering) := by
  simp only [byHandle?, renumbered, List.find?_map, Function.comp_def, Resource.renumbered,
    hresource.eq_iff]

/-- Names clash whatever the handles are. -/
theorem clash?_renumbered (hresource : Function.Injective numbering.resource) (catalog : Catalog)
    (resource : Resource) (names : List String) :
    (catalog.renumbered numbering).clash? (resource.renumbered numbering) names =
      catalog.clash? resource names := by
  induction names with
  | nil => rfl
  | cons name later ih =>
    rw [clash?, clash?, byFoldedName?_renumbered]
    cases catalog.byFoldedName? name with
    | none => exact ih
    | some holder =>
      simp only [Option.map_some, Resource.isSame_renumbered hresource, ih]
      rfl

/-- A resource is added, or refused, whatever the handles are. -/
theorem add_renumbered (hresource : Function.Injective numbering.resource) (catalog : Catalog)
    (resource : Resource) :
    (catalog.renumbered numbering).add (resource.renumbered numbering) =
      Catalog.renumbered numbering <$> catalog.add resource := by
  have hclash : (catalog.renumbered numbering).clash? (resource.renumbered numbering)
      (resource.renumbered numbering).foldedNames = catalog.clash? resource resource.foldedNames :=
    clash?_renumbered hresource catalog resource resource.foldedNames
  have hhandle : (catalog.renumbered numbering).byHandle? (resource.renumbered numbering).handle =
      (catalog.byHandle? resource.handle).map (Resource.renumbered numbering) :=
    byHandle?_renumbered hresource catalog resource.handle
  rw [add, add, hclash, hhandle]
  cases catalog.clash? resource resource.foldedNames with
  | some clash => rfl
  | none =>
    cases catalog.byHandle? resource.handle with
    | some found => rfl
    | none => simp [renumbered, Functor.map, Except.map]

end Catalog

/-! ### Rules -/

variable (numbering)

/-- The specifier of the renumbered resource. -/
def Specifier.renumbered (specifier : Specifier) : Specifier :=
  { specifier with resource := specifier.resource.renumbered numbering }

/-- The condition on the renumbered resource. -/
def Condition.renumbered (condition : Condition) : Condition :=
  { condition with resource := condition.resource.renumbered numbering }

/-- The pool of the renumbered resource. -/
def PoolReference.renumbered (pool : PoolReference) : PoolReference :=
  { pool with resource := pool.resource.renumbered numbering }

/-- The body under its other handle, with the renumbered resources. -/
def RuleBody.renumbered (body : RuleBody) : RuleBody :=
  { body with
    handle := numbering.rule body.handle
    preconditions := body.preconditions.map (Condition.renumbered numbering)
    inputs := body.inputs.map (Specifier.renumbered numbering)
    outputs := body.outputs.map (Specifier.renumbered numbering)
    sets := body.sets.map (Specifier.renumbered numbering)
    repeatFrom := body.repeatFrom.map (PoolReference.renumbered numbering) }

@[simp]
theorem RuleBody.name_renumbered (body : RuleBody) :
    (body.renumbered numbering).name = body.name :=
  rfl

@[simp]
theorem RuleBody.repeatFrom_renumbered (body : RuleBody) :
    (body.renumbered numbering).repeatFrom =
      body.repeatFrom.map (PoolReference.renumbered numbering) :=
  rfl

/-- The rule with its own body and those of its fallbacks renumbered. -/
def Rule.renumbered (rule : Rule) : Rule where
  toRuleBody := rule.toRuleBody.renumbered numbering
  fallbacks := rule.fallbacks.map (RuleBody.renumbered numbering)

theorem Rule.bodies_renumbered (rule : Rule) :
    (rule.renumbered numbering).bodies = rule.bodies.map (RuleBody.renumbered numbering) :=
  rfl

/-! ### Ledgers -/

/-- The pool of the renumbered resource, with its owner, quantity and capacity. -/
def Pool.renumbered (pool : Pool) : Pool :=
  { pool with resource := pool.resource.renumbered numbering }

/-- The ledger of the renumbered pools, in order. -/
def Ledger.renumbered (ledger : Ledger) : Ledger where
  pools := ledger.pools.map (Pool.renumbered numbering)

variable {numbering}

theorem Pool.isOf_renumbered (hresource : Function.Injective numbering.resource) (pool : Pool)
    (owner : Owner) (resource : Resource) :
    (pool.renumbered numbering).isOf owner (resource.renumbered numbering) =
      pool.isOf owner resource := by
  rw [isOf, isOf]
  exact congrArg (· && pool.owner == owner)
    (Resource.isSame_renumbered hresource pool.resource resource)

namespace Ledger

section Operations

variable (hresource : Function.Injective numbering.resource) (ledger : Ledger) (owner : Owner)
  (resource : Resource)

include hresource

/-- The pool that is found is the renumbered one. -/
theorem pool?_renumbered :
    (ledger.renumbered numbering).pool? owner (resource.renumbered numbering) =
      (ledger.pool? owner resource).map (Pool.renumbered numbering) := by
  simp only [pool?, renumbered, List.find?_map, Function.comp_def, Pool.isOf_renumbered hresource]

theorem quantity_renumbered :
    (ledger.renumbered numbering).quantity owner (resource.renumbered numbering) =
      ledger.quantity owner resource := by
  rw [quantity, quantity, pool?_renumbered hresource]
  cases ledger.pool? owner resource <;> rfl

/-- A change is made to the pool that it was made to before. -/
theorem change_renumbered {made other : Pool → Pool}
    (hmade : ∀ pool, other (pool.renumbered numbering) = (made pool).renumbered numbering) :
    (ledger.renumbered numbering).change owner (resource.renumbered numbering) other =
      (ledger.change owner resource made).renumbered numbering := by
  simp only [change, renumbered, List.map_map, Function.comp_def, Pool.isOf_renumbered hresource,
    hmade, apply_ite (Pool.renumbered numbering)]

/-- A pool is set up in the place of the one that it took the place of before. -/
theorem setUp_renumbered (pool : Pool) :
    (ledger.renumbered numbering).setUp (pool.renumbered numbering) =
      (ledger.setUp pool).renumbered numbering := by
  have hfound : (ledger.renumbered numbering).pool? (pool.renumbered numbering).owner
      (pool.renumbered numbering).resource =
        (ledger.pool? pool.owner pool.resource).map (Pool.renumbered numbering) :=
    pool?_renumbered hresource ledger pool.owner pool.resource
  rw [setUp, setUp, hfound]
  cases ledger.pool? pool.owner pool.resource with
  | none => simp [renumbered]
  | some found =>
    exact change_renumbered hresource ledger pool.owner pool.resource fun _ ↦ rfl

theorem adjust_renumbered {quantity : Pool → Int}
    (hquantity : ∀ pool, quantity (pool.renumbered numbering) = quantity pool) :
    (ledger.renumbered numbering).adjust owner (resource.renumbered numbering) quantity =
      (ledger.adjust owner resource quantity).renumbered numbering :=
  change_renumbered hresource ledger owner resource fun pool ↦ by rw [hquantity]; rfl

/-- A withdrawal is refused where it was refused before. -/
theorem withdraw_renumbered (amount : Int) :
    (ledger.renumbered numbering).withdraw owner (resource.renumbered numbering) amount =
      ((ledger.withdraw owner resource amount).1.renumbered numbering,
        (ledger.withdraw owner resource amount).2) := by
  rw [withdraw, withdraw, pool?_renumbered hresource]
  cases ledger.pool? owner resource with
  | none => rfl
  | some pool =>
    by_cases hshort : pool.quantity < amount
    · simp [hshort, Pool.renumbered]
    · simp only [Option.map_some, Pool.renumbered, hshort, if_false]
      exact Prod.ext (adjust_renumbered hresource ledger owner resource fun _ ↦ rfl) rfl

theorem restock_renumbered (amount : Int) :
    (ledger.renumbered numbering).restock owner (resource.renumbered numbering) amount =
      (ledger.restock owner resource amount).renumbered numbering :=
  adjust_renumbered hresource ledger owner resource fun _ ↦ rfl

end Operations

end Ledger

/-! ### Schedules -/

variable (numbering)

/-- The schedule that remembers the rules by their other handles. -/
def Schedule.renumbered (schedule : Schedule) : Schedule where
  lastRuns := schedule.lastRuns.map numbering.rule id

variable {numbering}

namespace Schedule

theorem lastRun?_renumbered (hrule : Function.Injective numbering.rule) (schedule : Schedule)
    (handle : Nat) :
    (schedule.renumbered numbering).lastRun? (numbering.rule handle) =
      schedule.lastRun? handle := by
  rw [lastRun?, renumbered, Table.get?_map hrule, Option.map_id]
  rfl

/-- A rule is due when it was due before. -/
theorem isDue_renumbered (hrule : Function.Injective numbering.rule) (schedule : Schedule)
    (rule : RuleBody) (tick : Int) :
    (schedule.renumbered numbering).isDue (rule.renumbered numbering) tick =
      schedule.isDue rule tick := by
  unfold isDue
  rw [show (rule.renumbered numbering).handle = numbering.rule rule.handle from rfl,
    lastRun?_renumbered hrule]
  rfl

theorem record_renumbered (hrule : Function.Injective numbering.rule) (schedule : Schedule)
    (handle : Nat) (tick : Int) :
    (schedule.renumbered numbering).record (numbering.rule handle) tick =
      (schedule.record handle tick).renumbered numbering :=
  congrArg Schedule.mk (Table.put_map hrule id schedule.lastRuns handle tick)

end Schedule

/-! ### Scenarios -/

variable (numbering)

/-- The agent with its rules renumbered. -/
def Agent.renumbered (agent : Agent) : Agent :=
  { agent with rules := agent.rules.map (Rule.renumbered numbering) }

/-- The scenario with its rules, those of its agents and its pools renumbered. -/
def Scenario.renumbered (scenario : Scenario) : Scenario :=
  { scenario with
    worldRules := scenario.worldRules.map (Rule.renumbered numbering)
    agents := scenario.agents.map (Agent.renumbered numbering)
    ledger := scenario.ledger.renumbered numbering }

/-! ### One renumbering behind another -/

section After

variable (first second : Renumbering)

@[simp]
theorem Resource.renumbered_renumbered (resource : Resource) :
    (resource.renumbered first).renumbered second = resource.renumbered (second.after first) :=
  rfl

@[simp]
theorem Catalog.renumbered_renumbered (catalog : Catalog) :
    (catalog.renumbered first).renumbered second = catalog.renumbered (second.after first) :=
  congrArg Catalog.mk List.map_map

@[simp]
theorem RuleBody.renumbered_renumbered (body : RuleBody) :
    (body.renumbered first).renumbered second = body.renumbered (second.after first) := by
  simp only [renumbered, List.map_map, Option.map_map]
  rfl

@[simp]
theorem Rule.renumbered_renumbered (rule : Rule) :
    (rule.renumbered first).renumbered second = rule.renumbered (second.after first) := by
  simp only [renumbered, RuleBody.renumbered_renumbered, List.map_map, Function.comp_def]

@[simp]
theorem Ledger.renumbered_renumbered (ledger : Ledger) :
    (ledger.renumbered first).renumbered second = ledger.renumbered (second.after first) :=
  congrArg Ledger.mk List.map_map

@[simp]
theorem Agent.renumbered_renumbered (agent : Agent) :
    (agent.renumbered first).renumbered second = agent.renumbered (second.after first) := by
  simp only [renumbered, List.map_map, Function.comp_def, Rule.renumbered_renumbered]

@[simp]
theorem Scenario.renumbered_renumbered (scenario : Scenario) :
    (scenario.renumbered first).renumbered second = scenario.renumbered (second.after first) := by
  simp only [renumbered, List.map_map, Function.comp_def, Rule.renumbered_renumbered,
    Agent.renumbered_renumbered, Ledger.renumbered_renumbered]

end After

end TickEconomy
