import TickEconomy.Proofs.Evaluation
import TickEconomy.Proofs.ScenarioText

/-!
# The pools that rules read and write

A rule reads the pools that its conditions, its inputs and the source of its number of rounds mean
in a context, and it writes those that its inputs, outputs and sets mean (`RuleBody.readKeys`,
`RuleBody.writtenKeys`). A turn reads and writes what its rules and their fallbacks do
(`Scope.readKeys`, `Scope.writtenKeys`). A pool is told by its owner and the handle of its resource
(`Pool.key`); there need not be one in the ledger.

Two ledgers agree on keys when they have the same pools in the same order, of which those with the
keys hold the same quantities (`Ledger.AgreeOn`). Two statements come out of it. What a rule does
not write it leaves alone, since the movements of a rule keep the ledger in agreement with where it
began (`RuleBody.movesKeep_agreeOn`, `Scope.agreeOn_runBatch`). And what a rule comes to depends on
what it reads only: on ledgers that agree there, rounds, attempts and batches have the same outcome
and the same schedule and lead to ledgers that agree again (`RuleBody.round_of_agreeOn`,
`attemptInTurn_of_agreeOn`, `Scope.runBatch_of_agreeOn`).
-/

set_option autoImplicit false
set_option relaxedAutoImplicit false

namespace TickEconomy

/-! ### Footprints -/

/-- The key of the pool that a relation and a resource mean in the context, if the relation has an
owner. -/
def Context.key? (context : Context) (relation : String) (resource : Resource) :
    Option (Owner × Nat) :=
  (context.get? relation).map fun owner ↦ (owner, resource.handle)

/-- The keys of the pools that a rule looks at. -/
def RuleBody.readKeys (rule : RuleBody) (context : Context) : List (Owner × Nat) :=
  (rule.preconditions.filterMap fun demand ↦ context.key? demand.relation demand.resource) ++
    (rule.inputs.filterMap fun input ↦ context.key? input.relation input.resource) ++
    rule.repeatFrom.toList.filterMap fun pool ↦ context.key? pool.relation pool.resource

/-- The keys of the pools that a rule may change. -/
def RuleBody.writtenKeys (rule : RuleBody) (context : Context) : List (Owner × Nat) :=
  (rule.inputs ++ rule.outputs ++ rule.sets).filterMap fun specifier ↦
    context.key? specifier.relation specifier.resource

namespace Scope

/-- The keys of the pools that the rules of a turn and their fallbacks look at. -/
def readKeys (scope : Scope) : List (Owner × Nat) :=
  scope.rules.flatMap fun rule ↦ rule.bodies.flatMap fun body ↦ body.readKeys scope.context

/-- The keys of the pools that the rules of a turn and their fallbacks may change. -/
def writtenKeys (scope : Scope) : List (Owner × Nat) :=
  scope.rules.flatMap fun rule ↦ rule.bodies.flatMap fun body ↦ body.writtenKeys scope.context

end Scope

theorem Context.key?_of_get? {context : Context} {relation : String} {owner : Owner}
    (h : context.get? relation = some owner) (resource : Resource) :
    context.key? relation resource = some (owner, resource.handle) := by
  rw [key?, h, Option.map_some]

namespace RuleBody

variable {rule : RuleBody} {context : Context} {owner : Owner}

theorem key_mem_readKeys_of_condition {demand : Condition} (hmem : demand ∈ rule.preconditions)
    (howner : context.get? demand.relation = some owner) :
    (owner, demand.resource.handle) ∈ rule.readKeys context := by
  refine List.mem_append_left _ (List.mem_append_left _ (List.mem_filterMap.2 ⟨demand, hmem, ?_⟩))
  exact Context.key?_of_get? howner demand.resource

theorem key_mem_readKeys_of_input {input : Specifier} (hmem : input ∈ rule.inputs)
    (howner : context.get? input.relation = some owner) :
    (owner, input.resource.handle) ∈ rule.readKeys context := by
  refine List.mem_append_left _ (List.mem_append_right _ (List.mem_filterMap.2 ⟨input, hmem, ?_⟩))
  exact Context.key?_of_get? howner input.resource

theorem key_mem_readKeys_of_repeatFrom {pool : PoolReference} (hpool : rule.repeatFrom = some pool)
    (howner : context.get? pool.relation = some owner) :
    (owner, pool.resource.handle) ∈ rule.readKeys context := by
  refine List.mem_append_right _ (List.mem_filterMap.2 ⟨pool, ?_, ?_⟩)
  · rw [hpool]
    exact List.mem_singleton_self pool
  · exact Context.key?_of_get? howner pool.resource

theorem key_mem_writtenKeys {specifier : Specifier}
    (hmem : specifier ∈ rule.inputs ++ rule.outputs ++ rule.sets)
    (howner : context.get? specifier.relation = some owner) :
    (owner, specifier.resource.handle) ∈ rule.writtenKeys context :=
  List.mem_filterMap.2 ⟨specifier, hmem, Context.key?_of_get? howner specifier.resource⟩

end RuleBody

/-! ### Ledgers that agree -/

/-- The two pools have one place in a ledger, and hold the same quantity if their key is among the
given ones. -/
structure Pool.AgreeOn (keys : Owner × Nat → Prop) (first second : Pool) : Prop where
  owner : second.owner = first.owner
  resource : second.resource = first.resource
  capacity : second.capacity = first.capacity
  quantity : keys first.key → second.quantity = first.quantity

namespace Pool.AgreeOn

variable {keys : Owner × Nat → Prop} {first middle last : Pool}

theorem key_eq (h : first.AgreeOn keys last) : last.key = first.key := by
  rw [key, key, h.owner, h.resource]

theorem symm (h : first.AgreeOn keys last) : last.AgreeOn keys first :=
  ⟨h.owner.symm, h.resource.symm, h.capacity.symm,
    fun hkey ↦ (h.quantity (h.key_eq ▸ hkey)).symm⟩

theorem trans (hfirst : first.AgreeOn keys middle) (hlast : middle.AgreeOn keys last) :
    first.AgreeOn keys last where
  owner := hlast.owner.trans hfirst.owner
  resource := hlast.resource.trans hfirst.resource
  capacity := hlast.capacity.trans hfirst.capacity
  quantity hkey := (hlast.quantity (hfirst.key_eq.symm ▸ hkey)).trans (hfirst.quantity hkey)

/-- Pools that agree on their own key are equal. -/
theorem eq_of_key (h : first.AgreeOn keys last) (hkey : keys first.key) : last = first := by
  have hquantity := h.quantity hkey
  cases first
  cases last
  cases h.owner
  cases h.resource
  cases h.capacity
  cases hquantity
  rfl

/-- Pools that agree belong to the same owner and resource. -/
theorem isOf_eq (h : first.AgreeOn keys last) (owner : Owner) (resource : Resource) :
    last.isOf owner resource = first.isOf owner resource := by
  rw [Pool.isOf, Pool.isOf, h.owner, h.resource]

end Pool.AgreeOn

/-- The two ledgers have the same pools in the same order, of which those with the given keys hold
the same quantities. -/
def Ledger.AgreeOn (keys : Owner × Nat → Prop) (first second : Ledger) : Prop :=
  List.Forall₂ (Pool.AgreeOn keys) first.pools second.pools

namespace Ledger.AgreeOn

variable {keys : Owner × Nat → Prop} {first middle last : Ledger}

theorem refl (keys : Owner × Nat → Prop) (ledger : Ledger) : ledger.AgreeOn keys ledger :=
  List.forall₂_same.2 fun _ _ ↦ ⟨rfl, rfl, rfl, fun _ ↦ rfl⟩

theorem symm (h : first.AgreeOn keys last) : last.AgreeOn keys first :=
  (List.Forall₂.imp (fun _ _ hpools ↦ hpools.symm) h).flip

theorem trans (hfirst : first.AgreeOn keys middle) (hlast : middle.AgreeOn keys last) :
    first.AgreeOn keys last :=
  forall₂_trans (fun _ _ _ hbefore hafter ↦ hbefore.trans hafter) hfirst hlast

theorem mono {fewer : Owner × Nat → Prop} (h : first.AgreeOn keys last)
    (hfewer : ∀ key, fewer key → keys key) : first.AgreeOn fewer last :=
  List.Forall₂.imp (fun _ _ hpools ↦ ⟨hpools.owner, hpools.resource, hpools.capacity,
    fun hkey ↦ hpools.quantity (hfewer _ hkey)⟩) h

/-- Ledgers that agree on some keys and on others agree on all of these. -/
theorem or {others : Owner × Nat → Prop} (hkeys : first.AgreeOn keys last)
    (hothers : first.AgreeOn others last) :
    first.AgreeOn (fun key ↦ keys key ∨ others key) last :=
  List.Forall₂.mp (fun _ _ hkept hother ↦ ⟨hkept.owner, hkept.resource, hkept.capacity,
    fun hkey ↦ hkey.elim hkept.quantity hother.quantity⟩) hkeys hothers

/-- Ledgers that agree on all keys are equal. -/
theorem eq_of_forall (h : first.AgreeOn keys last) (hkeys : ∀ key, keys key) : first = last := by
  have hpools : List.Forall₂ (· = ·) first.pools last.pools :=
    List.Forall₂.imp (fun before _ hagree ↦ (hagree.eq_of_key (hkeys before.key)).symm) h
  rw [List.forall₂_eq_eq_eq] at hpools
  cases first
  cases last
  exact congrArg Ledger.mk hpools

/-- The same adjustment on both sides keeps ledgers in agreement. -/
theorem adjust (h : first.AgreeOn keys last) (owner : Owner) (resource : Resource)
    (quantity : Pool → Int) :
    (first.adjust owner resource quantity).AgreeOn keys (last.adjust owner resource quantity) := by
  refine List.forall₂_map_left_iff.2 (List.forall₂_map_right_iff.2 ?_)
  refine List.Forall₂.imp (fun before after hpools ↦ ?_) h
  rw [hpools.isOf_eq]
  split
  · refine ⟨hpools.owner, hpools.resource, hpools.capacity, fun hkey ↦ ?_⟩
    have hsame : after = before := hpools.eq_of_key hkey
    rw [hsame]
  · exact hpools

/-- An adjustment of a pool without one of the keys keeps a ledger in agreement with where it
began. -/
theorem adjust_right (h : first.AgreeOn keys last) {owner : Owner} {resource : Resource}
    (hkey : ¬ keys (owner, resource.handle)) (quantity : Pool → Int) :
    first.AgreeOn keys (last.adjust owner resource quantity) := by
  refine List.forall₂_map_right_iff.2 (List.Forall₂.imp (fun before after hpools ↦ ?_) h)
  split
  · next hisOf =>
    rw [hpools.isOf_eq, Pool.isOf_iff_key_eq] at hisOf
    refine ⟨hpools.owner, hpools.resource, hpools.capacity, fun hbefore ↦ ?_⟩
    rw [hisOf] at hbefore
    exact absurd hbefore hkey
  · exact hpools

/-- Ledgers that agree on the key of a pool have the same such pool. -/
theorem pool?_eq (h : first.AgreeOn keys last) {owner : Owner} {resource : Resource}
    (hkey : keys (owner, resource.handle)) :
    last.pool? owner resource = first.pool? owner resource := by
  obtain ⟨pools⟩ := first
  obtain ⟨others⟩ := last
  change List.Forall₂ (Pool.AgreeOn keys) pools others at h
  simp only [pool?]
  induction h with
  | nil => rfl
  | @cons before after pools others hpools _ ih =>
    rw [List.find?_cons, List.find?_cons, hpools.isOf_eq, ih]
    cases hisOf : before.isOf owner resource with
    | false => rfl
    | true =>
      rw [Pool.isOf_iff_key_eq] at hisOf
      rw [hpools.eq_of_key (hisOf ▸ hkey)]

theorem quantity_eq (h : first.AgreeOn keys last) {owner : Owner} {resource : Resource}
    (hkey : keys (owner, resource.handle)) :
    last.quantity owner resource = first.quantity owner resource := by
  rw [quantity, quantity, h.pool?_eq hkey]

/-- From a pool that ledgers agree on the same amount is refused, and they agree afterwards. -/
theorem withdraw (h : first.AgreeOn keys last) {owner : Owner} {resource : Resource}
    (hkey : keys (owner, resource.handle)) (amount : Int) :
    (first.withdraw owner resource amount).1.AgreeOn keys
        (last.withdraw owner resource amount).1 ∧
      (last.withdraw owner resource amount).2 = (first.withdraw owner resource amount).2 := by
  simp only [Ledger.withdraw, h.pool?_eq hkey]
  cases first.pool? owner resource with
  | none => exact ⟨h, rfl⟩
  | some pool =>
    dsimp only
    split_ifs with hshort
    · exact ⟨h, rfl⟩
    · exact ⟨h.adjust owner resource _, rfl⟩

/-- The same movements on both sides keep ledgers in agreement. -/
theorem moveEach (h : first.AgreeOn keys last) (movements : List Movement)
    (quantity : Int → Pool → Int) :
    (first.moveEach movements quantity).AgreeOn keys (last.moveEach movements quantity) := by
  induction movements generalizing first last with
  | nil => exact h
  | cons movement later ih => exact ih (h.adjust _ _ _)

theorem foldl_restockMovement (h : first.AgreeOn keys last) (movements : List Movement) :
    (movements.foldl Ledger.restockMovement first).AgreeOn keys
      (movements.foldl Ledger.restockMovement last) := by
  induction movements generalizing first last with
  | nil => exact h
  | cons movement later ih => exact ih (h.adjust _ _ _)

end Ledger.AgreeOn

/-! ### What a rule does not write -/

/-- The movements of a rule keep a ledger in agreement with where it began on all keys that the rule
does not write. -/
theorem RuleBody.movesKeep_agreeOn {rule : RuleBody} {context : Context}
    {keys : Owner × Nat → Prop} (hkeys : ∀ key ∈ rule.writtenKeys context, ¬ keys key)
    (start : Ledger) : rule.MovesKeep context (start.AgreeOn keys) where
  withdraw specifier hmem owner howner ledger h := by
    have hkey := hkeys _ (key_mem_writtenKeys
      (List.mem_append_left _ (List.mem_append_left _ hmem)) howner)
    by_cases hcovered : specifier.quantity ≤ ledger.quantity owner specifier.resource
    · rw [(Ledger.withdraw_of_le hcovered).1]
      exact h.adjust_right hkey _
    · rw [Ledger.withdraw_of_lt (Int.not_le.mp hcovered)]
      exact h
  deposit specifier hmem owner howner ledger h := by
    rw [Ledger.deposit_fst]
    exact h.adjust_right (hkeys _ (key_mem_writtenKeys
      (List.mem_append_left _ (List.mem_append_right _ hmem)) howner)) _
  assign specifier hmem owner howner ledger h := by
    rw [Ledger.assign_fst]
    exact h.adjust_right (hkeys _ (key_mem_writtenKeys (List.mem_append_right _ hmem) howner)) _

/-- Outside what the rules of a turn and their fallbacks write, the batch of the turn leaves the
pools as they were. -/
theorem Scope.agreeOn_runBatch (scope : Scope) (tick : Int) (schedule : Schedule)
    (ledger : Ledger) :
    ledger.AgreeOn (fun key ↦ key ∉ scope.writtenKeys)
      (runBatch scope.context tick schedule ledger scope.rules).ledger := by
  refine ledger_runBatch_of_movesKeep tick schedule ?_ (Ledger.AgreeOn.refl _ ledger)
  intro rule hrule body hbody
  refine RuleBody.movesKeep_agreeOn (fun key hkey hnot ↦ hnot ?_) ledger
  exact List.mem_flatMap_of_mem hrule (List.mem_flatMap_of_mem hbody hkey)

/-! ### What a rule comes to depends on what it reads -/

/-- Rounds with the same result on ledgers that agree afterwards. -/
structure Rounds.AgreeOn (keys : Owner × Nat → Prop) (first second : Rounds) : Prop where
  ledger : first.ledger.AgreeOn keys second.ledger
  completed : second.completed = first.completed
  obstacle : second.obstacle = first.obstacle

theorem firstShortfall_congr {rule : RuleBody} {context : Context} {first second : Ledger}
    {requirements : List Requirement}
    (h : ∀ requirement ∈ requirements,
      requirement.verdict rule context second = requirement.verdict rule context first) :
    firstShortfall rule context second requirements =
      firstShortfall rule context first requirements := by
  induction requirements with
  | nil => rfl
  | cons requirement later ih =>
    obtain ⟨hrequirement, hlater⟩ := List.forall_mem_cons.1 h
    rw [firstShortfall, firstShortfall, hrequirement, ih hlater]

namespace RuleBody

variable {rule : RuleBody} {context : Context} {keys : Owner × Nat → Prop} {first last : Ledger}

/-- Whether a requirement is met depends on what the rule reads. -/
theorem verdict_eq_of_agreeOn (hreads : ∀ key ∈ rule.readKeys context, keys key)
    (h : first.AgreeOn keys last) {requirement : Requirement}
    (hmem : requirement ∈ rule.requirements) :
    requirement.verdict rule context last = requirement.verdict rule context first := by
  rcases List.mem_append.1 hmem with hcondition | hinput
  · obtain ⟨demand, hdemand, rfl⟩ := List.mem_map.1 hcondition
    simp only [Requirement.verdict]
    cases howner : context.owner rule.name .precondition demand.relation with
    | error missing => rfl
    | ok owner =>
      have hget := (Context.owner_eq_ok_iff _ _ _ _ _).1 howner
      simp only [h.quantity_eq (hreads _ (key_mem_readKeys_of_condition hdemand hget))]
  · obtain ⟨input, hmember, rfl⟩ := List.mem_map.1 hinput
    simp only [Requirement.verdict]
    cases howner : context.owner rule.name .input input.relation with
    | error missing => rfl
    | ok owner =>
      have hget := (Context.owner_eq_ok_iff _ _ _ _ _).1 howner
      simp only [h.quantity_eq (hreads _ (key_mem_readKeys_of_input hmember hget))]

/-- The withdrawal of inputs depends on what the rule reads. -/
theorem takeInputs_of_agreeOn (rule : RuleBody) {inputs : List Specifier}
    (hreads : ∀ input ∈ inputs, ∀ owner, context.get? input.relation = some owner →
      keys (owner, input.resource.handle))
    (h : first.AgreeOn keys last) (taken : List Movement) :
    (rule.takeInputs context first taken inputs).1.AgreeOn keys
        (rule.takeInputs context last taken inputs).1 ∧
      (rule.takeInputs context last taken inputs).2 =
        (rule.takeInputs context first taken inputs).2 := by
  induction inputs generalizing first last taken with
  | nil => exact ⟨h, rfl⟩
  | cons input later ih =>
    obtain ⟨hinput, hlater⟩ := List.forall_mem_cons.1 hreads
    simp only [takeInputs]
    cases howner : context.owner rule.name .input input.relation with
    | error missing => exact ⟨h, rfl⟩
    | ok owner =>
      have hkey := hinput owner ((Context.owner_eq_ok_iff _ _ _ _ _).1 howner)
      obtain ⟨hledger, hrefused⟩ := h.withdraw hkey input.quantity
      simp only [hrefused]
      split_ifs with hpositive
      · exact ⟨hledger.foldl_restockMovement taken, rfl⟩
      · exact ih hlater hledger _

/-- A round depends on what the rule reads. -/
theorem round_of_agreeOn (hreads : ∀ key ∈ rule.readKeys context, keys key)
    (h : first.AgreeOn keys last) :
    (rule.round context first).1.AgreeOn keys (rule.round context last).1 ∧
      (rule.round context last).2 = (rule.round context first).2 := by
  have hshortfall : rule.shortfall? context last = rule.shortfall? context first :=
    firstShortfall_congr fun _ hmem ↦ verdict_eq_of_agreeOn hreads h hmem
  have hinputs : ∀ input ∈ rule.inputs, ∀ owner, context.get? input.relation = some owner →
      keys (owner, input.resource.handle) :=
    fun input hmem owner howner ↦ hreads _ (key_mem_readKeys_of_input hmem howner)
  obtain ⟨htaken, hobstacle⟩ := takeInputs_of_agreeOn rule hinputs h []
  simp only [round, hshortfall]
  cases rule.shortfall? context first with
  | error missing => exact ⟨h, rfl⟩
  | ok shortfall =>
    cases shortfall with
    | some shortfall => exact ⟨h, rfl⟩
    | none =>
      simp only [apply]
      cases rule.movements context .output rule.outputs with
      | error missing => exact ⟨h, rfl⟩
      | ok outputs =>
        cases rule.movements context .set rule.sets with
        | error missing => exact ⟨h, rfl⟩
        | ok sets =>
          cases hfirst : rule.takeInputs context first [] rule.inputs with
          | mk reduced stopped =>
            cases hlast : rule.takeInputs context last [] rule.inputs with
            | mk other stoppedToo =>
              rw [hfirst, hlast] at htaken hobstacle
              have hsame : stoppedToo = stopped := hobstacle
              subst hsame
              cases stoppedToo with
              | some obstacle => exact ⟨htaken, rfl⟩
              | none =>
                refine ⟨?_, rfl⟩
                simp only [Ledger.foldl_depositMovement, Ledger.foldl_assignMovement]
                exact (htaken.moveEach outputs _).moveEach sets _

/-- Rounds one after the other depend on what the rule reads. -/
theorem runRounds_of_agreeOn (hreads : ∀ key ∈ rule.readKeys context, keys key)
    (h : first.AgreeOn keys last) (completed remaining : Nat) :
    (rule.runRounds context first completed remaining).AgreeOn keys
      (rule.runRounds context last completed remaining) := by
  induction remaining generalizing first last completed with
  | zero => exact ⟨h, rfl, rfl⟩
  | succ remaining ih =>
    obtain ⟨hledger, hobstacle⟩ := round_of_agreeOn hreads h
    simp only [runRounds]
    cases hfirst : rule.round context first with
    | mk reached stopped =>
      cases hlast : rule.round context last with
      | mk other stoppedToo =>
        rw [hfirst, hlast] at hledger hobstacle
        have hsame : stoppedToo = stopped := hobstacle
        subst hsame
        cases stoppedToo with
        | some obstacle => exact ⟨hledger, rfl, rfl⟩
        | none => exact ih hledger (completed + 1)

/-- The number of rounds depends on what the rule reads. -/
theorem roundCount?_eq_of_agreeOn (hreads : ∀ key ∈ rule.readKeys context, keys key)
    (h : first.AgreeOn keys last) :
    rule.roundCount? context last = rule.roundCount? context first := by
  unfold roundCount?
  cases hpool : rule.repeatFrom with
  | none => rfl
  | some pool =>
    cases howner : context.get? pool.relation with
    | none => simp [howner]
    | some owner =>
      have hquantity := h.quantity_eq (hreads _ (key_mem_readKeys_of_repeatFrom hpool howner))
      simp only [howner, Option.map_some, hquantity]

/-- An evaluation depends on what the rule reads. -/
theorem evaluate_of_agreeOn (hreads : ∀ key ∈ rule.readKeys context, keys key)
    (h : first.AgreeOn keys last) :
    (rule.evaluate context first).AgreeOn keys (rule.evaluate context last) := by
  unfold evaluate
  rw [roundCount?_eq_of_agreeOn hreads h]
  exact runRounds_of_agreeOn hreads h _ _

end RuleBody

namespace Rounds.AgreeOn

variable {keys : Owner × Nat → Prop} {first last : Rounds}

theorem outcome_eq (h : first.AgreeOn keys last) : last.outcome = first.outcome := by
  rw [outcome, outcome, h.obstacle, h.completed]

theorem isBlockedAtOnce_eq (h : first.AgreeOn keys last) :
    last.isBlockedAtOnce = first.isBlockedAtOnce := by
  rw [isBlockedAtOnce, isBlockedAtOnce, h.obstacle, h.completed]

end Rounds.AgreeOn

/-- Attempts with the same result on ledgers that agree afterwards. -/
structure Attempt.AgreeOn (keys : Owner × Nat → Prop) (first second : Attempt) : Prop where
  ledger : first.ledger.AgreeOn keys second.ledger
  schedule : second.schedule = first.schedule
  outcome : second.outcome = first.outcome

/-- An attempt depends on what the rules of the chain read. -/
theorem attemptInTurn_of_agreeOn {context : Context} {keys : Owner × Nat → Prop}
    (tick : Int) (schedule : Schedule) {body : RuleBody} {fallbacks : List RuleBody}
    (hreads : ∀ link ∈ body :: fallbacks, ∀ key ∈ link.readKeys context, keys key)
    {first last : Ledger} (h : first.AgreeOn keys last) :
    (attemptInTurn context tick schedule first body fallbacks).AgreeOn keys
      (attemptInTurn context tick schedule last body fallbacks) := by
  have hrounds := RuleBody.evaluate_of_agreeOn (hreads body List.mem_cons_self) h
  induction fallbacks generalizing body first last with
  | nil =>
    simp only [attemptInTurn]
    split_ifs with hdue
    · exact ⟨hrounds.ledger, rfl, hrounds.outcome_eq⟩
    · exact ⟨h, rfl, rfl⟩
  | cons fallback later ih =>
    have hlater := fun link hlink ↦ hreads link (List.mem_cons_of_mem body hlink)
    simp only [attemptInTurn, hrounds.isBlockedAtOnce_eq]
    split_ifs with hdue hblocked
    · have hfallback := ih hlater hrounds.ledger
        (RuleBody.evaluate_of_agreeOn (hlater fallback List.mem_cons_self) hrounds.ledger)
      exact ⟨hfallback.ledger, congrArg (·.record body.handle tick) hfallback.schedule,
        hfallback.outcome⟩
    · exact ⟨hrounds.ledger, rfl, hrounds.outcome_eq⟩
    · exact ⟨h, rfl, rfl⟩

/-- Batches with the same result on ledgers that agree afterwards. -/
structure Batch.AgreeOn (keys : Owner × Nat → Prop) (first second : Batch) : Prop where
  ledger : first.ledger.AgreeOn keys second.ledger
  schedule : second.schedule = first.schedule
  error : second.error = first.error

/-- A batch depends on what its rules and their fallbacks read. -/
theorem runBatch_of_agreeOn {context : Context} {keys : Owner × Nat → Prop} (tick : Int)
    (schedule : Schedule) {rules : List Rule}
    (hreads : ∀ rule ∈ rules, ∀ body ∈ rule.bodies, ∀ key ∈ body.readKeys context, keys key)
    {first last : Ledger} (h : first.AgreeOn keys last) :
    (runBatch context tick schedule first rules).AgreeOn keys
      (runBatch context tick schedule last rules) := by
  induction rules generalizing schedule first last with
  | nil => exact ⟨h, rfl, rfl⟩
  | cons rule later ih =>
    obtain ⟨hrule, hlater⟩ := List.forall_mem_cons.1 hreads
    have hattempt : (rule.attempt context tick schedule first).AgreeOn keys
        (rule.attempt context tick schedule last) :=
      attemptInTurn_of_agreeOn tick schedule hrule h
    simp only [runBatch, hattempt.outcome, hattempt.schedule]
    split_ifs with hperiod
    · exact ih schedule hlater h
    · cases (rule.attempt context tick schedule first).outcome with
      | error error => exact ⟨hattempt.ledger, rfl, rfl⟩
      | ok count =>
        have hrest := ih (rule.attempt context tick schedule first).schedule hlater hattempt.ledger
        exact ⟨hrest.ledger, hrest.schedule, hrest.error⟩

/-- The batch of a turn depends on what its rules and their fallbacks read. -/
theorem Scope.runBatch_of_agreeOn {scope : Scope} {keys : Owner × Nat → Prop}
    (hreads : ∀ key ∈ scope.readKeys, keys key) (tick : Int) (schedule : Schedule)
    {first last : Ledger} (h : first.AgreeOn keys last) :
    (runBatch scope.context tick schedule first scope.rules).AgreeOn keys
      (runBatch scope.context tick schedule last scope.rules) := by
  refine TickEconomy.runBatch_of_agreeOn tick schedule ?_ h
  intro rule hrule body hbody key hkey
  exact hreads key (List.mem_flatMap_of_mem hrule (List.mem_flatMap_of_mem hbody hkey))

end TickEconomy
