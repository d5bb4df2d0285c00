import TickEconomy.Proofs.Movement

/-!
# A round goes through as a whole or not at all

The check before a round looks at each input by itself, so a round whose requirements are met can
still be abandoned when several inputs draw on one pool, under one relation or under several. What
was withdrawn by then is put back amount by amount, which restores the pools only if every one of
these amounts was really withdrawn. `Ledger.withdraw` leaves a pool alone, and reports nothing
refused, where it is asked for an amount that is not positive by a pool that is even further below
zero.

That this does not happen in a round rests on `Ledger.OverdrawnNoFurther`: while inputs are
withdrawn, every pool is at or above zero or holds no less than before the round. The check makes
the amount of each input at most what the pool held then, so an amount that is not positive is
always there (`RuleBody.takeInputs_cases`). With this, what a round can do once its requirements are
met is told in full (`RuleBody.apply_cases`): it leaves every pool as it was, or it takes all inputs
without regard to any bound, deposits all outputs and assigns all sets.
-/

set_option autoImplicit false
set_option relaxedAutoImplicit false

namespace TickEconomy

/-! ### Requirements that are met -/

/-- Nothing is short when every requirement is met. -/
theorem firstShortfall_eq_none_iff (rule : RuleBody) (context : Context) (ledger : Ledger)
    (requirements : List Requirement) :
    firstShortfall rule context ledger requirements = .ok none ↔
      ∀ requirement ∈ requirements, requirement.verdict rule context ledger = .met := by
  induction requirements with
  | nil => simp [firstShortfall]
  | cons requirement later ih =>
    rw [firstShortfall, List.forall_mem_cons]
    cases hverdict : requirement.verdict rule context ledger with
    | met => simp [ih]
    | unmet quantity => simp
    | undecided error => simp

/-- An input is met when its relation has an owner whose pool holds as much. -/
theorem Requirement.verdict_input_eq_met_iff (rule : RuleBody) (context : Context)
    (ledger : Ledger) (specifier : Specifier) :
    (Requirement.input specifier).verdict rule context ledger = .met ↔
      ∃ owner, context.get? specifier.relation = some owner ∧
        specifier.quantity ≤ ledger.quantity owner specifier.resource := by
  rw [Requirement.verdict, Context.owner]
  cases context.get? specifier.relation with
  | none => simp
  | some owner =>
    simp only [Option.some.injEq, exists_eq_left']
    split_ifs with hshort
    · simp only [false_iff]
      omega
    · simp only [true_iff]
      omega

/-- Every input is there before a round whose requirements are met. -/
theorem RuleBody.inputs_met {rule : RuleBody} {context : Context} {ledger : Ledger}
    (h : rule.shortfall? context ledger = .ok none) :
    ∀ specifier ∈ rule.inputs, ∃ owner, context.get? specifier.relation = some owner ∧
      specifier.quantity ≤ ledger.quantity owner specifier.resource := by
  intro specifier hspecifier
  have hmet := (firstShortfall_eq_none_iff _ _ _ _).1 h (.input specifier)
    (List.mem_append_right _ (List.mem_map_of_mem hspecifier))
  exact (Requirement.verdict_input_eq_met_iff _ _ _ _).1 hmet

/-! ### Withdrawing the inputs -/

/-- Every pool is at or above zero or holds no less than at the start. -/
def Ledger.OverdrawnNoFurther (start ledger : Ledger) : Prop :=
  ∀ owner resource, 0 ≤ ledger.quantity owner resource ∨
    start.quantity owner resource ≤ ledger.quantity owner resource

theorem Ledger.OverdrawnNoFurther.refl (ledger : Ledger) : ledger.OverdrawnNoFurther ledger :=
  fun _ _ ↦ Or.inr (Int.le_refl _)

/-- Taking no more than there is overdraws no pool. -/
theorem Ledger.OverdrawnNoFurther.take {start ledger : Ledger} {owner : Owner}
    {resource : Resource} {amount : Int} (h : start.OverdrawnNoFurther ledger)
    (hamount : amount ≤ ledger.quantity owner resource) :
    start.OverdrawnNoFurther (ledger.take owner resource amount) := by
  intro other wanted
  rcases Ledger.quantity_take ledger owner other resource wanted amount with htaken | hsame
  · left
    rw [htaken]
    omega
  · rw [hsame]
    exact h other wanted

/-- An amount that was there at the start and is there no more is positive. -/
theorem Ledger.OverdrawnNoFurther.pos_of_lt {start ledger : Ledger} {owner : Owner}
    {resource : Resource} {amount : Int} (h : start.OverdrawnNoFurther ledger)
    (hstart : amount ≤ start.quantity owner resource)
    (hshort : ledger.quantity owner resource < amount) : 0 < amount := by
  rcases h owner resource with hzero | hstill <;> omega

namespace RuleBody

/-- An input that is there is taken, and the others follow. -/
theorem takeInputs_of_le (rule : RuleBody) {context : Context} {ledger : Ledger}
    {specifier : Specifier} {owner : Owner}
    (howner : context.get? specifier.relation = some owner)
    (hcovered : specifier.quantity ≤ ledger.quantity owner specifier.resource)
    (taken : List Movement) (later : List Specifier) :
    rule.takeInputs context ledger taken (specifier :: later) =
      rule.takeInputs context (ledger.take owner specifier.resource specifier.quantity)
        ({ owner := owner, specifier := specifier } :: taken) later := by
  have hresolved : context.owner rule.name .input specifier.relation = .ok owner :=
    (Context.owner_eq_ok_iff _ _ _ _ _).2 howner
  obtain ⟨htaken, hrefused⟩ := Ledger.withdraw_of_le hcovered
  rw [takeInputs, hresolved]
  dsimp only
  rw [if_neg (Int.not_lt.mpr hrefused), htaken]

/-- An input of a positive amount that is not there is refused, and those taken are put back. -/
theorem takeInputs_of_lt (rule : RuleBody) {context : Context} {ledger : Ledger}
    {specifier : Specifier} {owner : Owner}
    (howner : context.get? specifier.relation = some owner) (hpositive : 0 < specifier.quantity)
    (hshort : ledger.quantity owner specifier.resource < specifier.quantity)
    (taken : List Movement) (later : List Specifier) :
    rule.takeInputs context ledger taken (specifier :: later) =
      (taken.foldl Ledger.restockMovement ledger, some (.abandoned specifier)) := by
  have hresolved : context.owner rule.name .input specifier.relation = .ok owner :=
    (Context.owner_eq_ok_iff _ _ _ _ _).2 howner
  rw [takeInputs, hresolved]
  dsimp only
  rw [Ledger.withdraw_of_lt hshort, if_pos hpositive]

/-- What the withdrawal of inputs comes to, provided that each of them was there at the start: one
of them is refused and all that was taken is put back, or all of them are taken. -/
theorem takeInputs_cases (rule : RuleBody) {context : Context} {start : Ledger}
    {inputs : List Specifier}
    (hmet : ∀ specifier ∈ inputs, ∃ owner, context.get? specifier.relation = some owner ∧
      specifier.quantity ≤ start.quantity owner specifier.resource)
    {ledger : Ledger} (hledger : start.OverdrawnNoFurther ledger) (taken : List Movement) :
    (∃ specifier ∈ inputs, rule.takeInputs context ledger taken inputs =
        (taken.foldl Ledger.restockMovement ledger, some (.abandoned specifier))) ∨
      ∃ movements, context.Resolves inputs movements ∧
        rule.takeInputs context ledger taken inputs =
          (ledger.moveEach movements fun amount pool ↦ pool.quantity - amount, none) := by
  induction inputs generalizing ledger taken with
  | nil => exact Or.inr ⟨[], List.Forall₂.nil, rfl⟩
  | cons specifier later ih =>
    obtain ⟨owner, howner, hstart⟩ := hmet specifier List.mem_cons_self
    by_cases hcovered : specifier.quantity ≤ ledger.quantity owner specifier.resource
    · rw [rule.takeInputs_of_le howner hcovered]
      have hrest := ih (fun other hother ↦ hmet other (List.mem_cons_of_mem _ hother))
        (hledger.take hcovered) ({ owner := owner, specifier := specifier } :: taken)
      rcases hrest with ⟨refused, hmem, heq⟩ | ⟨movements, hmovements, heq⟩
      · refine Or.inl ⟨refused, List.mem_cons_of_mem _ hmem, ?_⟩
        rw [heq, List.foldl_cons, Ledger.restockMovement, Ledger.restock_take]
      · refine Or.inr ⟨{ owner := owner, specifier := specifier } :: movements,
          List.Forall₂.cons ⟨howner, rfl⟩ hmovements, ?_⟩
        rw [heq]
        rfl
    · -- The amount was there at the start, so it is positive and shows as refused.
      have hshort := Int.not_le.mp hcovered
      rw [rule.takeInputs_of_lt howner (hledger.pos_of_lt hstart hshort) hshort]
      exact Or.inl ⟨specifier, List.mem_cons_self, rfl⟩

/-! ### One round -/

/-- What a round comes to when its requirements are met: nothing has changed, since an output or a
set has no owner or an input was no longer there, or all inputs are taken, then all outputs
deposited and then all sets assigned, each in the declared order. -/
theorem apply_cases {rule : RuleBody} {context : Context} {ledger : Ledger}
    (h : rule.shortfall? context ledger = .ok none) :
    (∃ error, rule.apply context ledger = (ledger, some (.failed error))) ∨
      (∃ specifier ∈ rule.inputs,
        rule.apply context ledger = (ledger, some (.abandoned specifier))) ∨
      ∃ inputs outputs sets, context.Resolves rule.inputs inputs ∧
        context.Resolves rule.outputs outputs ∧ context.Resolves rule.sets sets ∧
        rule.apply context ledger =
          (((ledger.moveEach inputs fun amount pool ↦ pool.quantity - amount).moveEach outputs
            fun amount pool ↦ fitting pool.capacity (pool.quantity + amount)).moveEach sets
            fun amount pool ↦ fitting pool.capacity amount, none) := by
  simp only [apply]
  cases houtputs : rule.movements context .output rule.outputs with
  | error error => exact Or.inl ⟨error, rfl⟩
  | ok outputs =>
    cases hsets : rule.movements context .set rule.sets with
    | error error => exact Or.inl ⟨error, rfl⟩
    | ok sets =>
      obtain ⟨specifier, hmem, htake⟩ | ⟨inputs, hinputs, htake⟩ :=
        rule.takeInputs_cases (inputs_met h) (Ledger.OverdrawnNoFurther.refl ledger) []
      · exact Or.inr (Or.inl ⟨specifier, hmem, by simp only [htake, List.foldl_nil]⟩)
      · refine Or.inr (Or.inr ⟨inputs, outputs, sets, hinputs, resolves_of_movements houtputs,
          resolves_of_movements hsets, ?_⟩)
        simp only [htake, Ledger.foldl_depositMovement, Ledger.foldl_assignMovement]

/-- A round stopped by the check of its requirements leaves every pool as it was. -/
theorem round_of_shortfall {rule : RuleBody} {context : Context} {ledger : Ledger}
    {shortfall : Shortfall} (h : rule.shortfall? context ledger = .ok (some shortfall)) :
    rule.round context ledger = (ledger, some (.blocked shortfall)) := by
  rw [round, h]

/-- A round meets an obstacle and leaves every pool as it was, or all inputs are taken, then all
outputs deposited and then all sets assigned. -/
theorem round_cases (rule : RuleBody) (context : Context) (ledger : Ledger) :
    (∃ obstacle, rule.round context ledger = (ledger, some obstacle)) ∨
      ∃ inputs outputs sets, context.Resolves rule.inputs inputs ∧
        context.Resolves rule.outputs outputs ∧ context.Resolves rule.sets sets ∧
        rule.round context ledger =
          (((ledger.moveEach inputs fun amount pool ↦ pool.quantity - amount).moveEach outputs
            fun amount pool ↦ fitting pool.capacity (pool.quantity + amount)).moveEach sets
            fun amount pool ↦ fitting pool.capacity amount, none) := by
  cases hshortfall : rule.shortfall? context ledger with
  | error error => exact Or.inl ⟨.failed error, by rw [round, hshortfall]⟩
  | ok shortfall =>
    cases shortfall with
    | some shortfall => exact Or.inl ⟨.blocked shortfall, round_of_shortfall hshortfall⟩
    | none =>
      simp only [round, hshortfall]
      obtain ⟨error, happly⟩ | ⟨specifier, -, happly⟩ | hthrough := apply_cases hshortfall
      · exact Or.inl ⟨.failed error, happly⟩
      · exact Or.inl ⟨.abandoned specifier, happly⟩
      · exact Or.inr hthrough

/-- A round that meets an obstacle leaves every pool as it was. -/
theorem ledger_of_round_eq_some {rule : RuleBody} {context : Context} {ledger reached : Ledger}
    {obstacle : Obstacle} (h : rule.round context ledger = (reached, some obstacle)) :
    reached = ledger := by
  obtain ⟨found, hround⟩ | ⟨inputs, outputs, sets, -, -, -, hround⟩ :=
    rule.round_cases context ledger
  · exact (Prod.mk.inj (h.symm.trans hround)).1
  · exact absurd (Prod.mk.inj (h.symm.trans hround)).2 (by simp)

/-- A round that does not go through, whatever keeps it, leaves every pool as it was, also one above
its capacity. A round that goes through takes every input from its pool without regard to any
bound, then brings every output into the range of its pool on top of what it holds, and then every
set in its stead. -/
theorem round_all_or_nothing (rule : RuleBody) (context : Context) (ledger : Ledger) :
    match rule.round context ledger with
    | (reached, some _) => reached = ledger
    | (reached, none) =>
      ∃ inputs outputs sets, context.Resolves rule.inputs inputs ∧
        context.Resolves rule.outputs outputs ∧ context.Resolves rule.sets sets ∧
        reached =
          ((ledger.moveEach inputs fun amount pool ↦ pool.quantity - amount).moveEach outputs
            fun amount pool ↦ fitting pool.capacity (pool.quantity + amount)).moveEach sets
            fun amount pool ↦ fitting pool.capacity amount := by
  cases hshortfall : rule.shortfall? context ledger with
  | error error => simp only [round, hshortfall]
  | ok shortfall =>
    cases shortfall with
    | some shortfall => rw [round_of_shortfall hshortfall]
    | none =>
      simp only [round, hshortfall]
      obtain ⟨error, happly⟩ | ⟨specifier, -, happly⟩ |
        ⟨inputs, outputs, sets, hinputs, houtputs, hsets, happly⟩ := apply_cases hshortfall
      · rw [happly]
      · rw [happly]
      · rw [happly]
        exact ⟨inputs, outputs, sets, hinputs, houtputs, hsets, rfl⟩

-- Under two relations a rule asks twice for 3 of one pool, which holds 5 above a capacity of 2.
example :
    let wood : Resource := { handle := 1, key := "wood", singular := "wood", plural := "wood" }
    let near : Specifier := { relation := "self", resource := wood, quantity := 3 }
    let far : Specifier := { relation := "town", resource := wood, quantity := 3 }
    let context : Context := { entries := [("self", .world), ("town", .world)] }
    let ledger : Ledger :=
      { pools := [{ owner := .world, resource := wood, quantity := 5, capacity := 2 }] }
    let rule : RuleBody := { handle := 2, name := "build", inputs := [near, far] }
    rule.round context ledger = (ledger, some (.abandoned far)) := by decide

end RuleBody

end TickEconomy
