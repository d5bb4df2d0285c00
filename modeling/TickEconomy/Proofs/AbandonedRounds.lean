import TickEconomy.Proofs.RoundAtomicity

/-!
# When a round is abandoned

The check before a round looks at each input by itself, and the round withdraws them one after the
other. When an input's turn comes, its pool has given what the inputs before it asked of the same
pool, whatever relations they named it by and whatever the sign of their amounts
(`Context.HasTaken`). A step keeps this (`Context.HasTaken.concat`): amounts that are not positive
are always given, since no pool is overdrawn further than before the round.

So the round is abandoned at the first input of a positive amount that is more than what its pool
held at the start less what the inputs before it asked of that pool (`Context.firstUncovered?`,
`RuleBody.obstacle_takeInputs`), and it goes through when there is none
(`RuleBody.apply_goes_through_iff`).
-/

set_option autoImplicit false
set_option relaxedAutoImplicit false

namespace TickEconomy

/-! ### What is asked of a pool -/

namespace Context

/-- The two specifiers mean the same pool. -/
def meansSamePool (context : Context) (first second : Specifier) : Bool :=
  context.get? first.relation == context.get? second.relation &&
    first.resource.isSame second.resource

/-- The quantity in the pool that a specifier means. -/
def held (context : Context) (ledger : Ledger) (specifier : Specifier) : Int :=
  match context.get? specifier.relation with
  | none => 0
  | some owner => ledger.quantity owner specifier.resource

/-- What the specifiers ask together of the pool that the wanted one means. -/
def askedOf (context : Context) : List Specifier → Specifier → Int
  | [], _ => 0
  | specifier :: later, wanted =>
    (if context.meansSamePool specifier wanted then specifier.quantity else 0) +
      context.askedOf later wanted

/-- The first of the inputs that is of a positive amount and is more than what its pool held at the
start less what the inputs before it asked of that pool. -/
def firstUncovered? (context : Context) (start : Ledger) (earlier : List Specifier) :
    List Specifier → Option Specifier
  | [] => none
  | specifier :: later =>
    if 0 < specifier.quantity ∧
        context.held start specifier - context.askedOf earlier specifier < specifier.quantity then
      some specifier
    else context.firstUncovered? start (earlier ++ [specifier]) later

variable {context : Context}

theorem held_eq {specifier : Specifier} {owner : Owner}
    (howner : context.get? specifier.relation = some owner) (ledger : Ledger) :
    context.held ledger specifier = ledger.quantity owner specifier.resource := by
  rw [held, howner]

theorem askedOf_concat (specifiers : List Specifier) (specifier wanted : Specifier) :
    context.askedOf (specifiers ++ [specifier]) wanted =
      context.askedOf specifiers wanted +
        if context.meansSamePool specifier wanted then specifier.quantity else 0 := by
  induction specifiers with
  | nil => rw [List.nil_append, askedOf, askedOf, askedOf, Int.add_comm]
  | cons first later ih => rw [List.cons_append, askedOf, askedOf, ih, Int.add_assoc]

/-- Amounts that are not positive are together not positive. -/
theorem askedOf_nonpos {specifiers : List Specifier} {wanted : Specifier}
    (h : ∀ specifier ∈ specifiers, context.meansSamePool specifier wanted = true →
      specifier.quantity ≤ 0) : context.askedOf specifiers wanted ≤ 0 := by
  induction specifiers with
  | nil => exact Int.le_refl 0
  | cons specifier later ih =>
    obtain ⟨hspecifier, hlater⟩ := List.forall_mem_cons.1 h
    have hrest := ih hlater
    rw [askedOf]
    by_cases hsame : context.meansSamePool specifier wanted = true
    · have hfirst := hspecifier hsame
      rw [if_pos hsame]
      omega
    · rw [if_neg hsame]
      omega

/-- The first uncovered input is one of the inputs and of a positive amount. -/
theorem exists_of_firstUncovered?_eq_some {start : Ledger} {earlier inputs : List Specifier}
    {specifier : Specifier}
    (h : context.firstUncovered? start earlier inputs = some specifier) :
    ∃ before behind, inputs = before ++ specifier :: behind ∧ 0 < specifier.quantity ∧
      context.held start specifier - context.askedOf (earlier ++ before) specifier <
        specifier.quantity := by
  induction inputs generalizing earlier with
  | nil => cases h
  | cons first later ih =>
    rw [firstUncovered?] at h
    split_ifs at h with huncovered
    · obtain rfl : first = specifier := Option.some.inj h
      exact ⟨[], later, rfl, huncovered.1, by simpa using huncovered.2⟩
    · obtain ⟨before, behind, rfl, hpositive, hshort⟩ := ih h
      exact ⟨first :: before, behind, rfl, hpositive, by simpa using hshort⟩

/-- No input is uncovered when each of a positive amount is covered at its place. -/
theorem firstUncovered?_eq_none_iff {start : Ledger} {earlier inputs : List Specifier} :
    context.firstUncovered? start earlier inputs = none ↔
      ∀ before specifier behind, inputs = before ++ specifier :: behind →
        0 < specifier.quantity → specifier.quantity ≤
          context.held start specifier - context.askedOf (earlier ++ before) specifier := by
  constructor
  · intro h before specifier behind hinputs hpositive
    induction before generalizing earlier inputs with
    | nil =>
      rw [hinputs, List.nil_append, firstUncovered?] at h
      split_ifs at h with huncovered
      rw [List.append_nil]
      exact Int.not_lt.1 fun hshort ↦ huncovered ⟨hpositive, hshort⟩
    | cons first before ih =>
      rw [hinputs, List.cons_append, firstUncovered?] at h
      split_ifs at h
      simpa using ih h rfl
  · intro h
    cases hfirst : context.firstUncovered? start earlier inputs with
    | none => rfl
    | some specifier =>
      obtain ⟨before, behind, hinputs, hpositive, hshort⟩ :=
        exists_of_firstUncovered?_eq_some hfirst
      exact absurd (h before specifier behind hinputs hpositive) (Int.not_le.2 hshort)

end Context

/-! ### What has been taken -/

namespace Ledger

/-- Taking from a pool leaves every pool where it is. -/
theorem isSome_pool?_take (ledger : Ledger) (owner other : Owner) (resource wanted : Resource)
    (amount : Int) :
    ((ledger.take owner resource amount).pool? other wanted).isSome =
      (ledger.pool? other wanted).isSome := by
  rw [take, pool?_adjust, Option.isSome_map]

/-- What a pool that is there holds after taking from it or from another one. -/
theorem quantity_take_of_isSome {ledger : Ledger} {other : Owner} {wanted : Resource}
    (hpool : (ledger.pool? other wanted).isSome) (owner : Owner) (resource : Resource)
    (amount : Int) :
    (ledger.take owner resource amount).quantity other wanted =
      ledger.quantity other wanted -
        if owner == other && resource.isSame wanted then amount else 0 := by
  obtain ⟨pool, hfound⟩ := Option.isSome_iff_exists.1 hpool
  have hof : pool.isOf owner resource = (owner == other && resource.isSame wanted) := by
    have howner : (other == owner) = (owner == other) := BEq.comm
    have hresource : wanted.isSame resource = resource.isSame wanted := BEq.comm
    rw [Pool.isOf_congr (isOf_of_pool? hfound), howner, hresource, Bool.and_comm]
  rw [take, quantity, quantity, pool?_adjust, hfound, Option.map_some, hof]
  by_cases hsame : owner == other && resource.isSame wanted
  · simp [hsame, Pool.quantityIn]
  · simp [hsame, Pool.quantityIn]

end Ledger

/-- The reached ledger is that of the start after the specifiers are taken, as far as the quantities
in its pools tell. -/
structure Context.HasTaken (context : Context) (start : Ledger) (earlier : List Specifier)
    (reached : Ledger) : Prop where
  overdrawn : start.OverdrawnNoFurther reached
  isSome_pool? : ∀ owner resource,
    (reached.pool? owner resource).isSome = (start.pool? owner resource).isSome
  quantity : ∀ specifier owner, context.get? specifier.relation = some owner →
    (start.pool? owner specifier.resource).isSome →
      reached.quantity owner specifier.resource =
        start.quantity owner specifier.resource - context.askedOf earlier specifier

namespace Context.HasTaken

variable {context : Context} {start reached : Ledger} {earlier : List Specifier}

theorem refl (context : Context) (start : Ledger) : context.HasTaken start [] start where
  overdrawn := .refl start
  isSome_pool? _ _ := rfl
  quantity _ _ _ _ := by simp [askedOf]

/-- Taking a further input that is there. -/
theorem concat (h : context.HasTaken start earlier reached) {specifier : Specifier} {owner : Owner}
    (howner : context.get? specifier.relation = some owner)
    (hcovered : specifier.quantity ≤ reached.quantity owner specifier.resource) :
    context.HasTaken start (earlier ++ [specifier])
      (reached.take owner specifier.resource specifier.quantity) where
  overdrawn := h.overdrawn.take hcovered
  isSome_pool? other wanted := by rw [Ledger.isSome_pool?_take, h.isSome_pool?]
  quantity wanted other hother hpool := by
    have hsame : context.meansSamePool specifier wanted =
        (owner == other && specifier.resource.isSame wanted.resource) := by
      rw [meansSamePool, howner, hother]
      rfl
    rw [Ledger.quantity_take_of_isSome (by rwa [h.isSome_pool?]),
      h.quantity wanted other hother hpool, askedOf_concat, hsame, Int.sub_sub]

/-- An input of a positive amount that was there at the start finds what the ones before it have
left in its pool. -/
theorem quantity_of_pos (h : context.HasTaken start earlier reached) {specifier : Specifier}
    {owner : Owner} (howner : context.get? specifier.relation = some owner)
    (hpositive : 0 < specifier.quantity)
    (hstart : specifier.quantity ≤ start.quantity owner specifier.resource) :
    reached.quantity owner specifier.resource =
      context.held start specifier - context.askedOf earlier specifier := by
  have hpool : (start.pool? owner specifier.resource).isSome := by
    rw [Option.isSome_iff_ne_none]
    intro hnone
    rw [Ledger.quantity, hnone, Pool.quantityIn] at hstart
    omega
  rw [held_eq howner, h.quantity specifier owner howner hpool]

end Context.HasTaken

/-! ### The inputs in turn -/

namespace RuleBody

variable {context : Context}

/-- The withdrawal of inputs of which each was there at the start stops at the first one that the
inputs before it have not left enough for. -/
theorem obstacle_takeInputs (rule : RuleBody) {start reached : Ledger}
    {earlier inputs : List Specifier} (h : context.HasTaken start earlier reached)
    (hmet : ∀ specifier ∈ inputs, ∃ owner, context.get? specifier.relation = some owner ∧
      specifier.quantity ≤ start.quantity owner specifier.resource) (taken : List Movement) :
    (rule.takeInputs context reached taken inputs).2 =
      (context.firstUncovered? start earlier inputs).map .abandoned := by
  induction inputs generalizing earlier reached taken with
  | nil => rfl
  | cons specifier later ih =>
    obtain ⟨owner, howner, hstart⟩ := hmet specifier List.mem_cons_self
    rw [Context.firstUncovered?]
    by_cases hcovered : specifier.quantity ≤ reached.quantity owner specifier.resource
    · have hleft : ¬ (0 < specifier.quantity ∧ context.held start specifier -
          context.askedOf earlier specifier < specifier.quantity) := by
        rintro ⟨hpositive, hshort⟩
        rw [← h.quantity_of_pos howner hpositive hstart] at hshort
        omega
      rw [rule.takeInputs_of_le howner hcovered, if_neg hleft]
      exact ih (h.concat howner hcovered)
        (fun other hother ↦ hmet other (List.mem_cons_of_mem _ hother)) _
    · have hmissing := Int.not_le.1 hcovered
      have hpositive := h.overdrawn.pos_of_lt hstart hmissing
      have hshort : context.held start specifier - context.askedOf earlier specifier <
          specifier.quantity := by
        rwa [← h.quantity_of_pos howner hpositive hstart]
      rw [rule.takeInputs_of_lt howner hpositive hmissing, if_pos ⟨hpositive, hshort⟩]
      rfl

/-- Specifiers whose relations have owners mean some movements. -/
theorem exists_movements (rule : RuleBody) (role : Role) {specifiers : List Specifier}
    (h : ∀ specifier ∈ specifiers, context.get? specifier.relation ≠ none) :
    ∃ movements, rule.movements context role specifiers = .ok movements := by
  refine exists_mapM_eq_ok fun specifier hspecifier ↦ ?_
  obtain ⟨owner, howner⟩ := Option.ne_none_iff_exists'.1 (h specifier hspecifier)
  exact ⟨{ owner := owner, specifier := specifier }, bind_eq_ok_iff.2
    ⟨owner, (Context.owner_eq_ok_iff _ _ _ _ _).2 howner, rfl⟩⟩

/-- A round whose requirements are met, and whose outputs and sets have owners, is abandoned at the
first input that the inputs before it have not left enough for, and goes through without one. -/
theorem obstacle_apply {rule : RuleBody} {ledger : Ledger}
    (hmet : rule.shortfall? context ledger = .ok none)
    (houtputs : ∀ specifier ∈ rule.outputs, context.get? specifier.relation ≠ none)
    (hsets : ∀ specifier ∈ rule.sets, context.get? specifier.relation ≠ none) :
    (rule.apply context ledger).2 =
      (context.firstUncovered? ledger [] rule.inputs).map .abandoned := by
  obtain ⟨outputs, houtputs⟩ := rule.exists_movements .output houtputs
  obtain ⟨sets, hsets⟩ := rule.exists_movements .set hsets
  rw [← rule.obstacle_takeInputs (.refl context ledger) (inputs_met hmet) []]
  simp only [apply, houtputs, hsets]
  obtain ⟨reached, _ | obstacle⟩ := rule.takeInputs context ledger [] rule.inputs <;> rfl

/-- A round whose requirements are met, and whose outputs and sets have owners, goes through just
when every input of a positive amount asks at most what its pool held at the start less what the
inputs before it ask of that pool. So it does when no two inputs of positive amounts mean the same
pool, and what it is abandoned at is an input of a positive amount. -/
theorem apply_goes_through_iff {rule : RuleBody} {ledger : Ledger}
    (hmet : rule.shortfall? context ledger = .ok none)
    (houtputs : ∀ specifier ∈ rule.outputs, context.get? specifier.relation ≠ none)
    (hsets : ∀ specifier ∈ rule.sets, context.get? specifier.relation ≠ none) :
    ((rule.apply context ledger).2 = none ↔
        ∀ earlier specifier later, rule.inputs = earlier ++ specifier :: later →
          0 < specifier.quantity → specifier.quantity ≤
            context.held ledger specifier - context.askedOf earlier specifier) ∧
      ((rule.inputs.Pairwise fun first second ↦ 0 < first.quantity → 0 < second.quantity →
          context.meansSamePool first second = false) →
        (rule.apply context ledger).2 = none) ∧
      ∀ obstacle, (rule.apply context ledger).2 = some obstacle →
        ∃ specifier ∈ rule.inputs, obstacle = .abandoned specifier ∧ 0 < specifier.quantity := by
  have hobstacle := obstacle_apply hmet houtputs hsets
  have hiff : (rule.apply context ledger).2 = none ↔
      ∀ earlier specifier later, rule.inputs = earlier ++ specifier :: later →
        0 < specifier.quantity → specifier.quantity ≤
          context.held ledger specifier - context.askedOf earlier specifier := by
    rw [hobstacle, Option.map_eq_none_iff, Context.firstUncovered?_eq_none_iff]
    simp only [List.nil_append]
  refine ⟨hiff, fun hapart ↦ hiff.2 ?_, ?_⟩
  · intro earlier specifier later hinputs hpositive
    rw [hinputs] at hapart
    have hothers := (List.pairwise_append.1 hapart).2.2
    have hasked : context.askedOf earlier specifier ≤ 0 := by
      refine Context.askedOf_nonpos fun other hother hsame ↦ Int.not_lt.1 fun hotherPositive ↦ ?_
      rw [hothers other hother specifier List.mem_cons_self hotherPositive hpositive] at hsame
      cases hsame
    obtain ⟨owner, howner, hstart⟩ := inputs_met hmet specifier (by simp [hinputs])
    rw [Context.held_eq howner]
    omega
  · intro obstacle h
    rw [hobstacle] at h
    obtain ⟨specifier, hfirst, rfl⟩ := Option.map_eq_some_iff.1 h
    obtain ⟨before, behind, hinputs, hpositive, -⟩ :=
      Context.exists_of_firstUncovered?_eq_some hfirst
    exact ⟨specifier, by simp [hinputs], rfl, hpositive⟩

/-- A rule asks twice for 3 of one pool, which holds 4. In between it gives 2 back under another
relation, so the round goes through. It also asks for nothing of a pool that is not there, and for a
debt that there is. -/
theorem apply_goes_through_iff_refund :
    let wood : Resource := { handle := 1, key := "wood", singular := "wood", plural := "wood" }
    let debt : Resource := { handle := 2, key := "debt", singular := "debt", plural := "debt" }
    let gold : Resource := { handle := 3, key := "gold", singular := "gold", plural := "gold" }
    let near (resource : Resource) (quantity : Int) : Specifier :=
      { relation := "self", resource := resource, quantity := quantity }
    let refund : Specifier := { relation := "town", resource := wood, quantity := -2 }
    let context : Context := { entries := [("self", .world), ("town", .world)] }
    let ledger : Ledger :=
      { pools := [{ owner := .world, resource := wood, quantity := 4, capacity := 4 },
          { owner := .world, resource := debt, quantity := -5, capacity := 0 }] }
    let rule : RuleBody :=
      { handle := 4, name := "build"
        inputs := [near wood 3, refund, near wood 3, near gold 0, near debt (-5)] }
    rule.shortfall? context ledger = .ok none ∧ (rule.apply context ledger).2 = none ∧
      ∀ earlier specifier later, rule.inputs = earlier ++ specifier :: later →
        0 < specifier.quantity → specifier.quantity ≤
          context.held ledger specifier - context.askedOf earlier specifier := by
  intro wood debt gold near refund context ledger rule
  have hmet : rule.shortfall? context ledger = .ok none := by decide
  have hthrough : (rule.apply context ledger).2 = none := by decide
  exact ⟨hmet, hthrough, (apply_goes_through_iff hmet (by decide) (by decide)).1.1 hthrough⟩

end RuleBody

end TickEconomy
