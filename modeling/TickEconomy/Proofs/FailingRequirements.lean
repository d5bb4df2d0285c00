import TickEconomy.Proofs.RoundAtomicity

/-!
# Failing requirements

Before a round the requirements of a rule are gone through one by one, its conditions in declared
order and then its inputs. A requirement can fail in two ways. It fails hard when it cannot be
decided, since its relation has no pools in the context or its comparison has no meaning
(`Requirement.FailsHard`); what the pools hold plays no part in that. It fails softly when it can be
decided and does not hold (`Requirement.FailsSoftly`). It is met when it does neither
(`Requirement.verdict_eq_met_iff`).

A requirement that is met lets the check go on (`firstShortfall_append`), so the check reaches a
requirement when none before it fails (`Requirement.IsReached`). It ends in an error when it reaches
one that fails hard (`RuleBody.shortfall?_eq_error_iff`), in a shortfall when it reaches one that
fails softly (`RuleBody.shortfall?_eq_some_iff`), and finds nothing when none fails
(`RuleBody.shortfall?_eq_none_iff`).
-/

set_option autoImplicit false
set_option relaxedAutoImplicit false

namespace TickEconomy

/-! ### Comparisons -/

namespace Comparison

/-- The comparison of a quantity with the wanted one has a meaning and does not hold. -/
def IsFalse (comparison : Comparison) (quantity wanted : Int) : Prop :=
  match comparison with
  | equal => quantity ≠ wanted
  | greater => quantity ≤ wanted
  | greaterOrEqual => quantity < wanted
  | less => wanted ≤ quantity
  | lessOrEqual => wanted < quantity
  | unknown _ => False

variable {comparison : Comparison} {quantity wanted : Int}

theorem holds?_eq_some_false_iff :
    comparison.holds? quantity wanted = some false ↔ comparison.IsFalse quantity wanted := by
  cases comparison <;> simp [holds?, IsFalse]

theorem holds?_eq_none_iff :
    comparison.holds? quantity wanted = none ↔ ∃ code, comparison = .unknown code := by
  cases comparison <;> simp [holds?]

end Comparison

/-! ### Failing -/

namespace Requirement

/-- The requirement of the rule cannot be decided in the context, with an error. -/
inductive FailsHard (rule : RuleBody) (context : Context) : Requirement → EvaluationError → Prop
  /-- The relation of a condition has no pools. -/
  | condition (demand : Condition) (hnone : context.get? demand.relation = none) :
      FailsHard rule context (.condition demand)
        (.poolsMissing rule.name .precondition demand.relation)
  /-- The comparison of a condition has no meaning. -/
  | comparison (demand : Condition) (owner : Owner) (code : Int)
      (howner : context.get? demand.relation = some owner)
      (hcomparison : demand.comparison = .unknown code) :
      FailsHard rule context (.condition demand) (.comparisonUnknown rule.name code)
  /-- The relation of an input has no pools. -/
  | input (specifier : Specifier) (hnone : context.get? specifier.relation = none) :
      FailsHard rule context (.input specifier)
        (.poolsMissing rule.name .input specifier.relation)

/-- The requirement does not hold in the context, with the quantity that its pool has. Where there
is no pool of the resource, the quantity is zero. -/
inductive FailsSoftly (context : Context) (ledger : Ledger) : Requirement → Int → Prop
  /-- The comparison of a condition is false. -/
  | condition (demand : Condition) (owner : Owner)
      (howner : context.get? demand.relation = some owner)
      (hfalse : demand.comparison.IsFalse (ledger.quantity owner demand.resource)
        demand.quantity) :
      FailsSoftly context ledger (.condition demand) (ledger.quantity owner demand.resource)
  /-- The quantity of an input is more than its pool has. -/
  | input (specifier : Specifier) (owner : Owner)
      (howner : context.get? specifier.relation = some owner)
      (hshort : ledger.quantity owner specifier.resource < specifier.quantity) :
      FailsSoftly context ledger (.input specifier) (ledger.quantity owner specifier.resource)

/-- The requirement of the rule fails hard or softly. -/
def Fails (rule : RuleBody) (context : Context) (ledger : Ledger) (requirement : Requirement) :
    Prop :=
  (∃ error, requirement.FailsHard rule context error) ∨
    ∃ quantity, requirement.FailsSoftly context ledger quantity

variable {rule : RuleBody} {context : Context} {ledger : Ledger} {requirement : Requirement}
  {error : EvaluationError} {quantity : Int}

theorem FailsHard.verdict_eq (h : requirement.FailsHard rule context error) (ledger : Ledger) :
    requirement.verdict rule context ledger = .undecided error := by
  cases h with
  | condition demand hnone => simp only [verdict, Context.owner, hnone]
  | comparison demand owner code howner hcode =>
    simp only [verdict, Context.owner, howner, hcode, Comparison.holds?, Comparison.code]
  | input specifier hnone => simp only [verdict, Context.owner, hnone]

theorem FailsSoftly.verdict_eq (h : requirement.FailsSoftly context ledger quantity)
    (rule : RuleBody) : requirement.verdict rule context ledger = .unmet quantity := by
  cases h with
  | condition demand owner howner hfalse =>
    simp only [verdict, Context.owner, howner, Comparison.holds?_eq_some_false_iff.2 hfalse]
  | input specifier owner howner hshort =>
    simp only [verdict, Context.owner, howner, if_pos hshort]

/-- A requirement fails hard, fails softly or is met. -/
theorem verdict_cases (rule : RuleBody) (context : Context) (ledger : Ledger)
    (requirement : Requirement) :
    (∃ error, requirement.FailsHard rule context error) ∨
      (∃ quantity, requirement.FailsSoftly context ledger quantity) ∨
        requirement.verdict rule context ledger = .met := by
  cases requirement with
  | condition demand =>
    cases howner : context.get? demand.relation with
    | none => exact Or.inl ⟨_, .condition demand howner⟩
    | some owner =>
      cases hholds : demand.comparison.holds? (ledger.quantity owner demand.resource)
        demand.quantity with
      | none =>
        obtain ⟨code, hcode⟩ := Comparison.holds?_eq_none_iff.1 hholds
        exact Or.inl ⟨_, .comparison demand owner code howner hcode⟩
      | some answer =>
        cases answer with
        | false =>
          have hfalse := Comparison.holds?_eq_some_false_iff.1 hholds
          exact Or.inr (Or.inl ⟨_, .condition demand owner howner hfalse⟩)
        | true => exact Or.inr (Or.inr (by simp only [verdict, Context.owner, howner, hholds]))
  | input specifier =>
    cases howner : context.get? specifier.relation with
    | none => exact Or.inl ⟨_, .input specifier howner⟩
    | some owner =>
      by_cases hshort : ledger.quantity owner specifier.resource < specifier.quantity
      · exact Or.inr (Or.inl ⟨_, .input specifier owner howner hshort⟩)
      · exact Or.inr (Or.inr (by simp only [verdict, Context.owner, howner, if_neg hshort]))

/-- A requirement is met when it does not fail. -/
theorem verdict_eq_met_iff :
    requirement.verdict rule context ledger = .met ↔ ¬ requirement.Fails rule context ledger := by
  constructor
  · rintro hmet (⟨error, hhard⟩ | ⟨quantity, hsoft⟩)
    · cases (hhard.verdict_eq ledger).symm.trans hmet
    · cases (hsoft.verdict_eq rule).symm.trans hmet
  · intro h
    obtain hhard | hsoft | hmet := verdict_cases rule context ledger requirement
    · exact absurd (Or.inl hhard) h
    · exact absurd (Or.inr hsoft) h
    · exact hmet

end Requirement

/-! ### The check -/

/-- No requirement fails, or there is a first one that does. -/
theorem exists_first_failure (rule : RuleBody) (context : Context) (ledger : Ledger)
    (requirements : List Requirement) :
    (∀ requirement ∈ requirements, ¬ requirement.Fails rule context ledger) ∨
      ∃ earlier requirement later, requirements = earlier ++ requirement :: later ∧
        (∀ other ∈ earlier, ¬ other.Fails rule context ledger) ∧
        requirement.Fails rule context ledger := by
  induction requirements with
  | nil => exact Or.inl (by simp)
  | cons first rest ih =>
    by_cases hfirst : first.Fails rule context ledger
    · exact Or.inr ⟨[], first, rest, rfl, by simp, hfirst⟩
    obtain hnone | ⟨earlier, requirement, later, rfl, hearlier, hfails⟩ := ih
    · exact Or.inl (List.forall_mem_cons.2 ⟨hfirst, hnone⟩)
    · exact Or.inr ⟨first :: earlier, requirement, later, rfl,
        List.forall_mem_cons.2 ⟨hfirst, hearlier⟩, hfails⟩

/-- Requirements that do not fail let the check go on to those behind them. -/
theorem firstShortfall_append {rule : RuleBody} {context : Context} {ledger : Ledger}
    {earlier : List Requirement}
    (h : ∀ requirement ∈ earlier, ¬ requirement.Fails rule context ledger)
    (later : List Requirement) :
    firstShortfall rule context ledger (earlier ++ later) =
      firstShortfall rule context ledger later := by
  induction earlier with
  | nil => rfl
  | cons requirement others ih =>
    obtain ⟨hrequirement, hothers⟩ := List.forall_mem_cons.1 h
    rw [List.cons_append, firstShortfall, Requirement.verdict_eq_met_iff.2 hrequirement]
    exact ih hothers

/-- The requirements of the rule, its conditions in declared order and then its inputs, are the
earlier ones, this one and more. -/
def RuleBody.ComesAfter (rule : RuleBody) (earlier : List Requirement)
    (requirement : Requirement) : Prop :=
  ∃ later, rule.preconditions.map .condition ++ rule.inputs.map .input =
    earlier ++ requirement :: later

/-- The requirement is one of the rule, and none before it fails. -/
def Requirement.IsReached (rule : RuleBody) (context : Context) (ledger : Ledger)
    (requirement : Requirement) : Prop :=
  ∃ earlier, rule.ComesAfter earlier requirement ∧
    ∀ other ∈ earlier, ¬ other.Fails rule context ledger

theorem Requirement.IsReached.mem {rule : RuleBody} {context : Context} {ledger : Ledger}
    {requirement : Requirement} (h : requirement.IsReached rule context ledger) :
    requirement ∈ rule.requirements := by
  obtain ⟨earlier, ⟨later, hlist⟩, -⟩ := h
  rw [RuleBody.requirements, hlist]
  exact List.mem_append_right _ List.mem_cons_self

namespace RuleBody

variable {rule : RuleBody} {context : Context} {ledger : Ledger} {requirement : Requirement}
  {error : EvaluationError} {shortfall : Shortfall}

theorem shortfall?_of_failsHard (hreached : requirement.IsReached rule context ledger)
    (hhard : requirement.FailsHard rule context error) :
    rule.shortfall? context ledger = .error error := by
  obtain ⟨earlier, ⟨later, hlist⟩, hearlier⟩ := hreached
  rw [shortfall?, requirements, hlist, firstShortfall_append hearlier, firstShortfall,
    hhard.verdict_eq ledger]

theorem shortfall?_of_failsSoftly {quantity : Int}
    (hreached : requirement.IsReached rule context ledger)
    (hsoft : requirement.FailsSoftly context ledger quantity) :
    rule.shortfall? context ledger =
      .ok (some { requirement := requirement, quantity := quantity }) := by
  obtain ⟨earlier, ⟨later, hlist⟩, hearlier⟩ := hreached
  rw [shortfall?, requirements, hlist, firstShortfall_append hearlier, firstShortfall,
    hsoft.verdict_eq rule]

/-- The check finds nothing when no requirement fails. -/
theorem shortfall?_eq_none_iff : rule.shortfall? context ledger = .ok none ↔
    ∀ requirement ∈ rule.requirements, ¬ requirement.Fails rule context ledger := by
  rw [shortfall?, firstShortfall_eq_none_iff]
  simp only [Requirement.verdict_eq_met_iff]

/-- What the check comes to: it reaches a requirement that fails in one way or the other, or it
finds nothing. -/
theorem shortfall?_cases (rule : RuleBody) (context : Context) (ledger : Ledger) :
    (∃ requirement : Requirement, requirement.IsReached rule context ledger ∧
      requirement.Fails rule context ledger) ∨ rule.shortfall? context ledger = .ok none := by
  obtain hnone | ⟨earlier, requirement, later, hlist, hearlier, hfails⟩ :=
    exists_first_failure rule context ledger rule.requirements
  · exact Or.inr (shortfall?_eq_none_iff.2 hnone)
  · exact Or.inl ⟨requirement, ⟨earlier, ⟨later, hlist⟩, hearlier⟩, hfails⟩

/-- The check ends in an error when it reaches a requirement that fails hard. -/
theorem shortfall?_eq_error_iff : rule.shortfall? context ledger = .error error ↔
    ∃ requirement : Requirement, requirement.IsReached rule context ledger ∧
      requirement.FailsHard rule context error := by
  refine ⟨fun h ↦ ?_, fun ⟨requirement, hreached, hhard⟩ ↦
    shortfall?_of_failsHard hreached hhard⟩
  obtain ⟨requirement, hreached, ⟨other, hhard⟩ | ⟨quantity, hsoft⟩⟩ | hnone :=
    rule.shortfall?_cases context ledger
  · obtain rfl := Except.error.inj ((shortfall?_of_failsHard hreached hhard).symm.trans h)
    exact ⟨requirement, hreached, hhard⟩
  · cases (shortfall?_of_failsSoftly hreached hsoft).symm.trans h
  · cases hnone.symm.trans h

/-- The check finds a shortfall when it reaches a requirement that fails softly. -/
theorem shortfall?_eq_some_iff : rule.shortfall? context ledger = .ok (some shortfall) ↔
    shortfall.requirement.IsReached rule context ledger ∧
      shortfall.requirement.FailsSoftly context ledger shortfall.quantity := by
  refine ⟨fun h ↦ ?_, fun ⟨hreached, hsoft⟩ ↦ shortfall?_of_failsSoftly hreached hsoft⟩
  obtain ⟨requirement, hreached, ⟨other, hhard⟩ | ⟨quantity, hsoft⟩⟩ | hnone :=
    rule.shortfall?_cases context ledger
  · cases (shortfall?_of_failsHard hreached hhard).symm.trans h
  · obtain rfl := Option.some.inj
      (Except.ok.inj ((shortfall?_of_failsSoftly hreached hsoft).symm.trans h))
    exact ⟨hreached, hsoft⟩
  · cases hnone.symm.trans h

end RuleBody

end TickEconomy
