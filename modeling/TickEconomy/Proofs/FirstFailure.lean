import TickEconomy.Proofs.FailingRequirements
import TickEconomy.Proofs.UncaughtErrors

/-!
# The first failing requirement decides

Several requirements of a rule may fail at once, some hard and some softly. The check reaches the
first of them and no other (`RuleBody.ComesAfter.isReached_or`), so of all failures the earliest
shows, whatever its kind: a hard one shows when no soft one comes before it
(`RuleBody.exists_shortfall?_eq_error_iff`), and a soft one when no hard one does
(`RuleBody.exists_shortfall?_eq_some_iff`). `RuleBody.first_failure_decides` says all that the check
can come to, and that it leaves the pools alone.
-/

set_option autoImplicit false
set_option relaxedAutoImplicit false

namespace TickEconomy.RuleBody

variable {rule : RuleBody} {context : Context} {ledger : Ledger} {requirement : Requirement}
  {earlier : List Requirement}

/-- The check reaches a requirement, or a failing one before it. -/
theorem ComesAfter.isReached_or (h : rule.ComesAfter earlier requirement) (context : Context)
    (ledger : Ledger) :
    requirement.IsReached rule context ledger ∨
      ∃ other ∈ earlier, other.IsReached rule context ledger ∧ other.Fails rule context ledger := by
  obtain ⟨later, hlist⟩ := h
  obtain hnone | ⟨first, other, more, rfl, hfirst, hfails⟩ :=
    exists_first_failure rule context ledger earlier
  · exact Or.inl ⟨earlier, ⟨later, hlist⟩, hnone⟩
  · refine Or.inr ⟨other, by simp, ⟨first, ⟨more ++ requirement :: later, ?_⟩, hfirst⟩, hfails⟩
    rw [hlist, List.append_assoc, List.cons_append]

/-- A hard failure shows when no soft one comes before it. -/
theorem exists_shortfall?_eq_error_iff :
    (∃ error, rule.shortfall? context ledger = .error error) ↔
      ∃ earlier requirement, rule.ComesAfter earlier requirement ∧
        (∃ error, requirement.FailsHard rule context error) ∧
        ∀ other ∈ earlier, ∀ quantity, ¬ other.FailsSoftly context ledger quantity := by
  constructor
  · rintro ⟨error, h⟩
    obtain ⟨requirement, ⟨earlier, hafter, hearlier⟩, hhard⟩ := shortfall?_eq_error_iff.1 h
    exact ⟨earlier, requirement, hafter, ⟨error, hhard⟩,
      fun other hother quantity hsoft ↦ hearlier other hother (Or.inr ⟨quantity, hsoft⟩)⟩
  · rintro ⟨earlier, requirement, hafter, ⟨error, hhard⟩, hearlier⟩
    -- When the check does not get so far, it is because an earlier one fails, and hard as well.
    obtain hreached | ⟨other, hother, hreached, ⟨found, hfound⟩ | ⟨quantity, hsoft⟩⟩ :=
      hafter.isReached_or context ledger
    · exact ⟨error, shortfall?_of_failsHard hreached hhard⟩
    · exact ⟨found, shortfall?_of_failsHard hreached hfound⟩
    · exact absurd hsoft (hearlier other hother quantity)

/-- A soft failure shows when no hard one comes before it. -/
theorem exists_shortfall?_eq_some_iff :
    (∃ shortfall, rule.shortfall? context ledger = .ok (some shortfall)) ↔
      ∃ earlier requirement, rule.ComesAfter earlier requirement ∧
        (∃ quantity, requirement.FailsSoftly context ledger quantity) ∧
        ∀ other ∈ earlier, ∀ error, ¬ other.FailsHard rule context error := by
  constructor
  · rintro ⟨shortfall, h⟩
    obtain ⟨⟨earlier, hafter, hearlier⟩, hsoft⟩ := shortfall?_eq_some_iff.1 h
    exact ⟨earlier, shortfall.requirement, hafter, ⟨shortfall.quantity, hsoft⟩,
      fun other hother error hhard ↦ hearlier other hother (Or.inl ⟨error, hhard⟩)⟩
  · rintro ⟨earlier, requirement, hafter, ⟨quantity, hsoft⟩, hearlier⟩
    obtain hreached | ⟨other, hother, hreached, ⟨error, hhard⟩ | ⟨held, hheld⟩⟩ :=
      hafter.isReached_or context ledger
    · exact ⟨_, shortfall?_of_failsSoftly hreached hsoft⟩
    · exact absurd hhard (hearlier other hother error)
    · exact ⟨_, shortfall?_of_failsSoftly hreached hheld⟩

/-- What keeps a rule from a round is the first of its conditions, or else of its inputs, that
fails: an error when that one fails hard, a shortfall when it fails softly, and nothing when there
is none. So a soft failure hides the hard ones behind it, and a hard one the soft ones behind it.
Going through the requirements step by step leaves every pool as it was, whatever comes of it. -/
theorem first_failure_decides (rule : RuleBody) (context : Context) (ledger : Ledger) :
    (∀ error, rule.shortfall? context ledger = .error error ↔
      ∃ requirement : Requirement, requirement.IsReached rule context ledger ∧
        requirement.FailsHard rule context error) ∧
    (∀ shortfall, rule.shortfall? context ledger = .ok (some shortfall) ↔
      shortfall.requirement.IsReached rule context ledger ∧
        shortfall.requirement.FailsSoftly context ledger shortfall.quantity) ∧
    (rule.shortfall? context ledger = .ok none ↔
      (∀ demand ∈ rule.preconditions,
        ¬ (Requirement.condition demand).Fails rule context ledger) ∧
      ∀ specifier ∈ rule.inputs, ¬ (Requirement.input specifier).Fails rule context ledger) ∧
    ((∃ error, rule.shortfall? context ledger = .error error) ↔
      ∃ earlier requirement, rule.ComesAfter earlier requirement ∧
        (∃ error, requirement.FailsHard rule context error) ∧
        ∀ other ∈ earlier, ∀ quantity, ¬ other.FailsSoftly context ledger quantity) ∧
    ((∃ shortfall, rule.shortfall? context ledger = .ok (some shortfall)) ↔
      ∃ earlier requirement, rule.ComesAfter earlier requirement ∧
        (∃ quantity, requirement.FailsSoftly context ledger quantity) ∧
        ∀ other ∈ earlier, ∀ error, ¬ other.FailsHard rule context error) ∧
    Raising.firstShortfall rule context rule.requirements ledger =
      match rule.shortfall? context ledger with
      | .ok shortfall => .ok shortfall ledger
      | .error error => .error (.evaluation error) ledger := by
  refine ⟨fun _ ↦ shortfall?_eq_error_iff, fun _ ↦ shortfall?_eq_some_iff, ?_,
    exists_shortfall?_eq_error_iff, exists_shortfall?_eq_some_iff,
    Raising.firstShortfall_eq _ _ _ _⟩
  rw [shortfall?_eq_none_iff, requirements, List.forall_mem_append]
  simp only [List.forall_mem_map]

-- A condition that is false hides a later one whose comparison has no meaning.
example :
    let wood : Resource := { handle := 1, key := "wood", singular := "wood", plural := "wood" }
    let demand (comparison : Comparison) : Condition :=
      { relation := "self", resource := wood, quantity := 3, comparison := comparison }
    let context : Context := { entries := [("self", .world)] }
    let rule : RuleBody :=
      { handle := 2, name := "build"
        preconditions := [demand .equal, demand (.unknown (-1))] }
    rule.shortfall? context {} =
      .ok (some { requirement := .condition (demand .equal), quantity := 0 }) := by decide

end TickEconomy.RuleBody
