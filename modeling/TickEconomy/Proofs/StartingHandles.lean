import Mathlib.Data.Set.Function
import Mathlib.Order.Interval.Set.Defs
import TickEconomy.Proofs.RenumberedRuns
import TickEconomy.Proofs.RenumberedTexts
import TickEconomy.Source

/-!
# It does not matter from which handle texts are numbered

Resources are numbered from a first handle on, and the rules behind them. Read from another first
handle, the same texts describe the same resources, rules and scenario up to a renumbering that
keeps different handles different (`Renumbering.restart`), or they are refused with the same error.
And the two simulations tell the same (`Simulation.TellsTheSame`) after any number of ticks
(`handles_matter_up_to_equality`).

The handles below the first one are not used, and a renumbering to an earlier first handle cannot
keep them apart from the others. So the two readings are not compared with each other, but each with
the reading from handle zero on, of which it is a shift (`Renumbering.shift`).
-/

set_option autoImplicit false
set_option relaxedAutoImplicit false

namespace TickEconomy

/-! ### Shifts and restarts -/

namespace Renumbering

/-- Handles counted from the given one on instead of from zero on. -/
def shift (first : Nat) : Renumbering where
  resource := (first + ·)
  rule := (first + ·)

/-- Handles counted from the second one on instead of from the first one on. -/
def restart (first second : Nat) : Renumbering where
  resource handle := second + (handle - first)
  rule handle := second + (handle - first)

theorem isInjective_shift (first : Nat) : (shift first).IsInjective where
  resource _ _ := Nat.add_left_cancel
  rule _ _ := Nat.add_left_cancel

@[simp]
theorem restart_after_shift (first second : Nat) :
    (restart first second).after (shift first) = shift second := by
  simp [after, restart, shift, Function.comp_def]

/-- A restart keeps different handles different from the first one on. -/
theorem injOn_restart (first second : Nat) :
    Set.InjOn (fun handle ↦ second + (handle - first)) (Set.Ici first) := by
  intro handle hhandle other hother hsame
  simp only [Set.mem_Ici] at hhandle hother
  simp only at hsame
  omega

end Renumbering

open Renumbering

/-! ### Sources -/

/-- When the lines of a source come to a changed result, so does the source. -/
theorem SourceText.parse_map {Result OtherResult : Type}
    {parseLines : List (List Char) → Except ParseError Result}
    {parseOther : List (List Char) → Except ParseError OtherResult}
    (change : Result → OtherResult) (h : ∀ lines, parseOther lines = change <$> parseLines lines)
    (text : SourceText) : text.parse parseOther = change <$> text.parse parseLines := by
  rw [parse, parse, h]
  cases parseLines text.lines with
  | ok result => cases hwhole : text.isWhole <;> simp [settle, hwhole, Functor.map, Except.map]
  | error error =>
    by_cases hshown : text.isWhole || !error.cause.awaitsEnd
    · simp [settle, hshown, Functor.map, Except.map]
    · simp [settle, hshown, Functor.map, Except.map]

/-! ### Simulations that tell the same -/

/-- The two simulations have the same report and the same snapshot, and at the next tick as many
batches of the one break off as of the other, and the log says the same of it. -/
structure Simulation.TellsTheSame (first second : Simulation) : Prop where
  failures : first.step.failures = second.step.failures
  log : logLines first.step.journal = logLines second.step.journal
  report : first.report = second.report
  snapshot : first.snapshot.text = second.snapshot.text

namespace Simulation

theorem TellsTheSame.of_common {first second common : Simulation}
    (hfirst : first.TellsTheSame common) (hsecond : second.TellsTheSame common) :
    first.TellsTheSame second where
  failures := hfirst.failures.trans hsecond.failures.symm
  log := hfirst.log.trans hsecond.log.symm
  report := hfirst.report.trans hsecond.report.symm
  snapshot := hfirst.snapshot.trans hsecond.snapshot.symm

/-- The simulation of a renumbered scenario tells the same as that of the original one. -/
theorem tellsTheSame_renumbered {numbering : Renumbering} (hnumbering : numbering.IsInjective)
    (scenario : Scenario) (ticks : Nat) :
    ((ofScenario (scenario.renumbered numbering)).after ticks).TellsTheSame
      ((ofScenario scenario).after ticks) := by
  have hafter : (ofScenario (scenario.renumbered numbering)).after ticks =
      ((ofScenario scenario).after ticks).renumbered numbering :=
    after_renumbered hnumbering (ofScenario scenario) ticks
  rw [hafter]
  constructor
  · rw [step_renumbered hnumbering, Tick.failures_renumbered]
  · rw [step_renumbered hnumbering, Tick.logLines_renumbered]
  · exact report_renumbered _
  · rw [snapshot_renumbered]

end Simulation

/-! ### The three texts -/

section Texts

variable (first second : Nat) (source : Source)

theorem Resource.parse_shift :
    source.read.parse (parse first) =
      List.map (Resource.renumbered (shift first)) <$> source.read.parse (parse 0) :=
  SourceText.parse_map _ (parse_renumbered (isInjective_shift first).resource
    fun count ↦ by rw [Nat.zero_add]; rfl) source.read

theorem Resource.parse_restart :
    source.read.parse (parse second) =
      List.map (Resource.renumbered (restart first second)) <$>
        source.read.parse (parse first) := by
  rw [parse_shift first, parse_shift second, Functor.map_map]
  simp only [List.map_map, Function.comp_def, renumbered_renumbered, restart_after_shift]

theorem Rule.parse_shift (catalog : Catalog) (count : Nat) :
    source.read.parse (parse (catalog.renumbered (shift first)) (first + count)) =
      List.map (Rule.renumbered (shift first)) <$> source.read.parse (parse catalog count) :=
  SourceText.parse_map _ (parse_renumbered (fun more ↦ (Nat.add_assoc first count more).symm)
    catalog) source.read

theorem Rule.parse_restart (catalog : Catalog) (count : Nat) :
    source.read.parse (parse (catalog.renumbered (restart first second)) (second + count)) =
      List.map (Rule.renumbered (restart first second)) <$>
        source.read.parse (parse catalog (first + count)) := by
  refine SourceText.parse_map _ (parse_renumbered (fun more ↦ ?_) catalog) source.read
  simp only [restart]
  omega

theorem Scenario.parse_shift (catalog : Catalog) (rules : List Rule) :
    source.read.parse (parse (catalog.renumbered (shift first))
        (rules.map (Rule.renumbered (shift first)))) =
      Scenario.renumbered (shift first) <$> source.read.parse (parse catalog rules) :=
  SourceText.parse_map _ (parse_renumbered (isInjective_shift first).resource catalog rules)
    source.read

/-- The resources and rules may be numbered from any first handle on, so they are given as those
numbered from zero on. -/
theorem Scenario.parse_restart (catalog : Catalog) (rules : List Rule) :
    let shifted := rules.map (Rule.renumbered (shift first))
    source.read.parse (parse
        ((catalog.renumbered (shift first)).renumbered (restart first second))
        (shifted.map (Rule.renumbered (restart first second)))) =
      Scenario.renumbered (restart first second) <$>
        source.read.parse (parse (catalog.renumbered (shift first)) shifted) := by
  intro shifted
  have hshifted : shifted.map (Rule.renumbered (restart first second)) =
      rules.map (Rule.renumbered (shift second)) := by
    simp only [shifted, List.map_map, Function.comp_def, Rule.renumbered_renumbered,
      restart_after_shift]
  rw [hshifted, Catalog.renumbered_renumbered, restart_after_shift, parse_shift first,
    parse_shift second, Functor.map_map]
  simp only [renumbered_renumbered, restart_after_shift]

end Texts

/-- Whatever a resource, a rule and a scenario text are, and from whichever handles their resources
and rules are numbered: they are accepted alike or refused with the same error, their resources and
rules correspond in order under a renumbering that keeps different handles different, and their
simulations tell the same after any number of ticks. -/
theorem handles_matter_up_to_equality (first second : Nat)
    (resourceSource ruleSource scenarioSource : Source) :
    let moved := restart first second
    moved.resource = moved.rule ∧ Set.InjOn moved.resource (Set.Ici first) ∧
      resourceSource.read.parse (Resource.parse second) =
        List.map (Resource.renumbered moved) <$>
          resourceSource.read.parse (Resource.parse first) ∧
      ∀ resources, resourceSource.read.parse (Resource.parse first) = .ok resources →
        let catalog : Catalog := { resources := resources }
        let parseRules := Rule.parse catalog (first + resources.length)
        (∀ resource ∈ resources, first ≤ resource.handle) ∧
          ruleSource.read.parse
              (Rule.parse (catalog.renumbered moved) (second + resources.length)) =
            List.map (Rule.renumbered moved) <$> ruleSource.read.parse parseRules ∧
          ∀ rules, ruleSource.read.parse parseRules = .ok rules →
            let parseScenario := Scenario.parse catalog rules
            (∀ rule ∈ rules, ∀ body ∈ rule.bodies, first ≤ body.handle) ∧
              scenarioSource.read.parse (Scenario.parse (catalog.renumbered moved)
                  (rules.map (Rule.renumbered moved))) =
                Scenario.renumbered moved <$> scenarioSource.read.parse parseScenario ∧
              ∀ scenario, scenarioSource.read.parse parseScenario = .ok scenario → ∀ ticks,
                ((Simulation.ofScenario (scenario.renumbered moved)).after ticks).TellsTheSame
                  ((Simulation.ofScenario scenario).after ticks) := by
  intro moved
  refine ⟨rfl, injOn_restart first second, Resource.parse_restart first second resourceSource, ?_⟩
  intro resources hresources catalog parseRules
  rw [Resource.parse_shift] at hresources
  obtain ⟨baseResources, -, rfl⟩ := map_eq_ok_iff.1 hresources
  refine ⟨fun resource hresource ↦ ?_, Rule.parse_restart first second ruleSource catalog _, ?_⟩
  · obtain ⟨base, -, rfl⟩ := List.mem_map.1 hresource
    exact Nat.le_add_right first base.handle
  intro rules hrules parseScenario
  let base : Catalog := { resources := baseResources }
  have hshifted := Rule.parse_shift first ruleSource base catalog.resources.length
  obtain ⟨baseRules, -, rfl⟩ := map_eq_ok_iff.1 (hshifted.symm.trans hrules)
  refine ⟨fun rule hrule body hbody ↦ ?_,
    Scenario.parse_restart first second scenarioSource base baseRules, ?_⟩
  · obtain ⟨baseRule, -, rfl⟩ := List.mem_map.1 hrule
    rw [Rule.bodies_renumbered] at hbody
    obtain ⟨baseBody, -, rfl⟩ := List.mem_map.1 hbody
    exact Nat.le_add_right first baseBody.handle
  intro scenario hscenario ticks
  have hbase := Scenario.parse_shift first scenarioSource base baseRules
  obtain ⟨baseScenario, -, rfl⟩ := map_eq_ok_iff.1 (hbase.symm.trans hscenario)
  have hfirst :=
    Simulation.tellsTheSame_renumbered (isInjective_shift first) baseScenario ticks
  have hsecond :=
    Simulation.tellsTheSame_renumbered (isInjective_shift second) baseScenario ticks
  rw [Scenario.renumbered_renumbered, restart_after_shift]
  exact hsecond.of_common hfirst

/-- A mill that gleans when it is short of grain, numbered from 1 and from 41. -/
theorem handles_matter_up_to_equality_mill :
    let resourceSource := Source.text "resource grain\nend\nresource flour\nend\n"
    let ruleSource := Source.text ("rule grind\nin grain 2\nout flour 1\nonfail glean\nend\n" ++
      "rule glean\nout grain 3\nend\n")
    let scenarioSource := Source.text ("agent miller\npool grain 9 3\npool flour 5 0\n" ++
      "rules grind\nend\n")
    let grain (first : Nat) : Resource :=
      { handle := first, key := "grain", singular := "grain", plural := "grain" }
    let flour (first : Nat) : Resource :=
      { handle := first + 1, key := "flour", singular := "flour", plural := "flour" }
    let glean (first : Nat) : RuleBody :=
      { handle := first + 3, name := "glean"
        outputs := [{ relation := "self", resource := grain first, quantity := 3 }] }
    let grind (first : Nat) : Rule :=
      { handle := first + 2, name := "grind"
        inputs := [{ relation := "self", resource := grain first, quantity := 2 }]
        outputs := [{ relation := "self", resource := flour first, quantity := 1 }]
        fallbacks := [glean first] }
    let rules (first : Nat) : List Rule := [grind first, Rule.ofBodies (glean first) []]
    let catalog (first : Nat) : Catalog := { resources := [grain first, flour first] }
    let miller := Owner.agent "miller"
    let scenario (first : Nat) : Scenario :=
      { agents := [{ name := "miller", rules := [grind first] }]
        ledger :=
          { pools := [{ owner := miller, resource := grain first, capacity := 9, quantity := 3 },
              { owner := miller, resource := flour first, capacity := 5, quantity := 0 }] } }
    resourceSource.read.parse (Resource.parse 41) = .ok (catalog 41).resources ∧
      ruleSource.read.parse (Rule.parse (catalog 41) 43) = .ok (rules 41) ∧
      scenarioSource.read.parse (Scenario.parse (catalog 41) (rules 41)) = .ok (scenario 41) ∧
      ∀ ticks, ((Simulation.ofScenario (scenario 41)).after ticks).TellsTheSame
        ((Simulation.ofScenario (scenario 1)).after ticks) := by
  intro resourceSource ruleSource scenarioSource grain flour glean grind rules catalog miller
    scenario
  have hresources : resourceSource.read.parse (Resource.parse 1) = .ok (catalog 1).resources := by
    decide +kernel
  have hrules : ruleSource.read.parse (Rule.parse (catalog 1) 3) = .ok (rules 1) := by
    decide +kernel
  have hscenario : scenarioSource.read.parse (Scenario.parse (catalog 1) (rules 1)) =
      .ok (scenario 1) := by
    decide +kernel
  obtain ⟨-, -, hmovedResources, hrest⟩ :=
    handles_matter_up_to_equality 1 41 resourceSource ruleSource scenarioSource
  obtain ⟨-, hmovedRules, hrest⟩ := hrest _ hresources
  obtain ⟨-, hmovedScenario, htold⟩ := hrest _ hrules
  refine ⟨?_, ?_, ?_, htold _ hscenario⟩
  · rw [hmovedResources, hresources]
    rfl
  · exact hmovedRules.trans (congrArg _ hrules)
  · exact hmovedScenario.trans (congrArg _ hscenario)

end TickEconomy
