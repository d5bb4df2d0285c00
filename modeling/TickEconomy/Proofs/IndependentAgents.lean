import TickEconomy.Proofs.Footprint

/-!
# Agents that do not depend on each other may take their turns in either order

Two turns are independent when no pool that one of them writes is read or written by the other
(`Scope.Independent`). Each of them then comes to the same whether it is taken before or after the
other, and the pools are the same in the end (`Scope.Independent.ledger_comm`).

Along a simulation the order of the turns shows only in the order in which schedules are first
entered. Two simulations are alike when they have gone through the same number of ticks, hold the
same pools and schedule every owner's rules alike (`Simulation.Alike`). Turns keep simulations alike
(`Simulation.alike_runScopes`), and so does an exchange of two independent turns
(`Simulation.alike_runScopes_swap`). Agents of a scenario text have distinct names
(`Scenario.nodup_names_of_parse`), hence schedules of their own, so in the simulation of such a text
two independent neighbours may change places (`Simulation.after_swap_of_independent`).
-/

set_option autoImplicit false
set_option relaxedAutoImplicit false

namespace TickEconomy

/-! ### Independent turns -/

/-- No pool that one of the turns may change is looked at or may be changed in the other. -/
structure Scope.Independent (first second : Scope) : Prop where
  first_writes : ∀ key ∈ first.writtenKeys, key ∉ second.readKeys ∧ key ∉ second.writtenKeys
  second_writes : ∀ key ∈ second.writtenKeys, key ∉ first.readKeys ∧ key ∉ first.writtenKeys

namespace Scope.Independent

variable {first second : Scope}

theorem symm (h : first.Independent second) : second.Independent first :=
  ⟨h.second_writes, h.first_writes⟩

/-- A turn comes to the same after a turn that it does not depend on, and leads to ledgers that
agree on what it reads or writes. -/
theorem runBatch_after (h : first.Independent second) (tick : Int) (schedule other : Schedule)
    (ledger : Ledger) :
    (runBatch second.context tick other ledger second.rules).AgreeOn
      (fun key ↦ key ∈ second.readKeys ∨ key ∈ second.writtenKeys)
      (runBatch second.context tick other
        (runBatch first.context tick schedule ledger first.rules).ledger second.rules) := by
  refine second.runBatch_of_agreeOn (fun key hkey ↦ Or.inl hkey) tick other ?_
  refine (first.agreeOn_runBatch tick schedule ledger).mono fun key hkey hwritten ↦ ?_
  obtain ⟨hread, hwrites⟩ := h.first_writes key hwritten
  exact hkey.elim hread hwrites

/-- Independent turns lead to the same pools in either order. -/
theorem ledger_comm (h : first.Independent second) (tick : Int) (schedule other : Schedule)
    (ledger : Ledger) :
    (runBatch second.context tick other
        (runBatch first.context tick schedule ledger first.rules).ledger second.rules).ledger =
      (runBatch first.context tick schedule
        (runBatch second.context tick other ledger second.rules).ledger first.rules).ledger := by
  have hfirst := first.agreeOn_runBatch tick schedule ledger
  have hsecond := second.agreeOn_runBatch tick other ledger
  have hfirstLater := first.agreeOn_runBatch tick schedule
    (runBatch second.context tick other ledger second.rules).ledger
  have hsecondLater := second.agreeOn_runBatch tick other
    (runBatch first.context tick schedule ledger first.rules).ledger
  -- What one of the turns writes is as it leaves it from the start, whether it comes first or last.
  have honFirst := (hsecondLater.symm.mono fun key hkey ↦ (h.first_writes key hkey).2).trans
    ((h.symm.runBatch_after tick other schedule ledger).ledger.mono fun _ ↦ Or.inr)
  have honSecond := ((h.runBatch_after tick schedule other ledger).ledger.symm.mono
    fun _ ↦ Or.inr).trans (hfirstLater.mono fun key hkey ↦ (h.second_writes key hkey).2)
  -- What neither of them writes is as it was at the start.
  have honOthers := ((hsecondLater.symm.mono fun _ ↦ And.right).trans
    (hfirst.symm.mono fun _ ↦ And.left)).trans
      ((hsecond.mono fun _ ↦ And.right).trans (hfirstLater.mono fun _ ↦ And.left))
  refine ((honFirst.or honSecond).or honOthers).eq_of_forall fun key ↦ ?_
  by_cases hfirstKey : key ∈ first.writtenKeys
  · exact Or.inl (Or.inl hfirstKey)
  · by_cases hsecondKey : key ∈ second.writtenKeys
    · exact Or.inl (Or.inr hsecondKey)
    · exact Or.inr ⟨hfirstKey, hsecondKey⟩

end Scope.Independent

/-! ### Simulations that are alike -/

/-- The two simulations have gone through the same number of ticks, hold the same pools and schedule
every owner's rules alike. -/
structure Simulation.Alike (first second : Simulation) : Prop where
  tick : second.tick = first.tick
  ledger : second.ledger = first.ledger
  scheduleOf : ∀ owner, second.scheduleOf owner = first.scheduleOf owner

namespace Simulation

theorem Alike.refl (simulation : Simulation) : simulation.Alike simulation :=
  ⟨rfl, rfl, fun _ ↦ rfl⟩

theorem Alike.trans {first middle last : Simulation} (hfirst : first.Alike middle)
    (hlast : middle.Alike last) : first.Alike last :=
  ⟨hlast.tick.trans hfirst.tick, hlast.ledger.trans hfirst.ledger,
    fun owner ↦ (hlast.scheduleOf owner).trans (hfirst.scheduleOf owner)⟩

theorem Alike.batch {first second : Simulation} (h : first.Alike second) (scope : Scope) :
    second.batch scope = first.batch scope := by
  rw [Simulation.batch, Simulation.batch, h.tick, h.ledger, h.scheduleOf]

theorem Alike.afterBatch {first second : Simulation} (h : first.Alike second) (scope : Scope)
    (batch : Batch) : (first.afterBatch scope batch).Alike (second.afterBatch scope batch) := by
  refine ⟨h.tick, rfl, fun owner ↦ ?_⟩
  rw [scheduleOf_afterBatch, scheduleOf_afterBatch, h.scheduleOf]

end Simulation

/-- The two ticks leave simulations behind that are alike, and as many of their batches are broken
off. -/
structure Tick.Alike (first second : Tick) : Prop where
  simulation : first.simulation.Alike second.simulation
  failures : second.failures = first.failures

namespace Simulation

/-- The same turns keep simulations alike. -/
theorem alike_runScopes {first second : Simulation} (h : first.Alike second)
    (scopes : List Scope) : (first.runScopes scopes).Alike (second.runScopes scopes) := by
  induction scopes generalizing first second with
  | nil => exact ⟨h, rfl⟩
  | cons scope later ih =>
    have hrest := ih (h.afterBatch scope (first.batch scope))
    refine ⟨?_, ?_⟩
    · rw [simulation_runScopes_cons, simulation_runScopes_cons, h.batch]
      exact hrest.simulation
    · rw [failures_runScopes_cons, failures_runScopes_cons, h.batch, hrest.failures]

/-- A batch after an independent one of another owner starts from the schedule that it would have
started from before. -/
theorem batch_afterBatch {simulation : Simulation} {scope other : Scope}
    (howner : other.owner ≠ scope.owner) :
    (simulation.afterBatch other (simulation.batch other)).batch scope =
      runBatch scope.context simulation.tick (simulation.scheduleOf scope.owner)
        (simulation.batch other).ledger scope.rules := by
  rw [batch, scheduleOf_afterBatch, if_neg howner]
  rfl

/-- A batch after that of an independent turn of another owner comes to the same as before it, and
the two of them lead to the same pools in either order. -/
theorem batch_after_independent (simulation : Simulation) {first second : Scope}
    (h : first.Independent second) (howner : first.owner ≠ second.owner) :
    let afterFirst := simulation.afterBatch first (simulation.batch first)
    let afterSecond := simulation.afterBatch second (simulation.batch second)
    (afterFirst.batch second).schedule = (simulation.batch second).schedule ∧
      (afterFirst.batch second).error = (simulation.batch second).error ∧
      (afterFirst.batch second).ledger = (afterSecond.batch first).ledger := by
  dsimp only
  rw [batch_afterBatch howner, batch_afterBatch howner.symm, batch, batch]
  have hsame := h.runBatch_after simulation.tick (simulation.scheduleOf first.owner)
    (simulation.scheduleOf second.owner) simulation.ledger
  have hledger := h.ledger_comm simulation.tick (simulation.scheduleOf first.owner)
    (simulation.scheduleOf second.owner) simulation.ledger
  exact ⟨hsame.schedule, hsame.error, hledger⟩

/-- Two independent turns of different owners leave simulations alike in either order. -/
theorem alike_afterBatch_swap (simulation : Simulation) {first second : Scope}
    (h : first.Independent second) (howner : first.owner ≠ second.owner) :
    let afterFirst := simulation.afterBatch first (simulation.batch first)
    let afterSecond := simulation.afterBatch second (simulation.batch second)
    (afterFirst.afterBatch second (afterFirst.batch second)).Alike
      (afterSecond.afterBatch first (afterSecond.batch first)) := by
  obtain ⟨hsecondSchedule, -, hledger⟩ := simulation.batch_after_independent h howner
  obtain ⟨hfirstSchedule, -, -⟩ := simulation.batch_after_independent h.symm howner.symm
  constructor
  · simp only [tick_afterBatch]
  · simp only [ledger_afterBatch, hledger]
  · intro owner
    simp only [scheduleOf_afterBatch, hsecondSchedule, hfirstSchedule]
    by_cases hfirstOwner : first.owner = owner
    · have hsecondOwner : second.owner ≠ owner := fun e ↦ howner (hfirstOwner.trans e.symm)
      rw [if_pos hfirstOwner, if_neg hsecondOwner, if_pos hfirstOwner]
    · rw [if_neg hfirstOwner, if_neg hfirstOwner]

/-- Turns of which the first two are independent and change places keep simulations alike. -/
theorem alike_runScopes_swap_head (simulation : Simulation) {first second : Scope}
    (h : first.Independent second) (howner : first.owner ≠ second.owner) (later : List Scope) :
    (simulation.runScopes (first :: second :: later)).Alike
      (simulation.runScopes (second :: first :: later)) := by
  obtain ⟨-, hsecondError, -⟩ := simulation.batch_after_independent h howner
  obtain ⟨-, hfirstError, -⟩ := simulation.batch_after_independent h.symm howner.symm
  have hlater := alike_runScopes (simulation.alike_afterBatch_swap h howner) later
  refine ⟨?_, ?_⟩
  · simp only [simulation_runScopes_cons]
    exact hlater.simulation
  · simp only [failures_runScopes_cons, hsecondError, hfirstError, hlater.failures]
    omega

/-- Turns of which two independent neighbours change places keep simulations alike. -/
theorem alike_runScopes_swap {left right : Simulation} (halike : left.Alike right)
    {first second : Scope} (h : first.Independent second) (howner : first.owner ≠ second.owner)
    (earlier later : List Scope) :
    (left.runScopes (earlier ++ first :: second :: later)).Alike
      (right.runScopes (earlier ++ second :: first :: later)) := by
  induction earlier generalizing left right with
  | nil =>
    have hswap := left.alike_runScopes_swap_head h howner later
    have hright := alike_runScopes halike (second :: first :: later)
    exact ⟨hswap.simulation.trans hright.simulation, hright.failures.trans hswap.failures⟩
  | cons scope earlier ih =>
    have hrest := ih (halike.afterBatch scope (left.batch scope))
    refine ⟨?_, ?_⟩
    · rw [List.cons_append, List.cons_append, simulation_runScopes_cons,
        simulation_runScopes_cons, halike.batch]
      exact hrest.simulation
    · rw [List.cons_append, List.cons_append, failures_runScopes_cons, failures_runScopes_cons,
        halike.batch, hrest.failures]

/-- Simulations that are alike and of whose turns two independent neighbours change places are alike
after a tick. -/
theorem alike_step_swap {left right : Simulation} (halike : left.Alike right)
    {first second : Scope} (h : first.Independent second) (howner : first.owner ≠ second.owner)
    {earlier later : List Scope} (hleft : left.scopes = earlier ++ first :: second :: later)
    (hright : right.scopes = earlier ++ second :: first :: later) :
    left.step.Alike right.step := by
  have hbegun : Alike { left with tick := left.tick + 1 } { right with tick := right.tick + 1 } :=
    ⟨congrArg (· + 1) halike.tick, halike.ledger, halike.scheduleOf⟩
  have hturns := alike_runScopes_swap hbegun h howner earlier later
  rw [← hleft, ← hright] at hturns
  exact hturns

/-- Simulations that are alike and of whose turns two independent neighbours change places stay
alike. -/
theorem alike_after_swap {left right : Simulation} (halike : left.Alike right)
    {first second : Scope} (h : first.Independent second) (howner : first.owner ≠ second.owner)
    {earlier later : List Scope} (hleft : left.scopes = earlier ++ first :: second :: later)
    (hright : right.scopes = earlier ++ second :: first :: later) (ticks : Nat) :
    (left.after ticks).Alike (right.after ticks) ∧
      (left.after ticks).step.Alike (right.after ticks).step := by
  have hstep {ticks : Nat} (hticks : (left.after ticks).Alike (right.after ticks)) :
      (left.after ticks).step.Alike (right.after ticks).step :=
    alike_step_swap hticks h howner ((left.scopes_after ticks).trans hleft)
      ((right.scopes_after ticks).trans hright)
  induction ticks with
  | zero => exact ⟨halike, hstep halike⟩
  | succ ticks ih => exact ⟨ih.2.simulation, hstep ih.2.simulation⟩

/-- In the simulation of a scenario text two agents that are neighbours may change places if no pool
that one of them may change is looked at or may be changed by the other. After any number of ticks
the pools of all owners are the same as without the exchange, and so is the number of batches that
the next tick breaks off. -/
theorem after_swap_of_independent {catalog : Catalog} {rules : List Rule}
    {scenarioLines : List (List Char)} {scenario : Scenario}
    (hscenario : Scenario.parse catalog rules scenarioLines = .ok scenario)
    {earlier later : List Agent} {first second : Agent}
    (hagents : scenario.agents = earlier ++ first :: second :: later)
    (hindependent : first.scope.Independent second.scope) (ticks : Nat) :
    let swapped := { scenario with agents := earlier ++ second :: first :: later }
    ((ofScenario swapped).after ticks).ledger = ((ofScenario scenario).after ticks).ledger ∧
      ((ofScenario swapped).after ticks).step.failures =
        ((ofScenario scenario).after ticks).step.failures := by
  intro swapped
  have hnodup := Scenario.nodup_names_of_parse hscenario
  have howner : first.scope.owner ≠ second.scope.owner := by
    intro hsame
    have hname : first.name = second.name := Owner.agent.inj hsame
    rw [hagents, List.map_append, List.map_cons, List.map_cons, List.nodup_append] at hnodup
    exact (List.nodup_cons.1 hnodup.2.1).1 (hname ▸ List.mem_cons_self)
  have hleft : (ofScenario scenario).scopes =
      ((ofScenario scenario).worldScope :: earlier.map Agent.scope) ++
        first.scope :: second.scope :: later.map Agent.scope := by
    change _ :: scenario.agents.map Agent.scope = _
    rw [hagents, List.map_append, List.map_cons, List.map_cons, List.cons_append]
  have hright : (ofScenario swapped).scopes =
      ((ofScenario scenario).worldScope :: earlier.map Agent.scope) ++
        second.scope :: first.scope :: later.map Agent.scope := by
    change _ :: swapped.agents.map Agent.scope = _
    rw [List.map_append, List.map_cons, List.map_cons, List.cons_append]
    rfl
  have halike : (ofScenario scenario).Alike (ofScenario swapped) := ⟨rfl, rfl, fun _ ↦ rfl⟩
  obtain ⟨hafter, hstep⟩ := alike_after_swap halike hindependent howner hleft hright ticks
  exact ⟨hafter.ledger, hstep.failures⟩

/-- Two farmers grow grain for a fair, which only one of them can reach, so that at every tick the
batch of the other is broken off. -/
theorem after_swap_of_independent_fair :
    let grain : Resource := { handle := 1, key := "grain", singular := "grain", plural := "grain" }
    let part (relation : String) (quantity : Int) : Specifier :=
      { relation := relation, resource := grain, quantity := quantity }
    let grow : Rule := { handle := 2, name := "grow", outputs := [part "self" 2] }
    let sell : Rule :=
      { handle := 3, name := "sell", inputs := [part "self" 1], outputs := [part "fair" 1] }
    let north : Agent :=
      { name := "north", rules := [grow, sell], relations := { entries := [("fair", "fair")] } }
    let south : Agent := { name := "south", rules := [grow, sell] }
    let fair : Agent := { name := "fair" }
    let pool (owner : Owner) (quantity : Int) : Pool :=
      { owner := owner, resource := grain, quantity := quantity, capacity := 9 }
    let catalog : Catalog := { resources := [grain] }
    let scenario : Scenario :=
      { agents := [north, south, fair]
        ledger := { pools := [pool north.owner 0, pool south.owner 4, pool fair.owner 0] } }
    let swapped : Scenario := { scenario with agents := [south, north, fair] }
    let lines : List (List Char) :=
      ["agent north", "pool grain 9 0", "rules grow sell", "relation fair fair", "end",
        "agent south", "pool grain 9 4", "rules grow sell", "end",
        "agent fair", "pool grain 9 0", "end"].map String.toList
    Scenario.parse catalog [grow, sell] lines = .ok scenario ∧
      north.scope.Independent south.scope ∧
      ((ofScenario swapped).after 0).step.failures = 1 ∧
      ∀ ticks, ((ofScenario swapped).after ticks).ledger =
          ((ofScenario scenario).after ticks).ledger ∧
        ((ofScenario swapped).after ticks).step.failures =
          ((ofScenario scenario).after ticks).step.failures := by
  intro grain part grow sell north south fair pool catalog scenario swapped lines
  have hscenario : Scenario.parse catalog [grow, sell] lines = .ok scenario := by decide +kernel
  have hindependent : north.scope.Independent south.scope := ⟨by decide, by decide⟩
  have hagents : scenario.agents = [] ++ north :: south :: [fair] := rfl
  refine ⟨hscenario, hindependent, by decide, ?_⟩
  exact after_swap_of_independent hscenario hagents hindependent

end Simulation

end TickEconomy
