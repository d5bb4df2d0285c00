import Mathlib.Data.List.Chain
import TickEconomy.Proofs.Evaluation
import TickEconomy.Proofs.LinkedRules

/-!
# Evaluations of a rule are a period apart

A host puts a runner of rules through a sequence of calls: it runs batches, attempts single rules
and changes the pools in between, at ticks in any order (`RunnerCall`, `Runner.performAll`). The
journal of the runner notes every evaluation. Those of one rule, whether the rule stood in a list,
was attempted by itself or was a fallback, are at least its period apart (`evaluations_spaced`).

The schedule is written when an evaluation ends, after the fallback was attempted, and the fallback
is judged by the schedule from before. What carries the proof is that the schedule holds the latest
of all evaluations of a rule and that these are spaced (`Schedule.KeepsTrack`). One attempt at a
rule either evaluates a given rule once, when it is due, or leaves what is remembered of it alone
(`tracks_attemptInTurn`), since no rule comes back in the chain of its own fallbacks.
-/

set_option autoImplicit false
set_option relaxedAutoImplicit false

namespace TickEconomy

/-! ### Runners -/

/-- What a host does with a runner. -/
inductive RunnerCall
  /-- A batch of rules is run at a tick. -/
  | runBatch (rules : List Rule) (tick : Int) (context : Context)
  /-- A single rule is attempted at a tick. -/
  | attempt (rule : Rule) (tick : Int) (context : Context)
  /-- The pools are changed. -/
  | changePools (ledger : Ledger)

/-- The rules that a call names. -/
def RunnerCall.rules : RunnerCall → List Rule
  | runBatch rules _ _ => rules
  | attempt rule _ _ => [rule]
  | changePools _ => []

/-- Pools, a schedule, and what has happened. -/
structure Runner where
  /-- The pools. -/
  ledger : Ledger
  /-- When the rules were last evaluated. -/
  schedule : Schedule
  /-- What happened, the earliest first. -/
  journal : List Event := []

namespace Runner

/-- The runner after a call. -/
def perform (runner : Runner) : RunnerCall → Runner
  | .runBatch rules tick context =>
    let batch := TickEconomy.runBatch context tick runner.schedule runner.ledger rules
    { ledger := batch.ledger
      schedule := batch.schedule
      journal := runner.journal ++ batch.journal }
  | .attempt rule tick context =>
    let attempt := rule.attempt context tick runner.schedule runner.ledger
    { ledger := attempt.ledger
      schedule := attempt.schedule
      journal := runner.journal ++ attempt.journal }
  | .changePools ledger => { runner with ledger := ledger }

/-- The runner after a sequence of calls. -/
def performAll (runner : Runner) (calls : List RunnerCall) : Runner :=
  calls.foldl perform runner

end Runner

/-! ### Evaluations in a journal -/

/-- The tick of the event, if it is an evaluation of the rule with the handle. -/
def Event.evaluationTick? (handle : Nat) : Event → Option Int
  | .evaluated other tick => if other = handle then some tick else none
  | _ => none

/-- The ticks at which the rule with the handle was evaluated, the earliest evaluation first. -/
def evaluations (handle : Nat) (journal : List Event) : List Int :=
  journal.filterMap (Event.evaluationTick? handle)

@[simp]
theorem evaluations_append (handle : Nat) (first second : List Event) :
    evaluations handle (first ++ second) = evaluations handle first ++ evaluations handle second :=
  List.filterMap_append

/-- By itself an evaluation is noted once, for its own rule. -/
theorem evaluations_evaluationJournal (rule : RuleBody) (context : Context) (tick : Int)
    (ledger : Ledger) (rounds : Rounds) (handle : Nat) :
    evaluations handle (rule.evaluationJournal context tick ledger rounds) =
      if rule.handle = handle then [tick] else [] := by
  have hother : ∀ event : Event, (∀ other tick, event ≠ .evaluated other tick) →
      event.evaluationTick? handle = none := by
    intro event hevent
    cases event with
    | evaluated other tick => exact absurd rfl (hevent other tick)
    | _ => rfl
  rw [evaluations, rule.filterMap_evaluationJournal hother, Event.evaluationTick?]
  split_ifs <;> rfl

/-! ### Attempts -/

/-- Of the rule with the handle an attempt at the bodies notes one evaluation and remembers its
tick, if the rule is among them and due, or it notes none and remembers what was remembered. -/
def Attempt.Tracks (attempt : Attempt) (handle : Nat) (tick : Int) (schedule : Schedule)
    (bodies : List RuleBody) : Prop :=
  (evaluations handle attempt.journal = [] ∧
      attempt.schedule.lastRun? handle = schedule.lastRun? handle) ∨
    ∃ body ∈ bodies, body.handle = handle ∧ schedule.isDue body tick = true ∧
      evaluations handle attempt.journal = [tick] ∧
      attempt.schedule.lastRun? handle = some tick

section Attempts

variable {context : Context} {tick : Int} {schedule : Schedule} {ledger : Ledger} {handle : Nat}
  {rule : RuleBody} {fallbacks : List RuleBody}

theorem tracks_idle (bodies : List RuleBody) :
    (Attempt.idle schedule ledger).Tracks handle tick schedule bodies :=
  Or.inl ⟨rfl, rfl⟩

theorem tracks_attemptOfRounds (hdue : schedule.isDue rule tick = true) (rounds : Rounds) :
    (rule.attemptOfRounds context tick schedule ledger rounds).Tracks handle tick schedule
      (rule :: fallbacks) := by
  by_cases h : rule.handle = handle
  · refine Or.inr ⟨rule, List.mem_cons_self, h, hdue, ?_, ?_⟩
    · simp [RuleBody.attemptOfRounds, evaluations_evaluationJournal, h]
    · simp [RuleBody.attemptOfRounds, h]
  · refine Or.inl ⟨?_, ?_⟩
    · simp [RuleBody.attemptOfRounds, evaluations_evaluationJournal, h]
    · simp [RuleBody.attemptOfRounds, h]

/-- A rule that falls back is evaluated before its fallback and remembered after it, which comes to
the same as the fallback is another rule. -/
theorem tracks_attemptOfFallback (hdue : schedule.isDue rule tick = true) (rounds : Rounds)
    {fallback : RuleBody} {attempt : Attempt}
    (hfresh : rule.handle ∉ fallbacks.map RuleBody.handle)
    (h : attempt.Tracks handle tick schedule fallbacks) :
    (rule.attemptOfFallback context tick ledger rounds fallback attempt).Tracks handle tick schedule
      (rule :: fallbacks) := by
  have hjournal : evaluations handle
      (rule.attemptOfFallback context tick ledger rounds fallback attempt).journal =
        (if rule.handle = handle then [tick] else []) ++ evaluations handle attempt.journal := by
    rw [RuleBody.attemptOfFallback, evaluations_append, evaluations_evaluationJournal]
    rfl
  by_cases hhandle : rule.handle = handle
  · rcases h with ⟨hnone, -⟩ | ⟨body, hbody, hsame, -⟩
    · refine Or.inr ⟨rule, List.mem_cons_self, hhandle, hdue, ?_, ?_⟩
      · rw [hjournal, hnone, if_pos hhandle, List.append_nil]
      · simp [RuleBody.attemptOfFallback, hhandle]
    · exact absurd (List.mem_map.2 ⟨body, hbody, hsame.trans hhandle.symm⟩) hfresh
  · have hlast : (rule.attemptOfFallback context tick ledger rounds fallback
        attempt).schedule.lastRun? handle = attempt.schedule.lastRun? handle := by
      simp [RuleBody.attemptOfFallback, hhandle]
    rw [Attempt.Tracks, hjournal, hlast, if_neg hhandle, List.nil_append]
    rcases h with hnone | ⟨body, hbody, hrest⟩
    · exact Or.inl hnone
    · exact Or.inr ⟨body, List.mem_cons_of_mem _ hbody, hrest⟩

/-- An attempt at a rule in whose chain no handle comes twice keeps track of every rule. -/
theorem tracks_attemptInTurn (context : Context) (tick : Int) (schedule : Schedule)
    (ledger : Ledger) (handle : Nat)
    (hnodup : ((rule :: fallbacks).map RuleBody.handle).Nodup) :
    (attemptInTurn context tick schedule ledger rule fallbacks).Tracks handle tick schedule
      (rule :: fallbacks) := by
  induction fallbacks generalizing rule ledger with
  | nil =>
    rw [attemptInTurn]
    split_ifs with hdue
    · exact tracks_attemptOfRounds hdue _
    · exact tracks_idle _
  | cons fallback later ih =>
    rw [List.map_cons, List.nodup_cons] at hnodup
    simp only [attemptInTurn]
    split_ifs with hdue hblocked
    · exact tracks_attemptOfFallback hdue _ hnodup.1 (ih _ hnodup.2)
    · exact tracks_attemptOfRounds hdue _
    · exact tracks_idle _

end Attempts

/-- An attempted rule is noted as evaluated exactly when it is due. -/
theorem Rule.evaluated_mem_attempt_iff (rule : Rule) (context : Context) (tick : Int)
    (schedule : Schedule) (ledger : Ledger) :
    .evaluated rule.handle tick ∈ (rule.attempt context tick schedule ledger).journal ↔
      schedule.isDue rule.toRuleBody tick = true := by
  obtain ⟨body, fallbacks⟩ := rule
  cases fallbacks with
  | nil =>
    simp only [attempt, attemptInTurn]
    split_ifs with hdue
    · simp [RuleBody.attemptOfRounds, RuleBody.evaluationJournal, hdue]
    · simp [Attempt.idle, hdue]
  | cons fallback later =>
    simp only [attempt, attemptInTurn]
    split_ifs with hdue hblocked
    · simp [RuleBody.attemptOfFallback, RuleBody.evaluationJournal, hdue]
    · simp [RuleBody.attemptOfRounds, RuleBody.evaluationJournal, hdue]
    · simp [Attempt.idle, hdue]

/-- A rule that is not due is left alone, and so are its fallbacks. -/
theorem Rule.attempt_of_not_due {rule : Rule} {tick : Int} {schedule : Schedule}
    (h : schedule.isDue rule.toRuleBody tick = false) (context : Context) (ledger : Ledger) :
    rule.attempt context tick schedule ledger = Attempt.idle schedule ledger := by
  obtain ⟨body, fallbacks⟩ := rule
  cases fallbacks <;> simp [attempt, attemptInTurn, h]

/-! ### Runs -/

/-- The schedule holds the latest of the ticks for the rule with the handle, and from each of them
to the next at least the period passes. -/
structure Schedule.KeepsTrack (schedule : Schedule) (handle : Nat) (period : Int)
    (ticks : List Int) : Prop where
  latest : schedule.lastRun? handle = ticks.getLast?
  spaced : ticks.IsChain fun earlier later ↦ earlier + period ≤ later

section Runs

variable {handle : Nat} {period : Int} {ticks : List Int} {schedule : Schedule}

/-- A schedule keeps track of a rule through an attempt that does. -/
theorem Schedule.KeepsTrack.attempt (h : schedule.KeepsTrack handle period ticks)
    {attempt : Attempt} {tick : Int} {bodies : List RuleBody}
    (htracks : attempt.Tracks handle tick schedule bodies)
    (hperiod : ∀ body ∈ bodies, body.handle = handle → body.period = period) :
    attempt.schedule.KeepsTrack handle period (ticks ++ evaluations handle attempt.journal) := by
  rcases htracks with ⟨hnone, hlast⟩ | ⟨body, hbody, hhandle, hdue, hone, hlast⟩
  · rw [hnone, List.append_nil]
    exact ⟨hlast.trans h.latest, h.spaced⟩
  · rw [hone]
    refine ⟨by rw [hlast, List.getLast?_concat], ?_⟩
    refine List.isChain_append.2 ⟨h.spaced, List.isChain_singleton tick, ?_⟩
    intro last hmem next hnext
    simp only [List.head?_cons, Option.mem_def, Option.some.injEq] at hnext
    rw [Schedule.isDue, hhandle, h.latest, hmem, hperiod body hbody hhandle] at hdue
    exact hnext ▸ of_decide_eq_true hdue

/-- A schedule keeps track of a rule through a batch. -/
theorem Schedule.KeepsTrack.runBatch (h : schedule.KeepsTrack handle period ticks)
    (context : Context) (tick : Int) (ledger : Ledger) {rules : List Rule}
    (hnodup : ∀ rule ∈ rules, (rule.bodies.map RuleBody.handle).Nodup)
    (hperiod : ∀ rule ∈ rules, ∀ body ∈ rule.bodies, body.handle = handle →
      body.period = period) :
    (runBatch context tick schedule ledger rules).schedule.KeepsTrack handle period
      (ticks ++ evaluations handle (runBatch context tick schedule ledger rules).journal) := by
  induction rules generalizing schedule ledger ticks with
  | nil => simpa [TickEconomy.runBatch, evaluations] using h
  | cons rule later ih =>
    have hlaterNodup := fun other hother ↦ hnodup other (List.mem_cons_of_mem rule hother)
    have hlaterPeriod := fun other hother ↦ hperiod other (List.mem_cons_of_mem rule hother)
    have hattempt := h.attempt
      (tracks_attemptInTurn context tick schedule ledger handle (hnodup rule List.mem_cons_self))
      (hperiod rule List.mem_cons_self)
    simp only [TickEconomy.runBatch]
    split_ifs with hskipped
    · exact ih h _ hlaterNodup hlaterPeriod
    · split
      · exact hattempt
      · have hlater := ih hattempt (rule.attempt context tick schedule ledger).ledger hlaterNodup
          hlaterPeriod
        rw [evaluations_append, ← List.append_assoc]
        exact hlater

/-- A runner keeps track of a rule through a call. -/
theorem Runner.keepsTrack_perform {runner : Runner} (call : RunnerCall)
    (h : runner.schedule.KeepsTrack handle period (ticks ++ evaluations handle runner.journal))
    (hnodup : ∀ rule ∈ call.rules, (rule.bodies.map RuleBody.handle).Nodup)
    (hperiod : ∀ rule ∈ call.rules, ∀ body ∈ rule.bodies, body.handle = handle →
      body.period = period) :
    (runner.perform call).schedule.KeepsTrack handle period
      (ticks ++ evaluations handle (runner.perform call).journal) := by
  cases call with
  | runBatch rules tick context =>
    have hbatch := h.runBatch context tick runner.ledger hnodup hperiod
    rwa [List.append_assoc, ← evaluations_append] at hbatch
  | attempt rule tick context =>
    have hmem : rule ∈ (RunnerCall.attempt rule tick context).rules := List.mem_singleton_self rule
    have hattempt := h.attempt
      (tracks_attemptInTurn context tick runner.schedule runner.ledger handle (hnodup rule hmem))
      (hperiod rule hmem)
    rwa [List.append_assoc, ← evaluations_append] at hattempt
  | changePools ledger => exact h

/-- A runner keeps track of a rule through a sequence of calls. -/
theorem Runner.keepsTrack_performAll {runner : Runner} {calls : List RunnerCall}
    (h : runner.schedule.KeepsTrack handle period (ticks ++ evaluations handle runner.journal))
    (hnodup : ∀ call ∈ calls, ∀ rule ∈ call.rules, (rule.bodies.map RuleBody.handle).Nodup)
    (hperiod : ∀ call ∈ calls, ∀ rule ∈ call.rules, ∀ body ∈ rule.bodies,
      body.handle = handle → body.period = period) :
    (runner.performAll calls).schedule.KeepsTrack handle period
      (ticks ++ evaluations handle (runner.performAll calls).journal) := by
  induction calls generalizing runner with
  | nil => exact h
  | cons call later ih =>
    have hcall := runner.keepsTrack_perform call h (hnodup call List.mem_cons_self)
      (hperiod call List.mem_cons_self)
    exact ih hcall (fun other hother ↦ hnodup other (List.mem_cons_of_mem call hother))
      (fun other hother ↦ hperiod other (List.mem_cons_of_mem call hother))

end Runs

/-- A new runner on a schedule keeps track of a rule from the tick that the schedule holds on. -/
theorem Schedule.keepsTrack_lastRun? (schedule : Schedule) (handle : Nat) (period : Int) :
    schedule.KeepsTrack handle period (schedule.lastRun? handle).toList := by
  cases hlast : schedule.lastRun? handle with
  | none => exact ⟨hlast, List.isChain_nil⟩
  | some last => exact ⟨hlast, List.isChain_singleton last⟩

/-- A runner puts rules with distinct handles through calls in any order and at any ticks. From each
evaluation of a rule to the next, wherever the rule was named, at least its period passes, also from
the tick that the schedule held at first. The schedule always holds the tick of the latest
evaluation, whatever that came to. A rule is evaluated when it is attempted and due; an attempt at a
rule that is not due makes no round, changes nothing, and evaluates neither the rule nor a fallback
of it. -/
theorem evaluations_spaced {rules : List Rule} (hrules : DistinctHandles rules)
    {calls : List RunnerCall} (hcalls : ∀ call ∈ calls, ∀ rule ∈ call.rules, rule ∈ rules)
    (ledger : Ledger) (schedule : Schedule) :
    let final := Runner.performAll { ledger := ledger, schedule := schedule } calls
    (∀ rule ∈ rules, ∀ body ∈ rule.bodies,
      ((schedule.lastRun? body.handle).toList ++ evaluations body.handle final.journal).IsChain
        fun earlier later ↦ earlier + body.period ≤ later) ∧
      (∀ handle, final.schedule.lastRun? handle =
        ((schedule.lastRun? handle).toList ++ evaluations handle final.journal).getLast?) ∧
      ∀ (rule : Rule) (context : Context) (tick : Int) (now : Schedule) (pools : Ledger),
        (.evaluated rule.handle tick ∈ (rule.attempt context tick now pools).journal ↔
          ∀ last, now.lastRun? rule.handle = some last → last + rule.period ≤ tick) ∧
        ∀ last, now.lastRun? rule.handle = some last → tick < last + rule.period →
          rule.attempt context tick now pools =
            { ledger := pools, schedule := now, outcome := .ok 0, journal := [] } := by
  intro final
  have hnodup : ∀ call ∈ calls, ∀ rule ∈ call.rules, (rule.bodies.map RuleBody.handle).Nodup :=
    fun call hcall rule hrule ↦ hrules.nodup rule (hcalls call hcall rule hrule)
  have htrack (handle : Nat) (period : Int)
      (hperiod : ∀ rule ∈ rules, ∀ body ∈ rule.bodies, body.handle = handle →
        body.period = period) :
      final.schedule.KeepsTrack handle period
        ((schedule.lastRun? handle).toList ++ evaluations handle final.journal) := by
    refine Runner.keepsTrack_performAll ?_ hnodup fun call hcall rule hrule ↦
      hperiod rule (hcalls call hcall rule hrule)
    simpa [evaluations] using schedule.keepsTrack_lastRun? handle period
  have hbody : ∀ rule ∈ rules, ∀ body ∈ rule.bodies, final.schedule.KeepsTrack body.handle
      body.period
        ((schedule.lastRun? body.handle).toList ++ evaluations body.handle final.journal) := by
    intro rule hrule body hbody
    refine htrack body.handle body.period ?_
    intro other hother second hsecond hhandle
    rw [hrules.body_eq second (List.mem_flatMap_of_mem hother hsecond) body
      (List.mem_flatMap_of_mem hrule hbody) hhandle]
  refine ⟨fun rule hrule body hmem ↦ (hbody rule hrule body hmem).spaced, fun handle ↦ ?_, ?_⟩
  · by_cases hknown : ∃ rule ∈ rules, ∃ body ∈ rule.bodies, body.handle = handle
    · obtain ⟨rule, hrule, body, hmem, rfl⟩ := hknown
      exact (hbody rule hrule body hmem).latest
    · -- A handle that no rule has is never evaluated, so any period will do.
      refine (htrack handle 0 ?_).latest
      intro rule hrule body hmem hhandle
      exact absurd ⟨rule, hrule, body, hmem, hhandle⟩ hknown
  · intro rule context tick now pools
    refine ⟨(rule.evaluated_mem_attempt_iff context tick now pools).trans ?_, ?_⟩
    · unfold Schedule.isDue
      cases now.lastRun? rule.handle <;> simp
    · intro last hlast hearly
      refine Rule.attempt_of_not_due ?_ context pools
      rw [Schedule.isDue, hlast]
      exact decide_eq_false (Int.not_le.mpr hearly)

/-- A rule of period 2 falls back at tick 1 and again at tick 3, when its fallback, of period 3, is
not due. Attempted by itself at tick 7, where its relation has no owner, the fallback is due. -/
theorem evaluations_spaced_mill :
    let grain : Resource := { handle := 1, key := "grain", singular := "grain", plural := "grain" }
    let part (quantity : Int) : Specifier :=
      { relation := "self", resource := grain, quantity := quantity }
    let sow : RuleBody := { handle := 3, name := "sow", period := 3, outputs := [part 3] }
    let mill : Rule :=
      { handle := 2, name := "mill", period := 2, inputs := [part 2], fallbacks := [sow] }
    let rules : List Rule := [mill, Rule.ofBodies sow []]
    let context : Context := { entries := [("self", .world)] }
    let ledger : Ledger :=
      { pools := [{ owner := .world, resource := grain, quantity := 0, capacity := 9 }] }
    let calls : List RunnerCall :=
      [.runBatch rules 1 context, .changePools ledger, .attempt mill 3 context,
        .attempt (Rule.ofBodies sow []) 7 {}]
    let final := Runner.performAll { ledger := ledger, schedule := {} } calls
    DistinctHandles rules ∧ (∀ call ∈ calls, ∀ rule ∈ call.rules, rule ∈ rules) ∧
      evaluations 3 final.journal = [1, 7] ∧
      (evaluations 3 final.journal).IsChain (fun earlier later ↦ earlier + 3 ≤ later) ∧
      final.schedule.lastRun? 3 = (evaluations 3 final.journal).getLast? := by
  intro grain part sow mill rules context ledger calls final
  have hrules : DistinctHandles rules := ⟨by decide, by decide⟩
  have hcalls : ∀ call ∈ calls, ∀ rule ∈ call.rules, rule ∈ rules := by decide
  obtain ⟨hspaced, hlatest, -⟩ := evaluations_spaced hrules hcalls ledger {}
  refine ⟨hrules, hcalls, by decide, ?_, hlatest 3⟩
  exact hspaced mill List.mem_cons_self sow (by decide)

end TickEconomy
