import TickEconomy.CommandLine
import TickEconomy.Proofs.DoubledQuantity
import TickEconomy.Proofs.FiringSchedule
import TickEconomy.Proofs.ResourceText

/-!
# What a run of the simulator leaves behind

A call of the simulator names three files. When they are there and are UTF-8
(`CommandLine.FileHolds`), it loads what their texts describe, the resources before the rules and
these before the scenario, or stops at the first text that is refused (`CommandLine.ofTexts`,
`CommandLine.load_of_fileHolds`).

Reporting looks at the simulation and leaves it alone. So after a number of ticks a run has reached
what these ticks alone lead to, and it has reported and saved the states at the ticks that the
settings ask for, unless a number that it was to show has too many digits and breaks it off
(`CommandLine.Progress.Shows.advanceBy`). Nothing else breaks off the run of a scenario
(`CommandLine.IsShowable`, `CommandLine.goThrough_leaves`). The settings in turn do not act on the
ticks (`Simulation.after_withSettings`), and details in the log are all that a call can ask for
besides (`Request.ofArguments_insert`). What a run of three accepted files leaves behind is said by
`CommandLine.run_leaves`.
-/

set_option autoImplicit false
set_option relaxedAutoImplicit false

namespace TickEconomy

/-! ### Settings -/

namespace Simulation

/-- The simulation with other settings. -/
def withSettings (simulation : Simulation) (settings : Settings) : Simulation :=
  { simulation with settings := settings }

/-- Turns do not depend on the settings and leave them as they are. -/
theorem runScopes_withSettings (simulation : Simulation) (settings : Settings)
    (scopes : List Scope) :
    (simulation.withSettings settings).runScopes scopes =
      { simulation := (simulation.runScopes scopes).simulation.withSettings settings
        turns := (simulation.runScopes scopes).turns } := by
  induction scopes generalizing simulation with
  | nil => rfl
  | cons scope later ih =>
    have hlater := ih (simulation.afterBatch scope (simulation.batch scope))
    rw [runScopes, runScopes]
    let turn : Turn := { scope := scope, batch := simulation.batch scope }
    exact congrArg (fun rest : Tick ↦ { rest with turns := turn :: rest.turns }) hlater

/-- Ticks do not depend on the settings and leave them as they are. -/
theorem after_withSettings (simulation : Simulation) (settings : Settings) (ticks : Nat) :
    (simulation.withSettings settings).after ticks =
      (simulation.after ticks).withSettings settings := by
  induction ticks with
  | zero => rfl
  | succ ticks ih =>
    rw [after, ih, after]
    let begun : Simulation :=
      { simulation.after ticks with tick := (simulation.after ticks).tick + 1 }
    exact congrArg Tick.simulation (begun.runScopes_withSettings settings begun.scopes)

/-- A simulation keeps the settings of its scenario. -/
theorem settings_after (simulation : Simulation) (ticks : Nat) :
    (simulation.after ticks).settings = simulation.settings := by
  have h := simulation.after_withSettings simulation.settings ticks
  have hsame : simulation.withSettings simulation.settings = simulation := rfl
  rw [hsame] at h
  rw [h]
  rfl

/-! ### Names of snapshots -/

/-- Snapshots at different ticks have different names, however many digits there are. -/
theorem injective_snapshotName : Function.Injective snapshotName := by
  intro first second h
  have hvalue : ∀ tick, Nat.ofDigitChars 10 ((Text.writeNatural tick).leftpad 5 '0') 0 = tick := by
    intro tick
    rw [List.leftpad, Nat.ofDigitChars_append, Nat.ofDigitChars_replicate_zero]
    exact Nat.ofDigitChars_toDigits (by decide) (by decide)
  have hname : ∀ tick, (snapshotName tick).toList =
      "snapshot_tick".toList ++ ((Text.writeNatural tick).leftpad 5 '0' ++ ".json".toList) := by
    intro tick
    simp [snapshotName, toString]
  have hdigits : (Text.writeNatural first).leftpad 5 '0' =
      (Text.writeNatural second).leftpad 5 '0' := by
    have hnames := congrArg String.toList h
    rw [hname, hname] at hnames
    exact List.append_cancel_right (List.append_cancel_left hnames)
  rw [← hvalue first, hdigits, hvalue second]

end Simulation

/-! ### Requests -/

namespace Request

/-- The request with log lines of all levels. -/
def inDetail : Request → Request
  | simulate _ resources rules scenario => simulate true resources rules scenario
  | request => request

/-- An argument that asks for log lines of all levels makes no other difference. -/
theorem ofArguments_insert {flag : String} (hflag : asksDetail flag = true)
    (before behind : List String) :
    ofArguments (before ++ flag :: behind) = (ofArguments (before ++ behind)).inDetail := by
  have hhelp : asksHelp flag = false := by
    rcases Bool.or_eq_true_iff.1 hflag with hshort | hlong
    · rw [eq_of_beq hshort]
      rfl
    · rw [eq_of_beq hlong]
      rfl
  have hpaths : ((before ++ flag :: behind).filter fun argument ↦ !asksDetail argument) =
      (before ++ behind).filter fun argument ↦ !asksDetail argument := by
    simp [hflag]
  have hasked : (before ++ flag :: behind).any asksHelp = (before ++ behind).any asksHelp := by
    simp [hhelp]
  have hdetail : (before ++ flag :: behind).any asksDetail = true := by simp [hflag]
  unfold ofArguments
  rw [hpaths, hasked, hdetail]
  split
  · rfl
  · split <;> rfl

end Request

namespace CommandLine

/-! ### Loading -/

/-- There is a file of the path, its bytes are UTF-8, and these are its lines. -/
def FileHolds (contents : FileContents) (path : String) (lines : List (List Char)) : Prop :=
  ∃ bytes text, contents path = some bytes ∧ Text.decodeUtf8? bytes = some text ∧
    Text.cutLines Text.endsFileLine text.toList = lines

/-- A file that holds the bytes of a text holds its lines. -/
theorem fileHolds_of_eq {contents : FileContents} {path text : String}
    (h : contents path = some text.toUTF8) :
    FileHolds contents path (Text.cutLines Text.endsFileLine text.toList) :=
  ⟨text.toUTF8, text, h, Text.decodeUtf8?_toUTF8 text, rfl⟩

/-- A file with a line feed behind every line holds these lines. -/
theorem fileHolds_writeLines {contents : FileContents} {path : String} {lines : List (List Char)}
    (h : contents path = some (String.ofList (Text.writeLines lines)).toUTF8)
    (hlines : ∀ line ∈ lines, line.any Text.endsFileLine = false) :
    FileHolds contents path lines := by
  have hholds := fileHolds_of_eq h
  rwa [String.toList_ofList, Text.cutLines_writeLines hlines] at hholds

/-- A file that is there and is UTF-8 comes to what its lines come to. -/
theorem parseFile_of_fileHolds {Result : Type} {contents : FileContents} {path : String}
    {lines : List (List Char)} (h : FileHolds contents path lines)
    (parseLines : List (List Char) → Except ParseError Result) :
    parseFile contents path parseLines = (parseLines lines).mapError .refused := by
  obtain ⟨bytes, text, hbytes, htext, rfl⟩ := h
  simp only [parseFile, hbytes, Source.read, htext, SourceText.parse]
  cases parseLines (Text.cutLines Text.endsFileLine text.toList) <;> rfl

/-- What the lines of a resource, a rule and a scenario text describe, or the error in the first of
them that is refused. -/
def ofTexts (firstHandle : Nat) (resourceLines ruleLines scenarioLines : List (List Char)) :
    Except ParseError Loaded := do
  let resources ← Resource.parse firstHandle resourceLines
  let catalog : Catalog := { resources := resources }
  let rules ← Rule.parse catalog (firstHandle + resources.length) ruleLines
  let scenario ← Scenario.parse catalog rules scenarioLines
  return { catalog := catalog, rules := rules, scenario := scenario }

/-- Texts that are accepted one after the other. -/
theorem ofTexts_eq_ok {firstHandle : Nat} {resourceLines ruleLines scenarioLines : List (List Char)}
    {resources : List Resource} {rules : List Rule} {scenario : Scenario}
    (hresources : Resource.parse firstHandle resourceLines = .ok resources)
    (hrules : Rule.parse { resources := resources } (firstHandle + resources.length) ruleLines =
      .ok rules)
    (hscenario : Scenario.parse { resources := resources } rules scenarioLines = .ok scenario) :
    ofTexts firstHandle resourceLines ruleLines scenarioLines =
      .ok { catalog := { resources := resources }, rules := rules, scenario := scenario } :=
  bind_eq_ok_iff.2 ⟨resources, hresources, bind_eq_ok_iff.2 ⟨rules, hrules,
    bind_eq_ok_iff.2 ⟨scenario, hscenario, rfl⟩⟩⟩

variable {contents : FileContents} {resourcePath rulePath scenarioPath : String}
  {resourceLines ruleLines scenarioLines : List (List Char)}

/-- Files that are there and are UTF-8 are loaded, or the first text that is refused is. -/
theorem load_of_fileHolds (firstHandle : Nat)
    (hresource : FileHolds contents resourcePath resourceLines)
    (hrule : FileHolds contents rulePath ruleLines)
    (hscenario : FileHolds contents scenarioPath scenarioLines) :
    load firstHandle contents resourcePath rulePath scenarioPath =
      (ofTexts firstHandle resourceLines ruleLines scenarioLines).mapError .refused := by
  rw [load, ofTexts, parseFile_of_fileHolds hresource]
  cases hresources : Resource.parse firstHandle resourceLines with
  | error error => rfl
  | ok resources =>
    have hcatalog := Resource.ofList_of_parse hresources
    simp only [Except.mapError, bind, Except.bind, hcatalog, parseFile_of_fileHolds hrule,
      parseFile_of_fileHolds hscenario]
    cases Rule.parse { resources := resources } (firstHandle + resources.length) ruleLines with
    | error error => rfl
    | ok rules =>
      simp only
      cases Scenario.parse { resources := resources } rules scenarioLines <;> rfl

/-! ### Ticks, reports and snapshots -/

/-- The ticks, from the first to the given last one, at which something happens that happens every
so many ticks. -/
def occasions (every last : Nat) : List Nat :=
  (List.range' 1 last).filter fun tick ↦ 0 < every ∧ every ∣ tick

theorem fallsOn_eq_decide (every tick : Nat) :
    fallsOn every tick = decide (0 < every ∧ every ∣ tick) := by
  simp only [fallsOn, Bool.decide_and, Nat.dvd_iff_mod_eq_zero]
  rfl

/-- The next tick is an occasion behind all others, or it is none. -/
theorem occasions_succ (every last : Nat) :
    occasions every (last + 1) =
      occasions every last ++ if fallsOn every (last + 1) then [last + 1] else [] := by
  rw [occasions, occasions, List.range'_concat, List.filter_append, fallsOn_eq_decide, Nat.one_mul,
    Nat.add_comm 1 last, List.filter_singleton]
  cases decide (0 < every ∧ every ∣ last + 1) <;> rfl

/-- The progress shows what the scenario leads to in a number of ticks: it has reached this state,
has reported every state that was to be reported, and has saved every one that was to be saved. -/
structure Progress.Shows (scenario : Scenario) (ticks : Nat) (progress : Progress) : Prop where
  simulation : progress.simulation = (Simulation.ofScenario scenario).after ticks
  output : progress.output =
    String.join ((occasions scenario.settings.reportEvery ticks).map fun tick ↦
      ((Simulation.ofScenario scenario).after tick).report.text)
  files : progress.files =
    (occasions scenario.settings.snapshotEvery ticks).map fun tick ↦
      (Simulation.snapshotName tick,
        ((Simulation.ofScenario scenario).after tick).snapshot.text.text)

/-- The numbers that a run of the scenario shows at the tick have few enough digits. -/
structure FitsAt (scenario : Scenario) (tick : Nat) : Prop where
  reported : 0 < scenario.settings.reportEvery → scenario.settings.reportEvery ∣ tick →
    ∀ number ∈ ((Simulation.ofScenario scenario).after tick).reportedNumbers,
      Text.FitsNumeral number
  saved : 0 < scenario.settings.snapshotEvery → scenario.settings.snapshotEvery ∣ tick →
    ∀ number ∈ ((Simulation.ofScenario scenario).after tick).snapshot.numbers,
      Text.FitsNumeral number

/-- The numbers that a run of the scenario shows have few enough digits, at all of its ticks and in
the report that it closes with. -/
structure IsShowable (scenario : Scenario) : Prop where
  fitsAt : ∀ tick ∈ List.range' 1 scenario.settings.ticks, FitsAt scenario tick
  last : ∀ number ∈
      ((Simulation.ofScenario scenario).after scenario.settings.ticks).reportedNumbers,
    Text.FitsNumeral number

theorem fitsAt_iff (scenario : Scenario) (tick : Nat) :
    FitsAt scenario tick ↔
      (fallsOn scenario.settings.reportEvery tick = true →
          ((Simulation.ofScenario scenario).after tick).report.isWhole = true) ∧
        (fallsOn scenario.settings.snapshotEvery tick = true →
          ((Simulation.ofScenario scenario).after tick).snapshot.text.isWhole = true) := by
  simp only [fallsOn_eq_decide, decide_eq_true_eq, and_imp, Simulation.isWhole_report_iff,
    Snapshot.isWhole_text_iff]
  exact ⟨fun ⟨hreported, hsaved⟩ ↦ ⟨hreported, hsaved⟩, fun ⟨hreported, hsaved⟩ ↦
    ⟨hreported, hsaved⟩⟩

/-! ### What the steps come to -/

theorem finish_eq_ok {writing : Writing} (h : writing.isWhole = true) (progress : Progress) :
    finish writing progress = .ok () progress := by
  rw [finish, if_pos h]
  rfl

theorem finish_eq_error {writing : Writing} (h : writing.isWhole = false) (progress : Progress) :
    finish writing progress = .error .numberTooLong progress := by
  rw [finish, if_neg (Bool.eq_false_iff.1 h)]
  rfl

section Due

variable {due : Bool} {progress : Progress}

/-- A report whose turn has come is added to the output if it can be written. -/
theorem report_eq_ok (h : due = true → progress.simulation.report.isWhole = true) :
    (if due then report else pure ()) progress =
      .ok ()
        { progress with
          output := progress.output ++ if due then progress.simulation.report.text else "" } := by
  cases due with
  | true => exact finish_eq_ok (h rfl) _
  | false =>
    simp only [Bool.false_eq_true, if_false, String.append_empty]
    rfl

theorem report_eq_error (h : progress.simulation.report.isWhole = false) :
    ∃ reached, report progress = .error .numberTooLong reached :=
  ⟨_, finish_eq_error h _⟩

/-- A snapshot whose turn has come is added to the files if it can be written. -/
theorem save_eq_ok (h : due = true → progress.simulation.snapshot.text.isWhole = true) :
    (if due then save else pure ()) progress =
      .ok ()
        { progress with
          files := progress.files ++
            if due then
              [(Simulation.snapshotName progress.simulation.tick,
                progress.simulation.snapshot.text.text)]
            else [] } := by
  cases due with
  | true =>
    have hwhole := h rfl
    have htick : Text.FitsNumeral progress.simulation.tick :=
      (Snapshot.isWhole_text_iff _).1 hwhole _ List.mem_cons_self
    rw [if_pos rfl, save, steps_get_bind, if_pos htick]
    exact finish_eq_ok hwhole _
  | false =>
    simp only [Bool.false_eq_true, if_false, List.append_nil]
    rfl

theorem save_eq_error (h : progress.simulation.snapshot.text.isWhole = false) :
    ∃ reached, save progress = .error .numberTooLong reached := by
  rw [save, steps_get_bind]
  split
  · exact ⟨_, finish_eq_error h _⟩
  · exact ⟨_, rfl⟩

end Due

/-- The progress after a further tick, before anything is shown of it. -/
def Progress.stepped (progress : Progress) : Progress :=
  { progress with
    simulation := progress.simulation.step.simulation
    log := progress.log ++ logLines progress.simulation.step.journal }

theorem advance_eq (progress : Progress) :
    advance progress =
      ((if fallsOn progress.stepped.simulation.settings.reportEvery progress.stepped.simulation.tick
        then report else pure ()) >>= fun _ ↦
        if fallsOn progress.stepped.simulation.settings.snapshotEvery
          progress.stepped.simulation.tick then save else pure ()) progress.stepped := by
  have hstep : step progress = .ok () progress.stepped := rfl
  rw [advance, steps_bind_of_ok hstep, steps_get_bind]
  cases fallsOn progress.stepped.simulation.settings.reportEvery
    progress.stepped.simulation.tick <;>
    cases fallsOn progress.stepped.simulation.settings.snapshotEvery
      progress.stepped.simulation.tick <;> rfl

/-- A text that was written as a whole changes nothing. -/
theorem eq_of_finish {writing : Writing} {progress reached : Progress}
    (h : finish writing progress = .ok () reached) : reached = progress := by
  cases hwhole : writing.isWhole with
  | true =>
    rw [finish_eq_ok hwhole] at h
    cases h
    rfl
  | false =>
    rw [finish_eq_error hwhole] at h
    cases h

/-- Reporting leaves the simulation as it is. -/
theorem simulation_of_report {due : Bool} {progress reached : Progress}
    (h : (if due then report else pure ()) progress = .ok () reached) :
    reached.simulation = progress.simulation := by
  cases due with
  | true => rw [eq_of_finish h]
  | false =>
    cases h
    rfl

/-- Saving leaves the simulation as it is. -/
theorem simulation_of_save {due : Bool} {progress reached : Progress}
    (h : (if due then save else pure ()) progress = .ok () reached) :
    reached.simulation = progress.simulation := by
  cases due with
  | true =>
    rw [if_pos rfl, save, steps_get_bind] at h
    split at h
    · rw [eq_of_finish h]
    · cases h
  | false =>
    cases h
    rfl

/-- A further tick leads to the next simulation, whatever is shown of it. -/
theorem simulation_of_advance {progress reached : Progress}
    (h : advance progress = .ok () reached) :
    reached.simulation = progress.simulation.step.simulation := by
  rw [advance_eq] at h
  cases hreport : (if fallsOn progress.stepped.simulation.settings.reportEvery
    progress.stepped.simulation.tick then report else pure ()) progress.stepped with
  | ok result next =>
    rw [steps_bind_of_ok hreport] at h
    exact (simulation_of_save h).trans (simulation_of_report hreport)
  | error cause broken =>
    rw [steps_bind_of_error hreport] at h
    cases h

/-- A further tick either shows what it is to show, or it breaks the run off. -/
theorem Progress.Shows.advance {scenario : Scenario} {ticks : Nat} {progress : Progress}
    (h : progress.Shows scenario ticks) :
    (FitsAt scenario (ticks + 1) ∧
        ∃ reached, CommandLine.advance progress = .ok () reached ∧
          reached.Shows scenario (ticks + 1)) ∨
      ¬FitsAt scenario (ticks + 1) ∧
        ∃ reached, CommandLine.advance progress = .error .numberTooLong reached := by
  have hreached : progress.stepped.simulation =
      (Simulation.ofScenario scenario).after (ticks + 1) := by
    rw [stepped, h.simulation]
    rfl
  have htick := Simulation.tick_after_ofScenario scenario (ticks + 1)
  have hsettings : ((Simulation.ofScenario scenario).after (ticks + 1)).settings =
      scenario.settings := (Simulation.ofScenario scenario).settings_after (ticks + 1)
  rw [advance_eq, hreached, htick, hsettings, fitsAt_iff, ← hreached]
  by_cases hreport : fallsOn scenario.settings.reportEvery (ticks + 1) = true →
      progress.stepped.simulation.report.isWhole = true
  · rw [steps_bind_of_ok (report_eq_ok hreport)]
    by_cases hsave : fallsOn scenario.settings.snapshotEvery (ticks + 1) = true →
        progress.stepped.simulation.snapshot.text.isWhole = true
    · refine .inl ⟨⟨hreport, hsave⟩, _, save_eq_ok hsave, hreached, ?_, ?_⟩
      · rw [occasions_succ, List.map_append, String.join_append, ← h.output]
        simp only [hreached]
        cases fallsOn scenario.settings.reportEvery (ticks + 1) <;> simp [stepped]
      · rw [occasions_succ, List.map_append, ← h.files]
        simp only [hreached, htick]
        cases fallsOn scenario.settings.snapshotEvery (ticks + 1) <;> rfl
    · obtain ⟨hdue, hbroken⟩ := Classical.not_imp.1 hsave
      rw [if_pos hdue]
      exact .inr ⟨fun hfits ↦ hsave hfits.2, save_eq_error (Bool.eq_false_iff.2 hbroken)⟩
  · obtain ⟨hdue, hbroken⟩ := Classical.not_imp.1 hreport
    obtain ⟨reached, herror⟩ := report_eq_error (Bool.eq_false_iff.2 hbroken)
    rw [if_pos hdue, steps_bind_of_error herror]
    exact .inr ⟨fun hfits ↦ hreport hfits.1, reached, rfl⟩

/-- A number of further ticks either show what they are to show, or one of them breaks the run
off. -/
theorem Progress.Shows.advanceBy {scenario : Scenario} {ticks : Nat} {progress : Progress}
    (h : progress.Shows scenario ticks) (further : Nat) :
    ((∀ tick ∈ List.range' (ticks + 1) further, FitsAt scenario tick) ∧
        ∃ reached, CommandLine.advanceBy further progress = .ok () reached ∧
          reached.Shows scenario (ticks + further)) ∨
      (¬∀ tick ∈ List.range' (ticks + 1) further, FitsAt scenario tick) ∧
        ∃ reached, CommandLine.advanceBy further progress = .error .numberTooLong reached := by
  induction further generalizing ticks progress with
  | zero => exact .inl ⟨by simp, progress, rfl, h⟩
  | succ further ih =>
    rw [CommandLine.advanceBy, List.range'_succ, List.forall_mem_cons]
    rcases h.advance with ⟨hfits, next, hnext, hshows⟩ | ⟨hbroken, next, hnext⟩
    · rw [steps_bind_of_ok hnext]
      rcases ih hshows with ⟨hlater, hrest⟩ | ⟨hbroken, hrest⟩
      · exact .inl ⟨⟨hfits, hlater⟩, Nat.succ_add_eq_add_succ ticks further ▸ hrest⟩
      · exact .inr ⟨fun hall ↦ hbroken hall.2, hrest⟩
    · rw [steps_bind_of_error hnext]
      exact .inr ⟨fun hall ↦ hbroken hall.1, next, rfl⟩

/-- The steps of a run show all that they are to show if its numbers have few enough digits, and
otherwise one of them breaks it off. -/
theorem goThrough_leaves (loaded : Loaded) :
    let first := Simulation.ofScenario loaded.scenario
    let settings := loaded.scenario.settings
    (IsShowable loaded.scenario ∧
        ∃ reached, goThrough settings.ticks (Progress.start loaded) = .ok () reached ∧
          reached.output =
            String.join ((occasions settings.reportEvery settings.ticks).map fun tick ↦
              (first.after tick).report.text) ++ (first.after settings.ticks).report.text ∧
          reached.files =
            (occasions settings.snapshotEvery settings.ticks).map fun tick ↦
              (Simulation.snapshotName tick, (first.after tick).snapshot.text.text)) ∨
      ¬IsShowable loaded.scenario ∧
        ∃ reached,
          goThrough settings.ticks (Progress.start loaded) = .error .numberTooLong reached := by
  intro first settings
  have hbegun : (Progress.start loaded).Shows loaded.scenario 0 := ⟨rfl, rfl, rfl⟩
  rcases hbegun.advanceBy settings.ticks with ⟨hfits, before, hbefore, hshows⟩ |
      ⟨hbroken, before, hbefore⟩
  · rw [Nat.zero_add] at hshows
    rw [goThrough, steps_bind_of_ok hbefore]
    by_cases hlast : before.simulation.report.isWhole = true
    · have hnumbers := (Simulation.isWhole_report_iff _).1 hlast
      rw [hshows.simulation] at hnumbers
      refine .inl ⟨⟨hfits, hnumbers⟩, _, finish_eq_ok hlast _, ?_, hshows.files⟩
      rw [← hshows.output, ← hshows.simulation]
    · obtain ⟨reached, herror⟩ := report_eq_error (Bool.eq_false_iff.2 hlast)
      refine .inr ⟨fun hshowable ↦ hlast ?_, reached, herror⟩
      rw [hshows.simulation]
      exact (Simulation.isWhole_report_iff _).2 hshowable.last
  · rw [goThrough, steps_bind_of_error hbefore]
    exact .inr ⟨fun hshowable ↦ hbroken hshowable.fitsAt, before, rfl⟩

section Simulated

variable {loaded : Loaded} (verbose : Bool)

/-- What simulating leaves behind if the numbers that it shows have few enough digits. -/
theorem simulate_of_isShowable (h : IsShowable loaded.scenario) :
    let first := Simulation.ofScenario loaded.scenario
    let settings := loaded.scenario.settings
    (simulate verbose loaded).ending = .exit 0 ∧
      (simulate verbose loaded).output =
        String.join ((occasions settings.reportEvery settings.ticks).map fun tick ↦
          (first.after tick).report.text) ++ (first.after settings.ticks).report.text ∧
      (simulate verbose loaded).files =
        (occasions settings.snapshotEvery settings.ticks).map fun tick ↦
          (Simulation.snapshotName tick, (first.after tick).snapshot.text.text) := by
  intro first settings
  rcases goThrough_leaves loaded with ⟨-, reached, hreached, houtput, hfiles⟩ | ⟨hbroken, -⟩
  · rw [simulate, hreached]
    exact ⟨rfl, houtput, hfiles⟩
  · exact absurd h hbroken

theorem simulate_of_not_isShowable (h : ¬IsShowable loaded.scenario) :
    (simulate verbose loaded).ending = .breakdown .numberTooLong := by
  rcases goThrough_leaves loaded with ⟨hshowable, -⟩ | ⟨-, reached, hreached⟩
  · exact absurd hshowable h
  · rw [simulate, hreached]
    rfl

end Simulated

/-! ### Runs -/

/-- A call that asks for log lines of all levels besides ends alike, with the same output and the
same files. -/
theorem run_insert {flag : String} (hflag : Request.asksDetail flag = true) (firstHandle : Nat)
    (contents : FileContents) (program : String) (before behind : List String) :
    let plain := run firstHandle contents (program :: (before ++ behind))
    let detailed := run firstHandle contents (program :: (before ++ flag :: behind))
    detailed.ending = plain.ending ∧ detailed.output = plain.output ∧
      detailed.files = plain.files := by
  have hrequest : Request.ofArguments (before ++ flag :: behind) =
      (Request.ofArguments (before ++ behind)).inDetail :=
    Request.ofArguments_insert hflag before behind
  simp only [run, List.tail_cons, hrequest]
  cases Request.ofArguments (before ++ behind) with
  | help => exact ⟨rfl, rfl, rfl⟩
  | unclear => exact ⟨rfl, rfl, rfl⟩
  | simulate verbose resources rules scenario =>
    simp only [Request.inDetail]
    cases load firstHandle contents resources rules scenario with
    | error obstruction => cases obstruction <;> exact ⟨rfl, rfl, rfl⟩
    | ok loaded =>
      simp only [simulate]
      cases goThrough loaded.scenario.settings.ticks (Progress.start loaded) <;>
        exact ⟨rfl, rfl, rfl⟩

section Files

variable {firstHandle : Nat} {contents : FileContents} {arguments : List String} {verbose : Bool}
  {resourcePath rulePath scenarioPath : String}
  {resourceLines ruleLines scenarioLines : List (List Char)}

/-- A call that names three files which are accepted simulates what they describe. -/
theorem run_of_accepted {loaded : Loaded}
    (hrequest : Request.ofArguments arguments.tail =
      .simulate verbose resourcePath rulePath scenarioPath)
    (hresource : FileHolds contents resourcePath resourceLines)
    (hrule : FileHolds contents rulePath ruleLines)
    (hscenario : FileHolds contents scenarioPath scenarioLines)
    (hloading : ofTexts firstHandle resourceLines ruleLines scenarioLines = .ok loaded) :
    run firstHandle contents arguments = simulate verbose loaded := by
  have hload := load_of_fileHolds firstHandle hresource hrule hscenario
  rw [hloading] at hload
  simp only [run, hrequest, hload, Except.mapError]

/-- A call that names three files of which one is refused shows the error and leaves nothing else
behind. -/
theorem run_of_refused {error : ParseError}
    (hrequest : Request.ofArguments arguments.tail =
      .simulate verbose resourcePath rulePath scenarioPath)
    (hresource : FileHolds contents resourcePath resourceLines)
    (hrule : FileHolds contents rulePath ruleLines)
    (hscenario : FileHolds contents scenarioPath scenarioLines)
    (hloading : ofTexts firstHandle resourceLines ruleLines scenarioLines = .error error) :
    run firstHandle contents arguments =
      { ending := .exit 1, output := "", errors := s!"Error: {error.message}\n", files := [] } := by
  have hload := load_of_fileHolds firstHandle hresource hrule hscenario
  rw [hloading] at hload
  simp only [run, hrequest, hload, Except.mapError]

end Files

/-- A call with three files that are accepted succeeds if the numbers that it shows have few enough
digits, and otherwise it breaks off at the first that has not. When it succeeds, it has reported
every state whose tick is a multiple of the one setting and then the last state, and it has saved
every state whose tick is a multiple of the other, each in a file of its own. The two settings do
not change the states, and asking for log lines of all levels changes nothing that the run leaves
behind but the log. -/
theorem run_leaves {firstHandle : Nat} {contents : FileContents} (program : String)
    {arguments : List String} {verbose : Bool} {resourcePath rulePath scenarioPath : String}
    {resourceLines ruleLines scenarioLines : List (List Char)} {resources : List Resource}
    {rules : List Rule} {scenario : Scenario}
    (hrequest : Request.ofArguments arguments =
      .simulate verbose resourcePath rulePath scenarioPath)
    (hresourceFile : FileHolds contents resourcePath resourceLines)
    (hruleFile : FileHolds contents rulePath ruleLines)
    (hscenarioFile : FileHolds contents scenarioPath scenarioLines)
    (hresources : Resource.parse firstHandle resourceLines = .ok resources)
    (hrules : Rule.parse { resources := resources } (firstHandle + resources.length) ruleLines =
      .ok rules)
    (hscenario : Scenario.parse { resources := resources } rules scenarioLines = .ok scenario) :
    let start := Simulation.ofScenario scenario
    let settings := scenario.settings
    let left := run firstHandle contents (program :: arguments)
    (IsShowable scenario →
        left.ending = .exit 0 ∧
          left.output =
            String.join ((occasions settings.reportEvery settings.ticks).map fun tick ↦
              (start.after tick).report.text) ++ (start.after settings.ticks).report.text ∧
          left.files =
            ((occasions settings.snapshotEvery settings.ticks).map fun tick ↦
              (Simulation.snapshotName tick, (start.after tick).snapshot.text.text))) ∧
      (¬IsShowable scenario → left.ending = .breakdown .numberTooLong) ∧
      Function.Injective Simulation.snapshotName ∧
      (∀ reportEvery snapshotEvery tick : Nat,
        let other : Settings :=
          { settings with reportEvery := reportEvery, snapshotEvery := snapshotEvery }
        (Simulation.ofScenario { scenario with settings := other }).after tick =
          (start.after tick).withSettings other) ∧
      ∀ before behind flag, before ++ behind = arguments → Request.asksDetail flag = true →
        let detailed := run firstHandle contents (program :: (before ++ flag :: behind))
        detailed.ending = left.ending ∧ detailed.output = left.output ∧
          detailed.files = left.files := by
  intro start settings left
  let loaded : Loaded :=
    { catalog := { resources := resources }, rules := rules, scenario := scenario }
  have hleft : left = simulate verbose loaded := run_of_accepted hrequest hresourceFile hruleFile
    hscenarioFile (ofTexts_eq_ok hresources hrules hscenario)
  refine ⟨fun hshowable ↦ ?_, fun hbroken ↦ ?_, Simulation.injective_snapshotName,
    fun reportEvery snapshotEvery tick ↦ start.after_withSettings _ tick, ?_⟩
  · rw [hleft]
    exact simulate_of_isShowable verbose hshowable
  · rw [hleft, simulate_of_not_isShowable verbose hbroken]
  · rintro before behind flag rfl hflag
    exact run_insert hflag firstHandle contents program before behind

/-- Grain grows by two at each of four ticks, of which every second is reported and the third is
saved. -/
theorem run_leaves_growing :
    let resourceText := "resource grain\nend\n"
    let ruleText := "rule grow\nout grain 2\nend\n"
    let scenarioText :=
      "world\nticks 4\nreport_every 2\nsnapshot_every 3\npool grain 9 0\nrules grow\nend\n"
    let contents : FileContents := fun path ↦
      if path = "a" then some resourceText.toUTF8
      else if path = "b" then some ruleText.toUTF8
      else if path = "c" then some scenarioText.toUTF8 else none
    let left := run 0 contents ["rulesim", "a", "b", "c"]
    left.ending = .exit 0 ∧
      left.output = "Tick 2 agents=0\n  world: grain=4\nTick 4 agents=0\n  world: grain=8\n" ++
        "Tick 4 agents=0\n  world: grain=8\n" ∧
      left.files = [("snapshot_tick00003.json",
        "\x7b\n  \"tick\": 3,\n  \"world\": \x7b\n    \"grain\": 6\n  \x7d,\n" ++
          "  \"agents\": \x7b\x7d\n\x7d")] ∧
      (run 0 contents ["rulesim", "a", "-v", "b", "c"]).output = left.output := by
  intro resourceText ruleText scenarioText contents left
  have hrequest : Request.ofArguments ["a", "b", "c"] = .simulate false "a" "b" "c" := rfl
  have hresourceFile : FileHolds contents "a" _ := fileHolds_of_eq rfl
  have hruleFile : FileHolds contents "b" _ := fileHolds_of_eq rfl
  have hscenarioFile : FileHolds contents "c" _ := fileHolds_of_eq rfl
  let grain : Resource := { handle := 0, key := "grain", singular := "grain", plural := "grain" }
  let grow : Rule := Rule.ofBodies
    { handle := 1, name := "grow"
      outputs := [{ relation := "self", resource := grain, quantity := 2 }] } []
  let scenario : Scenario :=
    { settings := { ticks := 4, reportEvery := 2, snapshotEvery := 3 }
      worldRules := [grow]
      ledger :=
        { pools := [{ owner := .world, resource := grain, capacity := 9, quantity := 0 }] } }
  have hresources : Resource.parse 0
      (Text.cutLines Text.endsFileLine resourceText.toList) = .ok [grain] := by
    decide +kernel
  have hrules : Rule.parse { resources := [grain] } 1
      (Text.cutLines Text.endsFileLine ruleText.toList) = .ok [grow] := by
    decide +kernel
  have hscenario : Scenario.parse { resources := [grain] } [grow]
      (Text.cutLines Text.endsFileLine scenarioText.toList) = .ok scenario := by
    decide +kernel
  have hreported : ∀ tick ∈ List.range' 1 4,
      ∀ number ∈ ((Simulation.ofScenario scenario).after tick).reportedNumbers,
        Text.FitsNumeral number := by
    decide +kernel
  have hsaved : ∀ tick ∈ List.range' 1 4,
      ∀ number ∈ ((Simulation.ofScenario scenario).after tick).snapshot.numbers,
        Text.FitsNumeral number := by
    decide +kernel
  have hshowable : IsShowable scenario :=
    ⟨fun tick htick ↦ ⟨fun _ _ ↦ hreported tick htick, fun _ _ ↦ hsaved tick htick⟩,
      hreported 4 (by decide)⟩
  obtain ⟨hleaves, -, -, -, hdetail⟩ :=
    run_leaves "rulesim" hrequest hresourceFile hruleFile hscenarioFile hresources hrules hscenario
  obtain ⟨hending, houtput, hfiles⟩ := hleaves hshowable
  refine ⟨hending, houtput.trans ?_, hfiles.trans ?_, (hdetail ["a"] ["b", "c"] "-v" rfl rfl).2.1⟩
  · decide +kernel
  · decide +kernel

/-- The greatest quantity that a text can give is doubled at the only tick, and the snapshot that
is due then breaks the run off. -/
theorem run_breaks_off_at_doubled_quantity :
    let quantity := DoubledQuantity.greatest
    let resourceLines := DoubledQuantity.resourceLines
    let ruleLines := DoubledQuantity.ruleLines quantity
    let scenarioLines := DoubledQuantity.scenarioLines quantity
    let resources := [DoubledQuantity.wood]
    let rules := DoubledQuantity.rules quantity
    let file (lines : List (List Char)) := (String.ofList (Text.writeLines lines)).toUTF8
    let contents : FileContents := fun path ↦
      if path = "a" then some (file resourceLines)
      else if path = "b" then some (file ruleLines)
      else if path = "c" then some (file scenarioLines) else none
    FileHolds contents "a" resourceLines ∧ FileHolds contents "b" ruleLines ∧
      FileHolds contents "c" scenarioLines ∧
      Resource.parse 0 resourceLines = .ok resources ∧
      Rule.parse { resources := resources } 1 ruleLines = .ok rules ∧
      Scenario.parse { resources := resources } rules scenarioLines =
        .ok (DoubledQuantity.scenario quantity) ∧
      (run 0 contents ["rulesim", "a", "b", "c"]).ending = .breakdown .numberTooLong := by
  intro quantity resourceLines ruleLines scenarioLines resources rules file contents
  have hlines := List.forall_mem_append.1 (DoubledQuantity.any_endsFileLine_eq_false quantity)
  have hbefore := List.forall_mem_append.1 hlines.1
  have hresourceFile : FileHolds contents "a" resourceLines := fileHolds_writeLines rfl hbefore.1
  have hruleFile : FileHolds contents "b" ruleLines := fileHolds_writeLines rfl hbefore.2
  have hscenarioFile : FileHolds contents "c" scenarioLines := fileHolds_writeLines rfl hlines.2
  have hresources : Resource.parse 0 resourceLines = .ok resources :=
    DoubledQuantity.parse_resources
  have hrules : Rule.parse { resources := resources } 1 ruleLines = .ok rules :=
    DoubledQuantity.parse_rules DoubledQuantity.fitsNumeral_greatest
  have hscenario : Scenario.parse { resources := resources } rules scenarioLines =
      .ok (DoubledQuantity.scenario quantity) :=
    DoubledQuantity.parse_scenario DoubledQuantity.fitsNumeral_greatest
  have hbroken : ¬IsShowable (DoubledQuantity.scenario quantity) := by
    intro hshowable
    obtain ⟨number, hnumber, hlong⟩ := DoubledQuantity.exists_not_fitsNumeral_after
    exact hlong (hshowable.last number (List.mem_cons_of_mem _ (List.mem_cons_of_mem _ hnumber)))
  refine ⟨hresourceFile, hruleFile, hscenarioFile, hresources, hrules, hscenario, ?_⟩
  rw [run_of_accepted rfl hresourceFile hruleFile hscenarioFile
    (ofTexts_eq_ok hresources hrules hscenario)]
  exact simulate_of_not_isShowable false hbroken

end CommandLine

end TickEconomy
