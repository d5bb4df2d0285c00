import TickEconomy.Proofs.Sequence
import TickEconomy.Proofs.WrittenClauses
import TickEconomy.Scenario.Parse

/-!
# Writing what the world and the agents have

What a block about the world or about an agent says comes in clauses: the number of a setting, a
pool, a group of rules and a relation (`ScopeClause`). Each is written as the words of a directive
(`ScopeClause.Spelling`). Resources and capacities without a limit have several spellings, and the
rules that a block names may be split into groups in any way, one line for each.

Every spelling is a line of a block (`ScopeClause.Spelling.isDirective`). The lines of a block are
read as all that their clauses say, one after the other: as settings, pools and rules of the world
(`ScenarioDraft.foldlM_readWorld`), or as pools and rules of an agent and as relations that are left
to be resolved (`ScenarioDraft.exists_foldlM_readAgent`).
-/

set_option autoImplicit false
set_option relaxedAutoImplicit false

namespace TickEconomy

/-! ### Settings -/

/-- Which number of the settings of a run is meant. -/
inductive Setting where
  | ticks
  | reportEvery
  | snapshotEvery
  deriving DecidableEq, Repr

namespace Setting

/-- The name of the directive that gives the number. -/
def word : Setting → String
  | .ticks => "ticks"
  | .reportEvery => "report_every"
  | .snapshotEvery => "snapshot_every"

/-- The number in the settings. -/
def value (settings : Settings) : Setting → Nat
  | .ticks => settings.ticks
  | .reportEvery => settings.reportEvery
  | .snapshotEvery => settings.snapshotEvery

/-- The settings with another number. -/
def assign (settings : Settings) (number : Nat) : Setting → Settings
  | .ticks => { settings with ticks := number }
  | .reportEvery => { settings with reportEvery := number }
  | .snapshotEvery => { settings with snapshotEvery := number }

theorem value_assign (settings : Settings) (number : Nat) (setting other : Setting) :
    other.value (setting.assign settings number) =
      if setting = other then number else other.value settings := by
  cases setting <;> cases other <;> rfl

/-- Settings are equal when all their numbers are. -/
theorem eq_of_value_eq {first second : Settings}
    (h : ∀ setting : Setting, setting.value first = setting.value second) : first = second := by
  obtain ⟨ticks, reportEvery, snapshotEvery⟩ := first
  obtain rfl : ticks = second.ticks := h .ticks
  obtain rfl : reportEvery = second.reportEvery := h .reportEvery
  obtain rfl : snapshotEvery = second.snapshotEvery := h .snapshotEvery
  rfl

end Setting

/-! ### Clauses -/

/-- A pool as a text describes it, whoever it belongs to. -/
structure PoolDescription where
  /-- What the pool holds. -/
  resource : Resource
  /-- The capacity, if there is a limit. -/
  capacity : Option Nat
  /-- What is in the pool at first. -/
  quantity : Int
  deriving DecidableEq, Repr

/-- The number that stands for the capacity. -/
def PoolDescription.most (description : PoolDescription) : Int :=
  match description.capacity with
  | some most => most
  | none => unlimitedCapacity

/-- The pool described, as one of the owner. -/
def PoolDescription.pool (owner : Owner) (description : PoolDescription) : Pool where
  owner := owner
  resource := description.resource
  quantity := description.quantity
  capacity := description.most

/-- What one line of a block says about the world or an agent. -/
inductive ScopeClause where
  | setting (setting : Setting) (number : Nat)
  | pool (description : PoolDescription)
  | rules (group : List Rule)
  | relation (relation target : String)
  deriving DecidableEq, Repr

namespace ScopeClause

/-- The number that the clause gives to the setting. -/
@[simp]
def numbers (wanted : Setting) : ScopeClause → List Nat
  | .setting given number => if given = wanted then [number] else []
  | _ => []

/-- The pool that the clause describes. -/
@[simp]
def pools : ScopeClause → List PoolDescription
  | .pool description => [description]
  | _ => []

/-- The rules that the clause names. -/
@[simp]
def named : ScopeClause → List Rule
  | .rules group => group
  | _ => []

/-- The relation that the clause declares, with the name of the other agent. -/
@[simp]
def relations : ScopeClause → List (String × String)
  | .relation name target => [(name, target)]
  | _ => []

/-- The settings with the number that the clause gives. -/
@[simp]
def applyTo (settings : Settings) : ScopeClause → Settings
  | .setting given number => given.assign settings number
  | _ => settings

/-- Of the numbers that clauses give to a setting the last one counts. -/
theorem value_foldl_applyTo (clauses : List ScopeClause) (settings : Settings)
    (wanted : Setting) :
    wanted.value (clauses.foldl applyTo settings) =
      (clauses.flatMap (numbers wanted)).getLastD (wanted.value settings) := by
  induction clauses generalizing settings with
  | nil => rfl
  | cons clause later ih =>
    rw [List.foldl_cons, ih, List.flatMap_cons]
    cases clause with
    | setting given number =>
      rw [applyTo, Setting.value_assign, numbers]
      split_ifs with hsame
      · rw [List.singleton_append, List.getLastD_cons]
      · rfl
    | _ => rfl

end ScopeClause

/-! ### Spellings -/

/-- The word spells the capacity: a numeral for a limit, and else `unlimited` in any letters. -/
inductive PoolDescription.CapacitySpelling : Option Nat → String → Prop
  | limited {most : Nat} (hmost : Text.FitsNumeral most) :
      CapacitySpelling (some most) (Text.numeral most)
  | unlimited {word : String} (hword : Text.IsWord word.toList)
      (hfold : Name.fold word = "unlimited") : CapacitySpelling none word

/-- The words spell the clause. -/
inductive ScopeClause.Spelling (catalog : Catalog) : ScopeClause → List String → Prop
  | setting {setting : Setting} {number : Nat} (hnumber : Text.FitsNumeral number) :
      Spelling catalog (.setting setting number) [setting.word, Text.numeral number]
  | pool {description : PoolDescription} {word capacity : String}
      (hword : Text.IsWord word.toList) (hfind : catalog.find? word = some description.resource)
      (hcapacity : PoolDescription.CapacitySpelling description.capacity capacity)
      (hquantity : Text.FitsNumeral description.quantity) :
      Spelling catalog (.pool description)
        ["pool", word, capacity, Text.numeral description.quantity]
  | rules {group : List Rule} (hne : group ≠ [])
      (hwords : ∀ rule ∈ group, Text.IsWord rule.name.toList) :
      Spelling catalog (.rules group) ("rules" :: group.map fun rule ↦ rule.name)
  | relation {relation target word : String} (hword : Text.IsWord word.toList)
      (hfold : Name.fold word = relation) (htarget : Text.IsWord target.toList) :
      Spelling catalog (.relation relation target) ["relation", word, target]

theorem PoolDescription.CapacitySpelling.isWord {capacity : Option Nat} {word : String}
    (h : CapacitySpelling capacity word) : Text.IsWord word.toList := by
  cases h with
  | limited hmost => exact Text.isWord_numeral _
  | unlimited hword hfold => exact hword

/-- A spelling is a line of a block. -/
theorem ScopeClause.Spelling.isDirective {catalog : Catalog} {clause : ScopeClause}
    {words : List String} (h : clause.Spelling catalog words) :
    BlockContent.IsDirective words := by
  cases h with
  | @setting setting number hnumber =>
    have hword : BlockContent.IsFirstWord setting.word ∧ setting.word ≠ "end" := by
      cases setting <;> decide
    exact BlockContent.isDirective_cons hword.1 hword.2 (by simpa using Text.isWord_numeral _)
  | pool hword hfind hcapacity hquantity =>
    refine BlockContent.isDirective_cons (by decide) (by decide) ?_
    simpa using ⟨hword, hcapacity.isWord, Text.isWord_numeral _⟩
  | rules hne hwords =>
    refine BlockContent.isDirective_cons (by decide) (by decide) ?_
    exact List.forall_mem_map.2 hwords
  | relation hword hfold htarget =>
    refine BlockContent.isDirective_cons (by decide) (by decide) ?_
    simpa using ⟨hword, htarget⟩

/-! ### What can be spelled -/

/-- There is a word to refer to the resource by, and the numbers fit numerals. -/
structure PoolDescription.IsWritable (catalog : Catalog) (description : PoolDescription) :
    Prop where
  resource : ∃ word : String, Text.IsWord word.toList ∧
    catalog.find? word = some description.resource
  capacity : ∀ most ∈ description.capacity, Text.FitsNumeral most
  quantity : Text.FitsNumeral description.quantity

/-- What the clause says can be written. -/
def ScopeClause.IsWritable (catalog : Catalog) : ScopeClause → Prop
  | .setting _ number => Text.FitsNumeral number
  | .pool description => description.IsWritable catalog
  | .rules group => group ≠ [] ∧ ∀ rule ∈ group, Text.IsWord rule.name.toList
  | .relation name target =>
    Text.IsWord name.toList ∧ Name.fold name = name ∧ Text.IsWord target.toList

theorem PoolDescription.exists_capacitySpelling {capacity : Option Nat}
    (h : ∀ most ∈ capacity, Text.FitsNumeral most) : ∃ word, CapacitySpelling capacity word := by
  cases capacity with
  | some most => exact ⟨_, .limited (h most rfl)⟩
  | none =>
    have hfold : Name.fold "unlimited" = "unlimited" := by decide +kernel
    exact ⟨"unlimited", .unlimited (by decide) hfold⟩

/-- A clause that can be written has a spelling. -/
theorem ScopeClause.exists_spelling {catalog : Catalog} {clause : ScopeClause}
    (h : clause.IsWritable catalog) : ∃ words, clause.Spelling catalog words := by
  cases clause with
  | setting setting number => exact ⟨_, .setting h⟩
  | pool description =>
    obtain ⟨word, hword, hfind⟩ := h.resource
    obtain ⟨capacity, hcapacity⟩ := PoolDescription.exists_capacitySpelling h.capacity
    exact ⟨_, .pool hword hfind hcapacity h.quantity⟩
  | rules group => exact ⟨_, .rules h.1 h.2⟩
  | relation name target => exact ⟨_, .relation h.1 h.2.1 h.2.2⟩

/-! ### Numerals in lower case -/

namespace Text

/-- Digits have no other form in lower case. -/
theorem lowercaseBehind_of_isDigit {text : List Char}
    (h : ∀ character ∈ text, character.isDigit = true) (before : List Char) :
    lowercaseBehind before text = text := by
  induction text generalizing before with
  | nil => rfl
  | cons character rest ih =>
    obtain ⟨hdigit, hrest⟩ := List.forall_mem_cons.1 h
    obtain ⟨hlow, hhigh⟩ := Char.isDigit_iff_toNat.1 hdigit
    simp only [Char.reduceToNat] at hlow hhigh
    have hsigma : character ≠ 'Σ' := by
      rintro rfl
      exact absurd hdigit (by decide)
    have hforms : lowerForms character = [character] := by
      have hupper : ¬ (character.val ≥ 'A'.val ∧ character.val ≤ 'Z'.val) := by
        rintro ⟨hleast, -⟩
        have hleast : 65 ≤ character.toNat := UInt32.le_iff_toNat_le.1 hleast
        omega
      have hlower : character.toLower = character := dif_neg hupper
      rw [lowerForms, if_pos (by omega), hlower]
    rw [lowercaseBehind, if_neg hsigma, hforms, ih hrest]
    rfl

/-- No numeral is the word `unlimited`. -/
theorem fold_numeral_ne_unlimited (number : Nat) : Name.fold (numeral number) ≠ "unlimited" := by
  have hdigits : ∀ character ∈ writeNatural number, character.isDigit = true :=
    fun character ↦ isDigit_of_mem_writeNatural number
  have hfold : Name.fold (numeral number) = numeral number := by
    rw [Name.fold, numeral, String.toList_ofList, lowercase]
    exact congrArg String.ofList (lowercaseBehind_of_isDigit hdigits [])
  intro hword
  have htext : writeNatural number = "unlimited".toList := by
    rw [← hword, hfold, numeral, String.toList_ofList]
    rfl
  exact absurd (hdigits 'u' (by rw [htext]; decide)) (by decide)

end Text

/-! ### Reading arguments -/

namespace Directive

variable (directive : Directive) {catalog : Catalog}

/-- A word that spells a capacity is read as the number that stands for it. -/
theorem capacity_eq_ok {description : PoolDescription} {word : String}
    (h : PoolDescription.CapacitySpelling description.capacity word) :
    directive.capacity word = .ok description.most := by
  obtain ⟨resource, capacity, quantity⟩ := description
  cases h with
  | limited hmost =>
    rw [capacity, if_neg (Text.fold_numeral_ne_unlimited _), directive.count_numeral _ hmost]
    rfl
  | unlimited hword hfold =>
    rw [Directive.capacity, if_pos hfold]
    rfl

/-- A rule of a list of rules with distinct names is found by its name. -/
theorem rule_eq_ok {known : List Rule} (hknown : (known.map fun rule ↦ rule.name).Nodup)
    {rule : Rule} (hrule : rule ∈ known) : directive.rule known rule.name = .ok rule := by
  have hdistinct : (known.reverse.map fun rule ↦ rule.name).Nodup := by
    rwa [List.map_reverse, List.nodup_reverse]
  have hfind : (known.reverse.find? fun other ↦ other.name = rule.name) = some rule :=
    find?_eq_some_of_nodup hdistinct (List.mem_reverse.2 hrule)
  rw [Directive.rule, hfind]

/-- The names of rules of the list are read as these rules. -/
theorem rules_eq_ok {known : List Rule} (hknown : (known.map fun rule ↦ rule.name).Nodup)
    {group : List Rule} (hne : group ≠ []) (hgroup : ∀ rule ∈ group, rule ∈ known)
    (harguments : directive.arguments = group.map fun rule ↦ rule.name) :
    directive.rules known = .ok group := by
  have hempty : ¬ directive.arguments.isEmpty = true := by simpa [harguments] using hne
  rw [Directive.rules, if_neg hempty, harguments]
  clear hne harguments hempty
  induction group with
  | nil => rfl
  | cons rule later ih =>
    obtain ⟨hrule, hlater⟩ := List.forall_mem_cons.1 hgroup
    rw [List.map_cons, List.mapM_cons, directive.rule_eq_ok hknown hrule, ih hlater]
    rfl

/-- A directive that spells the number of a setting is read as the settings with this number. -/
theorem settings_eq_ok {setting : Setting} {number : Nat} (hnumber : Text.FitsNumeral number)
    (hname : directive.name = setting.word)
    (harguments : directive.arguments = [Text.numeral number]) (settings : Settings) :
    settings.read directive = .ok (setting.assign settings number) := by
  rw [Settings.read, harguments]
  simp only [directive.count_numeral _ hnumber, hname]
  cases setting <;> rfl

/-- A directive that spells a pool is read as the pool. -/
theorem pool_eq_ok {description : PoolDescription} {word capacity : String}
    (hfind : catalog.find? word = some description.resource)
    (hcapacity : PoolDescription.CapacitySpelling description.capacity capacity)
    (hquantity : Text.FitsNumeral description.quantity)
    (harguments : directive.arguments = [word, capacity, Text.numeral description.quantity])
    (owner : Owner) : directive.pool catalog owner = .ok (description.pool owner) := by
  rw [Directive.pool, harguments]
  simp only [directive.resource_eq_ok hfind, directive.capacity_eq_ok hcapacity,
    directive.integer_numeral _ hquantity]
  rfl

end Directive

/-! ### Reading blocks -/

namespace ScopeClause

/-- The clause can stand in a block about the world, read with the known rules. -/
structure SuitsWorld (known : List Rule) (clause : ScopeClause) : Prop where
  relations : clause.relations = []
  named : ∀ rule ∈ clause.named, rule ∈ known

/-- The clause can stand in a block about an agent, read with the known rules. -/
structure SuitsAgent (known : List Rule) (clause : ScopeClause) : Prop where
  numbers : ∀ setting, clause.numbers setting = []
  named : ∀ rule ∈ clause.named, rule ∈ known

/-- The pools that clauses describe, as pools of the owner. -/
def poolsOf (owner : Owner) (clauses : List ScopeClause) : List Pool :=
  (clauses.flatMap pools).map (PoolDescription.pool owner)

end ScopeClause

namespace Agent

theorem appendRules_nil (agent : Agent) : agent.appendRules [] = agent := by
  rw [appendRules, List.append_nil]

theorem appendRules_append (agent : Agent) (first second : List Rule) :
    agent.appendRules (first ++ second) = (agent.appendRules first).appendRules second := by
  simp [appendRules]

end Agent

/-- What a relation that is left to be resolved declares: the agent, the name of the relation and
the name of the other agent. -/
def PendingRelation.declaration (pending : PendingRelation) :
    String × String × String :=
  (pending.agent, pending.relation, pending.target)

namespace ScenarioDraft

variable {catalog : Catalog} {known : List Rule}

/-- The draft with what clauses say about the world. -/
def sayWorld (draft : ScenarioDraft) (clauses : List ScopeClause) : ScenarioDraft where
  scenario :=
    { draft.scenario with
      settings := clauses.foldl ScopeClause.applyTo draft.scenario.settings
      worldRules := draft.scenario.worldRules ++ clauses.flatMap ScopeClause.named
      ledger := (ScopeClause.poolsOf .world clauses).foldl Ledger.setUp draft.scenario.ledger }
  pending := draft.pending

theorem sayWorld_cons (draft : ScenarioDraft) (clause : ScopeClause) (later : List ScopeClause) :
    draft.sayWorld (clause :: later) = (draft.sayWorld [clause]).sayWorld later := by
  simp [sayWorld, ScopeClause.poolsOf]

/-- A directive that spells a clause is read as what the clause says about the world. -/
theorem readWorld_eq_ok (hknown : (known.map fun rule ↦ rule.name).Nodup) {clause : ScopeClause}
    {directive : Directive}
    (h : clause.Spelling catalog (directive.name :: directive.arguments))
    (hclause : clause.SuitsWorld known) (draft : ScenarioDraft) :
    readWorld catalog known draft directive = .ok (draft.sayWorld [clause]) := by
  obtain ⟨name, argumentText, arguments, line⟩ := directive
  generalize hwords : name :: arguments = words at h
  cases h with
  | @setting setting number hnumber =>
    obtain ⟨rfl, rfl⟩ := List.cons.inj hwords
    have hread := Directive.settings_eq_ok ⟨setting.word, argumentText, _, line⟩ hnumber rfl rfl
      draft.scenario.settings
    have hdraft : draft.sayWorld [.setting setting number] = { draft with
        scenario.settings := setting.assign draft.scenario.settings number } := by
      simp [sayWorld, ScopeClause.poolsOf]
    rw [hdraft]
    cases setting <;> exact bind_eq_ok_iff.2 ⟨_, hread, rfl⟩
  | @pool description word capacity hword hfind hcapacity hquantity =>
    obtain ⟨rfl, rfl⟩ := List.cons.inj hwords
    have hread := Directive.pool_eq_ok ⟨"pool", argumentText, _, line⟩ hfind hcapacity hquantity
      rfl .world
    have hdraft : draft.sayWorld [.pool description] = { draft with
        scenario.ledger := draft.scenario.ledger.setUp (description.pool .world) } := by
      simp [sayWorld, ScopeClause.poolsOf]
    rw [hdraft]
    exact bind_eq_ok_iff.2 ⟨_, hread, rfl⟩
  | @rules group hne hnamed =>
    obtain ⟨rfl, rfl⟩ := List.cons.inj hwords
    have hread := Directive.rules_eq_ok ⟨"rules", argumentText, _, line⟩ hknown hne
      hclause.named rfl
    have hdraft : draft.sayWorld [.rules group] = { draft with
        scenario.worldRules := draft.scenario.worldRules ++ group } := by
      simp [sayWorld, ScopeClause.poolsOf]
    rw [hdraft]
    exact bind_eq_ok_iff.2 ⟨_, hread, rfl⟩
  | relation => exact absurd hclause.relations (List.cons_ne_nil _ _)

/-- Directives that spell clauses are read as what these say about the world. -/
theorem foldlM_readWorld (hknown : (known.map fun rule ↦ rule.name).Nodup)
    {clauses : List ScopeClause} {directives : List Directive}
    (h : List.Forall₂ (fun clause directive ↦
      ScopeClause.Spelling catalog clause (directive.name :: directive.arguments)) clauses
      directives)
    (hclauses : ∀ clause ∈ clauses, clause.SuitsWorld known) (draft : ScenarioDraft) :
    directives.foldlM (readWorld catalog known) draft = .ok (draft.sayWorld clauses) := by
  induction h generalizing draft with
  | nil =>
    rw [List.foldlM_nil, sayWorld]
    simp [ScopeClause.poolsOf, pure, Except.pure]
  | @cons clause directive clauses directives hspelling _ ih =>
    obtain ⟨hclause, hlater⟩ := List.forall_mem_cons.1 hclauses
    rw [List.foldlM_cons, readWorld_eq_ok hknown hspelling hclause,
      sayWorld_cons draft clause clauses]
    exact ih hlater _

/-- The draft with pools of an agent and with relations left to be resolved. -/
def sayAgent (draft : ScenarioDraft) (owner : Owner) (clauses : List ScopeClause)
    (declared : List PendingRelation) : ScenarioDraft where
  scenario :=
    { draft.scenario with
      ledger := (ScopeClause.poolsOf owner clauses).foldl Ledger.setUp draft.scenario.ledger }
  pending := draft.pending ++ declared

theorem sayAgent_cons (draft : ScenarioDraft) (owner : Owner) (clause : ScopeClause)
    (later : List ScopeClause) (first declared : List PendingRelation) :
    draft.sayAgent owner (clause :: later) (first ++ declared) =
      (draft.sayAgent owner [clause] first).sayAgent owner later declared := by
  simp [sayAgent, ScopeClause.poolsOf]

/-- A directive that spells a clause is read as what the clause says about the agent. -/
theorem exists_readAgent_eq_ok (hknown : (known.map fun rule ↦ rule.name).Nodup)
    {clause : ScopeClause} {directive : Directive}
    (h : clause.Spelling catalog (directive.name :: directive.arguments))
    (hclause : clause.SuitsAgent known) (agent : Agent) (draft : ScenarioDraft) :
    ∃ declared : List PendingRelation,
      declared.map PendingRelation.declaration = clause.relations.map (Prod.mk agent.name) ∧
        readAgent catalog known (agent, draft) directive =
          .ok (agent.appendRules clause.named, draft.sayAgent agent.owner [clause] declared) := by
  obtain ⟨name, argumentText, arguments, line⟩ := directive
  generalize hwords : name :: arguments = words at h
  cases h with
  | @setting setting number hnumber =>
    have hnone := hclause.numbers setting
    simp at hnone
  | @pool description word capacity hword hfind hcapacity hquantity =>
    obtain ⟨rfl, rfl⟩ := List.cons.inj hwords
    have hread := Directive.pool_eq_ok ⟨"pool", argumentText, _, line⟩ hfind hcapacity hquantity
      rfl agent.owner
    have hagent : agent.appendRules (ScopeClause.pool description).named = agent :=
      agent.appendRules_nil
    have hdraft : draft.sayAgent agent.owner [.pool description] [] = { draft with
        scenario.ledger := draft.scenario.ledger.setUp (description.pool agent.owner) } := by
      simp [sayAgent, ScopeClause.poolsOf]
    refine ⟨[], rfl, ?_⟩
    rw [hdraft, hagent]
    exact bind_eq_ok_iff.2 ⟨_, hread, rfl⟩
  | @rules group hne hnamed =>
    obtain ⟨rfl, rfl⟩ := List.cons.inj hwords
    have hread := Directive.rules_eq_ok ⟨"rules", argumentText, _, line⟩ hknown hne
      hclause.named rfl
    have hdraft : draft.sayAgent agent.owner [.rules group] [] = draft := by
      simp [sayAgent, ScopeClause.poolsOf]
    refine ⟨[], rfl, ?_⟩
    rw [hdraft]
    exact bind_eq_ok_iff.2 ⟨_, hread, rfl⟩
  | @relation relation target word hword hfold htarget =>
    obtain ⟨rfl, rfl⟩ := List.cons.inj hwords
    have hagent : agent.appendRules (ScopeClause.relation relation target).named = agent :=
      agent.appendRules_nil
    refine ⟨[⟨agent.name, relation, target, line⟩], rfl, ?_⟩
    rw [hagent, ← hfold]
    rfl

/-- Directives that spell clauses are read as what these say about the agent. -/
theorem exists_foldlM_readAgent (hknown : (known.map fun rule ↦ rule.name).Nodup)
    {clauses : List ScopeClause} {directives : List Directive}
    (h : List.Forall₂ (fun clause directive ↦
      ScopeClause.Spelling catalog clause (directive.name :: directive.arguments)) clauses
      directives)
    (hclauses : ∀ clause ∈ clauses, clause.SuitsAgent known) (agent : Agent)
    (draft : ScenarioDraft) :
    ∃ declared : List PendingRelation,
      declared.map PendingRelation.declaration =
          (clauses.flatMap ScopeClause.relations).map (Prod.mk agent.name) ∧
        directives.foldlM (readAgent catalog known) (agent, draft) =
          .ok (agent.appendRules (clauses.flatMap ScopeClause.named),
            draft.sayAgent agent.owner clauses declared) := by
  induction h generalizing agent draft with
  | nil =>
    refine ⟨[], rfl, ?_⟩
    rw [List.flatMap_nil, Agent.appendRules_nil]
    simp [sayAgent, ScopeClause.poolsOf, pure, Except.pure]
  | @cons clause directive clauses directives hspelling _ ih =>
    obtain ⟨hclause, hlater⟩ := List.forall_mem_cons.1 hclauses
    obtain ⟨first, hfirst, hread⟩ := exists_readAgent_eq_ok hknown hspelling hclause agent draft
    obtain ⟨declared, hdeclared, hrest⟩ := ih hlater (agent.appendRules clause.named)
      (draft.sayAgent agent.owner [clause] first)
    refine ⟨first ++ declared, ?_, ?_⟩
    · rw [List.map_append, hfirst, hdeclared, List.flatMap_cons, List.map_append]
      rfl
    · rw [List.foldlM_cons, hread, sayAgent_cons]
      rw [List.flatMap_cons, Agent.appendRules_append]
      exact hrest

end ScenarioDraft

end TickEconomy
