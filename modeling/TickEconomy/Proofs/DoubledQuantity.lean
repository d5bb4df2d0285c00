import TickEconomy.Proofs.Evaluation
import TickEconomy.Proofs.WrittenRules
import TickEconomy.Proofs.WrittenScenario
import TickEconomy.Report
import TickEconomy.Resource.Parse

/-!
# A quantity that outgrows its numerals

A number that a text gives has few enough digits for a numeral, since it is read from one. Ticks do
not keep it so. Here the world holds a quantity of wood, and its rule takes the negative of the same
quantity, which adds as much again. The texts of this economy are accepted for every quantity that
fits a numeral (`DoubledQuantity.parse_rules`, `DoubledQuantity.parse_scenario`). From the greatest
of these one tick leads to a quantity that fits none
(`DoubledQuantity.exists_not_fitsNumeral_after`).

So whether a report or a snapshot can be written is not settled by the texts being accepted.
-/

set_option autoImplicit false
set_option relaxedAutoImplicit false

namespace TickEconomy.DoubledQuantity

/-! ### The economy -/

/-- The only resource. -/
def wood : Resource where
  handle := 0
  key := "wood"
  singular := "wood"
  plural := "wood"

/-- The catalog with the only resource. -/
def catalog : Catalog where
  resources := [wood]

/-- What the rule takes, which is less than nothing. -/
def taken (quantity : Nat) : Specifier where
  relation := selfRelation
  resource := wood
  quantity := -quantity

/-- The rule of the world. -/
def grow (quantity : Nat) : RuleDescription where
  name := "grow"
  inputs := [taken quantity]

/-- The rules of the economy. -/
def rules (quantity : Nat) : List Rule :=
  [Rule.ofBodies ((grow quantity).body 1) []]

/-- What the world holds at first. -/
def held (quantity : Nat) : PoolDescription where
  resource := wood
  capacity := some 0
  quantity := quantity

/-- A single tick, with a snapshot at it. -/
def scenario (quantity : Nat) : Scenario where
  settings := { ticks := 1, snapshotEvery := 1 }
  worldRules := rules quantity
  ledger := { pools := [(held quantity).pool .world] }

/-! ### Its texts -/

/-- The text of the resources. -/
def resourceLines : List (List Char) :=
  ["resource wood".toList, "end".toList]

/-- The text of the rules. -/
def ruleLines (quantity : Nat) : List (List Char) :=
  ["rule grow".toList, "in wood ".toList ++ Text.writeInteger (-quantity), "end".toList]

/-- The text of the scenario. -/
def scenarioLines (quantity : Nat) : List (List Char) :=
  ["world".toList, "ticks 1".toList, "snapshot_every 1".toList,
    "pool wood 0 ".toList ++ Text.writeInteger quantity, "rules grow".toList, "end".toList]

/-- What the scenario says of the world. -/
def worldClauses (quantity : Nat) : List ScopeClause :=
  [.setting .ticks 1, .setting .snapshotEvery 1, .pool (held quantity), .rules (rules quantity)]

/-- The block about the world. -/
def worldContent (quantity : Nat) : BlockContent where
  kind := "world"
  name := ""
  directives :=
    [["ticks", Text.numeral 1], ["snapshot_every", Text.numeral 1],
      ["pool", "wood", Text.numeral 0, Text.numeral quantity], ["rules", "grow"]]

theorem parse_resources : Resource.parse 0 resourceLines = .ok [wood] := by
  decide +kernel

theorem isWord_wood : Text.IsWord "wood".toList := by
  decide

theorem find?_wood : catalog.find? "wood" = some wood := by
  decide +kernel

theorem trim_empty : Name.trim "" = "" := by
  decide +kernel

theorem fitsNumeral_zero : Text.FitsNumeral 0 := by
  decide +kernel

theorem fitsNumeral_one : Text.FitsNumeral 1 := by
  decide +kernel

/-- The lines of these texts have no line ends of a file. -/
theorem any_endsFileLine_eq_false (quantity : Nat) :
    ∀ line ∈ resourceLines ++ ruleLines quantity ++ scenarioLines quantity,
      line.any Text.endsFileLine = false := by
  have hwritten : ∀ number : Int, (Text.writeInteger number).any Text.endsFileLine = false :=
    fun number ↦ (Text.isWord_writeInteger number).any_endsFileLine
  simp only [resourceLines, ruleLines, scenarioLines, List.forall_mem_append, List.forall_mem_cons,
    List.any_append, hwritten, Bool.or_false]
  decide +kernel

section Accepted

variable {quantity : Nat} (h : Text.FitsNumeral quantity)

include h

/-! ### The text of the rules -/

theorem fitsNumeral_neg : Text.FitsNumeral (-quantity) := by
  rw [Text.FitsNumeral, Int.natAbs_neg]
  exact h

theorem isWritable_grow : (grow quantity).IsWritable catalog := by
  have hself : Text.IsWord selfRelation.toList ∧ Name.fold selfRelation = selfRelation := by
    decide +kernel
  have htaken : (taken quantity).IsWritable catalog :=
    ⟨⟨hself.1, hself.2, "wood", isWord_wood, find?_wood⟩, fitsNumeral_neg h⟩
  have hname : "grow" ≠ "" ∧ Name.trim "grow" = "grow" := by decide +kernel
  exact
    { name_ne := hname.1
      trim_name := hname.2
      period := fitsNumeral_one
      preconditions := by simp [grow]
      inputs := List.forall_mem_singleton.2 htaken
      outputs := by simp [grow]
      sets := by simp [grow]
      extraRounds := fitsNumeral_zero
      repeatFrom := by simp [grow]
      fallback := by simp [grow] }

/-- The lines of the rules are the rule as it is written. -/
theorem exists_isWrittenAs_grow :
    ∃ content, (grow quantity).IsWrittenAs catalog content ∧
      ruleLines quantity = [content].flatMap BlockContent.lines := by
  have hspelling : Clause.Spelling catalog (.input (taken quantity))
      ["in", "wood", Text.numeral (-quantity)] :=
    .input ⟨["wood"], .plain rfl isWord_wood find?_wood, fitsNumeral_neg h, rfl⟩
  have hstated : (grow quantity).IsStatedBy [.input (taken quantity)] :=
    ⟨.inr ⟨rfl, rfl⟩, rfl, rfl, rfl, rfl, .inr ⟨rfl, rfl⟩, rfl, rfl⟩
  refine ⟨⟨"rule", "grow", [["in", "wood", Text.numeral (-quantity)]]⟩,
    ⟨rfl, rfl, _, hstated, .cons hspelling .nil⟩, ?_⟩
  simp [ruleLines, BlockContent.lines, BlockContent.openingLine, BlockContent.directiveLine,
    Text.writeWords_cons_cons, Text.writeWords_singleton, Text.numeral]

/-- The text of the rules is accepted. -/
theorem parse_rules : Rule.parse catalog 1 (ruleLines quantity) = .ok (rules quantity) := by
  obtain ⟨content, hwritten, hlines⟩ := exists_isWrittenAs_grow h
  obtain ⟨drafts, hparse, hhandles, hdrafts⟩ := Rule.exists_drafts_of_isWrittenAs catalog 1
    (List.forall_mem_singleton.2 (isWritable_grow h)) (List.nodup_singleton _)
    (.cons hwritten .nil)
  obtain ⟨⟨body, reference⟩, rest, ⟨hbody, htarget⟩, hrest, rfl⟩ :=
    List.forall₂_cons_left_iff.1 hdrafts
  obtain rfl := List.forall₂_nil_left_iff.1 hrest
  have hhandle : body.handle = 1 := List.head_eq_of_cons_eq hhandles
  rw [hhandle] at hbody
  obtain rfl := hbody
  obtain rfl : reference = none := Option.map_eq_none_iff.1 htarget
  rw [hlines, hparse, Draft.linkAll, List.mapM_cons, Draft.link, Draft.followFallbacks]
  rfl

/-! ### The text of the scenario -/

omit h in
/-- The lines of the scenario are the block about the world. -/
theorem scenarioLines_eq :
    scenarioLines quantity = [worldContent quantity].flatMap BlockContent.lines := by
  have hzero : (Text.numeral 0).toList = ['0'] := by decide
  have hone : (Text.numeral 1).toList = ['1'] := by decide
  have hquantity : (Text.numeral quantity).toList = Text.writeInteger quantity :=
    String.toList_ofList
  simp [scenarioLines, worldContent, BlockContent.lines, BlockContent.openingLine,
    BlockContent.directiveLine, Text.writeWords_cons_cons, Text.writeWords_singleton, hzero, hone,
    hquantity]

theorem spelling_worldClauses :
    List.Forall₂ (ScopeClause.Spelling catalog) (worldClauses quantity)
      (worldContent quantity).directives := by
  have hgrow : ∀ rule ∈ rules quantity, Text.IsWord rule.name.toList :=
    List.forall_mem_singleton.2 (by decide : Text.IsWord "grow".toList)
  exact .cons (.setting fitsNumeral_one) (.cons (.setting fitsNumeral_one)
    (.cons (.pool isWord_wood find?_wood (.limited fitsNumeral_zero) h)
    (.cons (.rules (List.cons_ne_nil _ _) hgrow) .nil)))

theorem isWritable_worldContent : (worldContent quantity).IsWritable := by
  have hkind : BlockContent.IsFirstWord "world" ∧ "world" ≠ "end" := by decide
  refine ⟨hkind.1, hkind.2, trim_empty, fun words hwords ↦ ?_⟩
  obtain ⟨clause, -, hspelling⟩ := exists_of_forall₂_of_mem (spelling_worldClauses h) hwords
  exact hspelling.isDirective

/-- The text of the scenario is accepted. -/
theorem parse_scenario :
    Scenario.parse catalog (rules quantity) (scenarioLines quantity) = .ok (scenario quantity) := by
  have hrelations : ∀ clause ∈ worldClauses quantity, clause.relations = [] := by
    simp [worldClauses]
  have hnamed : ∀ clause ∈ worldClauses quantity, ∀ rule ∈ clause.named, rule ∈ rules quantity := by
    simp [worldClauses]
  have hsuits : ScenarioPart.Suits (rules quantity) (.world "" (worldClauses quantity)) :=
    .world fun clause hclause ↦ ⟨hrelations clause hclause, hnamed clause hclause⟩
  have hknown : ((rules quantity).map fun rule ↦ rule.name).Nodup := List.nodup_singleton _
  obtain ⟨declared, hdeclared, hparse⟩ := Scenario.exists_parse_eq_resolveAll hknown
    (List.forall_mem_singleton.2 (isWritable_worldContent h))
    (.cons (.world trim_empty hrelations (spelling_worldClauses h)) .nil)
    (List.forall_mem_singleton.2 hsuits) List.nodup_nil
  obtain rfl : declared = [] := List.map_eq_nil_iff.1 hdeclared
  rw [scenarioLines_eq, hparse]
  rfl

end Accepted

/-! ### The greatest quantity of a text -/

/-- The greatest number that fits a numeral. -/
def greatest : Nat :=
  Nat.pow 10 Text.numeralDigitLimit - 1

theorem fitsNumeral_greatest : Text.FitsNumeral greatest := by
  decide +kernel

/-- After a tick the world holds a quantity that fits no numeral. -/
theorem exists_not_fitsNumeral_after :
    ∃ number ∈ ((Simulation.ofScenario (scenario greatest)).after 1).quantities,
      ¬Text.FitsNumeral number := by
  decide +kernel

end TickEconomy.DoubledQuantity
