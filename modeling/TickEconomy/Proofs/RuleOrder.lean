import Mathlib.Data.List.Perm.Basic
import TickEconomy.Proofs.FallbackPath
import TickEconomy.Proofs.JoinedTexts

/-!
# The order of the rules of a text

What a draft says, apart from handles and line numbers, are the terms of its rule and the name of
its fallback (`Draft.said`). A route that settles depends on nothing else. So a draft that is linked
among some drafts is linked to the same terms among others that say at least what these say
(`Draft.exists_link_of_said_subset`), in whatever order they stand and whatever else there is.

What a block says does not depend on where it stands (`Draft.said_eq_of_unnumbered_eq`). It follows
that a text made of parts without a fault is accepted in every order of the parts or in none, with
the same rules, each standing where its block stands, and that two texts that are accepted and have
no name in common may be joined (`Rule.parse_any_order`).
-/

set_option autoImplicit false
set_option relaxedAutoImplicit false

namespace TickEconomy

/-! ### Terms -/

/-- The rule without its handle. -/
def RuleBody.unnumbered (body : RuleBody) : RuleBody :=
  { body with handle := 0 }

/-- The rule and its fallbacks without their handles. -/
def Rule.terms (rule : Rule) : List RuleBody :=
  rule.bodies.map RuleBody.unnumbered

/-- The terms of the rule of a draft and the name of its fallback. -/
def Draft.said (draft : Draft) : RuleBody × Option String :=
  (draft.body.unnumbered, draft.reference.map FallbackReference.target)

/-! ### What a block says -/

namespace Clause

variable {catalog : Catalog} {directive other : Directive}

theorem toOption_readSpecifier_congr (h : directive.arguments = other.arguments) :
    (readSpecifier catalog directive).toOption = (readSpecifier catalog other).toOption := by
  have hspecifier : ∀ relation resource quantity,
      (specifierOf catalog directive relation resource quantity).toOption =
        (specifierOf catalog other relation resource quantity).toOption := by
    intro relation resource quantity
    simp only [specifierOf, toOption_bind, Directive.toOption_resource, Directive.toOption_integer]
  unfold readSpecifier
  rw [h]
  split
  · exact hspecifier _ _ _
  · exact hspecifier _ _ _
  · rfl

theorem toOption_readCondition_congr (h : directive.arguments = other.arguments) :
    (readCondition catalog directive).toOption = (readCondition catalog other).toOption := by
  have hcomparison : ∀ sign,
      (comparisonOf directive sign).toOption = (comparisonOf other sign).toOption := by
    intro sign
    unfold comparisonOf
    cases Comparison.ofSign sign <;> rfl
  have hcondition : ∀ relation resource sign quantity,
      (conditionOf catalog directive relation resource sign quantity).toOption =
        (conditionOf catalog other relation resource sign quantity).toOption := by
    intro relation resource sign quantity
    simp only [conditionOf, toOption_bind, Directive.toOption_resource,
      Directive.toOption_integer, hcomparison]
  unfold readCondition
  rw [h]
  split
  · exact hcondition _ _ _ _
  · exact hcondition _ _ _ _
  · rfl

theorem toOption_readRepetition_congr (h : directive.arguments = other.arguments) :
    (readRepetition catalog directive).toOption = (readRepetition catalog other).toOption := by
  have hpool : ∀ word relation resource,
      (repeatFromOf catalog directive word relation resource).toOption =
        (repeatFromOf catalog other word relation resource).toOption := by
    intro word relation resource
    unfold repeatFromOf
    split_ifs
    · simp only [toOption_bind, Directive.toOption_resource]
    · rfl
  unfold readRepetition
  rw [h]
  split
  · rw [toOption_map, toOption_map, Directive.toOption_count, Directive.toOption_count]
  · exact hpool _ _ _
  · exact hpool _ _ _
  · rfl

/-- Directives with the same words are the same clause. -/
theorem toOption_ofDirective_congr (hname : directive.name = other.name)
    (harguments : directive.arguments = other.arguments) :
    (ofDirective catalog directive).toOption = (ofDirective catalog other).toOption := by
  unfold ofDirective
  rw [hname]
  split
  case h_1 | h_2 | h_3 =>
    rw [toOption_map, toOption_map, toOption_readSpecifier_congr harguments]
  case h_4 => rw [toOption_map, toOption_map, toOption_readCondition_congr harguments]
  case h_5 =>
    rw [harguments]
    split
    · rw [toOption_map, toOption_map, Directive.toOption_count, Directive.toOption_count]
    · rfl
  case h_6 => exact toOption_readRepetition_congr harguments
  case h_7 =>
    rw [harguments]
    split <;> rfl
  case h_8 => rfl

/-- A directive is the same clause in any line. -/
theorem ofDirective_unnumbered_iff {clause : Clause} :
    ofDirective catalog directive.unnumbered = .ok clause ↔
      ofDirective catalog directive = .ok clause := by
  rw [← toOption_eq_some_iff, ← toOption_eq_some_iff]
  exact iff_of_eq (congrArg (· = some clause) (toOption_ofDirective_congr rfl rfl))

end Clause

/-- A block is in order wherever it stands. -/
theorem Block.isRule_unnumbered_iff {catalog : Catalog} {block : Block} :
    block.unnumbered.IsRule catalog ↔ block.IsRule catalog := by
  have hreadable : (∀ directive ∈ block.unnumbered.directives,
      ∃ clause, Clause.ofDirective catalog directive = .ok clause) ↔
        ∀ directive ∈ block.directives,
          ∃ clause, Clause.ofDirective catalog directive = .ok clause := by
    simp only [Block.unnumbered, List.forall_mem_map, Clause.ofDirective_unnumbered_iff]
  exact ⟨fun h ↦ ⟨h.kind_eq, h.name_ne, hreadable.1 h.readable⟩,
    fun h ↦ ⟨h.kind_eq, h.name_ne, hreadable.2 h.readable⟩⟩

/-- A block that says the same as one in order is in order. -/
theorem Block.IsRule.of_unnumbered_eq {catalog : Catalog} {block other : Block}
    (h : block.IsRule catalog) (hsame : block.unnumbered = other.unnumbered) :
    other.IsRule catalog := by
  rw [← isRule_unnumbered_iff, ← hsame, isRule_unnumbered_iff]
  exact h

namespace Draft

/-- The drafts of a block say the same wherever the block stands. -/
theorem said_eq_of_unnumbered_eq {catalog : Catalog} {handle otherHandle : Nat}
    {block other : Block} (hsame : block.unnumbered = other.unnumbered) {draft otherDraft : Draft}
    (h : ofBlock catalog handle block = .ok draft)
    (hother : ofBlock catalog otherHandle other = .ok otherDraft) :
    draft.said = otherDraft.said := by
  obtain ⟨clauses, hclauses, rfl⟩ := ofBlock_eq_ok_iff.1 h
  obtain ⟨otherClauses, hotherClauses, rfl⟩ := ofBlock_eq_ok_iff.1 hother
  have hread : ∀ {block : Block} {clauses : List Clause},
      List.Forall₂ (fun directive clause ↦ Clause.ofDirective catalog directive = .ok clause)
        block.directives clauses →
      List.Forall₂ (fun directive clause ↦ Clause.ofDirective catalog directive = .ok clause)
        block.unnumbered.directives clauses := fun h ↦
    List.forall₂_map_left_iff.2 (h.imp fun _ _ ↦ Clause.ofDirective_unnumbered_iff.2)
  have hunique : Relator.RightUnique fun directive clause ↦
      Clause.ofDirective catalog directive = .ok clause :=
    fun directive clause otherClause hclause hotherClause ↦
      Except.ok.inj (hclause.symm.trans hotherClause)
  have hclausesEq : clauses = otherClauses :=
    hunique.forall₂ (hread hclauses) (hsame ▸ hread hotherClauses)
  have hname : block.unnumbered.name = other.unnumbered.name := congrArg Block.name hsame
  rw [said, said, Block.target_of_reference? hclauses, Block.target_of_reference? hotherClauses,
    hclausesEq]
  simpa [RuleBody.unnumbered, RuleBody.ofClauses, Block.unnumbered] using hname

/-! ### What routes depend on -/

open Signpost

/-- The names of drafts. -/
theorem map_name_signpost (drafts : List Draft) :
    (drafts.map signpost).map Signpost.name = (drafts.map said).map fun saying ↦ saying.1.name := by
  simp [signpost, said, RuleBody.unnumbered]

/-- A draft leads to another when it says the name of the other. -/
theorem leadsTo_signpost_iff {first second : Draft} :
    LeadsTo first.signpost second.signpost ↔ first.said.2 = some second.said.1.name := by
  simp [LeadsTo, signpost, said, RuleBody.unnumbered]

/-- Drafts form a path when they are there and each says the name of the next. -/
theorem isChain_signpost_iff {drafts : List Draft} :
    (drafts.map signpost).IsChain LeadsTo ↔
      (drafts.map said).IsChain fun first second ↦ first.2 = some second.1.name := by
  rw [List.isChain_map, List.isChain_map]
  simp only [leadsTo_signpost_iff]

variable {few more : List Draft}

/-- A route that settles is there also among other drafts that say the same. -/
theorem route_of_map_said_eq {way other : List Draft} {first otherFirst : Draft}
    (h : Route (few.map signpost) first.signpost ((first :: way).map signpost) none)
    (hother : ∀ draft ∈ otherFirst :: other, draft ∈ more)
    (hsaid : (first :: way).map said = (otherFirst :: other).map said) :
    Route (more.map signpost) otherFirst.signpost ((otherFirst :: other).map signpost) none where
  path := by
    refine ⟨fun post hpost ↦ ?_, ?_⟩
    · obtain ⟨draft, hdraft, rfl⟩ := List.mem_map.1 hpost
      exact List.mem_map_of_mem (hother draft hdraft)
    · rw [isChain_signpost_iff, ← hsaid, ← isChain_signpost_iff]
      exact h.path.chain
  starts := rfl
  nodup := by
    rw [map_name_signpost, ← hsaid, ← map_name_signpost]
    exact h.nodup
  ends := by
    obtain ⟨last, hlast, hends⟩ := h.ends
    have hlastSaid : ((first :: way).map said).getLast?.map Prod.snd = some none := by
      rw [List.getLast?_map] at hlast ⊢
      obtain ⟨draft, hdraft, rfl⟩ := Option.map_eq_some_iff.1 hlast
      have hnone : draft.reference = none := hends.reference_eq_none
      simp [hdraft, said, hnone]
    rw [hsaid, List.getLast?_map] at hlastSaid
    obtain ⟨draft, hdraft, hnone⟩ : ∃ draft, (otherFirst :: other).getLast? = some draft ∧
        draft.reference = none := by
      simpa [said] using hlastSaid
    exact ⟨draft.signpost, by rw [List.getLast?_map, hdraft]; rfl, .settled hnone⟩

/-- A draft that is linked among some drafts is linked to the same terms among others that say at
least what these say. -/
theorem exists_link_of_said_subset (hmore : ((more.map signpost).map Signpost.name).Nodup)
    (hsubset : few.map said ⊆ more.map said) {draft other : Draft} (hdraft : draft ∈ few)
    (hother : other ∈ more) (hsaid : draft.said = other.said) {rule : Rule}
    (h : link few draft = .ok rule) :
    ∃ otherRule, link more other = .ok otherRule ∧ otherRule.terms = rule.terms := by
  obtain ⟨way, hway, hroute, rfl⟩ := exists_route_of_link_eq_ok hdraft h
  obtain ⟨otherWay, hotherWay, hsaidWay⟩ : ∃ otherWay : List Draft,
      (∀ draft ∈ otherWay, draft ∈ more) ∧ way.map said = otherWay.map said := by
    have hmatched : ∀ draft ∈ way, ∃ other, other ∈ more ∧ draft.said = other.said := by
      intro draft hdraft
      obtain ⟨other, hother, hsame⟩ :=
        List.mem_map.1 (hsubset (List.mem_map_of_mem (hway draft hdraft)))
      exact ⟨other, hother, hsame.symm⟩
    obtain ⟨others, hothers⟩ := exists_forall₂ hmatched
    refine ⟨others, fun other hother ↦ ?_, map_eq_map_of_forall₂ hothers fun _ _ h ↦ h.2⟩
    obtain ⟨draft, -, hmem, -⟩ := exists_of_forall₂_of_mem hothers hother
    exact hmem
  have hwhole : (draft :: way).map said = (other :: otherWay).map said := by
    rw [List.map_cons, List.map_cons, hsaid, hsaidWay]
  have hotherRoute := route_of_map_said_eq hroute (List.forall_mem_cons.2 ⟨hother, hotherWay⟩)
    hwhole
  obtain ⟨rest, fault, hrest, hlinked, hlink⟩ := exists_route_of_link hother
  obtain ⟨hsame, rfl⟩ := hlinked.unique hmore hotherRoute
  obtain rfl : rest = otherWay :=
    eq_of_map_signpost_eq hmore hrest hotherWay (List.cons.inj hsame).2
  refine ⟨_, hlink, ?_⟩
  have hterms : ∀ (first : Draft) (later : List Draft),
      (Rule.ofBodies first.body (later.map body)).terms =
        ((first :: later).map said).map Prod.fst := by
    intro first later
    simp [Rule.terms, Rule.ofBodies, Rule.bodies, said]
  rw [hterms, hterms, hwhole]

/-- Drafts that are linked one by one among some drafts are linked to the same terms among others
that say at least what these say. -/
theorem exists_linked_of_said_subset (hmore : ((more.map signpost).map Signpost.name).Nodup)
    (hsubset : few.map said ⊆ more.map said) {drafts others : List Draft}
    (hdrafts : ∀ draft ∈ drafts, draft ∈ few) (hothers : ∀ other ∈ others, other ∈ more)
    (hsaid : drafts.map said = others.map said) {rules : List Rule}
    (h : List.Forall₂ (fun draft rule ↦ link few draft = .ok rule) drafts rules) :
    ∃ otherRules, List.Forall₂ (fun draft rule ↦ link more draft = .ok rule) others otherRules ∧
      otherRules.map Rule.terms = rules.map Rule.terms := by
  induction h generalizing others with
  | nil =>
    obtain rfl : others = [] := List.map_eq_nil_iff.1 hsaid.symm
    exact ⟨[], List.Forall₂.nil, rfl⟩
  | @cons draft rule drafts rules hrule _ ih =>
    obtain ⟨other, later, rfl, hsame, hlater⟩ := List.map_eq_cons_iff.1 hsaid.symm
    obtain ⟨hdraft, hdrafts⟩ := List.forall_mem_cons.1 hdrafts
    obtain ⟨hother, hothers⟩ := List.forall_mem_cons.1 hothers
    obtain ⟨otherRule, hlink, hterms⟩ :=
      exists_link_of_said_subset hmore hsubset hdraft hother hsame.symm hrule
    obtain ⟨otherRules, hlinks, hothersTerms⟩ := ih hdrafts hothers hlater.symm
    exact ⟨otherRule :: otherRules, List.Forall₂.cons hlink hlinks,
      by rw [List.map_cons, List.map_cons, hterms, hothersTerms]⟩

/-! ### Blocks that are read -/

/-- Blocks that are read are in order, and their names are new and distinct. -/
theorem isRule_of_foldlM_addBlock {catalog : Catalog} {firstHandle : Nat} {blocks : List Block}
    {earlier drafts : List Draft} (hnames : (earlier.map fun draft ↦ draft.body.name).Nodup)
    (h : blocks.foldlM (addBlock catalog firstHandle) earlier = .ok drafts) :
    (∀ block ∈ blocks, block.IsRule catalog) ∧
      ((earlier.map fun draft ↦ draft.body.name) ++ blocks.map Block.name).Nodup := by
  induction blocks generalizing earlier with
  | nil => exact ⟨by simp, by simpa using hnames⟩
  | cons block blocks ih =>
    rw [List.foldlM_cons] at h
    obtain ⟨next, hnext, hlater⟩ := bind_eq_ok_iff.1 h
    unfold addBlock at hnext
    split_ifs at hnext with hkind hname hduplicate
    obtain ⟨draft, hdraft, hadded⟩ := bind_eq_ok_iff.1 hnext
    obtain ⟨clauses, hclauses, heq⟩ := ofBlock_eq_ok_iff.1 hdraft
    cases hadded
    have hblock : block.IsRule catalog := by
      refine ⟨not_not.1 hkind, hname, fun directive hdirective ↦ ?_⟩
      obtain ⟨clause, -, hclause⟩ := exists_of_forall₂_of_mem hclauses.flip hdirective
      exact ⟨clause, hclause⟩
    have hextended : (earlier ++ [draft]).map (fun draft ↦ draft.body.name) =
        (earlier.map fun draft ↦ draft.body.name) ++ [block.name] := by
      rw [List.map_append, List.map_singleton, heq]
      rfl
    have hnext : ((earlier ++ [draft]).map fun draft ↦ draft.body.name).Nodup := by
      rw [hextended, ← List.concat_eq_append]
      exact hnames.concat hduplicate
    obtain ⟨hothers, hdistinct⟩ := ih hnext hlater
    rw [hextended, List.append_assoc] at hdistinct
    exact ⟨List.forall_mem_cons.2 ⟨hblock, hothers⟩, hdistinct⟩

/-- Drafts of blocks say the same where the blocks do. -/
theorem map_said_eq_of_map_unnumbered_eq {catalog : Catalog} {blocks others : List Block}
    (hsame : blocks.map Block.unnumbered = others.map Block.unnumbered)
    {drafts otherDrafts : List Draft}
    (h : List.Forall₂ (fun block draft ↦ ∃ handle, ofBlock catalog handle block = .ok draft)
      blocks drafts)
    (hothers : List.Forall₂ (fun block draft ↦ ∃ handle, ofBlock catalog handle block = .ok draft)
      others otherDrafts) :
    drafts.map said = otherDrafts.map said := by
  induction h generalizing others otherDrafts with
  | nil =>
    obtain rfl : others = [] := List.map_eq_nil_iff.1 hsame.symm
    cases hothers
    rfl
  | @cons block draft blocks drafts hdraft _ ih =>
    obtain ⟨other, later, rfl, hfirst, hlater⟩ := List.map_eq_cons_iff.1 hsame.symm
    obtain ⟨otherDraft, laterDrafts, hotherDraft, hlaterDrafts, rfl⟩ :=
      List.forall₂_cons_left_iff.1 hothers
    obtain ⟨handle, hdraft⟩ := hdraft
    obtain ⟨otherHandle, hotherDraft⟩ := hotherDraft
    rw [List.map_cons, List.map_cons, said_eq_of_unnumbered_eq hfirst.symm hdraft hotherDraft,
      ih hlater.symm hlaterDrafts]

/-- Drafts of blocks say no more than other drafts where the blocks say no more than theirs. -/
theorem said_subset_of_unnumbered_subset {catalog : Catalog} {blocks others : List Block}
    (hsubset : blocks.map Block.unnumbered ⊆ others.map Block.unnumbered)
    {drafts otherDrafts : List Draft}
    (h : List.Forall₂ (fun block draft ↦ ∃ handle, ofBlock catalog handle block = .ok draft)
      blocks drafts)
    (hothers : List.Forall₂ (fun block draft ↦ ∃ handle, ofBlock catalog handle block = .ok draft)
      others otherDrafts) :
    drafts.map said ⊆ otherDrafts.map said := by
  intro saying hsaying
  obtain ⟨draft, hdraft, rfl⟩ := List.mem_map.1 hsaying
  obtain ⟨block, hblock, handle, hread⟩ := exists_of_forall₂_of_mem h hdraft
  obtain ⟨other, hother, hsame⟩ := List.mem_map.1 (hsubset (List.mem_map_of_mem hblock))
  obtain ⟨otherDraft, hotherDraft, otherHandle, hotherRead⟩ :=
    exists_of_forall₂_of_mem hothers.flip hother
  rw [said_eq_of_unnumbered_eq hsame.symm hread hotherRead]
  exact List.mem_map_of_mem hotherDraft

/-- A draft of a text says a name that no other draft of the text says. -/
theorem eq_of_name_eq {drafts : List Draft}
    (hdistinct : ((drafts.map signpost).map Signpost.name).Nodup) {draft other : Draft}
    (hdraft : draft ∈ drafts) (hother : other ∈ drafts)
    (hname : draft.body.name = other.body.name) : draft = other := by
  rw [List.map_map] at hdistinct
  exact List.inj_on_of_nodup_map hdistinct hdraft hother hname

/-- Drafts that say no less than others are linked if these are, and rules of the same name then
have the same terms. -/
theorem exists_linkAll_of_said_subset (hmore : ((more.map signpost).map Signpost.name).Nodup)
    (hsubset : few.map said ⊆ more.map said) (hback : more.map said ⊆ few.map said)
    {rules : List Rule} (h : linkAll few = .ok rules) :
    ∃ otherRules, linkAll more = .ok otherRules ∧
      ∀ rule ∈ rules, ∀ other ∈ otherRules, other.name = rule.name → other.terms = rule.terms := by
  have hlinks := forall₂_of_mapM_eq_ok h
  have hlinked : ∀ other ∈ more, ∃ otherRule, link more other = .ok otherRule := by
    intro other hother
    obtain ⟨draft, hdraft, hsaid⟩ := List.mem_map.1 (hback (List.mem_map_of_mem hother))
    obtain ⟨rule, -, hrule⟩ := exists_of_forall₂_of_mem hlinks.flip hdraft
    obtain ⟨otherRule, hlink, -⟩ :=
      exists_link_of_said_subset hmore hsubset hdraft hother hsaid hrule
    exact ⟨otherRule, hlink⟩
  obtain ⟨otherRules, hotherRules⟩ := exists_mapM_eq_ok hlinked
  refine ⟨otherRules, hotherRules, fun rule hrule otherRule hotherRule hname ↦ ?_⟩
  obtain ⟨draft, hdraft, hlink⟩ := exists_of_forall₂_of_mem hlinks hrule
  obtain ⟨other, hother, hotherLink⟩ :=
    exists_of_forall₂_of_mem (forall₂_of_mapM_eq_ok hotherRules) hotherRule
  obtain ⟨same, hmem, hsaid⟩ := List.mem_map.1 (hsubset (List.mem_map_of_mem hdraft))
  have hsameName : same.body.name = draft.body.name :=
    congrArg (fun saying ↦ saying.1.name) hsaid
  obtain rfl : same = other := by
    refine eq_of_name_eq hmore hmem hother (hsameName.trans ?_)
    rw [← (bodies_of_link hlink).1, ← (bodies_of_link hotherLink).1]
    exact hname.symm
  obtain ⟨linked, hlinkedTo, hterms⟩ :=
    exists_link_of_said_subset hmore hsubset hdraft hmem hsaid.symm hlink
  obtain rfl : linked = otherRule := Except.ok.inj (hlinkedTo.symm.trans hotherLink)
  exact hterms

end Draft

/-! ### Texts of rules -/

namespace Rule

variable {catalog : Catalog} {lines others : List (List Char)}

/-- The lines have no fault, and their blocks are rules in order with distinct names. -/
structure IsText (catalog : Catalog) (lines : List (List Char)) : Prop where
  fault_eq : (Reading.ofLines lines).fault = none
  isRule : ∀ block ∈ (Reading.ofLines lines).blocks, block.IsRule catalog
  nodup : ((Reading.ofLines lines).blocks.map Block.name).Nodup

/-- A text that is accepted is one of rules in order. -/
theorem isText_of_parse {firstHandle : Nat} {rules : List Rule}
    (h : parse catalog firstHandle lines = .ok rules) : IsText catalog lines := by
  obtain ⟨drafts, hdrafts, h⟩ := bind_eq_ok_iff.1 h
  obtain ⟨complete, hcomplete, -⟩ := bind_eq_ok_iff.1 h
  obtain ⟨hisRule, hnodup⟩ := Draft.isRule_of_foldlM_addBlock (by simp) hdrafts
  exact ⟨(Reading.finish_eq_ok_iff.1 hcomplete).1, hisRule, by simpa using hnodup⟩

/-- A text of rules in order comes to what linking its drafts comes to. -/
theorem IsText.exists_drafts (h : IsText catalog lines) (firstHandle : Nat) :
    ∃ drafts, parse catalog firstHandle lines = Draft.linkAll drafts ∧
      ((drafts.map Draft.signpost).map Signpost.name).Nodup ∧
      List.Forall₂ (fun block draft ↦ ∃ handle, Draft.ofBlock catalog handle block = .ok draft)
        (Reading.ofLines lines).blocks drafts := by
  obtain ⟨drafts, hparse, -, hmatched⟩ :=
    exists_drafts_of_lines catalog firstHandle h.fault_eq h.isRule h.nodup
  refine ⟨drafts, hparse, ?_, hmatched⟩
  have hposts : drafts.map Draft.signpost = (Reading.ofLines lines).blocks.map Block.signpost :=
    map_eq_map_of_forall₂ hmatched.flip fun draft block ⟨_, hdraft⟩ ↦ signpost_of_ofBlock hdraft
  rw [hposts, List.map_map]
  exact h.nodup

/-- The rules of a text stand in the order of its blocks. -/
theorem names_of_parse {firstHandle : Nat} {rules : List Rule}
    (h : parse catalog firstHandle lines = .ok rules) :
    (rules.map fun rule ↦ rule.name) = (Reading.ofLines lines).blocks.map Block.name := by
  obtain ⟨drafts, hparse, -, hmatched⟩ := (isText_of_parse h).exists_drafts firstHandle
  have hlinks := forall₂_of_mapM_eq_ok (hparse.symm.trans h)
  refine (map_eq_map_of_forall₂ ?_ fun block rule hname ↦ hname).symm
  refine forall₂_trans ?_ hmatched hlinks
  rintro block draft rule ⟨handle, hdraft⟩ hlink
  obtain ⟨clauses, -, rfl⟩ := Draft.ofBlock_eq_ok_iff.1 hdraft
  rw [(Draft.bodies_of_link hlink).1]
  rfl

/-- A text of rules in order stays one when its blocks stand in another order. -/
theorem IsText.of_perm (h : IsText catalog lines) (hfault : (Reading.ofLines others).fault = none)
    (hperm : ((Reading.ofLines lines).blocks.map Block.unnumbered).Perm
      ((Reading.ofLines others).blocks.map Block.unnumbered)) : IsText catalog others where
  fault_eq := hfault
  isRule block hblock := by
    obtain ⟨same, hsame, hunnumbered⟩ :=
      List.mem_map.1 (hperm.symm.subset (List.mem_map_of_mem hblock))
    exact (h.isRule same hsame).of_unnumbered_eq hunnumbered
  nodup := by
    have hnames := hperm.map Block.name
    rw [List.map_map, List.map_map] at hnames
    exact hnames.nodup_iff.1 h.nodup

/-- A text that is accepted is also accepted when its blocks stand in another order, and rules of
the same name then have the same terms. -/
theorem exists_parse_of_perm {firstHandle : Nat} {rules : List Rule}
    (h : parse catalog firstHandle lines = .ok rules)
    (hfault : (Reading.ofLines others).fault = none)
    (hperm : ((Reading.ofLines lines).blocks.map Block.unnumbered).Perm
      ((Reading.ofLines others).blocks.map Block.unnumbered)) (otherHandle : Nat) :
    ∃ otherRules, parse catalog otherHandle others = .ok otherRules ∧
      ∀ rule ∈ rules, ∀ other ∈ otherRules, other.name = rule.name → other.terms = rule.terms := by
  have htext := isText_of_parse h
  obtain ⟨drafts, hparse, -, hmatched⟩ := htext.exists_drafts firstHandle
  obtain ⟨otherDrafts, hotherParse, hdistinct, hotherMatched⟩ :=
    (htext.of_perm hfault hperm).exists_drafts otherHandle
  rw [hotherParse]
  exact Draft.exists_linkAll_of_said_subset hdistinct
    (Draft.said_subset_of_unnumbered_subset hperm.subset hmatched hotherMatched)
    (Draft.said_subset_of_unnumbered_subset hperm.symm.subset hotherMatched hmatched)
    (hparse.symm.trans h)

/-- Two texts of rules in order that have no name in common make one. -/
theorem IsText.append {second : List (List Char)} (h : IsText catalog lines)
    (hsecond : IsText catalog second)
    (hnames : ((Reading.ofLines lines).blocks.map Block.name).Disjoint
      ((Reading.ofLines second).blocks.map Block.name)) :
    IsText catalog (lines ++ second) ∧
      ((Reading.ofLines lines).blocks ++ (Reading.ofLines second).blocks).map Block.unnumbered =
        (Reading.ofLines (lines ++ second)).blocks.map Block.unnumbered := by
  have hblocks : ((Reading.ofLines lines).blocks ++
      (Reading.ofLines second).blocks).map Block.unnumbered =
        (Reading.ofLines (lines ++ second)).blocks.map Block.unnumbered := by
    rw [Reading.ofLines_append h.fault_eq]
    simp [Reading.behind, Reading.movedBy, Function.comp_def, Block.unnumbered_movedBy]
  refine ⟨⟨?_, fun block hblock ↦ ?_, ?_⟩, hblocks⟩
  · rw [Reading.ofLines_append h.fault_eq]
    simp [Reading.behind, Reading.movedBy, hsecond.fault_eq]
  · have hmem := List.mem_map_of_mem (f := Block.unnumbered) hblock
    rw [← hblocks] at hmem
    obtain ⟨same, hsame, hunnumbered⟩ := List.mem_map.1 hmem
    have hrule := (List.mem_append.1 hsame).elim (h.isRule same) (hsecond.isRule same)
    exact hrule.of_unnumbered_eq hunnumbered
  · have hjoined := congrArg (List.map Block.name) hblocks
    rw [List.map_map, List.map_map] at hjoined
    change List.map Block.name _ = List.map Block.name _ at hjoined
    rw [← hjoined, List.map_append]
    exact h.nodup.append hsecond.nodup hnames

/-- Two texts that are accepted and have no name in common may be joined. -/
theorem exists_parse_append {second : List (List Char)} {firstHandle secondHandle : Nat}
    {rules secondRules : List Rule} (h : parse catalog firstHandle lines = .ok rules)
    (hsecond : parse catalog secondHandle second = .ok secondRules)
    (hnames : ∀ rule ∈ rules, ∀ other ∈ secondRules, rule.name ≠ other.name) (handle : Nat) :
    ∃ joined, parse catalog handle (lines ++ second) = .ok joined ∧
      joined.map terms = (rules ++ secondRules).map terms := by
  have htext := isText_of_parse h
  have hsecondText := isText_of_parse hsecond
  have hblockNames : ((Reading.ofLines lines).blocks.map Block.name).Disjoint
      ((Reading.ofLines second).blocks.map Block.name) := by
    rw [← names_of_parse h, ← names_of_parse hsecond]
    intro name hname hotherName
    obtain ⟨rule, hrule, rfl⟩ := List.mem_map.1 hname
    obtain ⟨other, hother, hsame⟩ := List.mem_map.1 hotherName
    exact hnames rule hrule other hother hsame.symm
  obtain ⟨hjoined, hblocks⟩ := htext.append hsecondText hblockNames
  obtain ⟨drafts, hparse, -, hmatched⟩ := htext.exists_drafts firstHandle
  obtain ⟨secondDrafts, hsecondParse, -, hsecondMatched⟩ := hsecondText.exists_drafts secondHandle
  obtain ⟨joinedDrafts, hjoinedParse, hdistinct, hjoinedMatched⟩ := hjoined.exists_drafts handle
  have hsaid := Draft.map_said_eq_of_map_unnumbered_eq hblocks
    (List.rel_append hmatched hsecondMatched) hjoinedMatched
  rw [List.map_append] at hsaid
  have hsubset : drafts.map Draft.said ++ secondDrafts.map Draft.said ⊆
      joinedDrafts.map Draft.said := hsaid ▸ List.Subset.refl _
  obtain ⟨hfirstSubset, hsecondSubset⟩ := List.append_subset.1 hsubset
  -- The drafts of the joined text are those of the one text and then those of the other.
  obtain ⟨firsts, seconds, rfl, hfirsts, hseconds⟩ := List.map_eq_append_iff.1 hsaid.symm
  obtain ⟨firstRules, hfirstLinks, hfirstTerms⟩ :=
    Draft.exists_linked_of_said_subset hdistinct hfirstSubset (fun _ hdraft ↦ hdraft)
      (fun _ hdraft ↦ List.mem_append_left _ hdraft) hfirsts.symm
      (forall₂_of_mapM_eq_ok (hparse.symm.trans h))
  obtain ⟨laterRules, hlaterLinks, hlaterTerms⟩ :=
    Draft.exists_linked_of_said_subset hdistinct hsecondSubset (fun _ hdraft ↦ hdraft)
      (fun _ hdraft ↦ List.mem_append_right _ hdraft) hseconds.symm
      (forall₂_of_mapM_eq_ok (hsecondParse.symm.trans hsecond))
  refine ⟨firstRules ++ laterRules, ?_, ?_⟩
  · rw [hjoinedParse]
    exact mapM_eq_ok_of_forall₂ (List.rel_append hfirstLinks hlaterLinks)
  · rw [List.map_append, List.map_append, hfirstTerms, hlaterTerms]

/-- The rules of a text made of parts without a fault stand in the order of the blocks of the
parts. -/
theorem names_of_parse_flatten {parts : List (List (List Char))} {firstHandle : Nat}
    {rules : List Rule} (hparts : ∀ part ∈ parts, (Reading.ofLines part).fault = none)
    (h : parse catalog firstHandle parts.flatten = .ok rules) :
    (rules.map fun rule ↦ rule.name) =
      (parts.flatMap fun part ↦ (Reading.ofLines part).blocks).map Block.name := by
  have hblocks := congrArg (List.map Block.name) (Reading.unnumbered_ofLines_flatten hparts).2
  rw [List.map_map, List.map_map] at hblocks
  exact (names_of_parse h).trans hblocks

/-- Parts without a fault have none in another order either, and then their blocks stand in another
order. -/
theorem perm_blocks_flatten {parts others : List (List (List Char))}
    (hparts : ∀ part ∈ parts, (Reading.ofLines part).fault = none) (hperm : parts.Perm others) :
    (Reading.ofLines others.flatten).fault = none ∧
      ((Reading.ofLines parts.flatten).blocks.map Block.unnumbered).Perm
        ((Reading.ofLines others.flatten).blocks.map Block.unnumbered) := by
  obtain ⟨-, hblocks⟩ := Reading.unnumbered_ofLines_flatten hparts
  obtain ⟨hfault, hotherBlocks⟩ := Reading.unnumbered_ofLines_flatten
    fun part hpart ↦ hparts part (hperm.symm.subset hpart)
  rw [hblocks, hotherBlocks]
  exact ⟨hfault, (hperm.flatMap_right _).map _⟩

/-- Take parts of a text of rules that have no fault, such as blocks. The parts are accepted one
after the other when they are accepted in every order. In each order the list of rules follows the
blocks, no two rules have one name, and the rule of a name has the same terms as in every other
order, its fallbacks included. And two texts that are accepted and share no name are accepted one
after the other, with the rules of the first and then those of the second. -/
theorem parse_any_order (catalog : Catalog) :
    (∀ parts : List (List (List Char)), (∀ part ∈ parts, (Reading.ofLines part).fault = none) →
      ∀ firstHandle otherHandle : Nat,
        ((∃ rules, parse catalog firstHandle parts.flatten = .ok rules) ↔
          ∀ others, parts.Perm others →
            ∃ rules, parse catalog otherHandle others.flatten = .ok rules) ∧
        ∀ rules, parse catalog firstHandle parts.flatten = .ok rules →
          (rules.map fun rule ↦ rule.name) =
              (parts.flatMap fun part ↦ (Reading.ofLines part).blocks).map Block.name ∧
            (rules.map fun rule ↦ rule.name).Nodup ∧
            ∀ others, parts.Perm others → ∀ otherRules,
              parse catalog otherHandle others.flatten = .ok otherRules →
                (otherRules.map fun rule ↦ rule.name) =
                    (others.flatMap fun part ↦ (Reading.ofLines part).blocks).map Block.name ∧
                  ∀ rule ∈ rules, ∀ other ∈ otherRules,
                    other.name = rule.name → other.terms = rule.terms) ∧
    ∀ (first second : List (List Char)) (firstHandle secondHandle handle : Nat)
      (rules secondRules : List Rule),
      parse catalog firstHandle first = .ok rules →
        parse catalog secondHandle second = .ok secondRules →
          (∀ rule ∈ rules, ∀ other ∈ secondRules, rule.name ≠ other.name) →
            ∃ joined, parse catalog handle (first ++ second) = .ok joined ∧
              joined.map terms = (rules ++ secondRules).map terms := by
  refine ⟨fun parts hparts firstHandle otherHandle ↦ ?_, fun first second firstHandle secondHandle
    handle rules secondRules h hsecond hnames ↦ exists_parse_append h hsecond hnames handle⟩
  refine ⟨⟨?_, fun h ↦ ?_⟩, fun rules hrules ↦ ⟨names_of_parse_flatten hparts hrules, ?_, ?_⟩⟩
  · rintro ⟨rules, hrules⟩ others hperm
    obtain ⟨hfault, hblocks⟩ := perm_blocks_flatten hparts hperm
    obtain ⟨otherRules, hotherRules, -⟩ := exists_parse_of_perm hrules hfault hblocks otherHandle
    exact ⟨otherRules, hotherRules⟩
  · obtain ⟨rules, hrules⟩ := h parts (List.Perm.refl _)
    obtain ⟨hfault, hblocks⟩ := perm_blocks_flatten hparts (List.Perm.refl _)
    obtain ⟨otherRules, hotherRules, -⟩ := exists_parse_of_perm hrules hfault hblocks firstHandle
    exact ⟨otherRules, hotherRules⟩
  · rw [names_of_parse hrules]
    exact (isText_of_parse hrules).nodup
  · intro others hperm otherRules hotherRules
    refine ⟨names_of_parse_flatten (fun part hpart ↦ hparts part (hperm.symm.subset hpart))
      hotherRules, ?_⟩
    obtain ⟨hfault, hblocks⟩ := perm_blocks_flatten hparts hperm
    obtain ⟨same, hsame, hterms⟩ := exists_parse_of_perm hrules hfault hblocks otherHandle
    obtain rfl : same = otherRules := Except.ok.inj (hsame.symm.trans hotherRules)
    exact hterms

/-- A rule stands before and behind its fallback, and before a rule of another text. -/
theorem parse_any_order_mill :
    let grain : Resource := { handle := 1, key := "grain", singular := "grain", plural := "grain" }
    let part (quantity : Int) : Specifier :=
      { relation := "self", resource := grain, quantity := quantity }
    let mill (handle : Nat) : RuleBody := { handle := handle, name := "mill", inputs := [part 2] }
    let sow (handle : Nat) : RuleBody := { handle := handle, name := "sow", outputs := [part 3] }
    let catalog : Catalog := { resources := [grain] }
    let millLines : List (List Char) :=
      ["rule mill", "in grain 2", "onfail sow", "end"].map String.toList
    let sowLines : List (List Char) :=
      ["# in spring", "rule sow", "out grain 3", "end"].map String.toList
    let restLines : List (List Char) := ["rule rest", "end"].map String.toList
    let rules : List Rule := [ofBodies (mill 2) [sow 3], ofBodies (sow 3) []]
    let otherRules : List Rule := [ofBodies (sow 7) [], ofBodies (mill 8) [sow 7]]
    let rest : Rule := ofBodies { handle := 4, name := "rest" } []
    (∀ part ∈ [millLines, sowLines], (Reading.ofLines part).fault = none) ∧
      parse catalog 2 [millLines, sowLines].flatten = .ok rules ∧
      parse catalog 7 [sowLines, millLines].flatten = .ok otherRules ∧
      (∀ rule ∈ rules, ∀ other ∈ otherRules, other.name = rule.name → other.terms = rule.terms) ∧
      parse catalog 4 restLines = .ok [rest] ∧
      ∃ joined, parse catalog 2 ([millLines, sowLines].flatten ++ restLines) = .ok joined ∧
        joined.map terms = (rules ++ [rest]).map terms := by
  intro grain part mill sow catalog millLines sowLines restLines rules otherRules rest
  have hparts : ∀ part ∈ [millLines, sowLines], (Reading.ofLines part).fault = none := by
    decide +kernel
  have hrules : parse catalog 2 [millLines, sowLines].flatten = .ok rules := by decide +kernel
  have hotherRules : parse catalog 7 [sowLines, millLines].flatten = .ok otherRules := by
    decide +kernel
  have hrest : parse catalog 4 restLines = .ok [rest] := by decide +kernel
  have hnames : ∀ rule ∈ rules, ∀ other ∈ [rest], rule.name ≠ other.name := by decide
  obtain ⟨horder, hjoin⟩ := parse_any_order catalog
  obtain ⟨-, -, hothers⟩ := (horder _ hparts 2 7).2 rules hrules
  have hperm : [millLines, sowLines].Perm [sowLines, millLines] := List.Perm.swap _ _ _
  exact ⟨hparts, hrules, hotherRules, (hothers _ hperm otherRules hotherRules).2, hrest,
    hjoin _ _ 2 4 2 rules [rest] hrules hrest hnames⟩

end Rule

end TickEconomy
