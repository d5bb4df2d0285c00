import Mathlib.Logic.Relation
import TickEconomy.Proofs.FallbackPath
import TickEconomy.Proofs.WrittenClauses

/-!
# Writing rules

A rule is described by its name, its terms and the name of its fallback (`RuleDescription`). It is
written as a block whose clauses state it: those of one kind stand in their order, the kinds are
interleaved in any way, and a period of 1 and extra rounds of 0 may be left out
(`RuleDescription.IsStatedBy`, `RuleDescription.IsWrittenAs`).

`Rule.parse_writes` says that nothing of it is lost. Descriptions that can be written and have
distinct names, whose fallbacks are among them and form no cycle, have a text, and each of their
texts is read as the rules described, in their order, each falling back to the rule in the list that
has the name of its fallback.
-/

set_option autoImplicit false
set_option relaxedAutoImplicit false

namespace TickEconomy

/-! ### Descriptions -/

/-- A rule with its fallback by name. -/
structure RuleDescription where
  /-- The name of the rule. -/
  name : String
  /-- The number of ticks from one evaluation to the next. -/
  period : Nat := 1
  /-- What must hold before a round. -/
  preconditions : List Condition := []
  /-- What a round takes. -/
  inputs : List Specifier := []
  /-- What a round adds. -/
  outputs : List Specifier := []
  /-- What a round sets. -/
  sets : List Specifier := []
  /-- The number of rounds after the first. -/
  extraRounds : Nat := 0
  /-- The pool whose quantity is the number of rounds. -/
  repeatFrom : Option PoolReference := none
  /-- The name of the fallback. -/
  fallback : Option String := none
  deriving DecidableEq, Repr

namespace RuleDescription

/-- The rule described, without its fallbacks and under a given handle. -/
def body (description : RuleDescription) (handle : Nat) : RuleBody where
  handle := handle
  name := description.name
  period := description.period
  preconditions := description.preconditions
  inputs := description.inputs
  outputs := description.outputs
  sets := description.sets
  extraRounds := description.extraRounds
  repeatFrom := description.repeatFrom

/-- The clauses state the rule: those of each kind are what the description has of it, in their
order, and a period of 1 and extra rounds of 0 may be left out. -/
structure IsStatedBy (description : RuleDescription) (clauses : List Clause) : Prop where
  period : clauses.filterMap Clause.period? = [description.period] ∨
    clauses.filterMap Clause.period? = [] ∧ description.period = 1
  preconditions : clauses.filterMap Clause.condition? = description.preconditions
  inputs : clauses.filterMap Clause.input? = description.inputs
  outputs : clauses.filterMap Clause.output? = description.outputs
  sets : clauses.filterMap Clause.set? = description.sets
  extraRounds : clauses.filterMap Clause.extraRounds? = [description.extraRounds] ∨
    clauses.filterMap Clause.extraRounds? = [] ∧ description.extraRounds = 0
  repeatFrom : clauses.filterMap Clause.repeatFrom? = description.repeatFrom.toList
  fallback : clauses.filterMap Clause.fallback? = description.fallback.toList

/-- The block is the rule, with directives that spell clauses which state it. -/
structure IsWrittenAs (catalog : Catalog) (description : RuleDescription)
    (content : BlockContent) : Prop where
  kind : content.kind = "rule"
  name : content.name = description.name
  directives : ∃ clauses, description.IsStatedBy clauses ∧
    List.Forall₂ (Clause.Spelling catalog) clauses content.directives

/-- The name of the rule can stand on the line that opens a block, and all that the rule says can be
written. -/
structure IsWritable (catalog : Catalog) (description : RuleDescription) : Prop where
  name_ne : description.name ≠ ""
  trim_name : Name.trim description.name = description.name
  period : Text.FitsNumeral description.period
  preconditions : ∀ demand ∈ description.preconditions, demand.IsWritable catalog
  inputs : ∀ specifier ∈ description.inputs, specifier.IsWritable catalog
  outputs : ∀ specifier ∈ description.outputs, specifier.IsWritable catalog
  sets : ∀ specifier ∈ description.sets, specifier.IsWritable catalog
  extraRounds : Text.FitsNumeral description.extraRounds
  repeatFrom : ∀ pool ∈ description.repeatFrom, pool.IsWritable catalog
  fallback : ∀ target ∈ description.fallback, Text.IsWord target.toList

/-- The fallback of a rule of the first name is the rule of the second. -/
def FallsBack (descriptions : List RuleDescription) (first second : String) : Prop :=
  ∃ description ∈ descriptions, description.name = first ∧ description.fallback = some second

/-! ### Clauses of a description -/

/-- Clauses that state the rule, kind by kind. -/
def clauses (description : RuleDescription) : List Clause :=
  [.period description.period, .extraRounds description.extraRounds] ++
    description.preconditions.map .condition ++ description.inputs.map .input ++
    description.outputs.map .output ++ description.sets.map .set ++
    description.repeatFrom.toList.map .repeatFrom ++ description.fallback.toList.map .fallback

theorem isStatedBy_clauses (description : RuleDescription) :
    description.IsStatedBy description.clauses := by
  -- A kind of clauses passes over the clauses of every other kind.
  have hnone : ∀ {Item Value : Type} (items : List Item),
      items.filterMap (fun _ ↦ (none : Option Value)) = [] := fun items ↦
    List.filterMap_eq_nil_iff.2 fun _ _ ↦ rfl
  constructor <;>
    simp only [clauses, List.filterMap_append, List.filterMap_map, Function.comp_def,
      List.filterMap_cons, List.filterMap_nil, List.filterMap_some, List.append_nil,
      List.nil_append, Clause.period?, Clause.condition?, Clause.input?, Clause.output?,
      Clause.set?, Clause.extraRounds?, Clause.repeatFrom?, Clause.fallback?, hnone, true_or]

/-- What states a rule makes its body. -/
theorem ofClauses_of_isStatedBy {description : RuleDescription} {clauses : List Clause}
    (h : description.IsStatedBy clauses) (handle : Nat) :
    RuleBody.ofClauses handle description.name clauses = description.body handle := by
  have hperiod : (clauses.filterMap Clause.period?).getLast?.getD 1 = description.period := by
    rcases h.period with hperiod | ⟨hperiod, hone⟩
    · simp [hperiod]
    · simp [hperiod, hone]
  have hrounds :
      (clauses.filterMap Clause.extraRounds?).getLast?.getD 0 = description.extraRounds := by
    rcases h.extraRounds with hrounds | ⟨hrounds, hzero⟩
    · simp [hrounds]
    · simp [hrounds, hzero]
  have hrepeat : (clauses.filterMap Clause.repeatFrom?).getLast? = description.repeatFrom := by
    rw [h.repeatFrom]
    cases description.repeatFrom <;> rfl
  rw [RuleBody.ofClauses, hperiod, hrounds, hrepeat, h.preconditions, h.inputs, h.outputs, h.sets]
  rfl

/-- What a rule that can be written says can be written clause by clause. -/
theorem isWritable_of_mem_clauses {catalog : Catalog} {description : RuleDescription}
    (h : description.IsWritable catalog) :
    ∀ clause ∈ description.clauses, clause.IsWritable catalog := by
  have hnumbers : ∀ clause ∈ [Clause.period description.period,
      Clause.extraRounds description.extraRounds], clause.IsWritable catalog := by
    simpa using ⟨h.period, h.extraRounds⟩
  simp only [clauses, List.forall_mem_append, List.forall_mem_map, Option.mem_toList]
  exact ⟨⟨⟨⟨⟨⟨hnumbers, h.preconditions⟩, h.inputs⟩, h.outputs⟩, h.sets⟩, h.repeatFrom⟩, h.fallback⟩

/-- A rule that can be written is written as some block. -/
theorem exists_isWrittenAs {catalog : Catalog} {description : RuleDescription}
    (h : description.IsWritable catalog) :
    ∃ content, description.IsWrittenAs catalog content := by
  obtain ⟨directives, hdirectives⟩ := exists_forall₂ fun clause hclause ↦
    Clause.exists_spelling (isWritable_of_mem_clauses h clause hclause)
  exact ⟨{ kind := "rule", name := description.name, directives := directives }, rfl, rfl,
    description.clauses, description.isStatedBy_clauses, hdirectives⟩

/-! ### Reading what is written -/

/-- What a writable rule is written as is read as a block. -/
theorem isWritable_of_isWrittenAs {catalog : Catalog} {description : RuleDescription}
    {content : BlockContent} (hwritable : description.IsWritable catalog)
    (h : description.IsWrittenAs catalog content) : content.IsWritable where
  kind := by rw [h.kind]; decide
  kind_ne := by rw [h.kind]; decide
  name := by rw [h.name, hwritable.trim_name]
  directives := by
    obtain ⟨clauses, -, hdirectives⟩ := h.directives
    intro words hwords
    obtain ⟨clause, -, hspelling⟩ := exists_of_forall₂_of_mem hdirectives hwords
    exact hspelling.isDirective

/-- The directives of a block that spell clauses read as these clauses. -/
theorem ofDirective_of_spelling {catalog : Catalog} {block : Block} {clauses : List Clause}
    (h : List.Forall₂ (Clause.Spelling catalog) clauses block.content.directives) :
    List.Forall₂ (fun directive clause ↦ Clause.ofDirective catalog directive = .ok clause)
      block.directives clauses := by
  rw [Block.content, List.forall₂_map_right_iff] at h
  exact h.flip.imp fun directive clause hspelling ↦ hspelling.ofDirective_eq_ok rfl

/-- A block that a writable rule is written as is in order. -/
theorem isRule_of_isWrittenAs {catalog : Catalog} {description : RuleDescription} {block : Block}
    (hwritable : description.IsWritable catalog)
    (h : description.IsWrittenAs catalog block.content) : block.IsRule catalog where
  kind_eq := h.kind
  name_ne := by
    have hname : block.name = description.name := h.name
    rw [hname]
    exact hwritable.name_ne
  readable := by
    obtain ⟨clauses, -, hdirectives⟩ := h.directives
    intro directive hdirective
    obtain ⟨clause, -, hclause⟩ :=
      exists_of_forall₂_of_mem (ofDirective_of_spelling hdirectives).flip hdirective
    exact ⟨clause, hclause⟩

/-- The draft of a block that a rule is written as has its body and names its fallback. -/
theorem draft_of_isWrittenAs {catalog : Catalog} {description : RuleDescription} {block : Block}
    (h : description.IsWrittenAs catalog block.content) {handle : Nat} {draft : Draft}
    (hdraft : Draft.ofBlock catalog handle block = .ok draft) :
    draft.body = description.body draft.body.handle ∧
      draft.reference.map FallbackReference.target = description.fallback := by
  obtain ⟨clauses, hstated, hdirectives⟩ := h.directives
  have hclauses := ofDirective_of_spelling hdirectives
  have hread : Draft.ofBlock catalog handle block = .ok
      { body := RuleBody.ofClauses handle block.name clauses
        reference := block.reference? } :=
    Draft.ofBlock_eq_ok_iff.2 ⟨clauses, hclauses, rfl⟩
  obtain rfl := Except.ok.inj (hdraft.symm.trans hread)
  have hname : block.name = description.name := h.name
  refine ⟨?_, ?_⟩
  · rw [hname]
    exact ofClauses_of_isStatedBy hstated handle
  · dsimp only
    rw [Block.target_of_reference? hclauses, hstated.fallback]
    cases description.fallback <;> rfl

end RuleDescription

namespace Rule

open RuleDescription

/-- No path along fallbacks of which no chain leads back to where it began meets a name twice. -/
theorem nodup_of_fallsBack {descriptions : List RuleDescription} {posts path : List Signpost}
    (hacyclic : ∀ name, ¬ Relation.TransGen (FallsBack descriptions) name name)
    (hposts : ∀ post ∈ posts, ∀ reference, post.reference = some reference →
      FallsBack descriptions post.name reference.target)
    (hpath : Signpost.IsPath posts path) : (path.map Signpost.name).Nodup := by
  have hchain : (path.map Signpost.name).IsChain (Relation.TransGen (FallsBack descriptions)) := by
    rw [List.isChain_map]
    refine hpath.chain.imp_of_mem_imp fun first second hfirst _ hto ↦ ?_
    obtain ⟨reference, hreference, htarget⟩ := hto
    rw [← htarget]
    exact .single (hposts first (hpath.mem first hfirst) reference hreference)
  refine (List.isChain_iff_pairwise.1 hchain).imp fun {first second} hto hsame ↦ ?_
  exact hacyclic first (hsame ▸ hto)

/-- What rules with distinct names are written as is read into drafts that have their bodies and the
names of their fallbacks, and it comes to what linking these comes to. -/
theorem exists_drafts_of_isWrittenAs (catalog : Catalog) (firstHandle : Nat)
    {descriptions : List RuleDescription} {contents : List BlockContent}
    (hwritable : ∀ description ∈ descriptions, description.IsWritable catalog)
    (hnames : (descriptions.map RuleDescription.name).Nodup)
    (hcontents : List.Forall₂ (IsWrittenAs catalog) descriptions contents) :
    ∃ drafts, parse catalog firstHandle (contents.flatMap BlockContent.lines) =
        Draft.linkAll drafts ∧
      drafts.map (fun draft ↦ draft.body.handle) = List.range' firstHandle drafts.length ∧
      List.Forall₂ (fun description draft ↦
        draft.body = description.body draft.body.handle ∧
          draft.reference.map FallbackReference.target = description.fallback)
        descriptions drafts := by
  have hlines : ∀ content ∈ contents, content.IsWritable := by
    intro content hcontent
    obtain ⟨description, hdescription, hwritten⟩ := exists_of_forall₂_of_mem hcontents hcontent
    exact isWritable_of_isWrittenAs (hwritable description hdescription) hwritten
  obtain ⟨blocks, hreading, rfl⟩ := Reading.exists_blocks_of_lines hlines
  rw [List.forall₂_map_right_iff] at hcontents
  have hblocks : ∀ block ∈ blocks, block.IsRule catalog := by
    intro block hblock
    obtain ⟨description, hdescription, hwritten⟩ := exists_of_forall₂_of_mem hcontents hblock
    exact isRule_of_isWrittenAs (hwritable description hdescription) hwritten
  have hblockNames : descriptions.map RuleDescription.name = blocks.map Block.name :=
    map_eq_map_of_forall₂ hcontents fun description block hwritten ↦ hwritten.name.symm
  obtain ⟨drafts, hparse, hhandles, hmatched⟩ := exists_drafts_of_lines catalog firstHandle
    (by rw [hreading]) (by rw [hreading]; exact hblocks)
    (by rw [hreading, ← hblockNames]; exact hnames)
  rw [hreading] at hmatched
  exact ⟨drafts, hparse, hhandles, forall₂_trans
    (fun _ _ _ hwritten ⟨_, hdraft⟩ ↦ draft_of_isWrittenAs hwritten hdraft) hcontents hmatched⟩

/-- Descriptions that can be written and have distinct names, whose fallbacks are among them and
form no cycle, have a text. Each of their texts is read as the rules described, in their order and
numbered without repetition, and each rule falls back to the one in the list that has the name of
its fallback. -/
theorem parse_writes (catalog : Catalog) (firstHandle : Nat) (descriptions : List RuleDescription)
    (hwritable : ∀ description ∈ descriptions, description.IsWritable catalog)
    (hnames : (descriptions.map RuleDescription.name).Nodup)
    (hknown : ∀ description ∈ descriptions, ∀ target ∈ description.fallback,
      target ∈ descriptions.map RuleDescription.name)
    (hacyclic : ∀ name, ¬ Relation.TransGen (FallsBack descriptions) name name) :
    (∃ contents, List.Forall₂ (IsWrittenAs catalog) descriptions contents) ∧
    ∀ contents, List.Forall₂ (IsWrittenAs catalog) descriptions contents →
      ∃ rules, parse catalog firstHandle (contents.flatMap BlockContent.lines) = .ok rules ∧
        (rules.map fun rule ↦ rule.handle).Nodup ∧
        List.Forall₂ (fun description rule ↦ rule.toRuleBody = description.body rule.handle ∧
          rule.FallsBackTo rules description.fallback) descriptions rules := by
  refine ⟨exists_forall₂ fun description hdescription ↦
    exists_isWrittenAs (hwritable description hdescription), fun contents hcontents ↦ ?_⟩
  obtain ⟨drafts, hparse, hhandles, hdrafts⟩ :=
    exists_drafts_of_isWrittenAs catalog firstHandle hwritable hnames hcontents
  have hsignposts : (drafts.map Draft.signpost).map Signpost.name =
      descriptions.map RuleDescription.name := by
    rw [List.map_map]
    exact (map_eq_map_of_forall₂ hdrafts fun description draft ⟨hbody, _⟩ ↦ by
      rw [Function.comp, Draft.signpost, hbody]; rfl).symm
  have hdistinct : ((drafts.map Draft.signpost).map Signpost.name).Nodup := by
    rw [hsignposts]
    exact hnames
  have hposts : ∀ post ∈ drafts.map Draft.signpost, ∀ reference,
      post.reference = some reference →
        FallsBack descriptions post.name reference.target := by
    intro post hpost reference hreference
    obtain ⟨draft, hdraft, rfl⟩ := List.mem_map.1 hpost
    obtain ⟨description, hdescription, hbody, htarget⟩ := exists_of_forall₂_of_mem hdrafts hdraft
    have hnamed : draft.reference = some reference := hreference
    refine ⟨description, hdescription, ?_, ?_⟩
    · rw [Draft.signpost, hbody]
      rfl
    · rw [← htarget, hnamed]
      rfl
  have haccepted : ∃ rules, Draft.linkAll drafts = .ok rules := by
    refine (Draft.exists_linkAll_eq_ok_iff hdistinct).2 ⟨fun post hpost reference hreference ↦ ?_,
      fun path hpath ↦ nodup_of_fallsBack hacyclic hposts hpath⟩
    obtain ⟨description, hdescription, -, htarget⟩ := hposts post hpost reference hreference
    rw [hsignposts]
    exact hknown description hdescription _ htarget
  obtain ⟨rules, hrules⟩ := haccepted
  refine ⟨rules, hparse.trans hrules, ?_, ?_⟩
  · rw [Draft.handles_of_linkAll hrules, hhandles]
    exact List.nodup_range'
  · refine forall₂_trans ?_ hdrafts (Draft.fallsBackTo_of_linkAll hdistinct hrules)
    rintro description draft rule ⟨hbody, htarget⟩ ⟨hrule, hfallsBack⟩
    rw [← htarget, hrule]
    exact ⟨hbody, hfallsBack⟩

/-- A rule whose name holds a blank, with a relation to be written and one that may be left out,
falls back to the rule behind it. -/
theorem parse_writes_mill :
    let grain : Resource := { handle := 1, key := "grain", singular := "grain", plural := "grain" }
    let catalog : Catalog := { resources := [grain] }
    let part (relation : String) (quantity : Int) : Specifier :=
      { relation := relation, resource := grain, quantity := quantity }
    let mill : RuleDescription :=
      { name := "old mill", period := 0, inputs := [part "farm" 2, part "self" 1],
        preconditions := [{ toSpecifier := part "self" (-4), comparison := .greater }],
        extraRounds := 7, repeatFrom := some { relation := "self", resource := grain },
        fallback := some "sow" }
    let sow : RuleDescription := { name := "sow", outputs := [part "self" 30] }
    let descriptions := [mill, sow]
    (∀ description ∈ descriptions, description.IsWritable catalog) ∧
      (descriptions.map RuleDescription.name).Nodup ∧
      (∀ description ∈ descriptions, ∀ target ∈ description.fallback,
        target ∈ descriptions.map RuleDescription.name) ∧
      (∀ name, ¬ Relation.TransGen (FallsBack descriptions) name name) ∧
      ∃ contents rules, List.Forall₂ (IsWrittenAs catalog) descriptions contents ∧
        parse catalog 2 (contents.flatMap BlockContent.lines) = .ok rules ∧
        List.Forall₂ (fun description rule ↦ rule.toRuleBody = description.body rule.handle ∧
          rule.FallsBackTo rules description.fallback) descriptions rules := by
  intro grain catalog part mill sow descriptions
  have hfind : catalog.find? "grain" = some grain := by decide +kernel
  have hrelations : ∀ relation ∈ ["self", "farm"],
      Text.IsWord relation.toList ∧ Name.fold relation = relation := by decide +kernel
  have hquantities : ∀ quantity ∈ ([-4, 1, 2, 30] : List Int), Text.FitsNumeral quantity := by
    decide +kernel
  have hpool : ∀ relation ∈ ["self", "farm"],
      ({ relation := relation, resource := grain } : PoolReference).IsWritable catalog :=
    fun relation hrelation ↦
      ⟨(hrelations relation hrelation).1, (hrelations relation hrelation).2, "grain", by decide,
        hfind⟩
  have hpart : ∀ relation ∈ ["self", "farm"], ∀ quantity ∈ [-4, 1, 2, 30],
      (part relation quantity).IsWritable catalog := fun relation hrelation quantity hquantity ↦
    ⟨hpool relation hrelation, hquantities quantity hquantity⟩
  have hmill : mill.IsWritable catalog :=
    { name_ne := by decide
      trim_name := by decide +kernel
      period := by decide +kernel
      preconditions := by
        simpa [mill] using (⟨hpart "self" (by simp) (-4) (by simp), by simp⟩ :
          Condition.IsWritable catalog _)
      inputs := by
        simpa [mill] using ⟨hpart "farm" (by simp) 2 (by simp), hpart "self" (by simp) 1 (by simp)⟩
      outputs := by simp [mill]
      sets := by simp [mill]
      extraRounds := by decide +kernel
      repeatFrom := by simpa [mill] using hpool "self" (by simp)
      fallback := by
        have hword : Text.IsWord "sow".toList := by decide
        simpa [mill] using hword }
  have hsow : sow.IsWritable catalog :=
    { name_ne := by decide
      trim_name := by decide +kernel
      period := by decide +kernel
      preconditions := by simp [sow]
      inputs := by simp [sow]
      outputs := by simpa [sow] using hpart "self" (by simp) 30 (by simp)
      sets := by simp [sow]
      extraRounds := by decide +kernel
      repeatFrom := by simp [sow]
      fallback := by simp [sow] }
  have hwritable : ∀ description ∈ descriptions, description.IsWritable catalog :=
    List.forall_mem_cons.2 ⟨hmill, by simpa using hsow⟩
  have hnames : (descriptions.map RuleDescription.name).Nodup := by decide
  have hknown : ∀ description ∈ descriptions, ∀ target ∈ description.fallback,
      target ∈ descriptions.map RuleDescription.name := by decide
  have hstep : ∀ first second, FallsBack descriptions first second →
      first = "old mill" ∧ second = "sow" := by
    rintro first second ⟨description, hdescription, rfl, hfallback⟩
    rcases List.mem_cons.1 hdescription with rfl | hother
    · exact ⟨rfl, (Option.some.inj hfallback).symm⟩
    · obtain rfl := List.mem_singleton.1 hother
      cases hfallback
  have hacyclic : ∀ name, ¬ Relation.TransGen (FallsBack descriptions) name name := by
    intro name hcycle
    obtain ⟨_, hfirst, -⟩ := Relation.TransGen.head'_iff.1 hcycle
    obtain ⟨_, -, hlast⟩ := Relation.TransGen.tail'_iff.1 hcycle
    exact absurd ((hstep _ _ hfirst).1.symm.trans (hstep _ _ hlast).2) (by decide)
  obtain ⟨⟨contents, hcontents⟩, hread⟩ :=
    parse_writes catalog 2 descriptions hwritable hnames hknown hacyclic
  obtain ⟨rules, hrules, -, hmatched⟩ := hread contents hcontents
  exact ⟨hwritable, hnames, hknown, hacyclic, contents, rules, hcontents, hrules, hmatched⟩

end Rule

end TickEconomy
