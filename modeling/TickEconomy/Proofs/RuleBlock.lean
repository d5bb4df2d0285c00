import TickEconomy.Proofs.LinkedRules

/-!
# What a block of a rule text says

A block whose directives all read as clauses gives a rule: its inputs, outputs, sets and conditions
are those of the clauses, in their order, and of the clauses that can hold only once the last
counts (`RuleBody.ofClauses`). Its fallback is the one that its last directive of this kind names,
together with the line of that directive (`Block.reference?`). `Draft.ofBlock_eq_ok_iff` says that
this is what reading the block comes to, and that nothing else keeps a block from being read.

A block is in order when it is a rule with a name and all its directives read as clauses
(`Block.IsRule`). Blocks that are in order and have distinct names give one draft each, in their
order (`Draft.exists_drafts_of_blocks`).
-/

set_option autoImplicit false
set_option relaxedAutoImplicit false

namespace TickEconomy

/-! ### Kinds of clauses -/

namespace Clause

/-- What the clause says a round takes. -/
def input? : Clause → Option Specifier
  | .input specifier => some specifier
  | _ => none

/-- What the clause says a round adds. -/
def output? : Clause → Option Specifier
  | .output specifier => some specifier
  | _ => none

/-- What the clause says a round sets. -/
def set? : Clause → Option Specifier
  | .set specifier => some specifier
  | _ => none

/-- What the clause demands before a round. -/
def condition? : Clause → Option Condition
  | .condition demand => some demand
  | _ => none

/-- The period that the clause gives. -/
def period? : Clause → Option Nat
  | .period ticks => some ticks
  | _ => none

/-- The number of rounds after the first that the clause gives. -/
def extraRounds? : Clause → Option Nat
  | .extraRounds count => some count
  | _ => none

/-- The pool that the clause takes the number of rounds from. -/
def repeatFrom? : Clause → Option PoolReference
  | .repeatFrom pool => some pool
  | _ => none

/-- The name of the fallback that the clause gives. -/
def fallback? : Clause → Option String
  | .fallback target => some target
  | _ => none

end Clause

/-- The body of the rule with the given clauses. -/
def RuleBody.ofClauses (handle : Nat) (name : String) (clauses : List Clause) : RuleBody where
  handle := handle
  name := name
  period := ((clauses.filterMap Clause.period?).getLast?.getD 1 : Nat)
  preconditions := clauses.filterMap Clause.condition?
  inputs := clauses.filterMap Clause.input?
  outputs := clauses.filterMap Clause.output?
  sets := clauses.filterMap Clause.set?
  extraRounds := ((clauses.filterMap Clause.extraRounds?).getLast?.getD 0 : Nat)
  repeatFrom := (clauses.filterMap Clause.repeatFrom?).getLast?

/-- The fallback that the directive names. -/
def Directive.reference? (directive : Directive) : Option FallbackReference :=
  if directive.name = "onfail" then
    directive.arguments.head?.map fun target ↦ { target := target, line := directive.line }
  else none

/-- The fallback that the last directive of this kind names. -/
def Block.reference? (block : Block) : Option FallbackReference :=
  (block.directives.filterMap Directive.reference?).getLast?

/-! ### Reading a block -/

namespace Clause

/-- A repetition names no fallback. -/
theorem fallback?_of_readRepetition {catalog : Catalog} {directive : Directive} {clause : Clause}
    (h : readRepetition catalog directive = .ok clause) : clause.fallback? = none := by
  have hpool : ∀ word relation resource,
      repeatFromOf catalog directive word relation resource = .ok clause →
        clause.fallback? = none := by
    intro word relation resource hread
    unfold repeatFromOf at hread
    split_ifs at hread
    obtain ⟨found, -, hclause⟩ := bind_eq_ok_iff.1 hread
    cases hclause
    rfl
  unfold readRepetition at h
  split at h
  · obtain ⟨count, -, rfl⟩ := map_eq_ok_iff.1 h
    rfl
  · exact hpool _ _ _ h
  · exact hpool _ _ _ h
  · cases h

/-- A clause names a fallback when its directive does, and the same one. -/
theorem reference?_of_ofDirective {catalog : Catalog} {directive : Directive} {clause : Clause}
    (h : ofDirective catalog directive = .ok clause) :
    directive.reference? =
      clause.fallback?.map fun target ↦ { target := target, line := directive.line } := by
  unfold ofDirective at h
  split at h
  case h_1 hname | h_2 hname | h_3 hname | h_4 hname =>
    obtain ⟨value, -, rfl⟩ := map_eq_ok_iff.1 h
    simp [Directive.reference?, hname, fallback?]
  case h_5 hname =>
    split at h
    · obtain ⟨ticks, -, rfl⟩ := map_eq_ok_iff.1 h
      simp [Directive.reference?, hname, fallback?]
    · cases h
  case h_6 hname =>
    simp [Directive.reference?, hname, fallback?_of_readRepetition h]
  case h_7 hname =>
    split at h
    case h_1 target harguments =>
      cases h
      simp [Directive.reference?, hname, harguments, fallback?]
    case h_2 => cases h
  case h_8 => cases h

end Clause

namespace Draft

/-- A further clause goes behind those that a rule has. -/
theorem body_add {draft : Draft} {handle : Nat} {name : String} {clauses : List Clause}
    (h : draft.body = RuleBody.ofClauses handle name clauses) (line : Nat) (clause : Clause) :
    (draft.add line clause).body = RuleBody.ofClauses handle name (clauses ++ [clause]) := by
  cases clause <;>
    simp [add, h, RuleBody.ofClauses, Clause.input?, Clause.output?, Clause.set?,
      Clause.condition?, Clause.period?, Clause.extraRounds?, Clause.repeatFrom?]

/-- A further clause names the fallback of a rule, or leaves it as it is. -/
theorem reference_add (draft : Draft) (line : Nat) (clause : Clause) :
    (draft.add line clause).reference =
      (clause.fallback?.map fun target ↦ { target := target, line := line }).or
        draft.reference := by
  cases clause <;> simp [add, Clause.fallback?]

/-- A directive is read when it is a clause, which the draft then has. -/
theorem read_eq_ok_iff {catalog : Catalog} {draft next : Draft} {directive : Directive} :
    read catalog draft directive = .ok next ↔
      ∃ clause, Clause.ofDirective catalog directive = .ok clause ∧
        draft.add directive.line clause = next := by
  unfold read
  rw [bind_eq_ok_iff]
  simp [pure, Except.pure]

/-- Directives that are read are clauses. -/
theorem exists_clauses_of_foldlM {catalog : Catalog} {directives : List Directive}
    {first last : Draft} (h : directives.foldlM (read catalog) first = .ok last) :
    ∃ clauses, List.Forall₂ (fun directive clause ↦
      Clause.ofDirective catalog directive = .ok clause) directives clauses := by
  induction directives generalizing first with
  | nil => exact ⟨[], List.Forall₂.nil⟩
  | cons directive directives ih =>
    rw [List.foldlM_cons] at h
    obtain ⟨next, hnext, hlast⟩ := bind_eq_ok_iff.1 h
    obtain ⟨clause, hclause, -⟩ := read_eq_ok_iff.1 hnext
    obtain ⟨clauses, hclauses⟩ := ih hlast
    exact ⟨clause :: clauses, List.Forall₂.cons hclause hclauses⟩

/-- Directives that are clauses are read, and the clauses go behind those that the draft has. -/
theorem foldlM_read_eq_ok {catalog : Catalog} {handle : Nat} {name : String}
    {directives : List Directive} {clauses earlier : List Clause} {first : Draft}
    (hclauses : List.Forall₂ (fun directive clause ↦
      Clause.ofDirective catalog directive = .ok clause) directives clauses)
    (hfirst : first.body = RuleBody.ofClauses handle name earlier) :
    directives.foldlM (read catalog) first = .ok
      { body := RuleBody.ofClauses handle name (earlier ++ clauses)
        reference := (directives.filterMap Directive.reference?).getLast?.or first.reference } := by
  induction hclauses generalizing first earlier with
  | nil => rw [List.append_nil, ← hfirst]; rfl
  | @cons directive clause directives clauses hclause _ ih =>
    have hread : read catalog first directive = .ok (first.add directive.line clause) :=
      read_eq_ok_iff.2 ⟨clause, hclause, rfl⟩
    have hreference : (first.add directive.line clause).reference =
        directive.reference?.or first.reference := by
      rw [reference_add, Clause.reference?_of_ofDirective hclause]
    have hlast : ((directive :: directives).filterMap Directive.reference?).getLast?.or
        first.reference = (directives.filterMap Directive.reference?).getLast?.or
          (directive.reference?.or first.reference) := by
      rw [← List.singleton_append, List.filterMap_append, List.getLast?_append, Option.or_assoc]
      cases hnamed : directive.reference? <;> simp [hnamed]
    rw [List.foldlM_cons, hread, hlast, ← hreference, List.append_cons]
    exact ih (body_add hfirst directive.line clause)

/-- A block is read when each of its directives is a clause, and the rule then has these clauses and
the fallback that the block names. -/
theorem ofBlock_eq_ok_iff {catalog : Catalog} {handle : Nat} {block : Block} {draft : Draft} :
    ofBlock catalog handle block = .ok draft ↔
      ∃ clauses, List.Forall₂ (fun directive clause ↦
          Clause.ofDirective catalog directive = .ok clause) block.directives clauses ∧
        draft = { body := RuleBody.ofClauses handle block.name clauses
                  reference := block.reference? } := by
  have hread : ∀ clauses, List.Forall₂ (fun directive clause ↦
      Clause.ofDirective catalog directive = .ok clause) block.directives clauses →
        ofBlock catalog handle block = .ok { body := RuleBody.ofClauses handle block.name clauses
                                             reference := block.reference? } := by
    intro clauses hclauses
    have hempty : ({ body := { handle := handle, name := block.name } } : Draft).body =
        RuleBody.ofClauses handle block.name [] := rfl
    simpa [ofBlock, Block.reference?] using foldlM_read_eq_ok hclauses hempty
  constructor
  · intro h
    obtain ⟨clauses, hclauses⟩ := exists_clauses_of_foldlM h
    exact ⟨clauses, hclauses, Except.ok.inj (h.symm.trans (hread clauses hclauses))⟩
  · rintro ⟨clauses, hclauses, rfl⟩
    exact hread clauses hclauses

end Draft

/-- The fallback that a block names is that of the last clause that gives one. -/
theorem Block.target_of_reference? {catalog : Catalog} {block : Block} {clauses : List Clause}
    (h : List.Forall₂ (fun directive clause ↦
      Clause.ofDirective catalog directive = .ok clause) block.directives clauses) :
    block.reference?.map FallbackReference.target =
      (clauses.filterMap Clause.fallback?).getLast? := by
  have htargets : ∀ {directives : List Directive} {clauses : List Clause},
      List.Forall₂ (fun directive clause ↦
        Clause.ofDirective catalog directive = .ok clause) directives clauses →
      (directives.filterMap Directive.reference?).map FallbackReference.target =
        clauses.filterMap Clause.fallback? := by
    intro directives clauses h
    induction h with
    | nil => rfl
    | @cons directive clause directives clauses hclause _ ih =>
      have hreference := Clause.reference?_of_ofDirective hclause
      cases hnamed : clause.fallback? <;> simp [hreference, hnamed, ih]
  rw [Block.reference?, ← List.getLast?_map, htargets h]

/-! ### Blocks in order -/

/-- The block is a rule with a name, and all its directives read as clauses. -/
structure Block.IsRule (catalog : Catalog) (block : Block) : Prop where
  kind_eq : block.kind = "rule"
  name_ne : block.name ≠ ""
  readable : ∀ directive ∈ block.directives,
    ∃ clause, Clause.ofDirective catalog directive = .ok clause

namespace Draft

/-- A block in order can be read. -/
theorem exists_ofBlock {catalog : Catalog} {block : Block} (hblock : block.IsRule catalog)
    (handle : Nat) : ∃ draft, ofBlock catalog handle block = .ok draft := by
  obtain ⟨clauses, hclauses⟩ := exists_mapM_eq_ok hblock.readable
  exact ⟨_, ofBlock_eq_ok_iff.2 ⟨clauses, forall₂_of_mapM_eq_ok hclauses, rfl⟩⟩

/-- A block in order whose name is new gives a further draft. -/
theorem exists_addBlock {catalog : Catalog} (firstHandle : Nat) {drafts : List Draft}
    {block : Block} (hblock : block.IsRule catalog)
    (hnew : block.name ∉ drafts.map fun draft ↦ draft.body.name) :
    ∃ draft, ofBlock catalog (firstHandle + drafts.length) block = .ok draft ∧
      addBlock catalog firstHandle drafts block = .ok (drafts ++ [draft]) := by
  obtain ⟨draft, hdraft⟩ := exists_ofBlock hblock (firstHandle + drafts.length)
  refine ⟨draft, hdraft, ?_⟩
  unfold addBlock
  rw [if_neg (not_not.2 hblock.kind_eq), if_neg hblock.name_ne, if_neg hnew, hdraft]
  rfl

end Draft

/-- A block is in order when it can be read as the only block of a text. -/
theorem Block.isRule_iff {catalog : Catalog} {block : Block} (firstHandle : Nat) :
    block.IsRule catalog ↔
      ∃ drafts, Draft.addBlock catalog firstHandle [] block = .ok drafts := by
  constructor
  · intro hblock
    have hnew : block.name ∉ ([] : List Draft).map fun draft ↦ draft.body.name := by simp
    obtain ⟨draft, -, hadd⟩ := Draft.exists_addBlock firstHandle hblock hnew
    exact ⟨_, hadd⟩
  · rintro ⟨drafts, hadd⟩
    unfold Draft.addBlock at hadd
    split_ifs at hadd with hkind hname
    obtain ⟨draft, hdraft, -⟩ := bind_eq_ok_iff.1 hadd
    obtain ⟨clauses, hclauses, -⟩ := Draft.ofBlock_eq_ok_iff.1 hdraft
    refine ⟨not_not.1 hkind, hname, fun directive hdirective ↦ ?_⟩
    obtain ⟨clause, -, hclause⟩ := exists_of_forall₂_of_mem hclauses.flip hdirective
    exact ⟨clause, hclause⟩

instance (catalog : Catalog) (block : Block) : Decidable (block.IsRule catalog) :=
  decidable_of_iff ((Draft.addBlock catalog 0 [] block).isOk = true) (by
    rw [Block.isRule_iff 0]
    cases Draft.addBlock catalog 0 [] block <;> simp [Except.isOk, Except.toBool])

namespace Draft

/-- Blocks in order with names that are new and distinct give one draft each, in their order, behind
the drafts of the blocks before. -/
theorem exists_drafts_from {catalog : Catalog} {firstHandle : Nat} {blocks : List Block}
    {earlier : List Draft} (hblocks : ∀ block ∈ blocks, block.IsRule catalog)
    (hnames : ((earlier.map fun draft ↦ draft.body.name) ++ blocks.map Block.name).Nodup) :
    ∃ drafts, blocks.foldlM (addBlock catalog firstHandle) earlier = .ok (earlier ++ drafts) ∧
      List.Forall₂ (fun block draft ↦ ∃ handle, ofBlock catalog handle block = .ok draft)
        blocks drafts := by
  induction blocks generalizing earlier with
  | nil => exact ⟨[], by rw [List.append_nil]; rfl, List.Forall₂.nil⟩
  | cons block blocks ih =>
    obtain ⟨hblock, hothers⟩ := List.forall_mem_cons.1 hblocks
    have hnew : block.name ∉ earlier.map fun draft ↦ draft.body.name := fun hmem ↦
      (List.nodup_append.1 hnames).2.2 block.name hmem block.name List.mem_cons_self rfl
    obtain ⟨draft, hdraft, hadd⟩ := exists_addBlock firstHandle hblock hnew
    obtain ⟨clauses, -, hclauses⟩ := ofBlock_eq_ok_iff.1 hdraft
    have hname : draft.body.name = block.name := by rw [hclauses]; rfl
    have hlater : (((earlier ++ [draft]).map fun draft ↦ draft.body.name) ++
        blocks.map Block.name).Nodup := by
      simpa [hname] using hnames
    obtain ⟨drafts, hdrafts, hmatched⟩ := ih hothers hlater
    refine ⟨draft :: drafts, ?_, List.Forall₂.cons ⟨_, hdraft⟩ hmatched⟩
    rw [List.foldlM_cons, hadd, List.append_cons earlier draft drafts]
    exact hdrafts

/-- Blocks in order with distinct names give one draft each, in their order. -/
theorem exists_drafts_of_blocks {catalog : Catalog} (firstHandle : Nat) {blocks : List Block}
    (hblocks : ∀ block ∈ blocks, block.IsRule catalog) (hnames : (blocks.map Block.name).Nodup) :
    ∃ drafts, blocks.foldlM (addBlock catalog firstHandle) [] = .ok drafts ∧
      List.Forall₂ (fun block draft ↦ ∃ handle, ofBlock catalog handle block = .ok draft)
        blocks drafts :=
  exists_drafts_from hblocks (by simpa using hnames)

end Draft

end TickEconomy
