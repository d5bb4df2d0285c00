import TickEconomy.Proofs.ReadingPrefix
import TickEconomy.Proofs.RuleBlock
import TickEconomy.Resource.Parse
import TickEconomy.Scenario.Parse

/-!
# The lines of errors in texts

What goes wrong with a directive goes wrong in its line, and what goes wrong with a block goes wrong
in a line of the block (`ErrorsIn`). That is so for the blocks of resources
(`Resource.errorsIn_addBlock`), of rules (`Draft.errorsIn_addBlock`) and of scenarios
(`ScenarioDraft.errorsIn_addBlock`).

What goes wrong when all blocks are read is an error that awaits the end of the text, and it is in a
line that some block has left behind: that of a fallback (`Draft.line_mem_of_linkAll_error`) or of a
relation (`ScenarioDraft.line_mem_of_resolveAll_error`).
-/

set_option autoImplicit false
set_option relaxedAutoImplicit false

namespace TickEconomy

/-! ### Errors in given lines -/

/-- If the step fails, it fails with an error in one of the lines. -/
def ErrorsIn {Result : Type} (numbers : List Nat) (step : Except ParseError Result) : Prop :=
  ∀ error, step = .error error → error.line ∈ numbers

namespace ErrorsIn

variable {Value Result Item : Type} {numbers : List Nat}

theorem ok (result : Result) : ErrorsIn numbers (.ok result) :=
  nofun

theorem error {error : ParseError} (h : error.line ∈ numbers) :
    ErrorsIn numbers (.error error : Except ParseError Result) := by
  rintro _ ⟨⟩
  exact h

theorem mono {step : Except ParseError Result} (h : ErrorsIn numbers step) {others : List Nat}
    (hsubset : numbers ⊆ others) : ErrorsIn others step :=
  fun error herror ↦ hsubset (h error herror)

theorem bind {first : Except ParseError Value} {second : Value → Except ParseError Result}
    (hfirst : ErrorsIn numbers first) (hsecond : ∀ value, ErrorsIn numbers (second value)) :
    ErrorsIn numbers (first >>= second) := by
  intro error h
  obtain herror | ⟨value, -, herror⟩ := bind_eq_error_iff.1 h
  · exact hfirst error herror
  · exact hsecond value error herror

theorem map {step : Except ParseError Value} (h : ErrorsIn numbers step)
    (change : Value → Result) : ErrorsIn numbers (change <$> step) := by
  cases step with
  | error error => exact ErrorsIn.error (h error rfl)
  | ok value => exact ErrorsIn.ok (change value)

theorem mapM {step : Item → Except ParseError Value} {items : List Item}
    (h : ∀ item ∈ items, ErrorsIn numbers (step item)) : ErrorsIn numbers (items.mapM step) := by
  intro error herror
  obtain ⟨earlier, item, later, rfl, -, hitem⟩ := mapM_eq_error_iff.1 herror
  exact h item (by simp) error hitem

theorem foldlM {step : Result → Item → Except ParseError Result} {items : List Item}
    (h : ∀ reached, ∀ item ∈ items, ErrorsIn numbers (step reached item)) (first : Result) :
    ErrorsIn numbers (items.foldlM step first) := by
  intro error herror
  obtain ⟨earlier, item, later, reached, rfl, -, hitem⟩ := foldlM_eq_error_iff.1 herror
  exact h reached item (by simp) error hitem

end ErrorsIn

/-- The line of a directive of a block is a line of the block. -/
theorem Block.line_subset_lineNumbers {block : Block} {directive : Directive}
    (h : directive ∈ block.directives) : [directive.line] ⊆ block.lineNumbers :=
  List.cons_subset.2 ⟨List.mem_cons_of_mem _ (List.mem_map_of_mem h), List.nil_subset _⟩

/-- Errors in the lines of the directives of a block are in lines of the block. -/
theorem Block.errorsIn_foldlM {Result : Type} (block : Block)
    {step : Result → Directive → Except ParseError Result}
    (h : ∀ reached directive, ErrorsIn [directive.line] (step reached directive))
    (first : Result) : ErrorsIn block.lineNumbers (block.directives.foldlM step first) :=
  ErrorsIn.foldlM (fun reached directive hdirective ↦
    (h reached directive).mono (line_subset_lineNumbers hdirective)) first

/-- An error in the line that opens a block is in a line of the block. -/
theorem Block.errorsIn_opening {Result : Type} (block : Block) (cause : ParseError.Cause) :
    ErrorsIn block.lineNumbers
      (.error { line := block.line, cause := cause } : Except ParseError Result) :=
  ErrorsIn.error List.mem_cons_self

/-! ### Arguments of directives -/

namespace Directive

variable (directive : Directive)

theorem errorsIn_error {Result : Type} (cause : ParseError.Cause) :
    ErrorsIn [directive.line] (.error (directive.error cause) : Except ParseError Result) :=
  ErrorsIn.error (List.mem_singleton.2 rfl)

theorem errorsIn_integer (what argument : String) :
    ErrorsIn [directive.line] (directive.integer what argument) := by
  unfold integer
  split
  · exact ErrorsIn.ok _
  · exact directive.errorsIn_error _

theorem errorsIn_count (what argument : String) :
    ErrorsIn [directive.line] (directive.count what argument) := by
  refine (directive.errorsIn_integer what argument).bind fun number ↦ ?_
  cases number with
  | ofNat number => exact ErrorsIn.ok _
  | negSucc number => exact directive.errorsIn_error _

theorem errorsIn_resource (catalog : Catalog) (argument : String) :
    ErrorsIn [directive.line] (directive.resource catalog argument) := by
  unfold resource
  split
  · exact ErrorsIn.ok _
  · exact directive.errorsIn_error _

theorem errorsIn_capacity (argument : String) :
    ErrorsIn [directive.line] (directive.capacity argument) := by
  unfold capacity
  split
  · exact ErrorsIn.ok _
  · exact (directive.errorsIn_count _ _).map _

theorem errorsIn_pool (catalog : Catalog) (owner : Owner) :
    ErrorsIn [directive.line] (directive.pool catalog owner) := by
  unfold pool
  split
  · refine (directive.errorsIn_resource catalog _).bind fun found ↦ ?_
    refine (directive.errorsIn_capacity _).bind fun most ↦ ?_
    exact (directive.errorsIn_integer _ _).bind fun held ↦ ErrorsIn.ok _
  · exact directive.errorsIn_error _

theorem errorsIn_rules (known : List Rule) :
    ErrorsIn [directive.line] (directive.rules known) := by
  unfold rules
  split
  · exact directive.errorsIn_error _
  · refine ErrorsIn.mapM fun argument _ ↦ ?_
    unfold rule
    split
    · exact ErrorsIn.ok _
    · exact directive.errorsIn_error _

end Directive

/-! ### Directives -/

/-- What is wrong with a name of a resource is wrong in the line that gives it. -/
theorem Wording.errorsIn_read (wording : Wording) (directive : Directive) :
    ErrorsIn [directive.line] (wording.read directive) := by
  unfold read
  split_ifs
  · exact directive.errorsIn_error _
  · exact directive.errorsIn_error _
  · exact ErrorsIn.ok _
  · exact ErrorsIn.ok _

namespace Clause

variable (catalog : Catalog) (directive : Directive)

theorem errorsIn_specifierOf (relation resource quantity : String) :
    ErrorsIn [directive.line] (specifierOf catalog directive relation resource quantity) :=
  (directive.errorsIn_resource catalog resource).bind fun _ ↦
    (directive.errorsIn_integer "quantity" quantity).bind fun _ ↦ ErrorsIn.ok _

theorem errorsIn_readSpecifier : ErrorsIn [directive.line] (readSpecifier catalog directive) := by
  unfold readSpecifier
  split
  · exact errorsIn_specifierOf catalog directive _ _ _
  · exact errorsIn_specifierOf catalog directive _ _ _
  · exact directive.errorsIn_error _

theorem errorsIn_conditionOf (relation resource sign quantity : String) :
    ErrorsIn [directive.line] (conditionOf catalog directive relation resource sign quantity) := by
  refine (directive.errorsIn_resource catalog resource).bind fun found ↦ ?_
  refine ErrorsIn.bind ?_ fun comparison ↦
    (directive.errorsIn_integer "quantity" quantity).bind fun _ ↦ ErrorsIn.ok _
  unfold comparisonOf
  split
  · exact directive.errorsIn_error _
  · exact ErrorsIn.ok _

theorem errorsIn_readCondition : ErrorsIn [directive.line] (readCondition catalog directive) := by
  unfold readCondition
  split
  · exact errorsIn_conditionOf catalog directive _ _ _ _
  · exact errorsIn_conditionOf catalog directive _ _ _ _
  · exact directive.errorsIn_error _

theorem errorsIn_repeatFromOf (word relation resource : String) :
    ErrorsIn [directive.line] (repeatFromOf catalog directive word relation resource) := by
  unfold repeatFromOf
  split
  · exact (directive.errorsIn_resource catalog resource).bind fun _ ↦ ErrorsIn.ok _
  · exact directive.errorsIn_error _

theorem errorsIn_readRepetition :
    ErrorsIn [directive.line] (readRepetition catalog directive) := by
  unfold readRepetition
  split
  · exact (directive.errorsIn_count _ _).map _
  · exact errorsIn_repeatFromOf catalog directive _ _ _
  · exact errorsIn_repeatFromOf catalog directive _ _ _
  · exact directive.errorsIn_error _

/-- What is wrong with a clause of a rule is wrong in its line. -/
theorem errorsIn_ofDirective : ErrorsIn [directive.line] (ofDirective catalog directive) := by
  unfold ofDirective
  split
  · exact (errorsIn_readSpecifier catalog directive).map _
  · exact (errorsIn_readSpecifier catalog directive).map _
  · exact (errorsIn_readSpecifier catalog directive).map _
  · exact (errorsIn_readCondition catalog directive).map _
  · split
    · exact (directive.errorsIn_count _ _).map _
    · exact directive.errorsIn_error _
  · exact errorsIn_readRepetition catalog directive
  · split
    · exact ErrorsIn.ok _
    · exact directive.errorsIn_error _
  · exact directive.errorsIn_error _

end Clause

theorem Settings.errorsIn_read (settings : Settings) (directive : Directive) :
    ErrorsIn [directive.line] (settings.read directive) := by
  unfold read
  split
  · refine (directive.errorsIn_count _ _).bind fun number ↦ ?_
    split_ifs <;> exact ErrorsIn.ok _
  · exact directive.errorsIn_error _

namespace ScenarioDraft

variable (catalog : Catalog) (rules : List Rule)

/-- What is wrong with a directive about the world is wrong in its line. -/
theorem errorsIn_readWorld (draft : ScenarioDraft) (directive : Directive) :
    ErrorsIn [directive.line] (draft.readWorld catalog rules directive) := by
  unfold readWorld
  split
  · exact (Settings.errorsIn_read _ directive).bind fun _ ↦ ErrorsIn.ok _
  · exact (Settings.errorsIn_read _ directive).bind fun _ ↦ ErrorsIn.ok _
  · exact (Settings.errorsIn_read _ directive).bind fun _ ↦ ErrorsIn.ok _
  · exact (directive.errorsIn_pool catalog _).bind fun _ ↦ ErrorsIn.ok _
  · exact (directive.errorsIn_rules rules).bind fun _ ↦ ErrorsIn.ok _
  · exact directive.errorsIn_error _

/-- What is wrong with a directive about an agent is wrong in its line. -/
theorem errorsIn_readAgent (state : Agent × ScenarioDraft) (directive : Directive) :
    ErrorsIn [directive.line] (readAgent catalog rules state directive) := by
  simp only [readAgent]
  split
  · exact (directive.errorsIn_pool catalog _).bind fun _ ↦ ErrorsIn.ok _
  · exact (directive.errorsIn_rules rules).bind fun _ ↦ ErrorsIn.ok _
  · split
    · exact ErrorsIn.ok _
    · exact directive.errorsIn_error _
  · exact directive.errorsIn_error _

end ScenarioDraft

/-! ### Blocks -/

/-- What is wrong with the block of a resource is wrong in a line of the block. -/
theorem Resource.errorsIn_addBlock (firstHandle : Nat) (catalog : Catalog) (block : Block) :
    ErrorsIn block.lineNumbers (addBlock firstHandle catalog block) := by
  unfold addBlock
  refine ErrorsIn.bind ?_ fun resource ↦ ?_
  · unfold ofBlock
    split_ifs
    · exact block.errorsIn_opening _
    · exact block.errorsIn_opening _
    · exact (block.errorsIn_foldlM Wording.errorsIn_read _).bind fun _ ↦ ErrorsIn.ok _
  · split
    · exact block.errorsIn_opening _
    · exact ErrorsIn.ok _

/-- What is wrong with the block of a rule is wrong in a line of the block. -/
theorem Draft.errorsIn_addBlock (catalog : Catalog) (firstHandle : Nat) (drafts : List Draft)
    (block : Block) : ErrorsIn block.lineNumbers (addBlock catalog firstHandle drafts block) := by
  unfold addBlock
  split_ifs
  · exact block.errorsIn_opening _
  · exact block.errorsIn_opening _
  · exact block.errorsIn_opening _
  · refine (block.errorsIn_foldlM (fun draft directive ↦ ?_) _).bind fun _ ↦ ErrorsIn.ok _
    exact (Clause.errorsIn_ofDirective catalog directive).bind fun _ ↦ ErrorsIn.ok _

/-- What is wrong with a block of a scenario is wrong in a line of the block. -/
theorem ScenarioDraft.errorsIn_addBlock (catalog : Catalog) (rules : List Rule)
    (draft : ScenarioDraft) (block : Block) :
    ErrorsIn block.lineNumbers (draft.addBlock catalog rules block) := by
  unfold addBlock
  split_ifs
  · exact block.errorsIn_foldlM (errorsIn_readWorld catalog rules) draft
  · unfold addAgent
    split_ifs
    · exact block.errorsIn_opening _
    · exact block.errorsIn_opening _
    · refine (block.errorsIn_foldlM (errorsIn_readAgent catalog rules) _).bind fun _ ↦ ?_
      exact ErrorsIn.ok _
  · exact block.errorsIn_opening _

/-! ### The end of a text -/

/-- The lines that name the fallbacks of drafts. -/
def Draft.referenceLines (drafts : List Draft) : List Nat :=
  drafts.filterMap fun draft ↦ draft.reference.map FallbackReference.line

namespace Draft

/-- The line that names the fallback of a block is a line of the block. -/
theorem line_mem_of_reference? {block : Block} {reference : FallbackReference}
    (h : block.reference? = some reference) : reference.line ∈ block.lineNumbers := by
  obtain ⟨directive, hdirective, hreference⟩ := List.mem_filterMap.1 (List.mem_of_getLast? h)
  refine List.mem_cons_of_mem _ (List.mem_map.2 ⟨directive, hdirective, ?_⟩)
  unfold Directive.reference? at hreference
  split_ifs at hreference
  obtain ⟨target, -, rfl⟩ := Option.map_eq_some_iff.1 hreference
  rfl

/-- The line that names the fallback of a further draft is a line of its block. -/
theorem referenceLines_addBlock {catalog : Catalog} {firstHandle : Nat} {drafts next : List Draft}
    {block : Block} (h : addBlock catalog firstHandle drafts block = .ok next) :
    referenceLines next ⊆ referenceLines drafts ++ block.lineNumbers := by
  unfold addBlock at h
  split_ifs at h
  obtain ⟨draft, hdraft, hnext⟩ := bind_eq_ok_iff.1 h
  cases hnext
  obtain ⟨clauses, -, rfl⟩ := ofBlock_eq_ok_iff.1 hdraft
  rw [referenceLines, List.filterMap_append]
  refine List.append_subset.2 ⟨List.subset_append_left _ _, fun number hnumber ↦ ?_⟩
  obtain ⟨draft, hmem, hnumber⟩ := List.mem_filterMap.1 hnumber
  obtain rfl := List.mem_singleton.1 hmem
  obtain ⟨reference, hreference, rfl⟩ := Option.map_eq_some_iff.1 hnumber
  exact List.mem_append_right _ (line_mem_of_reference? hreference)

/-- What is wrong with a fallback awaits the end of the text, and is in the line of a fallback. -/
theorem line_mem_of_followFallbacks_error {drafts : List Draft} {path : List String}
    {draft : Draft} {error : ParseError} (h : followFallbacks drafts path draft = .error error) :
    error.cause.awaitsEnd = true ∧ error.line ∈ referenceLines (draft :: drafts) := by
  have hown : ∀ {others : List Draft} {asking : Draft} {reference : FallbackReference},
      asking.reference = some reference →
        reference.line ∈ referenceLines (asking :: others) := by
    intro others asking reference hreference
    exact List.mem_filterMap.2 ⟨asking, List.mem_cons_self, by rw [hreference]; rfl⟩
  fun_induction followFallbacks drafts path draft with
  | case1 | case2 => cases h
  | case3 drafts _ draft _ _ _ next hfound _ later hlater ih =>
    cases h
    obtain ⟨hawaits, hline⟩ := ih hlater
    refine ⟨hawaits, ?_⟩
    obtain ⟨other, hother, hsame⟩ := List.mem_filterMap.1 hline
    refine List.mem_filterMap.2 ⟨other, List.mem_cons_of_mem _ ?_, hsame⟩
    rcases List.mem_cons.1 hother with rfl | hleft
    · exact List.mem_of_find?_eq_some hfound
    · exact (List.mem_filter.1 hleft).1
  | case4 _ _ _ _ hreference =>
    cases h
    exact ⟨rfl, hown hreference⟩
  | case5 _ _ _ _ hreference =>
    cases h
    exact ⟨rfl, hown hreference⟩

/-- What is wrong with the fallbacks of a text awaits its end, and is in the line of a fallback. -/
theorem line_mem_of_linkAll_error {drafts : List Draft} {error : ParseError}
    (h : linkAll drafts = .error error) :
    error.cause.awaitsEnd = true ∧ error.line ∈ referenceLines drafts := by
  obtain ⟨earlier, draft, later, hsplit, -, hlink⟩ := mapM_eq_error_iff.1 h
  obtain herror | ⟨_, -, herror⟩ := bind_eq_error_iff.1 hlink
  · obtain ⟨hawaits, hline⟩ := line_mem_of_followFallbacks_error herror
    refine ⟨hawaits, ?_⟩
    obtain ⟨other, hother, hsame⟩ := List.mem_filterMap.1 hline
    refine List.mem_filterMap.2 ⟨other, ?_, hsame⟩
    rcases List.mem_cons.1 hother with rfl | hleft
    · exact hsplit ▸ List.mem_append_right _ List.mem_cons_self
    · exact (List.mem_filter.1 hleft).1
  · cases herror

end Draft

namespace ScenarioDraft

variable {catalog : Catalog} {rules : List Rule}

/-- The lines that declare relations which are not yet resolved. -/
def pendingLines (draft : ScenarioDraft) : List Nat :=
  draft.pending.map PendingRelation.line

/-- Directives about the world declare no relation. -/
theorem pendingLines_readWorld {draft next : ScenarioDraft} {directive : Directive}
    (h : draft.readWorld catalog rules directive = .ok next) :
    next.pendingLines = draft.pendingLines := by
  unfold readWorld at h
  split at h
  all_goals first
    | cases h
    | obtain ⟨read, -, h⟩ := bind_eq_ok_iff.1 h
      cases h
      rfl

/-- A relation that a directive declares is pending in the line of the directive. -/
theorem pendingLines_readAgent {state next : Agent × ScenarioDraft} {directive : Directive}
    (h : readAgent catalog rules state directive = .ok next) :
    next.2.pendingLines ⊆ state.2.pendingLines ++ [directive.line] := by
  obtain ⟨agent, draft⟩ := state
  simp only [readAgent] at h
  split at h
  · obtain ⟨pool, -, h⟩ := bind_eq_ok_iff.1 h
    cases h
    exact List.subset_append_left _ _
  · obtain ⟨named, -, h⟩ := bind_eq_ok_iff.1 h
    cases h
    exact List.subset_append_left _ _
  · split at h
    · cases h
      simp [pendingLines]
    · cases h
  · cases h

/-- The relations that a block declares are pending in lines of the block. -/
theorem pendingLines_addBlock {draft next : ScenarioDraft} {block : Block}
    (h : draft.addBlock catalog rules block = .ok next) :
    next.pendingLines ⊆ draft.pendingLines ++ block.lineNumbers := by
  unfold addBlock at h
  split_ifs at h
  · have hsame := of_foldlM_eq_ok
      (fun reached : ScenarioDraft ↦ reached.pendingLines = draft.pendingLines)
      (fun _ _ _ _ hreached hread ↦ (pendingLines_readWorld hread).trans hreached) rfl h
    exact hsame ▸ List.subset_append_left _ _
  · unfold addAgent at h
    split_ifs at h
    obtain ⟨⟨agent, extended⟩, hread, h⟩ := bind_eq_ok_iff.1 h
    cases h
    refine of_foldlM_eq_ok (fun state : Agent × ScenarioDraft ↦
      state.2.pendingLines ⊆ draft.pendingLines ++ block.lineNumbers) ?_
        (List.subset_append_left _ _) hread
    intro directive hdirective state next hstate hnext
    refine List.Subset.trans (pendingLines_readAgent hnext) (List.append_subset.2 ⟨hstate, ?_⟩)
    exact List.Subset.trans (Block.line_subset_lineNumbers hdirective)
      (List.subset_append_right _ _)

/-- What is wrong with a relation awaits the end of the text. It is in the line that declares it. -/
theorem line_mem_of_resolveAll_error {draft : ScenarioDraft} {error : ParseError}
    (h : draft.resolveAll = .error error) :
    error.cause.awaitsEnd = true ∧ error.line ∈ draft.pendingLines := by
  obtain ⟨earlier, pending, later, reached, hsplit, -, herror⟩ := foldlM_eq_error_iff.1 h
  unfold resolve at herror
  split at herror
  · cases herror
  · cases herror
    refine ⟨rfl, List.mem_map.2 ⟨pending, ?_, rfl⟩⟩
    exact hsplit ▸ List.mem_append_right _ List.mem_cons_self

end ScenarioDraft

end TickEconomy
