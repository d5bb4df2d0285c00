import TickEconomy.Proofs.Dialect
import TickEconomy.Proofs.ErrorLines

/-!
# Errors are settled by the first lines of a text

Resource, rule and scenario texts are read block by block and then brought to a result (`Dialect`).
Errors of a block are in its lines, and errors at the end are in lines that were kept of the blocks
(`Dialect.Locates`).

It follows that every error is in a line of the text that is not passed over. An error of a block
is settled by the line that closes the block, and a fault in a line that begins with `end` is
settled by that line: every text with the same lines up to there has the same error
(`Dialect.Locates.settles_of_block`, `Dialect.settles_of_fault`). Only errors that await the end of
the text may depend on the lines behind (`ParseError.Cause.awaitsEnd`). That this holds of all three
kinds of texts is `parsers_locate_errors`.
-/

set_option autoImplicit false
set_option relaxedAutoImplicit false

namespace TickEconomy

/-! ### Where errors are -/

/-- Errors of a block are in its lines. Errors at the end await it, and are in lines that were kept
of the blocks. -/
structure Dialect.Locates {State Result : Type} (dialect : Dialect State Result)
    (kept : State → List Nat) : Prop where
  add_errorsIn : ∀ state block, ErrorsIn block.lineNumbers (dialect.add state block)
  kept_start : kept dialect.start = []
  kept_add : ∀ state block next, dialect.add state block = .ok next →
    kept next ⊆ kept state ++ block.lineNumbers
  close_error : ∀ state error, dialect.close state = .error error →
    error.cause.awaitsEnd = true ∧ error.line ∈ kept state

/-- The line of the number begins with `end`, and with it the error shows: the line is itself at
fault, or it closes the block that the error is in, which is the last of the lines up to there. -/
inductive ShowsAt (lines : List (List Char)) (error : ParseError) (last : Nat) : Prop
  | fault (closing : Statement) (hclosing : Statement.StandsAt lines last closing)
      (hend : closing.isEnd = true) (hline : error.line = last)
      (hfault : (Reading.ofLines (lines.take last)).fault = some error)
  | block (closing : Statement) (hclosing : Statement.StandsAt lines last closing)
      (hend : closing.isEnd = true) (earlier : List Block) (block : Block)
      (hread : Reading.ofLines (lines.take last) = { blocks := earlier ++ [block], fault := none })
      (hblock : error.line ∈ block.lineNumbers)

/-- The errors of a way to read texts are in lines of the text that are not passed over. And those
that do not await the end of the text are settled by the lines up to one with which they show: every
text with the same lines up to there has the same error. -/
structure LocatesErrors {Result : Type} (parse : List (List Char) → Except ParseError Result) :
    Prop where
  points : ∀ lines error, parse lines = .error error →
    1 ≤ error.line ∧ error.line ≤ lines.length ∧
      ∃ line, lines[error.line - 1]? = some line ∧ ¬ Text.IsPassedOver line
  settles : ∀ lines error, parse lines = .error error → error.cause.awaitsEnd = false →
    ∃ last, ShowsAt lines error last ∧
      ∀ others, others.take last = lines.take last → parse others = .error error

namespace Dialect

variable {State Result : Type} {dialect : Dialect State Result} {kept : State → List Nat}

/-- Where the error of a text comes from: a block of it, its fault, or its end. -/
theorem parse_eq_error_cases {lines : List (List Char)} {error : ParseError}
    (h : dialect.parse lines = .error error) :
    (∃ earlier block later reached, (Reading.ofLines lines).blocks = earlier ++ block :: later ∧
        earlier.foldlM dialect.add dialect.start = .ok reached ∧
        dialect.add reached block = .error error) ∨
      ∃ reached, (Reading.ofLines lines).blocks.foldlM dialect.add dialect.start = .ok reached ∧
        ((Reading.ofLines lines).fault = some error ∨
          (Reading.ofLines lines).fault = none ∧ dialect.close reached = .error error) := by
  obtain hblock | ⟨reached, hreached, hrest⟩ := bind_eq_error_iff.1 h
  · obtain ⟨earlier, block, later, reached, hsplit, hearlier, hadd⟩ :=
      foldlM_eq_error_iff.1 hblock
    exact .inl ⟨earlier, block, later, reached, hsplit, hearlier, hadd⟩
  · refine .inr ⟨reached, hreached, ?_⟩
    unfold Reading.finish at hrest
    cases hfault : (Reading.ofLines lines).fault with
    | some fault =>
      rw [hfault] at hrest
      cases hrest
      exact .inl rfl
    | none =>
      rw [hfault] at hrest
      exact .inr ⟨rfl, hrest⟩

/-- The lines that are kept of the blocks of a text are lines of it. -/
theorem Locates.standsAt_of_kept (h : dialect.Locates kept) {lines : List (List Char)}
    {reached : State}
    (hreached : (Reading.ofLines lines).blocks.foldlM dialect.add dialect.start = .ok reached) :
    ∀ number ∈ kept reached, ∃ statement, Statement.StandsAt lines number statement := by
  refine of_foldlM_eq_ok (fun state ↦ ∀ number ∈ kept state,
    ∃ statement, Statement.StandsAt lines number statement) ?_ ?_ hreached
  · intro block hblock state next hstate hnext number hnumber
    rcases List.mem_append.1 (h.kept_add state block next hnext hnumber) with hold | hnew
    · exact hstate number hold
    · obtain ⟨earlier, later, hsplit⟩ := List.append_of_mem hblock
      obtain ⟨_, _, _, _, -, -, -, -, hnumbers⟩ := Reading.exists_prefix_of_blocks hsplit
      exact hnumbers number hnew
  · simp [h.kept_start]

/-- Every error is in a line of the text. -/
theorem Locates.standsAt (h : dialect.Locates kept) {lines : List (List Char)}
    {error : ParseError} (herror : dialect.parse lines = .error error) :
    ∃ statement, Statement.StandsAt lines error.line statement := by
  obtain ⟨earlier, block, later, reached, hsplit, -, hadd⟩ | ⟨reached, hreached, hend⟩ :=
    parse_eq_error_cases herror
  · obtain ⟨_, _, _, _, -, -, -, -, hnumbers⟩ := Reading.exists_prefix_of_blocks hsplit
    exact hnumbers _ (h.add_errorsIn reached block error hadd)
  · obtain hfault | ⟨-, hclose⟩ := hend
    · exact (Reading.exists_prefix_of_fault hfault).1
    · exact h.standsAt_of_kept hreached _ (h.close_error reached error hclose).2

/-- An error in a block is settled by the line that closes the block. -/
theorem Locates.settles_of_block (h : dialect.Locates kept) {lines : List (List Char)}
    {error : ParseError} {earlier later : List Block} {block : Block} {reached : State}
    (hsplit : (Reading.ofLines lines).blocks = earlier ++ block :: later)
    (hearlier : earlier.foldlM dialect.add dialect.start = .ok reached)
    (hadd : dialect.add reached block = .error error) :
    ∃ last, ShowsAt lines error last ∧
      ∀ others, others.take last = lines.take last → dialect.parse others = .error error := by
  obtain ⟨before, line, behind, closing, rfl, hclosing, hend, hread, -⟩ :=
    Reading.exists_prefix_of_blocks hsplit
  have htake : (before ++ line :: behind).take (1 + before.length) = before ++ [line] := by
    rw [List.append_cons, Nat.add_comm, List.take_left' (by simp)]
  refine ⟨1 + before.length, .block closing hclosing hend earlier block (htake ▸ hread)
    (h.add_errorsIn reached block error hadd), fun others hothers ↦ ?_⟩
  rw [htake] at hothers
  rw [← List.take_append_drop (1 + before.length) others, hothers, parse,
    Reading.ofLines_append (by rw [hread]), hread]
  refine bind_eq_error_iff.2 (.inl (foldlM_eq_error_iff.2 ?_))
  exact ⟨earlier, block, _, reached, List.append_assoc .., hearlier, hadd⟩

/-- A fault that does not await the end of the text is settled by its own line. -/
theorem settles_of_fault {lines : List (List Char)} {error : ParseError} {reached : State}
    (hreached : (Reading.ofLines lines).blocks.foldlM dialect.add dialect.start = .ok reached)
    (hfault : (Reading.ofLines lines).fault = some error)
    (hcause : error.cause.awaitsEnd = false) :
    ∃ last, ShowsAt lines error last ∧
      ∀ others, others.take last = lines.take last → dialect.parse others = .error error := by
  obtain ⟨before, line, behind, closing, rfl, hnumber, hclosing, hend, hothers⟩ :=
    (Reading.exists_prefix_of_fault hfault).2 hcause
  have htake : (before ++ line :: behind).take error.line = before ++ [line] := by
    rw [hnumber, List.append_cons, Nat.add_comm, List.take_left' (by simp)]
  refine ⟨error.line, .fault closing hclosing hend rfl ?_, fun others hsame ↦ ?_⟩
  · rw [htake, hothers, hfault]
  · rw [htake] at hsame
    rw [← List.take_append_drop error.line others, hsame, List.append_assoc, List.singleton_append,
      parse, hothers]
    refine bind_eq_error_iff.2 (.inr ⟨reached, hreached, ?_⟩)
    rw [Reading.finish, hfault]
    rfl

/-- A way to read texts whose errors are located block by block locates all its errors. -/
theorem Locates.locatesErrors (h : dialect.Locates kept) : LocatesErrors dialect.parse where
  points _ _ herror := by
    obtain ⟨statement, hstatement⟩ := h.standsAt herror
    exact hstatement.significant
  settles lines error herror hcause := by
    obtain ⟨earlier, block, later, reached, hsplit, hearlier, hadd⟩ | ⟨reached, hreached, hend⟩ :=
      parse_eq_error_cases herror
    · exact h.settles_of_block hsplit hearlier hadd
    · obtain hfault | ⟨-, hclose⟩ := hend
      · exact settles_of_fault hreached hfault hcause
      · have hawaits := (h.close_error reached error hclose).1
        rw [hcause] at hawaits
        cases hawaits

end Dialect

/-! ### The three kinds of texts -/

theorem Resource.dialect_locates (firstHandle : Nat) :
    (dialect firstHandle).Locates fun _ ↦ [] where
  add_errorsIn := errorsIn_addBlock firstHandle
  kept_start := rfl
  kept_add _ _ _ _ := List.nil_subset _
  close_error := nofun

theorem Rule.dialect_locates (catalog : Catalog) (firstHandle : Nat) :
    (dialect catalog firstHandle).Locates Draft.referenceLines where
  add_errorsIn := Draft.errorsIn_addBlock catalog firstHandle
  kept_start := rfl
  kept_add _ _ _ := Draft.referenceLines_addBlock
  close_error _ _ := Draft.line_mem_of_linkAll_error

theorem Scenario.dialect_locates (catalog : Catalog) (rules : List Rule) :
    (dialect catalog rules).Locates ScenarioDraft.pendingLines where
  add_errorsIn := ScenarioDraft.errorsIn_addBlock catalog rules
  kept_start := rfl
  kept_add _ _ _ := ScenarioDraft.pendingLines_addBlock
  close_error _ _ := ScenarioDraft.line_mem_of_resolveAll_error

/-- The errors of resource, rule and scenario texts are in lines of the text that are neither empty
nor comments, and those that do not await the end of the text are settled by the line that closes
the block they are in, or by their own line if it is at fault itself. -/
theorem parsers_locate_errors (catalog : Catalog) (rules : List Rule) (firstHandle : Nat) :
    LocatesErrors (Resource.parse firstHandle) ∧ LocatesErrors (Rule.parse catalog firstHandle) ∧
      LocatesErrors (Scenario.parse catalog rules) := by
  refine ⟨?_, (Rule.dialect_locates catalog firstHandle).locatesErrors,
    (Scenario.dialect_locates catalog rules).locatesErrors⟩
  rw [Resource.parse_eq_dialect]
  exact (Resource.dialect_locates firstHandle).locatesErrors

-- The line that closes the first block settles its error, which comes before that of the stray end.
example :
    Rule.parse {} 1 (["rule bake", "every", "end", "end"].map String.toList) =
      .error { line := 2, cause := .periodMalformed "every " } := by decide +kernel

end TickEconomy
