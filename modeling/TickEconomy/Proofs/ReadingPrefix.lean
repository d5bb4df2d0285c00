import TickEconomy.Proofs.JoinedTexts

/-!
# What a reading owes to the first lines of a text

A block is read when its closing line is, and what comes behind that line does not matter for it: a
text that is cut behind this line is read without a fault, up to the block and including it
(`Reading.exists_prefix_of_blocks`). A line that closes a block where none is open, or that goes on
behind the word `end`, is a fault whatever comes behind it (`Reading.exists_prefix_of_fault`). Only
that a block is not closed shows at the end of the text alone.

The numbers that blocks and faults carry are those of statements of the text
(`Statement.StandsAt`), so they never lead to a line that is empty or a comment
(`Statement.StandsAt.significant`).
-/

set_option autoImplicit false
set_option relaxedAutoImplicit false

namespace TickEconomy

/-- The line is passed over: there is nothing in it but blanks, or it is a comment. -/
def Text.IsPassedOver (line : List Char) : Prop :=
  strip line = [] ∨ (strip line).head? = some '#'

instance (line : List Char) : Decidable (Text.IsPassedOver line) :=
  inferInstanceAs (Decidable (_ ∨ _))

/-- The numbers of the lines of a block, but for the line that closes it. -/
def Block.lineNumbers (block : Block) : List Nat :=
  block.line :: block.directives.map Directive.line

/-! ### Statements of lines -/

namespace Statement

/-- A line is a statement unless it is passed over. -/
theorem ofLine?_eq_none_iff (number : Nat) (line : List Char) :
    ofLine? number line = none ↔ Text.IsPassedOver line := by
  unfold ofLine? Text.IsPassedOver
  split
  · next hstrip => simp [hstrip]
  · next hstrip => simp [hstrip]
  · next hnil hcomment =>
    cases hstrip : Text.strip line with
    | nil => exact absurd hstrip hnil
    | cons character rest =>
      have hcharacter : character ≠ '#' := fun h ↦ hcomment rest (h ▸ hstrip)
      simp [hcharacter]

/-- A statement has the number of its line. -/
theorem line_of_ofLine? {number : Nat} {line : List Char} {statement : Statement}
    (h : ofLine? number line = some statement) : statement.line = number := by
  unfold ofLine? at h
  split at h
  · cases h
  · cases h
  · cases h
    rfl

/-- Where the statements of some lines are cut, so are the lines: behind those of the statements
before stands the line of the next one. -/
theorem exists_of_ofLinesFrom_eq_append {number : Nat} {lines : List (List Char)}
    {earlier later : List Statement} {statement : Statement}
    (h : ofLinesFrom number lines = earlier ++ statement :: later) :
    ∃ before line behind, lines = before ++ line :: behind ∧
      ofLinesFrom number before = earlier ∧
      ofLine? (number + before.length) line = some statement := by
  induction lines generalizing number earlier with
  | nil => exact absurd h.symm (by simp [ofLinesFrom])
  | cons line lines ih =>
    rw [ofLinesFrom] at h
    have hbehind : ∀ {others : List Statement},
        ofLinesFrom (number + 1) lines = others ++ statement :: later →
          ∃ before closing behind, line :: lines = (line :: before) ++ closing :: behind ∧
            ofLinesFrom (number + 1) before = others ∧
            ofLine? (number + (line :: before).length) closing = some statement := by
      intro others hothers
      obtain ⟨before, closing, behind, rfl, hbefore, hclosing⟩ := ih hothers
      refine ⟨before, closing, behind, rfl, hbefore, ?_⟩
      rw [List.length_cons, Nat.add_comm before.length, ← Nat.add_assoc]
      exact hclosing
    cases hline : ofLine? number line with
    | none =>
      rw [hline] at h
      obtain ⟨before, closing, behind, heq, hbefore, hclosing⟩ := hbehind h
      exact ⟨line :: before, closing, behind, heq, by rw [ofLinesFrom, hline]; exact hbefore,
        hclosing⟩
    | some first =>
      rw [hline] at h
      cases earlier with
      | nil =>
        obtain ⟨rfl, -⟩ := List.cons.inj h
        exact ⟨[], line, lines, rfl, rfl, hline⟩
      | cons other earlier =>
        obtain ⟨rfl, hothers⟩ := List.cons.inj h
        obtain ⟨before, closing, behind, heq, hbefore, hclosing⟩ := hbehind hothers
        exact ⟨line :: before, closing, behind, heq, by rw [ofLinesFrom, hline, ← hbefore],
          hclosing⟩

/-- The statement is the line of the number. -/
def StandsAt (lines : List (List Char)) (number : Nat) (statement : Statement) : Prop :=
  1 ≤ number ∧ ∃ line, lines[number - 1]? = some line ∧ ofLine? number line = some statement

variable {lines : List (List Char)} {number : Nat} {statement : Statement}

/-- A statement behind some lines is the next line. -/
theorem standsAt_append {before behind : List (List Char)} {line : List Char}
    (h : ofLine? (1 + before.length) line = some statement) :
    StandsAt (before ++ line :: behind) (1 + before.length) statement :=
  ⟨Nat.le_add_right 1 _, line, by simp, h⟩

/-- The statements of a text are lines of it. -/
theorem standsAt_of_mem (h : statement ∈ ofLines lines) :
    StandsAt lines statement.line statement := by
  obtain ⟨earlier, later, hsplit⟩ := List.append_of_mem h
  obtain ⟨before, line, behind, rfl, -, hline⟩ := exists_of_ofLinesFrom_eq_append hsplit
  rw [line_of_ofLine? hline]
  exact standsAt_append hline

/-- A statement is within its text, in a line that is not passed over. -/
theorem StandsAt.significant (h : StandsAt lines number statement) :
    1 ≤ number ∧ number ≤ lines.length ∧
      ∃ line, lines[number - 1]? = some line ∧ ¬ Text.IsPassedOver line := by
  obtain ⟨hpositive, line, hline, hstatement⟩ := h
  have hbound := (List.getElem?_eq_some_iff.1 hline).1
  refine ⟨hpositive, by omega, line, hline, fun hpassed ↦ ?_⟩
  rw [(ofLine?_eq_none_iff number line).2 hpassed] at hstatement
  cases hstatement

end Statement

/-! ### Readings of statements -/

namespace Reading

/-- The numbers of a block are those of statements before the one that closes it, or of the block
that was open before the statements; and cut behind that one, the statements have no fault and the
block is their last. -/
theorem exists_of_blocks_eq_append {opened : Option Block} {statements : List Statement}
    {earlier later : List Block} {block : Block}
    (h : (ofStatementsFrom opened statements).blocks = earlier ++ block :: later) :
    ∃ before closing behind, statements = before ++ closing :: behind ∧
      closing.isEnd = true ∧
      ofStatementsFrom opened (before ++ [closing]) =
        { blocks := earlier ++ [block], fault := none } ∧
      ∀ number ∈ block.lineNumbers, (∃ statement ∈ before, statement.line = number) ∨
        ∃ start, opened = some start ∧ number ∈ start.lineNumbers := by
  fun_induction ofStatementsFrom opened statements generalizing earlier with
  | case1 | case2 | case3 | case6 => exact absurd h.symm (by simp [faulty])
  | case4 statement statements hend ih =>
    obtain ⟨before, closing, behind, rfl, hclosing, hread, hnumbers⟩ := ih h
    refine ⟨statement :: before, closing, behind, rfl, hclosing, ?_, fun number hnumber ↦ .inl ?_⟩
    · rw [List.cons_append, ofStatementsFrom, if_neg hend, hread]
    · obtain ⟨other, hother, hline⟩ | ⟨start, hstart, hline⟩ := hnumbers number hnumber
      · exact ⟨other, List.mem_cons_of_mem _ hother, hline⟩
      · cases hstart
        exact ⟨statement, List.mem_cons_self, (List.mem_singleton.1 hline).symm⟩
  | case5 start statement statements hend hrest ih =>
    cases earlier with
    | nil =>
      obtain ⟨rfl, -⟩ := List.cons.inj h
      refine ⟨[], statement, statements, rfl, hend, ?_, fun number hnumber ↦
        .inr ⟨_, rfl, hnumber⟩⟩
      rw [List.nil_append, ofStatementsFrom, if_pos hend, if_pos hrest]
      rfl
    | cons other earlier =>
      obtain ⟨rfl, hothers⟩ := List.cons.inj h
      obtain ⟨before, closing, behind, rfl, hclosing, hread, hnumbers⟩ := ih hothers
      refine ⟨statement :: before, closing, behind, rfl, hclosing, ?_, fun number hnumber ↦
        .inl ?_⟩
      · rw [List.cons_append, ofStatementsFrom, if_pos hend, if_pos hrest, hread]
        rfl
      · obtain ⟨same, hsame, hline⟩ | ⟨start, hstart, -⟩ := hnumbers number hnumber
        · exact ⟨same, List.mem_cons_of_mem _ hsame, hline⟩
        · cases hstart
  | case7 start statement statements hend ih =>
    obtain ⟨before, closing, behind, rfl, hclosing, hread, hnumbers⟩ := ih h
    refine ⟨statement :: before, closing, behind, rfl, hclosing, ?_, fun number hnumber ↦ ?_⟩
    · rw [List.cons_append, ofStatementsFrom, if_neg hend, hread]
    · obtain ⟨other, hother, hline⟩ | ⟨extended, hextended, hline⟩ := hnumbers number hnumber
      · exact .inl ⟨other, List.mem_cons_of_mem _ hother, hline⟩
      · cases hextended
        simp only [Block.lineNumbers, List.map_append, List.map_singleton, List.mem_cons,
          List.mem_append, List.not_mem_nil, or_false] at hline
        rcases hline with hopening | hdirective | hown
        · exact .inr ⟨start, rfl, List.mem_cons.2 (.inl hopening)⟩
        · exact .inr ⟨start, rfl, List.mem_cons.2 (.inr hdirective)⟩
        · exact .inl ⟨statement, List.mem_cons_self, hown.symm⟩

/-- A statement that begins with `end` stands in the line, and what is behind it does not matter for
the reading of the statements. -/
def IsSettledAt (opened : Option Block) (statements : List Statement) (line : Nat) : Prop :=
  ∃ before closing behind, statements = before ++ closing :: behind ∧ closing.isEnd = true ∧
    closing.line = line ∧
    ∀ others, ofStatementsFrom opened (before ++ closing :: others) =
      ofStatementsFrom opened statements

/-- A reading is settled by its first statement if that one is a fault by itself. -/
theorem isSettledAt_head {opened : Option Block} {statement : Statement}
    {statements : List Statement} (hend : statement.isEnd = true)
    (h : ∀ others, ofStatementsFrom opened (statement :: others) =
      ofStatementsFrom opened (statement :: statements)) :
    IsSettledAt opened (statement :: statements) statement.line :=
  ⟨[], statement, statements, rfl, hend, rfl, h⟩

/-- A reading is settled where that of the statements behind the first one is. -/
theorem IsSettledAt.cons {opened next : Option Block} {statement : Statement}
    {statements : List Statement} {line : Nat} (h : IsSettledAt next statements line)
    (change : Reading → Reading)
    (hstep : ∀ others, ofStatementsFrom opened (statement :: others) =
      change (ofStatementsFrom next others)) :
    IsSettledAt opened (statement :: statements) line := by
  obtain ⟨before, closing, behind, rfl, hend, hline, hothers⟩ := h
  refine ⟨statement :: before, closing, behind, rfl, hend, hline, fun others ↦ ?_⟩
  rw [List.cons_append, hstep, hothers, hstep]

/-- The fault of statements is in the line of one of them, or it is that the block that was open
before them is not closed. Unless it awaits the end of the text, the reading is settled there. -/
theorem exists_of_fault_eq_some {opened : Option Block} {statements : List Statement}
    {error : ParseError} (h : (ofStatementsFrom opened statements).fault = some error) :
    ((∃ statement ∈ statements, statement.line = error.line) ∨
        ∃ start, opened = some start ∧ error.line = start.line) ∧
      (error.cause.awaitsEnd = false → IsSettledAt opened statements error.line) := by
  fun_induction ofStatementsFrom opened statements with
  | case1 => cases h
  | case2 start =>
    cases h
    exact ⟨.inr ⟨start, rfl, rfl⟩, fun hcause ↦ by cases hcause⟩
  | case3 statement statements hend =>
    cases h
    refine ⟨.inl ⟨statement, List.mem_cons_self, rfl⟩,
      fun _ ↦ isSettledAt_head hend fun others ↦ ?_⟩
    rw [ofStatementsFrom, if_pos hend, ofStatementsFrom, if_pos hend]
  | case4 statement statements hend ih =>
    obtain ⟨hline, hsettled⟩ := ih h
    refine ⟨.inl ?_, fun hcause ↦ (hsettled hcause).cons id fun others ↦ ?_⟩
    · obtain ⟨other, hother, hsame⟩ | ⟨start, hstart, hsame⟩ := hline
      · exact ⟨other, List.mem_cons_of_mem _ hother, hsame⟩
      · cases hstart
        exact ⟨statement, List.mem_cons_self, hsame.symm⟩
    · rw [ofStatementsFrom, if_neg hend]
      rfl
  | case5 start statement statements hend hrest ih =>
    obtain ⟨hline, hsettled⟩ := ih h
    refine ⟨.inl ?_, fun hcause ↦ (hsettled hcause).cons (prepend start) fun others ↦ ?_⟩
    · obtain ⟨other, hother, hsame⟩ | ⟨start, hstart, -⟩ := hline
      · exact ⟨other, List.mem_cons_of_mem _ hother, hsame⟩
      · cases hstart
    · rw [ofStatementsFrom, if_pos hend, if_pos hrest]
  | case6 start statement statements hend hrest =>
    cases h
    refine ⟨.inl ⟨statement, List.mem_cons_self, rfl⟩,
      fun _ ↦ isSettledAt_head hend fun others ↦ ?_⟩
    rw [ofStatementsFrom, if_pos hend, if_neg hrest, ofStatementsFrom, if_pos hend, if_neg hrest]
  | case7 start statement statements hend ih =>
    obtain ⟨hline, hsettled⟩ := ih h
    refine ⟨?_, fun hcause ↦ (hsettled hcause).cons id fun others ↦ ?_⟩
    · obtain ⟨other, hother, hsame⟩ | ⟨extended, hextended, hsame⟩ := hline
      · exact .inl ⟨other, List.mem_cons_of_mem _ hother, hsame⟩
      · cases hextended
        exact .inr ⟨start, rfl, hsame⟩
    · rw [ofStatementsFrom, if_neg hend]
      rfl

/-! ### Readings of lines -/

variable {lines : List (List Char)}

/-- A block of a text is closed by a line of it, behind all other lines of the block. Cut behind
that line the text has no fault, and the block is its last. -/
theorem exists_prefix_of_blocks {earlier later : List Block} {block : Block}
    (h : (ofLines lines).blocks = earlier ++ block :: later) :
    ∃ before line behind closing, lines = before ++ line :: behind ∧
      Statement.StandsAt lines (1 + before.length) closing ∧ closing.isEnd = true ∧
      ofLines (before ++ [line]) = { blocks := earlier ++ [block], fault := none } ∧
      ∀ number ∈ block.lineNumbers, ∃ statement, Statement.StandsAt lines number statement := by
  obtain ⟨statements, closing, others, hsplit, hclosing, hread, hnumbers⟩ :=
    exists_of_blocks_eq_append h
  obtain ⟨before, line, behind, rfl, hbefore, hline⟩ :=
    Statement.exists_of_ofLinesFrom_eq_append hsplit
  refine ⟨before, line, behind, closing, rfl, Statement.standsAt_append hline, hclosing, ?_,
    fun number hnumber ↦ ?_⟩
  · rw [ofLines, Statement.ofLines, Statement.ofLinesFrom_append, hbefore, Statement.ofLinesFrom,
      hline]
    exact hread
  · obtain ⟨statement, hstatement, rfl⟩ | ⟨start, hstart, -⟩ := hnumbers number hnumber
    · refine ⟨statement, Statement.standsAt_of_mem ?_⟩
      rw [hsplit]
      exact List.mem_append_left _ hstatement
    · cases hstart

/-- The fault of a text is in a line of it. Unless it awaits the end of the text it is in a line
that begins with `end`, and the lines behind that one do not matter. -/
theorem exists_prefix_of_fault {error : ParseError} (h : (ofLines lines).fault = some error) :
    (∃ statement, Statement.StandsAt lines error.line statement) ∧
      (error.cause.awaitsEnd = false → ∃ before line behind closing,
        lines = before ++ line :: behind ∧ error.line = 1 + before.length ∧
        Statement.StandsAt lines error.line closing ∧ closing.isEnd = true ∧
        ∀ others, ofLines (before ++ line :: others) = ofLines lines) := by
  obtain ⟨hline, hcut⟩ := exists_of_fault_eq_some h
  refine ⟨?_, fun hcause ↦ ?_⟩
  · obtain ⟨statement, hstatement, hsame⟩ | ⟨start, hstart, -⟩ := hline
    · exact ⟨statement, hsame ▸ Statement.standsAt_of_mem hstatement⟩
    · cases hstart
  · obtain ⟨statements, closing, rest, hsplit, hclosing, hsame, hothers⟩ := hcut hcause
    obtain ⟨before, line, behind, rfl, hbefore, hline⟩ :=
      Statement.exists_of_ofLinesFrom_eq_append hsplit
    have hnumber : error.line = 1 + before.length :=
      hsame.symm.trans (Statement.line_of_ofLine? hline)
    refine ⟨before, line, behind, closing, rfl, hnumber,
      hnumber ▸ Statement.standsAt_append hline, hclosing, fun others ↦ ?_⟩
    rw [ofLines, Statement.ofLines, Statement.ofLinesFrom_append, hbefore, Statement.ofLinesFrom,
      hline]
    exact hothers _

end Reading

end TickEconomy
