import Mathlib.Data.List.Flatten
import TickEconomy.Block
import TickEconomy.Proofs.Sequence

/-!
# Texts one after the other

Lines that are read without a fault leave no block open. So when they are followed by other lines,
the blocks of both are read, the latter as they are read on their own, only that their lines count
from further on, and the whole ends as the latter do (`Reading.ofLines_reads_on`). A block that
stands further down in a text is the same block with other line numbers (`Block.movedBy`); what it
says apart from these is `Block.unnumbered`. The arguments of a directive mean the same in every
line (`Directive.toOption_integer`, `Directive.toOption_count`, `Directive.toOption_resource`).

Any number of texts without a fault, one after the other, say what each of them says, in their order
(`Reading.unnumbered_ofLines_flatten`).
-/

set_option autoImplicit false
set_option relaxedAutoImplicit false

namespace TickEconomy

/-! ### Line numbers -/

/-- The statement so many lines further down. -/
def Statement.movedBy (lines : Nat) (statement : Statement) : Statement :=
  { statement with line := statement.line + lines }

/-- The directive so many lines further down. -/
def Directive.movedBy (lines : Nat) (directive : Directive) : Directive :=
  { directive with line := directive.line + lines }

/-- The block so many lines further down. -/
def Block.movedBy (lines : Nat) (block : Block) : Block :=
  { block with
    line := block.line + lines
    directives := block.directives.map (Directive.movedBy lines) }

/-- The error so many lines further down. -/
def ParseError.movedBy (lines : Nat) (error : ParseError) : ParseError :=
  { error with line := error.line + lines }

/-- The directive without the number of its line. -/
def Directive.unnumbered (directive : Directive) : Directive :=
  { directive with line := 0 }

/-- The block without the numbers of its lines. -/
def Block.unnumbered (block : Block) : Block :=
  { block with line := 0, directives := block.directives.map Directive.unnumbered }

/-- A block says the same wherever it stands. -/
theorem Block.unnumbered_movedBy (block : Block) (lines : Nat) :
    (block.movedBy lines).unnumbered = block.unnumbered := by
  simp [unnumbered, movedBy, Directive.unnumbered, Directive.movedBy]

/-! ### Arguments -/

namespace Directive

/-- What an integer is read as depends on its numeral only. -/
theorem toOption_integer (directive : Directive) (what argument : String) :
    (directive.integer what argument).toOption = Text.readInteger? argument.toList := by
  unfold integer
  cases Text.readInteger? argument.toList <;> rfl

/-- What a count is read as depends on its numeral only. -/
theorem toOption_count (directive : Directive) (what argument : String) :
    (directive.count what argument).toOption =
      (Text.readInteger? argument.toList).bind Int.toNat? := by
  rw [count, toOption_bind, toOption_integer]
  refine Option.bind_congr fun number _ ↦ ?_
  cases number <;> rfl

/-- What a resource is read as depends on its name only. -/
theorem toOption_resource (directive : Directive) (catalog : Catalog) (argument : String) :
    (directive.resource catalog argument).toOption = catalog.find? argument := by
  unfold resource
  cases catalog.find? argument <;> rfl

end Directive

/-! ### Statements -/

namespace Statement

theorem isEnd_movedBy (statement : Statement) (lines : Nat) :
    (statement.movedBy lines).isEnd = statement.isEnd :=
  rfl

theorem rest_movedBy (statement : Statement) (lines : Nat) :
    (statement.movedBy lines).rest = statement.rest :=
  rfl

/-- A line is the same statement wherever it stands. -/
theorem ofLine?_add (number lines : Nat) (line : List Char) :
    ofLine? (number + lines) line = (ofLine? number line).map (movedBy lines) := by
  unfold ofLine?
  split <;> rfl

/-- Lines are the same statements wherever they begin. -/
theorem ofLinesFrom_add (number lines : Nat) (later : List (List Char)) :
    ofLinesFrom (number + lines) later = (ofLinesFrom number later).map (movedBy lines) := by
  induction later generalizing number with
  | nil => rfl
  | cons line later ih =>
    have hlater := ih (number + 1)
    rw [Nat.add_right_comm] at hlater
    rw [ofLinesFrom, ofLinesFrom, ofLine?_add]
    cases ofLine? number line with
    | none => exact hlater
    | some statement => exact congrArg (statement.movedBy lines :: ·) hlater

/-- The statements of some lines and of others behind them. -/
theorem ofLinesFrom_append (number : Nat) (first second : List (List Char)) :
    ofLinesFrom number (first ++ second) =
      ofLinesFrom number first ++ ofLinesFrom (number + first.length) second := by
  induction first generalizing number with
  | nil => rfl
  | cons line first ih =>
    have hlater := ih (number + 1)
    rw [Nat.add_assoc, Nat.add_comm 1] at hlater
    rw [List.cons_append, ofLinesFrom, ofLinesFrom]
    cases ofLine? number line with
    | none => exact hlater
    | some statement => exact congrArg (statement :: ·) hlater

end Statement

/-! ### Readings -/

namespace Reading

/-- The reading so many lines further down. -/
def movedBy (lines : Nat) (reading : Reading) : Reading where
  blocks := reading.blocks.map (Block.movedBy lines)
  fault := reading.fault.map (ParseError.movedBy lines)

/-- The reading with blocks before its blocks. -/
def behind (blocks : List Block) (reading : Reading) : Reading :=
  { reading with blocks := blocks ++ reading.blocks }

/-- Statements behind a block, or behind none, are read the same wherever they stand. -/
theorem ofStatementsFrom_map_movedBy (lines : Nat) (opened : Option Block)
    (statements : List Statement) :
    ofStatementsFrom (opened.map (Block.movedBy lines))
        (statements.map (Statement.movedBy lines)) =
      (ofStatementsFrom opened statements).movedBy lines := by
  fun_induction ofStatementsFrom opened statements with
  | case1 => rfl
  | case2 block => rfl
  | case3 statement later hend =>
    rw [Option.map_none, List.map_cons, ofStatementsFrom, Statement.isEnd_movedBy, if_pos hend]
    rfl
  | case4 statement later hend ih =>
    rw [Option.map_none, List.map_cons, ofStatementsFrom, Statement.isEnd_movedBy, if_neg hend]
    exact ih
  | case5 block statement later hend hrest ih =>
    rw [Option.map_some, List.map_cons, ofStatementsFrom, Statement.isEnd_movedBy, if_pos hend,
      Statement.rest_movedBy, if_pos hrest]
    exact congrArg (prepend (block.movedBy lines)) ih
  | case6 block statement later hend hrest =>
    rw [Option.map_some, List.map_cons, ofStatementsFrom, Statement.isEnd_movedBy, if_pos hend,
      Statement.rest_movedBy, if_neg hrest]
    rfl
  | case7 block statement later hend ih =>
    rw [Option.map_some, List.map_cons, ofStatementsFrom, Statement.isEnd_movedBy, if_neg hend,
      ← ih]
    simp [Block.movedBy, Statement.directive, Statement.movedBy, Directive.movedBy]

/-- Statements that leave no block open may be followed by others, which are then read on their
own. -/
theorem ofStatementsFrom_append {opened : Option Block} {first : List Statement}
    (h : (ofStatementsFrom opened first).fault = none) (second : List Statement) :
    ofStatementsFrom opened (first ++ second) =
      (ofStatementsFrom none second).behind (ofStatementsFrom opened first).blocks := by
  fun_induction ofStatementsFrom opened first with
  | case1 => rfl
  | case2 block => cases h
  | case3 statement later hend => cases h
  | case4 statement later hend ih =>
    rw [List.cons_append, ofStatementsFrom, if_neg hend]
    exact ih h
  | case5 block statement later hend hrest ih =>
    rw [List.cons_append, ofStatementsFrom, if_pos hend, if_pos hrest, ih h]
    rfl
  | case6 block statement later hend hrest => cases h
  | case7 block statement later hend ih =>
    rw [List.cons_append, ofStatementsFrom, if_neg hend]
    exact ih h

/-- Lines without a fault, followed by other lines, are read as the blocks of the former and then as
the latter are read on their own, so many lines further down. -/
theorem ofLines_append {first : List (List Char)} (h : (ofLines first).fault = none)
    (second : List (List Char)) :
    ofLines (first ++ second) =
      ((ofLines second).movedBy first.length).behind (ofLines first).blocks := by
  have hmoved : ofStatementsFrom none (Statement.ofLinesFrom (1 + first.length) second) =
      (ofLines second).movedBy first.length := by
    rw [Statement.ofLinesFrom_add]
    exact ofStatementsFrom_map_movedBy first.length none _
  have hsplit := Statement.ofLinesFrom_append 1 first second
  rw [ofLines, Statement.ofLines, hsplit, ← hmoved]
  exact ofStatementsFrom_append h _

/-- Take lines without a fault and any lines behind them. The blocks of all lines are those of the
former and then those of the latter, which count their lines from the end of the former. All lines
are without a fault just when the latter are, and a fault of the latter is the fault of all lines,
so many lines further down. -/
theorem ofLines_reads_on (first second : List (List Char)) (hfirst : (ofLines first).fault = none) :
    let joined := ofLines (first ++ second)
    joined.blocks =
        (ofLines first).blocks ++ (ofLines second).blocks.map (Block.movedBy first.length) ∧
      (joined.fault = none ↔ (ofLines second).fault = none) ∧
      ∀ error, (ofLines second).fault = some error →
        joined.fault = some { line := error.line + first.length, cause := error.cause } := by
  intro joined
  have hjoined : joined = ((ofLines second).movedBy first.length).behind (ofLines first).blocks :=
    ofLines_append hfirst second
  have hfault : joined.fault =
      (ofLines second).fault.map (ParseError.movedBy first.length) := by
    rw [hjoined]
    rfl
  refine ⟨?_, ?_, fun error herror ↦ ?_⟩
  · rw [hjoined]
    rfl
  · rw [hfault, Option.map_eq_none_iff]
  · rw [hfault, herror]
    rfl

/-- The block of the second text is read behind that of the first, although a comment and an empty
line stand between them, and its second `end` closes nothing there either. -/
theorem ofLines_reads_on_mill :
    let first : List (List Char) :=
      ["rule mill", "  in grain 2", "end", "# in spring", ""].map String.toList
    let second : List (List Char) := ["rule sow", "out grain 3", "end", "end"].map String.toList
    let mill : Block :=
      { kind := "rule"
        name := "mill"
        line := 1
        directives := [⟨"in", "grain 2", ["grain", "2"], 2⟩] }
    let sow (line : Nat) : Block :=
      { kind := "rule"
        name := "sow"
        line := line
        directives := [⟨"out", "grain 3", ["grain", "3"], line + 1⟩] }
    ofLines first = { blocks := [mill], fault := none } ∧
      ofLines second =
        { blocks := [sow 1], fault := some { line := 4, cause := .endWithoutBlock } } ∧
      (ofLines (first ++ second)).blocks = [mill, sow 6] ∧
      (ofLines (first ++ second)).fault = some { line := 9, cause := .endWithoutBlock } := by
  intro first second mill sow
  have hfirst : ofLines first = { blocks := [mill], fault := none } := by decide +kernel
  have hsecond : ofLines second =
      { blocks := [sow 1], fault := some { line := 4, cause := .endWithoutBlock } } := by
    decide +kernel
  obtain ⟨hblocks, -, hfault⟩ := ofLines_reads_on first second (by rw [hfirst])
  refine ⟨hfirst, hsecond, ?_, hfault ⟨4, .endWithoutBlock⟩ (by rw [hsecond])⟩
  rw [hblocks, hfirst, hsecond]
  rfl

/-- Texts without a fault, one after the other, have none, and say what each of them says. -/
theorem unnumbered_ofLines_flatten {texts : List (List (List Char))}
    (h : ∀ text ∈ texts, (ofLines text).fault = none) :
    (ofLines texts.flatten).fault = none ∧
      (ofLines texts.flatten).blocks.map Block.unnumbered =
        (texts.flatMap fun text ↦ (ofLines text).blocks).map Block.unnumbered := by
  induction texts with
  | nil => exact ⟨rfl, rfl⟩
  | cons text texts ih =>
    obtain ⟨htext, hothers⟩ := List.forall_mem_cons.1 h
    obtain ⟨hfault, hblocks⟩ := ih hothers
    rw [List.flatten_cons, ofLines_append htext, List.flatMap_cons, List.map_append, ← hblocks]
    refine ⟨by simp [behind, movedBy, hfault], ?_⟩
    simp [behind, movedBy, Function.comp_def, Block.unnumbered_movedBy]

end Reading

end TickEconomy
