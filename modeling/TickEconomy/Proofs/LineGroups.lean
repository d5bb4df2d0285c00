import Mathlib.Data.List.Induction
import TickEconomy.Proofs.LineWords
import TickEconomy.Proofs.ReadingPrefix
import TickEconomy.Proofs.Sequence

/-!
# Groups of lines

A text is read by its significant lines, which are those that are neither empty nor comments, each
with its number in the text (`Text.significantLines`). A block comes from a group of them: a line
that opens it, the lines inside, and a line that is just the word `end` (`LineGroup`). The block has
the words of the opening line and, line by line, those of the lines inside, and their numbers
(`LineGroup.IsBlock`).

Every text is a sequence of groups and what is left behind the last of them. Either nothing is left,
or what is left begins with a group that does not come about: its first line is no opening line, its
last line goes on behind the word `end`, or it has no last line (`SignificantLine.StopAt`). The text
is read as the blocks of the groups and the fault of what is left
(`Reading.ofLines_accounts_for_lines`), so no line is lost or told twice.
-/

set_option autoImplicit false
set_option relaxedAutoImplicit false

namespace TickEconomy

/-! ### Significant lines -/

/-- A line of a text that is not passed over, with its number. -/
structure SignificantLine where
  /-- The number of the line. -/
  number : Nat
  /-- What the line holds. -/
  text : List Char
  significant : ¬ Text.IsPassedOver text

/-- The significant lines among lines that are numbered from the given number on. -/
def Text.significantLinesFrom (number : Nat) (lines : List (List Char)) : List SignificantLine :=
  (lines.zipIdx number).filterMap fun (text, number) ↦
    if significant : Text.IsPassedOver text then none
    else some { number := number, text := text, significant := significant }

/-- The significant lines of a text, the first line of which has the number 1. -/
def Text.significantLines (lines : List (List Char)) : List SignificantLine :=
  significantLinesFrom 1 lines

namespace SignificantLine

/-- The words of the line. -/
def words (line : SignificantLine) : List String :=
  (Text.words line.text).map String.ofList

/-- The first word of the line is `end`. -/
def BeginsWithEnd (line : SignificantLine) : Prop :=
  line.words.head? = some "end"

instance (line : SignificantLine) : Decidable line.BeginsWithEnd :=
  inferInstanceAs (Decidable (_ = _))

/-- There is nothing in the line but the word `end`. -/
def IsEnd (line : SignificantLine) : Prop :=
  line.words = ["end"]

/-- The first word of the line. -/
def word (line : SignificantLine) : String :=
  String.ofList (Text.firstWord (Text.strip line.text))

/-- What follows the first word, without the blanks around it. -/
def rest (line : SignificantLine) : String :=
  String.ofList (Text.afterFirstWord (Text.strip line.text))

/-- The directive is what the line says. -/
structure IsDirective (line : SignificantLine) (directive : Directive) : Prop where
  number : directive.line = line.number
  words : directive.name :: directive.arguments = line.words
  argumentText : directive.argumentText = line.rest

end SignificantLine

/-! ### Groups -/

/-- A line that opens a block, the lines inside and the one that closes it. -/
structure LineGroup where
  /-- The line that opens the block. -/
  opener : SignificantLine
  /-- The lines inside, the first one first. -/
  body : List SignificantLine
  /-- The line that closes the block. -/
  closer : SignificantLine
  opens : ¬ opener.BeginsWithEnd
  inside : ∀ line ∈ body, ¬ line.BeginsWithEnd
  closes : closer.IsEnd

namespace LineGroup

/-- The lines of the group. -/
def lines (group : LineGroup) : List SignificantLine :=
  group.opener :: (group.body ++ [group.closer])

/-- The block is what the lines of the group say. -/
structure IsBlock (group : LineGroup) (block : Block) : Prop where
  number : block.line = group.opener.number
  kind : group.opener.words.head? = some block.kind
  name : block.name = group.opener.rest
  directives : List.Forall₂ SignificantLine.IsDirective group.body block.directives

end LineGroup

/-- The lines stop being a sequence of groups within the first group, for the given reason. -/
inductive SignificantLine.StopAt : ParseError → List SignificantLine → Prop
  /-- The first word of the first line is `end`. -/
  | endWithoutBlock (line : SignificantLine) (later : List SignificantLine)
      (ends : line.BeginsWithEnd) :
      StopAt { line := line.number, cause := .endWithoutBlock } (line :: later)
  /-- The first word of a later line is `end`, and others follow it in the line. -/
  | textAfterEnd (opener : SignificantLine) (body : List SignificantLine) (line : SignificantLine)
      (later : List SignificantLine) (opens : ¬ opener.BeginsWithEnd)
      (inside : ∀ line ∈ body, ¬ line.BeginsWithEnd) (ends : line.BeginsWithEnd)
      (more : ¬ line.IsEnd) :
      StopAt { line := line.number, cause := .textAfterEnd line.rest }
        (opener :: (body ++ line :: later))
  /-- The first word of no line is `end`. -/
  | unterminatedBlock (opener : SignificantLine) (body : List SignificantLine)
      (opens : ¬ opener.BeginsWithEnd) (inside : ∀ line ∈ body, ¬ line.BeginsWithEnd) :
      StopAt { line := opener.number, cause := .unterminatedBlock opener.word opener.rest }
        (opener :: body)

/-! ### Statements of significant lines -/

namespace SignificantLine

/-- The statement that the line is. -/
def statement (line : SignificantLine) : Statement :=
  { line := line.number
    word := line.word
    rest := Text.afterFirstWord (Text.strip line.text) }

/-- The words of a line are its first one and those of what follows. -/
theorem words_eq (line : SignificantLine) :
    line.words = line.word :: (Text.words line.statement.rest).map String.ofList := by
  have hne : Text.strip line.text ≠ [] := fun hnil ↦ line.significant (Or.inl hnil)
  rw [words, Text.words_strip_eq_cons hne]
  rfl

theorem isEnd_statement_iff (line : SignificantLine) :
    line.statement.isEnd = true ↔ line.BeginsWithEnd := by
  rw [BeginsWithEnd, words_eq, List.head?_cons, Option.some.injEq]
  exact beq_iff_eq

/-- A line is just the word `end` when nothing follows this word in it. -/
theorem isEnd_iff (line : SignificantLine) :
    line.IsEnd ↔ line.BeginsWithEnd ∧ line.statement.rest = [] := by
  have hrest : Text.words line.statement.rest = [] ↔ line.statement.rest = [] := by
    rw [Text.words_eq_nil_iff, statement, Text.strip_afterFirstWord]
  rw [IsEnd, BeginsWithEnd, words_eq, List.head?_cons, List.cons.injEq, List.map_eq_nil_iff, hrest,
    Option.some.injEq]

theorem isDirective_directive (line : SignificantLine) :
    line.IsDirective line.statement.directive :=
  ⟨rfl, line.words_eq.symm, rfl⟩

end SignificantLine

namespace Statement

/-- A line that is not passed over is a statement. -/
theorem ofLine?_of_not_isPassedOver {line : List Char} (h : ¬ Text.IsPassedOver line)
    (number : Nat) :
    ofLine? number line =
      some (SignificantLine.statement { number := number, text := line, significant := h }) := by
  unfold ofLine?
  split
  · next hstrip => exact absurd (Or.inl hstrip) h
  · next hstrip => exact absurd (Or.inr (by rw [hstrip]; rfl)) h
  · rfl

/-- The statements of lines are those of the significant ones among them. -/
theorem ofLinesFrom_eq_map (number : Nat) (lines : List (List Char)) :
    ofLinesFrom number lines =
      (Text.significantLinesFrom number lines).map SignificantLine.statement := by
  induction lines generalizing number with
  | nil => rfl
  | cons line later ih =>
    rw [ofLinesFrom, ih, Text.significantLinesFrom, Text.significantLinesFrom, List.zipIdx_cons,
      List.filterMap_cons]
    by_cases hpassed : Text.IsPassedOver line
    · simp [(ofLine?_eq_none_iff number line).2 hpassed, hpassed]
    · simp [ofLine?_of_not_isPassedOver hpassed, hpassed]

end Statement

/-! ### Reading groups -/

/-- The block that the lines of the group make. -/
def LineGroup.block (group : LineGroup) : Block :=
  { group.opener.statement.opened with
    directives := group.body.map fun line ↦ line.statement.directive }

theorem LineGroup.isBlock_block (group : LineGroup) : group.IsBlock group.block where
  number := rfl
  kind := by rw [group.opener.words_eq]; rfl
  name := rfl
  directives := List.forall₂_map_right_iff.2
    (List.forall₂_same.2 fun line _ ↦ line.isDirective_directive)

namespace Reading

/-- Lines inside a block that is open are its next directives. -/
theorem ofStatementsFrom_body {body : List SignificantLine}
    (hinside : ∀ line ∈ body, ¬ line.BeginsWithEnd) (block : Block) (later : List Statement) :
    ofStatementsFrom (some block) (body.map SignificantLine.statement ++ later) =
      ofStatementsFrom
        (some { block with
          directives := block.directives ++ body.map fun line ↦ line.statement.directive })
        later := by
  induction body generalizing block with
  | nil => simp
  | cons line body ih =>
    obtain ⟨hline, hbody⟩ := List.forall_mem_cons.1 hinside
    rw [List.map_cons, List.cons_append, ofStatementsFrom,
      if_neg (mt line.isEnd_statement_iff.1 hline), ih hbody]
    simp

/-- Lines behind a line that opens a block are the directives of the block. -/
theorem ofStatementsFrom_opener {opener : SignificantLine} (hopens : ¬ opener.BeginsWithEnd)
    {body : List SignificantLine} (hinside : ∀ line ∈ body, ¬ line.BeginsWithEnd)
    (later : List Statement) :
    ofStatementsFrom none
        (opener.statement :: (body.map SignificantLine.statement ++ later)) =
      ofStatementsFrom
        (some { opener.statement.opened with
          directives := body.map fun line ↦ line.statement.directive }) later := by
  rw [ofStatementsFrom, if_neg (mt opener.isEnd_statement_iff.1 hopens),
    ofStatementsFrom_body hinside]
  rfl

/-- A group is read as its block. -/
theorem ofStatementsFrom_group (group : LineGroup) (later : List Statement) :
    ofStatementsFrom none (group.lines.map SignificantLine.statement ++ later) =
      prepend group.block (ofStatementsFrom none later) := by
  obtain ⟨hends, hrest⟩ := group.closer.isEnd_iff.1 group.closes
  rw [LineGroup.lines, List.map_cons, List.map_append, List.cons_append, List.append_assoc,
    ofStatementsFrom_opener group.opens group.inside, List.map_singleton, List.singleton_append,
    ofStatementsFrom, if_pos (group.closer.isEnd_statement_iff.2 hends),
    if_pos (List.isEmpty_iff.2 hrest)]
  rfl

/-- Groups are read as their blocks. -/
theorem ofStatementsFrom_groups (groups : List LineGroup) (later : List Statement) :
    ofStatementsFrom none
        ((groups.flatMap LineGroup.lines).map SignificantLine.statement ++ later) =
      { blocks := groups.map LineGroup.block ++ (ofStatementsFrom none later).blocks
        fault := (ofStatementsFrom none later).fault } := by
  induction groups with
  | nil => rfl
  | cons group groups ih =>
    rw [List.flatMap_cons, List.map_append, List.append_assoc, ofStatementsFrom_group, ih]
    rfl

/-- Lines that stop being a sequence of groups have the fault that stops them and no block. -/
theorem ofStatementsFrom_of_stopAt {error : ParseError} {rest : List SignificantLine}
    (h : SignificantLine.StopAt error rest) :
    ofStatementsFrom none (rest.map SignificantLine.statement) =
      { blocks := [], fault := some error } := by
  cases h with
  | endWithoutBlock line later ends =>
    rw [List.map_cons, ofStatementsFrom, if_pos (line.isEnd_statement_iff.2 ends)]
    rfl
  | textAfterEnd opener body line later opens inside ends more =>
    have hrest : ¬ line.statement.rest.isEmpty = true := fun hempty ↦
      more (line.isEnd_iff.2 ⟨ends, List.isEmpty_iff.1 hempty⟩)
    rw [List.map_cons, List.map_append, ofStatementsFrom_opener opens inside, List.map_cons,
      ofStatementsFrom, if_pos (line.isEnd_statement_iff.2 ends), if_neg hrest]
    rfl
  | unterminatedBlock opener body opens inside =>
    rw [List.map_cons, ← List.append_nil (body.map _), ofStatementsFrom_opener opens inside]
    rfl

section Lines

variable {lines : List (List Char)} {groups : List LineGroup} {rest : List SignificantLine}

/-- Lines that are groups and a rest are read as the blocks of the groups and what the rest is read
as. -/
theorem ofLines_of_groups
    (h : Text.significantLines lines = groups.flatMap LineGroup.lines ++ rest) :
    ofLines lines =
      { blocks := groups.map LineGroup.block ++
          (ofStatementsFrom none (rest.map SignificantLine.statement)).blocks
        fault := (ofStatementsFrom none (rest.map SignificantLine.statement)).fault } := by
  rw [← ofStatementsFrom_groups, ← List.map_append, ← h, Text.significantLines,
    ← Statement.ofLinesFrom_eq_map]
  rfl

theorem ofLines_of_complete (h : Text.significantLines lines = groups.flatMap LineGroup.lines) :
    ofLines lines = { blocks := groups.map LineGroup.block, fault := none } := by
  have hread := ofLines_of_groups (h.trans (List.append_nil _).symm)
  rwa [List.map_nil, ofStatementsFrom, List.append_nil] at hread

theorem ofLines_of_stopAt (h : Text.significantLines lines = groups.flatMap LineGroup.lines ++ rest)
    {error : ParseError} (hstop : SignificantLine.StopAt error rest) :
    ofLines lines = { blocks := groups.map LineGroup.block, fault := some error } := by
  have hread := ofLines_of_groups h
  rwa [ofStatementsFrom_of_stopAt hstop, List.append_nil] at hread

end Lines

end Reading

/-! ### Cutting lines into groups -/

/-- All lines are a sequence of groups and what stops being one, if anything is left. -/
theorem SignificantLine.exists_groups (lines : List SignificantLine) :
    ∃ (groups : List LineGroup) (rest : List SignificantLine),
      lines = groups.flatMap LineGroup.lines ++ rest ∧
        (rest = [] ∨ ∃ error, StopAt error rest) := by
  -- One more line behind the others closes the group that is open, or belongs to what is left.
  induction lines using List.reverseRecOn with
  | nil => exact ⟨[], [], rfl, Or.inl rfl⟩
  | append_singleton earlier line ih =>
    obtain ⟨groups, rest, rfl, rfl | ⟨error, hstop⟩⟩ := ih
    · refine ⟨groups, [line], by simp, Or.inr ?_⟩
      by_cases hends : line.BeginsWithEnd
      · exact ⟨_, .endWithoutBlock line [] hends⟩
      · exact ⟨_, .unterminatedBlock line [] hends (List.forall_mem_nil _)⟩
    · cases hstop with
      | endWithoutBlock first later ends =>
        exact ⟨groups, first :: (later ++ [line]), by simp,
          Or.inr ⟨_, .endWithoutBlock first _ ends⟩⟩
      | textAfterEnd opener body closing later opens inside ends more =>
        exact ⟨groups, opener :: (body ++ closing :: (later ++ [line])), by simp,
          Or.inr ⟨_, .textAfterEnd opener body closing _ opens inside ends more⟩⟩
      | unterminatedBlock opener body opens inside =>
        by_cases hends : line.BeginsWithEnd
        · by_cases hcloses : line.IsEnd
          · exact ⟨groups ++ [⟨opener, body, line, opens, inside, hcloses⟩], [],
              by simp [LineGroup.lines], Or.inl rfl⟩
          · exact ⟨groups, opener :: (body ++ [line]), by simp,
              Or.inr ⟨_, .textAfterEnd opener body line [] opens inside hends hcloses⟩⟩
        · have hbody : ∀ other ∈ body ++ [line], ¬ other.BeginsWithEnd :=
            List.forall_mem_append.2 ⟨inside, List.forall_mem_singleton.2 hends⟩
          exact ⟨groups, opener :: (body ++ [line]), by simp,
            Or.inr ⟨_, .unterminatedBlock opener _ opens hbody⟩⟩

/-- A block has the numbers of the lines of its group, but for the one that closes it. -/
theorem LineGroup.lineNumbers_block (group : LineGroup) :
    group.block.lineNumbers =
      (group.lines.filter fun line ↦ ¬ line.BeginsWithEnd).map SignificantLine.number := by
  have hcloser : group.closer.BeginsWithEnd := (group.closer.isEnd_iff.1 group.closes).1
  have hbody : group.body.filter (fun line ↦ ¬ line.BeginsWithEnd) = group.body :=
    List.filter_eq_self.2 fun line hline ↦ decide_eq_true (group.inside line hline)
  rw [lines, List.filter_cons, if_pos (decide_eq_true group.opens), List.filter_append, hbody]
  simp [hcloser, block, Block.lineNumbers, SignificantLine.statement, Statement.opened,
    Statement.directive, Function.comp_def]

namespace Reading

/-- The blocks of a text come from groups of its lines. -/
theorem exists_groups_of_blocks (lines : List (List Char)) :
    ∃ groups : List LineGroup, (ofLines lines).blocks = groups.map LineGroup.block := by
  obtain ⟨groups, rest, hsplit, rfl | ⟨error, hstop⟩⟩ :=
    SignificantLine.exists_groups (Text.significantLines lines)
  · exact ⟨groups, by rw [ofLines_of_complete (hsplit.trans (List.append_nil _))]⟩
  · exact ⟨groups, by rw [ofLines_of_stopAt hsplit hstop]⟩

/-- A text is read without a fault just when its significant lines are a sequence of groups. Then
there is one block for each group, in order, and every significant line but those that close a group
is told once, with its own number. Otherwise the lines stop being such a sequence behind some
groups. Then there is one block for each of these, and the fault is what stops the lines. -/
theorem ofLines_accounts_for_lines (lines : List (List Char)) :
    let significant := Text.significantLines lines
    let reading := ofLines lines
    (reading.fault = none ↔
        ∃ groups : List LineGroup, significant = groups.flatMap LineGroup.lines) ∧
      (∀ groups : List LineGroup, significant = groups.flatMap LineGroup.lines →
        List.Forall₂ LineGroup.IsBlock groups reading.blocks ∧
          reading.blocks.flatMap Block.lineNumbers =
            (significant.filter fun line ↦ ¬ line.BeginsWithEnd).map SignificantLine.number) ∧
      (reading.fault ≠ none →
        ∃ (groups : List LineGroup) (rest : List SignificantLine) (error : ParseError),
          significant = groups.flatMap LineGroup.lines ++ rest ∧
            SignificantLine.StopAt error rest) ∧
      ∀ (groups : List LineGroup) (rest : List SignificantLine) (error : ParseError),
        significant = groups.flatMap LineGroup.lines ++ rest →
          SignificantLine.StopAt error rest →
            List.Forall₂ LineGroup.IsBlock groups reading.blocks ∧ reading.fault = some error := by
  intro significant reading
  have hblocks (groups : List LineGroup) :
      List.Forall₂ LineGroup.IsBlock groups (groups.map LineGroup.block) :=
    List.forall₂_map_right_iff.2 (List.forall₂_same.2 fun group _ ↦ group.isBlock_block)
  obtain ⟨groups, rest, hsplit, hrest⟩ := SignificantLine.exists_groups significant
  refine ⟨⟨fun hnone ↦ ?_, ?_⟩, ?_, fun hfault ↦ ?_, ?_⟩
  · rcases hrest with rfl | ⟨error, hstop⟩
    · exact ⟨groups, hsplit.trans (List.append_nil _)⟩
    · have hread : reading = _ := ofLines_of_stopAt hsplit hstop
      rw [hread] at hnone
      cases hnone
  · rintro ⟨others, hothers⟩
    have hread : reading = _ := ofLines_of_complete hothers
    rw [hread]
  · intro others hothers
    have hread : reading = _ := ofLines_of_complete hothers
    rw [hread, hothers]
    refine ⟨hblocks others, ?_⟩
    rw [List.filter_flatMap, List.map_flatMap, List.flatMap_map]
    simp only [LineGroup.lineNumbers_block]
  · rcases hrest with rfl | ⟨error, hstop⟩
    · have hread : reading = _ := ofLines_of_complete (hsplit.trans (List.append_nil _))
      rw [hread] at hfault
      exact absurd rfl hfault
    · exact ⟨groups, rest, error, hsplit, hstop⟩
  · intro others left error hothers hstop
    have hread : reading = _ := ofLines_of_stopAt hothers hstop
    rw [hread]
    exact ⟨hblocks others, rfl⟩

end Reading

end TickEconomy
