import TickEconomy.Block
import TickEconomy.Proofs.WrittenWords

/-!
# Writing blocks

What a block says is its kind, its name and the words of its directives; the numbers of its lines do
not belong to it (`BlockContent`, `Block.content`). Such a content is written as a line with the
kind and the name, a line of words for each directive, and the line `end` (`BlockContent.lines`).
Not every content can be written so: a line that begins with `#` is passed over, and one that begins
with `end` closes the block or is a fault (`BlockContent.IsWritable`).

The lines of any number of contents, one after the other, are read without a fault into blocks that
have these contents, in this order (`Reading.exists_blocks_of_lines`).
-/

set_option autoImplicit false
set_option relaxedAutoImplicit false

namespace TickEconomy

/-- What a block says, apart from the numbers of its lines. -/
structure BlockContent where
  /-- The kind of the block. -/
  kind : String
  /-- The name, which may be empty. -/
  name : String
  /-- The words of each directive, the first of them being its name. -/
  directives : List (List String)
  deriving DecidableEq, Repr

/-- What the block says. -/
def Block.content (block : Block) : BlockContent where
  kind := block.kind
  name := block.name
  directives := block.directives.map fun directive ↦ directive.name :: directive.arguments

namespace BlockContent

/-- The line of the words of a directive. -/
def directiveLine (words : List String) : List Char :=
  Text.writeWords (words.map String.toList)

/-- The line that opens the block. -/
def openingLine (content : BlockContent) : List Char :=
  if content.name = "" then content.kind.toList
  else content.kind.toList ++ ' ' :: content.name.toList

/-- The lines of the block. -/
def lines (content : BlockContent) : List (List Char) :=
  content.openingLine :: (content.directives.map directiveLine ++ ["end".toList])

/-- The word can begin a line that is not passed over. -/
structure IsFirstWord (word : String) : Prop where
  isWord : Text.IsWord word.toList
  not_comment : word.toList.head? ≠ some '#'

instance (word : String) : Decidable (IsFirstWord word) :=
  decidable_of_iff (Text.IsWord word.toList ∧ (word.toList.head? != some '#') = true)
    ⟨fun h ↦ ⟨h.1, by simpa using h.2⟩, fun h ↦ ⟨h.isWord, by simpa using h.not_comment⟩⟩

/-- The line of the words is read as a directive. -/
structure IsDirective (words : List String) : Prop where
  isWord : ∀ word ∈ words, Text.IsWord word.toList
  opens : ∃ first later, words = first :: later ∧ IsFirstWord first ∧ first ≠ "end"

theorem isDirective_cons {first : String} {later : List String} (hfirst : IsFirstWord first)
    (hend : first ≠ "end") (hlater : ∀ word ∈ later, Text.IsWord word.toList) :
    IsDirective (first :: later) where
  isWord := List.forall_mem_cons.2 ⟨hfirst.isWord, hlater⟩
  opens := ⟨first, later, rfl, hfirst, hend⟩

/-- The lines of the block are read as a block. -/
structure IsWritable (content : BlockContent) : Prop where
  kind : IsFirstWord content.kind
  kind_ne : content.kind ≠ "end"
  name : Name.trim content.name = content.name
  directives : ∀ words ∈ content.directives, IsDirective words

end BlockContent

/-! ### Lines -/

namespace Statement

open BlockContent

/-- A stripped line that is neither empty nor a comment is the statement of its first word. -/
theorem ofLine?_of_strip_eq_self {line : List Char} (hstrip : Text.strip line = line)
    (hne : line ≠ []) (hcomment : line.head? ≠ some '#') (number : Nat) :
    ofLine? number line = some
      { line := number
        word := String.ofList (Text.firstWord line)
        rest := Text.afterFirstWord line } := by
  rw [ofLine?, hstrip]
  split
  · exact absurd rfl hne
  · exact absurd rfl hcomment
  · rfl

/-- The statement of a line that is one word. -/
theorem ofLine?_word {word : String} (hword : IsFirstWord word) (number : Nat) :
    ofLine? number word.toList = some { line := number, word := word, rest := [] } := by
  rw [ofLine?_of_strip_eq_self hword.isWord.strip_eq_self hword.isWord.ne_nil hword.not_comment,
    hword.isWord.firstWord_eq_self, hword.isWord.afterFirstWord_eq_nil, String.ofList_toList]

/-- The statement of a line that is a word and a text behind it. -/
theorem ofLine?_append {word : String} (hword : IsFirstWord word) {text : List Char}
    (htext : Text.strip text = text) (hne : text ≠ []) (number : Nat) :
    ofLine? number (word.toList ++ ' ' :: text) =
      some { line := number, word := word, rest := text } := by
  have hstrip := hword.isWord.strip_append htext hne
  have hhead : (word.toList ++ ' ' :: text).head? ≠ some '#' := by
    obtain ⟨first, later, hcons⟩ := List.exists_cons_of_ne_nil hword.isWord.ne_nil
    have hcomment := hword.not_comment
    rw [hcons] at hcomment ⊢
    exact hcomment
  rw [ofLine?_of_strip_eq_self hstrip (by simp) hhead, hword.isWord.firstWord_append,
    hword.isWord.afterFirstWord_append htext, String.ofList_toList]

/-- The statement of the line that opens a block. -/
theorem ofLine?_openingLine {content : BlockContent} (hkind : IsFirstWord content.kind)
    (hname : Name.trim content.name = content.name) (number : Nat) :
    ofLine? number content.openingLine =
      some { line := number, word := content.kind, rest := content.name.toList } := by
  unfold openingLine
  split_ifs with hempty
  · rw [ofLine?_word hkind, hempty]
    rfl
  · have hstrip : Text.strip content.name.toList = content.name.toList := by
      rw [← String.toList_ofList (l := Text.strip content.name.toList)]
      exact congrArg String.toList hname
    exact ofLine?_append hkind hstrip (by simpa using hempty) number

/-- The statement of the line of a directive. -/
theorem exists_ofLine?_directiveLine {words : List String} (hwords : IsDirective words)
    (number : Nat) :
    ∃ statement, ofLine? number (directiveLine words) = some statement ∧
      statement.isEnd = false ∧
      statement.directive.name :: statement.directive.arguments = words := by
  obtain ⟨first, later, rfl, hfirst, hend⟩ := hwords.opens
  have hwords' : ∀ word ∈ later.map String.toList, Text.IsWord word := by
    intro word hword
    obtain ⟨text, htext, rfl⟩ := List.mem_map.1 hword
    exact hwords.isWord text (List.mem_cons_of_mem _ htext)
  have hline : ofLine? number (directiveLine (first :: later)) = some
      { line := number
        word := first
        rest := Text.writeWords (later.map String.toList) } := by
    cases later with
    | nil =>
      rw [directiveLine, List.map_singleton, Text.writeWords_singleton]
      exact ofLine?_word hfirst number
    | cons next later =>
      rw [directiveLine, List.map_cons, List.map_cons, Text.writeWords_cons_cons]
      have hnext := hwords' next.toList (by simp)
      exact ofLine?_append hfirst (Text.strip_writeWords hwords')
        (Text.writeWords_ne_nil hnext _) number
  refine ⟨_, hline, by simpa [isEnd] using hend, ?_⟩
  rw [directive, Text.words_writeWords hwords', List.map_map]
  simp

end Statement

/-! ### Blocks -/

namespace Reading

open BlockContent

/-- Lines of directives behind an open block are read as further directives of it. -/
theorem exists_directives_of_lines {directives : List (List String)}
    (hdirectives : ∀ words ∈ directives, IsDirective words) (block : Block) (number : Nat)
    (later : List (List Char)) :
    ∃ added next, (added.map fun directive : Directive ↦ directive.name :: directive.arguments) =
        directives ∧
      ofStatementsFrom (some block)
          (Statement.ofLinesFrom number (directives.map directiveLine ++ later)) =
        ofStatementsFrom (some { block with directives := block.directives ++ added })
          (Statement.ofLinesFrom next later) := by
  induction directives generalizing block number with
  | nil => exact ⟨[], number, rfl, by simp⟩
  | cons words directives ih =>
    obtain ⟨hwords, hothers⟩ := List.forall_mem_cons.1 hdirectives
    obtain ⟨statement, hstatement, hend, hsame⟩ :=
      Statement.exists_ofLine?_directiveLine hwords number
    obtain ⟨added, next, hadded, hread⟩ := ih hothers
      { block with directives := block.directives ++ [statement.directive] } (number + 1)
    refine ⟨statement.directive :: added, next, ?_, ?_⟩
    · rw [List.map_cons, hadded, hsame]
    · have hlines : Statement.ofLinesFrom number
          (directiveLine words :: (directives.map directiveLine ++ later)) =
            statement :: Statement.ofLinesFrom (number + 1)
              (directives.map directiveLine ++ later) := by
        rw [Statement.ofLinesFrom, hstatement]
      rw [List.map_cons, List.cons_append, hlines, ofStatementsFrom, hend]
      simpa using hread

/-- The line `end` closes an open block. -/
theorem ofStatementsFrom_end (block : Block) (number : Nat) (later : List (List Char)) :
    ofStatementsFrom (some block) (Statement.ofLinesFrom number ("end".toList :: later)) =
      prepend block (ofStatementsFrom none (Statement.ofLinesFrom (number + 1) later)) := by
  have hfirst : IsFirstWord "end" := by decide
  have hline := Statement.ofLine?_word hfirst number
  rw [Statement.ofLinesFrom, hline]
  rfl

/-- The lines of a content are read as a block that has it. -/
theorem exists_block_of_lines {content : BlockContent} (hcontent : content.IsWritable)
    (number : Nat) (later : List (List Char)) :
    ∃ block next, block.content = content ∧
      ofStatementsFrom none (Statement.ofLinesFrom number (content.lines ++ later)) =
        prepend block (ofStatementsFrom none (Statement.ofLinesFrom next later)) := by
  have hopening := Statement.ofLine?_openingLine hcontent.kind hcontent.name number
  obtain ⟨added, next, hadded, hread⟩ := exists_directives_of_lines hcontent.directives
    { kind := content.kind, name := content.name, line := number, directives := [] } (number + 1)
    ("end".toList :: later)
  rw [ofStatementsFrom_end] at hread
  refine ⟨_, _, ?_, Eq.trans ?_ hread⟩
  · rw [Block.content, List.nil_append, hadded]
  · have hlines : Statement.ofLinesFrom number (content.lines ++ later) =
        { line := number, word := content.kind, rest := content.name.toList } ::
          Statement.ofLinesFrom (number + 1)
            (content.directives.map directiveLine ++ "end".toList :: later) := by
      rw [lines, List.cons_append, Statement.ofLinesFrom, hopening, List.append_assoc]
      rfl
    have hend : (content.kind == "end") = false := by simpa using hcontent.kind_ne
    rw [hlines, ofStatementsFrom, Statement.isEnd, hend, Statement.opened, String.ofList_toList]
    rfl

/-- The lines of contents, one after the other, are read without a fault into blocks that have
them. -/
theorem exists_blocks_of_lines {contents : List BlockContent}
    (hcontents : ∀ content ∈ contents, content.IsWritable) :
    ∃ blocks, ofLines (contents.flatMap lines) = { blocks := blocks, fault := none } ∧
      blocks.map Block.content = contents := by
  have hread : ∀ number, ∃ blocks,
      ofStatementsFrom none (Statement.ofLinesFrom number (contents.flatMap lines)) =
        { blocks := blocks, fault := none } ∧ blocks.map Block.content = contents := by
    induction contents with
    | nil => exact fun number ↦ ⟨[], rfl, rfl⟩
    | cons content contents ih =>
      obtain ⟨hcontent, hothers⟩ := List.forall_mem_cons.1 hcontents
      intro number
      obtain ⟨block, next, hblock, hfirst⟩ :=
        exists_block_of_lines hcontent number (contents.flatMap lines)
      obtain ⟨blocks, hlater, hblocks⟩ := ih hothers next
      refine ⟨block :: blocks, ?_, by rw [List.map_cons, hblock, hblocks]⟩
      rw [List.flatMap_cons, hfirst, hlater]
      rfl
  exact hread 1

end Reading

end TickEconomy
