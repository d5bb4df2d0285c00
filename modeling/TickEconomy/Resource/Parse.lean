import TickEconomy.Block

/-!
# Resource texts

A resource text declares resources in blocks of kind `resource`, each under the name of its block.
A directive `singular` or `plural` gives the name of one unit or of several; the last one of its
kind counts, and without one the name of the block does (`Wording`). Every resource gets a handle
of its own, numbered from a given one on, and is refused when one of its names belongs to an
earlier resource of the text (`Resource.parse`).
-/

set_option autoImplicit false
set_option relaxedAutoImplicit false

namespace TickEconomy

/-- The names that a block gives to one unit of its resource and to several. -/
structure Wording where
  /-- The name of one unit. -/
  singular : String
  /-- The name of several units. -/
  plural : String
  deriving DecidableEq, Repr

namespace Wording

/-- The names after a directive of the block. -/
def read (wording : Wording) (directive : Directive) : Except ParseError Wording :=
  if directive.name ≠ "singular" ∧ directive.name ≠ "plural" then
    .error { line := directive.line, cause := .directiveUnknown directive.name }
  else if directive.argumentText = "" then
    .error { line := directive.line, cause := .directiveTextMissing directive.name }
  else if directive.name = "singular" then
    .ok { wording with singular := directive.argumentText }
  else
    .ok { wording with plural := directive.argumentText }

/-- The names that a block gives. -/
def ofBlock (block : Block) : Except ParseError Wording :=
  block.directives.foldlM read { singular := block.name, plural := block.name }

end Wording

namespace Resource

/-- The resource that a block declares, under a given handle. -/
def ofBlock (handle : Nat) (block : Block) : Except ParseError Resource :=
  if block.kind ≠ "resource" then
    .error { line := block.line, cause := .resourceExpected }
  else if block.name = "" then
    .error { line := block.line, cause := .resourceNameMissing }
  else do
    let wording ← Wording.ofBlock block
    return named handle block.name (some wording.singular) (some wording.plural)

/-- The catalog with the resource that a block declares. -/
def addBlock (firstHandle : Nat) (catalog : Catalog) (block : Block) :
    Except ParseError Catalog := do
  let resource ← ofBlock (firstHandle + catalog.resources.length) block
  match catalog.add resource with
  | .error clash => .error { line := block.line, cause := .resourceNameTaken clash }
  | .ok extended => .ok extended

/-- The resources that the lines of a text declare, in order. -/
def parse (firstHandle : Nat) (lines : List (List Char)) : Except ParseError (List Resource) := do
  let reading := Reading.ofLines lines
  let catalog ← reading.blocks.foldlM (addBlock firstHandle) {}
  reading.finish catalog.resources

end Resource

end TickEconomy
